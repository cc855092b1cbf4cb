import AppMem.Target.Answers
import AppMem.Target.QueueOrder

/-! # Datagrams that abort the target

A datagram of length 0 fails an assertion of the receive thread, and one that is shorter than
the wrapper fails one of the consumer. In a run in which every datagram has a wrapper and every
request is answered nothing fails; this does not need the queue to keep its order.
-/
namespace AppMem.Target
open Library.Bytes Library.Checked Library.Machine Abi Memory Hash Pack Device

section Queue

/-- The slot has held a datagram with a wrapper, and its length in slots is set. -/
def RecCmd.Whole (c : RecCmd) : Prop := sizeofWrapper ≤ c.recvLen.toNat ∧ c.bufCount = 1

/-- All slots below `k` have held a datagram. -/
def PackQueue.WholeBelow (q : PackQueue) (k : ℕ) : Prop :=
  ∀ j c, q.pRxCmd[j]? = some c → j < k → c.Whole

/-- The receive thread works on the slot behind the last, and has received a whole wrapper. -/
def ReceiverSound (q : PackQueue) : ReceiverPc → Prop
  | .get => True
  | .receive j => j = q.rxPi.toNat
  | .update j d => j = q.rxPi.toNat ∧ sizeofWrapper ≤ d.bytes.length ∧
      d.bytes.length ≤ maxBasicPackUnionSize ∧
      ∃ c, q.pRxCmd[j]? = some c ∧ c.recvLen = d.bytes.length.toUInt32

def ConsumerSound (n : ℕ) (q : PackQueue) : ConsumerPc → Prop
  | .test => True
  | .call j | .called j _ =>
    j = q.rxCi.toNat ∧ (q.WholeBelow n ∨ q.rxCi.toNat < q.rxPi.toNat)

/-- A queue of `n` slots. Before the receive thread has gone round once it is ahead of the
consumer; afterwards every slot has held a datagram. -/
structure QueueSound (n : ℕ) (s : TargetState) : Prop where
  size : s.queue.size.toNat = n
  length : s.queue.pRxCmd.length = n
  idx : ∀ (j : ℕ) (c : RecCmd), s.queue.pRxCmd[j]? = some c → c.idx.toNat = j
  pi : s.queue.rxPi.toNat < n
  ci : s.queue.rxCi.toNat < n
  lap : s.queue.WholeBelow n ∨
    s.queue.rxCi.toNat ≤ s.queue.rxPi.toNat ∧ s.queue.WholeBelow s.queue.rxPi.toNat
  receiver : ReceiverSound s.queue s.receiver
  consumer : ConsumerSound n s.queue s.consumer

variable {n : ℕ} {s s' : TargetState}

theorem queueSound_start {packCount : UInt32} (h : 1 ≤ packCount.toNat) {q : PackQueue}
    (hq : amInitPackQueue true packCount = some q) (entries : Registry) :
    QueueSound packCount.toNat (.start q entries) := by
  have R := ring_start h hq
  cases hq
  exact ⟨R.size, R.length, R.idx, h, h,
    .inr ⟨Nat.le_refl _, fun _ _ _ hj => absurd hj (Nat.not_lt_zero _)⟩,
    trivial, trivial⟩

theorem QueueSound.whole (Q : QueueSound n s) {j : ℕ} (hj : j = s.queue.rxCi.toNat)
    (hlap : s.queue.WholeBelow n ∨ s.queue.rxCi.toNat < s.queue.rxPi.toNat) :
    ∃ c, s.queue.pRxCmd[j]? = some c ∧ c.Whole := by
  have hlt : j < s.queue.pRxCmd.length := by
    rw [Q.length, hj]
    exact Q.ci
  have hget := List.getElem?_eq_getElem hlt
  refine ⟨_, hget, ?_⟩
  rcases hlap with hall | hahead
  · exact hall j _ hget (by rw [hj]; exact Q.ci)
  · rcases Q.lap with hall | ⟨-, hbelow⟩
    · exact hall j _ hget (by rw [hj]; exact Q.ci)
    · exact hbelow j _ hget (by rw [hj]; exact hahead)

theorem QueueSound.get (Q : QueueSound n s) (h : s.get = some s') : QueueSound n s' := by
  unfold TargetState.get at h
  split at h
  · cases h
    exact ⟨Q.size, Q.length, Q.idx, Q.pi, Q.ci, Q.lap, rfl, Q.consumer⟩
  · cases h

theorem PackQueue.WholeBelow.receive {q : PackQueue} {k j : ℕ} {d : Datagram}
    (hq : q.WholeBelow k) (hlo : sizeofWrapper ≤ d.bytes.length)
    (hhi : d.bytes.length ≤ maxBasicPackUnionSize) :
    (amNetRecvUnsolMsg q j d).WholeBelow k := by
  intro i c hc hi
  rw [amNetRecvUnsolMsg, List.getElem?_modify] at hc
  rcases Option.map_eq_some_iff.mp hc with ⟨c₀, hc₀, rfl⟩
  have hwhole := hq i c₀ hc₀ hi
  have hnat := Datagram.toNat_length hhi
  split
  · refine ⟨?_, hwhole.2⟩
    rw [RecCmd.receive, hnat]
    exact hlo
  · exact hwhole

theorem QueueSound.recv (Q : QueueSound n s) {d : Datagram} (hlo : sizeofWrapper ≤ d.bytes.length)
    (h : s.receive d = some s') : QueueSound n s' := by
  unfold TargetState.receive at h
  split at h
  · rename_i j hr
    have hj : j = s.queue.rxPi.toNat := by
      have hrec := Q.receiver
      rwa [hr] at hrec
    split at h
    · rename_i hhi
      cases h
      constructor
      · exact Q.size
      · simp only [amNetRecvUnsolMsg, List.length_modify]
        exact Q.length
      · intro i c' hc'
        rw [amNetRecvUnsolMsg, List.getElem?_modify] at hc'
        rcases Option.map_eq_some_iff.mp hc' with ⟨c₀, hc₀, rfl⟩
        split
        · exact Q.idx i c₀ hc₀
        · exact Q.idx i c₀ hc₀
      · exact Q.pi
      · exact Q.ci
      · rcases Q.lap with hall | ⟨hle, hbelow⟩
        · exact .inl (hall.receive hlo hhi)
        · exact .inr ⟨hle, hbelow.receive hlo hhi⟩
      · have hlt : j < s.queue.pRxCmd.length := by
          rw [Q.length, hj]
          exact Q.pi
        refine ⟨hj, hlo, hhi, s.queue.pRxCmd[j].receive d, ?_, rfl⟩
        rw [amNetRecvUnsolMsg, List.getElem?_modify_eq, List.getElem?_eq_getElem hlt]
        rfl
      · have hcons := Q.consumer
        cases hc : s.consumer with
        | test => exact trivial
        | call i =>
          rw [hc] at hcons
          exact ⟨hcons.1, hcons.2.imp_left fun hall => hall.receive hlo hhi⟩
        | called i d' =>
          rw [hc] at hcons
          exact ⟨hcons.1, hcons.2.imp_left fun hall => hall.receive hlo hhi⟩
    · cases h
  · cases h

theorem PackQueue.WholeBelow.set {q : PackQueue} {j k m : ℕ} {c : RecCmd} {pi : UInt32}
    (hq : q.WholeBelow m) (hkm : ∀ i, i < k → i ≠ j → i < m) (hc : c.Whole) :
    PackQueue.WholeBelow { q with pRxCmd := q.pRxCmd.set j c, rxPi := pi } k := by
  intro i c' hc' hi
  by_cases hij : i = j
  · subst hij
    simp only [List.getElem?_set, if_true] at hc'
    split at hc'
    · cases hc'
      exact hc
    · cases hc'
  · simp only [List.getElem?_set, Ne.symm hij, if_false] at hc'
    exact hq i c' hc' (hkm i hi hij)

/-- The queue once the datagram in the slot of the receive thread is counted. -/
def PackQueue.counted (q : PackQueue) (c : RecCmd) : PackQueue :=
  { q with
    pRxCmd := q.pRxCmd.set q.rxPi.toNat { c with bufCount := 1, state := rxCmdStateActive }
    rxPi := if q.rxPi + 1 = q.size then 0 else q.rxPi + 1 }

section Counted
variable {q : PackQueue} {c : RecCmd}

theorem PackQueue.idx_counted
    (hidx : ∀ (j : ℕ) (c : RecCmd), q.pRxCmd[j]? = some c → c.idx.toNat = j)
    (hget : q.pRxCmd[q.rxPi.toNat]? = some c) {i : ℕ} {c' : RecCmd}
    (hc' : (q.counted c).pRxCmd[i]? = some c') : c'.idx.toNat = i := by
  by_cases hij : i = q.rxPi.toNat
  · subst hij
    simp only [PackQueue.counted, List.getElem?_set, if_true] at hc'
    split at hc'
    · cases hc'
      exact hidx _ c hget
    · cases hc'
  · simp only [PackQueue.counted, List.getElem?_set, Ne.symm hij, if_false] at hc'
    exact hidx i c' hc'

theorem PackQueue.WholeBelow.counted {k : ℕ} (hlow : sizeofWrapper ≤ c.recvLen.toNat)
    (hold : q.WholeBelow n ∨ q.WholeBelow q.rxPi.toNat) (hk : k ≤ n)
    (hnext : q.WholeBelow n ∨ k ≤ q.rxPi.toNat + 1) : (q.counted c).WholeBelow k := by
  have hwhole : ({ c with bufCount := 1, state := rxCmdStateActive } : RecCmd).Whole := ⟨hlow, rfl⟩
  rcases hnext with hall | hnext
  · exact hall.set (fun i hi _ => hi.trans_le hk) hwhole
  · rcases hold with hall | hbelow
    · exact hall.set (fun i hi _ => hi.trans_le hk) hwhole
    · exact hbelow.set (fun i hi hij => by omega) hwhole

/-- Either the receive thread has gone round, or its slot is the next one. -/
theorem PackQueue.counted_cases (hlow : sizeofWrapper ≤ c.recvLen.toNat)
    (hold : q.WholeBelow n ∨ q.WholeBelow q.rxPi.toNat) (hsize : q.size.toNat = n)
    (hpi : q.rxPi.toNat < n) :
    (q.counted c).WholeBelow n ∨
      (q.counted c).rxPi.toNat = q.rxPi.toNat + 1 ∧ q.rxPi.toNat + 1 ≤ n := by
  have hlt : q.rxPi < q.size := by
    rw [UInt32.lt_iff_toNat_lt, hsize]
    exact hpi
  have hwrap := (toNat_wrap hlt).1
  rw [hsize] at hwrap
  by_cases hlast : q.rxPi.toNat + 1 = n
  · exact .inl (.counted hlow hold (Nat.le_refl n) (.inr (Nat.le_of_eq hlast.symm)))
  · rw [Nat.mod_eq_of_lt (by omega)] at hwrap
    exact .inr ⟨hwrap, hpi⟩

end Counted

theorem QueueSound.pi_lt (Q : QueueSound n s) : s.queue.rxPi < s.queue.size := by
  rw [UInt32.lt_iff_toNat_lt, Q.size]
  exact Q.pi

theorem QueueSound.update_eq (Q : QueueSound n s) (h : s.update = some s') :
    ∃ c, s.queue.pRxCmd[s.queue.rxPi.toNat]? = some c ∧ sizeofWrapper ≤ c.recvLen.toNat ∧
      s' = { s with queue := s.queue.counted c, receiver := .get } := by
  unfold TargetState.update at h
  split at h
  · rename_i j d hr
    have hrec := Q.receiver
    rw [hr] at hrec
    rcases hrec with ⟨rfl, hlo, hhi, c, hget, hlen⟩
    have hidx : c.idx = s.queue.rxPi := UInt32.toNat_inj.mp (Q.idx _ _ hget)
    have hlow : sizeofWrapper ≤ c.recvLen.toNat := by
      rw [hlen, Datagram.toNat_length hhi]
      exact hlo
    have hne : c.recvLen ≠ 0 := by
      intro h0
      rw [h0] at hlow
      exact absurd hlow (by decide)
    have hinc : incSize c.recvLen = 1 := by
      rw [hlen]
      exact incSize_of_le (Nat.le_trans (by decide) hlo) hhi
    rw [amUpdatePackQueueRxIdx_one hget hidx hne hinc (toNat_wrap Q.pi_lt).2] at h
    cases h
    exact ⟨c, hget, hlow, rfl⟩
  · cases h

theorem QueueSound.update (Q : QueueSound n s) (h : s.update = some s') :
    QueueSound n s' ∧ s'.fault = s.fault := by
  obtain ⟨c, hget, hlow, rfl⟩ := Q.update_eq h
  have hold : s.queue.WholeBelow n ∨ s.queue.WholeBelow s.queue.rxPi.toNat :=
    Q.lap.imp_right And.right
  have hall : s.queue.WholeBelow n → (s.queue.counted c).WholeBelow n := fun hn =>
    .counted hlow hold (Nat.le_refl n) (.inl hn)
  have hcases := PackQueue.counted_cases (c := c) hlow hold Q.size Q.pi
  have hahead : s.queue.WholeBelow n ∨ s.queue.rxCi.toNat < s.queue.rxPi.toNat →
      (s.queue.counted c).WholeBelow n ∨
        s.queue.rxCi.toNat < (s.queue.counted c).rxPi.toNat := by
    rintro (hn | hlt)
    · exact .inl (hall hn)
    · rcases hcases with hn | ⟨hnext, -⟩
      · exact .inl hn
      · exact .inr (hnext.symm ▸ Nat.lt_succ_of_lt hlt)
  refine ⟨⟨Q.size, ?_, ?_, ?_, Q.ci, ?_, trivial, ?_⟩, rfl⟩
  · simp only [PackQueue.counted, List.length_set]
    exact Q.length
  · exact fun i c' hc' => PackQueue.idx_counted Q.idx hget hc'
  · have hwrap := (toNat_wrap Q.pi_lt).1
    rw [Q.size] at hwrap
    exact hwrap.trans_lt (Nat.mod_lt _ (Nat.zero_lt_of_lt Q.pi))
  · rcases hcases with hn | ⟨hnext, hle⟩
    · exact .inl hn
    · rcases Q.lap with hn | ⟨hci, -⟩
      · exact .inl (hall hn)
      · refine .inr ⟨hnext.symm ▸ Nat.le_succ_of_le hci, ?_⟩
        exact .counted hlow hold (hnext.trans_le hle) (.inr hnext.le)
  · have hcons := Q.consumer
    cases hc : s.consumer with
    | test => exact trivial
    | call i =>
      rw [hc] at hcons
      exact ⟨hcons.1, hahead hcons.2⟩
    | called i d' =>
      rw [hc] at hcons
      exact ⟨hcons.1, hahead hcons.2⟩

theorem QueueSound.test (Q : QueueSound n s) (h : s.test = some s') : QueueSound n s' := by
  unfold TargetState.test at h
  split at h
  · cases h
    refine ⟨Q.size, Q.length, Q.idx, Q.pi, Q.ci, Q.lap, Q.receiver, ?_⟩
    by_cases hne : s.queue.rxCi = s.queue.rxPi
    · simp only [hne, ne_eq, not_true_eq_false, if_false]
      trivial
    · simp only [ne_eq, hne, not_false_eq_true, if_true]
      refine ⟨rfl, ?_⟩
      rcases Q.lap with hall | ⟨hle, -⟩
      · exact .inl hall
      · have hne' : s.queue.rxCi.toNat ≠ s.queue.rxPi.toNat := fun h => hne (UInt32.toNat_inj.mp h)
        exact .inr (by omega)
  · cases h

theorem QueueSound.advance (Q : QueueSound n s) (h : s.advance = some s') :
    QueueSound n s' ∧ s'.fault = s.fault := by
  unfold TargetState.advance at h
  split at h
  · rename_i j d hc
    have hcons := Q.consumer
    rw [hc] at hcons
    rcases hcons with ⟨hj, hlap⟩
    obtain ⟨c, hget, hwhole⟩ := Q.whole hj hlap
    rw [hget] at h
    cases h
    have hci : ((s.queue.rxCi + c.bufCount) % s.queue.size).toNat = (s.queue.rxCi.toNat + 1) % n := by
      have hlt := Q.ci
      have hsz := s.queue.size.toNat_lt
      rw [Q.size] at hsz
      rw [hwhole.2, UInt32.toNat_mod, Q.size, UInt32.toNat_add]
      simp only [UInt32.reduceToNat]
      rw [Nat.mod_eq_of_lt (a := s.queue.rxCi.toNat + 1) (by omega)]
    refine ⟨⟨Q.size, Q.length, Q.idx, Q.pi, ?_, ?_, Q.receiver, trivial⟩, rfl⟩
    · rw [hci]
      exact Nat.mod_lt _ (Nat.zero_lt_of_lt Q.ci)
    · rcases Q.lap with hall | ⟨hle, hbelow⟩
      · exact .inl hall
      · rcases hlap with hall | hlt
        · exact .inl hall
        · have hpi := Q.pi
          rw [hci, Nat.mod_eq_of_lt (by omega)]
          exact .inr ⟨hlt, hbelow⟩
  · cases h

end Queue

section Runs

/-- No datagram is shorter than its wrapper, and the target is asked for nothing that takes a
handler out of its objects. -/
def Benign (s : TargetState) : TargetAct → Prop
  | .receive d => sizeofWrapper ≤ d.bytes.length
  | .process env _ => ∀ j c, s.consumer = .call j → s.queue.pRxCmd[j]? = some c →
      Answered env s.table c.rxBuf s.resp
  | _ => True

def AssertsHold (s : TargetState) (as : List TargetAct) : Prop :=
  Always TargetState.step (fun s => s.fault ≠ some .assertion) s as

/-- No step of the run fails, neither at an assertion nor by leaving the objects of the program,
after which no assertion of the source could be relied on. -/
def NeverAborts (s : TargetState) (as : List TargetAct) : Prop :=
  Always TargetState.step (fun s => s.fault = none) s as

structure Unaborted (n : ℕ) (s : TargetState) : Prop where
  queue : QueueSound n s
  fault : s.fault = none

variable {n : ℕ} {s s' : TargetState}

theorem Unaborted.process (U : Unaborted n s) {env : Env} {stale : UInt32}
    (hok : Benign s (.process env stale)) (h : s.process env stale = some s') :
    Unaborted n s' := by
  unfold TargetState.process at h
  split at h
  · rename_i j hc
    have Q := U.queue
    have hcons := Q.consumer
    rw [hc] at hcons
    obtain ⟨c, hget, hwhole⟩ := Q.whole hcons.1 hcons.2
    obtain ⟨r, hr⟩ := (answered_iff stale).mp (hok j c hc hget)
    have hcall : amTargProcessCmd env s.table c s.resp stale = .ok r := by
      rw [amTargProcessCmd, require_of_true _ hwhole.1, ok_bind, hr]
    rw [hget] at h
    dsimp only at h
    rw [hcall] at h
    cases h
    exact ⟨⟨Q.size, Q.length, Q.idx, Q.pi, Q.ci, Q.lap, Q.receiver, hcons⟩, U.fault⟩
  · cases h

/-- Looking for a slot, receiving and comparing the indices cannot fail. -/
theorem TargetState.quiet (h : s.get = some s' ∨ (∃ d, s.receive d = some s') ∨
    s.test = some s') : s'.fault = s.fault := by
  rcases h with h | ⟨d, h⟩ | h
  · unfold TargetState.get at h
    split at h
    · cases h
      rfl
    · cases h
  · unfold TargetState.receive at h
    split at h
    · split at h
      · cases h
        rfl
      · cases h
    · cases h
  · unfold TargetState.test at h
    split at h
    · cases h
      rfl
    · cases h

theorem Unaborted.step {a : TargetAct} (U : Unaborted n s) (hok : Benign s a)
    (h : s.step a = some s') : Unaborted n s' := by
  unfold TargetState.step at h
  split at h
  · cases h
  · cases a with
    | get => exact ⟨U.queue.get h, (TargetState.quiet (.inl h)).trans U.fault⟩
    | receive d =>
      exact ⟨U.queue.recv hok h, (TargetState.quiet (.inr (.inl ⟨d, h⟩))).trans U.fault⟩
    | update =>
      obtain ⟨Q, hf⟩ := U.queue.update h
      exact ⟨Q, hf.trans U.fault⟩
    | test => exact ⟨U.queue.test h, (TargetState.quiet (.inr (.inr h))).trans U.fault⟩
    | process env stale => exact U.process hok h
    | advance =>
      obtain ⟨Q, hf⟩ := U.queue.advance h
      exact ⟨Q, hf.trans U.fault⟩

end Runs

end AppMem.Target
