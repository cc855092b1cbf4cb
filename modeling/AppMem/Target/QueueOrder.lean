import AppMem.Library.Ring
import AppMem.Target.ReceiveQueue

/-! # The order of the receive queue

As long as the receive thread never fills the last free slot, the queue is a ring that holds
exactly the datagrams not yet processed. The source does not look whether there is room.
-/
namespace AppMem.Target
open Library.Bytes Library.Checked Library.Machine Library.Ring Abi Memory Pack

structure InOrder (s : State) : Prop where
  below : s.queue.rxPi < s.queue.size ∧ s.queue.rxCi < s.queue.size
  /-- The commands processed are the datagrams received, in order. -/
  fifo : s.processed <+: s.received
  drained : s.queue.rxCi = s.queue.rxPi → s.processed = s.received
  /-- A command keeps its contents while it is processed. -/
  stable : ∀ j d, s.consumer = .called j d →
    (s.queue.pRxCmd[j]?).map RecCmd.datagram = some d

/-- There is room for one more datagram besides the one that is about to be counted. -/
def NotFull (s : State) (a : Act) : Prop :=
  a = .update →
    (s.queue.rxPi.toNat + 1) % s.queue.size.toNat ≠ s.queue.rxCi.toNat

instance (s : State) (a : Act) : Decidable (NotFull s a) :=
  inferInstanceAs (Decidable (a = .update →
    (s.queue.rxPi.toNat + 1) % s.queue.size.toNat ≠ s.queue.rxCi.toNat))

section Slots

def RecCmd.entry (c : RecCmd) : Datagram × UInt32 := (c.datagram, c.bufCount)

def PackQueue.slot (q : PackQueue) (i : ℕ) : Option (Datagram × UInt32) :=
  q.pRxCmd[i]?.map RecCmd.entry

theorem slot_set {q : PackQueue} {j : ℕ} (hj : j < q.pRxCmd.length) (c : RecCmd) :
    PackQueue.slot { q with pRxCmd := q.pRxCmd.set j c } =
      Function.update q.slot j (some c.entry) := by
  funext i
  by_cases hi : i = j
  · subst hi
    simp [PackQueue.slot, hj]
  · simp [PackQueue.slot, Function.update_of_ne hi, Ne.symm hi]

theorem slot_recv {q : PackQueue} {j : ℕ} {c : RecCmd} (hj : q.pRxCmd[j]? = some c) (d : Datagram) :
    PackQueue.slot (amNetRecvUnsolMsg q j d) =
      Function.update q.slot j (some (c.receive d).entry) := by
  funext i
  by_cases hi : i = j
  · subst hi
    simp [PackQueue.slot, amNetRecvUnsolMsg, hj]
  · simp [PackQueue.slot, amNetRecvUnsolMsg, Function.update_of_ne hi, Ne.symm hi]

/-- A datagram of at most one frame takes one slot. -/
theorem incSize_of_le {n : ℕ} (hlo : 1 ≤ n) (hhi : n ≤ maxBasicPackUnionSize) :
    incSize n.toUInt32 = 1 := by
  have hn : n.toUInt32.toNat = n := by
    simp only [maxBasicPackUnionSize] at hhi
    simp only [Nat.toUInt32, UInt32.toNat_ofNat']
    omega
  have hdiv : (n.toUInt32 / 512).toNat = n / 512 := by
    rw [UInt32.toNat_div, hn]
    rfl
  have hmod : (n.toUInt32 % 512).toNat = n % 512 := by
    rw [UInt32.toNat_mod, hn]
    rfl
  apply UInt32.toNat_inj.mp
  unfold incSize
  by_cases h : n = 512
  · subst h
    rfl
  · have hlt : n < 512 := by
      simp only [maxBasicPackUnionSize] at hhi
      omega
    have hne : n.toUInt32 % 512 ≠ 0 := by
      intro h0
      rw [h0, UInt32.toNat_zero] at hmod
      omega
    simp only [if_pos hne, UInt32.toNat_add, hdiv, Nat.div_eq_of_lt hlt]
    rfl

end Slots

section Invariant

def ReceiverOk (q : PackQueue) : ReceiverPc → Prop
  | .get => True
  | .receive j => j = q.rxPi.toNat
  | .update j d => j = q.rxPi.toNat ∧ ∃ c, q.pRxCmd[j]? = some c ∧ c.datagram = d ∧
      c.recvLen ≠ 0 ∧ incSize c.recvLen = 1

/-- Where the consumer stands: its slot is the first. -/
def ConsumerOk (s : State) (pending : List Datagram) : ConsumerPc → Prop
  | .test => s.received = s.processed ++ pending
  | .call j => j = s.queue.rxCi.toNat ∧ pending ≠ [] ∧ s.received = s.processed ++ pending
  | .called j d => j = s.queue.rxCi.toNat ∧
      ∃ rest, pending = d :: rest ∧ s.received = s.processed ++ rest

/-- The queue is a ring of `n` slots with room, which holds `pending`. -/
structure QueueRing (n : ℕ) (s : State) (pending : List Datagram) : Prop where
  size : s.queue.size.toNat = n
  length : s.queue.pRxCmd.length = n
  idx : ∀ (j : ℕ) (c : RecCmd), s.queue.pRxCmd[j]? = some c → c.idx.toNat = j
  ci : s.queue.rxCi.toNat < n
  room : pending.length < n
  pi : s.queue.rxPi.toNat = produce n s.queue.rxCi.toNat pending
  slots : Holds n s.queue.rxCi.toNat s.queue.slot (pending.map fun d => some (d, 1))
  receiver : ReceiverOk s.queue s.receiver
  consumer : ConsumerOk s pending s.consumer

variable {n : ℕ} {s s' : State} {pending : List Datagram}

theorem ring_start {packCount : UInt32} (h : 1 ≤ packCount.toNat) {q : PackQueue}
    (hq : amInitPackQueue true packCount = some q) : QueueRing packCount.toNat (.start q) [] := by
  cases hq
  constructor
  · rfl
  · simp [State.start, PackQueue.fresh]
  · intro j c hj
    simp only [State.start, PackQueue.fresh, List.getElem?_map, Option.map_eq_some_iff] at hj
    rcases hj with ⟨i, hi, rfl⟩
    rcases List.getElem?_eq_some_iff.mp hi with ⟨hlt, rfl⟩
    have hlt' : j < packCount.toNat := by simpa using hlt
    have hsz := packCount.toNat_lt
    simp only [initRecCmd, List.getElem_range, Nat.toUInt32, UInt32.toNat_ofNat']
    omega
  · exact h
  · exact h
  · exact (Nat.mod_eq_of_lt h).symm
  · exact holds_nil
  · trivial
  · rfl

theorem QueueRing.pi_lt (R : QueueRing n s pending) : s.queue.rxPi.toNat < n := by
  rw [R.pi]
  exact produce_lt (Nat.zero_lt_of_lt R.ci)

theorem QueueRing.inOrder (R : QueueRing n s pending) : InOrder s where
  below := by
    constructor
    · rw [UInt32.lt_iff_toNat_lt, R.size]
      exact R.pi_lt
    · rw [UInt32.lt_iff_toNat_lt, R.size]
      exact R.ci
  fifo := by
    have hc := R.consumer
    cases h : s.consumer with
    | test =>
      rw [h] at hc
      exact ⟨_, hc.symm⟩
    | call j =>
      rw [h] at hc
      exact ⟨_, hc.2.2.symm⟩
    | called j d =>
      rw [h] at hc
      rcases hc.2 with ⟨rest, _, hrest⟩
      exact ⟨rest, hrest.symm⟩
  drained heq := by
    have hempty : pending = [] := by
      apply (produce_eq_iff R.ci R.room).mp
      rw [← R.pi, heq]
    have hc := R.consumer
    cases h : s.consumer with
    | test =>
      rw [h] at hc
      rw [hc, hempty, List.append_nil]
    | call j =>
      rw [h] at hc
      exact absurd hempty hc.2.1
    | called j d =>
      rw [h] at hc
      rcases hc.2 with ⟨rest, hp, _⟩
      rw [hempty] at hp
      cases hp
  stable := by
    intro j d h
    have hc := R.consumer
    rw [h] at hc
    rcases hc with ⟨rfl, rest, hp, _⟩
    have hhead := R.slots
    rw [hp] at hhead
    have hslot := hhead.head R.ci
    rcases Option.map_eq_some_iff.mp hslot with ⟨c, hget, hentry⟩
    rw [hget]
    exact congrArg some (congrArg Prod.fst hentry)

/-- Nothing the consumer does touches the slots. -/
theorem QueueRing.with_consumer (R : QueueRing n s pending) {c : ConsumerPc} {ps : List Datagram}
    (hc : ConsumerOk { s with consumer := c, processed := ps } pending c) :
    QueueRing n { s with consumer := c, processed := ps } pending :=
  ⟨R.size, R.length, R.idx, R.ci, R.room, R.pi, R.slots, R.receiver, hc⟩

theorem QueueRing.get (R : QueueRing n s pending) (h : step s .get = some s') :
    QueueRing n s' pending := by
  cases hr : s.receiver with
  | get =>
    simp only [step, hr, Option.some.injEq] at h
    subst h
    exact ⟨R.size, R.length, R.idx, R.ci, R.room, R.pi, R.slots, rfl, R.consumer⟩
  | receive j => simp [step, hr] at h
  | update j d => simp [step, hr] at h

theorem QueueRing.free (R : QueueRing n s pending) :
    ∃ c, s.queue.pRxCmd[s.queue.rxPi.toNat]? = some c ∧ c.idx = s.queue.rxPi := by
  have hlt := R.pi_lt
  rw [← R.length] at hlt
  have hget := List.getElem?_eq_getElem hlt
  exact ⟨_, hget, UInt32.toNat_inj.mp (R.idx _ _ hget)⟩

theorem QueueRing.recv {d : Datagram} (R : QueueRing n s pending)
    (h : step s (.receive d) = some s') : QueueRing n s' pending := by
  cases hr : s.receiver with
  | get => simp [step, hr] at h
  | update j d => simp [step, hr] at h
  | receive j =>
    have hj : j = s.queue.rxPi.toNat := by
      have := R.receiver
      rwa [hr] at this
    subst hj
    simp only [step, hr] at h
    split at h
    · next hlen =>
      cases h
      rcases R.free with ⟨c, hget, hidx⟩
      have hnat := Datagram.toNat_length hlen.2
      constructor
      · exact R.size
      · simp only [amNetRecvUnsolMsg, List.length_modify]
        exact R.length
      · intro i c' hc'
        rw [amNetRecvUnsolMsg, List.getElem?_modify] at hc'
        rcases Option.map_eq_some_iff.mp hc' with ⟨c₀, hc₀, rfl⟩
        split
        · exact R.idx i c₀ hc₀
        · exact R.idx i c₀ hc₀
      · exact R.ci
      · exact R.room
      · exact R.pi
      · rw [slot_recv hget, R.pi]
        have hlen' : (pending.map fun d => some (d, (1 : UInt32))).length < n := by
          rw [List.length_map]
          exact R.room
        have hscratch := R.slots.scratch hlen'
        rw [produce, List.length_map] at hscratch
        exact hscratch _
      · refine ⟨rfl, c.receive d, ?_, ?_, ?_, ?_⟩
        · rw [amNetRecvUnsolMsg, List.getElem?_modify_eq, hget]
          rfl
        · simp only [RecCmd.datagram, RecCmd.receive, hnat, Frame.datagram_receive _ hlen.2]
        · intro h0
          have hzero := congrArg UInt32.toNat h0
          rw [RecCmd.receive, hnat, UInt32.toNat_zero] at hzero
          omega
        · exact incSize_of_le hlen.1 hlen.2
      · exact R.consumer
    · cases h

theorem amUpdatePackQueueRxIdx_one {q : PackQueue} {j : ℕ} {c : RecCmd}
    (hget : q.pRxCmd[j]? = some c) (hidx : c.idx = q.rxPi) (hlen : c.recvLen ≠ 0)
    (hinc : incSize c.recvLen = 1) (hle : ¬ q.size < q.rxPi + 1) :
    amUpdatePackQueueRxIdx q j = .ok ({ q with
      pRxCmd := q.pRxCmd.set j { c with bufCount := 1, state := rxCmdStateActive }
      rxPi := if q.rxPi + 1 = q.size then 0 else q.rxPi + 1 }, amRetGood) := by
  simp only [amUpdatePackQueueRxIdx, hget, require_of_true _ hidx, ok_bind, if_pos hlen, hinc,
    if_neg hle, List.set_set]
  rfl

theorem toNat_wrap {v size : UInt32} (h : v < size) :
    (if v + 1 = size then 0 else v + 1).toNat = (v.toNat + 1) % size.toNat ∧ ¬ size < v + 1 := by
  have hlt := UInt32.lt_iff_toNat_lt.mp h
  have hsz := size.toNat_lt
  have hadd : (v + 1).toNat = v.toNat + 1 := by
    simp only [UInt32.toNat_add, UInt32.reduceToNat]
    omega
  constructor
  · split
    · next he =>
      have := congrArg UInt32.toNat he
      rw [hadd] at this
      rw [this, Nat.mod_self, UInt32.toNat_zero]
    · next hne =>
      have hne' : v.toNat + 1 ≠ size.toNat := by
        rw [← hadd]
        exact fun h => hne (UInt32.toNat_inj.mp h)
      rw [hadd, Nat.mod_eq_of_lt (by omega)]
  · rw [UInt32.lt_iff_toNat_lt, hadd]
    omega

/-- The state after an update: the index has moved, whether or not there was room. -/
theorem QueueRing.update_eq (R : QueueRing n s pending) (h : step s .update = some s') :
    ∃ j d c, s.receiver = .update j d ∧ j = s.queue.rxPi.toNat ∧ s.queue.pRxCmd[j]? = some c ∧
      c.datagram = d ∧ s' = { s with
        queue := { s.queue with
          pRxCmd := s.queue.pRxCmd.set j { c with bufCount := 1, state := rxCmdStateActive }
          rxPi := if s.queue.rxPi + 1 = s.queue.size then 0 else s.queue.rxPi + 1 }
        receiver := .get
        received := s.received ++ [d] } := by
  cases hr : s.receiver with
  | get => simp [step, hr] at h
  | receive j => simp [step, hr] at h
  | update j d =>
    have hrec := R.receiver
    rw [hr] at hrec
    rcases hrec with ⟨rfl, c, hget, hd, hlen, hinc⟩
    have hidx : c.idx = s.queue.rxPi := UInt32.toNat_inj.mp (R.idx _ _ hget)
    have hpi : s.queue.rxPi < s.queue.size := by
      rw [UInt32.lt_iff_toNat_lt, R.size]
      exact R.pi_lt
    simp only [step, hr,
      amUpdatePackQueueRxIdx_one hget hidx hlen hinc (toNat_wrap hpi).2, Option.some.injEq] at h
    exact ⟨_, d, c, rfl, rfl, hget, hd, h.symm⟩

theorem QueueRing.update (R : QueueRing n s pending) (hroom : NotFull s .update)
    (h : step s .update = some s') : ∃ d, QueueRing n s' (pending ++ [d]) := by
  rcases R.update_eq h with ⟨j, d, c, hr, rfl, hget, hd, rfl⟩
  have hpi : s.queue.rxPi < s.queue.size := by
    rw [UInt32.lt_iff_toNat_lt, R.size]
    exact R.pi_lt
  have hwrap := (toNat_wrap hpi).1
  have hroom' : pending.length + 1 < n := by
    have hne : pending.length + 1 ≠ n := by
      intro hfull
      have := (full_iff R.ci R.room).mpr hfull
      rw [← R.pi, ← R.size] at this
      exact hroom rfl this
    have := R.room
    omega
  refine ⟨d, ?_⟩
  constructor
  · exact R.size
  · simp only [List.length_set]
    exact R.length
  · intro i c' hc'
    simp only [List.getElem?_set] at hc'
    split at hc'
    · next hi =>
      split at hc'
      · cases hc'
        rw [← hi]
        exact R.idx _ c hget
      · cases hc'
    · exact R.idx i c' hc'
  · exact R.ci
  · rw [List.length_append, List.length_singleton]
    exact hroom'
  · rw [produce_push, ← R.pi, hwrap, R.size]
  · have hlt : s.queue.rxPi.toNat < s.queue.pRxCmd.length := by
      rw [R.length]
      exact R.pi_lt
    have hpush := R.slots.push (by rw [List.length_map]; exact R.room) (some (d, 1))
    have hslot := slot_set (q := s.queue) hlt { c with bufCount := 1, state := rxCmdStateActive }
    have hentry : ({ c with bufCount := 1, state := rxCmdStateActive } : RecCmd).entry = (d, 1) := by
      rw [← hd]
      rfl
    rw [hentry] at hslot
    rw [List.map_append, List.map_singleton]
    change Holds n s.queue.rxCi.toNat (PackQueue.slot { s.queue with
      pRxCmd := s.queue.pRxCmd.set s.queue.rxPi.toNat
        { c with bufCount := 1, state := rxCmdStateActive } }) _
    rw [hslot, R.pi]
    rw [produce, List.length_map] at hpush
    exact hpush
  · trivial
  · have hc := R.consumer
    cases hcons : s.consumer with
    | test =>
      rw [hcons] at hc
      simp only [ConsumerOk] at hc ⊢
      rw [hc, List.append_assoc]
    | call j =>
      rw [hcons] at hc
      refine ⟨hc.1, List.append_ne_nil_of_left_ne_nil hc.2.1 _, ?_⟩
      rw [hc.2.2, List.append_assoc]
    | called j x =>
      rw [hcons] at hc
      rcases hc with ⟨hj, rest, rfl, hrest⟩
      exact ⟨hj, rest ++ [d], rfl, by rw [hrest, List.append_assoc]⟩

theorem QueueRing.test (R : QueueRing n s pending) (h : step s .test = some s') :
    QueueRing n s' pending := by
  cases hcons : s.consumer with
  | call j => simp [step, hcons] at h
  | called j d => simp [step, hcons] at h
  | test =>
    simp only [step, hcons, Option.some.injEq] at h
    subst h
    have hc := R.consumer
    rw [hcons] at hc
    apply R.with_consumer
    by_cases hne : s.queue.rxCi = s.queue.rxPi
    · rw [if_neg (not_not.mpr hne)]
      exact hc
    · rw [if_pos hne]
      refine ⟨rfl, ?_, hc⟩
      intro hempty
      apply hne
      apply UInt32.toNat_inj.mp
      rw [R.pi, hempty]
      exact (Nat.mod_eq_of_lt R.ci).symm

theorem QueueRing.call (R : QueueRing n s pending) (h : step s .call = some s') :
    QueueRing n s' pending := by
  cases hcons : s.consumer with
  | test => simp [step, hcons] at h
  | called j d => simp [step, hcons] at h
  | call j =>
    have hc := R.consumer
    rw [hcons] at hc
    rcases hc with ⟨rfl, hne, hrec⟩
    rcases List.exists_cons_of_ne_nil hne with ⟨d, rest, rfl⟩
    have hslot := Holds.head R.slots R.ci
    rcases Option.map_eq_some_iff.mp hslot with ⟨c, hget, hentry⟩
    have hd : c.datagram = d := congrArg Prod.fst hentry
    simp only [step, hcons, hget, hd, Option.some.injEq] at h
    subst h
    apply R.with_consumer
    exact ⟨rfl, rest, rfl, by rw [hrec, List.append_assoc, List.singleton_append]⟩

theorem QueueRing.advance (R : QueueRing n s pending) (h : step s .advance = some s') :
    ∃ rest, QueueRing n s' rest := by
  cases hcons : s.consumer with
  | test => simp [step, hcons] at h
  | call j => simp [step, hcons] at h
  | called j d =>
    have hc := R.consumer
    rw [hcons] at hc
    rcases hc with ⟨rfl, rest, rfl, hrec⟩
    have hslots := R.slots
    rw [List.map_cons] at hslots
    have hslot := hslots.head R.ci
    rcases Option.map_eq_some_iff.mp hslot with ⟨c, hget, hentry⟩
    have hbuf : c.bufCount = 1 := congrArg Prod.snd hentry
    simp only [step, hcons, hget, hbuf, Option.some.injEq] at h
    subst h
    have hci : ((s.queue.rxCi + 1) % s.queue.size).toNat = (s.queue.rxCi.toNat + 1) % n := by
      have hlt := R.ci
      have hsz := s.queue.size.toNat_lt
      rw [R.size] at hsz
      rw [UInt32.toNat_mod, R.size, UInt32.toNat_add]
      simp only [UInt32.reduceToNat]
      rw [Nat.mod_eq_of_lt (a := s.queue.rxCi.toNat + 1) (by omega)]
    refine ⟨rest, R.size, R.length, R.idx, ?_, ?_, ?_, ?_, R.receiver, hrec⟩
    · rw [hci]
      exact Nat.mod_lt _ (Nat.zero_lt_of_lt R.ci)
    · exact Nat.lt_of_succ_lt R.room
    · rw [hci, produce_pop]
      exact R.pi
    · rw [hci]
      exact hslots.pop

/-- Every step keeps the ring, as long as there is room. -/
theorem QueueRing.step {a : Act} (R : QueueRing n s pending) (hroom : NotFull s a)
    (h : Target.step s a = some s') : ∃ pending', QueueRing n s' pending' := by
  cases a with
  | get => exact ⟨_, R.get h⟩
  | receive d => exact ⟨_, R.recv h⟩
  | update =>
    rcases R.update hroom h with ⟨d, hd⟩
    exact ⟨_, hd⟩
  | test => exact ⟨_, R.test h⟩
  | call => exact ⟨_, R.call h⟩
  | advance => exact R.advance h

/-- A datagram that takes the last slot makes both indices equal, and is forgotten. -/
theorem QueueRing.necessary {a : Act} (R : QueueRing n s pending) (hs : InOrder s)
    (h : Target.step s a = some s') (hs' : InOrder s') : NotFull s a := by
  rintro rfl hfull
  rcases R.update_eq h with ⟨j, d, c, hr, rfl, hget, hd, rfl⟩
  have hpi : s.queue.rxPi < s.queue.size := by
    rw [UInt32.lt_iff_toNat_lt, R.size]
    exact R.pi_lt
  have heq : s.queue.rxCi =
      if s.queue.rxPi + 1 = s.queue.size then 0 else s.queue.rxPi + 1 := by
    apply UInt32.toNat_inj.mp
    rw [(toNat_wrap hpi).1, hfull]
  have hall := hs'.drained heq
  have hlen := hs.fifo.length_le
  have := congrArg List.length hall
  rw [List.length_append, List.length_singleton] at this
  dsimp only at this
  omega

end Invariant

/-- The promises hold in every state of a run exactly when no step of the run moves the index of
the receive thread onto that of the consumer. -/
theorem receiveQueue_inOrder_iff {packCount : UInt32} {q : PackQueue} {as : List Act}
    (hsize : 1 ≤ packCount.toNat) (hq : amInitPackQueue true packCount = some q) :
    Always step InOrder (.start q) as ↔ Throughout step NotFull (.start q) as := by
  have hstart : ∃ pending, QueueRing packCount.toNat (.start q) pending := ⟨[], ring_start hsize hq⟩
  constructor
  · apply throughout_of_always (I := fun s => ∃ pending, QueueRing packCount.toNat s pending) _ _ hstart
    · rintro s a s' ⟨pending, R⟩ hok h
      exact R.step hok h
    · rintro s a s' ⟨pending, R⟩ hs h hs'
      exact R.necessary hs h hs'
  · apply always_of_throughout (I := fun s => ∃ pending, QueueRing packCount.toNat s pending) _ _ hstart
    · rintro s ⟨pending, R⟩
      exact R.inOrder
    · rintro s a s' ⟨pending, R⟩ hok h
      exact R.step hok h

/-- Two datagrams through a queue of two slots, each processed before the next arrives. -/
theorem receiveQueue_inOrder_alternating :
    Always step InOrder (.start (.fresh 2)) [.get, .receive ⟨[1], 7⟩, .update, .test, .call,
      .advance, .get, .receive ⟨[2], 7⟩, .update, .test, .call, .advance] := by
  have hsize : 1 ≤ (2 : UInt32).toNat := by decide
  apply (receiveQueue_inOrder_iff hsize rfl).mpr
  decide +kernel

/-- The consumer is slow: with two slots, two datagrams leave both indices equal and nothing
processed. -/
theorem not_receiveQueue_inOrder :
    ¬ Always step InOrder (.start (.fresh 2)) [.get, .receive ⟨[1], 7⟩, .update,
      .get, .receive ⟨[2], 7⟩, .update] := by
  intro h
  have hrun : (run step (.start (.fresh 2))
      [.get, .receive ⟨[1], 7⟩, .update, .get, .receive ⟨[2], 7⟩, .update]).map
      (fun s => (s.queue.rxCi, s.queue.rxPi, s.received.length, s.processed)) =
      some (0, 0, 2, []) := by decide +kernel
  rcases Option.map_eq_some_iff.mp hrun with ⟨s, hs, hvals⟩
  simp only [Prod.mk.injEq] at hvals
  have hall := (h.run hs).drained (hvals.1.trans hvals.2.1.symm)
  rw [hvals.2.2.2] at hall
  rw [← hall] at hvals
  exact absurd hvals.2.2.1 (by decide)

end AppMem.Target
