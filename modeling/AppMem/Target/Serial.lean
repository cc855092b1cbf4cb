import AppMem.Target.QueueOrder
import AppMem.Target.Threads

/-! # The threads as one server

A server without a receive thread takes a datagram, serves it and answers before it takes the
next. As long as the receive thread never fills the last free slot, the two threads leave the
functions as that server does and send the same responses to the same clients, whatever the
order of their steps.
-/
namespace AppMem.Target
open Library.Bytes Library.Checked Library.Machine Library.Ring Abi Memory Pack Device

section Server

/-- The slots of the queue, the one for the next datagram, the functions and the response
buffer. -/
structure SerialTarget where
  slots : ℕ → Frame
  front : ℕ
  table : FuncTable
  resp : PackResp

/-- A datagram and what the environment decides while it is processed. -/
structure Turn where
  datagram : Datagram
  env : Env
  stale : UInt32

abbrev Reply := UInt64 × Processed

def SerialTarget.start (entries : Registry) : SerialTarget := ⟨fun _ => .zero, 0, .start entries, .zero⟩

def receiveInto (slot : Frame) (d : Datagram) : Frame := slot.receive d.bytes

/-- After a datagram was processed in the next of `n` slots. -/
def SerialTarget.next (n : ℕ) (t : SerialTarget) (d : Datagram) (q : FuncTable × Processed) :
    SerialTarget where
  slots := Function.update t.slots t.front (receiveInto (t.slots t.front) d)
  front := (t.front + 1) % n
  table := q.1
  resp := q.2.resp

/-- Receive a datagram into the next of `n` slots, process it and answer. -/
def SerialTarget.serve (n : ℕ) (t : SerialTarget) (r : Turn) : Exec (SerialTarget × Reply) := do
  require (sizeofWrapper ≤ r.datagram.bytes.length) Fault.assertion
  let rxBuf := receiveInto (t.slots t.front) r.datagram
  let q ← amTargProcess r.env t.table rxBuf t.resp r.stale
  return (t.next n r.datagram q, (r.datagram.sender, q.2))

end Server

section Observation

def TargetAct.arrival : TargetAct → Option Datagram
  | .receive d => some d
  | _ => none

def TargetAct.call : TargetAct → Option (Env × UInt32)
  | .process env stale => some (env, stale)
  | _ => none

/-- The `k`-th datagram is processed by the `k`-th call; `ds` have arrived before. -/
def turnsAfter (ds : List Datagram) (as : List TargetAct) : List Turn :=
  List.zipWith (fun d c => ⟨d, c.1, c.2⟩) (ds ++ as.filterMap TargetAct.arrival)
    (as.filterMap TargetAct.call)

def TargetState.sends (s : TargetState) : TargetAct → List Reply
  | .process env stale =>
    match s.consumer with
    | .call j =>
      match s.queue.pRxCmd[j]? with
      | some c =>
        match amTargProcessCmd env s.table c s.resp stale with
        | .ok r => [(c.pvClient, r.2)]
        | .error _ => []
      | none => []
    | _ => []
  | _ => []

def TargetState.sent (s : TargetState) : List TargetAct → List Reply
  | [] => []
  | a :: as =>
    match s.step a with
    | some s' => s.sends a ++ s'.sent as
    | none => []

/-- What is left of a run: the functions, the response buffer and the responses, or the fault. -/
def TargetState.outcome (s : TargetState) (replies : List Reply) :
    Exec ((FuncTable × PackResp) × List Reply) :=
  match s.fault with
  | none => .ok ((s.table, s.resp), replies)
  | some e => .error e

def SerialTarget.outcome (r : SerialTarget × List Reply) : (FuncTable × PackResp) × List Reply :=
  ((r.1.table, r.1.resp), r.2)

/-- No datagram is empty, and there is room for one more besides each that is counted. -/
def Orderly (s : TargetState) : TargetAct → Prop
  | .receive d => d.bytes ≠ []
  | .update => (s.queue.rxPi.toNat + 1) % s.queue.size.toNat ≠ s.queue.rxCi.toNat
  | _ => True

instance (s : TargetState) (a : TargetAct) : Decidable (Orderly s a) :=
  match a with
  | .receive d => inferInstanceAs (Decidable (d.bytes ≠ []))
  | .update => inferInstanceAs
      (Decidable ((s.queue.rxPi.toNat + 1) % s.queue.size.toNat ≠ s.queue.rxCi.toNat))
  | .get | .test | .process _ _ | .advance => .isTrue trivial

end Observation

section Simulation

def ReceiverPc.inFlight : ReceiverPc → List Datagram
  | .update _ d => [d]
  | _ => []

@[simp] theorem inFlight_get : ReceiverPc.get.inFlight = [] := rfl

@[simp] theorem inFlight_receive (j : ℕ) : (ReceiverPc.receive j).inFlight = [] := rfl

@[simp] theorem inFlight_update (j : ℕ) (d : Datagram) : (ReceiverPc.update j d).inFlight = [d] := rfl

/-- The queue with its threads; `l` are the datagrams counted and not processed. -/
def TargetState.waiting (s : TargetState) (l : List Datagram) : State :=
  ⟨s.queue, s.receiver, s.consumer, l, []⟩

/-- The slot of the first datagram that is not processed. -/
def TargetState.front (n : ℕ) (s : TargetState) : ℕ :=
  match s.consumer with
  | .called _ _ => (s.queue.rxCi.toNat + 1) % n
  | _ => s.queue.rxCi.toNat

/-- The server has processed what the threads have; its slots, filled with what it has not seen
yet, are those of the queue. -/
structure Tracks (n : ℕ) (s : TargetState) (t : SerialTarget) (l : List Datagram) : Prop where
  ring : ∃ pending, QueueRing n (s.waiting l) pending
  front : t.front = s.front n
  slots : ∀ (i : ℕ) (c : RecCmd), s.queue.pRxCmd[i]? = some c →
    c.rxBuf = fill n receiveInto t.front t.slots (l ++ s.receiver.inFlight) i
  table : s.table = t.table
  resp : s.resp = t.resp
  running : s.fault = none

variable {n : ℕ} {s s' : TargetState} {t : SerialTarget} {l : List Datagram}

theorem tracks_start {packCount : UInt32} (h : 1 ≤ packCount.toNat) {q : PackQueue}
    (hq : amInitPackQueue true packCount = some q) (entries : Registry) :
    Tracks packCount.toNat (.start q entries) (.start entries) [] where
  ring := ⟨[], ring_start h hq⟩
  front := by
    cases hq
    rfl
  slots i c hi := by
    cases hq
    simp only [TargetState.start, PackQueue.fresh, List.getElem?_map, Option.map_eq_some_iff] at hi
    rcases hi with ⟨k, -, rfl⟩
    rfl
  table := rfl
  resp := rfl
  running := rfl

theorem Tracks.pending (T : Tracks n s t l) : ∃ pending, QueueRing n (s.waiting l) pending ∧
    ((∃ j d, s.consumer = .called j d ∧ pending = d :: l ∧
        t.front = (s.queue.rxCi.toNat + 1) % n) ∨
      (∀ j d, s.consumer ≠ .called j d) ∧ pending = l ∧ t.front = s.queue.rxCi.toNat) := by
  rcases T.ring with ⟨pending, R⟩
  refine ⟨pending, R, ?_⟩
  have hc : ConsumerOk (s.waiting l) pending s.consumer := R.consumer
  have hfront := T.front
  cases h : s.consumer with
  | test =>
    rw [h] at hc
    simp only [TargetState.front, h] at hfront
    exact .inr ⟨nofun, Eq.symm hc, hfront⟩
  | call j =>
    rw [h] at hc
    simp only [TargetState.front, h] at hfront
    exact .inr ⟨nofun, hc.2.2.symm, hfront⟩
  | called j d =>
    rw [h] at hc
    simp only [TargetState.front, h] at hfront
    rcases hc.2 with ⟨rest, hp, hl⟩
    have hl' : l = rest := hl
    exact .inl ⟨j, d, rfl, hl' ▸ hp, hfront⟩

theorem Tracks.front_lt (T : Tracks n s t l) : t.front < n := by
  rcases T.pending with ⟨pending, R, ⟨j, d, -, -, hf⟩ | ⟨-, -, hf⟩⟩
  · rw [hf]
    exact Nat.mod_lt _ (Nat.zero_lt_of_lt R.ci)
  · rw [hf]
    exact R.ci

theorem Tracks.pi (T : Tracks n s t l) : s.queue.rxPi.toNat = produce n t.front l := by
  rcases T.pending with ⟨pending, R, ⟨j, d, -, hp, hf⟩ | ⟨-, hp, hf⟩⟩
  · rw [hf, produce_pop d, ← hp]
    exact R.pi
  · rw [hf, ← hp]
    exact R.pi

theorem Tracks.get (T : Tracks n s t l) (h : s.get = some s') :
    Tracks n s' t l ∧ s'.receiver.inFlight = s.receiver.inFlight := by
  cases hr : s.receiver with
  | get =>
    simp only [TargetState.get, hr, Option.some.injEq] at h
    subst h
    rcases T.ring with ⟨pending, R⟩
    have hslots := T.slots
    rw [hr] at hslots
    refine ⟨⟨⟨pending, R.get ?_⟩, T.front, hslots, T.table, T.resp, T.running⟩, rfl⟩
    simp only [Target.step, TargetState.waiting, hr]
  | receive j => simp [TargetState.get, hr] at h
  | update j d => simp [TargetState.get, hr] at h

theorem Tracks.receive (T : Tracks n s t l) {d : Datagram} (hd : d.bytes ≠ [])
    (h : s.receive d = some s') :
    Tracks n s' t l ∧ s'.receiver.inFlight = s.receiver.inFlight ++ [d] := by
  cases hr : s.receiver with
  | get => simp [TargetState.receive, hr] at h
  | update j d' => simp [TargetState.receive, hr] at h
  | receive j =>
    simp only [TargetState.receive, hr] at h
    split at h
    · next hhi =>
      cases h
      rcases T.ring with ⟨pending, R⟩
      have hj : j = s.queue.rxPi.toNat := by
        have hrec : ReceiverOk s.queue s.receiver := R.receiver
        rwa [hr] at hrec
      have hlo : 1 ≤ d.bytes.length := List.length_pos_iff.mpr hd
      refine ⟨⟨⟨pending, R.recv (d := d) ?_⟩, T.front, ?_, T.table, T.resp, T.running⟩, rfl⟩
      · simp only [Target.step, TargetState.waiting, hr, hlo, hhi, and_self, if_true]
      · intro i c hc
        rw [amNetRecvUnsolMsg, List.getElem?_modify] at hc
        rcases Option.map_eq_some_iff.mp hc with ⟨c₀, hc₀, rfl⟩
        have hbuf := T.slots i c₀ hc₀
        rw [hr, inFlight_receive, List.append_nil] at hbuf
        change _ = fill n receiveInto t.front t.slots (l ++ [d]) i
        rw [fill_concat T.front_lt, ← T.pi, ← hj]
        by_cases hij : j = i
        · subst hij
          rw [if_pos rfl, Function.update_self, ← hbuf]
          exact rfl
        · rw [if_neg hij, Function.update_of_ne (Ne.symm hij), ← hbuf]
    · cases h

theorem Tracks.update (T : Tracks n s t l) (hok : Orderly s .update) (h : s.update = some s') :
    ∃ l', Tracks n s' t l' ∧ l' ++ s'.receiver.inFlight = l ++ s.receiver.inFlight := by
  cases hr : s.receiver with
  | get => simp [TargetState.update, hr] at h
  | receive j => simp [TargetState.update, hr] at h
  | update j d =>
    rcases T.ring with ⟨pending, R⟩
    have hrec : ReceiverOk s.queue s.receiver := R.receiver
    rw [hr] at hrec
    rcases hrec with ⟨rfl, c, hget, hd, hlen, hinc⟩
    have hidx : c.idx = s.queue.rxPi := UInt32.toNat_inj.mp (R.idx _ _ hget)
    have hpi : s.queue.rxPi < s.queue.size := by
      have hlt : s.queue.rxPi.toNat < n := R.pi_lt
      have hsize : s.queue.size.toNat = n := R.size
      rwa [UInt32.lt_iff_toNat_lt, hsize]
    simp only [TargetState.update, hr,
      amUpdatePackQueueRxIdx_one hget hidx hlen hinc (toNat_wrap hpi).2, Option.some.injEq] at h
    have hstep : Target.step (s.waiting l) .update = some (s'.waiting (l ++ [d])) := by
      simp only [Target.step, TargetState.waiting, hr,
        amUpdatePackQueueRxIdx_one hget hidx hlen hinc (toNat_wrap hpi).2, ← h]
    rcases R.update (fun _ => hok) hstep with ⟨p, R'⟩
    subst h
    refine ⟨l ++ [d], ⟨⟨_, R'⟩, T.front, ?_, T.table, T.resp, T.running⟩, ?_⟩
    · intro i c' hc'
      have hslots := T.slots
      rw [hr, inFlight_update] at hslots
      rw [inFlight_get, List.append_nil]
      by_cases hi : s.queue.rxPi.toNat = i
      · subst hi
        have hlt := (List.getElem?_eq_some_iff.mp hget).1
        rw [List.getElem?_set_self hlt] at hc'
        cases hc'
        exact hslots _ c hget
      · rw [List.getElem?_set_ne hi] at hc'
        exact hslots i c' hc'
    · exact List.append_nil _

theorem Tracks.test (T : Tracks n s t l) (h : s.test = some s') :
    Tracks n s' t l ∧ s'.receiver = s.receiver := by
  cases hc : s.consumer with
  | call j => simp [TargetState.test, hc] at h
  | called j d => simp [TargetState.test, hc] at h
  | test =>
    simp only [TargetState.test, hc, Option.some.injEq] at h
    subst h
    rcases T.ring with ⟨pending, R⟩
    refine ⟨⟨⟨pending, R.test ?_⟩, ?_, T.slots, T.table, T.resp, T.running⟩, rfl⟩
    · simp only [Target.step, TargetState.waiting, hc]
    · rw [T.front]
      by_cases he : s.queue.rxCi = s.queue.rxPi
      · simp [TargetState.front, hc, he]
      · simp [TargetState.front, hc, he]

theorem toNat_advance {ci size : UInt32} (h : ci.toNat < size.toNat) :
    ((ci + 1) % size).toNat = (ci.toNat + 1) % size.toNat := by
  have hsz := size.toNat_lt
  rw [UInt32.toNat_mod, UInt32.toNat_add]
  simp only [UInt32.reduceToNat]
  rw [Nat.mod_eq_of_lt (a := ci.toNat + 1) (by omega)]

theorem Tracks.advance (T : Tracks n s t l) (h : s.advance = some s') :
    Tracks n s' t l ∧ s'.receiver = s.receiver := by
  cases hc : s.consumer with
  | test => simp [TargetState.advance, hc] at h
  | call j => simp [TargetState.advance, hc] at h
  | called j d =>
    rcases T.ring with ⟨pending, R⟩
    have hcons : ConsumerOk (s.waiting l) pending s.consumer := R.consumer
    rw [hc] at hcons
    rcases hcons with ⟨rfl, rest, rfl, -⟩
    have hslots := R.slots
    rw [List.map_cons] at hslots
    rcases Option.map_eq_some_iff.mp (hslots.head R.ci) with ⟨c, hget, hentry⟩
    have hbuf : c.bufCount = 1 := congrArg Prod.snd hentry
    have hc' : s.consumer = .called s.queue.rxCi.toNat d := hc
    have hget' : s.queue.pRxCmd[s.queue.rxCi.toNat]? = some c := hget
    simp only [TargetState.advance, hc', hget', hbuf, Option.some.injEq] at h
    have hstep : Target.step (s.waiting l) .advance = some (s'.waiting l) := by
      simp only [Target.step, TargetState.waiting, hc', hget', hbuf, ← h]
    have hring := R.advance hstep
    subst h
    refine ⟨⟨hring, ?_, T.slots, T.table, T.resp, T.running⟩, rfl⟩
    have hsize : s.queue.size.toNat = n := R.size
    have hci : s.queue.rxCi.toNat < s.queue.size.toNat := by
      rw [hsize]
      exact R.ci
    rw [T.front]
    simp only [TargetState.front, hc, toNat_advance hci, hsize]

/-- A call is the server's turn on the first datagram that is not processed. -/
theorem Tracks.turn (T : Tracks n s t l) {j : ℕ} (hc : s.consumer = .call j) (env : Env)
    (stale : UInt32) : ∃ c d rest, s.queue.pRxCmd[j]? = some c ∧ l = d :: rest ∧
      c.pvClient = d.sender ∧
      t.serve n ⟨d, env, stale⟩ = (amTargProcessCmd env s.table c s.resp stale >>= fun q =>
        .ok (t.next n d q, (d.sender, q.2))) ∧
      ∀ q : FuncTable × Processed, Tracks n { s with
        consumer := .called j c.datagram
        table := q.1
        resp := q.2.resp } (t.next n d q) rest := by
  rcases T.pending with ⟨pending, R, ⟨_, _, hcalled, -⟩ | ⟨-, rfl, hf⟩⟩
  · rw [hc] at hcalled
    cases hcalled
  have hcons : ConsumerOk (s.waiting pending) pending s.consumer := R.consumer
  rw [hc] at hcons
  obtain ⟨hj, hne, -⟩ := hcons
  have hj' : j = s.queue.rxCi.toNat := hj
  rcases List.exists_cons_of_ne_nil hne with ⟨d, rest, rfl⟩
  have hhead := R.slots
  rw [List.map_cons] at hhead
  rcases Option.map_eq_some_iff.mp (hhead.head R.ci) with ⟨c, hget, hentry⟩
  have hget : s.queue.pRxCmd[j]? = some c := hj ▸ hget
  have hd : c.datagram = d := congrArg Prod.fst hentry
  -- the slot holds the datagram on top of what the server's slot holds
  have hbuf : c.rxBuf = receiveInto (t.slots t.front) d := by
    rw [T.slots j c hget, hj', ← hf]
    have hroom : (rest ++ s.receiver.inFlight).length < n := by
      have hlt : (d :: rest).length < n := R.room
      have hone : s.receiver.inFlight.length ≤ 1 := by cases s.receiver <;> simp
      rw [List.length_append]
      rw [List.length_cons] at hlt
      omega
    exact fill_head T.front_lt hroom
  have hlen : sizeofWrapper ≤ c.recvLen.toNat ↔ sizeofWrapper ≤ d.bytes.length := by
    rw [← hd, RecCmd.datagram, Frame.datagram, List.length_take, Frame.length_raw]
    simp only [sizeofWrapper, maxBasicPackUnionSize]
    omega
  refine ⟨c, d, rest, hget, rfl, congrArg Datagram.sender hd, ?_, fun q => ?_⟩
  · rw [SerialTarget.serve, amTargProcessCmd, ← hbuf, ← T.table, ← T.resp]
    by_cases h : sizeofWrapper ≤ d.bytes.length
    · rw [require_of_true _ h, require_of_true _ (hlen.mpr h)]
      rfl
    · rw [require_of_false _ h, require_of_false _ (fun h' => h (hlen.mp h'))]
      rfl
  · have hstep : Target.step (s.waiting (d :: rest)) .call =
        some { s.waiting (d :: rest) with
          consumer := .called j c.datagram
          processed := [c.datagram] } := by
      simp only [Target.step, TargetState.waiting, hc, hget, List.nil_append]
    have R' := R.call hstep
    refine ⟨⟨_, R'.size, R'.length, R'.idx, R'.ci, R'.room, R'.pi, R'.slots, R'.receiver, ?_⟩,
      ?_, ?_, rfl, rfl, T.running⟩
    · exact ⟨hj, rest, by rw [hd], rfl⟩
    · change (t.front + 1) % n = (s.queue.rxCi.toNat + 1) % n
      rw [hf]
    · exact T.slots

inductive Effect (n : ℕ) (s : TargetState) (t : SerialTarget) (l : List Datagram) (a : TargetAct)
    (s' : TargetState) : Prop
  | quiet (l' : List Datagram) (T : Tracks n s' t l')
      (hl : l' ++ s'.receiver.inFlight = l ++ s.receiver.inFlight ++ a.arrival.toList)
      (hcall : a.call = none) (hsends : s.sends a = [])
  | served (env : Env) (stale : UInt32) (d : Datagram) (rest : List Datagram) (t' : SerialTarget)
      (r : Reply) (ha : a = .process env stale) (hl : l = d :: rest)
      (hserve : t.serve n ⟨d, env, stale⟩ = .ok (t', r)) (T : Tracks n s' t' rest)
      (hrec : s'.receiver = s.receiver) (hsends : s.sends a = [r])
  | faulted (env : Env) (stale : UInt32) (d : Datagram) (rest : List Datagram) (e : Fault)
      (ha : a = .process env stale) (hl : l = d :: rest)
      (hserve : t.serve n ⟨d, env, stale⟩ = .error e) (hfault : s'.fault = some e)
      (hsends : s.sends a = [])

theorem Tracks.process (T : Tracks n s t l) {env : Env} {stale : UInt32}
    (h : s.process env stale = some s') : Effect n s t l (.process env stale) s' := by
  cases hc : s.consumer with
  | test => simp [TargetState.process, hc] at h
  | called j d => simp [TargetState.process, hc] at h
  | call j =>
    obtain ⟨c, d, rest, hget, rfl, hsender, hserve, htracks⟩ := T.turn hc env stale
    cases hq : amTargProcessCmd env s.table c s.resp stale with
    | error e =>
      rw [hq] at hserve
      simp only [TargetState.process, hc, hget, hq, Option.some.injEq] at h
      subst h
      apply Effect.faulted env stale d rest e rfl rfl hserve rfl
      simp only [TargetState.sends, hc, hget, hq]
    | ok q =>
      rw [hq] at hserve
      simp only [TargetState.process, hc, hget, hq, Option.some.injEq] at h
      subst h
      have hsends : s.sends (.process env stale) = [(d.sender, q.2)] := by
        simp only [TargetState.sends, hc, hget, hq, hsender]
      exact .served env stale d rest _ _ rfl rfl hserve (htracks q) rfl hsends

theorem Tracks.step {a : TargetAct} (T : Tracks n s t l) (hok : Orderly s a)
    (h : s.step a = some s') : Effect n s t l a s' := by
  simp only [TargetState.step, T.running, Option.isSome_none, Bool.false_eq_true, if_false] at h
  cases a with
  | get =>
    obtain ⟨T', hr⟩ := T.get h
    exact .quiet l T' (by rw [hr]; exact (List.append_nil _).symm) rfl rfl
  | receive d =>
    obtain ⟨T', hr⟩ := T.receive hok h
    exact .quiet l T' (by rw [hr, List.append_assoc]; rfl) rfl rfl
  | update =>
    rcases T.update hok h with ⟨l', T', hl⟩
    exact .quiet l' T' (by rw [hl]; exact (List.append_nil _).symm) rfl rfl
  | test =>
    obtain ⟨T', hr⟩ := T.test h
    exact .quiet l T' (by rw [hr]; exact (List.append_nil _).symm) rfl rfl
  | process env stale => exact T.process h
  | advance =>
    obtain ⟨T', hr⟩ := T.advance h
    exact .quiet l T' (by rw [hr]; exact (List.append_nil _).symm) rfl rfl

theorem outcome_cons (r : Reply) (rs : List Reply) :
    s.outcome (r :: rs) = (s.outcome rs).map fun o => (o.1, r :: o.2) := by
  simp only [TargetState.outcome]
  cases s.fault with
  | none => rfl
  | some e => rfl

theorem turnsAfter_nil (ds : List Datagram) : turnsAfter ds [] = [] := List.zipWith_nil_right

/-- A run from corresponding states. -/
theorem Tracks.run {as : List TargetAct} (T : Tracks n s t l)
    (hok : Throughout TargetState.step Orderly s as)
    (hrun : run TargetState.step s as = some s') :
    (as.filterMap TargetAct.call).length ≤
        (l ++ s.receiver.inFlight ++ as.filterMap TargetAct.arrival).length ∧
      (trace (SerialTarget.serve n) t (turnsAfter (l ++ s.receiver.inFlight) as)).map
        SerialTarget.outcome = s'.outcome (s.sent as) := by
  induction as generalizing s t l with
  | nil =>
    cases hrun
    refine ⟨Nat.zero_le _, ?_⟩
    rw [turnsAfter_nil, TargetState.outcome, T.running, T.table, T.resp]
    rfl
  | cons a as ih =>
    rcases Option.bind_eq_some_iff.mp hrun with ⟨s₁, ha, hrest⟩
    obtain ⟨hok₁, hoks⟩ := hok s₁ ha
    have hsent : s.sent (a :: as) = s.sends a ++ s₁.sent as := by simp only [TargetState.sent, ha]
    cases T.step hok₁ ha with
    | quiet l' T' hl hcall hsends =>
      obtain ⟨hlen, htrace⟩ := ih T' hoks hrest
      have harr : l ++ s.receiver.inFlight ++ (a :: as).filterMap TargetAct.arrival =
          l' ++ s₁.receiver.inFlight ++ as.filterMap TargetAct.arrival := by
        rw [hl, List.append_assoc _ a.arrival.toList]
        cases h : a.arrival with
        | none => simp [h]
        | some d => simp [h]
      rw [hsent, hsends, List.nil_append, ← htrace, turnsAfter, turnsAfter, harr,
        List.filterMap_cons_none hcall]
      exact ⟨hlen, rfl⟩
    | served env stale d rest t' r ha hl hserve T' hrec hsends =>
      subst ha hl
      obtain ⟨hlen, htrace⟩ := ih T' hoks hrest
      rw [hrec] at hlen htrace
      refine ⟨Nat.succ_le_succ hlen, ?_⟩
      have hturns : turnsAfter (d :: rest ++ s.receiver.inFlight) (.process env stale :: as) =
          ⟨d, env, stale⟩ :: turnsAfter (rest ++ s.receiver.inFlight) as := rfl
      rw [hturns, trace_cons, hserve, ok_bind, hsent, hsends, List.singleton_append, outcome_cons,
        ← htrace]
      cases trace (SerialTarget.serve n) t' (turnsAfter (rest ++ s.receiver.inFlight) as) with
      | error e => rfl
      | ok q => rfl
    | faulted env stale d rest e ha hl hserve hfault hsends =>
      subst ha hl
      -- nothing follows a fault
      have has : as = [] ∧ s' = s₁ := by
        cases as with
        | nil =>
          cases hrest
          exact ⟨rfl, rfl⟩
        | cons b bs =>
          rcases Option.bind_eq_some_iff.mp hrest with ⟨s₂, hb, -⟩
          simp [TargetState.step, hfault] at hb
      obtain ⟨rfl, rfl⟩ := has
      refine ⟨Nat.succ_le_succ (Nat.zero_le _), ?_⟩
      have hturns : turnsAfter (d :: rest ++ s.receiver.inFlight) [.process env stale] =
          [⟨d, env, stale⟩] := by
        simp [turnsAfter, TargetAct.call]
      rw [hturns, trace_cons, hserve, TargetState.outcome, hfault]
      rfl

end Simulation

def askCount (sender : UInt64) : Datagram where
  bytes := (⟨amPackFuncIdBaseappmem, amPackTypeOpcodeOnly, amOpGetCapCount, 0, 8⟩ : PackWrapper).bytes
  sender := sender

/-- Two slots; the second datagram arrives while the first is processed. -/
def overlapped : List TargetAct :=
  [.get, .receive (askCount 7), .update, .test, .get, .receive (askCount 9),
    .process .zeroed 0, .advance, .update, .test, .process .zeroed 0, .advance]

example : (TargetState.sent (.start (.fresh 2) targetRegistry) overlapped).map
    (fun r => (r.1, r.2.txBytes)) = [(7, 12), (9, 12)] := by decide +kernel

end AppMem.Target
