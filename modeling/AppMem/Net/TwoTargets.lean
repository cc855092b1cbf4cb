import AppMem.Net.Reply
import AppMem.Target.Alike

/-! # Two targets on the same requests

The allocations of both succeed and land in the same places; what `malloc` leaves in a block and what
the local `tx_bytes` holds before anyone sets it may differ. A step is determined when neither shows:
its length comes from the dispatcher or the handler, and it looks only at bytes that an earlier step
has stored.
-/
namespace AppMem.Net
open Library.Bytes Library.Checked Library.TwoRuns Abi Memory Pack Device Target

/-- A whole request, and what the environment decides while it is served. -/
structure Call where
  request : PackAll
  env : Env
  stale : UInt32

/-- One request to two targets that find the same memory. -/
structure SameCall (c c' : Call) : Prop where
  request : c'.request = c.request
  ample : c.env.Ample
  ample' : c'.env.Ample
  addr : c'.env.addr = c.env.addr

section Steps
variable {n : ℕ}

/-- The target receives a whole datagram and answers it; `sendto` does not send what is longer than
a datagram, and nobody learns of it. -/
def answer (s : RowTarget n) (c : Call) : Exec (RowTarget n × Option (List UInt8)) := do
  let slot := s.slot.receive (c.request.datagram maxBasicPackUnionSize)
  let r ← amTargProcessRow c.env s.table slot s.resp c.stale
  if r.2.txBytes.toNat ≤ maxDatagram then
    require (r.2.txBytes.toNat ≤ (n + 1) * maxBasicPackUnionSize) Fault.bounds
    return (⟨slot, r.2.resp, r.1⟩, some (r.2.resp.raw.take r.2.txBytes.toNat))
  else return (⟨slot, r.2.resp, r.1⟩, none)

/-- A started target with `n + 1` response buffers. -/
def startTarget (n : ℕ) (slot : PackAll) (entries : Registry) : RowTarget n :=
  ⟨slot, .zero n, .start entries⟩

/-- Both targets get through and send the same. -/
def SameResponses (s : RowTarget n) (cs cs' : List Call) : Prop :=
  ∃ s₁ s₂ sent, trace answer s cs = .ok (s₁, sent) ∧ trace answer s cs' = .ok (s₂, sent)

/-- A target, and the bytes of its functions that were stored since it started. -/
structure Watched (n : ℕ) where
  target : RowTarget n
  known : Fin amTargetMaxFunctions → Set ℕ

def Watched.learn (w : Watched n) (rxBuf : PackAll) : Fin amTargetMaxFunctions → Set ℕ :=
  match amValidateFunctionId rxBuf.wrap.funcId with
  | none => w.known
  | some i =>
    match w.target.table.slots i with
    | .base =>
      match amPackSelect (some baseHdr) rxBuf (echoWrap rxBuf w.target.resp.head) with
      | .ok (.call hd c _) => hd.learns w.target.table w.known c
      | _ => w.known
    | .device f =>
      match amPackSelect (some f.hdr) rxBuf (echoWrap rxBuf w.target.resp.head) with
      | .ok (.call hd c _) => Function.update w.known i (w.known i ∪ hd.stores c)
      | _ => w.known
    | _ => w.known

def watch (w : Watched n) (c : Call) : Exec (Watched n × Option (List UInt8)) := do
  let r ← answer w.target c
  return (⟨r.1, w.learn c.request⟩, r.2)

/-- The length is one that `sendto` refuses, or it lies inside the response buffers. -/
def Sendable (n : ℕ) (len : UInt32) : Prop :=
  maxDatagram < len.toNat ∨ len.toNat ≤ (n + 1) * maxBasicPackUnionSize

/-- A call of the base function is refused, or writes and counts inside the response buffers. -/
def BaseDetermined (n : ℕ) (env : Env) (t : FuncTable) (hd : BaseHandler) (c : PackCall) : Prop :=
  (∃ e, BaseRefuses env t hd c e) ∨ ∃ m own, BaseWrites env t hd c m own ∧
    m ≤ bodySize + n * maxBasicPackUnionSize ∧ Sendable n own

/-- A call of a device function is refused, or it writes and counts inside the response buffers, has
a length from the dispatcher or the handler, and looks only at what is known. -/
def DeviceDetermined (n : ℕ) (K : Set ℕ) (env : Env) (f : MemFunction) (hd : DeviceHandler)
    (c : PackCall) (tx : Option UInt32) : Prop :=
  (∃ e, DeviceRefuses env f hd c e) ∨ ∃ m len, DeviceWrites env f hd c m ∧
    m ≤ bodySize + n * maxBasicPackUnionSize ∧ tx.or hd.ownLength = some len ∧ Sendable n len ∧
    hd.looksAt f c ⊆ K

/-- The request in the state it arrives in: one without a function is answered with an error, and
otherwise the operation is in the table and the call it selects, if any, is determined. -/
def Determined (w : Watched n) (c : Call) : Prop :=
  match amValidateFunctionId c.request.wrap.funcId with
  | none => True
  | some i =>
    match w.target.table.slots i with
    | .null => True
    | .freed => False
    | .base => c.request.wrap.op.toNat < amOpMaxOps ∧ ∀ hd pc tx,
        amPackSelect (some baseHdr) c.request (echoWrap c.request w.target.resp.head) =
          .ok (.call hd pc tx) → BaseDetermined n c.env w.target.table hd pc
    | .device f => c.request.wrap.op.toNat < amOpMaxOps ∧ ∀ hd pc tx,
        amPackSelect (some f.hdr) c.request (echoWrap c.request w.target.resp.head) =
          .ok (.call hd pc tx) → DeviceDetermined n (w.known i) c.env f hd pc tx

end Steps

section Rows
variable {H S : Type} {n : ℕ} {invoke invoke' : Invoke H S} {pFunc : Option (FuncHdr H)}
  {rxBuf : PackAll} {row : Row n} {s s' : S} {R : S → S → Prop}

def SameReply (R : S → S → Prop) (r r' : S × Reply n) : Prop := R r.1 r'.1 ∧ r.2 = r'.2

/-- Handlers in lockstep leave one reply, when a good one has a length that does not depend on what
`tx_bytes` held. -/
theorem amPackProcessRow_lockstep (stale stale' : UInt32) {hd : H} {c : PackCall} {tx : Option UInt32}
    (hsel : amPackSelect pFunc rxBuf (echoWrap rxBuf row.head) = .ok (.call hd c tx))
    (hinv : Lockstep (fun a b => R a.1 b.1 ∧ a.2 = b.2) (invoke hd c s) (invoke' hd c s'))
    (hlen : ∀ s₁ r, invoke hd c s = .ok (s₁, r) → r.error = amRetGood → tx.or r.txBytes ≠ none) :
    Lockstep (SameReply R) (amPackProcessRow invoke pFunc rxBuf row stale s)
      (amPackProcessRow invoke' pFunc rxBuf row stale' s') := by
  have hhead : echoWrap rxBuf { row with wrap := (echoWrap rxBuf row.head).wrap }.head =
      echoWrap rxBuf row.head := rfl
  unfold amPackProcessRow
  dsimp only
  rw [hhead, hsel, ok_bind, ok_bind]
  dsimp only
  cases hs : invoke hd c s with
  | error e =>
    rw [hs] at hinv
    cases hs' : invoke' hd c s' with
    | error e' =>
      rw [hs'] at hinv
      exact hinv
    | ok r' =>
      rw [hs'] at hinv
      exact hinv.elim
  | ok r =>
    rw [hs] at hinv
    obtain ⟨r', hs', hR, hr⟩ := hinv.ok_left rfl
    rw [hs', ok_bind, ok_bind, ← hr]
    apply Lockstep.bind_same
    intro row' _
    apply Lockstep.ite
    · intro _
      exact ⟨hR, rfl⟩
    · intro hgood
      have htx := hlen r.1 r.2 hs (not_not.mp hgood)
      have hsame : tx.getD (r.2.txBytes.getD stale) = tx.getD (r.2.txBytes.getD stale') := by
        cases tx with
        | some l => rfl
        | none =>
          cases hown : r.2.txBytes with
          | some l => rfl
          | none => exact absurd hown htx
      exact ⟨hR, by rw [hsame]⟩

theorem sendable_error : Sendable n sizeofRespErr.toUInt32 := by
  have herr : sizeofRespErr.toUInt32.toNat = 12 := rfl
  refine .inr ?_
  rw [herr]
  simp only [maxBasicPackUnionSize]
  omega

/-- An operation of the table that selects no call is answered with an error. -/
theorem processRow_fail {e : AmReturn}
    (hsel : amPackSelect pFunc rxBuf (echoWrap rxBuf row.head) = .ok (.fail e)) :
    ∃ reply, (∀ (invoke : Invoke H S) stale s,
      amPackProcessRow invoke pFunc rxBuf row stale s = .ok (s, reply)) ∧
      Sendable n reply.txBytes := by
  have hhead : echoWrap rxBuf { row with wrap := (echoWrap rxBuf row.head).wrap }.head =
      echoWrap rxBuf row.head := rfl
  refine ⟨errorReply e { row with wrap := (echoWrap rxBuf row.head).wrap }, fun invoke stale s => ?_,
    sendable_error⟩
  unfold amPackProcessRow
  dsimp only
  rw [hhead, hsel]
  rfl

theorem processRow_call (stale : UInt32) {hd : H} {c : PackCall} {tx : Option UInt32} {s₁ : S}
    {r : Served}
    (hsel : amPackSelect pFunc rxBuf (echoWrap rxBuf row.head) = .ok (.call hd c tx))
    (hinv : invoke hd c s = .ok (s₁, r)) (hroom : r.out.length ≤ bodySize + n * maxBasicPackUnionSize)
    (hlen : r.error = amRetGood → ∃ len, tx.or r.txBytes = some len ∧ Sendable n len) :
    ∃ reply, amPackProcessRow invoke pFunc rxBuf row stale s = .ok (s₁, reply) ∧
      Sendable n reply.txBytes := by
  have hhead : echoWrap rxBuf { row with wrap := (echoWrap rxBuf row.head).wrap }.head =
      echoWrap rxBuf row.head := rfl
  obtain ⟨row', hrow', -, -⟩ :=
    Row.write_of_le { row with wrap := (echoWrap rxBuf row.head).wrap } hroom
  unfold amPackProcessRow
  dsimp only
  rw [hhead, hsel, ok_bind]
  dsimp only
  rw [hinv, ok_bind, hrow', ok_bind]
  by_cases hgood : r.error = amRetGood
  · rw [if_neg (not_not.mpr hgood)]
    refine ⟨_, rfl, ?_⟩
    obtain ⟨len, htx, hsend⟩ := hlen hgood
    have hget : tx.getD (r.txBytes.getD stale) = len := by
      cases tx with
      | some l => exact Option.some.inj htx
      | none =>
        rw [Option.none_or] at htx
        rw [htx]
        rfl
    rw [← hget] at hsend
    exact hsend
  · rw [if_pos hgood]
    exact ⟨_, rfl, sendable_error⟩

theorem processRow_twice (stale stale' : UInt32) {hd : H} {c : PackCall} {tx : Option UInt32}
    {s₁ : S} {r : Served}
    (hsel : amPackSelect pFunc rxBuf (echoWrap rxBuf row.head) = .ok (.call hd c tx))
    (hboth : Lockstep (fun a b => R a.1 b.1 ∧ a.2 = b.2) (invoke hd c s) (invoke' hd c s'))
    (hinv : invoke hd c s = .ok (s₁, r)) (hroom : r.out.length ≤ bodySize + n * maxBasicPackUnionSize)
    (hlen : r.error = amRetGood → ∃ len, tx.or r.txBytes = some len ∧ Sendable n len) :
    ∃ s₂ reply, amPackProcessRow invoke pFunc rxBuf row stale s = .ok (s₁, reply) ∧
      amPackProcessRow invoke' pFunc rxBuf row stale' s' = .ok (s₂, reply) ∧ R s₁ s₂ ∧
      Sendable n reply.txBytes := by
  obtain ⟨reply, hreply, hsend⟩ := processRow_call stale hsel hinv hroom hlen
  have hown : ∀ s₂ q, invoke hd c s = .ok (s₂, q) → q.error = amRetGood → tx.or q.txBytes ≠ none := by
    intro s₂ q hq hgood
    rw [hinv] at hq
    cases hq
    obtain ⟨len, htx, -⟩ := hlen hgood
    rw [htx]
    exact Option.some_ne_none len
  have hlock := amPackProcessRow_lockstep stale stale' hsel hboth hown
  obtain ⟨⟨s₂, reply'⟩, hreply', hR, hsame⟩ := hlock.ok_left hreply
  cases hsame
  exact ⟨s₂, reply, hreply, hreply', hR, hsend⟩

end Rows

section Requests
variable {n : ℕ} {env env' : Env} {rxBuf : PackAll} {row : Row n}
  {known : Fin amTargetMaxFunctions → Set ℕ} {t t' : FuncTable} {f f' : MemFunction} {K : Set ℕ}

/-- With memory for everything, a call that is refused looks at nothing. -/
theorem looksAt_of_refuses {hd : DeviceHandler} {c : PackCall} {e : AmReturn}
    (hr : DeviceRefuses env f hd c e) (hm : env.Ample) : hd.looksAt f c = ∅ := by
  cases hr with
  | noTable _ p1 p2 hh _ => rcases hh with rfl | rfl <;> rfl
  | keyMissing => rfl
  | noArray p1 l1 hf =>
    simp only [DeviceHandler.looksAt, hf]
  | sort fd p1 l1 e hf hs =>
    simp only [DeviceHandler.looksAt, hf]
    apply if_neg
    rintro ⟨hl, hacc, hlt⟩
    cases hs with
    | short hshort => exact absurd hl (Nat.not_le.mpr hshort)
    | params _ _ hbad =>
      rw [hbad] at hacc
      cases hacc
    | empty s _ _ hs _ _ hempty =>
      rw [hs] at hlt
      exact hempty hlt
    | noMemory _ _ _ _ _ _ _ _ hno =>
      rw [hm] at hno
      cases hno

theorem deviceRow_twice (stale stale' : UInt32) {hd : DeviceHandler} {c : PackCall} {tx : Option UInt32}
    (hA : f.Alike K f') (henv : SameMemory env env') (hm : env.Ample)
    (hsel : amPackSelect (some f.hdr) rxBuf (echoWrap rxBuf row.head) = .ok (.call hd c tx))
    (hdet : DeviceDetermined n K env f hd c tx) :
    ∃ g g' reply,
      amPackProcessRow (invokeDevice .user env) (some f.hdr) rxBuf row stale f = .ok (g, reply) ∧
      amPackProcessRow (invokeDevice .user env') (some f.hdr) rxBuf row stale' f' =
        .ok (g', reply) ∧ g.Alike (K ∪ hd.stores c) g' ∧ Sendable n reply.txBytes := by
  rcases hdet with ⟨e, he⟩ | ⟨m, len, hw, hroom, htx, hsend, hK⟩
  · obtain ⟨hserved, hne⟩ := he.served
    have hK : hd.looksAt f c ⊆ K := by
      rw [looksAt_of_refuses he hm]
      exact Set.empty_subset K
    obtain ⟨g', reply, h, h', hR, hs⟩ := processRow_twice stale stale' hsel
      (invokeDevice_lockstep hA henv hK) hserved (Nat.zero_le _) (fun hgood => absurd hgood hne)
    exact ⟨f, g', reply, h, h', hR, hs⟩
  · obtain ⟨g, r, hserved, hgood, rfl, hown⟩ := hw.served
    obtain ⟨g', reply, h, h', hR, hs⟩ := processRow_twice stale stale' hsel
      (invokeDevice_lockstep hA henv hK) hserved hroom (fun _ => ⟨len, by rw [hown, htx], hsend⟩)
    exact ⟨g, g', reply, h, h', hR, hs⟩

theorem baseRow_twice (stale stale' : UInt32) {hd : BaseHandler} {c : PackCall} {tx : Option UInt32}
    (hA : FuncTable.Alike known t t') (henv : SameMemory env env')
    (hsel : amPackSelect (some baseHdr) rxBuf (echoWrap rxBuf row.head) = .ok (.call hd c tx))
    (hdet : BaseDetermined n env t hd c) :
    ∃ u u' reply,
      amPackProcessRow (invokeBase env) (some baseHdr) rxBuf row stale t = .ok (u, reply) ∧
      amPackProcessRow (invokeBase env') (some baseHdr) rxBuf row stale' t' = .ok (u', reply) ∧
      FuncTable.Alike (hd.learns t known c) u u' ∧ Sendable n reply.txBytes := by
  rcases hdet with ⟨e, he⟩ | ⟨m, own, hw, hroom, hsend⟩
  · obtain ⟨hserved, hne⟩ := he.served
    obtain ⟨u', reply, h, h', hR, hs⟩ := processRow_twice stale stale' hsel
      (invokeBase_lockstep hA henv) hserved (Nat.zero_le _) (fun hgood => absurd hgood hne)
    exact ⟨t, u', reply, h, h', hR, hs⟩
  · obtain ⟨u, r, hserved, hgood, rfl, hown⟩ := hw.served
    have htx : tx = none := baseTx_none hsel (invokeBase_convention hserved)
    obtain ⟨u', reply, h, h', hR, hs⟩ := processRow_twice stale stale' hsel
      (invokeBase_lockstep hA henv) hserved hroom (fun _ => ⟨own, by rw [htx, hown]; rfl, hsend⟩)
    exact ⟨u, u', reply, h, h', hR, hs⟩

/-- A determined request to two targets that are alike: both answer, they answer the same, and they
stay alike. -/
theorem targetRow_twice {s : RowTarget n} {c c' : Call} (hA : FuncTable.Alike known s.table t')
    (hc : SameCall c c') (hdet : Determined ⟨s, known⟩ c) :
    ∃ u u' reply, amTargProcessRow c.env s.table c.request s.resp c.stale = .ok (u, reply) ∧
      amTargProcessRow c'.env t' c'.request s.resp c'.stale = .ok (u', reply) ∧
      FuncTable.Alike (Watched.learn ⟨s, known⟩ c.request) u u' ∧ Sendable n reply.txBytes := by
  have henv : SameMemory c.env c'.env := by
    refine ⟨?_, hc.addr⟩
    funext site
    rw [hc.ample, hc.ample']
  have hnofunc : amPackSelect (none : Option (FuncHdr BaseHandler)) c.request
      (echoWrap c.request s.resp.head) = .ok (.fail amRetInvalidFunc) := rfl
  rw [hc.request]
  unfold Determined at hdet
  unfold amTargProcessRow Watched.learn
  cases hid : amValidateFunctionId c.request.wrap.funcId with
  | none =>
    obtain ⟨reply, hreply, hsend⟩ := processRow_fail hnofunc
    exact ⟨s.table, t', reply, hreply _ _ _, hreply _ _ _, hA, hsend⟩
  | some i =>
    rw [hid] at hdet
    have hslot := hA.slots i
    dsimp only at hdet ⊢
    cases hs : s.table.slots i with
    | null =>
      rw [hs] at hslot
      generalize t'.slots i = slot' at hslot ⊢
      cases hslot
      obtain ⟨reply, hreply, hsend⟩ := processRow_fail hnofunc
      exact ⟨s.table, t', reply, hreply _ _ _, hreply _ _ _, hA, hsend⟩
    | freed =>
      rw [hs] at hdet
      exact hdet.elim
    | base =>
      rw [hs] at hslot hdet
      generalize t'.slots i = slot' at hslot ⊢
      cases hslot
      dsimp only at hdet ⊢
      obtain ⟨hop, hdet⟩ := hdet
      rcases amPackSelect_cases baseHdr c.request (echoWrap c.request s.resp.head) hop with
        ⟨-, hsel⟩ | ⟨_, -, -, hsel⟩ | ⟨hd, pc, tx, -, -, hsel⟩
      · obtain ⟨reply, hreply, hsend⟩ := processRow_fail hsel
        rw [hsel]
        exact ⟨s.table, t', reply, hreply _ _ _, hreply _ _ _, hA, hsend⟩
      · obtain ⟨reply, hreply, hsend⟩ := processRow_fail hsel
        rw [hsel]
        exact ⟨s.table, t', reply, hreply _ _ _, hreply _ _ _, hA, hsend⟩
      · rw [hsel]
        exact baseRow_twice c.stale c'.stale hA henv hsel (hdet hd pc tx hsel)
    | device f =>
      rw [hs] at hslot hdet
      generalize hs' : t'.slots i = slot' at hslot ⊢
      cases hslot with
      | device hf =>
        dsimp only at hdet ⊢
        obtain ⟨hop, hdet⟩ := hdet
        have hkeep {g g' : MemFunction} {K' : Set ℕ} (hg : g.Alike K' g') :
            FuncTable.Alike (Function.update known i K') (s.table.set i (.device g))
              (t'.set i (.device g')) := hA.set (.device hg)
        have hself : Function.update known i (known i) = known := Function.update_eq_self i known
        rw [hf.hdr]
        rcases amPackSelect_cases f.hdr c.request (echoWrap c.request s.resp.head) hop with
          ⟨-, hsel⟩ | ⟨_, -, -, hsel⟩ | ⟨hd, pc, tx, -, -, hsel⟩
        · obtain ⟨reply, hreply, hsend⟩ := processRow_fail hsel
          rw [hreply, hreply, hsel]
          exact ⟨_, _, reply, rfl, rfl, hself ▸ hkeep hf, hsend⟩
        · obtain ⟨reply, hreply, hsend⟩ := processRow_fail hsel
          rw [hreply, hreply, hsel]
          exact ⟨_, _, reply, rfl, rfl, hself ▸ hkeep hf, hsend⟩
        · obtain ⟨g, g', reply, h, h', hg, hsend⟩ :=
            deviceRow_twice c.stale c'.stale hf henv hc.ample hsel (hdet hd pc tx hsel)
          rw [h, h', hsel]
          exact ⟨_, _, reply, rfl, rfl, hkeep hg, hsend⟩

end Requests

section Runs
variable {n : ℕ}

structure Watched.Alike (w : Watched n) (s : RowTarget n) : Prop where
  resp : s.resp = w.target.resp
  table : FuncTable.Alike w.known w.target.table s.table

theorem Watched.alike_start (n : ℕ) (slot : PackAll) (entries : Registry) :
    Watched.Alike ⟨startTarget n slot entries, fun _ => ∅⟩ (startTarget n slot entries) where
  resp := rfl
  table := .start entries

theorem answer_twice {w : Watched n} {s : RowTarget n} {c c' : Call} (hA : w.Alike s)
    (hc : SameCall c c') (hdet : Determined w c) :
    ∃ w' s' sent, watch w c = .ok (w', sent) ∧ answer s c' = .ok (s', sent) ∧ w'.Alike s' := by
  obtain ⟨u, u', reply, hrow, hrow', hkeep, hsend⟩ := targetRow_twice hA.table hc hdet
  unfold watch answer
  rw [Frame.receive_full, Frame.receive_full, hA.resp]
  dsimp only
  rw [hrow, hrow', ok_bind, ok_bind]
  dsimp only
  by_cases hlen : reply.txBytes.toNat ≤ maxDatagram
  · have hin := hsend.resolve_left (Nat.not_lt.mpr hlen)
    rw [if_pos hlen, if_pos hlen, require_of_true _ hin, ok_bind]
    exact ⟨_, _, _, rfl, rfl, rfl, hkeep⟩
  · rw [if_neg hlen, if_neg hlen]
    exact ⟨_, _, _, rfl, rfl, rfl, hkeep⟩

theorem trace_watch (w : Watched n) (cs : List Call) :
    (trace watch w cs).map (Prod.map Watched.target id) = trace answer w.target cs := by
  have hview (w : Watched n) (c : Call) :
      (watch w c).map (Prod.map Watched.target id) = answer w.target c := by
    unfold watch
    cases answer w.target c <;> rfl
  exact trace_view_along (fun w c _ => hview w c) (Along.of_forall (fun _ _ => trivial) w cs)

/-- Two started targets on the same requests, of which each is determined when it arrives. -/
theorem sameResponses_of_determined (slot : PackAll) (entries : Registry) {cs cs' : List Call}
    (hcalls : List.Forall₂ SameCall cs cs')
    (hdet : Along watch Determined ⟨startTarget n slot entries, fun _ => ∅⟩ cs) :
    SameResponses (startTarget n slot entries) cs cs' := by
  have hstep : ∀ (w : Watched n) (s : RowTarget n) (c c' : Call), w.Alike s → SameCall c c' →
      Determined w c → ∃ w' s' sent, watch w c = .ok (w', sent) ∧ answer s c' = .ok (s', sent) ∧
        w'.Alike s' := by
    intro w s c c' hA hc hok
    exact answer_twice hA hc hok
  obtain ⟨w, s, sent, hw, hs, -⟩ :=
    trace_lockstep_along hstep (Watched.alike_start n slot entries) hcalls hdet
  have hview := trace_watch ⟨startTarget n slot entries, fun _ => ∅⟩ cs
  rw [hw] at hview
  exact ⟨w.target, s, sent, hview.symm, hs⟩

/-- Eight bytes of flat memory, or two elements of a static array; `word` is the initial value that
is asked for, or the size of an element. -/
def smallCap (amType word : UInt32) : AmMemCap where
  amType := amType
  maxSize := 8
  subType := 0
  functionCount := 0
  accessFlags := 0
  typeSpecific i := if i = tsFlatAddressByteSize then 4 else if i = tsInitMemVal then word else 0
  acOps _ := 0

def createFrame (pCap : AmMemCap) : PackAll where
  wrap := ⟨amPackFuncIdBaseappmem, amPackTypeFivo, amOpCreateFunc, 0, 184⟩
  body := leBytes 8 168 ++ pCap.bytes ++ List.replicate 328 0
  length_body := by
    rw [List.length_append, List.length_append, length_leBytes, AmMemCap.length_bytes,
      List.length_replicate]
    rfl

def readFrame : PackAll where
  wrap := ⟨(slotHandle 1).toUInt16, amPackAlign, amOpReadAlign, 0, 12⟩
  body := List.replicate 504 0
  length_body := List.length_replicate

def Env.ones : Env := ⟨fun _ => true, 0x1000, 1, fun _ => 1⟩

theorem freeSlot_start : (startTarget 0 .zero targetRegistry).table.freeSlot = some 1 := by
  decide +kernel

theorem flatCap_type : (AmMemCap.ofBytes (((createFrame (smallCap amTypeFlatMem 0)).body.drop 8).take
    sizeofMemCap)).amType = amTypeFlatMem := by
  decide +kernel

theorem initialised_flatCap : initialised (.ofBytes
    (((createFrame (smallCap amTypeFlatMem 0)).body.drop 8).take sizeofMemCap)) = Set.Iio 8 := by
  have hval : (AmMemCap.ofBytes (((createFrame (smallCap amTypeFlatMem 0)).body.drop 8).take
      sizeofMemCap)).typeSpecific tsInitMemVal = 0 := by decide +kernel
  have hsize : (AmMemCap.ofBytes (((createFrame (smallCap amTypeFlatMem 0)).body.drop 8).take
      sizeofMemCap)).maxSize.toNat = 8 := by decide +kernel
  rw [initialised, if_pos ⟨flatCap_type, hval⟩, hsize]

theorem determined_create : Determined ⟨startTarget 0 .zero targetRegistry, fun _ => ∅⟩
    ⟨createFrame (smallCap amTypeFlatMem 0), .zeroed, 0⟩ := by
  have hlen : (360 : UInt32).toNat ≤ (0 + 1) * maxBasicPackUnionSize := by decide
  have hbody : sizeofMemCap ≤ ((createFrame (smallCap amTypeFlatMem 0)).body.drop 8).length := by
    rw [List.length_drop, Frame.length_body]
    decide
  refine ⟨by decide, fun hd pc tx hsel => ?_⟩
  cases hsel
  refine .inr ⟨sizeofCrResp, sizeofCrResp.toUInt32, .create _ _ hbody ?_ rfl rfl ?_,
    by decide, .inr hlen⟩
  · exact freeSlot_start ▸ Option.some_ne_none 1
  · rw [flatCap_type]
    intro e he
    cases he with
    | unsupported h => exact h.2.1 rfl
    | noMemory _ hm => exact hm ⟨rfl, rfl⟩

theorem amOpReadAlign_lt : amOpReadAlign.toNat < amOpMaxOps := by decide

def readView (t : FuncTable) : Option (Option FuncData × Option DeviceHandler × UInt32) :=
  match t.slots 1 with
  | .device f => some (f.pVdF, f.pfnOps ⟨amOpReadAlign.toNat, amOpReadAlign_lt⟩, f.crResp.dataSize)
  | _ => none

theorem determined_read {w : Watched 0} {fd : FlatData} (hdata : 4 ≤ fd.data.length)
    (hview : readView w.target.table = some (some (.flat fd), some .amFlatRead32Align, 4))
    (hknown : cell 0 ⊆ w.known 1) : Determined w ⟨readFrame, .zeroed, 0⟩ := by
  have hid : amValidateFunctionId readFrame.wrap.funcId = some 1 := rfl
  have hoffset : (u32OfBytes readFrame.body).toNat = 0 := by decide +kernel
  unfold Determined
  unfold readView at hview
  rw [hid]
  dsimp only
  cases hs : w.target.table.slots 1 with
  | null | base | freed =>
    rw [hs] at hview
    cases hview
  | device f =>
    rw [hs] at hview
    simp only [Option.some.injEq, Prod.mk.injEq] at hview
    obtain ⟨hf, hop, hsize⟩ := hview
    refine ⟨by decide, fun hd pc tx hsel => ?_⟩
    have hcall : f.hdr.packCall readFrame (echoWrap readFrame w.target.resp.head) =
        some (.align readFrame.body w.target.resp.head.body, some (8 + f.crResp.dataSize)) := rfl
    have hread : amPackSelect (some f.hdr) readFrame (echoWrap readFrame w.target.resp.head) =
        .ok (.call .amFlatRead32Align (.align readFrame.body w.target.resp.head.body)
          (some (8 + f.crResp.dataSize))) := by
      have hslot : f.hdr.slot readFrame.wrap.op = .ok (some .amFlatRead32Align) := by
        rw [f.hdr.slot_of_lt (by decide)]
        exact congrArg Except.ok hop
      simp only [amPackSelect, hslot, hcall, ok_bind, pure_eq_ok]
    cases hsel.symm.trans hread
    refine .inr ⟨4, 8 + f.crResp.dataSize, .flatRead fd _ _ hf ?_ ?_, by decide, rfl, .inr ?_, ?_⟩
    · rw [Frame.length_body]
      decide
    · rw [hoffset]
      exact hdata
    · rw [hsize]
      decide
    · change cell (u32OfBytes readFrame.body).toNat ⊆ _
      rw [hoffset]
      exact hknown

/-- A byte of cleared memory is known. -/
theorem sameResponses_of_determined_read : SameResponses (startTarget 0 .zero targetRegistry)
    [⟨createFrame (smallCap amTypeFlatMem 0), .zeroed, 0⟩, ⟨readFrame, .zeroed, 0⟩]
    [⟨createFrame (smallCap amTypeFlatMem 0), Env.ones, 5⟩, ⟨readFrame, Env.ones, 7⟩] := by
  have hsame (f : PackAll) (stale stale' : UInt32) :
      SameCall ⟨f, .zeroed, stale⟩ ⟨f, Env.ones, stale'⟩ := ⟨rfl, fun _ => rfl, fun _ => rfl, rfl⟩
  apply sameResponses_of_determined .zero targetRegistry
    (.cons (hsame _ 0 5) (.cons (hsame _ 0 7) .nil))
  refine ⟨determined_create, fun w o hw => ⟨?_, fun _ _ _ => trivial⟩⟩
  have hrun : (watch ⟨startTarget 0 .zero targetRegistry, fun _ => ∅⟩
      ⟨createFrame (smallCap amTypeFlatMem 0), .zeroed, 0⟩).map (fun r => readView r.1.target.table) =
      .ok (some (some (.flat ⟨List.replicate 8 0, 0, 8, 4⟩), some .amFlatRead32Align, 4)) := by
    decide +kernel
  rw [hw] at hrun
  apply determined_read _ (Except.ok.inj hrun)
  · rw [watch, bind_eq_ok] at hw
    rcases hw with ⟨r, -, hw⟩
    cases hw
    have hknown : Watched.learn ⟨startTarget 0 .zero targetRegistry, fun _ => ∅⟩
        (createFrame (smallCap amTypeFlatMem 0)) =
        Function.update (fun _ => ∅) 1 (initialised (.ofBytes
          (((createFrame (smallCap amTypeFlatMem 0)).body.drop 8).take sizeofMemCap))) := by
      change BaseHandler.learns (startTarget 0 .zero targetRegistry).table (fun _ => ∅)
        .amTargCreateFunction (.fivo ((createFrame (smallCap amTypeFlatMem 0)).body.drop 8)
          (createFrame (smallCap amTypeFlatMem 0)).l1) = _
      rw [BaseHandler.learns, freeSlot_start]
    dsimp only
    rw [hknown, Function.update_self, initialised_flatCap]
    intro k hk
    exact hk.2.trans_le (by decide)
  · exact (by decide : 4 ≤ (List.replicate 8 (0 : UInt8)).length)

/-- An element that was never written. -/
theorem not_sameResponses : ¬ ∀ (n : ℕ) (slot : PackAll) (entries : Registry) (cs cs' : List Call),
    List.Forall₂ SameCall cs cs' → SameResponses (startTarget n slot entries) cs cs' := by
  intro h
  have hsame (f : PackAll) : SameCall ⟨f, .zeroed, 0⟩ ⟨f, Env.ones, 0⟩ :=
    ⟨rfl, fun _ => rfl, fun _ => rfl, rfl⟩
  obtain ⟨s₁, s₂, sent, h₁, h₂⟩ := h 0 .zero targetRegistry _ _
    (.cons (hsame (createFrame (smallCap amTypeStaticArray 4))) (.cons (hsame readFrame) .nil))
  have hzeros : (trace answer (startTarget 0 .zero targetRegistry)
      [⟨createFrame (smallCap amTypeStaticArray 4), .zeroed, 0⟩, ⟨readFrame, .zeroed, 0⟩]).map
        (fun r => r.2.getLast?.map fun d => d.map (List.drop 8)) =
      .ok (some (some [0, 0, 0, 0])) := by decide +kernel
  have hones : (trace answer (startTarget 0 .zero targetRegistry)
      [⟨createFrame (smallCap amTypeStaticArray 4), Env.ones, 0⟩, ⟨readFrame, Env.ones, 0⟩]).map
        (fun r => r.2.getLast?.map fun d => d.map (List.drop 8)) =
      .ok (some (some [1, 1, 1, 1])) := by decide +kernel
  rw [h₁] at hzeros
  rw [h₂] at hones
  cases hzeros.symm.trans hones

end Runs

end AppMem.Net
