import AppMem.Target.ResponseLength

/-! # Requests that are answered

The target compares nothing in a request with the objects of the function it is for. A request
that the dispatcher or a handler refuses is answered, and so is one whose handler stays inside its
objects and writes no more than the response buffer holds. Every other one makes a handler leave
its objects, use a pointer that is not set, or stop at an assertion.
-/
namespace AppMem.Target
open Library.Bytes Library.Checked Abi Memory Pack Device

section Conditions

def BaseAnswers (env : Env) (t : FuncTable) (hd : BaseHandler) (c : PackCall) : Prop :=
  (∃ e, BaseRefuses env t hd c e) ∨ ∃ n own, BaseWrites env t hd c n own ∧ n ≤ bodySize

def DeviceAnswers (env : Env) (f : MemFunction) (hd : DeviceHandler) (c : PackCall) : Prop :=
  (∃ e, DeviceRefuses env f hd c e) ∨ ∃ n, DeviceWrites env f hd c n ∧ n ≤ bodySize

/-- The operation is inside the table, and the handler it selects answers the call. -/
def PackAnswers {H : Type} (A : H → PackCall → Prop) (f : FuncHdr H) (rxBuf : PackAll)
    (resp : PackResp) : Prop :=
  rxBuf.wrap.op.toNat < amOpMaxOps ∧ ∀ hd c tx,
    amPackSelect (some f) rxBuf (echoWrap rxBuf resp) = .ok (.call hd c tx) → A hd c

/-- What the target answers, by the function the request is for. -/
def Answered (env : Env) (t : FuncTable) (rxBuf : PackAll) (resp : PackResp) : Prop :=
  match t.validate rxBuf.wrap.funcId with
  | .null => True
  | .base => PackAnswers (BaseAnswers env t) baseHdr rxBuf resp
  | .device f => PackAnswers (DeviceAnswers env f) f.hdr rxBuf resp
  | .freed => False

end Conditions

section Dispatch
variable {H S : Type} {invoke : Invoke H S} {A : H → PackCall → Prop} {f : FuncHdr H}
  {rxBuf : PackAll} {resp : PackResp} {stale : UInt32} {s : S}

/-- The dispatcher answers what the handlers answer within the response buffer. -/
theorem packAnswers_iff
    (hA : ∀ hd c, A hd c ↔ ∃ s' r, invoke hd c s = .ok (s', r) ∧ r.out.length ≤ bodySize) :
    PackAnswers A f rxBuf resp ↔
      ∃ r, amPackProcessCmd invoke (some f) rxBuf resp stale s = .ok r := by
  by_cases hop : rxBuf.wrap.op.toNat < amOpMaxOps
  · rcases amPackSelect_cases f rxBuf (echoWrap rxBuf resp) hop with
      ⟨-, hs⟩ | ⟨_, -, -, hs⟩ | ⟨h, c, tx, -, -, hs⟩
    · refine iff_of_true ⟨hop, fun _ _ _ h => ?_⟩ ⟨_, amPackProcessCmd_fail hs⟩
      cases hs.symm.trans h
    · refine iff_of_true ⟨hop, fun _ _ _ h => ?_⟩ ⟨_, amPackProcessCmd_fail hs⟩
      cases hs.symm.trans h
    · have hcall : PackAnswers A f rxBuf resp ↔ A h c := by
        constructor
        · intro h'
          exact h'.2 h c tx hs
        · intro hA
          refine ⟨hop, fun _ _ _ hs' => ?_⟩
          cases hs.symm.trans hs'
          exact hA
      rw [hcall, hA, amPackProcessCmd_call hs]
      constructor
      · rintro ⟨s', r, hinv, hroom⟩
        obtain ⟨g, hg, -⟩ := Frame.write_of_le (echoWrap rxBuf resp) 0 r.out (by
          rw [Nat.zero_add]
          exact hroom)
        rw [hinv, ok_bind, hg, ok_bind]
        split
        · exact ⟨_, rfl⟩
        · exact ⟨_, rfl⟩
      · rintro ⟨p, hp⟩
        rw [bind_eq_ok] at hp
        rcases hp with ⟨⟨s', r⟩, hinv, hp⟩
        rw [bind_eq_ok] at hp
        rcases hp with ⟨g, hg, -⟩
        have hroom := (Frame.write_eq_ok.mp hg).1
        rw [Nat.zero_add] at hroom
        exact ⟨s', r, hinv, hroom⟩
  · refine iff_of_false (fun h => hop h.1) ?_
    rintro ⟨r, hr⟩
    rw [amPackProcessCmd, amPackSelect_out_of_range f _ _ hop] at hr
    cases hr

end Dispatch

section Table
variable {env : Env} {t : FuncTable} {f : MemFunction} {rxBuf : PackAll} {resp : PackResp}
  {stale : UInt32}

theorem baseAnswers_iff (hd : BaseHandler) (c : PackCall) :
    BaseAnswers env t hd c ↔
      ∃ t' r, invokeBase env hd c t = .ok (t', r) ∧ r.out.length ≤ bodySize := by
  constructor
  · rintro (⟨e, he⟩ | ⟨n, own, hw, hroom⟩)
    · exact ⟨t, _, he.served.1, Nat.zero_le _⟩
    · obtain ⟨t', r, hi, -, rfl, -⟩ := hw.served
      exact ⟨t', r, hi, hroom⟩
  · rintro ⟨t', r, hi, hroom⟩
    by_cases hr : r.error = amRetGood
    · obtain ⟨own, hw, -⟩ := baseWrites_of_good hi hr
      exact .inr ⟨_, own, hw, hroom⟩
    · exact .inl ⟨_, baseRefuses_of_error hi hr⟩

theorem deviceAnswers_iff (hd : DeviceHandler) (c : PackCall) :
    DeviceAnswers env f hd c ↔
      ∃ g r, invokeDevice .user env hd c f = .ok (g, r) ∧ r.out.length ≤ bodySize := by
  constructor
  · rintro (⟨e, he⟩ | ⟨n, hw, hroom⟩)
    · exact ⟨f, _, he.served.1, Nat.zero_le _⟩
    · obtain ⟨g, r, hi, -, rfl, -⟩ := hw.served
      exact ⟨g, r, hi, hroom⟩
  · rintro ⟨g, r, hi, hroom⟩
    by_cases hr : r.error = amRetGood
    · exact .inr ⟨_, (deviceWrites_of_good hi hr).1, hroom⟩
    · exact .inl ⟨_, deviceRefuses_of_error hi hr⟩

/-- The target comes back for exactly these requests. -/
theorem answered_iff (stale : UInt32) :
    Answered env t rxBuf resp ↔ ∃ r, amTargProcess env t rxBuf resp stale = .ok r := by
  unfold Answered
  cases hv : t.validate rxBuf.wrap.funcId with
  | null =>
    have hs : amPackSelect (none : Option (FuncHdr BaseHandler)) rxBuf (echoWrap rxBuf resp) =
        .ok (.fail amRetInvalidFunc) := rfl
    rw [amTargProcess_null hv, amPackProcessCmd_fail hs]
    exact iff_of_true trivial ⟨_, rfl⟩
  | base =>
    rw [amTargProcess_base hv]
    exact packAnswers_iff baseAnswers_iff
  | device f =>
    obtain ⟨i, hid, hf⟩ := FuncTable.validate_eq_device hv
    have hback : (∃ r, amTargProcess env t rxBuf resp stale = .ok r) ↔
        ∃ r, processDevice .user env f rxBuf resp stale = .ok r := by
      rw [amTargProcess_device hid hf]
      constructor
      · rintro ⟨r, hr⟩
        rw [bind_eq_ok] at hr
        rcases hr with ⟨p, hp, -⟩
        exact ⟨p, hp⟩
      · rintro ⟨p, hp⟩
        rw [hp, ok_bind]
        exact ⟨_, rfl⟩
    rw [hback]
    exact packAnswers_iff deviceAnswers_iff
  | freed =>
    rw [amTargProcess_freed hv]
    refine iff_of_false id ?_
    rintro ⟨r, hr⟩
    cases hr

end Table

end AppMem.Target
