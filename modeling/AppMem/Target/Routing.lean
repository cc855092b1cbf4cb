import AppMem.Target.CreateAtomic

/-! # Routing by handle

The handle of a function is the number of its slot under a signature, and a request names its
function by that handle. In every table the target can reach, each handle leads to the one
function that carries it, and a request to one function leaves the others alone.
-/
namespace AppMem.Target
open Library.Bytes Library.Checked Abi Memory Pack Device

section Handles

/-- What `am_validate_function_id` returns. -/
def FuncTable.validate (t : FuncTable) (funcId : UInt16) : Slot :=
  match amValidateFunctionId funcId with
  | none => .null
  | some i => t.slots i

/-- The identifier made from the handle of slot `i` leads back to slot `i`. -/
theorem amValidateFunctionId_slotHandle (i : Fin amTargetMaxFunctions) :
    amValidateFunctionId (slotHandle i).toUInt16 = some i := by
  revert i
  decide +kernel

theorem slotHandle_injective : Function.Injective slotHandle := by
  intro i j h
  have hi := amValidateFunctionId_slotHandle i
  rw [h, amValidateFunctionId_slotHandle] at hi
  exact (Option.some.inj hi).symm

theorem FuncTable.validate_slotHandle (t : FuncTable) (i : Fin amTargetMaxFunctions) :
    t.validate (slotHandle i).toUInt16 = t.slots i := by
  rw [FuncTable.validate, amValidateFunctionId_slotHandle]

theorem amTargProcess_device {env : Env} {t : FuncTable} {rxBuf : PackAll} {resp : PackResp}
    {stale : UInt32} {i : Fin amTargetMaxFunctions} {f : MemFunction}
    (hid : amValidateFunctionId rxBuf.wrap.funcId = some i) (hf : t.slots i = .device f) :
    amTargProcess env t rxBuf resp stale =
      processDevice .user env f rxBuf resp stale >>= fun r => .ok (t.set i (.device r.1), r.2) := by
  simp only [amTargProcess, hid, hf]
  rfl

end Handles

section Steps
variable {H S : Type} {invoke : Invoke H S} {pFunc : Option (FuncHdr H)} {rxBuf : PackAll}
  {resp : PackResp} {stale : UInt32} {s s' : S} {p : Processed}

theorem amPackProcessCmd_state (h : amPackProcessCmd invoke pFunc rxBuf resp stale s = .ok (s', p)) :
    s' = s ∨ ∃ hd c r, invoke hd c s = .ok (s', r) := by
  unfold amPackProcessCmd at h
  rw [bind_eq_ok] at h
  rcases h with ⟨sel, -, h⟩
  cases sel with
  | fail e =>
    cases h
    exact .inl rfl
  | call hd c tx =>
    dsimp only at h
    rw [bind_eq_ok] at h
    rcases h with ⟨⟨s₁, r⟩, hinv, h⟩
    rw [bind_eq_ok] at h
    rcases h with ⟨resp', -, h⟩
    split at h
    · cases h
      exact .inr ⟨hd, c, r, hinv⟩
    · cases h
      exact .inr ⟨hd, c, r, hinv⟩

/-- A request to a device function calls one of its handlers, or none. -/
theorem processDevice_cases {b : Build} {env : Env} {f g : MemFunction}
    (h : processDevice b env f rxBuf resp stale = .ok (g, p)) :
    g = f ∨ ∃ hd c r, invokeDevice b env hd c f = .ok (g, r) := amPackProcessCmd_state h

inductive TableChange (env : Env) (t t' : FuncTable) : Prop
  | none (h : t' = t)
  | created (i : Fin amTargetMaxFunctions) (pCap : AmMemCap) (hi : t.slots i = .null)
    (hgood : (createDevice env (.blank (slotHandle i)) pCap).1 = amRetGood)
    (h : t' = t.set i (.device (createDevice env (.blank (slotHandle i)) pCap).2))
  | served (i : Fin amTargetMaxFunctions) (f g : MemFunction) (hf : t.slots i = .device f)
    (hg : g = f ∨ ∃ hd c r, invokeDevice .user env hd c f = .ok (g, r))
    (h : t' = t.set i (.device g))

theorem invokeBase_change {env : Env} {t t' : FuncTable} {h : BaseHandler} {c : PackCall}
    {r : Served} (hr : invokeBase env h c t = .ok (t', r)) : TableChange env t t' := by
  have hc := invokeBase_convention hr
  cases h with
  | amTargIdentifyResp | amTargGetCapCount =>
    cases c with
    | opOnly =>
      cases hr
      exact .none rfl
    | _ => cases hc
  | amTargGetCap =>
    cases c with
    | fivo p1 l1 =>
      simp only [invokeBase, bind_eq_ok] at hr
      rcases hr with ⟨_, -, hr⟩
      cases hr
      exact .none rfl
    | _ => cases hc
  | amTargCreateFunction =>
    cases c with
    | fivo p1 l1 =>
      rcases amTargCreateFunction_created hr with ⟨-, h⟩ | ⟨i, pCap, hi, hgood, -, h⟩
      · exact .none h
      · exact .created i pCap hi hgood h
    | _ => cases hc

theorem amTargProcess_change {env : Env} {t t' : FuncTable}
    (h : amTargProcess env t rxBuf resp stale = .ok (t', p)) : TableChange env t t' := by
  have hbase : ∀ pFunc, amPackProcessCmd (invokeBase env) pFunc rxBuf resp stale t = .ok (t', p) →
      TableChange env t t' := by
    intro pFunc h
    rcases amPackProcessCmd_state h with h | ⟨hd, c, r, hinv⟩
    · exact .none h
    · exact invokeBase_change hinv
  unfold amTargProcess at h
  split at h
  · exact hbase _ h
  · split at h
    · exact hbase _ h
    · exact hbase _ h
    · rename_i f hf
      rw [bind_eq_ok] at h
      rcases h with ⟨⟨g, q⟩, hq, h⟩
      cases h
      exact .served _ f g hf (processDevice_cases hq) rfl
    · cases h

end Steps

section Runs

/-- A request as the consumer finds it: the slot of the receive queue, the response buffer, the
outcomes of allocations, and what is on the stack. -/
structure Request where
  env : Env
  rxBuf : PackAll
  resp : PackResp
  stale : UInt32

def targStep (t : FuncTable) (r : Request) : Exec (FuncTable × Processed) :=
  amTargProcess r.env t r.rxBuf r.resp r.stale

/-- The base function is in slot 0, and every function carries the handle of its slot. -/
structure Numbered (t : FuncTable) : Prop where
  base : t.slots 0 = .base
  slot : ∀ i, i ≠ 0 → t.slots i = .null ∨ ∃ f, t.slots i = .device f ∧ f.handle = slotHandle i

theorem numbered_start (entries : Registry) : Numbered (.start entries) where
  base := rfl
  slot _ hi := .inl (if_neg fun h => hi (Fin.ext h))

theorem Numbered.set {t : FuncTable} (N : Numbered t) {i : Fin amTargetMaxFunctions}
    (hi : i ≠ 0) {f : MemFunction} (hf : f.handle = slotHandle i) :
    Numbered (t.set i (.device f)) where
  base := by rw [FuncTable.set_of_ne hi.symm, N.base]
  slot j hj := by
    by_cases h : j = i
    · subst h
      exact .inr ⟨f, FuncTable.set_self, hf⟩
    · rw [FuncTable.set_of_ne h]
      exact N.slot j hj

theorem Numbered.device {t : FuncTable} (N : Numbered t) {i : Fin amTargetMaxFunctions}
    {f : MemFunction} (hf : t.slots i = .device f) : i ≠ 0 ∧ f.handle = slotHandle i := by
  have hi : i ≠ 0 := by
    rintro rfl
    rw [N.base] at hf
    cases hf
  rcases N.slot i hi with hnull | ⟨g, hg, hh⟩
  · rw [hnull] at hf
    cases hf
  · rw [hg] at hf
    cases hf
    exact ⟨hi, hh⟩

theorem Numbered.change {env : Env} {t t' : FuncTable} (N : Numbered t)
    (h : TableChange env t t') : Numbered t' := by
  cases h with
  | none h => exact h ▸ N
  | created i pCap hi hgood h =>
    rw [h]
    apply N.set
    · rintro rfl
      rw [N.base] at hi
      cases hi
    · exact (createDevice_spec env _ pCap).1
  | served i f g hf hg h =>
    obtain ⟨hi, hh⟩ := N.device hf
    rw [h]
    apply N.set hi
    rcases hg with rfl | ⟨hd, c, r, hinv⟩
    · exact hh
    · rw [(invokeDevice_same hinv).rest]
      exact hh

/-- Each handle stands for one function, and each function for its slot. -/
structure HandlesRoute (t : FuncTable) : Prop where
  base : t.slots 0 = .base
  occupied : ∀ i, i ≠ 0 → t.slots i ≠ .null → ∃ f, t.slots i = .device f ∧ f.handle = slotHandle i
  distinct : ∀ i j f g, t.slots i = .device f → t.slots j = .device g → f.handle = g.handle → i = j
  routed : ∀ i f, t.slots i = .device f → t.validate f.handle.toUInt16 = .device f
  empty : ∀ i, t.slots i = .null → t.validate (slotHandle i).toUInt16 = .null

theorem Numbered.handlesRoute {t : FuncTable} (N : Numbered t) : HandlesRoute t where
  base := N.base
  occupied i hi h := (N.slot i hi).resolve_left h
  distinct i j f g hf hg h := by
    rw [(N.device hf).2, (N.device hg).2] at h
    exact slotHandle_injective h
  routed i f hf := by rw [(N.device hf).2, t.validate_slotHandle, hf]
  empty i hi := by rw [t.validate_slotHandle, hi]

/-- A request that carries the handle of `f` is served by `f`, and all other slots stay. -/
def ServedBy (t : FuncTable) (i : Fin amTargetMaxFunctions) (f : MemFunction) (r : Request)
    (t' : FuncTable) (p : Processed) : Prop :=
  (∃ g, processDevice .user r.env f r.rxBuf r.resp r.stale = .ok (g, p) ∧
    t'.slots i = .device g) ∧ ∀ j, j ≠ i → t'.slots j = t.slots j

/-- In every table that requests lead to. A request that leaves defined behaviour ends the run:
a create request when the table is full or when there is no memory for the operations. -/
theorem handlesRoute_of_run {entries : Registry} {rs : List Request} {t : FuncTable}
    {ps : List Processed} (h : trace targStep (.start entries) rs = .ok (t, ps)) :
    HandlesRoute t ∧ ∀ i f r t' p, t.slots i = .device f →
      r.rxBuf.wrap.funcId = f.handle.toUInt16 → targStep t r = .ok (t', p) →
      ServedBy t i f r t' p := by
  have N : Numbered t := trace_invariant (fun s r s' p N h => N.change (amTargProcess_change h))
    (numbered_start entries) h
  refine ⟨N.handlesRoute, fun i f r t' p hf hid hstep => ?_⟩
  rw [(N.device hf).2] at hid
  rw [targStep, amTargProcess_device (hid ▸ amValidateFunctionId_slotHandle i) hf,
    bind_eq_ok] at hstep
  rcases hstep with ⟨⟨g, q⟩, hq, hstep⟩
  cases hstep
  exact ⟨⟨g, hq, FuncTable.set_self⟩, fun j hj => FuncTable.set_of_ne hj⟩

def createTwice : List Request :=
  let cap := { flatCaps with
    maxSize := 4
    typeSpecific := typeSpecifics [4] }
  let wrap : PackWrapper := ⟨amPackFuncIdBaseappmem, amPackTypeFivo, amOpCreateFunc, 1, 184⟩
  let datagram := wrap.bytes ++ List.replicate 8 0 ++ cap.bytes
  List.replicate 2 ⟨.zeroed, Frame.zero.receive datagram, .zero, 0⟩

def writeFirst : Request :=
  ⟨.zeroed, { Frame.zero with wrap := ⟨0xAA01, amPackAlign, amOpWriteAlign, 2, 16⟩ }, .zero, 0⟩

/-- Both creations fill a slot, and the write is served by the function in slot 1. -/
theorem handlesRoute_of_run_twice : ∃ t ps f g t' p,
    trace targStep (.start targetRegistry) createTwice = .ok (t, ps) ∧ HandlesRoute t ∧
      t.slots 1 = .device f ∧ t.slots 2 = .device g ∧ targStep t writeFirst = .ok (t', p) ∧
      ServedBy t 1 f writeFirst t' p := by
  have hok : (trace targStep (.start targetRegistry) createTwice >>= fun q =>
      (targStep q.1 writeFirst).map fun _ =>
        match q.1.slots 1, q.1.slots 2 with
        | .device _, .device _ => true
        | _, _ => false) = .ok true := by
    decide +kernel
  rw [bind_eq_ok] at hok
  obtain ⟨⟨t, ps⟩, hrun, hok⟩ := hok
  obtain ⟨⟨t', p⟩, hstep, hslots⟩ := except_map_eq_ok.mp hok
  obtain ⟨hroute, hserved⟩ := handlesRoute_of_run hrun
  split at hslots
  · rename_i f g hf hg
    have hsome : t.slots 1 ≠ .null := by
      intro hnull
      cases hf.symm.trans hnull
    obtain ⟨f', hf', hhandle⟩ := hroute.occupied 1 (by decide) hsome
    cases hf.symm.trans hf'
    have hid : writeFirst.rxBuf.wrap.funcId = f.handle.toUInt16 :=
      (congrArg UInt32.toUInt16 hhandle).symm
    exact ⟨t, ps, f, g, t', p, hrun, hroute, hf, hg, hstep, hserved 1 f writeFirst t' p hf hid hstep⟩
  · cases hslots

end Runs

end AppMem.Target
