import AppMem.Device.Refusal
import AppMem.Pack.Refusal
import AppMem.Target.Routing

/-! # What the target refuses

Requests without a function, an operation or a known pack type, those a device function refuses,
and requests to create a function of a type the target does not have or has no memory for.
A refused request leaves the table alone.
-/
namespace AppMem.Target
open Library.Bytes Library.Checked Abi Memory Pack Device

section Refusal
variable {env : Env} {t t' : FuncTable} {h : BaseHandler} {c : PackCall} {e : AmReturn} {r : Served}

inductive NotCreated (env : Env) (amType : UInt32) : AmReturn → Prop
  | unsupported (h : amType ≠ amTypeStaticArray ∧ amType ≠ amTypeFlatMem ∧
      amType ≠ amTypeAssocArray) : NotCreated env amType amRetInvalidFunc
  | noMemory (h : amType = amTypeStaticArray ∨ amType = amTypeFlatMem ∨ amType = amTypeAssocArray)
    (hm : ¬ (env.alloc .funcData = true ∧
      env.alloc (if amType = amTypeAssocArray then .assca else .storage) = true)) :
    NotCreated env amType amRetAllocErr

theorem createDevice_status (env : Env) (f : MemFunction) (pCap : AmMemCap) :
    (createDevice env f pCap).1 =
      if pCap.amType = amTypeStaticArray ∨ pCap.amType = amTypeFlatMem ∨
          pCap.amType = amTypeAssocArray then
        if env.alloc .funcData = true ∧
            env.alloc (if pCap.amType = amTypeAssocArray then .assca else .storage) = true then
          amRetGood
        else amRetAllocErr
      else amRetInvalidFunc := by
  have hsa : amTypeStaticArray ≠ amTypeAssocArray := by decide
  have hfa : amTypeFlatMem ≠ amTypeAssocArray := by decide
  unfold createDevice
  by_cases hs : pCap.amType = amTypeStaticArray
  · simp only [hs, if_true, true_or, hsa, if_false]
    exact twoAllocs_eq
  · by_cases hf : pCap.amType = amTypeFlatMem
    · simp only [if_false, hf, if_true, true_or, or_true, hfa]
      exact twoAllocs_eq
    · by_cases ha : pCap.amType = amTypeAssocArray
      · simp only [ha, if_true, or_true, amCreateAsscaDevice, and_true]
        exact twoAllocs_eq
      · simp only [hs, hf, ha, if_false, or_self]

theorem notCreated_iff {f : MemFunction} {pCap : AmMemCap} :
    NotCreated env pCap.amType e ↔ (createDevice env f pCap).1 = e ∧ e ≠ amRetGood := by
  have halloc : amRetAllocErr ≠ amRetGood := by decide
  have hfunc : amRetInvalidFunc ≠ amRetGood := by decide
  rw [createDevice_status]
  constructor
  · intro h
    cases h with
    | unsupported h => exact ⟨if_neg (by simp only [h, or_self, not_false_eq_true]), hfunc⟩
    | noMemory h hm =>
      rw [if_pos h, if_neg hm]
      exact ⟨rfl, halloc⟩
  · rintro ⟨he, hne⟩
    by_cases hty : pCap.amType = amTypeStaticArray ∨ pCap.amType = amTypeFlatMem ∨
        pCap.amType = amTypeAssocArray
    · rw [if_pos hty] at he
      by_cases hm : env.alloc .funcData = true ∧
          env.alloc (if pCap.amType = amTypeAssocArray then .assca else .storage) = true
      · rw [if_pos hm] at he
        exact absurd he.symm hne
      · rw [if_neg hm] at he
        exact he ▸ .noMemory hty hm
    · rw [if_neg hty] at he
      simp only [not_or] at hty
      exact he ▸ .unsupported hty

/-- The handlers of the base function that refuse, and their codes. -/
inductive BaseRefuses (env : Env) (t : FuncTable) : BaseHandler → PackCall → AmReturn → Prop
  | noMemory (p1 : List UInt8) (l1 : UInt64) (hp : sizeofMemCap ≤ p1.length)
    (hfree : t.freeSlot ≠ none) (hm : env.alloc .memFunction = false) :
    BaseRefuses env t .amTargCreateFunction (.fivo p1 l1) amRetAllocErr
  | notCreated (p1 : List UInt8) (l1 : UInt64) (e : AmReturn) (hp : sizeofMemCap ≤ p1.length)
    (hfree : t.freeSlot ≠ none) (hm : env.alloc .memFunction = true)
    (ho : env.alloc .pfnOps = true)
    (he : NotCreated env (AmMemCap.ofBytes (p1.take sizeofMemCap)).amType e) :
    BaseRefuses env t .amTargCreateFunction (.fivo p1 l1) e

theorem BaseRefuses.served (hr : BaseRefuses env t h c e) :
    invokeBase env h c t = .ok (t, { error := e }) ∧ e ≠ amRetGood := by
  have halloc : amRetAllocErr ≠ amRetGood := by decide
  cases hr with
  | noMemory p1 l1 hp hfree hm =>
    refine ⟨?_, halloc⟩
    obtain ⟨i, hi⟩ := Option.ne_none_iff_exists'.mp hfree
    rw [invokeBase, amTargCreateFunction_of_le env t hp, hi]
    simp only [hm, Bool.false_eq_true, if_false]
  | notCreated p1 l1 e hp hfree hm ho he =>
    obtain ⟨i, hi⟩ := Option.ne_none_iff_exists'.mp hfree
    obtain ⟨hcreate, hne⟩ := (notCreated_iff (f := .blank (slotHandle i))).mp he
    refine ⟨?_, hne⟩
    rw [invokeBase, amTargCreateFunction_of_le env t hp, hi]
    simp only [hm, if_true, ho, require_of_true, ok_bind, hcreate, if_neg hne]

theorem baseRefuses_of_error (hi : invokeBase env h c t = .ok (t', r))
    (hr : r.error ≠ amRetGood) : BaseRefuses env t h c r.error := by
  have hc := invokeBase_convention hi
  cases h with
  | amTargIdentifyResp | amTargGetCapCount =>
    cases c with
    | opOnly =>
      cases hi
      exact absurd rfl hr
    | _ => cases hc
  | amTargGetCap =>
    cases c with
    | fivo p1 l1 =>
      simp only [invokeBase, amTargGetCap, bind_eq_ok, pure_eq_ok, Except.ok.injEq] at hi
      rcases hi with ⟨_, ⟨_, -, rfl⟩, hi⟩
      cases hi
      exact absurd rfl hr
    | _ => cases hc
  | amTargCreateFunction =>
    cases c with
    | fivo p1 l1 =>
      by_cases hp : sizeofMemCap ≤ p1.length
      · rw [invokeBase, amTargCreateFunction_of_le env t hp] at hi
        cases hfree : t.freeSlot with
        | none =>
          rw [hfree] at hi
          cases hi
        | some i =>
          have hne : t.freeSlot ≠ none := hfree ▸ Option.some_ne_none i
          rw [hfree] at hi
          dsimp only at hi
          split at hi
          · rename_i hm
            rw [bind_eq_ok] at hi
            rcases hi with ⟨_, ho, hi⟩
            split at hi
            · cases hi
              exact absurd rfl hr
            · rename_i hbad
              cases hi
              exact .notCreated p1 l1 _ hp hne hm (require_eq_ok.mp ho)
                (notCreated_iff.mpr ⟨rfl, hbad⟩)
          · rename_i hm
            cases hi
            exact .noMemory p1 l1 hp hne (by simpa using hm)
      · simp only [invokeBase, amTargCreateFunction, readBytes_of_lt (Nat.not_le.mp hp)] at hi
        cases hi
    | _ => cases hc

end Refusal

section Table
variable {env : Env} {t t' : FuncTable} {rxBuf : PackAll} {resp : PackResp} {stale : UInt32}
  {e : AmReturn} {p : Processed}

/-- The request is refused with code `e`. -/
inductive FuncTable.Refuses (env : Env) (t : FuncTable) (rxBuf : PackAll) (resp : PackResp)
    (e : AmReturn) : Prop
  | unknown (h : t.validate rxBuf.wrap.funcId = .null)
    (hr : PackRefuses (BaseRefuses env t) none rxBuf resp e) : Refuses env t rxBuf resp e
  | base (h : t.validate rxBuf.wrap.funcId = .base)
    (hr : PackRefuses (BaseRefuses env t) (some baseHdr) rxBuf resp e) : Refuses env t rxBuf resp e
  | device (f : MemFunction) (h : t.validate rxBuf.wrap.funcId = .device f)
    (hr : PackRefuses (DeviceRefuses env f) (some f.hdr) rxBuf resp e) : Refuses env t rxBuf resp e

theorem FuncTable.set_eq_self {i : Fin amTargetMaxFunctions} {s : Slot} (h : t.slots i = s) :
    t.set i s = t := by
  rw [FuncTable.set, ← h, Function.update_eq_self]

/-- The three ways through the dispatcher of the target, by what the identifier stands for. -/
theorem amTargProcess_null (h : t.validate rxBuf.wrap.funcId = .null) :
    amTargProcess env t rxBuf resp stale =
      amPackProcessCmd (invokeBase env) none rxBuf resp stale t := by
  unfold FuncTable.validate at h
  unfold amTargProcess
  cases hid : amValidateFunctionId rxBuf.wrap.funcId with
  | none => rfl
  | some i =>
    rw [hid] at h
    change t.slots i = .null at h
    simp only [h]

theorem amTargProcess_base (h : t.validate rxBuf.wrap.funcId = .base) :
    amTargProcess env t rxBuf resp stale =
      amPackProcessCmd (invokeBase env) (some baseHdr) rxBuf resp stale t := by
  unfold FuncTable.validate at h
  unfold amTargProcess
  cases hid : amValidateFunctionId rxBuf.wrap.funcId with
  | none =>
    rw [hid] at h
    cases h
  | some i =>
    rw [hid] at h
    change t.slots i = .base at h
    simp only [h]

theorem FuncTable.validate_eq_device {funcId : UInt16} {f : MemFunction}
    (h : t.validate funcId = .device f) :
    ∃ i, amValidateFunctionId funcId = some i ∧ t.slots i = .device f := by
  unfold FuncTable.validate at h
  split at h
  · cases h
  · rename_i i hid
    exact ⟨i, hid, h⟩

theorem amTargProcess_freed (h : t.validate rxBuf.wrap.funcId = .freed) :
    amTargProcess env t rxBuf resp stale = .error .useAfterFree := by
  unfold FuncTable.validate at h
  unfold amTargProcess
  cases hid : amValidateFunctionId rxBuf.wrap.funcId with
  | none =>
    rw [hid] at h
    cases h
  | some i =>
    rw [hid] at h
    change t.slots i = .freed at h
    simp only [h]

/-- A refused request is answered with its code, and nothing else happens. -/
theorem FuncTable.Refuses.processed (hr : t.Refuses env rxBuf (echoWrap rxBuf resp) e) :
    amTargProcess env t rxBuf resp stale = .ok (t, errorResp e (echoWrap rxBuf resp)) ∧
      e ≠ amRetGood := by
  have hbase : ∀ hd c e, BaseRefuses env t hd c e →
      invokeBase env hd c t = .ok (t, { error := e }) ∧ e ≠ amRetGood := fun _ _ _ h => h.served
  cases hr with
  | unknown h hr =>
    rw [amTargProcess_null h]
    exact hr.processed hbase
  | base h hr =>
    rw [amTargProcess_base h]
    exact hr.processed hbase
  | device f h hr =>
    obtain ⟨i, hid, hf⟩ := FuncTable.validate_eq_device h
    obtain ⟨hproc, hne⟩ : processDevice .user env f rxBuf resp stale =
        .ok (f, errorResp e (echoWrap rxBuf resp)) ∧ e ≠ amRetGood :=
      hr.processed fun _ _ _ h => h.served
    refine ⟨?_, hne⟩
    rw [amTargProcess_device hid hf, hproc, ok_bind, FuncTable.set_eq_self hf]

theorem refuses_of_error (h : amTargProcess env t rxBuf resp stale = .ok (t', p))
    (hp : p.error ≠ amRetGood) : t.Refuses env rxBuf (echoWrap rxBuf resp) p.error := by
  cases hv : t.validate rxBuf.wrap.funcId with
  | null =>
    rw [amTargProcess_null hv] at h
    exact .unknown hv (packRefuses_of_error (fun _ _ _ _ => baseRefuses_of_error) h hp)
  | base =>
    rw [amTargProcess_base hv] at h
    exact .base hv (packRefuses_of_error (fun _ _ _ _ => baseRefuses_of_error) h hp)
  | device f =>
    obtain ⟨i, hid, hf⟩ := FuncTable.validate_eq_device hv
    rw [amTargProcess_device hid hf, bind_eq_ok] at h
    rcases h with ⟨⟨g, q⟩, hq, h⟩
    cases h
    exact .device f hv (packRefuses_of_error (fun _ _ _ _ => deviceRefuses_of_error) hq hp)
  | freed =>
    rw [amTargProcess_freed hv] at h
    cases h

end Table

end AppMem.Target
