import AppMem.Device.Alike
import AppMem.Target.ResponseLength

/-! # Tables that differ in what was never stored

The tables of two targets that have served the same requests. What is known of a storage starts with
what its creator clears and grows with every store.
-/
namespace AppMem.Target
open Library.Bytes Library.Checked Library.TwoRuns Abi Memory Pack Device

/-- What a creator stores: flat memory is cleared, unless the capability asks for an initial value;
the elements of a static array are left as `malloc` found them. -/
def initialised (pCap : AmMemCap) : Set ℕ :=
  if pCap.amType = amTypeFlatMem ∧ pCap.typeSpecific tsInitMemVal = 0 then
    Set.Iio pCap.maxSize.toNat
  else ∅

inductive Slot.Alike (K : Set ℕ) : Slot → Slot → Prop
  | null : Slot.Alike K .null .null
  | base : Slot.Alike K .base .base
  | device {f g : MemFunction} (h : f.Alike K g) : Slot.Alike K (.device f) (.device g)
  | freed : Slot.Alike K .freed .freed

/-- Tables of two targets; `known` are the bytes of each function that were stored. -/
structure FuncTable.Alike (known : Fin amTargetMaxFunctions → Set ℕ) (t t' : FuncTable) : Prop where
  slots : ∀ i, Slot.Alike (known i) (t.slots i) (t'.slots i)
  entries : t'.entries = t.entries

section Alike
variable {known : Fin amTargetMaxFunctions → Set ℕ} {env env' : Env} {t t' : FuncTable}
  {f f' : MemFunction} {i : Fin amTargetMaxFunctions}

theorem FuncTable.Alike.start (entries : Registry) :
    FuncTable.Alike known (.start entries) (.start entries) where
  slots i := by
    simp only [FuncTable.start]
    split
    · exact .base
    · exact .null
  entries := rfl

theorem FuncTable.Alike.set (h : FuncTable.Alike known t t') {s s' : Slot} {K : Set ℕ}
    (hs : Slot.Alike K s s') :
    FuncTable.Alike (Function.update known i K) (t.set i s) (t'.set i s') where
  slots j := by
    by_cases hj : j = i
    · subst hj
      rw [FuncTable.set_self, FuncTable.set_self, Function.update_self]
      exact hs
    · rw [FuncTable.set_of_ne hj, FuncTable.set_of_ne hj, Function.update_of_ne hj]
      exact h.slots j
  entries := h.entries

theorem FuncTable.Alike.freeSlot (h : FuncTable.Alike known t t') : t'.freeSlot = t.freeSlot := by
  unfold FuncTable.freeSlot
  congr 1
  funext i
  have hi := h.slots i
  generalize t.slots i = s at hi
  generalize t'.slots i = s' at hi
  cases hi <;> rfl

theorem createDevice_status_alike (henv : SameMemory env env') (f : MemFunction) (pCap : AmMemCap) :
    (createDevice env' f pCap).1 = (createDevice env f pCap).1 := by
  rw [createDevice_status, createDevice_status, henv.alloc]

theorem flatDevice_alike {pCap : AmMemCap} (hty : pCap.amType = amTypeFlatMem) :
    (flatDevice env f pCap).Alike (initialised pCap) (flatDevice env' f pCap) where
  rest := rfl
  data := by
    refine .some ⟨rfl, ?_⟩
    unfold initialised
    dsimp only [newFlatData]
    by_cases hval : pCap.typeSpecific tsInitMemVal = 0
    · rw [if_pos ⟨hty, hval⟩, if_neg (not_not.mpr hval), if_neg (not_not.mpr hval)]
      exact .refl _ _
    · rw [if_neg (fun h => hval h.2), if_pos hval, if_pos hval]
      exact agreeOn_empty (by rw [Env.length_garbage, Env.length_garbage])

theorem stataDevice_alike {pCap : AmMemCap} (henv : SameMemory env env')
    (hty : pCap.amType = amTypeStaticArray) :
    (stataDevice env f pCap).Alike (initialised pCap) (stataDevice env' f pCap) where
  rest := rfl
  data := by
    have hflat : ¬ (pCap.amType = amTypeFlatMem ∧ pCap.typeSpecific tsInitMemVal = 0) := by
      rw [hty]
      rintro ⟨h, -⟩
      exact absurd h (by decide)
    refine .some ⟨?_, ?_⟩
    · simp only [newStataData, henv.addr]
    · rw [initialised, if_neg hflat]
      exact agreeOn_empty (by simp only [newStataData, Env.length_garbage])

theorem newDevice_alike (henv : SameMemory env env') (f : MemFunction) (pCap : AmMemCap) :
    (newDevice env f pCap).Alike (initialised pCap) (newDevice env' f pCap) := by
  unfold newDevice
  by_cases hst : pCap.amType = amTypeStaticArray
  · rw [if_pos hst, if_pos hst]
    exact stataDevice_alike henv hst
  · rw [if_neg hst, if_neg hst]
    by_cases hfl : pCap.amType = amTypeFlatMem
    · rw [if_pos hfl, if_pos hfl]
      exact flatDevice_alike hfl
    · rw [if_neg hfl, if_neg hfl]
      exact ⟨rfl, .some rfl⟩

/-- What is known after a call of the base function: a new function has what its creator stores. -/
def BaseHandler.learns (t : FuncTable) (known : Fin amTargetMaxFunctions → Set ℕ) :
    BaseHandler → PackCall → Fin amTargetMaxFunctions → Set ℕ
  | .amTargCreateFunction, .fivo p1 _ =>
    match t.freeSlot with
    | some i => Function.update known i (initialised (.ofBytes (p1.take sizeofMemCap)))
    | none => known
  | _, _ => known

def SameTableServed (known : Fin amTargetMaxFunctions → Set ℕ) (r r' : FuncTable × Served) : Prop :=
  FuncTable.Alike known r.1 r'.1 ∧ r.2 = r'.2

theorem FuncTable.Alike.forget_null (h : FuncTable.Alike known t t') (hi : t.slots i = .null)
    (K : Set ℕ) : FuncTable.Alike (Function.update known i K) t t' where
  slots j := by
    by_cases hj : j = i
    · subst hj
      have hs := h.slots j
      rw [hi] at hs ⊢
      rw [Function.update_self]
      generalize t'.slots j = s at hs
      cases hs
      exact .null
    · rw [Function.update_of_ne hj]
      exact h.slots j
  entries := h.entries

theorem amTargCreateFunction_lockstep (h : FuncTable.Alike known t t') (henv : SameMemory env env')
    (p1 : List UInt8) (l1 : UInt64) :
    Lockstep (SameTableServed (BaseHandler.learns t known .amTargCreateFunction (.fivo p1 l1)))
      (amTargCreateFunction env t p1) (amTargCreateFunction env' t' p1) := by
  by_cases hp : sizeofMemCap ≤ p1.length
  · rw [amTargCreateFunction_of_le _ _ hp, amTargCreateFunction_of_le _ _ hp, h.freeSlot,
      BaseHandler.learns]
    cases hfree : t.freeSlot with
    | none => rfl
    | some i =>
      have hnull := h.forget_null (t.freeSlot_eq_some hfree)
      dsimp only
      rw [henv.alloc, createDevice_status_alike henv]
      apply Lockstep.ite
      · intro _
        apply Lockstep.bind_same
        intro _ _
        apply Lockstep.ite
        · intro hgood
          rw [createDevice_eq_newDevice hgood,
            createDevice_eq_newDevice ((createDevice_status_alike henv _ _).trans hgood)]
          have hnew := newDevice_alike henv (.blank (slotHandle i))
            (.ofBytes (p1.take sizeofMemCap))
          refine ⟨h.set (.device hnew), ?_⟩
          dsimp only
          rw [hnew.rest]
        · intro _
          exact ⟨hnull _, rfl⟩
      · intro _
        exact ⟨hnull _, rfl⟩
  · simp only [amTargCreateFunction, readBytes_of_lt (Nat.not_le.mp hp)]
    rfl

theorem invokeBase_lockstep {hd : BaseHandler} {c : PackCall} (h : FuncTable.Alike known t t')
    (henv : SameMemory env env') :
    Lockstep (SameTableServed (hd.learns t known c)) (invokeBase env hd c t)
      (invokeBase env' hd c t') := by
  cases c with
  | opOnly =>
    cases hd with
    | amTargIdentifyResp | amTargGetCapCount => exact ⟨h, rfl⟩
    | amTargGetCap | amTargCreateFunction => rfl
  | fivo p1 l1 =>
    cases hd with
    | amTargGetCap =>
      simp only [invokeBase, amTargGetCap, h.entries]
      apply Lockstep.bind_same
      intro r _
      exact ⟨h, rfl⟩
    | amTargCreateFunction => exact amTargCreateFunction_lockstep h henv p1 l1
    | amTargIdentifyResp | amTargGetCapCount => rfl
  | align _ _ | action _ _ | config => cases hd <;> rfl

end Alike

end AppMem.Target
