import AppMem.Target.Handlers

/-! # All or nothing

A request to create a function either fills one free slot with a finished function, or leaves
the table alone. `am_targ_create_function` loses this when there is no free slot, and when
there is memory for the function but not for its table of operations.
-/
namespace AppMem.Target
open Library.Bytes Library.Checked Abi Memory Pack Device

section Slots
variable {t : FuncTable} {i j : Fin amTargetMaxFunctions} {s : Slot}

theorem FuncTable.freeSlot_eq_some (h : t.freeSlot = some i) : t.slots i = .null := by
  have hi := List.find?_some h
  cases hs : t.slots i with
  | null => rfl
  | _ =>
    rw [hs] at hi
    cases hi

theorem FuncTable.freeSlot_eq_none : t.freeSlot = none ↔ ∀ i, t.slots i ≠ .null := by
  simp only [FuncTable.freeSlot, List.find?_eq_none, List.mem_finRange, true_imp_iff]
  constructor
  · intro h i hi
    have hno := h i
    rw [hi] at hno
    exact hno rfl
  · intro h i
    cases hi : t.slots i with
    | null => exact absurd hi (h i)
    | _ => exact Bool.false_ne_true

@[simp] theorem FuncTable.set_self : (t.set i s).slots i = s := by
  simp [FuncTable.set]

theorem FuncTable.set_of_ne (h : j ≠ i) : (t.set i s).slots j = t.slots j := by
  simp [FuncTable.set, h]

end Slots

section Create
variable {env : Env} {t t' : FuncTable} {p1 : List UInt8} {r : Served}

/-- What the creators keep, and what they leave when they succeed. -/
theorem createDevice_spec (env : Env) (f : MemFunction) (pCap : AmMemCap) :
    (createDevice env f pCap).2.handle = f.handle ∧
      ((createDevice env f pCap).1 = amRetGood → (createDevice env f pCap).2.pVdF ≠ none) := by
  have halloc : amRetAllocErr ≠ amRetGood := by decide
  have hfunc : amRetInvalidFunc ≠ amRetGood := by decide
  unfold createDevice
  split
  · unfold amCreateStataDevice
    split
    · split
      · exact ⟨rfl, fun _ => Option.some_ne_none _⟩
      · exact ⟨rfl, fun h => absurd h halloc⟩
    · exact ⟨rfl, fun h => absurd h halloc⟩
  · split
    · unfold amCreateFlatDevice
      split
      · split
        · exact ⟨rfl, fun _ => Option.some_ne_none _⟩
        · exact ⟨rfl, fun h => absurd h halloc⟩
      · exact ⟨rfl, fun h => absurd h halloc⟩
    · split
      · unfold amCreateAsscaDevice
        split
        · split
          · exact ⟨rfl, fun _ => Option.some_ne_none _⟩
          · exact ⟨rfl, fun h => absurd h halloc⟩
        · exact ⟨rfl, fun h => absurd h halloc⟩
      · exact ⟨rfl, fun h => absurd h hfunc⟩

def newDevice (env : Env) (f : MemFunction) (pCap : AmMemCap) : MemFunction :=
  if pCap.amType = amTypeStaticArray then stataDevice env f pCap
  else if pCap.amType = amTypeFlatMem then flatDevice env f pCap
  else asscaDevice env f pCap

theorem createDevice_eq_newDevice {f : MemFunction} {pCap : AmMemCap}
    (h : (createDevice env f pCap).1 = amRetGood) :
    (createDevice env f pCap).2 = newDevice env f pCap := by
  have halloc : amRetAllocErr ≠ amRetGood := by decide
  have hfunc : amRetInvalidFunc ≠ amRetGood := by decide
  unfold createDevice at h ⊢
  unfold newDevice
  by_cases hst : pCap.amType = amTypeStaticArray
  · rw [if_pos hst] at h ⊢
    rw [if_pos hst]
    unfold amCreateStataDevice at h ⊢
    split at h
    · rename_i hfd
      rw [if_pos hfd]
      split at h
      · rename_i hmem
        rw [if_pos hmem]
      · exact absurd h halloc
    · exact absurd h halloc
  · rw [if_neg hst] at h ⊢
    rw [if_neg hst]
    by_cases hfl : pCap.amType = amTypeFlatMem
    · rw [if_pos hfl] at h ⊢
      rw [if_pos hfl]
      unfold amCreateFlatDevice at h ⊢
      split at h
      · rename_i hfd
        rw [if_pos hfd]
        split at h
        · rename_i hmem
          rw [if_pos hmem]
        · exact absurd h halloc
      · exact absurd h halloc
    · rw [if_neg hfl] at h ⊢
      rw [if_neg hfl]
      split at h
      · rename_i has
        rw [if_pos has]
        unfold amCreateAsscaDevice at h ⊢
        split at h
        · rename_i hfd
          rw [if_pos hfd]
          split at h
          · rename_i hmem
            rw [if_pos hmem]
          · exact absurd h halloc
        · exact absurd h halloc
      · exact absurd h hfunc

/-- A slot that was free holds a finished function, and every other slot is as before. -/
def Filled (t t' : FuncTable) : Prop :=
  ∃ i f, t.slots i = .null ∧ t' = t.set i (.device f) ∧ f.pVdF ≠ none ∧ f.handle = slotHandle i

theorem amTargCreateFunction_created (h : amTargCreateFunction env t p1 = .ok (t', r)) :
    (r.error ≠ amRetGood ∧ t' = t) ∨ ∃ i pCap, t.slots i = .null ∧
      (createDevice env (.blank (slotHandle i)) pCap).1 = amRetGood ∧ r.error = amRetGood ∧
      t' = t.set i (.device (createDevice env (.blank (slotHandle i)) pCap).2) := by
  have halloc : amRetAllocErr ≠ amRetGood := by decide
  unfold amTargCreateFunction at h
  rw [bind_eq_ok] at h
  rcases h with ⟨pCap, -, h⟩
  split at h
  · cases h
  · rename_i i hi
    split at h
    · rw [bind_eq_ok] at h
      rcases h with ⟨_, -, h⟩
      dsimp only at h
      split at h
      · rename_i hgood
        cases h
        exact .inr ⟨i, pCap, t.freeSlot_eq_some hi, hgood, rfl, rfl⟩
      · rename_i hbad
        cases h
        exact .inl ⟨hbad, rfl⟩
    · cases h
      exact .inl ⟨halloc, rfl⟩

theorem amTargCreateFunction_cases (h : amTargCreateFunction env t p1 = .ok (t', r)) :
    (r.error = amRetGood ∧ Filled t t') ∨ (r.error ≠ amRetGood ∧ t' = t) := by
  rcases amTargCreateFunction_created h with hbad | ⟨i, pCap, hi, hgood, hr, rfl⟩
  · exact .inr hbad
  · have hspec := createDevice_spec env (.blank (slotHandle i)) pCap
    exact .inl ⟨hr, i, _, hi, rfl, hspec.2 hgood, hspec.1⟩

/-- The request takes effect as a whole, or not at all. -/
def AllOrNothing (env : Env) (t : FuncTable) (p1 : List UInt8) : Prop :=
  ∃ t' r, amTargCreateFunction env t p1 = .ok (t', r) ∧
    ((r.error = amRetGood ∧ Filled t t') ∨
      (r.error ≠ amRetGood ∧ t' = t ∧ (t.freeSlot = none → r.error = amRetNoDeviceSlot)))

/-- There is a free slot, and no memory at all for the function or enough for the table of its
operations too. -/
def Creatable (env : Env) (t : FuncTable) : Prop :=
  (∃ i, t.slots i = .null) ∧ (env.alloc .memFunction = true → env.alloc .pfnOps = true)

theorem creatable_iff : Creatable env t ↔
    t.freeSlot ≠ none ∧ (env.alloc .memFunction = true → env.alloc .pfnOps = true) := by
  rw [Creatable, Ne, FuncTable.freeSlot_eq_none, not_forall]
  simp only [not_not]

theorem amTargCreateFunction_of_le (env : Env) (t : FuncTable) (h : sizeofMemCap ≤ p1.length) :
    amTargCreateFunction env t p1 =
      match t.freeSlot with
      | none => .error .uninitialised
      | some i =>
        if env.alloc .memFunction then
          require (env.alloc .pfnOps) Fault.useAfterFree >>= fun _ =>
            let c := createDevice env (.blank (slotHandle i)) (.ofBytes (p1.take sizeofMemCap))
            if c.1 = amRetGood then .ok (t.set i (.device c.2),
              { error := amRetGood
                out := c.2.crResp.bytes
                txBytes := some sizeofCrResp.toUInt32 })
            else .ok (t, { error := c.1 })
        else .ok (t, { error := amRetAllocErr }) := by
  simp only [amTargCreateFunction, readBytes_of_le h]
  rfl

theorem amTargCreateFunction_of_lt (h : p1.length < sizeofMemCap) :
    amTargCreateFunction env t p1 = .error .bounds := by
  rw [amTargCreateFunction, readBytes_of_lt h]
  rfl

/-- What a successful request does, and what it is answered with. -/
theorem amTargCreateFunction_slot (h : amTargCreateFunction env t p1 = .ok (t', r))
    (hgood : r.error = amRetGood) : sizeofMemCap ≤ p1.length ∧ ∃ i,
      t' = t.set i (.device (newDevice env (.blank (slotHandle i))
        (.ofBytes (p1.take sizeofMemCap)))) ∧ r = {
      error := amRetGood
      out := (newDevice env (.blank (slotHandle i))
        (.ofBytes (p1.take sizeofMemCap))).crResp.bytes
      txBytes := some sizeofCrResp.toUInt32 } := by
  have halloc : amRetAllocErr ≠ amRetGood := by decide
  by_cases hlen : sizeofMemCap ≤ p1.length
  · refine ⟨hlen, ?_⟩
    rw [amTargCreateFunction_of_le env t hlen] at h
    split at h
    · cases h
    · rename_i i hi
      split at h
      · rw [bind_eq_ok] at h
        rcases h with ⟨_, -, h⟩
        dsimp only at h
        split at h
        · rename_i hcreate
          cases h
          rw [createDevice_eq_newDevice hcreate]
          exact ⟨i, rfl, rfl⟩
        · rename_i hbad
          cases h
          exact absurd hgood hbad
      · cases h
        exact absurd hgood halloc
  · rw [amTargCreateFunction_of_lt (Nat.not_le.mp hlen)] at h
    cases h

/-- For every table, every request and every outcome of the allocations; the payload of a
request holds a whole capability. -/
theorem allOrNothing_iff (rxBuf : PackAll) :
    AllOrNothing env t (rxBuf.body.drop 8) ↔ Creatable env t := by
  have hlen : sizeofMemCap ≤ (rxBuf.body.drop 8).length := by
    rw [List.length_drop, rxBuf.length_body]
    decide
  have hcall := amTargCreateFunction_of_le env t hlen
  rw [creatable_iff]
  constructor
  · rintro ⟨t', r, h, -⟩
    rw [hcall] at h
    cases hfree : t.freeSlot with
    | none =>
      rw [hfree] at h
      cases h
    | some i =>
      rw [hfree] at h
      refine ⟨Option.some_ne_none _, fun hmem => ?_⟩
      dsimp only at h
      rw [if_pos hmem, bind_eq_ok] at h
      rcases h with ⟨_, hops, -⟩
      exact require_eq_ok.mp hops
  · rintro ⟨hfree, hmem⟩
    have hok : ∃ q, amTargCreateFunction env t (rxBuf.body.drop 8) = .ok q := by
      rw [hcall]
      cases hi : t.freeSlot with
      | none => exact absurd hi hfree
      | some i =>
        dsimp only
        by_cases hm : env.alloc .memFunction = true
        · rw [if_pos hm, require_of_true _ (hmem hm), ok_bind]
          split
          · exact ⟨_, rfl⟩
          · exact ⟨_, rfl⟩
        · rw [if_neg hm]
          exact ⟨_, rfl⟩
    rcases hok with ⟨⟨t', r⟩, hq⟩
    refine ⟨t', r, hq, ?_⟩
    rcases amTargCreateFunction_cases hq with hgood | ⟨hbad, hsame⟩
    · exact .inl hgood
    · exact .inr ⟨hbad, hsame, fun h => absurd h hfree⟩

/-- A full table. -/
theorem not_allOrNothing : ¬ ∀ (env : Env) (t : FuncTable) (rxBuf : PackAll),
    AllOrNothing env t (rxBuf.body.drop 8) := by
  intro h
  have hfull := h .zeroed ⟨fun _ => .base, targetRegistry⟩ .zero
  rw [allOrNothing_iff] at hfull
  rcases hfull.1 with ⟨i, hi⟩
  cases hi

end Create

end AppMem.Target
