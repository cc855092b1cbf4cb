import AppMem.Assca.LoneIterator

/-! # Iterator calls that are refused

A call whose handle leads to no cursor is refused. The handle is then the invalid one, and the
bits of the invalid handle that stand for a cursor are those of the last: that cursor is
cleared, whoever has it.
-/
namespace AppMem.Assca
open Library.Checked Abi Memory Device

section Refusal
variable {b : Build} {f g : MemFunction} {fd : AsscaData} {pAA : AmlibAssca}
  {p1 p2 : List UInt8} {l1 l2 : UInt64} {h : UInt32}

/-- The handle leads to a cursor: it asks for a new one and one is free, or it asks for none and
says that it is valid. -/
def Admitted (pAA : AmlibAssca) (h : UInt32) : Prop :=
  if h &&& asscaIterFlagNew ≠ 0 then ∃ i, pAA.pIterArray i = none
  else h &&& asscaIterFlagReset = 0 ∧ h &&& asscaIterFlagValid ≠ 0

def invalidCursor : Fin maxAsscaIters := getIterIdx asscaIterInvalid

/-- A call that is refused changes nothing and stores nothing. -/
def RefusalQuiet (b : Build) (f : MemFunction) : AsscaUse → Prop
  | .iter p1 l1 p2 l2 h => ∀ g r, amAsscaIter b f p1 l1 p2 l2 h = .ok (g, r) →
      r.error = amRetInvalidIter → g = f ∧ r.out1 = [] ∧ r.out2 = []
  | _ => True

/-- The handle leads to a cursor, or the last cursor is free. -/
def Harmless (f : MemFunction) : AsscaUse → Prop
  | .iter _ _ _ _ h => ∀ fd, f.pVdF = some (.assca fd) →
      Admitted fd.data h ∨ fd.data.pIterArray invalidCursor = none
  | _ => True

theorem iterIdx_lt (h : UInt32) : (h &&& asscaIterIdxMask).toNat < maxAsscaIters := by
  rw [UInt32.toNat_and]
  exact Nat.lt_succ_of_le Nat.and_le_right

theorem getIter_valid_iff : amAsscaGetIter pAA h ≠ asscaIterInvalid ↔ Admitted pAA h := by
  rw [amAsscaGetIter, Admitted]
  by_cases hnew : h &&& asscaIterFlagNew ≠ 0
  · rw [if_pos hnew, if_pos hnew]
    cases hfree : freeCursor pAA with
    | some i =>
      have hex : ∃ i, pAA.pIterArray i = none := ⟨i, freeCursor_eq_some hfree⟩
      simp only [iterHandle_ne_invalid, ne_eq, not_false_eq_true, hex]
    | none =>
      have hall := freeCursor_eq_none.mp hfree
      simp only [ne_eq, not_true_eq_false, false_iff, not_exists]
      exact hall
  · rw [if_neg hnew, if_neg hnew]
    by_cases hreset : h &&& asscaIterFlagReset = 0
    · have hres : ¬ (h &&& asscaIterFlagReset ≠ 0 ∧
          (h &&& asscaIterIdxMask).toNat < maxAsscaIters) := fun hr => hr.1 hreset
      rw [if_neg hres]
      by_cases hvalid : h &&& asscaIterFlagValid ≠ 0
      · -- the invalid handle asks for a new cursor, so this is not it
        have hne : h ≠ asscaIterInvalid := by
          rintro rfl
          exact hnew (by decide)
        simp only [hvalid, iterIdx_lt, and_self, if_true, hne, hreset, ne_eq, not_false_eq_true]
      · simp only [hvalid, false_and, if_false, ne_eq, not_true_eq_false, and_false]
    · simp only [hreset, iterIdx_lt, ne_eq, not_false_eq_true, and_self, if_true, not_true_eq_false,
        false_and]

theorem asscaIter_not_refused {flags : UInt32} {r : AmlibAssca × IterResult}
    (ha : Admitted pAA h) (hr : asscaIter b flags pAA p1 l1 p2 l2 h = .ok r) :
    r.2.error ≠ amRetInvalidIter := by
  have hdone : amRetIterDone ≠ amRetInvalidIter := by decide
  have hgood : amRetGood ≠ amRetInvalidIter := by decide
  unfold asscaIter at hr
  dsimp only at hr
  rw [if_pos (getIter_valid_iff.mpr ha)] at hr
  split at hr
  · cases hr
    exact hdone
  · split at hr
    · cases hr
    · rw [bind_eq_ok] at hr
      rcases hr with ⟨key, -, hr⟩
      rw [bind_eq_ok] at hr
      rcases hr with ⟨data, -, hr⟩
      cases hr
      exact hgood

/-- Any other call clears the last cursor. -/
theorem asscaIter_refused {flags : UInt32} (ha : ¬ Admitted pAA h) :
    asscaIter b flags pAA p1 l1 p2 l2 h = .ok (pAA.setCursor invalidCursor none,
      ⟨amRetInvalidIter, (asscaIterInvalid &&& asscaIterIdxMask) ||| asscaIterDone, [], []⟩) := by
  have hinvalid : amAsscaGetIter pAA h = asscaIterInvalid :=
    not_not.mp fun hne => ha (getIter_valid_iff.mp hne)
  unfold asscaIter
  dsimp only
  rw [if_neg (not_not.mpr hinvalid), hinvalid, invalidCursor]

theorem refusalQuiet_iff {use : AsscaUse} : RefusalQuiet b f use ↔ Harmless f use := by
  cases use with
  | write env p1 p2 => exact Iff.rfl
  | read p1 p2 => exact Iff.rfl
  | iter p1 l1 p2 l2 h =>
    have hiter : ∀ fd, f.pVdF = some (.assca fd) → amAsscaIter b f p1 l1 p2 l2 h =
        asscaIter b fd.flags fd.data p1 l1 p2 l2 h >>= fun r => .ok (f.setAssca fd r.1, r.2) := by
      intro fd hf
      simp only [amAsscaIter, hf]
      rfl
    constructor
    · intro hquiet fd hf
      by_cases ha : Admitted fd.data h
      · exact .inl ha
      · have hcall := hiter fd hf
        rw [asscaIter_refused ha, ok_bind] at hcall
        have hdata := congrArg MemFunction.pVdF (hquiet _ _ hcall rfl).1
        rw [hf, MemFunction.setAssca, Option.some.injEq, FuncData.assca.injEq] at hdata
        have hcursor := congrArg (fun fd : AsscaData => fd.data.pIterArray invalidCursor) hdata
        dsimp only at hcursor
        rw [setCursor_self] at hcursor
        exact .inr hcursor.symm
    · intro hharm g r hcall hr
      cases hdata : f.pVdF with
      | none =>
        simp only [amAsscaIter, hdata] at hcall
        cases hcall
        cases hr
      | some d =>
        cases d with
        | assca fd =>
          rw [hiter fd hdata, bind_eq_ok] at hcall
          rcases hcall with ⟨r', hr', hcall⟩
          cases hcall
          by_cases ha : Admitted fd.data h
          · exact absurd hr (asscaIter_not_refused ha hr')
          · rw [asscaIter_refused ha] at hr'
            cases hr'
            have hfree := (hharm fd hdata).resolve_left ha
            exact ⟨by rw [setCursor_eq_self hfree, setAssca_self hdata], rfl, rfl⟩
        | raw | flat | stata =>
          simp only [amAsscaIter, hdata] at hcall
          cases hcall

/-- In every run of writes, reads and iterator calls, the calls that are refused leave everything as
it is just when each call has a handle that leads to a cursor, or finds the last cursor free. -/
theorem refusalsQuiet_iff (b : Build) (f : MemFunction) (uses : List AsscaUse) :
    Along (useStep b) (RefusalQuiet b) f uses ↔ Along (useStep b) Harmless f uses :=
  along_congr (P := fun _ => True) (fun _ _ _ _ _ _ => trivial) (fun _ _ _ => refusalQuiet_iff)
    trivial uses

end Refusal

section Instances

def fifthIterator : AsscaUse := .iter [0, 0, 0, 0] 4 [0, 0, 0, 0] 4 asscaIterFlagNew

/-- The fifth is refused and the fourth loses its place. -/
theorem not_refusalsQuiet : ¬ ∀ (b : Build) (env : Env) (f₀ f : MemFunction) (pCap : AmMemCap)
    (uses : List AsscaUse), amCreateAsscaDevice env f₀ pCap = (amRetGood, f) →
      Along (useStep b) (RefusalQuiet b) f uses := by
  intro hall
  have hquiet := hall .user _ _ _ _ (twoWrites ++ List.replicate 5 fifthIterator)
    (create_asscaFour 0)
  have hbusy : (trace (useStep .user) (asscaFour 0) (twoWrites ++ List.replicate 4 fifthIterator)).map
      (fun r => cursors r.1) = .ok (some [some 1, some 1, some 1, some 1]) := by decide +kernel
  cases hrun : trace (useStep .user) (asscaFour 0) (twoWrites ++ List.replicate 4 fifthIterator) with
  | error e =>
    rw [hrun] at hbusy
    cases hbusy
  | ok r =>
    rw [hrun] at hbusy
    obtain ⟨fd, hf, hcursors⟩ := of_cursors (Except.ok.inj hbusy)
    have hsome : ∀ i, fd.data.pIterArray i = some 1 := by
      intro i
      have hmem : fd.data.pIterArray i ∈ [some 1, some 1, some 1, some 1] := by
        rw [hcursors]
        exact List.mem_ofFn.mpr ⟨i, rfl⟩
      simpa using hmem
    have hsplit : twoWrites ++ List.replicate 5 fifthIterator =
        (twoWrites ++ List.replicate 4 fifthIterator) ++ [fifthIterator] := rfl
    rw [hsplit] at hquiet
    have hlast := hquiet.of_append hrun
    rcases refusalQuiet_iff.mp hlast.1 fd hf with ha | hfree
    · obtain ⟨i, hi⟩ := ha
      rw [hsome i] at hi
      cases hi
    · rw [hsome] at hfree
      cases hfree

end Instances

end AppMem.Assca
