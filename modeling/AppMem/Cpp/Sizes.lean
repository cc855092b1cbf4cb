import AppMem.Cpp.AsscArray
import AppMem.Cpp.StaticArray

/-! # Containers that keep the sizes they were constructed with

From the arguments of the constructor to a value that was inserted after any history of calls. An
associative array gives its value back when the sizes are on offer and the table shows it; a static
array when the values have four bytes.
-/
namespace AppMem.Cpp
open Library.Bytes Library.Checked Abi Memory Hash Pack Device Assca

section AsscArray
variable (keySize dataSize : UInt32) (env : Env) (minor : ℕ) (amFunc : MemFunction)
  (calls : List AsscCall)

/-- A container that is ready has allowed sizes, and those; and after calls that come back an insert
comes back, and its value is got back. -/
def AsscKeeps (env' : Env) (pKey pVal : List UInt8) : Prop :=
  ∃ c, newAsscArray keySize dataSize true true env minor amFunc = .ok c ∧
    (c.bReady = true → AsscAllowed keySize dataSize ∧ AsscExact keySize dataSize c ∧
      ∀ c' os, trace asscCall c calls = .ok (c', os) →
        ∃ c'' e, asscInsert true true env' c' pKey pVal = .ok (c'', e) ∧
          GetsBack dataSize.toNat c'' pKey pVal)

/-- After any log that the calls can leave, an insert comes back and shows its value. -/
def InsertsShow (env' : Env) (pKey pVal : List UInt8) : Prop :=
  ∀ s ∈ calls.foldlM (AsscCall.logged keySize.toNat dataSize.toNat) (Growth.start, []),
    InsertShows keySize.toNat dataSize.toNat s env' pKey pVal

variable {keySize dataSize env minor amFunc calls}

theorem AsscKeeps.built {env' : Env} {pKey pVal : List UInt8}
    (h : AsscKeeps keySize dataSize env minor amFunc calls env' pKey pVal) :
    AsscBuilt keySize dataSize env minor amFunc := by
  obtain ⟨c, hc, hkeeps⟩ := h
  exact ⟨c, hc, fun hr => ⟨(hkeeps hr).1, (hkeeps hr).2.1⟩⟩

theorem newAsscArray_allowed (hfunc : env.alloc .funcData = true) (hassca : env.alloc .assca = true)
    (ha : AsscAllowed keySize dataSize) :
    newAsscArray keySize dataSize true true env minor amFunc =
      .ok ⟨true, asscFunction keySize dataSize env minor amFunc⟩ := by
  rw [newAsscArray_eq, if_pos hfunc, if_pos hassca, if_pos ha, if_pos ha]

/-- The inserts after all calls that come back, by the log these leave. -/
theorem inserts_iff {c : CAppMem}
    (S : AsscStored keySize.toNat dataSize.toNat c (Growth.start, [])) {env' : Env}
    {pKey pVal : List UInt8} (hkey : keySize.toNat ≤ pKey.length)
    (hval : dataSize.toNat ≤ pVal.length) :
    (∀ c' os, trace asscCall c calls = .ok (c', os) →
      ∃ c'' e, asscInsert true true env' c' pKey pVal = .ok (c'', e) ∧
        GetsBack dataSize.toNat c'' pKey pVal) ↔
      InsertsShow keySize dataSize calls env' pKey pVal := by
  have hrun := S.run calls
  unfold InsertsShow
  cases hs : calls.foldlM (AsscCall.logged keySize.toNat dataSize.toNat) (Growth.start, []) with
  | none =>
    rw [hs] at hrun
    obtain ⟨e, he⟩ := hrun
    refine iff_of_true (fun c' os h => ?_) fun s h => ?_
    · rw [he] at h
      cases h
    · cases h
  | some s =>
    rw [hs] at hrun
    obtain ⟨c', os, htrace, S'⟩ := hrun
    rw [htrace]
    constructor
    · intro h s' hs'
      cases hs'
      exact (S'.insert_iff env' hkey hval).mp (h c' os rfl)
    · intro h c₁ os₁ htrace₁
      cases htrace₁
      exact (S'.insert_iff env' hkey hval).mpr (h s rfl)

theorem asscKeeps_iff {env' : Env} {pKey pVal : List UInt8} (hkey : keySize.toNat ≤ pKey.length)
    (hval : dataSize.toNat ≤ pVal.length) :
    AsscKeeps keySize dataSize env minor amFunc calls env' pKey pVal ↔
      env.alloc .funcData = false ∨ (env.alloc .assca = true ∧ AsscAllowed keySize dataSize ∧
        InsertsShow keySize dataSize calls env' pKey pVal) := by
  have hstored : AsscStored keySize.toNat dataSize.toNat
      ⟨true, asscFunction keySize dataSize env minor amFunc⟩ (Growth.start, []) :=
    asscStored_new env minor amFunc
  constructor
  · intro h
    rcases asscBuilt_iff.mp h.built with hfunc | ⟨hassca, ha⟩
    · exact .inl hfunc
    · by_cases hfunc : env.alloc .funcData = true
      · obtain ⟨c, hc, hkeeps⟩ := h
        rw [newAsscArray_allowed hfunc hassca ha] at hc
        cases hc
        exact .inr ⟨hassca, ha, (inserts_iff hstored hkey hval).mp (hkeeps rfl).2.2⟩
      · exact .inl (Bool.eq_false_iff.mpr hfunc)
  · intro h
    have hbuilt : AsscBuilt keySize dataSize env minor amFunc :=
      asscBuilt_iff.mpr (h.imp_right fun h => ⟨h.1, h.2.1⟩)
    obtain ⟨c, hc, hexact⟩ := hbuilt
    refine ⟨c, hc, fun hr => ⟨(hexact hr).1, (hexact hr).2, ?_⟩⟩
    by_cases hfunc : env.alloc .funcData = true
    · rcases h with hfail | ⟨hassca, ha, hshows⟩
      · rw [hfunc] at hfail
        cases hfail
      · rw [newAsscArray_allowed hfunc hassca ha] at hc
        cases hc
        exact (inserts_iff hstored hkey hval).mpr hshows
    · rw [newAsscArray_eq, if_neg hfunc] at hc
      cases hc
      cases hr

end AsscArray

section StaticArray
variable (elements dataSize indexSize : UInt32) (env : Env) (minor : ℕ) (amFunc : MemFunction)
  (calls : List StataCall)

/-- Every get of the index returns good, and the value in every buffer. -/
def StataGetsBack (c : CAppMem) (index : UInt32) (pVal : List UInt8) : Prop :=
  ∀ env p2, dataSize.toNat ≤ p2.length → ∃ c', stataGet elements env c index p2 =
    .ok (c', ⟨amRetGood, splice p2 0 (pVal.take dataSize.toNat)⟩)

/-- A container that is ready has allowed sizes, and those; and after the calls an insert comes
back, and its value is got back. -/
def StataKeeps (env' : Env) (index : UInt32) (pVal : List UInt8) : Prop :=
  ∃ c, newStaticArray elements indexSize dataSize env minor amFunc = .ok c ∧
    (c.bReady = true → StataAllowed dataSize indexSize ∧
      StataExact elements dataSize indexSize c ∧
      ∀ c' os, trace (stataCall elements) c calls = .ok (c', os) →
        ∃ c'' e, stataInsert elements env' c' index pVal = .ok (c'', e) ∧
          StataGetsBack elements dataSize c'' index pVal)

variable {elements dataSize indexSize env minor amFunc calls}

theorem StataKeeps.built {env' : Env} {index : UInt32} {pVal : List UInt8}
    (h : StataKeeps elements dataSize indexSize env minor amFunc calls env' index pVal) :
    StataBuilt elements dataSize indexSize env minor amFunc := by
  obtain ⟨c, hc, hkeeps⟩ := h
  exact ⟨c, hc, fun hr => ⟨(hkeeps hr).1, (hkeeps hr).2.1⟩⟩

theorem Cells.insert_iff {c : CAppMem} (C : Cells elements c) (env' : Env) {index : UInt32}
    {pVal : List UInt8} (hval : 4 ≤ pVal.length) :
    (∃ c' e, stataInsert elements env' c index pVal = .ok (c', e) ∧
      StataGetsBack elements 4 c' index pVal) ↔ index < elements := by
  have hfour : (4 : UInt32).toNat = 4 := rfl
  constructor
  · rintro ⟨c', e, hinsert, hback⟩
    by_contra hout
    rw [stataInsert_eq C.calls, if_neg hout] at hinsert
    cases hinsert
    obtain ⟨c₁, hget⟩ := hback .zeroed [0, 0, 0, 0] (by decide)
    rw [stataGet_eq C.calls, if_neg hout] at hget
    have herr : amRetKeyOutOfRange = amRetGood :=
      congrArg AlignResult.error (Prod.mk.inj (Except.ok.inj hget)).2
    exact absurd herr (by decide)
  · intro hin
    obtain ⟨c', fd, hinsert, hfn, hf, hlen, hcell⟩ := C.insert hin env' hval
    refine ⟨c', amRetGood, hinsert, fun env p2 hp2 => ⟨c', ?_⟩⟩
    rw [stataGet_of_window hfn hf hlen hin env hp2, hcell, hfour]

theorem stataKeeps_iff {env' : Env} {index : UInt32} {pVal : List UInt8}
    (hval : dataSize.toNat ≤ pVal.length) :
    StataKeeps elements dataSize indexSize env minor amFunc calls env' index pVal ↔
      ¬ (15 &&& indexSize ≠ 0 ∧ env.alloc .funcData = true ∧ env.alloc .storage = true) ∨
      (dataSize = 4 ∧ indexSize ∈ stataIndexSizes ∧
        ((∀ call ∈ calls, call.Fits elements) → index < elements)) := by
  obtain ⟨f, hnew⟩ := newStaticArray_eq elements dataSize indexSize env minor amFunc
  by_cases hready : 15 &&& indexSize ≠ 0 ∧ env.alloc .funcData = true ∧ env.alloc .storage = true
  · have hcells := cells_new elements indexSize env minor amFunc
    rw [if_pos hready] at hnew
    constructor
    · intro h
      obtain ⟨rfl, hidx⟩ := (stataBuilt_iff.mp h.built).resolve_left fun hnot => hnot hready
      refine .inr ⟨rfl, hidx, fun hfits => ?_⟩
      obtain ⟨c', os, hrun⟩ := (hcells.run_iff calls).mpr hfits
      obtain ⟨c, hc, hkeeps⟩ := h
      rw [hnew] at hc
      cases hc
      exact ((hcells.run hrun).insert_iff env' hval).mp ((hkeeps rfl).2.2 c' os hrun)
    · rintro (hnot | ⟨rfl, hidx, hin⟩)
      · exact absurd hready hnot
      · obtain ⟨c, hc, hexact⟩ := stataBuilt_iff.mpr (.inr ⟨rfl, hidx⟩)
        refine ⟨c, hc, fun hr => ⟨(hexact hr).1, (hexact hr).2, fun c' os hrun => ?_⟩⟩
        rw [hnew] at hc
        cases hc
        have hlt := hin ((hcells.run_iff calls).mp ⟨c', os, hrun⟩)
        exact ((hcells.run hrun).insert_iff env' hval).mpr hlt
  · rw [if_neg hready] at hnew
    exact iff_of_true ⟨_, hnew, fun hr => absurd hr Bool.false_ne_true⟩ (.inl hready)

end StaticArray

section Elements

/-- Containers keep their sizes, and give back what is inserted, just when one of these holds: an
allocation that is checked fails, or the bits of the size of the index are none of those on offer;
or the sizes are on offer, the table could be allocated, and the insert finds its memory and a table
that shows its value; or the values have four bytes, the size of the index is on offer, and the
index is inside. -/
theorem containersKeep_iff {keySize valueSize elements dataSize indexSize : UInt32} {env : Env}
    {minor : ℕ} {amFunc : MemFunction} {asscCalls : List AsscCall} {stataCalls : List StataCall}
    {env' : Env} {pKey pVal : List UInt8} {index : UInt32} {pData : List UInt8}
    (hkey : keySize.toNat ≤ pKey.length) (hval : valueSize.toNat ≤ pVal.length)
    (hdata : dataSize.toNat ≤ pData.length) :
    (AsscKeeps keySize valueSize env minor amFunc asscCalls env' pKey pVal ↔
      env.alloc .funcData = false ∨ (env.alloc .assca = true ∧ AsscAllowed keySize valueSize ∧
        InsertsShow keySize valueSize asscCalls env' pKey pVal)) ∧
    (StataKeeps elements dataSize indexSize env minor amFunc stataCalls env' index pData ↔
      ¬ (15 &&& indexSize ≠ 0 ∧ env.alloc .funcData = true ∧ env.alloc .storage = true) ∨
      (dataSize = 4 ∧ indexSize ∈ stataIndexSizes ∧
        ((∀ call ∈ stataCalls, call.Fits elements) → index < elements))) :=
  ⟨asscKeeps_iff hkey hval, stataKeeps_iff hdata⟩

/-- Keys and values of four bytes on both sides, after another insert. -/
theorem containersKeep_four :
    AsscKeeps 4 4 .zeroed 0 (.blank 0xAA01) [.insert .zeroed [4, 3, 2, 1] [8, 7, 6, 5]] .zeroed
        [1, 2, 3, 4] [5, 6, 7, 8] ∧
      StataKeeps 16 4 4 .zeroed 0 (.blank 0xAA01) [.insert .zeroed 2 [8, 7, 6, 5]] .zeroed 3
        [5, 6, 7, 8] := by
  have hallowed : AsscAllowed 4 4 := by decide
  have hshows : InsertsShow 4 4 [.insert .zeroed [4, 3, 2, 1] [8, 7, 6, 5]] .zeroed [1, 2, 3, 4]
      [5, 6, 7, 8] := by
    intro s hs
    cases hs
    exact ⟨_, rfl, by decide⟩
  have hindex : (4 : UInt32) ∈ stataIndexSizes := by decide
  have hin : (3 : UInt32) < 16 := by decide
  have hkeep := @containersKeep_iff 4 4 16 4 4 .zeroed 0 (.blank 0xAA01)
    [.insert .zeroed [4, 3, 2, 1] [8, 7, 6, 5]] [.insert .zeroed 2 [8, 7, 6, 5]] .zeroed
    [1, 2, 3, 4] [5, 6, 7, 8] 3 [5, 6, 7, 8] (by decide) (by decide) (by decide)
  exact ⟨hkeep.1.mpr (.inr ⟨rfl, hallowed, hshows⟩), hkeep.2.mpr (.inr ⟨rfl, hindex, fun _ => hin⟩)⟩

/-- A key of 513 bytes gets a table for 512, and values of eight bytes get cells of four. -/
theorem not_containersKeep :
    ¬ AsscKeeps 513 4 .zeroed 0 (.blank 0xAA01) [] .zeroed (List.replicate 513 1) [5, 6, 7, 8] ∧
      ¬ StataKeeps 16 8 4 .zeroed 0 (.blank 0xAA01) [] .zeroed 3 [1, 2, 3, 4, 5, 6, 7, 8] := by
  constructor
  · intro h
    have hallowed : ¬ AsscAllowed 513 4 := by decide
    rcases asscBuilt_iff.mp h.built with hfail | ⟨-, ha⟩
    · cases hfail
    · exact hallowed ha
  · intro h
    have hready : 15 &&& (4 : UInt32) ≠ 0 := by decide
    have hsize : (8 : UInt32) ≠ 4 := by decide
    rcases stataBuilt_iff.mp h.built with hnot | ⟨h8, -⟩
    · exact hnot ⟨hready, rfl, rfl⟩
    · exact hsize h8

end Elements

end AppMem.Cpp
