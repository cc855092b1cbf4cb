import AppMem.Cpp.Container

/-! # Static arrays of the C++ library

Any size of the index that shares a bit with the sizes on offer will do, and the values get four
bytes. Behind that the cells keep what was inserted.
-/
namespace AppMem.Cpp
open Library.Bytes Library.Checked Abi Memory Pack Device

section Sizes

/-- The word of `typeSpecific` with the smallest size of a value. -/
def tsStatArrayValMinSize : Fin 32 := 1

/-- The sizes of an index on offer are single bits of the word of the capability. -/
def stataIndexSizes : List UInt32 := [1, 2, 4, 8]

def StataAllowed (dataSize indexSize : UInt32) : Prop :=
  indexSize ∈ stataIndexSizes ∧ stataCaps.typeSpecific tsStatArrayValMinSize ≤ dataSize ∧
    dataSize ≤ stataCaps.typeSpecific tsStatArrayValMaxSize

instance (dataSize indexSize : UInt32) : Decidable (StataAllowed dataSize indexSize) :=
  inferInstanceAs (Decidable (_ ∧ _))

/-- The array has exactly these sizes, and nothing behind a value in the buffer of the caller makes
a difference. -/
structure StataExact (elements dataSize indexSize : UInt32) (c : CAppMem) : Prop where
  sizes : ∃ fd, c.amFunc.func.pVdF = some (.stata fd) ∧ fd.dataSize = dataSize ∧
    fd.idxSize = indexSize
  insert : ∀ env index pVal, stataInsert elements env c index pVal =
    stataInsert elements env c index (pVal.take dataSize.toNat)

def stataFunction (elements indexSize : UInt32) (env : Env) (minor : ℕ) (amFunc : MemFunction) :
    VirtdFunction :=
  ⟨{ amFunc with
    pVdF := some (.stata {
      addr := env.addr
      data := List.replicate ((4 : UInt32).toUInt64 * elements.toUInt64).toNat 0
      flags := env.flags
      size := (4 : UInt32).toUInt64 * elements.toUInt64
      arraySize := elements.toUInt64.toUInt32.toUInt64
      idxSize := indexSize
      dataSize := 4 })
    crResp := { amFunc.crResp with amName := ascii ("virtd_stata" ++ toString minor) } },
    some (virtdStataCalls newCalls)⟩

/-- The constructor comes back, and a container that is ready has allowed sizes, and those. -/
def StataBuilt (elements dataSize indexSize : UInt32) (env : Env) (minor : ℕ)
    (amFunc : MemFunction) : Prop :=
  ∃ c, newStaticArray elements indexSize dataSize env minor amFunc = .ok c ∧
    (c.bReady = true → StataAllowed dataSize indexSize ∧ StataExact elements dataSize indexSize c)

theorem find_stataCaps : (allCaps.find? fun c => c.amType = amTypeStaticArray) = some stataCaps :=
  rfl

theorem create_stata (env : Env) (minor : ℕ) (amFunc : MemFunction) {elements indexSize : UInt32}
    {pCap : AmMemCap} (ht : pCap.amType = amTypeStaticArray)
    (hmax : pCap.maxSize = elements.toUInt64)
    (hidx : pCap.typeSpecific tsStatArrayIdxByteSize = indexSize)
    (hval : pCap.typeSpecific tsStatArrayValMaxSize = 4) : ∃ e f, e ≠ amRetGood ∧
    amVirtdCreateFunction env targetRegistry minor pCap ⟨amFunc, some newCalls⟩ =
      .ok (if env.alloc .funcData = true ∧ env.alloc .storage = true then
        (amRetGood, stataFunction elements indexSize env minor amFunc) else (e, f)) := by
  have hty : ¬ amTypeAssocArray < pCap.amType := by
    rw [ht]
    decide
  have hflat : amTypeStaticArray ≠ amTypeFlatMem := by decide
  have hparam : amRetParamErr ≠ amRetGood := by decide
  have halloc : amRetAllocErr ≠ amRetGood := by decide
  rw [amVirtdCreateFunction, if_neg hty]
  cases env.alloc .funcData with
  | false => exact ⟨_, _, hparam, rfl⟩
  | true =>
    rw [virtdSwitch, ht, if_neg hflat, if_pos rfl, virtdStem, if_neg hflat, if_pos rfl]
    cases env.alloc .storage with
    | false => exact ⟨_, _, halloc, rfl⟩
    | true =>
      refine ⟨_, ⟨amFunc, none⟩, halloc, ?_⟩
      rw [stataFunction, ← hmax, ← hidx, ← hval]
      rfl

/-- The edited capability, when the sizes have a bit in common. -/
theorem stataConfigCaps_eq (elements indexSize : UInt32) :
    if 15 &&& indexSize ≠ 0 then
      ∃ pCap, stataConfigCaps elements indexSize stataCaps = (amRetGood, pCap) ∧
        pCap.amType = amTypeStaticArray ∧ pCap.maxSize = elements.toUInt64 ∧
        pCap.typeSpecific tsStatArrayIdxByteSize = indexSize ∧
        pCap.typeSpecific tsStatArrayValMaxSize = 4
    else stataConfigCaps elements indexSize stataCaps = (amRetParamErr, stataCaps) := by
  have hbits : stataCaps.typeSpecific tsStatArrayIdxByteSize = 15 := rfl
  rw [stataConfigCaps, hbits]
  by_cases hbit : 15 &&& indexSize ≠ 0
  · rw [if_pos hbit, if_pos hbit]
    exact ⟨_, rfl, rfl, rfl, rfl, rfl⟩
  · rw [if_neg hbit, if_neg hbit]

theorem newStaticArray_eq (elements dataSize indexSize : UInt32) (env : Env) (minor : ℕ)
    (amFunc : MemFunction) : ∃ f,
    newStaticArray elements indexSize dataSize env minor amFunc = .ok
      (if 15 &&& indexSize ≠ 0 ∧ env.alloc .funcData = true ∧ env.alloc .storage = true then
        ⟨true, stataFunction elements indexSize env minor amFunc⟩ else ⟨false, f⟩) := by
  have hparam : ¬ amRetParamErr = amRetGood := by decide
  have hedit := stataConfigCaps_eq elements indexSize
  rw [newStaticArray, initBase, find_stataCaps]
  dsimp only
  by_cases hbit : 15 &&& indexSize ≠ 0
  · rw [if_pos hbit] at hedit
    obtain ⟨pCap, hcap, ht, hmax, hidx, hval⟩ := hedit
    obtain ⟨e, f, he, hcreate⟩ := create_stata env minor amFunc ht hmax hidx hval
    rw [hcap, if_pos rfl, hcreate, ok_bind]
    by_cases hm : env.alloc .funcData = true ∧ env.alloc .storage = true
    · refine ⟨⟨amFunc, none⟩, ?_⟩
      rw [if_pos hm, if_pos rfl, if_pos ⟨hbit, hm⟩]
      rfl
    · refine ⟨f, ?_⟩
      rw [if_neg hm, if_neg he, if_neg fun h => hm h.2]
      rfl
  · rw [if_neg hbit] at hedit
    refine ⟨⟨amFunc, some newCalls⟩, ?_⟩
    rw [hedit, if_neg hparam, if_neg fun h => hbit h.1]
    rfl

theorem stataInsert_eq {c : CAppMem} (hfn : c.amFunc.fn = some (virtdStataCalls newCalls))
    (elements : UInt32) (env : Env) (index : UInt32) (pVal : List UInt8) :
    stataInsert elements env c index pVal = if index < elements then
      amStataWriteIdx32 .user c.amFunc.func (u32Bytes index) pVal >>= fun r =>
        .ok (⟨c.bReady, r.1, c.amFunc.fn⟩, r.2.error)
    else .ok (c, amRetKeyOutOfRange) := by
  rw [stataInsert, CAppMem.writeAl, hfn]
  rfl

theorem stataGet_eq {c : CAppMem} (hfn : c.amFunc.fn = some (virtdStataCalls newCalls))
    (elements : UInt32) (env : Env) (index : UInt32) (pVal : List UInt8) :
    stataGet elements env c index pVal = if index < elements then
      amStataReadIdx32 .user c.amFunc.func (u32Bytes index) pVal >>= fun r =>
        writeBytes pVal r.2.out >>= fun p2 =>
          .ok (⟨c.bReady, r.1, c.amFunc.fn⟩, ⟨r.2.error, p2⟩)
    else .ok (c, ⟨amRetKeyOutOfRange, pVal⟩) := by
  rw [stataGet, CAppMem.readAl, hfn]
  rfl

theorem stataExact_four {elements indexSize : UInt32} {c : CAppMem} {fd : StataData}
    (hfn : c.amFunc.fn = some (virtdStataCalls newCalls))
    (hf : c.amFunc.func.pVdF = some (.stata fd)) (hdata : fd.dataSize = 4)
    (hidx : fd.idxSize = indexSize) : StataExact elements 4 indexSize c := by
  constructor
  · exact ⟨fd, hf, hdata, hidx⟩
  · intro env index pVal
    have hcell : ∀ off, cellFromUser .user fd.flags fd.data off pVal =
        cellFromUser .user fd.flags fd.data off (pVal.take 4) := by
      intro off
      simp only [cellFromUser, get32FromUser, Build.direct_user, if_true, readBytes_take]
    have hfour : (4 : UInt32).toNat = 4 := rfl
    rw [stataInsert_eq hfn, stataInsert_eq hfn, amStataWriteIdx32, amStataWriteIdx32, stataAccess,
      stataAccess, hf, hfour]
    dsimp only
    simp only [hcell]

/-- The constructor keeps to the sizes just when the container is not ready, or the values have
four bytes and the size of the index is on offer. -/
theorem stataBuilt_iff {elements dataSize indexSize : UInt32} {env : Env} {minor : ℕ}
    {amFunc : MemFunction} :
    StataBuilt elements dataSize indexSize env minor amFunc ↔
      ¬ (15 &&& indexSize ≠ 0 ∧ env.alloc .funcData = true ∧ env.alloc .storage = true) ∨
      (dataSize = 4 ∧ indexSize ∈ stataIndexSizes) := by
  obtain ⟨f, hnew⟩ := newStaticArray_eq elements dataSize indexSize env minor amFunc
  unfold StataBuilt
  rw [hnew]
  by_cases hready : 15 &&& indexSize ≠ 0 ∧ env.alloc .funcData = true ∧ env.alloc .storage = true
  · rw [if_pos hready]
    constructor
    · rintro ⟨c, hc, hkeeps⟩
      cases hc
      obtain ⟨hallowed, hexact⟩ := hkeeps rfl
      obtain ⟨fd, hf, hdata, -⟩ := hexact.sizes
      cases hf
      exact .inr ⟨hdata.symm, hallowed.1⟩
    · rintro (hnot | ⟨rfl, hidx⟩)
      · exact absurd hready hnot
      · refine ⟨_, rfl, fun _ => ⟨⟨hidx, ?_⟩, stataExact_four rfl rfl rfl rfl⟩⟩
        decide
  · rw [if_neg hready]
    exact iff_of_true ⟨_, rfl, fun hr => absurd hr Bool.false_ne_true⟩ (.inl hready)

end Sizes

section History

inductive StataCall
  | insert (env : Env) (index : UInt32) (pVal : List UInt8)
  | get (env : Env) (index : UInt32) (pVal : List UInt8)

def stataCall (elements : UInt32) (c : CAppMem) : StataCall → Exec (CAppMem × AlignResult)
  | .insert env index pVal =>
    (stataInsert elements env c index pVal).map fun r => (r.1, ⟨r.2, pVal⟩)
  | .get env index pVal => stataGet elements env c index pVal

/-- A container with four bytes for each of its elements. -/
structure Cells (elements : UInt32) (c : CAppMem) : Prop where
  calls : c.amFunc.fn = some (virtdStataCalls newCalls)
  room : ∃ fd, c.amFunc.func.pVdF = some (.stata fd) ∧ fd.data.length = 4 * elements.toNat

variable {elements : UInt32} {c c' : CAppMem}

theorem cells_new (elements indexSize : UInt32) (env : Env) (minor : ℕ) (amFunc : MemFunction) :
    Cells elements ⟨true, stataFunction elements indexSize env minor amFunc⟩ := by
  constructor
  · rfl
  · refine ⟨_, rfl, ?_⟩
    have hfour : (4 : UInt32).toUInt64.toNat = 4 := rfl
    have hlt := elements.toNat_lt
    have hfits : 4 * elements.toNat < 2 ^ 64 := by omega
    rw [List.length_replicate, UInt64.toNat_mul, hfour, UInt32.toNat_toUInt64,
      Nat.mod_eq_of_lt hfits]

theorem Cells.call (C : Cells elements c) {call : StataCall} {o : AlignResult}
    (h : stataCall elements c call = .ok (c', o)) : Cells elements c' := by
  obtain ⟨hfn, fd, hf, hlen⟩ := C
  cases call with
  | insert env index pVal =>
    rw [stataCall, stataInsert_eq hfn] at h
    by_cases hin : index < elements
    · rw [if_pos hin] at h
      cases hwrite : amStataWriteIdx32 .user c.amFunc.func (u32Bytes index) pVal with
      | error e =>
        rw [hwrite] at h
        cases h
      | ok r =>
        rw [hwrite] at h
        cases h
        obtain ⟨fd₁, fd₂, hf₁, hop, hg⟩ := stataAccess_eq_ok.mp hwrite
        rw [hf] at hf₁
        cases hf₁
        simp only [bind_eq_ok, pure_eq_ok, Except.ok.injEq, Prod.mk.injEq] at hop
        obtain ⟨idx, -, data, hcell, rfl, -⟩ := hop
        obtain ⟨hval, hroom, rfl⟩ := (cellFromUser_eq_ok (Build.direct_user _)).mp hcell
        have hcell4 : (pVal.take 4).length = 4 := List.length_take_of_le hval
        refine ⟨hfn, _, by rw [hg], ?_⟩
        rw [length_splice (by omega), hlen]
    · rw [if_neg hin] at h
      cases h
      exact ⟨hfn, fd, hf, hlen⟩
  | get env index pVal =>
    rw [stataCall, stataGet_eq hfn] at h
    by_cases hin : index < elements
    · rw [if_pos hin, bind_eq_ok] at h
      obtain ⟨⟨g, r⟩, hread, h⟩ := h
      rw [bind_eq_ok] at h
      obtain ⟨p2, -, h⟩ := h
      cases h
      obtain ⟨fd₁, fd₂, hf₁, hop, hg⟩ := stataAccess_eq_ok.mp hread
      rw [hf] at hf₁
      cases hf₁
      simp only [bind_eq_ok, pure_eq_ok, Except.ok.injEq, Prod.mk.injEq] at hop
      obtain ⟨idx, -, out, -, rfl, -⟩ := hop
      exact ⟨hfn, fd, by rw [hg], hlen⟩
    · rw [if_neg hin] at h
      cases h
      exact ⟨hfn, fd, hf, hlen⟩

theorem Cells.run (C : Cells elements c) {calls : List StataCall} {os : List AlignResult}
    (h : trace (stataCall elements) c calls = .ok (c', os)) : Cells elements c' :=
  trace_invariant (fun _ _ _ _ C hcall => C.call hcall) C h

/-- A cell inside the array that holds `v` is read back in every buffer. -/
theorem stataGet_of_window {fd : StataData}
    (hfn : c.amFunc.fn = some (virtdStataCalls newCalls))
    (hf : c.amFunc.func.pVdF = some (.stata fd)) (hlen : fd.data.length = 4 * elements.toNat)
    {index : UInt32} (hin : index < elements) (env : Env) {p2 : List UInt8}
    (hp2 : 4 ≤ p2.length) :
    stataGet elements env c index p2 =
      .ok (c, ⟨amRetGood, splice p2 0 (window fd.data (4 * index.toNat) 4)⟩) := by
  have hlt : index.toNat < elements.toNat := hin
  have hroom : 4 * index.toNat + 4 ≤ fd.data.length := by omega
  have hout : (window fd.data (4 * index.toNat) 4).length ≤ p2.length := by
    rw [length_window hroom]
    exact hp2
  have hidx : readU32 (u32Bytes index) = .ok index :=
    readU32_eq_ok.mpr ⟨(length_u32Bytes index).ge, (u32OfBytes_u32Bytes index).symm⟩
  have hcell : cellToUser .user fd.flags fd.data (4 * index.toNat) p2 =
      .ok (window fd.data (4 * index.toNat) 4) :=
    (cellToUser_eq_ok (Build.direct_user _)).mpr ⟨hroom, rfl⟩
  have hread : amStataReadIdx32 .user c.amFunc.func (u32Bytes index) p2 =
      .ok (c.amFunc.func, { error := amRetGood, out := window fd.data (4 * index.toNat) 4 }) := by
    refine stataAccess_eq_ok.mpr ⟨fd, fd, hf, ?_, by rw [← hf]⟩
    rw [hidx, ok_bind, hcell]
    rfl
  rw [stataGet_eq hfn, if_pos hin, hread, ok_bind, writeBytes_of_le hout, ok_bind]

theorem Cells.insert (C : Cells elements c) {index : UInt32} (hin : index < elements) (env : Env)
    {pVal : List UInt8} (hval : 4 ≤ pVal.length) :
    ∃ c' fd, stataInsert elements env c index pVal = .ok (c', amRetGood) ∧
      c'.amFunc.fn = some (virtdStataCalls newCalls) ∧ c'.amFunc.func.pVdF = some (.stata fd) ∧
      fd.data.length = 4 * elements.toNat ∧
      window fd.data (4 * index.toNat) 4 = pVal.take 4 := by
  obtain ⟨hfn, fd, hf, hlen⟩ := C
  have hlt : index.toNat < elements.toNat := hin
  have hroom : 4 * index.toNat + 4 ≤ fd.data.length := by omega
  have hidx : readU32 (u32Bytes index) = .ok index :=
    readU32_eq_ok.mpr ⟨(length_u32Bytes index).ge, (u32OfBytes_u32Bytes index).symm⟩
  have hcell : cellFromUser .user fd.flags fd.data (4 * index.toNat) pVal =
      .ok (splice fd.data (4 * index.toNat) (pVal.take 4)) :=
    (cellFromUser_eq_ok (Build.direct_user _)).mpr ⟨hval, hroom, rfl⟩
  have hsize : (pVal.take 4).length = 4 := List.length_take_of_le hval
  have hroom' : 4 * index.toNat + (pVal.take 4).length ≤ fd.data.length := by
    rw [hsize]
    exact hroom
  let fd' : StataData := { fd with data := splice fd.data (4 * index.toNat) (pVal.take 4) }
  have hwrite : amStataWriteIdx32 .user c.amFunc.func (u32Bytes index) pVal =
      .ok ({ c.amFunc.func with pVdF := some (.stata fd') }, { error := amRetGood }) := by
    refine stataAccess_eq_ok.mpr ⟨fd, fd', hf, ?_, rfl⟩
    rw [hidx, ok_bind, hcell]
    rfl
  have hinsert : stataInsert elements env c index pVal =
      .ok (⟨c.bReady, { c.amFunc.func with pVdF := some (.stata fd') }, c.amFunc.fn⟩,
        amRetGood) := by
    rw [stataInsert_eq hfn, if_pos hin, hwrite]
    rfl
  refine ⟨_, fd', hinsert, hfn, rfl, ?_, ?_⟩
  · rw [length_splice hroom', hlen]
  · have hback := window_splice hroom'
    rw [hsize] at hback
    exact hback

def StataCall.Fits (elements : UInt32) : StataCall → Prop
  | .insert _ index pVal => index < elements → 4 ≤ pVal.length
  | .get _ index pVal => index < elements → 4 ≤ pVal.length

theorem Cells.call_iff (C : Cells elements c) (call : StataCall) :
    (∃ r, stataCall elements c call = .ok r) ↔ call.Fits elements := by
  cases call with
  | insert env index pVal =>
    rw [stataCall, StataCall.Fits]
    by_cases hin : index < elements
    · simp only [hin, forall_const]
      constructor
      · rintro ⟨r, hr⟩
        obtain ⟨r₁, hinsert, -⟩ := except_map_eq_ok.mp hr
        rw [stataInsert_eq C.calls, if_pos hin, bind_eq_ok] at hinsert
        obtain ⟨r₂, hwrite, -⟩ := hinsert
        obtain ⟨fd₁, fd₂, -, hop, -⟩ := stataAccess_eq_ok.mp hwrite
        simp only [bind_eq_ok] at hop
        obtain ⟨idx, -, data, hcell, -⟩ := hop
        exact ((cellFromUser_eq_ok (Build.direct_user _)).mp hcell).1
      · intro hval
        obtain ⟨c', fd, hinsert, -⟩ := C.insert hin env hval
        rw [hinsert]
        exact ⟨_, rfl⟩
    · rw [stataInsert_eq C.calls, if_neg hin]
      exact iff_of_true ⟨_, rfl⟩ fun h => absurd h hin
  | get env index pVal =>
    rw [stataCall, StataCall.Fits]
    obtain ⟨hfn, fd, hf, hlen⟩ := C
    by_cases hin : index < elements
    · simp only [hin, forall_const]
      constructor
      · rintro ⟨r, hr⟩
        rw [stataGet_eq hfn, if_pos hin, bind_eq_ok] at hr
        obtain ⟨⟨g, v⟩, hread, hr⟩ := hr
        rw [bind_eq_ok] at hr
        obtain ⟨p2, hwrite, -⟩ := hr
        obtain ⟨fd₁, fd₂, -, hop, -⟩ := stataAccess_eq_ok.mp hread
        simp only [bind_eq_ok, pure_eq_ok, Except.ok.injEq, Prod.mk.injEq] at hop
        obtain ⟨idx, -, out, hcell, -, rfl⟩ := hop
        obtain ⟨hroom, rfl⟩ := (cellToUser_eq_ok (Build.direct_user _)).mp hcell
        have hout := (writeBytes_eq_ok.mp hwrite).1
        rwa [length_window hroom] at hout
      · intro hval
        rw [stataGet_of_window hfn hf hlen hin env hval]
        exact ⟨_, rfl⟩
    · rw [stataGet_eq hfn, if_neg hin]
      exact iff_of_true ⟨_, rfl⟩ fun h => absurd h hin

theorem Cells.run_iff (C : Cells elements c) (calls : List StataCall) :
    (∃ c' os, trace (stataCall elements) c calls = .ok (c', os)) ↔
      ∀ call ∈ calls, call.Fits elements := by
  induction calls generalizing c with
  | nil => exact iff_of_true ⟨c, [], rfl⟩ fun _ h => absurd h List.not_mem_nil
  | cons call calls ih =>
    rw [List.forall_mem_cons, ← C.call_iff call, trace_cons]
    constructor
    · rintro ⟨c', os, h⟩
      rw [bind_eq_ok] at h
      obtain ⟨⟨c₁, o⟩, hcall, h⟩ := h
      rw [bind_eq_ok] at h
      obtain ⟨r, hrest, -⟩ := h
      exact ⟨⟨_, hcall⟩, (ih (C.call hcall)).mp ⟨r.1, r.2, hrest⟩⟩
    · rintro ⟨⟨⟨c₁, o⟩, hcall⟩, hfits⟩
      obtain ⟨c', os, hrest⟩ := (ih (C.call hcall)).mpr hfits
      refine ⟨c', o :: os, ?_⟩
      rw [hcall, ok_bind, hrest]
      rfl

end History

end AppMem.Cpp
