import AppMem.Device.Flat
import AppMem.Device.MergeSort

/-! # Static arrays

`am_stata.c`: the accessors take the index as it comes and always address cells of four
bytes; the sort checks its indices.
-/
namespace AppMem.Device
open Library.Bytes Library.Checked Abi Memory Pack

/-- The operations need private data of a static array; `fd` of another kind cannot be here. -/
def stataAccess (f : MemFunction) (op : StataData → Exec (StataData × Served)) :
    Exec (MemFunction × Served) :=
  match f.pVdF with
  | none => .error .nullPointer
  | some (.stata fd) => do
    let r ← op fd
    return ({ f with pVdF := some (.stata r.1) }, r.2)
  | some _ => .error .convention

theorem stataAccess_eq_ok {f g : MemFunction} {op : StataData → Exec (StataData × Served)}
    {r : Served} :
    stataAccess f op = .ok (g, r) ↔ ∃ fd fd', f.pVdF = some (.stata fd) ∧ op fd = .ok (fd', r) ∧
      g = { f with pVdF := some (.stata fd') } := by
  unfold stataAccess
  split
  · rename_i h
    simp [h]
  · rename_i fd h
    simp only [bind_eq_ok, pure_eq_ok, Except.ok.injEq, Prod.mk.injEq, Prod.exists, h,
      Option.some.injEq, FuncData.stata.injEq]
    constructor
    · rintro ⟨fd', r', hop, rfl, rfl⟩
      exact ⟨fd, fd', rfl, hop, rfl⟩
    · rintro ⟨_, fd', rfl, hop, rfl⟩
      exact ⟨fd', r, hop, rfl, rfl⟩
  · rename_i d hd h
    constructor
    · intro hc
      cases hc
    · rintro ⟨fd, _, hfd, _⟩
      exact absurd (Option.some.inj (h.symm.trans hfd)) (hd fd)

def amStataReadIdx32 (b : Build) (f : MemFunction) (p1 p2 : List UInt8) :
    Exec (MemFunction × Served) :=
  stataAccess f fun fd => do
    let idx ← readU32 p1
    let out ← cellToUser b fd.flags fd.data (4 * idx.toNat) p2
    return (fd, { error := amRetGood, out := out })

def amStataWriteIdx32 (b : Build) (f : MemFunction) (p1 p2 : List UInt8) :
    Exec (MemFunction × Served) :=
  stataAccess f fun fd => do
    let idx ← readU32 p1
    let data ← cellFromUser b fd.flags fd.data (4 * idx.toNat) p2
    return ({ fd with data := data }, { error := amRetGood })

section Sorting

structure SortParam where
  type : UInt32
  startIdx : UInt32
  endIdx : UInt32
  order : UInt32
  dataSigned : UInt8
  deriving DecidableEq, Repr

def sizeofSortParam : ℕ := 20

def SortParam.ofBytes (l : List UInt8) : SortParam where
  type := u32OfBytes l
  startIdx := u32OfBytes (l.drop 4)
  endIdx := u32OfBytes (l.drop 8)
  order := u32OfBytes (l.drop 12)
  dataSigned := l.getD 16 0

def amSortTypeStataIntegralMerge : UInt32 := 1

/-- The address where the range starts. The index is multiplied by the number of elements,
not by their size. -/
def SortParam.startAddr (s : SortParam) (fd : StataData) : UInt64 :=
  fd.addr + s.startIdx.toUInt64 * fd.arraySize

/-- The address of the last element; index 0 stands for the whole array. -/
def SortParam.endAddr (s : SortParam) (fd : StataData) : UInt64 :=
  if s.endIdx = 0 then fd.addr + (fd.arraySize - 1) * fd.dataSize.toUInt64
  else fd.addr + (s.endIdx * fd.dataSize).toUInt64

/-- The checks of `am_stata_sort`, in their order; all of them answer with the same code. -/
def SortParam.accepted (s : SortParam) (fd : StataData) : Bool :=
  s.type == amSortTypeStataIntegralMerge && s.startIdx.toUInt64 < fd.arraySize &&
    s.endIdx.toUInt64 < fd.arraySize && s.dataSigned == 0 && fd.dataSize == 4

/-- `am_stata_merge_sort_begin` on addresses: outside the storage there is nothing to sort. -/
def sortRange (env : Env) (fd : StataData) (startAddr endAddr : UInt64) :
    Exec (StataData × Served) := do
  require (startAddr ≠ 0 ∧ endAddr ≠ 0 ∧ fd.dataSize ≠ 0) Fault.assertion
  if startAddr < endAddr then
    require (fd.addr ≤ startAddr) Fault.bounds
    let r ← amStataMergeSortBegin env fd.data (startAddr - fd.addr).toNat
      (endAddr - fd.addr).toNat fd.dataSize.toNat
    return ({ fd with data := r.1 }, { error := r.2 })
  else return (fd, { error := amRetParamErr })

def amStataSort (env : Env) (f : MemFunction) (p1 : List UInt8) (l1 : UInt64) :
    Exec (MemFunction × Served) :=
  match f.pVdF with
  | none => .ok (f, { error := amRetParamErr })
  | some (.stata fd) =>
    if l1.toNat < sizeofSortParam then .ok (f, { error := amRetParamErr })
    else do
      let s ← SortParam.ofBytes <$> readBytes p1 sizeofSortParam
      if s.accepted fd then
        let r ← sortRange env fd (s.startAddr fd) (s.endAddr fd)
        return ({ f with pVdF := some (.stata r.1) }, r.2)
      else return (f, { error := amRetParamErr })
  | some _ => .error .convention

theorem sortRange_eq_ok {env : Env} {fd fd' : StataData} {s e : UInt64} {r : Served} :
    sortRange env fd s e = .ok (fd', r) ↔ (s ≠ 0 ∧ e ≠ 0 ∧ fd.dataSize ≠ 0) ∧
      ((¬ s < e ∧ fd' = fd ∧ r = { error := amRetParamErr }) ∨
      (s < e ∧ fd.addr ≤ s ∧ ∃ data error,
        amStataMergeSortBegin env fd.data (s - fd.addr).toNat (e - fd.addr).toNat
          fd.dataSize.toNat = .ok (data, error) ∧
        fd' = { fd with data := data } ∧ r = { error := error })) := by
  rw [sortRange, bind_eq_ok]
  simp only [require_eq_ok]
  by_cases hlt : s < e
  · simp only [hlt, if_true, bind_eq_ok, require_eq_ok, pure_eq_ok, Except.ok.injEq,
      Prod.mk.injEq, Prod.exists, not_true_eq_false, false_and, true_and, false_or]
    constructor
    · rintro ⟨_, hnull, _, h, data, error, hs, rfl, rfl⟩
      exact ⟨hnull, h, data, error, hs, rfl, rfl⟩
    · rintro ⟨hnull, h, data, error, hs, rfl, rfl⟩
      exact ⟨(), hnull, (), h, data, error, hs, rfl, rfl⟩
  · simp only [hlt, if_false, pure_eq_ok, Except.ok.injEq, Prod.mk.injEq, not_false_eq_true,
      true_and, false_and, or_false]
    constructor
    · rintro ⟨_, hnull, rfl, rfl⟩
      exact ⟨hnull, rfl, rfl⟩
    · rintro ⟨hnull, rfl, rfl⟩
      exact ⟨(), hnull, rfl, rfl⟩

/-- The sort leaves the function alone, or it sorts the range. -/
theorem amStataSort_cases {env : Env} {f g : MemFunction} {p1 : List UInt8} {l1 : UInt64}
    {r : Served} (h : amStataSort env f p1 l1 = .ok (g, r)) :
    (g = f ∧ r = { error := amRetParamErr }) ∨
    ∃ fd fd' s, f.pVdF = some (.stata fd) ∧ SortParam.accepted s fd = true ∧
      sortRange env fd (s.startAddr fd) (s.endAddr fd) = .ok (fd', r) ∧
      g = { f with pVdF := some (.stata fd') } := by
  unfold amStataSort at h
  split at h
  · cases h
    exact .inl ⟨rfl, rfl⟩
  · rename_i fd hfd
    split at h
    · cases h
      exact .inl ⟨rfl, rfl⟩
    · rw [bind_eq_ok] at h
      rcases h with ⟨s, -, h⟩
      split at h
      · rename_i hacc
        rw [bind_eq_ok] at h
        rcases h with ⟨⟨fd', r'⟩, hr, h⟩
        cases h
        exact .inr ⟨fd, fd', s, hfd, hacc, hr, rfl⟩
      · cases h
        exact .inl ⟨rfl, rfl⟩
  · cases h

end Sorting

section Create

/-- The private data of a new static array; the elements are not initialised. -/
def newStataData (env : Env) (pCap : AmMemCap) : StataData :=
  let dataSize := pCap.typeSpecific tsStatArrayValMaxSize
  let size := dataSize.toUInt64 * pCap.maxSize
  { addr := env.addr
    data := env.garbage size.toNat
    flags := env.flags
    size := size
    arraySize := pCap.maxSize
    idxSize := pCap.typeSpecific tsStatArrayIdxByteSize
    dataSize := dataSize }

/-- The sizes are set before the storage is allocated. -/
def stataSizes (f : MemFunction) (pCap : AmMemCap) : MemFunction :=
  { f with crResp := { f.crResp with
      dataSize := pCap.typeSpecific tsStatArrayValMaxSize
      idxSize := pCap.typeSpecific tsStatArrayIdxByteSize } }

/-- What `am_create_stata_device` leaves in the function. -/
def stataDevice (env : Env) (f : MemFunction) (pCap : AmMemCap) : MemFunction :=
  let f := registerOpenClose (stataSizes f pCap)
  { f with
    pVdF := some (.stata (newStataData env pCap))
    pfnOps := setOp (setOp (setOp f.pfnOps amOpSort (some .amStataSort))
      amOpWriteAlign (some .amStataWriteIdx32)) amOpReadAlign (some .amStataReadIdx32)
    crResp := { f.crResp with
      ops := setOp f.crResp.ops amOpSort (opWord amPackAction amOpSort)
      acOps := fun i =>
        if i = acopWrite then opWord amPackAlign amOpWriteAlign
        else opWord amPackAlign amOpReadAlign
      packDataOffset := (pCap.typeSpecific tsStatArrayIdxByteSize).toUInt8
      amName := deviceName "am_stata_" f.handle
      devt := f.handle } }

def amCreateStataDevice (env : Env) (f : MemFunction) (pCap : AmMemCap) : AmReturn × MemFunction :=
  if env.alloc .funcData then
    if env.alloc .storage then (amRetGood, stataDevice env f pCap)
    else (amRetAllocErr, stataSizes f pCap)
  else (amRetAllocErr, f)

end Create

end AppMem.Device
