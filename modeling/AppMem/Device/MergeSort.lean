import AppMem.Device.Function

/-! # The merge sort of static arrays

`am_stata_merge_sort_begin` and what it calls, on the bytes of the storage. A pointer into
the storage or into the merge buffer is an offset. Loops that copy one element after
another run a number of times that is known when they start.
-/
namespace AppMem.Device
open Library.Bytes Library.Checked Abi Memory

/-- `am_set_ptrval`: copy one element; only elements of four bytes are supported. -/
def amSetPtrval (dst : List UInt8) (set : ℕ) (src : List UInt8) (fr dataSize : ℕ) :
    Exec (List UInt8) := do
  require (dataSize = 4) Fault.assertion
  let v ← readBytes (src.drop fr) 4
  require (set + 4 ≤ dst.length) Fault.bounds
  return splice dst set v

def amUnsignedIntgSortComp32 (a1 a2 : UInt32) : Int32 := if a1 < a2 then -1 else 1

def copyRun (dataSize : ℕ) : ℕ → List UInt8 → ℕ → List UInt8 → ℕ → Exec (List UInt8)
  | 0, dst, _, _, _ => .ok dst
  | n + 1, dst, set, src, fr => do
    let dst ← amSetPtrval dst set src fr dataSize
    copyRun dataSize n dst (set + dataSize) src (fr + dataSize)

/-- How often `while (p <= last) p += data_size` runs. -/
def runLength (p last dataSize : ℕ) : ℕ := if p ≤ last then (last - p) / dataSize + 1 else 0

/-- `iptr`, `jptr` and `kptr`, and the buffer. -/
structure MergePtrs where
  iptr : ℕ
  jptr : ℕ
  kptr : ℕ
  buffer : List UInt8

/-- The loop that takes the smaller head; `fuel` bounds the number of elements left. -/
def mergeLoop (data : List UInt8) (midPtr endPtr dataSize : ℕ) : ℕ → MergePtrs → Exec MergePtrs
  | 0, p => if p.iptr ≤ midPtr ∧ p.jptr ≤ endPtr then .error .hang else .ok p
  | fuel + 1, p =>
    if p.iptr ≤ midPtr ∧ p.jptr ≤ endPtr then do
      let a ← readU32 (data.drop p.iptr)
      let b ← readU32 (data.drop p.jptr)
      if amUnsignedIntgSortComp32 a b = -1 then
        let buffer ← amSetPtrval p.buffer p.kptr data p.iptr dataSize
        mergeLoop data midPtr endPtr dataSize fuel
          ⟨p.iptr + dataSize, p.jptr, p.kptr + dataSize, buffer⟩
      else
        let buffer ← amSetPtrval p.buffer p.kptr data p.jptr dataSize
        mergeLoop data midPtr endPtr dataSize fuel
          ⟨p.iptr, p.jptr + dataSize, p.kptr + dataSize, buffer⟩
    else .ok p

/-- `am_stata_merge`; the storage and the buffer afterwards. -/
def amStataMerge (data buffer : List UInt8) (startPtr endPtr midPtr dataSize : ℕ) :
    Exec (List UInt8 × List UInt8) := do
  let jptr := midPtr + dataSize
  let fuel := runLength startPtr midPtr dataSize + runLength jptr endPtr dataSize
  let p ← mergeLoop data midPtr endPtr dataSize fuel ⟨startPtr, jptr, 0, buffer⟩
  let ni := runLength p.iptr midPtr dataSize
  let buffer ← copyRun dataSize ni p.buffer p.kptr data p.iptr
  let nj := runLength p.jptr endPtr dataSize
  let buffer ← copyRun dataSize nj buffer (p.kptr + ni * dataSize) data p.jptr
  let data ← copyRun dataSize (runLength startPtr endPtr dataSize) data startPtr buffer 0
  return (data, buffer)

/-- `mid_ptr`: the count of elements and the distance are computed in 32 bits. -/
def midPtr (startPtr endPtr dataSize : ℕ) : ℕ :=
  startPtr + ((endPtr - startPtr) / dataSize % 2 ^ 32 / 2 * dataSize) % 2 ^ 32

/-- `am_stata_merge_sort`; the depth of the recursion is below the length of the range. -/
def amStataMergeSort (dataSize : ℕ) :
    ℕ → List UInt8 → List UInt8 → ℕ → ℕ → Exec (List UInt8 × List UInt8)
  | 0, data, buffer, startPtr, endPtr =>
    if startPtr < endPtr then .error .hang else .ok (data, buffer)
  | fuel + 1, data, buffer, startPtr, endPtr =>
    if startPtr < endPtr then do
      let mid := midPtr startPtr endPtr dataSize
      let r ← amStataMergeSort dataSize fuel data buffer startPtr mid
      let r ← amStataMergeSort dataSize fuel r.1 r.2 (mid + dataSize) endPtr
      amStataMerge r.1 r.2 startPtr endPtr mid dataSize
    else .ok (data, buffer)

/-- `size_merge_bytes`, a `UINT32`. -/
def sizeMergeBytes (startPtr endPtr dataSize : ℕ) : ℕ := (endPtr - startPtr + dataSize) % 2 ^ 32

/-- `am_stata_merge_sort_begin` on a range given by the offsets of its first and last element. -/
def amStataMergeSortBegin (env : Env) (data : List UInt8) (startPtr endPtr dataSize : ℕ) :
    Exec (List UInt8 × AmReturn) :=
  if env.alloc .mergeBuffer then do
    let buffer := env.garbage (sizeMergeBytes startPtr endPtr dataSize)
    let r ← amStataMergeSort dataSize (endPtr - startPtr) data buffer startPtr endPtr
    return (r.1, amRetGood)
  else .ok (data, amRetAllocErr)

end AppMem.Device
