import AppMem.Abi
import AppMem.Library.Bytes

/-! # Pointers, copies and allocations

A pointer is the list of bytes from its target to the end of the object it points
into, so reading `n` bytes through it needs a list of length at least `n`. The copy
macros of `appmemd_ioctl.h` depend on the build and on the flags of the function.
-/
namespace AppMem.Memory
open Library.Bytes Library.Checked Abi

/-- `memcpy` of `n` bytes out of the object behind `p`. -/
def readBytes (p : List UInt8) (n : ℕ) : Exec (List UInt8) := do
  require (n ≤ p.length) Fault.bounds
  return p.take n

theorem readBytes_of_le {p : List UInt8} {n : ℕ} (h : n ≤ p.length) :
    readBytes p n = .ok (p.take n) := by
  simp [readBytes, h]

theorem readBytes_of_lt {p : List UInt8} {n : ℕ} (h : p.length < n) :
    readBytes p n = .error .bounds := by
  simp [readBytes, Nat.not_le.mpr h]

theorem readBytes_eq_ok {p l : List UInt8} {n : ℕ} :
    readBytes p n = .ok l ↔ n ≤ p.length ∧ l = p.take n := by
  by_cases h : n ≤ p.length
  · simp [readBytes_of_le h, h, eq_comm]
  · simp [readBytes_of_lt (Nat.not_le.mp h), h]

theorem readBytes_take (p : List UInt8) (n : ℕ) : readBytes (p.take n) n = readBytes p n := by
  by_cases h : n ≤ p.length
  · have htake : n ≤ (p.take n).length := by
      rw [List.length_take]
      exact le_min le_rfl h
    rw [readBytes_of_le htake, readBytes_of_le h, List.take_take, min_self]
  · rw [List.take_of_length_le (Nat.not_le.mp h).le]

theorem readBytes_append {p : List UInt8} {n : ℕ} (h : n ≤ p.length) (q : List UInt8) :
    readBytes (p ++ q) n = readBytes p n := by
  have hle : n ≤ (p ++ q).length := by
    rw [List.length_append]
    exact Nat.le_add_right_of_le h
  rw [readBytes_of_le h, readBytes_of_le hle, List.take_append_of_le_length h]

/-- `memcpy` of `src` over the first bytes of the object behind `p`. -/
def writeBytes (p src : List UInt8) : Exec (List UInt8) := do
  require (src.length ≤ p.length) Fault.bounds
  return splice p 0 src

theorem writeBytes_of_le {p src : List UInt8} (h : src.length ≤ p.length) :
    writeBytes p src = .ok (splice p 0 src) := by
  simp [writeBytes, h]

theorem writeBytes_eq_ok {p src l : List UInt8} :
    writeBytes p src = .ok l ↔ src.length ≤ p.length ∧ l = splice p 0 src := by
  by_cases h : src.length ≤ p.length
  · simp [writeBytes, h, eq_comm]
  · simp [writeBytes, h]

def u32Bytes (v : UInt32) : List UInt8 := leBytes 4 v.toNat

/-- The `UINT32` stored in the first four bytes of a list. -/
def u32OfBytes (l : List UInt8) : UInt32 := UInt32.ofNat (leVal (l.take 4))

def readU32 (p : List UInt8) : Exec UInt32 := do
  let b ← readBytes p 4
  return u32OfBytes b

def readU64 (p : List UInt8) : Exec UInt64 := do
  let b ← readBytes p 8
  return UInt64.ofNat (leVal b)

@[simp] theorem length_u32Bytes (v : UInt32) : (u32Bytes v).length = 4 := length_leBytes _ _

@[simp] theorem length_words (ws : List UInt32) : (ws.flatMap u32Bytes).length = 4 * ws.length := by
  simp only [List.length_flatMap, length_u32Bytes, List.map_const', List.sum_replicate_nat,
    Nat.mul_comm]

@[simp] theorem u32OfBytes_u32Bytes (v : UInt32) : u32OfBytes (u32Bytes v) = v := by
  have hv : v.toNat < 256 ^ 4 := v.toNat_lt
  rw [u32OfBytes, List.take_of_length_le (length_u32Bytes v).le, u32Bytes,
    leVal_leBytes_of_lt hv, UInt32.ofNat_toNat]

theorem u32Bytes_u32OfBytes {l : List UInt8} (h : l.length = 4) :
    u32Bytes (u32OfBytes l) = l := by
  have hlt : leVal l < 2 ^ 32 := by
    have := leVal_lt l
    rw [h] at this
    omega
  have hl := leBytes_leVal l
  rw [h] at hl
  rw [u32OfBytes, List.take_of_length_le h.le, u32Bytes, UInt32.toNat_ofNat_of_lt' hlt, hl]

theorem readU32_of_le {p : List UInt8} (h : 4 ≤ p.length) :
    readU32 p = .ok (u32OfBytes p) := by
  simp [readU32, readBytes_of_le h, u32OfBytes, List.take_take]

theorem readU32_eq_ok {p : List UInt8} {v : UInt32} :
    readU32 p = .ok v ↔ 4 ≤ p.length ∧ v = u32OfBytes p := by
  by_cases h : 4 ≤ p.length
  · simp [readU32_of_le h, h, eq_comm]
  · simp [readU32, readBytes_of_lt (Nat.not_le.mp h), h]

inductive AllocSite
  /-- `AM_MEM_FUNCTION_T` -/
  | memFunction
  | pfnOps
  /-- `APPMEM_KDEVICE` -/
  | kdevice
  /-- `AM_FUNC_DATA_U` -/
  | funcData
  /-- the storage of a flat memory or a static array -/
  | storage
  | assca
  | asscaItem
  | hashTable
  | hashBuckets
  | hashExpand
  | mergeBuffer
  deriving DecidableEq, Repr

/-- What the environment decides during one operation: which allocations succeed, where
the storage lands, and what `malloc` leaves in it and in the flags of a new function. -/
structure Env where
  alloc : AllocSite → Bool
  addr : UInt64
  flags : UInt32
  heap : ℕ → UInt8

/-- An environment in which memory never runs out. -/
def Env.Ample (e : Env) : Prop := ∀ site, e.alloc site = true

def Env.zeroed : Env := ⟨fun _ => true, 0x1000, 0, fun _ => 0⟩

theorem Env.zeroed_ample : Env.zeroed.Ample := fun _ => rfl

/-- The library and the target are user programs; the driver is not. -/
inductive Build
  | user
  | kernel
  deriving DecidableEq, Repr

/-- Do the copy macros take both pointers as they are? In the driver only once the
function is mapped. -/
def Build.direct (b : Build) (flags : UInt32) : Bool :=
  match b with
  | .user => true
  | .kernel => flags &&& amFuncDataFlagMmapped != 0

@[simp] theorem Build.direct_user (flags : UInt32) : Build.user.direct flags = true := rfl

/-- On a mapped function the macros copy directly in either build. -/
theorem Build.direct_mapped (b : Build) (flags : UInt32) :
    b.direct (flags ||| amFuncDataFlagMmapped) = true := by
  cases b with
  | user => rfl
  | kernel =>
    have h : (flags ||| amFuncDataFlagMmapped) &&& amFuncDataFlagMmapped = 1 := by
      apply UInt32.toNat_inj.mp
      simp only [amFuncDataFlagMmapped, UInt32.toNat_and, UInt32.toNat_or, UInt32.reduceToNat,
        Nat.and_one_is_mod, Nat.or_mod_two_eq_one]
      simp
    simp only [Build.direct, h]
    decide

/-- `PUT32_TO_USER`: the bytes that arrive at `uaddr`. `__put_user` to an address that is
not mapped stores nothing, and nobody looks at its result. -/
def put32ToUser (b : Build) (flags : UInt32) (locaddr : List UInt8) (uaddr : List UInt8) :
    Exec (List UInt8) := do
  let v ← readBytes locaddr 4
  return if b.direct flags || 4 ≤ uaddr.length then v else []

/-- `GET32_FROM_USER`: the bytes stored at `locaddr`. `__get_user` from an address that is
not mapped yields zero. -/
def get32FromUser (b : Build) (flags : UInt32) (uaddr : List UInt8) : Exec (List UInt8) :=
  if b.direct flags then readBytes uaddr 4
  else return if 4 ≤ uaddr.length then uaddr.take 4 else [0, 0, 0, 0]

/-- `COPY_TO_USER`: the bytes that arrive at `uaddr`, and the bytes at `locaddr` afterwards.
The driver's macro calls `copy_from_user`, which moves the bytes the other way and fills
what it cannot read with zeros. -/
def copyToUser (b : Build) (flags : UInt32) (uaddr locaddr : List UInt8) (len : ℕ) :
    Exec (List UInt8 × List UInt8) := do
  let v ← readBytes locaddr len
  if b.direct flags then return (v, locaddr)
  else
    let got := uaddr.take len
    return ([], splice locaddr 0 (got ++ List.replicate (len - got.length) 0))

/-- A 32-bit cell of a storage, sent to the user. -/
def cellToUser (b : Build) (flags : UInt32) (data : List UInt8) (off : ℕ) (uaddr : List UInt8) :
    Exec (List UInt8) :=
  put32ToUser b flags (data.drop off) uaddr

def cellFromUser (b : Build) (flags : UInt32) (data : List UInt8) (off : ℕ) (uaddr : List UInt8) :
    Exec (List UInt8) := do
  let v ← get32FromUser b flags uaddr
  require (off + 4 ≤ data.length) Fault.bounds
  return splice data off v

def Env.garbage (e : Env) (n : ℕ) : List UInt8 := (List.range n).map e.heap

@[simp] theorem Env.length_garbage (e : Env) (n : ℕ) : (e.garbage n).length = n := by
  simp [Env.garbage]

theorem copyToUser_direct {b : Build} {flags : UInt32} (h : b.direct flags = true)
    (uaddr locaddr : List UInt8) (len : ℕ) :
    copyToUser b flags uaddr locaddr len =
      readBytes locaddr len >>= fun v => .ok (v, locaddr) := by
  simp [copyToUser, h]

theorem cellToUser_eq_ok {b : Build} {flags : UInt32} (h : b.direct flags = true)
    {data uaddr out : List UInt8} {off : ℕ} :
    cellToUser b flags data off uaddr = .ok out ↔
      off + 4 ≤ data.length ∧ out = window data off 4 := by
  have hroom : 4 ≤ (data.drop off).length ↔ off + 4 ≤ data.length := by
    rw [List.length_drop]
    omega
  have hcell : cellToUser b flags data off uaddr = readBytes (data.drop off) 4 := by
    simp only [cellToUser, put32ToUser, h, Bool.true_or, if_true]
    cases readBytes (data.drop off) 4 <;> rfl
  rw [hcell, readBytes_eq_ok, hroom, window]

theorem cellFromUser_eq_ok {b : Build} {flags : UInt32} (h : b.direct flags = true)
    {data uaddr data' : List UInt8} {off : ℕ} :
    cellFromUser b flags data off uaddr = .ok data' ↔
      4 ≤ uaddr.length ∧ off + 4 ≤ data.length ∧ data' = splice data off (uaddr.take 4) := by
  have hcell : cellFromUser b flags data off uaddr = readBytes uaddr 4 >>= fun v =>
      require (off + 4 ≤ data.length) Fault.bounds >>= fun _ => .ok (splice data off v) := by
    simp only [cellFromUser, get32FromUser, h, if_true]
    rfl
  rw [hcell, bind_eq_ok]
  constructor
  · rintro ⟨v, hv, hrest⟩
    rw [bind_eq_ok] at hrest
    rcases hrest with ⟨_, hin, hrest⟩
    obtain ⟨hlen, rfl⟩ := readBytes_eq_ok.mp hv
    cases hrest
    exact ⟨hlen, require_eq_ok.mp hin, rfl⟩
  · rintro ⟨hlen, hin, rfl⟩
    exact ⟨_, readBytes_of_le hlen, by rw [require_of_true _ hin, ok_bind]⟩

end AppMem.Memory
