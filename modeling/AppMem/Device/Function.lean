import Mathlib.Data.Fintype.Pi
import AppMem.Hash.Table
import AppMem.Pack.ProcessCmd

/-! # Device functions

`AM_MEM_FUNCTION_T` with the private data of the three kinds of device function, and the
records that describe a function to its client. Fields nobody reads on the device side
(the client's pointers, the copy of the capability) are left out.
-/
namespace AppMem.Device
open Library.Bytes Library.Checked Abi Memory Hash Pack

structure AmMemCap where
  amType : UInt32
  maxSize : UInt64
  subType : UInt32
  functionCount : UInt32
  accessFlags : UInt32
  typeSpecific : Fin 32 → UInt32
  acOps : Fin 2 → UInt32
  deriving DecidableEq

def sizeofMemCap : ℕ := 168

/-- The record in memory; the compiler pads after `amType` and at the end. -/
def AmMemCap.bytes (c : AmMemCap) : List UInt8 :=
  u32Bytes c.amType ++ [0, 0, 0, 0] ++ leBytes 8 c.maxSize.toNat ++ u32Bytes c.subType ++
    u32Bytes c.functionCount ++ u32Bytes c.accessFlags ++
    (List.ofFn c.typeSpecific).flatMap u32Bytes ++ (List.ofFn c.acOps).flatMap u32Bytes ++
    [0, 0, 0, 0]

@[simp] theorem AmMemCap.length_bytes (c : AmMemCap) : c.bytes.length = sizeofMemCap := by
  simp [AmMemCap.bytes, sizeofMemCap]

def AmMemCap.ofBytes (l : List UInt8) : AmMemCap where
  amType := u32OfBytes l
  maxSize := UInt64.ofNat (leVal (window l 8 8))
  subType := u32OfBytes (l.drop 16)
  functionCount := u32OfBytes (l.drop 20)
  accessFlags := u32OfBytes (l.drop 24)
  typeSpecific i := u32OfBytes (l.drop (28 + 4 * i))
  acOps i := u32OfBytes (l.drop (156 + 4 * i))

instance neZeroTypeSpecific : NeZero 32 := ⟨by decide⟩

/-- What the words of `typeSpecific` stand for. -/
def tsFlatAddressByteSize : Fin 32 := 0
def tsInitMemVal : Fin 32 := 2
def tsStatArrayIdxByteSize : Fin 32 := 0
def tsStatArrayValMaxSize : Fin 32 := 2
def tsAsscaKeyMaxSize : Fin 32 := 0
def tsAsscaDataMaxSize : Fin 32 := 1

/-- `ACOP_WRITE` and `ACOP_READ`. -/
def acopWrite : Fin 2 := 0
def acopRead : Fin 2 := 1

structure CrResp where
  amName : List UInt8
  devt : UInt32
  flags : UInt32
  globalId : UInt64
  ops : Fin amOpMaxOps → UInt32
  acOps : Fin 2 → UInt32
  dataSize : UInt32
  idxSize : UInt32
  packDataOffset : UInt8
  wrPackQwordSize : UInt8
  rdPackQwordSize : UInt8

def sizeofCrResp : ℕ := 360

/-- A `char` array of 64 bytes holding a string. -/
def nameBytes (name : List UInt8) : List UInt8 := (name ++ List.replicate 64 0).take 64

@[simp] theorem length_nameBytes (name : List UInt8) : (nameBytes name).length = 64 := by
  rw [nameBytes, List.length_take, List.length_append, List.length_replicate]
  omega

def CrResp.bytes (r : CrResp) : List UInt8 :=
  nameBytes r.amName ++ u32Bytes r.devt ++ u32Bytes r.flags ++ leBytes 8 r.globalId.toNat ++
    (List.ofFn r.ops).flatMap u32Bytes ++ (List.ofFn r.acOps).flatMap u32Bytes ++
    u32Bytes r.dataSize ++ u32Bytes r.idxSize ++
    [r.packDataOffset, r.wrPackQwordSize, r.rdPackQwordSize, 0, 0, 0, 0, 0]

theorem length_crResp_bytes (r : CrResp) : r.bytes.length = sizeofCrResp := by
  have hops : (List.ofFn r.ops).length = 64 := List.length_ofFn
  simp only [CrResp.bytes, List.length_append, length_nameBytes, length_u32Bytes, length_leBytes,
    length_words, hops, List.length_ofFn]
  rfl

def CrResp.zero : CrResp :=
  ⟨[], 0, 0, 0, fun _ => 0, fun _ => 0, 0, 0, 0, 0, 0⟩

/-- `AMLIB_ASSCA_ITEM` without its handle. -/
structure AsscaItem where
  key : List UInt8
  data : List UInt8
  deriving DecidableEq, Repr

def maxAsscaIters : ℕ := 4

/-- `AMLIB_ASSCA`. Items are kept in the order of `hh.next`; the handle of an item and the
iterators refer to it by its place there. -/
structure AmlibAssca where
  keyLen : UInt32
  dataLen : UInt32
  bFixedKey : Bool
  bFixedData : Bool
  pIterArray : Fin maxAsscaIters → Option ℕ
  items : List AsscaItem
  table : Option (Table ℕ)
  deriving DecidableEq

structure FlatData where
  data : List UInt8
  flags : UInt32
  size : UInt64
  addSize : UInt32
  deriving DecidableEq

/-- `stata` of `AM_FUNC_DATA_U`; `addr` is the address of `data`. -/
structure StataData where
  addr : UInt64
  data : List UInt8
  flags : UInt32
  size : UInt64
  arraySize : UInt64
  idxSize : UInt32
  dataSize : UInt32
  deriving DecidableEq

structure AsscaData where
  data : AmlibAssca
  flags : UInt32
  size : UInt64
  curCount : UInt32
  deriving DecidableEq

/-- `AM_FUNC_DATA_U`; `raw` is one that was allocated and never filled in. -/
inductive FuncData
  | raw
  | flat (fd : FlatData)
  | stata (fd : StataData)
  | assca (fd : AsscaData)
  deriving DecidableEq

/-- The functions that creators store in `pfnOps`. -/
inductive DeviceHandler
  | amTargRelease
  | amTargOpen
  | amTargClose
  | amFlatRead32Align
  | amFlatWrite32Align
  | amStataReadIdx32
  | amStataWriteIdx32
  | amStataSort
  | amAsscaRead32Align
  | amAsscaWrite32Align
  deriving DecidableEq, Repr

structure MemFunction where
  handle : UInt32
  crResp : CrResp
  pVdF : Option FuncData
  pfnOps : Fin amOpMaxOps → Option DeviceHandler
  amType : UInt32

def FuncData.setMapped : FuncData → FuncData
  | .raw => .raw
  | .flat fd => .flat { fd with flags := fd.flags ||| amFuncDataFlagMmapped }
  | .stata fd => .stata { fd with flags := fd.flags ||| amFuncDataFlagMmapped }
  | .assca fd => .assca { fd with flags := fd.flags ||| amFuncDataFlagMmapped }

def MemFunction.setMapped (f : MemFunction) : MemFunction :=
  { f with pVdF := f.pVdF.map FuncData.setMapped }

def MemFunction.hdr (f : MemFunction) : FuncHdr DeviceHandler :=
  ⟨f.pfnOps, f.crResp.idxSize, f.crResp.dataSize⟩

/-- A function after `memset(pFunc, 0, ...)`, with its handle. -/
def MemFunction.blank (handle : UInt32) : MemFunction :=
  ⟨handle, .zero, none, fun _ => none, 0⟩

def setOp {α : Type} (t : Fin amOpMaxOps → α) (op : UInt8) (v : α) : Fin amOpMaxOps → α :=
  fun i => if i.val = op.toNat then v else t i

/-- `(packType << 16) | op`, as the creators describe their operations. -/
def opWord (packType op : UInt8) : UInt32 := (packType.toUInt32 <<< 16) ||| op.toUInt32

section Names

def hexDigit (n : ℕ) : UInt8 := if n < 10 then (48 + n).toUInt8 else (87 + n).toUInt8

def hex4 (v : UInt32) : List UInt8 :=
  let digits := (Nat.digits 16 v.toNat).map hexDigit
  (digits ++ List.replicate (4 - digits.length) 48).reverse

def ascii (s : String) : List UInt8 := s.toList.map fun c => UInt8.ofNat c.toNat

/-- `sprintf(name, "..._%04x", handle)`. -/
def deviceName (stem : String) (handle : UInt32) : List UInt8 := ascii stem ++ hex4 handle

end Names

/-- The common prologue of the creators: release, open and close. -/
def registerOpenClose (f : MemFunction) : MemFunction :=
  { f with
    pfnOps := setOp (setOp (setOp f.pfnOps amOpReleaseFunc (some .amTargRelease))
      amOpOpenFunc (some .amTargOpen)) amOpCloseFunc (some .amTargClose)
    crResp := { f.crResp with
      ops := setOp (setOp (setOp f.crResp.ops
        amOpReleaseFunc (opWord amPackTypeOpcodeOnly amOpReleaseFunc))
        amOpOpenFunc (opWord amPackTypeOpcodeOnly amOpOpenFunc))
        amOpCloseFunc (opWord amPackTypeOpcodeOnly amOpCloseFunc) } }

theorem twoAllocs_eq {a b : Bool} {f₁ f₂ f₃ : MemFunction} :
    (if a = true then if b = true then (amRetGood, f₁) else (amRetAllocErr, f₂)
      else (amRetAllocErr, f₃)).1 = if a = true ∧ b = true then amRetGood else amRetAllocErr := by
  cases a with
  | false => rfl
  | true => cases b <;> rfl

end AppMem.Device
