import AppMem.Library.Checked

/-! # Codes shared by client, target and driver

The return codes, pack types, operation codes and sizes of `appmemlib.h` and
`appmemd_ioctl.h`, and the ways in which the C code can leave defined behaviour.
-/
namespace AppMem.Abi

/-- `AM_RETURN`: an `int`, so driver errors are negative and library codes positive. -/
abbrev AmReturn := Int32

def amRetGood : AmReturn := 0
def amRetParamErr : AmReturn := 1
def amRetAllocErr : AmReturn := 2
def amRetIoErr : AmReturn := 3
def amRetOpenErr : AmReturn := 4
def amRetKeyNotFound : AmReturn := 5
def amRetInvalidFunc : AmReturn := 6
def amRetInvalidHdl : AmReturn := 7
def amRetIoUnderrun : AmReturn := 10
def amRetQOverflow : AmReturn := 12
def amRetInvalidPackOp : AmReturn := 13
def amRetInvalidOpcode : AmReturn := 15
def amRetNoDeviceSlot : AmReturn := 17
def amRetInvalidIter : AmReturn := 18
def amRetIterDone : AmReturn := 19

/-- `-ENOTTY` and `-ENOMEM`, the two errors the driver makes up itself. -/
def negEnotty : AmReturn := -25
def negEnomem : AmReturn := -12

/-- `AM_TYPE_ENUM`. -/
def amTypeBaseAppmem : UInt32 := 0
def amTypeFlatMem : UInt32 := 1
def amTypeStaticArray : UInt32 := 2
def amTypeAssocArray : UInt32 := 3
def amTypeList : UInt32 := 4

def amFuncPackTypeFlagResp : UInt8 := 0x80
def amFuncPackTypeFlagErr : UInt8 := 0x40

def amPackTypeOpcodeOnly : UInt8 := 1
def amPackTypeFivo : UInt8 := 2
def amPackAlign : UInt8 := 3
def amPackAction : UInt8 := 4
def amKpack : UInt8 := 5

def amOpMaxOps : ℕ := 64

def amOpIdentify : UInt8 := 0x1
def amOpGetCapCount : UInt8 := 0x2
def amOpGetCap : UInt8 := 0x3
def amOpCreateFunc : UInt8 := 0x4
def amOpReleaseFunc : UInt8 := 0x5
def amOpOpenFunc : UInt8 := 0x6
def amOpCloseFunc : UInt8 := 0x7
def amOpSort : UInt8 := 0x8
def amOpGetCapDetails : UInt8 := 0x9
def amOpWriteAlign : UInt8 := 0x10
def amOpReadAlign : UInt8 := 0x11

def amSetPacktype (x op : UInt8) : UInt32 := ((x.toUInt32 &&& 0x3F) <<< 16) ||| op.toUInt32

def amNetGetPacktype (x : UInt32) : UInt32 := (x >>> 16) &&& 0x3F

def amOpcode (x : UInt32) : UInt8 := (x &&& 0xFF).toUInt8

/-- `AM_CAP_AC_FLAG_PACK_MMAP` and `AM_FUNC_DATA_FLAG_MMAPPED`. -/
def amCapAcFlagPackMmap : UInt32 := 1
def amFuncDataFlagMmapped : UInt32 := 1

/-- Where the C code stops being defined, stops, or never comes back. -/
inductive Fault
  /-- an access outside the object a pointer belongs to -/
  | bounds
  /-- a `pfnOps` slot past the end of the table -/
  | opTable
  /-- a handler called through another member of `AM_FN_U` than it was stored in -/
  | convention
  /-- a failed `AM_ASSERT` -/
  | assertion
  | nullPointer
  /-- a local variable read before it is set -/
  | uninitialised
  | useAfterFree
  | divisionByZero
  /-- a wait whose condition nothing makes true -/
  | hang
  deriving DecidableEq, Repr

abbrev Exec := Except Fault

end AppMem.Abi
