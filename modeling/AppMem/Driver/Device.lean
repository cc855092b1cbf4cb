import AppMem.Device.Handlers
import AppMem.Device.Registry

/-! # The devices of the driver

`APPMEM_KDEVICE`, the base device and the list of function devices, and what a call into the
driver finds: user memory, and the outcomes of its allocations.
-/
namespace AppMem.Driver
open Library.Bytes Library.Checked Abi Memory Pack Device

/-- The functions stored in `pfnOps` of a device. -/
inductive DriverHandler
  | appmemGetCapCount
  | appmemGetCapabilites
  | appmemCreateFunction
  | appmemGetCapDetails
  | device (h : DeviceHandler)
  deriving DecidableEq, Repr

/-- The member of `AM_FN_U` a handler was stored in. -/
def DriverHandler.convention : DriverHandler → Convention
  | device h => h.convention
  | _ => .config

/-- `APPMEM_KDEVICE`; the mapping and the `cdev` are left out. -/
structure KDevice where
  pFunc : Option MemFunction
  pfnOps : Fin amOpMaxOps → Option DriverHandler
  amType : UInt32
  devt : UInt32
  amName : List UInt8
  packDataOffset : UInt8
  wrPackSize : UInt8
  rdPackSize : UInt8

def sizeofKamCmd : ℕ := 256

/-- `APPMEM_KAM_CMD_T`, as its bytes. -/
structure KamCmd where
  bytes : List UInt8
  length_bytes : bytes.length = sizeofKamCmd

namespace KamCmd

def zero : KamCmd := ⟨List.replicate sizeofKamCmd 0, List.length_replicate⟩

/-- The fields of the members of `APPMEM_CMD_U`, by their offsets. -/
def u32 (c : KamCmd) (off : ℕ) : UInt32 := u32OfBytes (c.bytes.drop off)
def u64 (c : KamCmd) (off : ℕ) : UInt64 := UInt64.ofNat (leVal (window c.bytes off 8))

/-- `common`: the operation code, the length, the data pointer and the parameter. -/
def op (c : KamCmd) : UInt32 := c.u32 0
def len (c : KamCmd) : UInt32 := c.u32 4
def data (c : KamCmd) : UInt64 := c.u64 8
def parameter (c : KamCmd) : UInt64 := c.u64 16

/-- `bidir`. -/
def lenIn (c : KamCmd) : UInt32 := c.u32 4
def dataIn (c : KamCmd) : UInt64 := c.u64 8
def dataOut (c : KamCmd) : UInt64 := c.u64 24

/-- `&packet.data[i]`. -/
def packetData (c : KamCmd) (i : UInt8) : List UInt8 := c.bytes.drop (4 + 4 * i.toNat)

/-- `copy_from_user` of `n` bytes into the command, of which `src` can be read; what cannot is
set to zero. -/
def copyIn (c : KamCmd) (src : List UInt8) (n : ℕ) : Exec KamCmd :=
  if h : n ≤ sizeofKamCmd then
    .ok ⟨splice c.bytes 0 (src.take n ++ List.replicate (n - (src.take n).length) 0), by
      rw [length_splice, c.length_bytes]
      simp only [c.length_bytes, List.length_append, List.length_take, List.length_replicate]
      omega⟩
  else .error .bounds

end KamCmd

/-- The globals of the driver. Devices go by their minor number, 0 is the base device;
`functionDevices` is the order of the list behind `pFunctionDevicesHead`. -/
structure Kernel where
  tempKcmd : KamCmd
  devices : ℕ → Option KDevice
  functionDevices : List ℕ
  major : ℕ
  minor : ℕ
  entries : Registry

/-- What a call finds besides the globals: the outcomes of allocations, whether `device_create`
succeeds, the bytes that can be read and written from a user address on, and what `AM_MALLOC`
leaves in a new function. -/
structure KEnv where
  env : Env
  deviceCreate : Bool
  user : UInt64 → List UInt8
  fresh : MemFunction

abbrev UserWrite := UInt64 × List UInt8

/-- What a handler did: its result, what it stored through the second pointer of an aligned
call, and what it stored in user memory itself. -/
structure KServed where
  error : AmReturn
  out : List UInt8 := []
  writes : List UserWrite := []

def Kernel.setFunc (k : Kernel) (minor : ℕ) (f : MemFunction) : Kernel :=
  let dev := (k.devices minor).map fun d => { d with pFunc := some f }
  { k with devices := Function.update k.devices minor dev }

def mkdev (major minor : ℕ) : UInt32 := (major <<< 20 ||| minor).toUInt32

/-- The base device after `appmemd_init`; of its function only the type is set. -/
def baseDevice (fresh : MemFunction) (major : ℕ) : KDevice where
  pFunc := some { fresh with
    amType := amTypeBaseAppmem
    pfnOps := fun _ => none }
  pfnOps := setOp (setOp (setOp (setOp (fun _ => none)
    amOpGetCapCount (some .appmemGetCapCount))
    amOpGetCap (some .appmemGetCapabilites))
    amOpCreateFunc (some .appmemCreateFunction))
    amOpGetCapDetails (some .appmemGetCapDetails)
  amType := amTypeBaseAppmem
  devt := mkdev major 0
  amName := []
  packDataOffset := 0
  wrPackSize := 0
  rdPackSize := 0

def Kernel.start (fresh : MemFunction) (major : ℕ) (entries : Registry) : Kernel where
  tempKcmd := .zero
  devices := fun m => if m = 0 then some (baseDevice fresh major) else none
  functionDevices := []
  major := major
  minor := 1
  entries := entries

end AppMem.Driver
