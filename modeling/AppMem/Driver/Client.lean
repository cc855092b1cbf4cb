import AppMem.Driver.Ioctl

/-! # The client of the driver

The access functions of `appmem_kd.c`: each builds a command on its stack, makes one `ioctl`
and looks at the sign of what comes back.
-/
namespace AppMem.Driver
open Library.Bytes Library.Checked Abi Memory Pack Device

/-- What a call of the client finds: the driver's side, whether `open` succeeds, what is on the
stack in and behind the command, and how much of it `copy_from_user` gets. -/
structure KdEnv where
  ke : KEnv
  opened : Bool
  stack : KamCmd
  beyond : List UInt8
  reach : ℕ

inductive KdAccess
  | align32
  | fixedPacket
  deriving DecidableEq, Repr

/-- What the client keeps of a function: the device behind its file handle, the announcement as
its bytes with their address, and the pointers in `fn`, if there is one. -/
structure KdFunc where
  handle : Option ℕ
  crRespAddr : UInt64
  crResp : List UInt8
  hasFn : Bool
  writeAl : Option KdAccess
  readAl : Option KdAccess
  mapFlags : UInt32

namespace KdFunc

def acOp (f : KdFunc) (i : Fin 2) : UInt32 := u32OfBytes (f.crResp.drop (336 + 4 * i))
def dataSize (f : KdFunc) : UInt32 := u32OfBytes (f.crResp.drop 344)
def idxSize (f : KdFunc) : UInt32 := u32OfBytes (f.crResp.drop 348)
def packDataOffset (f : KdFunc) : UInt8 := f.crResp.getD 352 0
def wrPackQwordSize (f : KdFunc) : UInt8 := f.crResp.getD 353 0
def rdPackQwordSize (f : KdFunc) : UInt8 := f.crResp.getD 354 0

end KdFunc

section Codes

def amOpCodeCreateFunc : UInt32 := amSetPacktype amPackTypeFivo amOpCreateFunc
def amOpCodeWriteAlign : UInt32 := amSetPacktype amPackAlign amOpWriteAlign
def amOpCodeReadAlign : UInt32 := amSetPacktype amPackAlign amOpReadAlign
def amOpCodeWriteFixPacket : UInt32 := amSetPacktype amKpack amOpWriteAlign
def amOpCodeReadFixPacket : UInt32 := amSetPacktype amKpack amOpReadAlign

/-- `_IOWR(APPMEMD_IOC_MAGIC, nr, 1024)`. -/
def appmemdOpPacket (nr : UInt8) : UInt32 := 0xC0044B00 ||| nr.toUInt32
def appmemdOpCommon : UInt32 := appmemdOpPacket 2
def appmemdOpBidir : UInt32 := appmemdOpPacket 3

end Codes

section Commands
variable (e : KdEnv) (f : KdFunc) (p1 p2 : UInt64)

/-- `memcpy` into the command on the stack. -/
def fillCmd (cmd : List UInt8) (off : ℕ) (src : List UInt8) : Exec (List UInt8) := do
  require (off + src.length ≤ sizeofKamCmd) Fault.bounds
  return splice cmd off src

def write32Cmd : Exec (List UInt8) := do
  let offset ← readU32 (e.ke.user p1)
  let val ← readU32 (e.ke.user p2)
  return u32Bytes amOpCodeWriteAlign ++ u32Bytes offset ++ leBytes 8 val.toNat

def read32Cmd : Exec (List UInt8) := do
  let offset ← readU32 (e.ke.user p1)
  return u32Bytes amOpCodeReadAlign ++ u32Bytes offset ++ leBytes 8 p2.toNat

def writePacketCmd : Exec (List UInt8) := do
  let cmd ← fillCmd e.stack.bytes 0 (u32Bytes amOpCodeWriteFixPacket)
  let key ← readBytes (e.ke.user p1) f.idxSize.toNat
  let cmd ← fillCmd cmd 4 key
  let val ← readBytes (e.ke.user p2) f.dataSize.toNat
  fillCmd cmd (4 + 4 * f.packDataOffset.toNat) val

def readPacketCmd : Exec (List UInt8) := do
  let cmd ← fillCmd e.stack.bytes 0 (u32Bytes amOpCodeReadFixPacket)
  let key ← readBytes (e.ke.user p1) f.idxSize.toNat
  let cmd ← fillCmd cmd 4 key
  fillCmd cmd (4 + 4 * f.packDataOffset.toNat) (leBytes 8 p2.toNat)

/-- The command of `am_kd_create_function`; `flags` is not set. -/
def createCmd (pCap : UInt64) : List UInt8 :=
  u32Bytes amOpCodeCreateFunc ++ u32Bytes sizeofMemCap.toUInt32 ++ leBytes 8 pCap.toNat ++
    u32Bytes sizeofCrResp.toUInt32 ++ window e.stack.bytes 20 4 ++ leBytes 8 f.crRespAddr.toNat

end Commands

inductive KdOp
  | write32Align (p1 p2 : UInt64)
  | read32Align (p1 p2 : UInt64)
  | fixedWritePacket (p1 p2 : UInt64)
  | fixedReadPacket (p1 p2 : UInt64)
  | createFunction (pCap : UInt64)
  deriving DecidableEq, Repr

namespace KdOp

/-- The command code of the `ioctl`. -/
def code (f : KdFunc) : KdOp → UInt32
  | write32Align _ _ | read32Align _ _ => appmemdOpCommon
  | fixedWritePacket _ _ => appmemdOpPacket f.wrPackQwordSize
  | fixedReadPacket _ _ => appmemdOpPacket f.rdPackQwordSize
  | createFunction _ => appmemdOpBidir

def command (e : KdEnv) (f : KdFunc) : KdOp → Exec (List UInt8)
  | write32Align p1 p2 => write32Cmd e p1 p2
  | read32Align p1 p2 => read32Cmd e p1 p2
  | fixedWritePacket p1 p2 => writePacketCmd e f p1 p2
  | fixedReadPacket p1 p2 => readPacketCmd e f p1 p2
  | createFunction pCap => .ok (createCmd e f pCap)

def target (e : KdEnv) (f : KdFunc) : KdOp → Option ℕ
  | createFunction _ => if e.opened then some 0 else none
  | _ => f.handle

/-- The status when there is no open device. `am_kd_create_function` has none for this case. -/
def closedStatus : KdOp → AmReturn
  | createFunction _ => amRetGood
  | _ => amRetIoErr

end KdOp

/-- What a call of the client returns and leaves behind; `handled` notes the status of the
handler the driver called for it. -/
structure KdResult where
  kernel : Kernel
  ret : AmReturn
  func : KdFunc
  handled : Option AmReturn

def kdAccess (acOp align packet : UInt32) (old : Option KdAccess) : Option KdAccess :=
  if align = acOp then some .align32
  else if packet = acOp then some .fixedPacket
  else old

/-- The function after a successful `am_kd_create_function`. -/
def KdFunc.created (e : KdEnv) (f : KdFunc) (pCap : UInt64) (writes : List UserWrite) : KdFunc :=
  let crResp := ((writes.find? fun w => w.1 == f.crRespAddr).map Prod.snd).getD f.crResp
  let accessFlags := u32OfBytes ((e.ke.user pCap).drop 24)
  let f := { f with handle := none, crResp := crResp }
  if f.hasFn then
    { f with
      mapFlags := if accessFlags &&& amCapAcFlagPackMmap ≠ 0 then accessFlags else f.mapFlags
      writeAl := kdAccess (f.acOp acopWrite) amOpCodeWriteAlign amOpCodeWriteFixPacket f.writeAl
      readAl := kdAccess (f.acOp acopRead) amOpCodeReadAlign amOpCodeReadFixPacket f.readAl }
  else f

def KdOp.after (e : KdEnv) (f : KdFunc) (writes : List UserWrite) : KdOp → KdFunc
  | createFunction pCap => f.created e pCap writes
  | _ => f

def kdCall (e : KdEnv) (k : Kernel) (f : KdFunc) (op : KdOp) : Exec KdResult := do
  let cmd ← op.command e f
  match op.target e f with
  | none => return ⟨k, op.closedStatus, f, none⟩
  | some minor =>
    let r ← appmemdIoctl e.ke k minor (op.code f) (some ((cmd ++ e.beyond).take e.reach))
    if r.ret < 0 then return ⟨r.kernel, amRetIoErr, f, r.handled⟩
    else return ⟨r.kernel, amRetGood, op.after e f r.writes, r.handled⟩

def amKdWrite32Align (e : KdEnv) (k : Kernel) (f : KdFunc) (p1 p2 : UInt64) : Exec KdResult :=
  kdCall e k f (.write32Align p1 p2)

def amKdRead32Align (e : KdEnv) (k : Kernel) (f : KdFunc) (p1 p2 : UInt64) : Exec KdResult :=
  kdCall e k f (.read32Align p1 p2)

def amKdFixedWritePacket (e : KdEnv) (k : Kernel) (f : KdFunc) (p1 p2 : UInt64) :
    Exec KdResult :=
  kdCall e k f (.fixedWritePacket p1 p2)

def amKdFixedReadPacket (e : KdEnv) (k : Kernel) (f : KdFunc) (p1 p2 : UInt64) :
    Exec KdResult :=
  kdCall e k f (.fixedReadPacket p1 p2)

def amKdCreateFunction (e : KdEnv) (k : Kernel) (f : KdFunc) (pCap : UInt64) : Exec KdResult :=
  kdCall e k f (.createFunction pCap)

end AppMem.Driver
