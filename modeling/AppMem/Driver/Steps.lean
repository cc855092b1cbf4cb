import AppMem.Driver.Ioctl
import AppMem.Library.Machine
import AppMem.Library.Overlay

/-! # Calls that sleep

`appmemd_ioctl` taken apart at its transfers from and to the memory of its process. A call may
sleep before any byte of a transfer into the driver's own memory, the command block or the value of
an associative array, and before each of its other transfers. While it sleeps other calls run.
-/
namespace AppMem.Driver
open Library.Bytes Library.Checked Library.Machine Library.Overlay Abi Memory Pack Device Hash

section Points

structure IoctlCall where
  ke : KEnv
  minor : ℕ
  cmd : UInt32
  arg : Option (List UInt8)

/-- What a call leaves its process: the result, the status of its handler, if it called one, and
what was stored in the memory of the process. -/
structure Outcome where
  ret : AmReturn
  handled : Option AmReturn
  writes : List UserWrite
  deriving DecidableEq

def Outcome.early (ret : AmReturn) : Outcome := ⟨ret, none, []⟩
def Outcome.handler (error : AmReturn) (writes : List UserWrite) : Outcome :=
  ⟨error, some error, writes⟩

/-- A `copy_to_user` that is still to be done. When it was `touched` the same bytes go there with
`memcpy` before; `failure` is returned when it fails. -/
structure Sending where
  addr : UInt64
  source : List UInt8
  size : ℕ
  touched : Bool
  failure : AmReturn

/-- A transfer into the value of item `elt` of the array of a device. -/
structure Filling where
  minor : ℕ
  elt : ℕ
  src : List UInt8

/-- Where a call is. `done` counts the bytes that a transfer has moved. -/
inductive Point
  | entry
  /-- in the `copy_from_user` of the command from `block`, or just behind it -/
  | command (block : List UInt8) (done : ℕ)
  /-- in the `copy_from_user` of the capability -/
  | capability (dataIn : UInt64)
  /-- in the transfer of `COPY_TO_USER`, which goes the wrong way -/
  | value (v : Filling) (done : ℕ)
  /-- in front of the transfers that are left -/
  | sending (todo : List Sending) (sent : List UserWrite)
  | returned (o : Outcome)
  | fault (e : Fault)

end Points

section Pieces

/-- What `copy_from_user` of `n` bytes stores: zeros for what cannot be read. -/
def fetched (src : List UInt8) (n : ℕ) : List UInt8 :=
  src.take n ++ List.replicate (n - (src.take n).length) 0

def KamCmd.put (c : KamCmd) (off : ℕ) (src : List UInt8) : Exec KamCmd :=
  if h : off + src.length ≤ sizeofKamCmd then
    .ok ⟨splice c.bytes off src, by rw [length_splice (c.length_bytes.symm ▸ h), c.length_bytes]⟩
  else .error .bounds

/-- The command block holds `c`. -/
def Kernel.withBlock (k : Kernel) (c : KamCmd) : Kernel := { k with tempKcmd := c }

def fillItem (f : MemFunction) (elt off : ℕ) (src : List UInt8) : MemFunction :=
  match f.pVdF with
  | some (.assca fd) =>
    f.setAssca fd { fd.data with
      items := fd.data.items.modify elt fun pAI => { pAI with data := overlay pAI.data off src } }
  | _ => f

def Kernel.mapFunc (k : Kernel) (minor : ℕ) (g : MemFunction → MemFunction) : Kernel :=
  let dev := (k.devices minor).map fun d => { d with pFunc := d.pFunc.map g }
  { k with devices := Function.update k.devices minor dev }

def countSending (c : KamCmd) (f : MemFunction) : Sending where
  addr := c.data
  source := u32Bytes (if f.amType = amTypeBaseAppmem then virtdBaseCap.subType else 1)
  size := 4
  touched := false
  failure := negEnotty

def capSendings (entries : Registry) : List ℕ → UInt64 → List Sending
  | [], _ => []
  | i :: is, pCaps =>
    match capAt entries i with
    | none => capSendings entries is pCaps
    | some cap => ⟨pCaps, cap.bytes, sizeofMemCap, i ≠ 0, negEnotty⟩ ::
        capSendings entries is (pCaps + sizeofMemCap.toUInt64)

def capabilitySendings (entries : Registry) (c : KamCmd) (f : MemFunction) : List Sending :=
  if f.amType = amTypeBaseAppmem then
    capSendings entries
      (List.range (min (c.len.toNat / sizeofMemCap) virtdBaseCap.subType.toNat)) c.data
  else []

/-- The transfer of `appmem_get_cap_details`, unless the type is refused. -/
def detailsSending (entries : Registry) (c : KamCmd) (f : MemFunction) :
    Exec (Option Sending) :=
  let amType := c.parameter.toUInt32
  if f.amType = amTypeBaseAppmem then
    if h : amType.toNat < maxDeviceFunctions then
      match entries ⟨_, h⟩ with
      | none => .ok none
      | some e =>
        match e.pCapDetails with
        | none => .ok none
        | some details => do
          let stCount ←
            if amType = amTypeBaseAppmem then .ok 1
            else match e.pCap with
              | none => .error .nullPointer
              | some cap => .ok cap.subType
          return some ⟨c.data, details.flatMap AmCapDetails.bytes,
            stCount.toNat * sizeofCapDetails, false, negEnotty⟩
    else .ok none
  else .ok none

def asscaFound (f : MemFunction) (p1 : List UInt8) : Exec (Option ℕ) :=
  match f.pVdF with
  | some (.assca fd) =>
    match fd.data.table with
    | none => .ok none
    | some t => do
      let key ← readBytes p1 fd.data.keyLen.toNat
      let h ← hashFind (some t) key
      return h.map Handle.elt
  | _ => .ok none

def asscaFilling (minor : ℕ) (f : MemFunction) (p1 p2 : List UInt8) : Exec (Option Filling) :=
  match f.pVdF with
  | some (.assca fd) => do
    match ← asscaFound f p1 with
    | none => return none
    | some elt =>
      match fd.data.items[elt]? with
      | none => throw .bounds
      | some pAI =>
        require (fd.data.dataLen.toNat ≤ pAI.data.length) Fault.bounds
        if Build.kernel.direct fd.flags then return none
        else return some ⟨minor, elt, fetched p2 fd.data.dataLen.toNat⟩
  | _ => .ok none

end Pieces

section Calls
variable (ke : KEnv) (k : Kernel) (minor : ℕ)

def runHandler (f : MemFunction) (h : DriverHandler) (c : PackCall) (dst : Dest) :
    Exec (Kernel × Point) := do
  let r ← invokeDriver ke minor f k h c
  let s ← storeOut ke r.1 dst r.2.out
  return (s.1, .returned (.handler r.2.error (r.2.writes ++ s.2)))

/-- A handler up to its first transfer. -/
def startHandler (f : MemFunction) :
    DriverHandler → PackCall → Dest → Exec (Kernel × Point)
  | .appmemGetCapCount, .config, _ => .ok (k, .sending [countSending k.tempKcmd f] [])
  | .appmemGetCapabilites, .config, _ =>
    .ok (k, .sending (capabilitySendings k.entries k.tempKcmd f) [])
  | .appmemGetCapDetails, .config, _ => do
    match ← detailsSending k.entries k.tempKcmd f with
    | none => return (k, .returned (.handler negEnotty []))
    | some x => return (k, .sending [x] [])
  | .appmemCreateFunction, .config, _ =>
    if f.amType ≠ amTypeBaseAppmem ∨ k.tempKcmd.lenIn.toNat < sizeofMemCap then
      .ok (k, .returned (.handler negEnotty []))
    else .ok (k, .capability k.tempKcmd.dataIn)
  | .device .amAsscaRead32Align, .align p1 p2, dst => do
    match ← asscaFilling minor f p1 p2 with
    | some v =>
      let s ← storeOut ke k dst []
      return (s.1, .value v 0)
    | none => runHandler ke k minor f (.device .amAsscaRead32Align) (.align p1 p2) dst
  | h, c, dst => runHandler ke k minor f h c dst

def dispatch (d : KDevice) (f : MemFunction) (n : ℕ) : Exec (Kernel × Point) := do
  match ← ioctlSelect ke d f k.tempKcmd n with
  | .ret code => return (k, .returned (.early code))
  | .call h c dst => startHandler ke k minor f h c dst

def startReport (dataOut : UInt64) : Kernel × Point :=
  match k.devices minor with
  | none => (k, .returned (.handler negEnotty []))
  | some d =>
    match d.pFunc with
    | none => (k, .returned (.handler negEnotty []))
    | some f =>
      let f := announce d f
      (k.setFunc minor f,
        .sending [⟨dataOut, f.crResp.bytes, sizeofCrResp, false, negEnomem⟩] [])

/-- `appmem_create_function` from the transfer of the capability on. -/
def continueCreate (dataIn : UInt64) : Exec (Kernel × Point) :=
  if (ke.user dataIn).length < sizeofMemCap then .ok (k, .returned (.handler negEnotty []))
  else do
    let r ← buildFunction ke k (AmMemCap.ofBytes ((ke.user dataIn).take sizeofMemCap))
    match r.2.2 with
    | none => return (r.1, .returned (.handler r.2.1 []))
    | some minor => return startReport r.1 minor k.tempKcmd.dataOut

end Calls

section Steps

namespace IoctlCall

def bytes (c : IoctlCall) : ℕ := cmdBytes c.cmd

def enter (c : IoctlCall) (k : Kernel) : Point :=
  if iocType c.cmd ≠ appmemdIocMagic then .returned (.early negEnotty)
  else if appmemdIocMaxnr < iocNr c.cmd then .returned (.early negEnotty)
  else
    match c.arg, k.devices c.minor with
    | none, _ => .returned (.early amRetGood)
    | some _, none => .returned (.early negEnotty)
    | some block, some d =>
      match d.pFunc with
      | none => .returned (.early negEnotty)
      | some _ => .command block 0

/-- What follows the transfer of the command. The device and its function were found before. -/
def continueCommand (c : IoctlCall) (k : Kernel) (block : List UInt8) : Exec (Kernel × Point) :=
  if block.length < c.bytes then .ok (k, .returned (.early amRetGood))
  else
    match k.devices c.minor with
    | none => .error .nullPointer
    | some d =>
      match d.pFunc with
      | none => .error .nullPointer
      | some f => dispatch c.ke k c.minor d f c.bytes

end IoctlCall

/-- `copy_to_user`; nothing arrives when it fails. -/
def Sending.send (ke : KEnv) (x : Sending) : Exec (Option UserWrite) := do
  require (x.touched = false ∨ x.size ≤ (ke.user x.addr).length) Fault.bounds
  if x.size ≤ (ke.user x.addr).length then
    let b ← readBytes x.source x.size
    return some (x.addr, b)
  else return none

def Kernel.fill (k : Kernel) (v : Filling) (off : ℕ) (src : List UInt8) : Kernel :=
  k.mapFunc v.minor fun f => fillItem f v.elt off src

/-- A call goes on until it sleeps again, in a transfer into the driver after `m + 1` more bytes.
A call that is over takes no step. -/
def advance (c : IoctlCall) (m : ℕ) (k : Kernel) : Point → Option (Exec (Kernel × Point))
  | .entry => some (.ok (k, c.enter k))
  | .command block done =>
    some (if done < c.bytes then do
        let chunk := window (fetched block c.bytes) done (m + 1)
        let b ← k.tempKcmd.put done chunk
        return (k.withBlock b, .command block (done + chunk.length))
      else c.continueCommand k block)
  | .capability dataIn => some (continueCreate c.ke k dataIn)
  | .value v done =>
    let chunk := window v.src done (m + 1)
    let next := done + chunk.length
    some (.ok (k.fill v done chunk,
      if next < v.src.length then .value v next else .returned (.handler amRetGood [])))
  | .sending [] sent => some (.ok (k, .returned (.handler amRetGood sent)))
  | .sending (x :: todo) sent =>
    some (do
      match ← x.send c.ke with
      | none => return (k, .returned (.handler x.failure sent))
      | some w => return (k, .sending todo (sent ++ [w])))
  | .returned _ => none
  | .fault _ => none

structure Calls (ι : Type) where
  kernel : Kernel
  points : ι → Point

variable {ι : Type} [DecidableEq ι]

def Calls.start (k : Kernel) : Calls ι := ⟨k, fun _ => .entry⟩

/-- One of the calls goes on. A fault ends it. -/
def Calls.step (calls : ι → IoctlCall) (s : Calls ι) (a : ι × ℕ) : Option (Calls ι) :=
  (advance (calls a.1) a.2 s.kernel (s.points a.1)).map fun r =>
    match r with
    | .ok (k, p) => ⟨k, Function.update s.points a.1 p⟩
    | .error e => ⟨s.kernel, Function.update s.points a.1 (.fault e)⟩

end Steps

end AppMem.Driver
