import AppMem.Driver.Create

/-! # The ioctl dispatcher

`appmemd_ioctl` and the handlers of the base device. The dispatcher reads the command into
one global buffer, picks the entry of `pfnOps` by the low byte of the operation code, and the
member of the union by its pack type: aligned, packet, and everything else as `config`.
-/
namespace AppMem.Driver
open Library.Bytes Library.Checked Abi Memory Pack Device

section BaseHandlers

def appmemGetCapCount (ke : KEnv) (c : KamCmd) (f : MemFunction) : KServed :=
  let capCount := if f.amType = amTypeBaseAppmem then virtdBaseCap.subType else 1
  if 4 ≤ (ke.user c.data).length then
    { error := amRetGood, writes := [(c.data, u32Bytes capCount)] }
  else { error := negEnotty }

/-- The loop of `appmem_get_capabilites` from some iterations on. All records but the first are
copied with `memcpy` before they are copied with care. -/
def copyCaps (ke : KEnv) (entries : Registry) : List ℕ → UInt64 → Exec KServed
  | [], _ => .ok { error := amRetGood }
  | i :: is, pCaps =>
    match capAt entries i with
    | none => copyCaps ke entries is pCaps
    | some cap => do
      require (i = 0 ∨ sizeofMemCap ≤ (ke.user pCaps).length) Fault.bounds
      if sizeofMemCap ≤ (ke.user pCaps).length then
        let r ← copyCaps ke entries is (pCaps + sizeofMemCap.toUInt64)
        return { r with writes := (pCaps, cap.bytes) :: r.writes }
      else return { error := negEnotty }

def appmemGetCapabilites (ke : KEnv) (entries : Registry) (c : KamCmd) (f : MemFunction) :
    Exec KServed :=
  if f.amType = amTypeBaseAppmem then
    let capCount := c.len.toNat / sizeofMemCap
    copyCaps ke entries (List.range (min capCount virtdBaseCap.subType.toNat)) c.data
  else .ok { error := amRetGood }

def appmemGetCapDetails (ke : KEnv) (entries : Registry) (c : KamCmd) (f : MemFunction) :
    Exec KServed :=
  let amType := c.parameter.toUInt32
  if h : f.amType = amTypeBaseAppmem ∧ amType.toNat < maxDeviceFunctions then
    match entries ⟨_, h.2⟩ with
    | none => .ok { error := negEnotty }
    | some e =>
      match e.pCapDetails with
      | none => .ok { error := negEnotty }
      | some details => do
        let stCount ←
          if amType = amTypeBaseAppmem then .ok 1
          else match e.pCap with
            | none => .error .nullPointer
            | some cap => .ok cap.subType
        let n := stCount.toNat * sizeofCapDetails
        if n ≤ (ke.user c.data).length then
          let b ← readBytes (details.flatMap AmCapDetails.bytes) n
          return { error := amRetGood, writes := [(c.data, b)] }
        else return { error := negEnotty }
  else .ok { error := negEnotty }

end BaseHandlers

section Dispatch

def appmemdIocMagic : UInt32 := 0x4B
def appmemdIocMaxnr : ℕ := 32

/-- `_IOC_TYPE` and `_IOC_NR`. -/
def iocType (cmd : UInt32) : UInt32 := (cmd >>> 8) &&& 0xFF
def iocNr (cmd : UInt32) : ℕ := (cmd &&& 0xFF).toNat

def cmdBytes (cmd : UInt32) : ℕ := iocNr cmd * 8 + 8

/-- Where the second pointer of an aligned call points. -/
inductive Dest
  | user (addr : UInt64)
  | command (off : ℕ)
  deriving DecidableEq, Repr

/-- What the dispatcher decides: a status of its own, or a handler with its arguments. -/
inductive Chosen
  | ret (code : AmReturn)
  | call (h : DriverHandler) (c : PackCall) (dst : Dest)

def KDevice.slot (d : KDevice) (op : UInt32) : Exec (Option DriverHandler) :=
  if h : (amOpcode op).toNat < amOpMaxOps then .ok (d.pfnOps ⟨_, h⟩) else .error .opTable

/-- The aligned branch. A read gets the user's pointer, a write the word in the command. -/
def alignedCall (ke : KEnv) (c : KamCmd) (h : DriverHandler) : Chosen :=
  if c.op &&& 1 ≠ 0 then
    .call h (.align (c.bytes.drop 4) (ke.user c.data)) (.user c.data)
  else .call h (.align (c.bytes.drop 4) (c.bytes.drop 8)) (.command 8)

/-- The packet branch, for a command of `n` bytes. -/
def packetCall (ke : KEnv) (d : KDevice) (f : MemFunction) (c : KamCmd) (n : ℕ)
    (h : DriverHandler) : Exec Chosen :=
  if c.op &&& 1 ≠ 0 then
    if d.rdPackSize.toNat ≤ n then do
      let rdptr ← readU64 (c.packetData f.crResp.packDataOffset)
      return .call h (.align (c.bytes.drop 4) (ke.user rdptr)) (.user rdptr)
    else .ok (.ret negEnotty)
  else if d.wrPackSize.toNat ≤ n then
    .ok (.call h (.align (c.bytes.drop 4) (c.packetData d.packDataOffset))
      (.command (4 + 4 * d.packDataOffset.toNat)))
  else .ok (.ret negEnotty)

def ioctlSelect (ke : KEnv) (d : KDevice) (f : MemFunction) (c : KamCmd) (n : ℕ) :
    Exec Chosen := do
  match ← d.slot c.op with
  | none => return .ret negEnotty
  | some h =>
    if amNetGetPacktype c.op = amPackAlign.toUInt32 then return alignedCall ke c h
    else if amNetGetPacktype c.op = amKpack.toUInt32 then packetCall ke d f c n h
    else return .call h .config (.command 0)

/-- Call a handler of the device with number `minor`, whose function is `f`. -/
def invokeDriver (ke : KEnv) (minor : ℕ) (f : MemFunction) (k : Kernel) :
    DriverHandler → PackCall → Exec (Kernel × KServed)
  | .device h, c => do
    let r ← invokeDevice .kernel ke.env h c f
    return (k.setFunc minor r.1, { error := r.2.error, out := r.2.out })
  | .appmemGetCapCount, .config => .ok (k, appmemGetCapCount ke k.tempKcmd f)
  | .appmemGetCapabilites, .config => do
    let r ← appmemGetCapabilites ke k.entries k.tempKcmd f
    return (k, r)
  | .appmemGetCapDetails, .config => do
    let r ← appmemGetCapDetails ke k.entries k.tempKcmd f
    return (k, r)
  | .appmemCreateFunction, .config => appmemCreateFunction ke k f
  | _, _ => .error .convention

/-- What `appmemd_ioctl` returns and leaves behind; `handled` notes the status of the handler it
called, if it called one. -/
structure IoctlResult where
  kernel : Kernel
  ret : AmReturn
  handled : Option AmReturn
  writes : List UserWrite

def IoctlResult.early (k : Kernel) (ret : AmReturn) : IoctlResult := ⟨k, ret, none, []⟩

def storeOut (ke : KEnv) (k : Kernel) (dst : Dest) (out : List UInt8) :
    Exec (Kernel × List UserWrite) :=
  match dst with
  | .user addr => do
    require (out.length ≤ (ke.user addr).length) Fault.bounds
    return (k, if out = [] then [] else [(addr, out)])
  | .command off =>
    if h : off + out.length ≤ sizeofKamCmd then
      .ok ({ k with tempKcmd := ⟨splice k.tempKcmd.bytes off out, by
        rw [length_splice, k.tempKcmd.length_bytes]
        rw [k.tempKcmd.length_bytes]
        exact h⟩ }, [])
    else .error .bounds

/-- The end of `appmemd_ioctl`: the command is in the global buffer. -/
def ioctlRun (ke : KEnv) (k : Kernel) (minor : ℕ) (d : KDevice) (f : MemFunction) (n : ℕ) :
    Exec IoctlResult := do
  match ← ioctlSelect ke d f k.tempKcmd n with
  | .ret code => return .early k code
  | .call h c dst =>
    let r ← invokeDriver ke minor f k h c
    let s ← storeOut ke r.1 dst r.2.out
    return ⟨s.1, r.2.error, some r.2.error, r.2.writes ++ s.2⟩

/-- `appmemd_ioctl` on the device with number `minor`. `arg` is `NULL` or a pointer from which
the listed bytes can be read; when they are fewer than the command the copy fails, and the
dispatcher falls through to its last line. -/
def appmemdIoctl (ke : KEnv) (k : Kernel) (minor : ℕ) (cmd : UInt32) (arg : Option (List UInt8)) :
    Exec IoctlResult :=
  if iocType cmd ≠ appmemdIocMagic then .ok (.early k negEnotty)
  else if appmemdIocMaxnr < iocNr cmd then .ok (.early k negEnotty)
  else
    match arg, k.devices minor with
    | none, _ => .ok (.early k amRetGood)
    | some _, none => .ok (.early k negEnotty)
    | some block, some d =>
      match d.pFunc with
      | none => .ok (.early k negEnotty)
      | some f => do
        let c ← k.tempKcmd.copyIn block (cmdBytes cmd)
        let k := { k with tempKcmd := c }
        if block.length < cmdBytes cmd then return .early k amRetGood
        else ioctlRun ke k minor d f (cmdBytes cmd)

end Dispatch

end AppMem.Driver
