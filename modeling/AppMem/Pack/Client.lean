import AppMem.Device.Function

/-! # The packet side of the client

The functions of `appmem_pack.c` that turn an access into a request, over any transport.
-/
namespace AppMem.Pack
open Library.Bytes Library.Checked Abi Memory Device

structure ClientFunc where
  handle : UInt32
  crResp : CrResp

/-- The end of a transaction: `pIop->pRx` and `pIop->resp_bytes` with the result of the wait. -/
structure Completion where
  error : AmReturn
  pRx : PackResp
  respBytes : UInt32

/-- `AM_PACKAC` over a transport in state `σ`: the request buffer that `get_free_iop` hands
out, and `send_and_wait`. -/
structure PackAc (σ : Type) where
  getFreeIop : σ → Exec (σ × PackAll)
  sendAndWait : σ → PackAll → UInt32 → Exec (σ × Completion)

/-- What an access returns, and the value buffer of the caller afterwards. -/
structure AlignResult where
  error : AmReturn
  p2 : List UInt8
  deriving DecidableEq, Repr

section Status

/-- The code `am_net_send_and_wait` makes of a response. -/
def amNetWaitResult (pRx : PackResp) : AmReturn :=
  if amFuncPackTypeFlagErr &&& pRx.wrap.packType ≠ 0 then respStatus pRx else amRetGood

/-- The code `am_kpack_send_and_wait` makes of a response. -/
def amKpackWaitResult (pRx : PackResp) : AmReturn :=
  let error := amRetGood
  if amFuncPackTypeFlagErr &&& pRx.wrap.packType ≠ 0 then respStatus pRx else error

end Status

section Accessors
variable {σ : Type} (ac : PackAc σ) (pFunc : ClientFunc) (s : σ) (p1 p2 : List UInt8)

/-- The wrapper of a request; the tag stays what the transport put there. -/
def fillWrap (pTx : PackAll) (packType op : UInt8) (txSize : UInt32) : PackAll :=
  { pTx with wrap :=
      ⟨pFunc.handle.toUInt16, packType, op, pTx.wrap.appTag, txSize.toUInt16⟩ }

def amPackReadAlign : Exec (σ × AlignResult) := do
  let idxSize := pFunc.crResp.idxSize
  let dataSize := pFunc.crResp.dataSize
  let txSize := 8 + idxSize
  let r ← ac.getFreeIop s
  let key ← readBytes p1 idxSize.toNat
  let pTx ← (fillWrap pFunc r.2 amPackAlign amOpReadAlign txSize).write 0 key
  let r ← ac.sendAndWait r.1 pTx txSize
  if r.2.error = amRetGood then
    if sizeofWrapper + dataSize.toNat ≤ r.2.respBytes.toNat then
      let data ← readBytes r.2.pRx.body dataSize.toNat
      let p2 ← writeBytes p2 data
      return (r.1, ⟨amRetGood, p2⟩)
    else return (r.1, ⟨amRetIoErr, p2⟩)
  else return (r.1, ⟨r.2.error, p2⟩)

def amPackRead32Align : Exec (σ × AlignResult) := do
  let txSize := 12
  let r ← ac.getFreeIop s
  let key ← readBytes p1 4
  let pTx ← (fillWrap pFunc r.2 amPackAlign amOpReadAlign txSize).write 0 key
  let r ← ac.sendAndWait r.1 pTx txSize
  if r.2.error = amRetGood then
    if txSize ≤ r.2.respBytes then
      let data ← readBytes r.2.pRx.body 4
      let p2 ← writeBytes p2 data
      return (r.1, ⟨amRetGood, p2⟩)
    else return (r.1, ⟨amRetIoUnderrun, p2⟩)
  else return (r.1, ⟨r.2.error, p2⟩)

def amPackWriteAlign : Exec (σ × AlignResult) := do
  let idxSize := pFunc.crResp.idxSize
  let dataSize := pFunc.crResp.dataSize
  let txSize := 8 + dataSize + idxSize
  let r ← ac.getFreeIop s
  let key ← readBytes p1 idxSize.toNat
  let pTx ← (fillWrap pFunc r.2 amPackAlign amOpWriteAlign txSize).write 0 key
  let data ← readBytes p2 dataSize.toNat
  let pTx ← pTx.write idxSize.toNat data
  let r ← ac.sendAndWait r.1 pTx txSize
  return (r.1, ⟨r.2.error, p2⟩)

/-- `am_pack_write32_align`; the basic request has one byte of data, seven more are sent. -/
def amPackWrite32Align : Exec (σ × AlignResult) := do
  let txSize := 10 + 7
  let r ← ac.getFreeIop s
  let key ← readBytes p1 4
  let pTx ← (fillWrap pFunc r.2 amPackAlign amOpWriteAlign txSize).write 0 key
  let data ← readBytes p2 4
  let pTx ← pTx.write 4 data
  let r ← ac.sendAndWait r.1 pTx txSize
  return (r.1, ⟨r.2.error, p2⟩)

/-- `am_pack_sort`; the basic request counts a byte of data and a byte of padding. -/
def amPackSort (l1 : UInt64) : Exec (σ × AmReturn) := do
  let txSize := 10 + l1.toUInt32
  let r ← ac.getFreeIop s
  let param ← readBytes p1 l1.toUInt32.toNat
  let pTx ← (fillWrap pFunc r.2 amPackAction amOpSort txSize).write 0 param
  let r ← ac.sendAndWait r.1 pTx txSize
  return (r.1, r.2.error)

end Accessors

section Access

/-- The two variants `am_set_pack_access` chooses from. -/
inductive PackAccess
  | align
  | align32
  deriving DecidableEq, Repr

/-- The choice for one of the two access operations; `none` leaves the pointer as it is. -/
def packAccess (r : CrResp) (acOp : UInt32) : Option PackAccess :=
  if amNetGetPacktype acOp = amPackAlign.toUInt32 ∨ amNetGetPacktype acOp = amKpack.toUInt32 then
    if r.dataSize = 4 ∧ r.idxSize = 4 then some .align32 else some .align
  else none

/-- `fn->write_al` and `fn->read_al` after `am_set_pack_access`. -/
structure PackFn where
  writeAl : Option PackAccess
  readAl : Option PackAccess
  deriving DecidableEq, Repr

def amSetPackAccess (r : CrResp) : PackFn where
  writeAl := packAccess r (r.acOps acopWrite)
  readAl := packAccess r (r.acOps acopRead)

variable {σ : Type} (ac : PackAc σ) (pFunc : ClientFunc)

def packWrite (fn : PackFn) (s : σ) (p1 p2 : List UInt8) : Exec (σ × AlignResult) :=
  match fn.writeAl with
  | none => .error .nullPointer
  | some .align => amPackWriteAlign ac pFunc s p1 p2
  | some .align32 => amPackWrite32Align ac pFunc s p1 p2

def packRead (fn : PackFn) (s : σ) (p1 p2 : List UInt8) : Exec (σ × AlignResult) :=
  match fn.readAl with
  | none => .error .nullPointer
  | some .align => amPackReadAlign ac pFunc s p1 p2
  | some .align32 => amPackRead32Align ac pFunc s p1 p2

end Access

end AppMem.Pack
