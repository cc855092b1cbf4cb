import AppMem.Pack.Frame

/-! # The command dispatcher

`am_pack_process_cmd` over any table of handlers. The table is an untagged union in the
source; here a handler is called with the arguments of one of the four conventions, and
what it does with them is left to the caller of the dispatcher.
-/
namespace AppMem.Pack
open Library.Bytes Library.Checked Abi Memory

/-- What the dispatcher reads of `AM_MEM_FUNCTION_T`. -/
structure FuncHdr (H : Type) where
  pfnOps : Fin amOpMaxOps → Option H
  idxSize : UInt32
  dataSize : UInt32

/-- The arguments of a handler; `p2` of an aligned call is what the second pointer points
to, the other conventions only write through theirs. -/
inductive PackCall
  | align (p1 p2 : List UInt8)
  | opOnly
  | fivo (p1 : List UInt8) (l1 : UInt64)
  | action (p1 : List UInt8) (l1 : UInt64)
  | config
  deriving DecidableEq, Repr

/-- The members of `AM_FN_U` that are used. -/
inductive Convention
  | align
  | opOnly
  | fivo
  | action
  | config
  deriving DecidableEq, Repr

def PackCall.convention : PackCall → Convention
  | .align _ _ => .align
  | .opOnly => .opOnly
  | .fivo _ _ => .fivo
  | .action _ _ => .action
  | .config => .config

/-- What a handler did: its result, the bytes it stored through its output pointer, and the
length it stored through its length pointer, if it did. -/
structure Served where
  error : AmReturn
  out : List UInt8 := []
  txBytes : Option UInt32 := none
  deriving DecidableEq, Repr

abbrev Invoke (H S : Type) := H → PackCall → S → Exec (S × Served)

/-- The branch the dispatcher takes; `tx` is the length it sets itself. -/
inductive Selected (H : Type)
  | fail (error : AmReturn)
  | call (h : H) (c : PackCall) (tx : Option UInt32)

/-- What `am_pack_process_cmd` leaves to its caller. -/
structure Processed where
  error : AmReturn
  resp : PackResp
  txBytes : UInt32
  deriving DecidableEq

section Fields

def sizeofRespErr : ℕ := 12

def statusBytes (error : AmReturn) : List UInt8 := u32Bytes error.toUInt32

def respStatus (resp : PackResp) : AmReturn := (u32OfBytes resp.body).toInt32

def Frame.l1 (f : Frame) : UInt64 := UInt64.ofNat (leVal (f.body.take 8))

/-- `action.wrap.size - sizeof(AM_PACK_WRAPPER_T)`, computed in 64 bits. -/
def Frame.actionLen (f : Frame) : UInt64 := f.wrap.size.toUInt64 - 8

@[simp] theorem length_statusBytes (e : AmReturn) : (statusBytes e).length = 4 :=
  length_u32Bytes _

end Fields

section Dispatch
variable {H S : Type}

def FuncHdr.slot (f : FuncHdr H) (op : UInt8) : Exec (Option H) :=
  if h : op.toNat < amOpMaxOps then .ok (f.pfnOps ⟨op.toNat, h⟩) else .error .opTable

/-- The switch on `packType`, with the length each case sets. -/
def FuncHdr.packCall (f : FuncHdr H) (rxBuf : PackAll) (resp : PackResp) :
    Option (PackCall × Option UInt32) :=
  if rxBuf.wrap.packType = amKpack ∨ rxBuf.wrap.packType = amPackAlign then
    if rxBuf.wrap.op &&& 1 ≠ 0 then
      some (.align rxBuf.body resp.body, some (8 + f.dataSize))
    else
      some (.align rxBuf.body (rxBuf.body.drop f.idxSize.toNat), some 8)
  else if rxBuf.wrap.packType = amPackTypeOpcodeOnly then
    some (.opOnly, none)
  else if rxBuf.wrap.packType = amPackTypeFivo then
    some (.fivo (rxBuf.body.drop 8) rxBuf.l1, none)
  else if rxBuf.wrap.packType = amPackAction then
    some (.action rxBuf.body rxBuf.actionLen, some 8)
  else none

/-- Which handler is called, and how. -/
def amPackSelect (pFunc : Option (FuncHdr H)) (rxBuf : PackAll) (resp : PackResp) :
    Exec (Selected H) :=
  match pFunc with
  | none => .ok (.fail amRetInvalidFunc)
  | some f => do
    match ← f.slot rxBuf.wrap.op with
    | none => return .fail amRetInvalidOpcode
    | some h =>
      match f.packCall rxBuf resp with
      | some (c, tx) => return .call h c tx
      | none => return .fail amRetInvalidPackOp

/-- The response before the handler runs: the wrapper of the request with the response flag. -/
def echoWrap (rxBuf : PackAll) (resp : PackResp) : PackResp :=
  { resp with wrap :=
      { rxBuf.wrap with packType := rxBuf.wrap.packType ||| amFuncPackTypeFlagResp } }

def errorResp (error : AmReturn) (resp : PackResp) : Processed where
  error := error
  resp :=
    { wrap := { resp.wrap with
        packType := resp.wrap.packType ||| amFuncPackTypeFlagErr
        size := sizeofRespErr.toUInt16 }
      body := splice resp.body 0 (statusBytes error)
      length_body := by
        rw [length_splice (by rw [resp.length_body, length_statusBytes]; decide),
          resp.length_body] }
  txBytes := sizeofRespErr.toUInt32

/-- `am_pack_process_cmd`. `stale` is what the local `tx_bytes` holds before anyone sets it. -/
def amPackProcessCmd (invoke : Invoke H S) (pFunc : Option (FuncHdr H)) (rxBuf : PackAll)
    (resp : PackResp) (stale : UInt32) (s : S) : Exec (S × Processed) := do
  let resp := echoWrap rxBuf resp
  match ← amPackSelect pFunc rxBuf resp with
  | .fail error => return (s, errorResp error resp)
  | .call h c tx =>
    let r ← invoke h c s
    let resp ← resp.write 0 r.2.out
    if r.2.error ≠ amRetGood then
      return (r.1, errorResp r.2.error resp)
    else
      let txBytes := tx.getD (r.2.txBytes.getD stale)
      return (r.1, ⟨amRetGood, { resp with wrap := { resp.wrap with size := txBytes.toUInt16 } },
        txBytes⟩)

end Dispatch

section Lemmas
variable {H S : Type}

theorem FuncHdr.slot_of_lt (f : FuncHdr H) {op : UInt8} (h : op.toNat < amOpMaxOps) :
    f.slot op = .ok (f.pfnOps ⟨op.toNat, h⟩) := dif_pos h

theorem FuncHdr.slot_of_ge (f : FuncHdr H) {op : UInt8} (h : ¬ op.toNat < amOpMaxOps) :
    f.slot op = .error .opTable := dif_neg h

@[simp] theorem echoWrap_body (rxBuf : PackAll) (resp : PackResp) :
    (echoWrap rxBuf resp).body = resp.body := rfl

/-- A failed selection answers with its code and leaves the state alone. -/
theorem amPackProcessCmd_fail {invoke : Invoke H S} {pFunc : Option (FuncHdr H)} {rxBuf : PackAll}
    {resp : PackResp} {stale : UInt32} {s : S} {e : AmReturn}
    (h : amPackSelect pFunc rxBuf (echoWrap rxBuf resp) = .ok (.fail e)) :
    amPackProcessCmd invoke pFunc rxBuf resp stale s =
      .ok (s, errorResp e (echoWrap rxBuf resp)) := by
  simp [amPackProcessCmd, h]

theorem amPackProcessCmd_call {invoke : Invoke H S} {pFunc : Option (FuncHdr H)} {rxBuf : PackAll}
    {resp : PackResp} {stale : UInt32} {s : S} {hd : H} {c : PackCall} {tx : Option UInt32}
    (h : amPackSelect pFunc rxBuf (echoWrap rxBuf resp) = .ok (.call hd c tx)) :
    amPackProcessCmd invoke pFunc rxBuf resp stale s =
      invoke hd c s >>= fun r => (echoWrap rxBuf resp).write 0 r.2.out >>= fun resp =>
        if r.2.error ≠ amRetGood then .ok (r.1, errorResp r.2.error resp)
        else .ok (r.1, ⟨amRetGood,
          { resp with wrap := { resp.wrap with
              size := (tx.getD (r.2.txBytes.getD stale)).toUInt16 } },
          tx.getD (r.2.txBytes.getD stale)⟩) := by
  simp only [amPackProcessCmd, h, ok_bind]
  rfl

/-- The four ways through the dispatcher. -/
theorem amPackSelect_cases (f : FuncHdr H) (rxBuf : PackAll) (resp : PackResp)
    (hop : rxBuf.wrap.op.toNat < amOpMaxOps) :
    (f.pfnOps ⟨_, hop⟩ = none ∧
      amPackSelect (some f) rxBuf resp = .ok (.fail amRetInvalidOpcode)) ∨
    (∃ h, f.pfnOps ⟨_, hop⟩ = some h ∧ f.packCall rxBuf resp = none ∧
      amPackSelect (some f) rxBuf resp = .ok (.fail amRetInvalidPackOp)) ∨
    (∃ h c tx, f.pfnOps ⟨_, hop⟩ = some h ∧ f.packCall rxBuf resp = some (c, tx) ∧
      amPackSelect (some f) rxBuf resp = .ok (.call h c tx)) := by
  simp only [amPackSelect, f.slot_of_lt hop, ok_bind]
  cases hslot : f.pfnOps ⟨_, hop⟩ with
  | none => exact .inl ⟨rfl, rfl⟩
  | some h =>
    cases hcall : f.packCall rxBuf resp with
    | none => exact .inr (.inl ⟨h, rfl, rfl, rfl⟩)
    | some p => exact .inr (.inr ⟨h, p.1, p.2, rfl, rfl, rfl⟩)

theorem amPackSelect_out_of_range (f : FuncHdr H) (rxBuf : PackAll) (resp : PackResp)
    (hop : ¬ rxBuf.wrap.op.toNat < amOpMaxOps) :
    amPackSelect (some f) rxBuf resp = .error .opTable := by
  simp [amPackSelect, f.slot_of_ge hop]

theorem packCall_of_select {f : FuncHdr H} {rxBuf : PackAll} {resp : PackResp} {h : H}
    {c : PackCall} {tx : Option UInt32}
    (hsel : amPackSelect (some f) rxBuf resp = .ok (.call h c tx)) :
    f.packCall rxBuf resp = some (c, tx) := by
  by_cases hop : rxBuf.wrap.op.toNat < amOpMaxOps
  · rcases amPackSelect_cases f rxBuf resp hop with
      ⟨-, hs⟩ | ⟨_, -, -, hs⟩ | ⟨_, _, _, -, hcall, hs⟩
    · cases hsel.symm.trans hs
    · cases hsel.symm.trans hs
    · cases hsel.symm.trans hs
      exact hcall
  · cases hsel.symm.trans (amPackSelect_out_of_range f rxBuf resp hop)

/-- Only the aligned calls and the actions have their length from the dispatcher. -/
theorem packCall_own {f : FuncHdr H} {rxBuf : PackAll} {resp : PackResp} {c : PackCall}
    {tx : Option UInt32} (hcall : f.packCall rxBuf resp = some (c, tx))
    (hc : c.convention = .opOnly ∨ c.convention = .fivo) : tx = none := by
  have halign : Convention.align ≠ .opOnly ∧ Convention.align ≠ .fivo := by decide
  have haction : Convention.action ≠ .opOnly ∧ Convention.action ≠ .fivo := by decide
  unfold FuncHdr.packCall at hcall
  split at hcall
  · split at hcall
    · cases hcall
      exact absurd hc (not_or.mpr halign)
    · cases hcall
      exact absurd hc (not_or.mpr halign)
  · split at hcall
    · cases hcall
      rfl
    · split at hcall
      · cases hcall
        rfl
      · split at hcall
        · cases hcall
          exact absurd hc (not_or.mpr haction)
        · cases hcall

end Lemmas

end AppMem.Pack
