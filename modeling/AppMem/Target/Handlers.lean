import AppMem.Device.Handlers
import AppMem.Device.Registry

/-! # The function table of the target

`g_pfnFunctionTable`, the base function in its slot 0, and the command processing of the
target. A request that creates a function takes the first free slot.
-/
namespace AppMem.Target
open Library.Bytes Library.Checked Abi Memory Pack Device

/-- The functions `am_targ_init_base_function` registers. -/
inductive BaseHandler
  | amTargIdentifyResp
  | amTargGetCapCount
  | amTargGetCap
  | amTargCreateFunction
  deriving DecidableEq, Repr

/-- The member of `AM_FN_U` a handler was stored in. -/
def BaseHandler.convention : BaseHandler → Convention
  | .amTargIdentifyResp | .amTargGetCapCount => .opOnly
  | .amTargGetCap | .amTargCreateFunction => .fivo

def amTargetMaxFunctions : ℕ := 256

def amTargetFunctionIdSig : UInt16 := 0xAA00
def amTargetFunctionIdSigMask : UInt16 := 0xFF00
def amTargetFunctionIdIdxMask : UInt16 := 0x00FF
def amPackFuncIdBaseappmem : UInt16 := 0xFFFA

/-- An entry of `g_pfnFunctionTable`; `freed` is a pointer to a function that was freed. -/
inductive Slot
  | null
  | base
  | device (f : MemFunction)
  | freed

instance : NeZero amTargetMaxFunctions := ⟨by decide⟩

/-- `g_pfnFunctionTable` and the registered types. -/
structure FuncTable where
  slots : Fin amTargetMaxFunctions → Slot
  entries : Registry

/-- `am_targ_start_target`. -/
def FuncTable.start (entries : Registry) : FuncTable where
  slots := fun i => if i.val = 0 then .base else .null
  entries := entries

def FuncTable.set (t : FuncTable) (i : Fin amTargetMaxFunctions) (s : Slot) : FuncTable :=
  { t with slots := Function.update t.slots i s }

/-- `am_targ_init_base_function`. -/
def baseHdr : FuncHdr BaseHandler where
  pfnOps := setOp (setOp (setOp (setOp (fun _ => none)
    amOpIdentify (some .amTargIdentifyResp))
    amOpGetCapCount (some .amTargGetCapCount))
    amOpGetCap (some .amTargGetCap))
    amOpCreateFunc (some .amTargCreateFunction)
  idxSize := 0
  dataSize := 0

section Handlers

def amTargIdentifyResp : Served where
  error := amRetGood
  out := u32Bytes 0xBBBB ++ [0, 1, 2, 0]
  txBytes := some 16

def amTargGetCapCount : Served where
  error := amRetGood
  out := u32Bytes virtdBaseCap.subType
  txBytes := some 12

/-- The capabilities copied for a count; later iterations of the loop copy nothing. -/
def capsFor (entries : Registry) (count : ℕ) : List AmMemCap :=
  (List.range (min count virtdBaseCap.subType.toNat)).filterMap (capAt entries)

/-- `am_targ_get_cap`: the length is computed from the count the client sent. -/
def amTargGetCap (t : FuncTable) (p1 : List UInt8) : Exec Served := do
  let count := (← readU64 p1).toUInt32
  return {
    error := amRetGood
    out := (capsFor t.entries count.toNat).flatMap AmMemCap.bytes
    txBytes := some (count * sizeofMemCap.toUInt32) }

/-- The first slot that is `NULL`. -/
def FuncTable.freeSlot (t : FuncTable) : Option (Fin amTargetMaxFunctions) :=
  (List.finRange amTargetMaxFunctions).find? fun i =>
    match t.slots i with
    | .null => true
    | _ => false

/-- The switch of `am_targ_create_function`. -/
def createDevice (env : Env) (f : MemFunction) (pCap : AmMemCap) : AmReturn × MemFunction :=
  if pCap.amType = amTypeStaticArray then amCreateStataDevice env f pCap
  else if pCap.amType = amTypeFlatMem then amCreateFlatDevice env f pCap
  else if pCap.amType = amTypeAssocArray then amCreateAsscaDevice env f pCap
  else (amRetInvalidFunc, f)

/-- The handle of the function in slot `i`. -/
def slotHandle (i : Fin amTargetMaxFunctions) : UInt32 :=
  amTargetFunctionIdSig.toUInt32 ||| i.val.toUInt32

/-- `am_targ_create_function`. Without a free slot `pDeviceFunc` is never set; when there is no
memory for the table of operations the new function is freed and then used. -/
def amTargCreateFunction (env : Env) (t : FuncTable) (p1 : List UInt8) : Exec (FuncTable × Served) := do
  let pCap ← AmMemCap.ofBytes <$> readBytes p1 sizeofMemCap
  match t.freeSlot with
  | none => throw .uninitialised
  | some i =>
    if env.alloc .memFunction then
      require (env.alloc .pfnOps) Fault.useAfterFree
      let r := createDevice env (.blank (slotHandle i)) pCap
      if r.1 = amRetGood then
        return (t.set i (.device r.2),
          { error := amRetGood, out := r.2.crResp.bytes, txBytes := some sizeofCrResp.toUInt32 })
      else return (t, { error := r.1 })
    else return (t, { error := amRetAllocErr })

def invokeBase (env : Env) : Invoke BaseHandler FuncTable
  | .amTargIdentifyResp, .opOnly, t => .ok (t, amTargIdentifyResp)
  | .amTargGetCapCount, .opOnly, t => .ok (t, amTargGetCapCount)
  | .amTargGetCap, .fivo p1 _, t => do
    let r ← amTargGetCap t p1
    return (t, r)
  | .amTargCreateFunction, .fivo p1 _, t => amTargCreateFunction env t p1
  | _, _, _ => .error .convention

theorem invokeBase_convention {env : Env} {h : BaseHandler} {c : PackCall} {t : FuncTable}
    {r : FuncTable × Served} (hr : invokeBase env h c t = .ok r) :
    c.convention = h.convention := by
  cases h <;> cases c <;> first | rfl | cases hr

end Handlers

section Process

/-- `am_validate_function_id`: the slot an identifier stands for. -/
def amValidateFunctionId (funcId : UInt16) : Option (Fin amTargetMaxFunctions) :=
  if funcId = amPackFuncIdBaseappmem then some 0
  else if funcId &&& amTargetFunctionIdSigMask = amTargetFunctionIdSig then
    some (Fin.ofNat amTargetMaxFunctions (funcId &&& amTargetFunctionIdIdxMask).toNat)
  else none

/-- What `am_targ_process_cmd` does with a request: `am_pack_process_cmd` on the function it
names. -/
def amTargProcess (env : Env) (t : FuncTable) (rxBuf : PackAll) (resp : PackResp)
    (stale : UInt32) : Exec (FuncTable × Processed) :=
  match amValidateFunctionId rxBuf.wrap.funcId with
  | none => amPackProcessCmd (invokeBase env) none rxBuf resp stale t
  | some i =>
    match t.slots i with
    | .null => amPackProcessCmd (invokeBase env) none rxBuf resp stale t
    | .base => amPackProcessCmd (invokeBase env) (some baseHdr) rxBuf resp stale t
    | .device f => do
      let r ← processDevice .user env f rxBuf resp stale
      return (t.set i (.device r.1), r.2)
    | .freed => .error .useAfterFree

end Process

end AppMem.Target
