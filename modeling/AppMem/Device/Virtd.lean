import AppMem.Device.Handlers
import AppMem.Device.Registry

/-! # The virtual device

`am_virtd_create_function`: a function in the process of its client. The accessors are the
ones the target and the driver use, called through `AM_FUNC_CALLS_T`.
-/
namespace AppMem.Device
open Library.Bytes Library.Checked Abi Memory Pack

/-- The members of `AM_FUNC_CALLS_T` that take two lengths. -/
inductive LengthFn
  | amFlatRead32
  | amFlatWrite32
  | amAsscaRead32
  | amAsscaWrite32
  deriving DecidableEq, Repr

/-- `AM_FUNC_CALLS_T`, the members that access data. -/
structure FuncCalls where
  read : Option LengthFn
  write : Option LengthFn
  readAl : Option DeviceHandler
  writeAl : Option DeviceHandler
  sort : Option DeviceHandler
  deriving DecidableEq, Repr

/-- A function of the virtual device. `fn` belongs to the client and may be missing. -/
structure VirtdFunction where
  func : MemFunction
  fn : Option FuncCalls

section Create

/-- What the branches of the switch store in `fn`. -/
def virtdFlatCalls (c : FuncCalls) : FuncCalls :=
  { c with
    read := some .amFlatRead32
    write := some .amFlatWrite32
    readAl := some .amFlatRead32Align
    writeAl := some .amFlatWrite32Align }

def virtdStataCalls (c : FuncCalls) : FuncCalls :=
  { c with
    read := none
    write := none
    readAl := some .amStataReadIdx32
    writeAl := some .amStataWriteIdx32
    sort := some .amStataSort }

def virtdAsscaCalls (c : FuncCalls) : FuncCalls :=
  { c with
    read := some .amAsscaRead32
    write := some .amAsscaWrite32
    readAl := some .amAsscaRead32Align
    writeAl := some .amAsscaWrite32Align }

/-- The private data of a new static array. The number of elements is cut to 32 bits, and the
storage is set to zero. -/
def virtdStataData (env : Env) (pCap : AmMemCap) : StataData :=
  let dataSize := pCap.typeSpecific tsStatArrayValMaxSize
  let size := dataSize.toUInt64 * pCap.maxSize
  { addr := env.addr
    data := List.replicate size.toNat 0
    flags := env.flags
    size := size
    arraySize := pCap.maxSize.toUInt32.toUInt64
    idxSize := pCap.typeSpecific tsStatArrayIdxByteSize
    dataSize := dataSize }

/-- `am_virtd_init_assca`; a table that cannot be allocated is not reported. -/
def amVirtdInitAssca (env : Env) (pCap : AmMemCap) (fn : Option FuncCalls) :
    AmReturn × FuncData × Option FuncCalls :=
  match fn with
  | none => (amRetParamErr, .raw, none)
  | some c =>
    if env.alloc .assca then
      (amRetGood, .assca ⟨amlibAsscaInit (pCap.typeSpecific tsAsscaKeyMaxSize)
        (pCap.typeSpecific tsAsscaDataMaxSize) true true, env.flags, pCap.maxSize, 0⟩,
        some (virtdAsscaCalls c))
    else (amRetGood, .raw, some c)

def virtdSwitch (env : Env) (pCap : AmMemCap) (fn : Option FuncCalls) :
    AmReturn × FuncData × Option FuncCalls :=
  if pCap.amType = amTypeFlatMem then
    if env.alloc .storage then
      (amRetGood, .flat (newFlatData env pCap), fn.map virtdFlatCalls)
    else (amRetAllocErr, .flat { newFlatData env pCap with data := [] }, fn)
  else if pCap.amType = amTypeStaticArray then
    if env.alloc .storage then
      (amRetGood, .stata (virtdStataData env pCap), fn.map virtdStataCalls)
    else (amRetAllocErr, .stata { virtdStataData env pCap with data := [] }, fn)
  else if pCap.amType = amTypeAssocArray then amVirtdInitAssca env pCap fn
  else (amRetInvalidFunc, .raw, fn)

/-- The stem of `am_name`, if the type sets one. -/
def virtdStem (amType : UInt32) : Option String :=
  if amType = amTypeFlatMem then some "virtd_flat"
  else if amType = amTypeStaticArray then some "virtd_stata"
  else if amType = amTypeAssocArray then some "virtd_assca"
  else none

/-- Types beyond the switch are created through their entry; its status is not passed on. -/
def virtdCreateOther (env : Env) (entries : Registry) (pCap : AmMemCap) (f : VirtdFunction) :
    Exec (AmReturn × VirtdFunction) :=
  if h : pCap.amType.toNat < maxDeviceFunctions then
    match (entries ⟨_, h⟩).bind FunctionEntry.pfnCreateFunction with
    | none => .ok (amRetInvalidFunc, f)
    | some create => do
      require (env.alloc .pfnOps) Fault.nullPointer
      let r := create env { f.func with pfnOps := fun _ => none } pCap
      if r.1 = amRetGood then
        require f.fn.isSome Fault.nullPointer
        return (amRetGood, { f with func := r.2 })
      else return (amRetInvalidFunc, { f with func := r.2 })
  else .error .bounds

/-- `am_virtd_create_function`; `minor` is `g_virtd_minor_count`. -/
def amVirtdCreateFunction (env : Env) (entries : Registry) (minor : ℕ) (pCap : AmMemCap)
    (f : VirtdFunction) : Exec (AmReturn × VirtdFunction) :=
  if amTypeAssocArray < pCap.amType then virtdCreateOther env entries pCap f
  else if env.alloc .funcData then
    let r := virtdSwitch env pCap f.fn
    let amName := match virtdStem pCap.amType with
      | some stem => ascii (stem ++ toString minor)
      | none => f.func.crResp.amName
    .ok (r.1, ⟨{ f.func with
      pVdF := some r.2.1
      crResp := { f.func.crResp with amName := amName } }, r.2.2⟩)
  else .ok (amRetParamErr, f)

end Create

section Calls

/-- The calls that take lengths: those of flat memory refuse, those of associative arrays do
nothing. -/
def LengthFn.result : LengthFn → AmReturn
  | .amFlatRead32 | .amFlatWrite32 => amRetIoErr
  | .amAsscaRead32 | .amAsscaWrite32 => amRetGood

/-- A call through `fn->read` or `fn->write`. -/
def callLength (call : Option LengthFn) (f : MemFunction) : Exec (MemFunction × Served) :=
  match call with
  | none => .error .nullPointer
  | some l => .ok (f, { error := l.result })

/-- A call through `fn->read_al` or `fn->write_al`. -/
def callAlign (b : Build) (env : Env) (call : Option DeviceHandler) (f : MemFunction)
    (p1 p2 : List UInt8) : Exec (MemFunction × Served) :=
  match call with
  | none => .error .nullPointer
  | some h => invokeDevice b env h (.align p1 p2) f

end Calls

/-- `am_virtd_get_capabilities`: the buffer of the caller with the records behind one another. -/
def amVirtdGetCapabilities (entries : Registry) (pAmCaps : List UInt8) (count : UInt32) :
    Exec (List UInt8) := do
  require (count ≠ 0) Fault.assertion
  writeBytes pAmCaps (((List.range (min count.toNat virtdBaseCap.subType.toNat)).filterMap
    (capAt entries)).flatMap AmMemCap.bytes)

end AppMem.Device
