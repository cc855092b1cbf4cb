import AppMem.Driver.Device

/-! # Creating a function device

`appmem_create_function` and `appmem_device_func_create`. The device is entered into the list
before its function is built, and stays there when building fails.
-/
namespace AppMem.Driver
open Library.Bytes Library.Checked Abi Memory Pack Device

/-- `appmem_device_func_create`: the number of the new device, unless `device_create` fails.
When `kmalloc` fails the driver writes through the null pointer. -/
def appmemDeviceFuncCreate (ke : KEnv) (k : Kernel) (name : String) (amType : UInt32) :
    Exec (Kernel × Option ℕ) := do
  let minor := k.minor
  let k := { k with minor := k.minor + 1 }
  if ke.deviceCreate then
    require (ke.env.alloc .kdevice ∧ ke.env.alloc .pfnOps) Fault.nullPointer
    let dev : KDevice := {
      pFunc := none
      pfnOps := fun _ => none
      amType := amType
      devt := mkdev k.major minor
      amName := ascii (name ++ toString minor)
      packDataOffset := 0
      wrPackSize := 0
      rdPackSize := 0 }
    return ({ k with
      devices := Function.update k.devices minor (some dev)
      functionDevices := minor :: k.functionDevices }, some minor)
  else return (k, none)

def createBranch (amType : UInt32) : Option (String × Creator) :=
  if amType = amTypeFlatMem then some ("am_flat", amCreateFlatDevice)
  else if amType = amTypeStaticArray then some ("am_stata", amCreateStataDevice)
  else if amType = amTypeAssocArray then some ("am_assca", amCreateAsscaDevice)
  else none

/-- What a device knows of its function once that is built. Only associative arrays set the
sizes of packets; they are kept in bytes. -/
def KDevice.adopt (d : KDevice) (f : MemFunction) : KDevice :=
  let d := { d with
    pFunc := some f
    pfnOps := fun i => (f.pfnOps i).map .device }
  if d.amType = amTypeAssocArray then
    { d with
      packDataOffset := f.crResp.packDataOffset
      wrPackSize := f.crResp.wrPackQwordSize * 8
      rdPackSize := f.crResp.rdPackQwordSize * 8 }
  else d

/-- The function as it is announced: name, number and type are those of the device. -/
def announce (d : KDevice) (f : MemFunction) : MemFunction :=
  { f with
    crResp := { f.crResp with amName := d.amName.take 32, devt := d.devt }
    amType := d.amType }

/-- The part of `appmem_create_function` that builds the function; the status is positive when
memory runs out. -/
def buildFunction (ke : KEnv) (k : Kernel) (pCap : AmMemCap) :
    Exec (Kernel × AmReturn × Option ℕ) :=
  if ke.env.alloc .memFunction then
    match createBranch pCap.amType with
    | none => .ok (k, negEnotty, none)
    | some (name, create) => do
      let r ← appmemDeviceFuncCreate ke k name pCap.amType
      match r.2 with
      | none => return (r.1, amRetAllocErr, none)
      | some minor =>
        let c := create ke.env { ke.fresh with pfnOps := fun _ => none } pCap
        if c.1 = amRetGood then
          let dev := (r.1.devices minor).map fun d => d.adopt c.2
          return ({ r.1 with devices := Function.update r.1.devices minor dev }, amRetGood,
            some minor)
        else return (r.1, c.1, none)
  else .ok (k, amRetAllocErr, none)

/-- The end of `appmem_create_function`: the announcement is copied to the user. -/
def reportFunction (ke : KEnv) (k : Kernel) (minor : ℕ) (dataOut : UInt64) :
    Kernel × KServed :=
  match k.devices minor with
  | none => (k, { error := negEnotty })
  | some d =>
    match d.pFunc with
    | none => (k, { error := negEnotty })
    | some f =>
      let f := announce d f
      let k := k.setFunc minor f
      if sizeofCrResp ≤ (ke.user dataOut).length then
        (k, { error := amRetGood, writes := [(dataOut, f.crResp.bytes)] })
      else (k, { error := negEnomem })

def appmemCreateFunction (ke : KEnv) (k : Kernel) (pBaseFunc : MemFunction) :
    Exec (Kernel × KServed) :=
  let c := k.tempKcmd
  if pBaseFunc.amType ≠ amTypeBaseAppmem then .ok (k, { error := negEnotty })
  else if c.lenIn.toNat < sizeofMemCap then .ok (k, { error := negEnotty })
  else if (ke.user c.dataIn).length < sizeofMemCap then .ok (k, { error := negEnotty })
  else do
    let pCap := AmMemCap.ofBytes ((ke.user c.dataIn).take sizeofMemCap)
    let r ← buildFunction ke k pCap
    match r.2.2 with
    | some minor => return reportFunction ke r.1 minor c.dataOut
    | none => return (r.1, { error := r.2.1 })

end AppMem.Driver
