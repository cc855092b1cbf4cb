import AppMem.Device.Assca
import AppMem.Device.Stata

/-! # Registered function types

`AM_FUNCTION_ENTRY`: each type of function registers its creator and its capability in a
table of the program that links it. The virtual device, the target and the driver each have
such a table.
-/
namespace AppMem.Device
open Abi Memory

abbrev Creator := Env → MemFunction → AmMemCap → AmReturn × MemFunction

structure AmCapDetails where
  amType : UInt32
  amTypeSz : String
  subType : UInt32
  subTypeSz : String
  typeSpecificCount : UInt32
  typeSpecificSz : List String

def sizeofCapDetails : ℕ := 2188

def AmCapDetails.bytes (d : AmCapDetails) : List UInt8 :=
  u32Bytes d.amType ++ nameBytes (ascii d.amTypeSz) ++ u32Bytes d.subType ++
    nameBytes (ascii d.subTypeSz) ++ u32Bytes d.typeSpecificCount ++
    (List.range 32).flatMap fun i => nameBytes (ascii (d.typeSpecificSz.getD i ""))

/-- `AM_FUNCTION_ENTRY`; `pCapDetails` is the array it points to. -/
structure FunctionEntry where
  amType : UInt32
  pfnCreateFunction : Option Creator
  pCap : Option AmMemCap
  pCapDetails : Option (List AmCapDetails)

/-- `MAX_VIRTD_DEVICE_FUNCTIONS`, with the same value in the target and in the driver. -/
def maxDeviceFunctions : ℕ := 100

abbrev Registry := Fin maxDeviceFunctions → Option FunctionEntry

/-- `am_register_am_function`: the first entry of a type stays. -/
def amRegisterAmFunction (r : Registry) (e : FunctionEntry) : Registry := fun i =>
  if i.val = e.amType.toNat ∧ (r i).isNone then some e else r i

section Caps

/-- An initialiser for `typeSpecific`; what it does not name is zero. -/
def typeSpecifics (l : List UInt32) : Fin 32 → UInt32 := fun i => l.getD i 0

def virtdBaseCap : AmMemCap where
  amType := amTypeBaseAppmem
  maxSize := 1024 * 1024 * 128
  subType := 5
  functionCount := 2
  accessFlags := 0
  typeSpecific := typeSpecifics [0, 0]
  acOps := fun _ => 0

def flatCaps : AmMemCap where
  amType := amTypeFlatMem
  maxSize := 1024 * 1024
  subType := 1
  functionCount := 7
  accessFlags := 0
  typeSpecific := typeSpecifics [15, 1, 1024 * 1024]
  acOps := fun _ => 0

def stataCaps : AmMemCap where
  amType := amTypeStaticArray
  maxSize := 1024 * 1024
  subType := 1
  functionCount := 8
  accessFlags := 0
  typeSpecific := typeSpecifics [15, 1, 1024, 1]
  acOps := fun _ => 0

def asscaCaps : AmMemCap where
  amType := amTypeAssocArray
  maxSize := 1024 * 1024
  subType := 1
  functionCount := 7
  accessFlags := 0
  typeSpecific := typeSpecifics [512, 1024 * 1024, 3, 3]
  acOps := fun _ => 0

def baseCapDetails : AmCapDetails where
  amType := amTypeBaseAppmem
  amTypeSz := "Base Appmem"
  subType := 0
  subTypeSz := "Brandon's Appmem Device"
  typeSpecificCount := 1
  typeSpecificSz := ["Nothing...."]

def flatCapDetails : AmCapDetails where
  amType := amTypeFlatMem
  amTypeSz := "Flat Memory"
  subType := 0
  subTypeSz := "Flat Memory - Native C"
  typeSpecificCount := 3
  typeSpecificSz := ["Address Size in Bytes (1,2,4,8)", "Min Data Addressability - Bytes",
    "32 Bit Initializer - (memset)"]

def stataCapDetails : AmCapDetails where
  amType := amTypeStaticArray
  amTypeSz := "Static Array"
  subType := 0
  subTypeSz := "Static Array - Native C"
  typeSpecificCount := 4
  typeSpecificSz := ["Index Size in Bytes (1,2,4,8)",
    "Min Data Size (Variable Width Only) - Bytes",
    "Max or Fixed Data Size (Max for Var) - Bytes",
    "Data Type : 1 = Fixed Width, 2 = Variable Width"]

def asscaCapDetails : AmCapDetails where
  amType := amTypeAssocArray
  amTypeSz := "Associative Array"
  subType := 0
  subTypeSz := "ut-hash"
  typeSpecificCount := 4
  typeSpecificSz := ["Max Key Size", "Max Data Size",
    "Key Type : 1 = Fixed Width, 2 = Variable Width",
    "Data Type : 1 = Fixed Width, 2 = Variable Width"]

def amBaseFunctionEntry : FunctionEntry :=
  ⟨amTypeBaseAppmem, none, some virtdBaseCap, some [baseCapDetails]⟩

def flatFunctionEntry : FunctionEntry :=
  ⟨amTypeFlatMem, some amCreateFlatDevice, some flatCaps, some [flatCapDetails]⟩

def stataFunctionEntry : FunctionEntry :=
  ⟨amTypeStaticArray, some amCreateStataDevice, some stataCaps, some [stataCapDetails]⟩

def asscaFunctionEntry : FunctionEntry :=
  ⟨amTypeAssocArray, some amCreateAsscaDevice, some asscaCaps, some [asscaCapDetails]⟩

/-- `gAmTargDeviceFunctionEntry` once the modules the target links are registered. -/
def targetRegistry : Registry :=
  [amBaseFunctionEntry, flatFunctionEntry, stataFunctionEntry, asscaFunctionEntry].foldl
    amRegisterAmFunction fun _ => none

end Caps

def dataSite (amType : UInt32) : AllocSite :=
  if amType = amTypeAssocArray then .assca else .storage

/-- The capability that iteration `i` of a loop over the registered types copies; the target,
the driver and the virtual device have the same loop. -/
def capAt (entries : Registry) (i : ℕ) : Option AmMemCap :=
  if virtdBaseCap.subType.toNat ≤ i then none
  else if i = 0 then some virtdBaseCap
  else if h : i < maxDeviceFunctions then (entries ⟨i, h⟩).bind FunctionEntry.pCap
  else none

end AppMem.Device
