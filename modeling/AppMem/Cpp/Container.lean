import AppMem.Device.Virtd
import AppMem.Pack.Client
import AppMem.Virtd.Create

/-! # The C++ containers

`appmemcpp.cpp` on the virtual device. The constructor of a container looks for the capability of
its type, lets the class edit a copy of it, and creates a function from the copy.
-/
namespace AppMem.Cpp
open Library.Bytes Library.Checked Abi Memory Pack Device

def amRetKeyOutOfRange : AmReturn := 8

/-- The words of `typeSpecific` that the containers set besides the sizes. -/
def tsAsscaKeyType : Fin 32 := 2
def tsAsscaDataType : Fin 32 := 3
def tsStatArrayValDataTypes : Fin 32 := 3

/-- The bit of fixed widths: `TS_ASSCA_KEY_FIXED_WIDTH` and the like. -/
def fixedWidth : UInt32 := 1

/-- `CAppMem`. The calls are those behind `pCalls`, which `amFunc.fn` points to. -/
structure CAppMem where
  bReady : Bool
  amFunc : VirtdFunction

section Base

/-- The records that `get_capabilities` of the virtual device copies; the one of lists, which comes
last, is left out. -/
def allCaps : List AmMemCap :=
  (List.range virtdBaseCap.subType.toNat).filterMap (capAt targetRegistry)

/-- `new AM_FUNC_CALLS_T`: nothing is stored there yet. -/
def newCalls : FuncCalls := ⟨none, none, none, none, none⟩

/-- `initBase` for a type other than the base device. `open` is stored in the branches that store
`read_al`; where they were not taken the pointer is whatever was there. -/
def initBase (amType : UInt32) (configCaps : AmMemCap → AmReturn × AmMemCap) (env : Env)
    (minor : ℕ) (amFunc : MemFunction) : Exec CAppMem :=
  match allCaps.find? fun c => c.amType = amType with
  | none => .ok ⟨false, amFunc, none⟩
  | some pBaseCaps => do
    let configCap := configCaps pBaseCaps
    if configCap.1 = amRetGood then
      let r ← amVirtdCreateFunction env targetRegistry minor configCap.2 ⟨amFunc, some newCalls⟩
      if r.1 = amRetGood then
        require ((r.2.fn.bind FuncCalls.readAl).isSome) Fault.uninitialised
        return ⟨true, r.2⟩
      else return ⟨false, r.2⟩
    else return ⟨false, amFunc, some newCalls⟩

/-- On a new table of calls `am_virtd_create_function` stores `open` just where it stores
`read_al`. -/
theorem openFn_isSome_eq {env : Env} {pCap : AmMemCap} {p : Virtd.VirtdPtrs}
    {h : Library.Blocks.Heap} {r : AmReturn × Virtd.VirtdPtrs × Library.Blocks.Heap}
    (hty : ¬ amTypeAssocArray < pCap.amType) (hfn : p.fn = some Virtd.noCalls)
    (hr : Virtd.createFunction env pCap p h = .ok r) :
    ∀ c ∈ r.2.1.fn, c.openFn.isSome = c.readAl.isSome := by
  have hnew : ∀ c ∈ p.fn, c.openFn.isSome = c.readAl.isSome := by
    intro c hc
    rw [hfn] at hc
    cases hc
    rfl
  have hstorage : ∀ (calls : Virtd.FnCalls → Virtd.FnCalls) (q : Virtd.VirtdPtrs) (h' : _),
      (∀ c, (calls c).openFn.isSome = (calls c).readAl.isSome) → q.fn = p.fn →
      ∀ c ∈ (Virtd.createStorage env calls q h').2.1.fn, c.openFn.isSome = c.readAl.isSome := by
    intro calls q h' hcalls hq
    unfold Virtd.createStorage
    cases env.alloc .storage with
    | false => exact hq ▸ hnew
    | true =>
      intro c hc
      obtain ⟨k, -, rfl⟩ := Option.map_eq_some_iff.mp hc
      exact hcalls k
  unfold Virtd.createFunction at hr
  rw [if_neg hty] at hr
  cases hm : env.alloc .funcData with
  | false =>
    rw [hm] at hr
    cases hr
    exact hnew
  | true =>
    rw [hm, Library.Blocks.Heap.malloc_true] at hr
    cases hr
    unfold Virtd.createSwitch
    split
    · exact hstorage _ _ _ (fun _ => rfl) rfl
    · split
      · exact hstorage _ _ _ (fun _ => rfl) rfl
      · split
        · unfold Virtd.initAssca
          dsimp only
          rw [hfn]
          cases env.alloc .assca with
          | false =>
            intro c hc
            cases hc
            rfl
          | true =>
            intro c hc
            cases hc
            rfl
        · exact hnew

def CAppMem.writeAl (env : Env) (c : CAppMem) (p1 p2 : List UInt8) : Exec (CAppMem × AmReturn) := do
  let r ← callAlign .user env (c.amFunc.fn.bind FuncCalls.writeAl) c.amFunc.func p1 p2
  return (⟨c.bReady, r.1, c.amFunc.fn⟩, r.2.error)

/-- `pCalls->read_al(&amFunc, p1, p2)`, and the bytes behind `p2` afterwards. -/
def CAppMem.readAl (env : Env) (c : CAppMem) (p1 p2 : List UInt8) :
    Exec (CAppMem × AlignResult) := do
  let r ← callAlign .user env (c.amFunc.fn.bind FuncCalls.readAl) c.amFunc.func p1 p2
  let p2 ← writeBytes p2 r.2.out
  return (⟨c.bReady, r.1, c.amFunc.fn⟩, ⟨r.2.error, p2⟩)

end Base

section AsscArray
variable (keySize dataSize : UInt32) (bFixedKey bFixedData : Bool)

/-- `CAppMemAsscArray::configCaps`. Sizes that are too large leave the capability as it is, and are
not refused. -/
def asscConfigCaps (pCap : AmMemCap) : AmReturn × AmMemCap :=
  if keySize ≤ pCap.typeSpecific tsAsscaKeyMaxSize ∧
      dataSize ≤ pCap.typeSpecific tsAsscaDataMaxSize then
    let t := Function.update (Function.update pCap.typeSpecific tsAsscaKeyMaxSize keySize)
      tsAsscaDataMaxSize dataSize
    let t := if bFixedKey then Function.update t tsAsscaKeyType fixedWidth else t
    let t := if bFixedData then Function.update t tsAsscaDataType fixedWidth else t
    (amRetGood, { pCap with typeSpecific := t })
  else (amRetGood, pCap)

/-- `CAppMemAsscArray::CAppMemAsscArray`. -/
def newAsscArray (env : Env) (minor : ℕ) (amFunc : MemFunction) : Exec CAppMem :=
  initBase amTypeAssocArray (asscConfigCaps keySize dataSize bFixedKey bFixedData) env minor amFunc

def asscInsert (env : Env) (c : CAppMem) (pKey pVal : List UInt8) : Exec (CAppMem × AmReturn) :=
  if bFixedKey && bFixedData then c.writeAl env pKey pVal else .ok (c, amRetParamErr)

def asscGet (env : Env) (c : CAppMem) (pKey pVal : List UInt8) : Exec (CAppMem × AlignResult) :=
  if bFixedKey && bFixedData then c.readAl env pKey pVal else .ok (c, ⟨amRetParamErr, pVal⟩)

end AsscArray

section StaticArray
variable (elements indexSize : UInt32)

/-- `CAppMemStaticArray::configCaps`. Any common bit with the sizes on offer will do, and the values
get four bytes whatever the size that was asked for. -/
def stataConfigCaps (pCap : AmMemCap) : AmReturn × AmMemCap :=
  if pCap.typeSpecific tsStatArrayIdxByteSize &&& indexSize ≠ 0 then
    (amRetGood, { pCap with
      maxSize := elements.toUInt64
      typeSpecific := Function.update (Function.update (Function.update pCap.typeSpecific
        tsStatArrayIdxByteSize indexSize) tsStatArrayValDataTypes fixedWidth)
        tsStatArrayValMaxSize 4 })
  else (amRetParamErr, pCap)

/-- `CAppMemStaticArray::CAppMemStaticArray`; the size of the values is not looked at. -/
def newStaticArray (_dataSize : UInt32) (env : Env) (minor : ℕ) (amFunc : MemFunction) :
    Exec CAppMem :=
  initBase amTypeStaticArray (stataConfigCaps elements indexSize) env minor amFunc

def stataInsert (env : Env) (c : CAppMem) (index : UInt32) (pVal : List UInt8) :
    Exec (CAppMem × AmReturn) :=
  if index < elements then c.writeAl env (u32Bytes index) pVal else .ok (c, amRetKeyOutOfRange)

def stataGet (env : Env) (c : CAppMem) (index : UInt32) (pVal : List UInt8) :
    Exec (CAppMem × AlignResult) :=
  if index < elements then c.readAl env (u32Bytes index) pVal
  else .ok (c, ⟨amRetKeyOutOfRange, pVal⟩)

end StaticArray

end AppMem.Cpp
