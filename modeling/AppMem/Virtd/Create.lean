import AppMem.Hash.Chains
import AppMem.Virtd.List

/-! # What creating a function of the virtual device leaves behind

`am_virtd_create_function` once more, with the blocks that a function points to and all the calls
of `AM_FUNC_CALLS_T`. Nothing is freed when a later allocation fails, a table that cannot be
allocated is not reported, and neither are calls that there was no room for.
-/
namespace AppMem.Virtd
open Library.Checked Library.Blocks Abi Memory Pack Device

/-- The functions in the members of `AM_FUNC_CALLS_T` that do not access data. -/
inductive VirtdFn
  | amVirtdOpen
  | amVirtdClose
  | amFlatRelease
  | amStataRelease
  | amAsscaRelease
  | amAsscaIter
  | amListAddFix
  deriving DecidableEq, Repr

structure FnCalls extends FuncCalls where
  openFn : Option VirtdFn
  closeFn : Option VirtdFn
  release : Option VirtdFn
  addAl : Option VirtdFn
  copy : Option VirtdFn
  iter : Option VirtdFn
  deriving DecidableEq

/-- A function by what it points to, each block by its number; `data` is that of `pVdF`, and
`addAlign` the entry of `AM_OP_ADD_ALIGN` in `pfnOps`. -/
structure VirtdPtrs where
  pVdF : Option ℕ
  data : Option ℕ
  pfnOps : Option ℕ
  addAlign : Option VirtdFn
  fn : Option FnCalls

def VirtdPtrs.blocks (p : VirtdPtrs) : List ℕ :=
  p.pVdF.toList ++ p.data.toList ++ p.pfnOps.toList

section Calls

def FnCalls.withOpenClose (c : FnCalls) : FnCalls :=
  { c with
    openFn := some .amVirtdOpen
    closeFn := some .amVirtdClose
    copy := none }

def flatCalls (c : FnCalls) : FnCalls :=
  { c.withOpenClose with
    toFuncCalls := virtdFlatCalls c.toFuncCalls
    release := some .amFlatRelease }

def stataCalls (c : FnCalls) : FnCalls :=
  { c.withOpenClose with
    toFuncCalls := virtdStataCalls c.toFuncCalls
    release := some .amStataRelease }

def asscaCalls (c : FnCalls) : FnCalls :=
  { c.withOpenClose with
    toFuncCalls := virtdAsscaCalls c.toFuncCalls
    release := some .amAsscaRelease
    iter := some .amAsscaIter }

/-- What `am_virtd_create_function` itself stores after the creator of an entry. -/
def entryCalls (addAlign : Option VirtdFn) (c : FnCalls) : FnCalls :=
  { c with
    openFn := some .amVirtdOpen
    closeFn := some .amVirtdClose
    addAl := addAlign <|> c.addAl }

end Calls

section Create
variable (env : Env) (pCap : AmMemCap)

def amCreateListDevice (pFunc : VirtdPtrs) (h : Heap) : Exec (AmReturn × VirtdPtrs × Heap) :=
  match h.malloc (env.alloc .funcData) with
  | (none, h) => .ok (amRetAllocErr, pFunc, h)
  | (some pVdF, h) =>
    if pCap.amType = amTypeList then
      let addAlign := if (newList pCap).dataType &&& tsListDataFixed ≠ 0 then some .amListAddFix
        else pFunc.addAlign
      .ok (amRetGood, { pFunc with pVdF := some pVdF, data := none, addAlign := addAlign }, h)
    else do
      let h ← h.free Fault.useAfterFree pVdF
      return (amRetAllocErr, pFunc, h)

/-- Types beyond the switch. `am_list.c` registers the only entry there is. -/
def createByEntry (pFunc : VirtdPtrs) (h : Heap) : Exec (AmReturn × VirtdPtrs × Heap) :=
  if maxDeviceFunctions ≤ pCap.amType.toNat then .error .bounds
  else if pCap.amType = amTypeList then
    match h.malloc (env.alloc .pfnOps) with
    | (none, _) => .error .nullPointer
    | (some pfnOps, h) => do
      let r ← amCreateListDevice env pCap
        { pFunc with pfnOps := some pfnOps, addAlign := none } h
      if r.1 = amRetGood then
        match r.2.1.fn with
        | none => throw .nullPointer
        | some c => return (amRetGood, { r.2.1 with
          fn := some (entryCalls r.2.1.addAlign c) }, r.2.2)
      else return (amRetInvalidFunc, r.2)
  else .ok (amRetInvalidFunc, pFunc, h)

def createStorage (calls : FnCalls → FnCalls) (pFunc : VirtdPtrs) (h : Heap) :
    AmReturn × VirtdPtrs × Heap :=
  match h.malloc (env.alloc .storage) with
  | (none, h) => (amRetAllocErr, { pFunc with data := none }, h)
  | (some data, h) => (amRetGood, { pFunc with data := some data, fn := pFunc.fn.map calls }, h)

def initAssca (pFunc : VirtdPtrs) (h : Heap) : AmReturn × VirtdPtrs × Heap :=
  match pFunc.fn with
  | none => (amRetParamErr, pFunc, h)
  | some c =>
    match h.malloc (env.alloc .assca) with
    | (none, h) => (amRetGood, pFunc, h)
    | (some pAA, h) =>
      (amRetGood, { pFunc with data := some pAA, fn := some (asscaCalls c) }, h)

def createSwitch (pFunc : VirtdPtrs) (h : Heap) : AmReturn × VirtdPtrs × Heap :=
  if pCap.amType = amTypeFlatMem then createStorage env flatCalls pFunc h
  else if pCap.amType = amTypeStaticArray then createStorage env stataCalls pFunc h
  else if pCap.amType = amTypeAssocArray then initAssca env pFunc h
  else (amRetInvalidFunc, pFunc, h)

/-- `am_virtd_create_function`. What `malloc` leaves in the private data is not a pointer. -/
def createFunction (pFunc : VirtdPtrs) (h : Heap) : Exec (AmReturn × VirtdPtrs × Heap) :=
  if amTypeAssocArray < pCap.amType then createByEntry env pCap pFunc h
  else
    match h.malloc (env.alloc .funcData) with
    | (none, h) => .ok (amRetParamErr, pFunc, h)
    | (some pVdF, h) =>
      .ok (createSwitch env pCap { pFunc with pVdF := some pVdF, data := none } h)

end Create

section Refinement
variable {env : Env} {pCap : AmMemCap} {p : VirtdPtrs} {h : Heap} {fn : Option FuncCalls}

theorem createSwitch_refines (env : Env) (pCap : AmMemCap) (p : VirtdPtrs) (h : Heap)
    (hfn : fn = p.fn.map FnCalls.toFuncCalls) :
    (createSwitch env pCap p h).1 = (virtdSwitch env pCap fn).1 ∧
      (createSwitch env pCap p h).2.1.fn.map FnCalls.toFuncCalls = (virtdSwitch env pCap fn).2.2 := by
  subst hfn
  have hstorage : ∀ (calls : FnCalls → FnCalls) (c : FuncCalls → FuncCalls),
      (∀ k, (calls k).toFuncCalls = c k.toFuncCalls) →
      (p.fn.map calls).map FnCalls.toFuncCalls = (p.fn.map FnCalls.toFuncCalls).map c := by
    intro calls c hc
    rw [Option.map_map, Option.map_map]
    congr 1
    exact funext hc
  unfold createSwitch virtdSwitch
  by_cases hflat : pCap.amType = amTypeFlatMem
  · rw [if_pos hflat, if_pos hflat, createStorage]
    cases env.alloc .storage with
    | false => exact ⟨rfl, rfl⟩
    | true => exact ⟨rfl, hstorage _ _ fun _ => rfl⟩
  · rw [if_neg hflat, if_neg hflat]
    by_cases hstata : pCap.amType = amTypeStaticArray
    · rw [if_pos hstata, if_pos hstata, createStorage]
      cases env.alloc .storage with
      | false => exact ⟨rfl, rfl⟩
      | true => exact ⟨rfl, hstorage _ _ fun _ => rfl⟩
    · rw [if_neg hstata, if_neg hstata]
      by_cases hassca : pCap.amType = amTypeAssocArray
      · rw [if_pos hassca, if_pos hassca]
        unfold initAssca amVirtdInitAssca
        cases hp : p.fn with
        | none => exact ⟨rfl, congrArg _ hp⟩
        | some c =>
          cases env.alloc .assca with
          | false => exact ⟨rfl, congrArg _ hp⟩
          | true => exact ⟨rfl, rfl⟩
      · rw [if_neg hassca, if_neg hassca]
        exact ⟨rfl, rfl⟩

/-- The two models of `am_virtd_create_function` answer alike, and store the same calls. -/
theorem createFunction_refines {entries : Registry} {minor : ℕ} {f : VirtdFunction}
    (hty : ¬ amTypeAssocArray < pCap.amType) (hfn : f.fn = p.fn.map FnCalls.toFuncCalls) :
    (createFunction env pCap p h).map (fun r => (r.1, r.2.1.fn.map FnCalls.toFuncCalls)) =
      (amVirtdCreateFunction env entries minor pCap f).map fun r => (r.1, r.2.fn) := by
  unfold createFunction amVirtdCreateFunction
  rw [if_neg hty, if_neg hty]
  cases env.alloc .funcData with
  | false => exact congrArg (fun c => Except.ok (amRetParamErr, c)) hfn.symm
  | true =>
    have hswitch := createSwitch_refines env pCap { p with pVdF := some h.next, data := none }
      h.alloc hfn
    rw [if_pos rfl, Heap.malloc_true]
    exact congrArg Except.ok (Prod.ext hswitch.1 hswitch.2)

end Refinement

section Honest

def HasCalls (amType : UInt32) (c : FnCalls) : Prop :=
  c.openFn = some .amVirtdOpen ∧ c.closeFn = some .amVirtdClose ∧
    if amType = amTypeFlatMem then c = flatCalls c
    else if amType = amTypeStaticArray then c = stataCalls c
    else if amType = amTypeAssocArray then c = asscaCalls c
    else c.addAl = some .amListAddFix

/-- Private data with what it points to, and the calls of its type. A list starts empty. -/
def Usable (amType : UInt32) (p : VirtdPtrs) : Prop :=
  p.pVdF.isSome ∧ (amType ≤ amTypeAssocArray → p.data.isSome) ∧
    ∃ c, p.fn = some c ∧ HasCalls amType c

/-- No block of the call is live, or reached by the function. -/
def NothingLeft (h h' : Heap) (p' : VirtdPtrs) : Prop :=
  h'.live = h.live ∧ ∀ b ∈ p'.blocks, b < h.next ∨ h'.next ≤ b

/-- Good says that the function is usable, an error that nothing is left. -/
def Honest (amType : UInt32) (h : Heap) (r : AmReturn × VirtdPtrs × Heap) : Prop :=
  if r.1 = amRetGood then Usable amType r.2.1 else NothingLeft h r.2.2 r.2.1

/-- Creating a function comes back with an honest answer. -/
def CreateHonest (env : Env) (pCap : AmMemCap) (p : VirtdPtrs) (h : Heap) : Prop :=
  ∃ r, createFunction env pCap p h = .ok r ∧ Honest pCap.amType h r

/-- No allocation of a list fails, there is a table of calls, and an operation for it. -/
def ListCreates (env : Env) (pCap : AmMemCap) (p : VirtdPtrs) : Prop :=
  env.alloc .pfnOps = true ∧ env.alloc .funcData = true ∧ ∃ c, p.fn = some c ∧
    ((newList pCap).dataType &&& tsListDataFixed ≠ 0 ∨ c.addAl = some .amListAddFix)

/-- Past the switch the type must be in the table of entries, and a list needs all that it asks
for. In the switch the private data must fail already, or nothing may fail for a known type. -/
def Creates (env : Env) (pCap : AmMemCap) (p : VirtdPtrs) : Prop :=
  if amTypeAssocArray < pCap.amType then
    pCap.amType.toNat < maxDeviceFunctions ∧ (pCap.amType = amTypeList → ListCreates env pCap p)
  else env.alloc .funcData = false ∨
    (pCap.amType ≠ amTypeBaseAppmem ∧ env.alloc (dataSite pCap.amType) = true ∧ p.fn.isSome)

variable {env : Env} {pCap : AmMemCap} {p : VirtdPtrs} {h : Heap} {amType : UInt32}

theorem honest_good {p' : VirtdPtrs} {h' : Heap} :
    Honest amType h (amRetGood, p', h') ↔ Usable amType p' := by
  rw [Honest, if_pos rfl]

theorem not_honest {e : AmReturn} {p' : VirtdPtrs} {h' : Heap} (he : e ≠ amRetGood)
    (hleft : h.next ∈ h'.live) : ¬ Honest amType h (e, p', h') := by
  rw [Honest, if_neg he]
  intro hclean
  exact h.next_notMem_live (hclean.1 ▸ hleft)

theorem honest_refused {e : AmReturn} (he : e ≠ amRetGood) : Honest amType h (e, p, h) := by
  rw [Honest, if_neg he]
  exact ⟨rfl, fun b _ => lt_or_ge b h.next⟩

theorem honest_createStorage {calls : FnCalls → FnCalls}
    (hcalls : ∀ c, HasCalls amType (calls c)) (hp : p.pVdF.isSome) :
    Honest amType h (createStorage env calls p h.alloc) ↔
      env.alloc .storage = true ∧ p.fn.isSome := by
  have herr : amRetAllocErr ≠ amRetGood := by decide
  unfold createStorage
  cases env.alloc .storage with
  | false =>
    apply iff_of_false
    · exact not_honest herr (Finset.mem_insert_self _ _)
    · simp
  | true =>
    rw [Heap.malloc_true, honest_good]
    cases hfn : p.fn with
    | none =>
      apply iff_of_false
      · rintro ⟨-, -, c, hc, -⟩
        cases hc
      · simp
    | some c =>
      apply iff_of_true
      · exact ⟨hp, fun _ => rfl, _, rfl, hcalls c⟩
      · exact ⟨rfl, rfl⟩

theorem honest_initAssca (hp : p.pVdF.isSome) (hd : p.data = none) (ht : amType = amTypeAssocArray) :
    Honest amType h (initAssca env p h.alloc) ↔ env.alloc .assca = true ∧ p.fn.isSome := by
  have herr : amRetParamErr ≠ amRetGood := by decide
  subst ht
  unfold initAssca
  cases hfn : p.fn with
  | none =>
    apply iff_of_false
    · exact not_honest herr (Finset.mem_insert_self _ _)
    · simp
  | some c =>
    cases env.alloc .assca with
    | false =>
      rw [Heap.malloc_false, honest_good]
      apply iff_of_false
      · rintro ⟨-, hdata, -⟩
        have hsome := hdata (UInt32.le_refl _)
        rw [hd] at hsome
        cases hsome
      · simp
    | true =>
      rw [Heap.malloc_true, honest_good]
      apply iff_of_true
      · exact ⟨hp, fun _ => rfl, _, rfl, rfl, rfl, rfl⟩
      · exact ⟨rfl, rfl⟩

/-- In the switch a known type needs its storage and the table of calls. -/
theorem honest_createSwitch (hty : ¬ amTypeAssocArray < pCap.amType) (hp : p.pVdF.isSome)
    (hd : p.data = none) : Honest pCap.amType h (createSwitch env pCap p h.alloc) ↔
      pCap.amType ≠ amTypeBaseAppmem ∧ env.alloc (dataSite pCap.amType) = true ∧ p.fn.isSome := by
  unfold createSwitch dataSite
  by_cases hflat : pCap.amType = amTypeFlatMem
  · have hcalls : ∀ c, HasCalls amTypeFlatMem (flatCalls c) := fun _ => ⟨rfl, rfl, rfl⟩
    have hne : amTypeFlatMem ≠ amTypeAssocArray := by decide
    have hbase : amTypeFlatMem ≠ amTypeBaseAppmem := by decide
    rw [if_pos hflat, hflat, if_neg hne, and_iff_right hbase]
    exact honest_createStorage hcalls hp
  · rw [if_neg hflat]
    by_cases hstata : pCap.amType = amTypeStaticArray
    · have hcalls : ∀ c, HasCalls amTypeStaticArray (stataCalls c) := fun _ => ⟨rfl, rfl, rfl⟩
      have hne : amTypeStaticArray ≠ amTypeAssocArray := by decide
      have hbase : amTypeStaticArray ≠ amTypeBaseAppmem := by decide
      rw [if_pos hstata, hstata, if_neg hne, and_iff_right hbase]
      exact honest_createStorage hcalls hp
    · rw [if_neg hstata]
      by_cases hassca : pCap.amType = amTypeAssocArray
      · have hbase : amTypeAssocArray ≠ amTypeBaseAppmem := by decide
        rw [if_pos hassca, if_pos hassca, honest_initAssca hp hd hassca, hassca,
          and_iff_right hbase]
      · have hbase : pCap.amType = amTypeBaseAppmem := by
          simp only [amTypeAssocArray, amTypeFlatMem, amTypeStaticArray, amTypeBaseAppmem,
            UInt32.lt_iff_toNat_lt, ← UInt32.toNat_inj, UInt32.reduceToNat] at *
          omega
        have herr : amRetInvalidFunc ≠ amRetGood := by decide
        rw [if_neg hassca]
        exact iff_of_false (not_honest herr (Finset.mem_insert_self _ _)) fun hc => hc.1 hbase

theorem amCreateListDevice_eq (hty : pCap.amType = amTypeList) :
    amCreateListDevice env pCap p h = if env.alloc .funcData then
      .ok (amRetGood, { p with
        pVdF := some h.next
        data := none
        addAlign := if (newList pCap).dataType &&& tsListDataFixed ≠ 0 then some .amListAddFix
          else p.addAlign }, h.alloc)
      else .ok (amRetAllocErr, p, h) := by
  unfold amCreateListDevice
  cases env.alloc .funcData with
  | false => rfl
  | true =>
    rw [Heap.malloc_true]
    dsimp only
    rw [if_pos hty, if_pos rfl]

theorem hasCalls_list (c : FnCalls) (fixed : Prop) [Decidable fixed] :
    HasCalls amTypeList (entryCalls (if fixed then some .amListAddFix else none) c) ↔
      fixed ∨ c.addAl = some .amListAddFix := by
  have hflat : amTypeList ≠ amTypeFlatMem := by decide
  have hstata : amTypeList ≠ amTypeStaticArray := by decide
  have hassca : amTypeList ≠ amTypeAssocArray := by decide
  rw [HasCalls, if_neg hflat, if_neg hstata, if_neg hassca]
  by_cases hfixed : fixed
  · simp [entryCalls, hfixed]
  · simp [entryCalls, hfixed]

/-- Creating a list comes back honest just when nothing that it needs is missing. -/
theorem createByEntry_list (hty : pCap.amType = amTypeList) :
    (∃ r, createByEntry env pCap p h = .ok r ∧ Honest pCap.amType h r) ↔
      ListCreates env pCap p := by
  have hlt : ¬ maxDeviceFunctions ≤ pCap.amType.toNat := by
    rw [hty]
    decide
  have herr : amRetInvalidFunc ≠ amRetGood := by decide
  have halloc : ¬ amRetAllocErr = amRetGood := by decide
  have hswitch : ¬ amTypeList ≤ amTypeAssocArray := by decide
  unfold createByEntry ListCreates
  rw [if_neg hlt, if_pos hty]
  cases env.alloc .pfnOps with
  | false => simp
  | true =>
    rw [Heap.malloc_true]
    dsimp only
    rw [amCreateListDevice_eq hty]
    cases env.alloc .funcData with
    | false =>
      rw [if_neg Bool.false_ne_true, ok_bind, if_neg halloc]
      apply iff_of_false
      · rintro ⟨r, hr, hhonest⟩
        cases hr
        exact not_honest herr (Finset.mem_insert_self _ _) hhonest
      · simp
    | true =>
      rw [if_pos rfl, ok_bind, if_pos rfl]
      dsimp only
      cases hfn : p.fn with
      | none =>
        apply iff_of_false
        · rintro ⟨r, hr, -⟩
          cases hr
        · simp
      | some c =>
        simp only [pure_eq_ok, Except.ok.injEq, exists_eq_left', true_and, Option.some.injEq]
        rw [honest_good, hty, ← hasCalls_list]
        constructor
        · rintro ⟨-, -, c', hc, hcalls⟩
          cases hc
          exact hcalls
        · exact fun hcalls => ⟨rfl, fun hle => absurd hle hswitch, _, rfl, hcalls⟩

theorem createHonest_iff : CreateHonest env pCap p h ↔ Creates env pCap p := by
  unfold CreateHonest Creates createFunction
  by_cases hty : amTypeAssocArray < pCap.amType
  · rw [if_pos hty, if_pos hty]
    by_cases hmax : maxDeviceFunctions ≤ pCap.amType.toNat
    · apply iff_of_false
      · rintro ⟨r, hr, -⟩
        rw [createByEntry, if_pos hmax] at hr
        cases hr
      · exact fun hc => absurd hc.1 (Nat.not_lt.mpr hmax)
    · rw [and_iff_right (Nat.not_le.mp hmax)]
      by_cases hlist : pCap.amType = amTypeList
      · rw [createByEntry_list hlist, forall_prop_of_true hlist]
      · have herr : amRetInvalidFunc ≠ amRetGood := by decide
        apply iff_of_true
        · rw [createByEntry, if_neg hmax, if_neg hlist]
          exact ⟨_, rfl, honest_refused herr⟩
        · exact fun hl => absurd hl hlist
  · rw [if_neg hty, if_neg hty]
    cases env.alloc .funcData with
    | false =>
      have herr : amRetParamErr ≠ amRetGood := by decide
      exact iff_of_true ⟨_, rfl, honest_refused herr⟩ (.inl rfl)
    | true =>
      rw [Heap.malloc_true]
      simp only [Except.ok.injEq, exists_eq_left', Bool.true_eq_false, false_or]
      exact honest_createSwitch hty rfl rfl

end Honest

section Add

/-- A write that comes back good has stored the pair as the last item, with its handle in the
table; any other answer leaves the table as it was. -/
def AddHonest (env : Env) (pAA : AmlibAssca) (pKey pData : List UInt8) : Prop :=
  ∀ pAA' r, amlibAsscaAddKeyFixfix env pAA pKey pData = .ok (pAA', r) →
    if r.error = amRetGood then
      pAA'.items = pAA.items ++ [⟨pKey.take pAA.keyLen.toNat, pData.take pAA.dataLen.toNat⟩] ∧
        ∃ t, pAA'.table = some t ∧ ⟨pKey.take pAA.keyLen.toNat,
          Hash.hashJen (pKey.take pAA.keyLen.toNat), pAA.items.length⟩ ∈
            t.buckets.flatMap Hash.Bucket.chain
    else pAA' = pAA

theorem addHonest_iff {env : Env} {pAA : AmlibAssca} {pKey pData : List UInt8} :
    AddHonest env pAA pKey pData ↔
      (pAA.bFixedKey = true ∧ pAA.bFixedData = true → env.alloc .asscaItem = true) := by
  constructor
  · intro hadd hfix
    by_contra hm
    rw [Bool.not_eq_true] at hm
    have hlost := hadd pAA _ (amlibAsscaAddKeyFixfix_eq_ok.mpr ⟨hfix, rfl, .inl ⟨hm, rfl⟩⟩)
    rw [if_pos rfl] at hlost
    have hlen := congrArg List.length hlost.1
    rw [List.length_append, List.length_singleton] at hlen
    omega
  · intro hm pAA' r hcall
    obtain ⟨hfix, rfl, ⟨hlost, -⟩ | ⟨data, key, t, -, hdata, hkey, ht, rfl⟩⟩ :=
      amlibAsscaAddKeyFixfix_eq_ok.mp hcall
    · rw [hm hfix] at hlost
      cases hlost
    · obtain ⟨-, rfl⟩ := readBytes_eq_ok.mp hdata
      obtain ⟨-, rfl⟩ := readBytes_eq_ok.mp hkey
      rw [if_pos rfl]
      exact ⟨rfl, t, rfl, Hash.hashAddKeyptr_enters ht⟩

end Add

/-- For every capability, table of calls and outcome of the allocations, creating is honest just
when no allocation fails that the code forgets; adding to an associative array just when its item
has memory, and adding to a list when it is singly linked besides. -/
theorem goodMeansDone_iff (env : Env) (pCap : AmMemCap) (pFunc : VirtdPtrs) (h : Heap)
    (pAA : AmlibAssca) (pKey pData : List UInt8) (mem : Bool) (pList : AmlibList)
    (p1 : List UInt8) :
    (CreateHonest env pCap pFunc h ↔ Creates env pCap pFunc) ∧
    (AddHonest env pAA pKey pData ↔
      (pAA.bFixedKey = true ∧ pAA.bFixedData = true → env.alloc .asscaItem = true)) ∧
    (ListAddHonest mem pList p1 ↔
      mem = true ∧ (pList.dataSize.toNat ≤ p1.length → pList.listType = amListSll)) :=
  ⟨createHonest_iff, addHonest_iff, listAddHonest_iff⟩

section Instances

def noCalls : FnCalls := ⟨⟨none, none, none, none, none⟩, none, none, none, none, none, none⟩

/-- The advertised associative array is asked for and its table has no memory, an item has none,
and a list that is doubly linked gets an item. -/
theorem not_goodMeansDone :
    ¬ CreateHonest { Env.zeroed with alloc := fun site => site ≠ .assca } asscaCaps
      ⟨none, none, none, none, some noCalls⟩ .empty ∧
    ¬ AddHonest { Env.zeroed with alloc := fun site => site ≠ .asscaItem }
      (amlibAsscaInit 4 4 true true) [1, 0, 0, 0] [2, 0, 0, 0] ∧
    ¬ ListAddHonest true ⟨amListDll, 0, tsListDataFixed, 4, []⟩ [1, 0, 0, 0] := by
  refine ⟨fun hc => ?_, fun hc => ?_, fun hc => ?_⟩
  · have htable : ¬ Creates { Env.zeroed with alloc := fun site => site ≠ .assca } asscaCaps
        ⟨none, none, none, none, some noCalls⟩ := by
      have hty : ¬ amTypeAssocArray < asscaCaps.amType := by decide
      rw [Creates, if_neg hty]
      simp [dataSite, asscaCaps]
    exact htable (createHonest_iff.mp hc)
  · exact Bool.noConfusion (addHonest_iff.mp hc ⟨rfl, rfl⟩)
  · have hdll : amListDll ≠ amListSll := by decide
    exact hdll ((listAddHonest_iff.mp hc).2 (by decide))

end Instances

end AppMem.Virtd
