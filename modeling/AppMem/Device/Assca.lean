import AppMem.Device.Function

/-! # Associative arrays

`am_assca.c`: a table of key and value pairs of fixed lengths. A write adds an item and
never looks for an older one with the same key; a read returns the first item of the
bucket chain that matches.
-/
namespace AppMem.Device
open Library.Bytes Library.Checked Abi Memory Hash Pack

def amlibAsscaInit (keyLength dataLength : UInt32) (bFixedKey bFixedData : Bool) : AmlibAssca where
  keyLen := keyLength
  dataLen := dataLength
  bFixedKey := bFixedKey
  bFixedData := bFixedData
  pIterArray := fun _ => none
  items := []
  table := none

/-- `amlib_assca_get_key_val`; `flags` are those of `pAA->fd`. -/
def amlibAsscaGetKeyVal (b : Build) (flags : UInt32) (pAA : AmlibAssca) (pKey pData : List UInt8) :
    Exec (AmlibAssca × Served) :=
  match pAA.table with
  | none => .ok (pAA, { error := amRetKeyNotFound })
  | some t => do
    let key ← readBytes pKey pAA.keyLen.toNat
    match ← hashFind (some t) key with
    | none => return (pAA, { error := amRetKeyNotFound })
    | some h =>
      match pAA.items[h.elt]? with
      | none => throw .bounds
      | some pAI =>
        let r ← copyToUser b flags pData pAI.data pAA.dataLen.toNat
        return ({ pAA with items := pAA.items.set h.elt { pAI with data := r.2 } },
          { error := amRetGood, out := r.1 })

/-- `amlib_assca_add_key_fixfix`. When there is no memory for the item the write is dropped
and still reported as good. -/
def amlibAsscaAddKeyFixfix (env : Env) (pAA : AmlibAssca) (pKey pData : List UInt8) :
    Exec (AmlibAssca × Served) := do
  require (pAA.bFixedKey = true ∧ pAA.bFixedData = true) Fault.assertion
  if env.alloc .asscaItem then
    let data ← readBytes pData pAA.dataLen.toNat
    let key ← readBytes pKey pAA.keyLen.toNat
    let t ← hashAddKeyptr env pAA.table key pAA.items.length
    return ({ pAA with items := pAA.items ++ [⟨key, data⟩], table := some t },
      { error := amRetGood })
  else return (pAA, { error := amRetGood })

def MemFunction.setAssca (f : MemFunction) (fd : AsscaData) (pAA : AmlibAssca) : MemFunction :=
  { f with pVdF := some (.assca { fd with data := pAA }) }

def asscaAccess (f : MemFunction) (op : AsscaData → Exec (AmlibAssca × Served)) :
    Exec (MemFunction × Served) :=
  match f.pVdF with
  | none => .ok (f, { error := amRetInvalidHdl })
  | some (.assca fd) => do
    let r ← op fd
    return (f.setAssca fd r.1, r.2)
  | some _ => .error .convention

def amAsscaRead32Align (b : Build) (f : MemFunction) (p1 p2 : List UInt8) :
    Exec (MemFunction × Served) :=
  asscaAccess f fun fd => amlibAsscaGetKeyVal b fd.flags fd.data p1 p2

def amAsscaWrite32Align (env : Env) (f : MemFunction) (p1 p2 : List UInt8) :
    Exec (MemFunction × Served) :=
  asscaAccess f fun fd => amlibAsscaAddKeyFixfix env fd.data p1 p2

section Create

def packDataOffset (idxSize : UInt32) : UInt8 :=
  let n := (idxSize / 4).toUInt8
  if idxSize % 4 ≠ 0 then n + 1 else n

def qwords (words : UInt8) : UInt8 := if words % 2 ≠ 0 then 1 + words / 2 else words / 2

/-- `wr_pack_qword_size`: value, key and one word for the operation. -/
def wrPackQwordSize (idxSize dataSize : UInt32) : UInt8 :=
  let n := packDataOffset idxSize + (dataSize / 4).toUInt8
  let n := if dataSize % 4 ≠ 0 then n + 1 else n
  qwords (n + 1)

/-- `rd_pack_qword_size`: key, a user pointer and the operation. -/
def rdPackQwordSize (idxSize : UInt32) : UInt8 := qwords (packDataOffset idxSize + 1 + 1 + 1)

/-- What `am_create_assca_device` leaves in the function. -/
def asscaDevice (env : Env) (f : MemFunction) (pCap : AmMemCap) : MemFunction :=
  let keySize := pCap.typeSpecific tsAsscaKeyMaxSize
  let dataSize := pCap.typeSpecific tsAsscaDataMaxSize
  let f := registerOpenClose f
  let wr := opWord amKpack amOpWriteAlign
  let rd := opWord amKpack amOpReadAlign
  { f with
    pVdF := some (.assca ⟨amlibAsscaInit keySize dataSize true true, env.flags, pCap.maxSize, 0⟩)
    pfnOps := setOp (setOp f.pfnOps amOpReadAlign (some .amAsscaRead32Align))
      amOpWriteAlign (some .amAsscaWrite32Align)
    crResp := { f.crResp with
      dataSize := dataSize
      idxSize := keySize
      ops := setOp (setOp f.crResp.ops amOpReadAlign rd) amOpWriteAlign wr
      acOps := fun i => if i = acopWrite then wr else rd
      packDataOffset := packDataOffset keySize
      wrPackQwordSize := wrPackQwordSize keySize dataSize
      rdPackQwordSize := rdPackQwordSize keySize
      amName := deviceName "am_assca_" f.handle
      devt := f.handle } }

/-- `am_create_assca_device`. Both widths are taken as fixed whatever the capability says. -/
def amCreateAsscaDevice (env : Env) (f : MemFunction) (pCap : AmMemCap) : AmReturn × MemFunction :=
  if env.alloc .funcData ∧ pCap.amType = amTypeAssocArray then
    if env.alloc .assca then (amRetGood, asscaDevice env f pCap) else (amRetAllocErr, f)
  else (amRetAllocErr, f)

def asscaCap (n : UInt32) : AmMemCap where
  amType := amTypeAssocArray
  maxSize := 1024
  subType := 0
  functionCount := 0
  accessFlags := 0
  typeSpecific := fun i => if i.val < 2 then n else 1
  acOps := fun _ => 0

end Create

section Lemmas

theorem setAssca_self {f : MemFunction} {fd : AsscaData} (hf : f.pVdF = some (.assca fd)) :
    f.setAssca fd fd.data = f := by
  rw [MemFunction.setAssca, ← hf]

theorem amlibAsscaAddKeyFixfix_congr {env : Env} {pAA : AmlibAssca} {k k' d d' : List UInt8}
    (hk : readBytes k pAA.keyLen.toNat = readBytes k' pAA.keyLen.toNat)
    (hd : readBytes d pAA.dataLen.toNat = readBytes d' pAA.dataLen.toNat) :
    amlibAsscaAddKeyFixfix env pAA k d = amlibAsscaAddKeyFixfix env pAA k' d' := by
  simp only [amlibAsscaAddKeyFixfix, hk, hd]

theorem amlibAsscaGetKeyVal_congr {b : Build} {flags : UInt32} {pAA : AmlibAssca}
    {k k' : List UInt8} (d d' : List UInt8) (hb : b.direct flags = true)
    (hk : readBytes k pAA.keyLen.toNat = readBytes k' pAA.keyLen.toNat) :
    amlibAsscaGetKeyVal b flags pAA k d = amlibAsscaGetKeyVal b flags pAA k' d' := by
  simp only [amlibAsscaGetKeyVal, hk, copyToUser_direct hb]

theorem asscaAccess_eq_ok {f g : MemFunction} {op : AsscaData → Exec (AmlibAssca × Served)}
    {r : Served} :
    asscaAccess f op = .ok (g, r) ↔
      (f.pVdF = none ∧ g = f ∧ r = { error := amRetInvalidHdl }) ∨
      ∃ fd pAA, f.pVdF = some (.assca fd) ∧ op fd = .ok (pAA, r) ∧ g = f.setAssca fd pAA := by
  unfold asscaAccess
  split
  · rename_i h
    simp [h, eq_comm]
  · rename_i fd h
    simp only [bind_eq_ok, pure_eq_ok, Except.ok.injEq, Prod.mk.injEq, Prod.exists, h,
      Option.some.injEq, FuncData.assca.injEq, reduceCtorEq, false_and, false_or]
    constructor
    · rintro ⟨pAA, r', hop, rfl, rfl⟩
      exact ⟨fd, pAA, rfl, hop, rfl⟩
    · rintro ⟨_, pAA, rfl, hop, rfl⟩
      exact ⟨pAA, r, hop, rfl, rfl⟩
  · rename_i d hd h
    constructor
    · intro hc
      cases hc
    · rintro (⟨hn, -⟩ | ⟨fd, _, hfd, _⟩)
      · rw [h] at hn
        cases hn
      · exact absurd (Option.some.inj (h.symm.trans hfd)) (hd fd)

/-- A lookup that comes back: there is no table, the key is not in it, or its item is copied. -/
theorem amlibAsscaGetKeyVal_eq_ok {b : Build} {flags : UInt32} {pAA pAA' : AmlibAssca}
    {pKey pData : List UInt8} {r : Served} :
    amlibAsscaGetKeyVal b flags pAA pKey pData = .ok (pAA', r) ↔
      (pAA.table = none ∧ pAA' = pAA ∧ r = { error := amRetKeyNotFound }) ∨
      ∃ t key found, pAA.table = some t ∧ readBytes pKey pAA.keyLen.toNat = .ok key ∧
        hashFind (some t) key = .ok found ∧
        ((found = none ∧ pAA' = pAA ∧ r = { error := amRetKeyNotFound }) ∨
        ∃ h item v, found = some h ∧ pAA.items[h.elt]? = some item ∧
          copyToUser b flags pData item.data pAA.dataLen.toNat = .ok v ∧
          pAA' = { pAA with items := pAA.items.set h.elt { item with data := v.2 } } ∧
          r = { error := amRetGood, out := v.1 }) := by
  unfold amlibAsscaGetKeyVal
  cases pAA.table with
  | none => simp [eq_comm]
  | some t =>
    simp only [bind_eq_ok, reduceCtorEq, false_and, false_or, Option.some.injEq]
    constructor
    · rintro ⟨key, hkey, found, hfind, hrest⟩
      refine ⟨t, key, found, rfl, hkey, hfind, ?_⟩
      cases found with
      | none =>
        cases hrest
        exact .inl ⟨rfl, rfl, rfl⟩
      | some h =>
        dsimp only at hrest
        split at hrest
        · cases hrest
        · rename_i item hitem
          rw [bind_eq_ok] at hrest
          rcases hrest with ⟨v, hv, hrest⟩
          cases hrest
          exact .inr ⟨h, item, v, rfl, hitem, hv, rfl, rfl⟩
    · rintro ⟨_, key, found, rfl, hkey, hfind, hrest⟩
      refine ⟨key, hkey, found, hfind, ?_⟩
      rcases hrest with ⟨rfl, rfl, rfl⟩ | ⟨h, item, v, rfl, hitem, hv, rfl, rfl⟩
      · rfl
      · simp only [hitem, hv, ok_bind]
        rfl

/-- A write that comes back: the item is lost, or it is added and its key is hashed. -/
theorem amlibAsscaAddKeyFixfix_eq_ok {env : Env} {pAA pAA' : AmlibAssca}
    {pKey pData : List UInt8} {r : Served} :
    amlibAsscaAddKeyFixfix env pAA pKey pData = .ok (pAA', r) ↔
      (pAA.bFixedKey = true ∧ pAA.bFixedData = true) ∧ r = { error := amRetGood } ∧
      ((env.alloc .asscaItem = false ∧ pAA' = pAA) ∨
      ∃ data key t, env.alloc .asscaItem = true ∧ readBytes pData pAA.dataLen.toNat = .ok data ∧
        readBytes pKey pAA.keyLen.toNat = .ok key ∧
        hashAddKeyptr env pAA.table key pAA.items.length = .ok t ∧
        pAA' = { pAA with items := pAA.items ++ [⟨key, data⟩], table := some t }) := by
  unfold amlibAsscaAddKeyFixfix
  rw [bind_eq_ok]
  simp only [require_eq_ok]
  cases env.alloc .asscaItem with
  | false =>
    simp only [Bool.false_eq_true, if_false, pure_eq_ok, Except.ok.injEq, Prod.mk.injEq, true_and,
      false_and, exists_false, or_false]
    constructor
    · rintro ⟨_, hfix, rfl, rfl⟩
      exact ⟨hfix, rfl, rfl⟩
    · rintro ⟨hfix, rfl, rfl⟩
      exact ⟨(), hfix, rfl, rfl⟩
  | true =>
    simp only [if_true, bind_eq_ok, pure_eq_ok, Except.ok.injEq, Prod.mk.injEq, true_and,
      Bool.true_eq_false, false_and, false_or]
    constructor
    · rintro ⟨_, hfix, data, hdata, key, hkey, t, ht, rfl, rfl⟩
      exact ⟨hfix, rfl, data, key, t, hdata, hkey, ht, rfl⟩
    · rintro ⟨hfix, rfl, data, key, t, hdata, hkey, ht, rfl⟩
      exact ⟨(), hfix, data, hdata, key, hkey, t, ht, rfl, rfl⟩

end Lemmas

end AppMem.Device
