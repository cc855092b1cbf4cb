import AppMem.Device.Function

/-! # Flat memory

`am_flat.c`: the index is a byte offset into the storage, and nobody compares it with the
size.
-/
namespace AppMem.Device
open Library.Bytes Library.Checked Abi Memory Pack

/-- Both accessors: the private data must be there and be flat memory. -/
def flatAccess (f : MemFunction) (op : FlatData → Exec (FlatData × Served)) :
    Exec (MemFunction × Served) :=
  match f.pVdF with
  | none => .error .nullPointer
  | some (.flat fd) => do
    let r ← op fd
    return ({ f with pVdF := some (.flat r.1) }, r.2)
  | some _ => .error .convention

theorem flatAccess_eq_ok {f g : MemFunction} {op : FlatData → Exec (FlatData × Served)}
    {r : Served} :
    flatAccess f op = .ok (g, r) ↔ ∃ fd fd', f.pVdF = some (.flat fd) ∧ op fd = .ok (fd', r) ∧
      g = { f with pVdF := some (.flat fd') } := by
  unfold flatAccess
  split
  · rename_i h
    simp [h]
  · rename_i fd h
    simp only [bind_eq_ok, pure_eq_ok, Except.ok.injEq, Prod.mk.injEq, Prod.exists, h,
      Option.some.injEq, FuncData.flat.injEq]
    constructor
    · rintro ⟨fd', r', hop, rfl, rfl⟩
      exact ⟨fd, fd', rfl, hop, rfl⟩
    · rintro ⟨_, fd', rfl, hop, rfl⟩
      exact ⟨fd', r, hop, rfl, rfl⟩
  · rename_i d hd h
    constructor
    · intro hc
      cases hc
    · rintro ⟨fd, _, hfd, _⟩
      exact absurd (Option.some.inj (h.symm.trans hfd)) (hd fd)

def amFlatRead32Align (b : Build) (f : MemFunction) (p1 p2 : List UInt8) :
    Exec (MemFunction × Served) :=
  flatAccess f fun fd => do
    let offset ← readU32 p1
    let out ← cellToUser b fd.flags fd.data offset.toNat p2
    return (fd, { error := amRetGood, out := out })

def amFlatWrite32Align (b : Build) (f : MemFunction) (p1 p2 : List UInt8) :
    Exec (MemFunction × Served) :=
  flatAccess f fun fd => do
    let offset ← readU32 p1
    let data ← cellFromUser b fd.flags fd.data offset.toNat p2
    return ({ fd with data := data }, { error := amRetGood })

section Create

/-- The private data of a new flat memory. A capability that asks for an initial value gets
memory that is not initialised. -/
def newFlatData (env : Env) (pCap : AmMemCap) : FlatData where
  data := if pCap.typeSpecific tsInitMemVal ≠ 0 then env.garbage pCap.maxSize.toNat
    else List.replicate pCap.maxSize.toNat 0
  flags := env.flags
  size := pCap.maxSize
  addSize := pCap.typeSpecific tsFlatAddressByteSize

/-- What `am_create_flat_device` leaves in the function. -/
def flatDevice (env : Env) (f : MemFunction) (pCap : AmMemCap) : MemFunction :=
  let addSize := pCap.typeSpecific tsFlatAddressByteSize
  let f := registerOpenClose f
  { f with
    pVdF := some (.flat (newFlatData env pCap))
    pfnOps := setOp (setOp f.pfnOps amOpWriteAlign (some .amFlatWrite32Align))
      amOpReadAlign (some .amFlatRead32Align)
    crResp := { f.crResp with
      acOps := fun i =>
        if i = acopWrite then opWord amPackAlign amOpWriteAlign
        else opWord amPackAlign amOpReadAlign
      idxSize := addSize
      dataSize := addSize
      packDataOffset := addSize.toUInt8
      amName := deviceName "am_flat_" f.handle
      devt := f.handle } }

def amCreateFlatDevice (env : Env) (f : MemFunction) (pCap : AmMemCap) : AmReturn × MemFunction :=
  if env.alloc .funcData then
    if env.alloc .storage then (amRetGood, flatDevice env f pCap) else (amRetAllocErr, f)
  else (amRetAllocErr, f)

end Create

end AppMem.Device
