import AppMem.Assca.PacketPath
import AppMem.Device.Virtd

/-! # Functions that keep cells in a storage

Flat memories and static arrays, on the target and on the virtual device. Whatever sizes were asked
for, their accessors take an index of four bytes and move four bytes: at the index itself, or at
four times the index.
-/
namespace AppMem.Cells
open Library.Bytes Library.Checked Abi Memory Pack Device Assca

inductive CellType
  | flat
  | stata
  deriving DecidableEq, Repr

section Types

def CellType.amType : CellType → UInt32
  | .flat => amTypeFlatMem
  | .stata => amTypeStaticArray

/-- The sizes that creation takes from the capability; a flat memory has one for both. -/
def CellType.idxSize : CellType → AmMemCap → UInt32
  | .flat, pCap => pCap.typeSpecific tsFlatAddressByteSize
  | .stata, pCap => pCap.typeSpecific tsStatArrayIdxByteSize

def CellType.dataSize : CellType → AmMemCap → UInt32
  | .flat, pCap => pCap.typeSpecific tsFlatAddressByteSize
  | .stata, pCap => pCap.typeSpecific tsStatArrayValMaxSize

def CellType.size : CellType → AmMemCap → UInt64
  | .flat, pCap => pCap.maxSize
  | .stata, pCap => (pCap.typeSpecific tsStatArrayValMaxSize).toUInt64 * pCap.maxSize

def CellType.create : CellType → Env → MemFunction → AmMemCap → AmReturn × MemFunction
  | .flat => amCreateFlatDevice
  | .stata => amCreateStataDevice

def CellType.readAl : CellType → DeviceHandler
  | .flat => .amFlatRead32Align
  | .stata => .amStataReadIdx32

def CellType.writeAl : CellType → DeviceHandler
  | .flat => .amFlatWrite32Align
  | .stata => .amStataWriteIdx32

def CellType.cell : CellType → ℕ → ℕ
  | .flat, i => i
  | .stata, i => 4 * i

def CellType.storage (t : CellType) (f : MemFunction) : Option (List UInt8) :=
  match t, f.pVdF with
  | .flat, some (.flat fd) => some fd.data
  | .stata, some (.stata fd) => some fd.data
  | _, _ => none

def CellType.setStorage (t : CellType) (f : MemFunction) (mem : List UInt8) : MemFunction :=
  match t, f.pVdF with
  | .flat, some (.flat fd) => { f with pVdF := some (.flat { fd with data := mem }) }
  | .stata, some (.stata fd) => { f with pVdF := some (.stata { fd with data := mem }) }
  | _, _ => f

end Types

section Accessors
variable {t : CellType} {f : MemFunction} {mem mem' p1 p2 : List UInt8} {env : Env}

theorem storage_flat : CellType.flat.storage f = some mem ↔
    ∃ fd, f.pVdF = some (.flat fd) ∧ fd.data = mem := by
  unfold CellType.storage
  cases f.pVdF with
  | none => simp
  | some d =>
    cases d with
    | flat fd => simp
    | _ => simp

theorem storage_stata : CellType.stata.storage f = some mem ↔
    ∃ fd, f.pVdF = some (.stata fd) ∧ fd.data = mem := by
  unfold CellType.storage
  cases f.pVdF with
  | none => simp
  | some d =>
    cases d with
    | stata fd => simp
    | _ => simp

theorem setStorage_flat {fd : FlatData} (hfd : f.pVdF = some (.flat fd)) :
    CellType.flat.setStorage f mem = { f with pVdF := some (.flat { fd with data := mem }) } := by
  unfold CellType.setStorage
  rw [hfd]

theorem setStorage_stata {fd : StataData} (hfd : f.pVdF = some (.stata fd)) :
    CellType.stata.setStorage f mem =
      { f with pVdF := some (.stata { fd with data := mem }) } := by
  unfold CellType.setStorage
  rw [hfd]

theorem storage_setStorage (hf : t.storage f = some mem) :
    t.storage (t.setStorage f mem') = some mem' := by
  cases t with
  | flat =>
    obtain ⟨fd, hfd, -⟩ := storage_flat.mp hf
    rw [setStorage_flat hfd]
    rfl
  | stata =>
    obtain ⟨fd, hfd, -⟩ := storage_stata.mp hf
    rw [setStorage_stata hfd]
    rfl

theorem setStorage_same (t : CellType) (f : MemFunction) (mem : List UInt8) :
    (t.setStorage f mem).crResp = f.crResp ∧ (t.setStorage f mem).pfnOps = f.pfnOps := by
  unfold CellType.setStorage
  split
  · exact ⟨rfl, rfl⟩
  · exact ⟨rfl, rfl⟩
  · exact ⟨rfl, rfl⟩

theorem readAl_eq (hf : t.storage f = some mem) (h1 : 4 ≤ p1.length)
    (hin : t.cell (u32OfBytes p1).toNat + 4 ≤ mem.length) :
    invokeDevice .user env t.readAl (.align p1 p2) f = .ok (f, {
      error := amRetGood
      out := window mem (t.cell (u32OfBytes p1).toNat) 4 }) := by
  cases t with
  | flat =>
    obtain ⟨fd, hfd, rfl⟩ := storage_flat.mp hf
    refine flatAccess_eq_ok.mpr ⟨fd, fd, hfd, ?_, by rw [← hfd]⟩
    have hcell : cellToUser .user fd.flags fd.data (CellType.flat.cell (u32OfBytes p1).toNat) p2 =
        .ok _ := (cellToUser_eq_ok (Build.direct_user fd.flags)).mpr ⟨hin, rfl⟩
    rw [readU32_of_le h1, ok_bind]
    exact congrArg (· >>= _) hcell
  | stata =>
    obtain ⟨fd, hfd, rfl⟩ := storage_stata.mp hf
    refine stataAccess_eq_ok.mpr ⟨fd, fd, hfd, ?_, by rw [← hfd]⟩
    have hcell : cellToUser .user fd.flags fd.data (CellType.stata.cell (u32OfBytes p1).toNat) p2 =
        .ok _ := (cellToUser_eq_ok (Build.direct_user fd.flags)).mpr ⟨hin, rfl⟩
    rw [readU32_of_le h1, ok_bind]
    exact congrArg (· >>= _) hcell

theorem writeAl_eq (hf : t.storage f = some mem) (h1 : 4 ≤ p1.length) (h2 : 4 ≤ p2.length)
    (hin : t.cell (u32OfBytes p1).toNat + 4 ≤ mem.length) :
    invokeDevice .user env t.writeAl (.align p1 p2) f =
      .ok (t.setStorage f (splice mem (t.cell (u32OfBytes p1).toNat) (p2.take 4)),
        { error := amRetGood }) := by
  cases t with
  | flat =>
    obtain ⟨fd, hfd, rfl⟩ := storage_flat.mp hf
    have hcell := (cellFromUser_eq_ok (Build.direct_user fd.flags)).mpr ⟨h2, hin, rfl⟩
    refine flatAccess_eq_ok.mpr ⟨fd, _, hfd, ?_, setStorage_flat hfd⟩
    rw [readU32_of_le h1, ok_bind]
    exact congrArg (· >>= _) hcell
  | stata =>
    obtain ⟨fd, hfd, rfl⟩ := storage_stata.mp hf
    have hcell := (cellFromUser_eq_ok (Build.direct_user fd.flags)).mpr ⟨h2, hin, rfl⟩
    refine stataAccess_eq_ok.mpr ⟨fd, _, hfd, ?_, setStorage_stata hfd⟩
    rw [readU32_of_le h1, ok_bind]
    exact congrArg (· >>= _) hcell

/-- An index of fewer than four bytes is read beyond its end. -/
theorem writeAl_short (h1 : p1.length < 4) (r : MemFunction × Served) :
    invokeDevice .user env t.writeAl (.align p1 p2) f ≠ .ok r := by
  intro hw
  have hshort : ∀ idx, readU32 p1 ≠ .ok idx := by
    intro idx hidx
    exact absurd (readU32_eq_ok.mp hidx).1 (Nat.not_le.mpr h1)
  cases t with
  | flat =>
    obtain ⟨fd, fd', -, hop, -⟩ := flatAccess_eq_ok.mp hw
    rw [bind_eq_ok] at hop
    obtain ⟨idx, hidx, -⟩ := hop
    exact hshort idx hidx
  | stata =>
    obtain ⟨fd, fd', -, hop, -⟩ := stataAccess_eq_ok.mp hw
    rw [bind_eq_ok] at hop
    obtain ⟨idx, hidx, -⟩ := hop
    exact hshort idx hidx

theorem writeAl_shortValue (h2 : p2.length < 4) (r : MemFunction × Served) :
    invokeDevice .user env t.writeAl (.align p1 p2) f ≠ .ok r := by
  intro hw
  have hshort : ∀ flags mem off data, cellFromUser .user flags mem off p2 ≠ .ok data := by
    intro flags mem off data hdata
    exact absurd ((cellFromUser_eq_ok (Build.direct_user flags)).mp hdata).1 (Nat.not_le.mpr h2)
  cases t with
  | flat =>
    obtain ⟨fd, fd', -, hop, -⟩ := flatAccess_eq_ok.mp hw
    simp only [bind_eq_ok] at hop
    obtain ⟨idx, -, data, hdata, -⟩ := hop
    exact hshort _ _ _ _ hdata
  | stata =>
    obtain ⟨fd, fd', -, hop, -⟩ := stataAccess_eq_ok.mp hw
    simp only [bind_eq_ok] at hop
    obtain ⟨idx, -, data, hdata, -⟩ := hop
    exact hshort _ _ _ _ hdata

/-- A read moves four bytes, whatever the size of a value. -/
theorem readAl_length {g : MemFunction} {r : Served}
    (hr : invokeDevice .user env t.readAl (.align p1 p2) f = .ok (g, r)) : r.out.length = 4 := by
  cases t with
  | flat =>
    obtain ⟨fd, fd', -, hop, -⟩ := flatAccess_eq_ok.mp hr
    simp only [bind_eq_ok] at hop
    obtain ⟨idx, -, out, hout, hop⟩ := hop
    cases hop
    obtain ⟨hin, rfl⟩ := (cellToUser_eq_ok (Build.direct_user fd.flags)).mp hout
    exact length_window hin
  | stata =>
    obtain ⟨fd, fd', -, hop, -⟩ := stataAccess_eq_ok.mp hr
    simp only [bind_eq_ok] at hop
    obtain ⟨idx, -, out, hout, hop⟩ := hop
    cases hop
    obtain ⟨hin, rfl⟩ := (cellToUser_eq_ok (Build.direct_user fd.flags)).mp hout
    exact length_window hin

end Accessors

section Creation
variable {t : CellType} {env : Env} {pCap : AmMemCap} {f g : MemFunction}

/-- A function of the target as its creator leaves it, apart from the contents of its storage. -/
structure OnTarget (t : CellType) (pCap : AmMemCap) (f : MemFunction) : Prop where
  idxSize : f.crResp.idxSize = t.idxSize pCap
  dataSize : f.crResp.dataSize = t.dataSize pCap
  writeOp : f.pfnOps ⟨amOpWriteAlign.toNat, by decide⟩ = some t.writeAl
  readOp : f.pfnOps ⟨amOpReadAlign.toNat, by decide⟩ = some t.readAl
  acWrite : packAccess f.crResp (f.crResp.acOps acopWrite) =
    if f.crResp.dataSize = 4 ∧ f.crResp.idxSize = 4 then some .align32 else some .align
  acRead : packAccess f.crResp (f.crResp.acOps acopRead) =
    if f.crResp.dataSize = 4 ∧ f.crResp.idxSize = 4 then some .align32 else some .align
  room : ∃ mem, t.storage f = some mem ∧ mem.length = (t.size pCap).toNat

theorem packAccess_align {r : CrResp} {acOp : UInt32}
    (h : amNetGetPacktype acOp = amPackAlign.toUInt32) : packAccess r acOp =
      if r.dataSize = 4 ∧ r.idxSize = 4 then some .align32 else some .align := by
  rw [packAccess, if_pos (.inl h)]

theorem amNetGetPacktype_align : amNetGetPacktype (opWord amPackAlign amOpWriteAlign) =
    amPackAlign.toUInt32 ∧ amNetGetPacktype (opWord amPackAlign amOpReadAlign) =
      amPackAlign.toUInt32 := by
  decide

/-- Both creators succeed in one way only. -/
theorem onTarget_of_create (h : t.create env f pCap = (amRetGood, g)) : OnTarget t pCap g := by
  have halloc : amRetAllocErr ≠ amRetGood := by decide
  cases t with
  | flat =>
    change amCreateFlatDevice env f pCap = (amRetGood, g) at h
    unfold amCreateFlatDevice at h
    split at h
    · split at h
      · cases h
        constructor
        · rfl
        · rfl
        · rfl
        · rfl
        · exact packAccess_align amNetGetPacktype_align.1
        · exact packAccess_align amNetGetPacktype_align.2
        · refine ⟨_, rfl, ?_⟩
          simp only [newFlatData, CellType.size]
          split
          · exact Env.length_garbage _ _
          · exact List.length_replicate
      · exact absurd (congrArg Prod.fst h) halloc
    · exact absurd (congrArg Prod.fst h) halloc
  | stata =>
    change amCreateStataDevice env f pCap = (amRetGood, g) at h
    unfold amCreateStataDevice at h
    split at h
    · split at h
      · cases h
        constructor
        · rfl
        · rfl
        · rfl
        · rfl
        · exact packAccess_align amNetGetPacktype_align.1
        · exact packAccess_align amNetGetPacktype_align.2
        · exact ⟨_, rfl, Env.length_garbage _ _⟩
      · exact absurd (congrArg Prod.fst h) halloc
    · exact absurd (congrArg Prod.fst h) halloc

theorem OnTarget.setStorage (h : OnTarget t pCap f) {mem : List UInt8}
    (hlen : mem.length = (t.size pCap).toNat) : OnTarget t pCap (t.setStorage f mem) := by
  obtain ⟨hcr, hops⟩ := setStorage_same t f mem
  obtain ⟨old, hold, -⟩ := h.room
  constructor
  · rw [hcr]
    exact h.idxSize
  · rw [hcr]
    exact h.dataSize
  · rw [hops]
    exact h.writeOp
  · rw [hops]
    exact h.readOp
  · rw [hcr]
    exact h.acWrite
  · rw [hcr]
    exact h.acRead
  · exact ⟨mem, storage_setStorage hold, hlen⟩

/-- A function of the virtual device, apart from the contents of its storage. -/
structure OnVirtd (t : CellType) (pCap : AmMemCap) (v : VirtdFunction) : Prop where
  readAl : v.fn.bind FuncCalls.readAl = some t.readAl
  writeAl : v.fn.bind FuncCalls.writeAl = some t.writeAl
  room : ∃ mem, t.storage v.func = some mem ∧ mem.length = (t.size pCap).toNat

/-- The virtual device stores the same accessors in the calls of the client. -/
theorem onVirtd_of_create {entries : Registry} {minor : ℕ} {calls : FuncCalls} {v : VirtdFunction}
    (ht : pCap.amType = t.amType)
    (h : amVirtdCreateFunction env entries minor pCap ⟨f, some calls⟩ = .ok (amRetGood, v)) :
    OnVirtd t pCap v := by
  have hparam : amRetParamErr ≠ amRetGood := by decide
  have halloc : amRetAllocErr ≠ amRetGood := by decide
  have hty : ¬ amTypeAssocArray < pCap.amType := by
    rw [ht]
    cases t with
    | flat => decide
    | stata => decide
  have hne : amTypeStaticArray ≠ amTypeFlatMem := by decide
  rw [amVirtdCreateFunction, if_neg hty] at h
  split at h
  · rw [virtdSwitch, ht] at h
    cases t with
    | flat =>
      rw [CellType.amType, if_pos rfl] at h
      split at h
      · cases h
        refine ⟨rfl, rfl, _, rfl, ?_⟩
        simp only [newFlatData, CellType.size]
        split
        · exact Env.length_garbage _ _
        · exact List.length_replicate
      · exact absurd (congrArg Prod.fst (Except.ok.inj h)) halloc
    | stata =>
      rw [CellType.amType, if_neg hne, if_pos rfl] at h
      split at h
      · cases h
        exact ⟨rfl, rfl, _, rfl, List.length_replicate⟩
      · exact absurd (congrArg Prod.fst (Except.ok.inj h)) halloc
  · exact absurd (congrArg Prod.fst (Except.ok.inj h)) hparam

end Creation

end AppMem.Cells
