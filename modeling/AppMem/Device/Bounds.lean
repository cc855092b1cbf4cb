import AppMem.Device.Virtd

/-! # Accesses outside the storage

Neither flat memory nor static arrays compare an index with the size of the storage. An
access goes through a table of operations, through a packet or through the calls of a
virtual function; what the interface promises, and what the accessors do.
-/
namespace AppMem.Device
open Library.Bytes Library.Checked Abi Memory Pack

/-- The two kinds of function with cells of four bytes. -/
inductive CellKind
  | flat
  | stata
  deriving DecidableEq, Repr

namespace CellKind

def read : CellKind → DeviceHandler
  | flat => .amFlatRead32Align
  | stata => .amStataReadIdx32

def write : CellKind → DeviceHandler
  | flat => .amFlatWrite32Align
  | stata => .amStataWriteIdx32

def Fits : CellKind → Option FuncData → Prop
  | flat, pVdF => ∃ fd, pVdF = some (.flat fd)
  | stata, pVdF => ∃ fd, pVdF = some (.stata fd)

/-- `am_create_flat_device` and `am_create_stata_device`. -/
def create : CellKind → Creator
  | flat => amCreateFlatDevice
  | stata => amCreateStataDevice

def amType : CellKind → UInt32
  | flat => amTypeFlatMem
  | stata => amTypeStaticArray

def calls : CellKind → FuncCalls → FuncCalls
  | flat => virtdFlatCalls
  | stata => virtdStataCalls

end CellKind

section Functions

/-- A device function after its creation and any calls of its handlers since. -/
inductive DeviceCell (k : CellKind) : MemFunction → Prop
  | create {env : Env} {f₀ f : MemFunction} {pCap : AmMemCap}
    (h : k.create env f₀ pCap = (amRetGood, f)) : DeviceCell k f
  | call {b : Build} {env : Env} {h : DeviceHandler} {c : PackCall} {f g : MemFunction} {r : Served}
    (hf : DeviceCell k f) (h : invokeDevice b env h c f = .ok (g, r)) : DeviceCell k g
  | map {f : MemFunction} (hf : DeviceCell k f) : DeviceCell k f.setMapped

inductive VirtdCell (k : CellKind) : VirtdFunction → Prop
  | create {env : Env} {entries : Registry} {minor : ℕ} {v₀ v : VirtdFunction} {pCap : AmMemCap}
    (ht : pCap.amType = k.amType)
    (h : amVirtdCreateFunction env entries minor pCap v₀ = .ok (amRetGood, v)) : VirtdCell k v
  | call {b : Build} {env : Env} {h : DeviceHandler} {c : PackCall} {v : VirtdFunction}
    {g : MemFunction} {r : Served} (hv : VirtdCell k v)
    (h : invokeDevice b env h c v.func = .ok (g, r)) : VirtdCell k { v with func := g }

def FuncData.OutOfRange : FuncData → UInt32 → Prop
  | .flat fd, offset => fd.size.toNat < offset.toNat + 4
  | .stata fd, idx => fd.arraySize ≤ idx.toUInt64 ∨ fd.data.length < 4 * idx.toNat + 4
  | _, _ => False

end Functions

/-- A read or a write of one cell, with the route it takes: a handler of the table, a packet, an
aligned call of a virtual function, or a call with lengths. -/
inductive Access
  | handler (b : Build) (env : Env) (f : MemFunction) (write : Bool) (p1 p2 : List UInt8)
  | packet (b : Build) (env : Env) (f : MemFunction) (rxBuf : PackAll) (resp : PackResp)
    (stale : UInt32)
  | virtdAlign (env : Env) (v : VirtdFunction) (write : Bool) (p1 p2 : List UInt8)
  | virtdLength (v : VirtdFunction) (write : Bool) (p1 p2 : List UInt8)

namespace Access

def func : Access → MemFunction
  | handler _ _ f _ _ _ => f
  | packet _ _ f _ _ _ => f
  | virtdAlign _ v _ _ _ => v.func
  | virtdLength v _ _ _ => v.func

def indexBuf : Access → List UInt8
  | handler _ _ _ _ p1 _ => p1
  | packet _ _ _ rxBuf _ _ => rxBuf.body
  | virtdAlign _ _ _ p1 _ => p1
  | virtdLength _ _ p1 _ => p1

def opOf (write : Bool) : UInt8 := if write then amOpWriteAlign else amOpReadAlign

def alignCall (v : VirtdFunction) (write : Bool) : Option DeviceHandler :=
  v.fn.bind fun c => if write then c.writeAl else c.readAl

def lengthCall (v : VirtdFunction) (write : Bool) : Option LengthFn :=
  v.fn.bind fun c => if write then c.write else c.read

/-- What the access answers, what it reads for the caller, and the function afterwards. -/
def result : Access → Exec (MemFunction × AmReturn × List UInt8)
  | handler b env f write p1 p2 => do
    match f.pfnOps ⟨(opOf write).toNat, by cases write <;> decide⟩ with
    | none => throw .nullPointer
    | some h =>
      let r ← invokeDevice b env h (.align p1 p2) f
      return (r.1, r.2.error, r.2.out)
  | packet b env f rxBuf resp stale => do
    let r ← processDevice b env f rxBuf resp stale
    return (r.1, r.2.error, if r.2.error = amRetGood then r.2.resp.body else [])
  | virtdAlign env v write p1 p2 => do
    let r ← callAlign .user env (alignCall v write) v.func p1 p2
    return (r.1, r.2.error, r.2.out)
  | virtdLength v write _ _ => do
    let r ← callLength (lengthCall v write) v.func
    return (r.1, r.2.error, r.2.out)

/-- The function was made for cells of this kind, and the request is a read or a write. -/
def Valid (k : CellKind) (a : Access) : Prop :=
  4 ≤ a.indexBuf.length ∧
  match a with
  | handler _ _ f _ _ _ => DeviceCell k f
  | packet _ _ f rxBuf _ _ =>
    DeviceCell k f ∧ (rxBuf.wrap.op = amOpReadAlign ∨ rxBuf.wrap.op = amOpWriteAlign) ∧
      (rxBuf.wrap.packType = amPackAlign ∨ rxBuf.wrap.packType = amKpack)
  | virtdAlign _ v _ _ _ => VirtdCell k v ∧ v.fn.isSome
  | virtdLength v _ _ _ => VirtdCell k v ∧ v.fn.isSome

def OutOfRange (a : Access) : Prop :=
  ∃ d, a.func.pVdF = some d ∧ d.OutOfRange (u32OfBytes a.indexBuf)

/-- An error, nothing read, nothing changed. -/
def Refused (a : Access) : Prop :=
  ∃ e, a.result = .ok (a.func, e, []) ∧ e ≠ amRetGood

/-- The access goes through `am_flat_read32` or `am_flat_write32`. -/
def ThroughStub (k : CellKind) : Access → Prop
  | virtdLength _ _ _ _ => k = .flat
  | _ => False

end Access

section Kinds

theorem CellKind.fits_same {k : CellKind} {f g : MemFunction} (h : SameFunction f g)
    (hk : k.Fits f.pVdF) : k.Fits g.pVdF := by
  cases k with
  | flat =>
    rcases hk with ⟨fd, hfd⟩
    exact h.flat fd hfd
  | stata =>
    rcases hk with ⟨fd, hfd⟩
    exact h.stata fd hfd

/-- A creator that succeeds stores the accessors of its kind. -/
theorem CellKind.create_spec {k : CellKind} {env : Env} {f₀ f : MemFunction} {pCap : AmMemCap}
    (h : k.create env f₀ pCap = (amRetGood, f)) :
    k.Fits f.pVdF ∧ ∀ write, f.pfnOps ⟨(Access.opOf write).toNat, by cases write <;> decide⟩ =
      some (if write then k.write else k.read) := by
  cases k with
  | flat =>
    simp only [create, amCreateFlatDevice] at h
    split at h
    · split at h
      · cases h
        refine ⟨⟨_, rfl⟩, fun write => ?_⟩
        cases write <;> rfl
      · cases h
    · cases h
  | stata =>
    simp only [create, amCreateStataDevice] at h
    split at h
    · split at h
      · cases h
        refine ⟨⟨_, rfl⟩, fun write => ?_⟩
        cases write <;> rfl
      · cases h
    · cases h

theorem DeviceCell.spec {k : CellKind} {f : MemFunction} (h : DeviceCell k f) :
    k.Fits f.pVdF ∧ ∀ write, f.pfnOps ⟨(Access.opOf write).toNat, by cases write <;> decide⟩ =
      some (if write then k.write else k.read) := by
  induction h with
  | create h => exact CellKind.create_spec h
  | call hf h ih =>
    have hs := invokeDevice_same h
    refine ⟨CellKind.fits_same hs ih.1, fun write => ?_⟩
    rw [hs.rest]
    exact ih.2 write
  | map hf ih =>
    refine ⟨?_, ih.2⟩
    cases k with
    | flat =>
      rcases ih.1 with ⟨fd, hfd⟩
      exact ⟨_, congrArg (Option.map FuncData.setMapped) hfd⟩
    | stata =>
      rcases ih.1 with ⟨fd, hfd⟩
      exact ⟨_, congrArg (Option.map FuncData.setMapped) hfd⟩

theorem virtdSwitch_spec {k : CellKind} {env : Env} {pCap : AmMemCap} {fn : Option FuncCalls}
    (ht : pCap.amType = k.amType) (h : (virtdSwitch env pCap fn).1 = amRetGood) :
    k.Fits (some (virtdSwitch env pCap fn).2.1) ∧
      (virtdSwitch env pCap fn).2.2 = fn.map k.calls := by
  cases k with
  | flat =>
    simp only [CellKind.amType] at ht
    simp only [virtdSwitch, ht, if_true] at h ⊢
    split
    · exact ⟨⟨_, rfl⟩, rfl⟩
    · rename_i hs
      rw [if_neg hs] at h
      cases h
  | stata =>
    have hne : ¬ amTypeStaticArray = amTypeFlatMem := by decide
    simp only [CellKind.amType] at ht
    simp only [virtdSwitch, ht, if_neg hne, if_true] at h ⊢
    split
    · exact ⟨⟨_, rfl⟩, rfl⟩
    · rename_i hs
      rw [if_neg hs] at h
      cases h

theorem VirtdCell.spec {k : CellKind} {v : VirtdFunction} (h : VirtdCell k v) :
    k.Fits v.func.pVdF ∧ ∀ c, v.fn = some c → ∃ c₀, c = k.calls c₀ := by
  induction h with
  | @create env entries minor v₀ v pCap ht h =>
    have hle : ¬ amTypeAssocArray < pCap.amType := by
      rw [ht]
      cases k <;> decide
    rw [amVirtdCreateFunction, if_neg hle] at h
    split at h
    · simp only [Except.ok.injEq, Prod.mk.injEq] at h
      rcases h with ⟨hgood, rfl⟩
      obtain ⟨hfits, hcalls⟩ := virtdSwitch_spec ht hgood
      refine ⟨hfits, fun c hc => ?_⟩
      rw [hcalls, Option.map_eq_some_iff] at hc
      rcases hc with ⟨c₀, -, rfl⟩
      exact ⟨c₀, rfl⟩
    · cases h
  | call hv h ih => exact ⟨CellKind.fits_same (invokeDevice_same h) ih.1, ih.2⟩

end Kinds

section Accessors
variable {b : Build} {env : Env} {k : CellKind} {f g : MemFunction} {p1 p2 : List UInt8}
  {r : Served}

theorem CellKind.read_good (h : invokeDevice b env k.read (.align p1 p2) f = .ok (g, r)) :
    r.error = amRetGood := by
  cases k with
  | flat =>
    rcases flatAccess_eq_ok.mp h with ⟨_, _, _, hop, _⟩
    simp only [bind_eq_ok] at hop
    rcases hop with ⟨_, _, _, _, hop⟩
    cases hop
    rfl
  | stata =>
    rcases stataAccess_eq_ok.mp h with ⟨_, _, _, hop, _⟩
    simp only [bind_eq_ok] at hop
    rcases hop with ⟨_, _, _, _, hop⟩
    cases hop
    rfl

theorem CellKind.write_good (h : invokeDevice b env k.write (.align p1 p2) f = .ok (g, r)) :
    r.error = amRetGood := by
  cases k with
  | flat =>
    rcases flatAccess_eq_ok.mp h with ⟨_, _, _, hop, _⟩
    simp only [bind_eq_ok] at hop
    rcases hop with ⟨_, _, _, _, hop⟩
    cases hop
    rfl
  | stata =>
    rcases stataAccess_eq_ok.mp h with ⟨_, _, _, hop, _⟩
    simp only [bind_eq_ok] at hop
    rcases hop with ⟨_, _, _, _, hop⟩
    cases hop
    rfl

theorem CellKind.cell_good {write : Bool}
    (h : invokeDevice b env (if write then k.write else k.read) (.align p1 p2) f = .ok (g, r)) :
    r.error = amRetGood := by
  cases write with
  | false => exact read_good h
  | true => exact write_good h

theorem DeviceCell.packet_good {rxBuf : PackAll} {resp : PackResp} {stale : UInt32}
    {p : Processed} (hf : DeviceCell k f)
    (hop : rxBuf.wrap.op = amOpReadAlign ∨ rxBuf.wrap.op = amOpWriteAlign)
    (ht : rxBuf.wrap.packType = amPackAlign ∨ rxBuf.wrap.packType = amKpack)
    (h : processDevice b env f rxBuf resp stale = .ok (g, p)) : p.error = amRetGood := by
  obtain ⟨write, hw⟩ : ∃ write, rxBuf.wrap.op = Access.opOf write := by
    rcases hop with hop | hop
    · exact ⟨false, hop⟩
    · exact ⟨true, hop⟩
  have hlt : rxBuf.wrap.op.toNat < amOpMaxOps := by
    rw [hw]
    cases write <;> decide
  have hslot : f.hdr.pfnOps ⟨_, hlt⟩ = some (if write then k.write else k.read) := by
    simp only [hw]
    exact hf.spec.2 write
  obtain ⟨q1, q2, tx, hcall⟩ :
      ∃ q1 q2 tx, f.hdr.packCall rxBuf (echoWrap rxBuf resp) = some (.align q1 q2, tx) := by
    rw [FuncHdr.packCall, if_pos ht.symm]
    split
    · exact ⟨_, _, _, rfl⟩
    · exact ⟨_, _, _, rfl⟩
  have hsel : amPackSelect (some f.hdr) rxBuf (echoWrap rxBuf resp) =
      .ok (.call (if write then k.write else k.read) (.align q1 q2) tx) := by
    simp only [amPackSelect, f.hdr.slot_of_lt hlt, hslot, hcall, ok_bind]
    rfl
  rw [processDevice, amPackProcessCmd_call hsel, bind_eq_ok] at h
  rcases h with ⟨⟨f', r'⟩, hr, h⟩
  rw [bind_eq_ok] at h
  rcases h with ⟨_, -, h⟩
  have hgood : r'.error = amRetGood := CellKind.cell_good hr
  rw [hgood] at h
  cases h
  rfl

end Accessors

namespace Access
variable {k : CellKind} {a : Access}

/-- An access that reaches an accessor is never refused. -/
theorem not_refused_of_good (h : ∀ g e out, a.result = .ok (g, e, out) → e = amRetGood) :
    ¬ a.Refused := by
  rintro ⟨e, he, hne⟩
  exact hne (h _ _ _ he)

/-- An access outside the storage is refused exactly when it goes through the two calls of flat
memory that refuse everything. -/
theorem refused_iff (hv : a.Valid k) (ho : a.OutOfRange) : a.Refused ↔ a.ThroughStub k := by
  rcases hv with ⟨-, hv⟩
  cases a with
  | handler b env f write p1 p2 =>
    refine iff_of_false (not_refused_of_good fun g e out h => ?_) id
    simp only [result, hv.spec.2 write, bind_eq_ok] at h
    rcases h with ⟨⟨g', r⟩, hr, h⟩
    cases h
    exact CellKind.cell_good hr
  | packet b env f rxBuf resp stale =>
    refine iff_of_false (not_refused_of_good fun g e out h => ?_) id
    simp only [result, bind_eq_ok] at h
    rcases h with ⟨⟨g', p⟩, hp, h⟩
    cases h
    exact hv.1.packet_good hv.2.1 hv.2.2 hp
  | virtdAlign env v write p1 p2 =>
    refine iff_of_false (not_refused_of_good fun g e out h => ?_) id
    obtain ⟨c, hc⟩ := Option.isSome_iff_exists.mp hv.2
    obtain ⟨c₀, rfl⟩ := hv.1.spec.2 c hc
    have hcall : alignCall v write = some (if write then k.write else k.read) := by
      rw [alignCall, hc]
      cases k <;> cases write <;> rfl
    simp only [result, callAlign, hcall, bind_eq_ok] at h
    rcases h with ⟨⟨g', r⟩, hr, h⟩
    cases h
    exact CellKind.cell_good hr
  | virtdLength v write p1 p2 =>
    obtain ⟨c, hc⟩ := Option.isSome_iff_exists.mp hv.2
    obtain ⟨c₀, rfl⟩ := hv.1.spec.2 c hc
    cases k with
    | flat =>
      have hcall : callLength (lengthCall v write) v.func =
          .ok (v.func, { error := amRetIoErr }) := by
        rw [lengthCall, hc]
        cases write <;> rfl
      refine iff_of_true ⟨amRetIoErr, ?_, by decide⟩ rfl
      simp only [result, hcall, ok_bind]
      rfl
    | stata =>
      have hcall : callLength (lengthCall v write) v.func = .error .nullPointer := by
        rw [lengthCall, hc]
        cases write <;> rfl
      refine iff_of_false ?_ (by simp [ThroughStub])
      rintro ⟨e, he, -⟩
      simp only [result, hcall] at he
      cases he

def pairCap : AmMemCap where
  amType := amTypeStaticArray
  maxSize := 2
  subType := 1
  functionCount := 0
  accessFlags := 0
  typeSpecific := typeSpecifics [4, 1, 8, 1]
  acOps := fun _ => 0

def readThird : Access :=
  .handler .user .zeroed (stataDevice .zeroed (.blank 0xAA01) pairCap) false [3, 0, 0, 0]
    [0, 0, 0, 0]

theorem readThird_valid : readThird.Valid .stata := by
  have hcreate : CellKind.stata.create .zeroed (.blank 0xAA01) pairCap =
      (amRetGood, stataDevice .zeroed (.blank 0xAA01) pairCap) := rfl
  exact ⟨by decide, .create hcreate⟩

theorem readThird_outOfRange : readThird.OutOfRange := ⟨_, rfl, .inl (by decide)⟩

/-- The array has no element 3, but its storage has the bytes. -/
theorem refused_iff_third : readThird.Refused ↔ readThird.ThroughStub .stata :=
  refused_iff readThird_valid readThird_outOfRange

theorem not_outOfRange_refused :
    ¬ ∀ (k : CellKind) (a : Access), a.Valid k → a.OutOfRange → a.Refused := by
  intro h
  obtain ⟨e, he, hne⟩ := h .stata readThird readThird_valid readThird_outOfRange
  have hgood : readThird.result.map (fun r => r.2.1) = .ok amRetGood := by decide +kernel
  rw [he] at hgood
  cases hgood
  exact hne rfl

end Access

end AppMem.Device
