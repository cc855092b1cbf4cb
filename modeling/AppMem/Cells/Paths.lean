import AppMem.Cells.Sequences
import AppMem.Cells.Storage

/-! # The sizes of cells, and direct access

What is advertised for a flat memory or a static array, and what the accessors serve: values of
four bytes and indices of four or eight. With these the calls of the virtual device work on a
storage of cells; other sizes are advertised, and not served.
-/
namespace AppMem.Cells
open Library.Bytes Library.Checked Library.Cells Abi Memory Pack Device Assca

section Steps

/-- An operation through `fn->write_al` or `fn->read_al` of a function of the virtual device. -/
def virtdStep (env : Env) (v : VirtdFunction) : AsscaOp → Exec (VirtdFunction × AlignResult)
  | .write p1 p2 => do
    let r ← callAlign .user env (v.fn.bind FuncCalls.writeAl) v.func p1 p2
    return (⟨r.1, v.fn⟩, ⟨r.2.error, p2⟩)
  | .read p1 p2 => do
    let r ← callAlign .user env (v.fn.bind FuncCalls.readAl) v.func p1 p2
    let p2 ← writeBytes p2 r.2.out
    return (⟨r.1, v.fn⟩, ⟨r.2.error, p2⟩)

/-- Where the value of an index belongs, for values of `data` bytes. -/
def CellType.valueAt : CellType → ℕ → ℕ → ℕ
  | .flat, _, i => i
  | .stata, data, i => data * i

/-- The value of the index lies inside what was asked for. -/
def CellType.InRange : CellType → AmMemCap → ℕ → Prop
  | .flat, pCap, i => i + (pCap.typeSpecific tsFlatAddressByteSize).toNat ≤ pCap.maxSize.toNat
  | .stata, pCap, i => i < pCap.maxSize.toNat

structure Advertised (t : CellType) (pCap : AmMemCap) : Prop where
  type : pCap.amType = t.amType
  idxSize : t.idxSize pCap = 1 ∨ t.idxSize pCap = 2 ∨ t.idxSize pCap = 4 ∨ t.idxSize pCap = 8
  dataSize : 1 ≤ (t.dataSize pCap).toNat ∧ (t.dataSize pCap).toNat ≤ 1024
  maxSize : pCap.maxSize ≤ 1024 * 1024

def SizesServed (t : CellType) (pCap : AmMemCap) : Prop :=
  (t.idxSize pCap = 4 ∨ t.idxSize pCap = 8) ∧ t.dataSize pCap = 4

end Steps

section Indices
variable {t : CellType} {pCap : AmMemCap} {idx i : ℕ} {p1 : List UInt8}

/-- The first four bytes of an index hold all of it, when it is small. -/
theorem toNat_u32OfBytes (hidx : 4 ≤ idx) (h1 : idx ≤ p1.length)
    (hsmall : leVal (p1.take idx) < 2 ^ 32) : (u32OfBytes p1).toNat = leVal (p1.take idx) := by
  have hsplit : p1.take idx = p1.take 4 ++ (p1.drop 4).take (idx - 4) := by
    rw [← List.take_add, Nat.add_sub_cancel' hidx]
  have hlen : (p1.take 4).length = 4 := List.length_take_of_le (hidx.trans h1)
  have hval : leVal (p1.take idx) =
      leVal (p1.take 4) + 256 ^ 4 * leVal ((p1.drop 4).take (idx - 4)) := by
    rw [hsplit, leVal_append, hlen]
  have hhigh : leVal ((p1.drop 4).take (idx - 4)) = 0 := by
    rw [hval] at hsmall
    omega
  rw [hhigh, Nat.mul_zero, Nat.add_zero] at hval
  rw [u32OfBytes, UInt32.toNat_ofNat_of_lt' (hval ▸ hsmall), hval]

theorem u32OfBytes_congr {body : List UInt8} (hidx : 4 ≤ idx) (h : body.take idx = p1.take idx) :
    u32OfBytes body = u32OfBytes p1 := by
  have h4 := congrArg (List.take 4) h
  rw [List.take_take, List.take_take, Nat.min_eq_left hidx] at h4
  rw [u32OfBytes, u32OfBytes, h4]

/-- Nothing overflows in what is advertised. -/
theorem toNat_size (hadv : Advertised t pCap) : (t.size pCap).toNat =
    match t with
    | .flat => pCap.maxSize.toNat
    | .stata => (t.dataSize pCap).toNat * pCap.maxSize.toNat := by
  cases t with
  | flat => rfl
  | stata =>
    have hmax : pCap.maxSize.toNat ≤ 1024 * 1024 := UInt64.le_iff_toNat_le.mp hadv.maxSize
    have hdata := hadv.dataSize.2
    have hprod := Nat.mul_le_mul hdata hmax
    have hlt : (CellType.stata.dataSize pCap).toNat * pCap.maxSize.toNat < 2 ^ 64 := by omega
    change ((pCap.typeSpecific tsStatArrayValMaxSize).toUInt64 * pCap.maxSize).toNat = _
    rw [UInt64.toNat_mul, UInt32.toNat_toUInt64]
    exact Nat.mod_eq_of_lt hlt

theorem valueAt_le (hadv : Advertised t pCap) (hin : t.InRange pCap i) :
    t.valueAt (t.dataSize pCap).toNat i + (t.dataSize pCap).toNat ≤ (t.size pCap).toNat := by
  rw [toNat_size hadv]
  cases t with
  | flat => exact hin
  | stata =>
    have hlt : i + 1 ≤ pCap.maxSize.toNat := hin
    have hmul := Nat.mul_le_mul_left (CellType.stata.dataSize pCap).toNat hlt
    rw [Nat.mul_add_one] at hmul
    exact hmul

theorem inRange_small (hadv : Advertised t pCap) (hin : t.InRange pCap i) : i < 2 ^ 32 := by
  have hmax : pCap.maxSize.toNat ≤ 1024 * 1024 := UInt64.le_iff_toNat_le.mp hadv.maxSize
  cases t with
  | flat =>
    have hle : i + _ ≤ pCap.maxSize.toNat := hin
    omega
  | stata =>
    have hlt : i < pCap.maxSize.toNat := hin
    omega

theorem inRange_zero (hin : t.InRange pCap i) : t.InRange pCap 0 := by
  cases t with
  | flat => exact (Nat.add_le_add_right (Nat.zero_le i) _).trans hin
  | stata => exact (Nat.zero_le i).trans_lt hin

theorem cell_eq_valueAt (t : CellType) (i : ℕ) : t.cell i = t.valueAt 4 i := by
  cases t with
  | flat => rfl
  | stata => rfl

end Indices

section Works
variable {t : CellType} {pCap : AmMemCap} {env : Env}

theorem served_toNat (hs : SizesServed t pCap) :
    4 ≤ (t.idxSize pCap).toNat ∧ (t.idxSize pCap).toNat ≤ 8 ∧ (t.dataSize pCap).toNat = 4 := by
  obtain ⟨hidx, hdata⟩ := hs
  rw [hdata]
  rcases hidx with hidx | hidx
  · rw [hidx]
    decide
  · rw [hidx]
    decide

def VirtdHolds (t : CellType) (pCap : AmMemCap) (v : VirtdFunction) (mem : List UInt8) : Prop :=
  OnVirtd t pCap v ∧ t.storage v.func = some mem ∧ mem.length = (t.size pCap).toNat

theorem served_fits (hs : SizesServed t pCap) : sizeofWrapper + (t.idxSize pCap).toNat +
    (t.dataSize pCap).toNat ≤ maxBasicPackUnionSize := by
  obtain ⟨-, hidx8, hdata⟩ := served_toNat hs
  simp only [sizeofWrapper, maxBasicPackUnionSize]
  omega

section Room
variable {mem p1 : List UInt8}

theorem cell_place (hadv : Advertised t pCap) (hs : SizesServed t pCap)
    (h1 : (t.idxSize pCap).toNat ≤ p1.length)
    (hin : t.InRange pCap (leVal (p1.take (t.idxSize pCap).toNat)))
    (hlen : mem.length = (t.size pCap).toNat) :
    t.cell (u32OfBytes p1).toNat =
        place (t.valueAt (t.dataSize pCap).toNat) (p1.take (t.idxSize pCap).toNat) ∧
      t.cell (u32OfBytes p1).toNat + 4 ≤ mem.length := by
  obtain ⟨hidx, -, hdata⟩ := served_toNat hs
  have hroom := valueAt_le hadv hin
  have hnat := toNat_u32OfBytes hidx h1 (inRange_small hadv hin)
  have hcell : t.cell (u32OfBytes p1).toNat =
      place (t.valueAt (t.dataSize pCap).toNat) (p1.take (t.idxSize pCap).toNat) := by
    rw [cell_eq_valueAt, hnat, hdata, place]
  refine ⟨hcell, ?_⟩
  rw [hcell, hlen, place]
  rwa [hdata] at hroom ⊢

end Room

/-- Directly, every operation works on the storage. -/
theorem virtdStep_works (hadv : Advertised t pCap) (hs : SizesServed t pCap) :
    WorksOn (virtdStep env) (t.idxSize pCap).toNat (t.dataSize pCap).toNat
      (t.valueAt (t.dataSize pCap).toNat) (t.InRange pCap) (VirtdHolds t pCap) := by
  obtain ⟨hidx, -, hdata⟩ := served_toNat hs
  constructor
  · intro v mem i hv hin
    rw [hv.2.2]
    exact valueAt_le hadv hin
  · intro v mem p1 p2 ⟨hv, hmem, hlen⟩ hfit hin
    obtain ⟨hcell, hroom⟩ := cell_place hadv hs hfit.1 hin hlen
    have h1 : 4 ≤ p1.length := hidx.trans hfit.1
    have h2 : 4 ≤ p2.length := hdata ▸ hfit.2
    have hval : (p2.take 4).length = 4 := List.length_take_of_le h2
    have hwrite : callAlign .user env (v.fn.bind FuncCalls.writeAl) v.func p1 p2 = .ok
        (t.setStorage v.func (splice mem (t.cell (u32OfBytes p1).toNat) (p2.take 4)),
          { error := amRetGood }) := by
      rw [hv.writeAl]
      exact writeAl_eq hmem h1 h2 hroom
    have hlen' : (splice mem (t.cell (u32OfBytes p1).toNat) (p2.take 4)).length =
        (t.size pCap).toNat := by
      rw [length_splice (by rw [hval]; exact hroom), hlen]
    rw [hcell] at hwrite hlen'
    rw [virtdStep, hwrite]
    refine ⟨_, rfl, ?_⟩
    rw [hdata] at hlen' ⊢
    exact ⟨⟨hv.readAl, hv.writeAl, _, storage_setStorage hmem, hlen'⟩, storage_setStorage hmem,
      hlen'⟩
  · intro v mem p1 p2 ⟨hv, hmem, hlen⟩ hfit hin
    obtain ⟨hcell, hroom⟩ := cell_place hadv hs hfit.1 hin hlen
    have h1 : 4 ≤ p1.length := hidx.trans hfit.1
    have hread : callAlign .user env (v.fn.bind FuncCalls.readAl) v.func p1 p2 = .ok
        (v.func, {
          error := amRetGood
          out := window mem (t.cell (u32OfBytes p1).toNat) 4 }) := by
      rw [hv.readAl]
      exact readAl_eq hmem h1 hroom
    have hout : (window mem (t.cell (u32OfBytes p1).toNat) 4).length ≤ p2.length := by
      rw [length_window hroom, ← hdata]
      exact hfit.2
    refine ⟨v, ?_, hv, hmem, hlen⟩
    simp only [virtdStep, hread, ok_bind, writeBytes_of_le hout]
    rw [hcell, hdata]
    rfl

end Works

end AppMem.Cells
