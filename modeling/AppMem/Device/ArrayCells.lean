import AppMem.Device.Virtd

/-! # Cells of a static array

Storage is allocated for as many values as there are elements, and the size may wrap around. The
accessors step by four bytes whatever the size of a value is.
-/
namespace AppMem.Device
open Library.Bytes Library.Checked Abi Memory Pack

section Accessors
variable {b : Build} {f : MemFunction} {fd : StataData} {p1 p2 : List UInt8}

def StataData.HasCell (fd : StataData) (idx : UInt32) : Prop := 4 * idx.toNat + 4 ≤ fd.data.length

theorem readIdx32_ok_iff (hf : f.pVdF = some (.stata fd)) (h1 : 4 ≤ p1.length) (p2 : List UInt8) :
    (∃ r, amStataReadIdx32 b f p1 p2 = .ok r) ↔ fd.HasCell (u32OfBytes p1) := by
  have hroom : 4 ≤ (fd.data.drop (4 * (u32OfBytes p1).toNat)).length ↔
      fd.HasCell (u32OfBytes p1) := by
    rw [List.length_drop, StataData.HasCell]
    omega
  rw [← hroom]
  simp only [amStataReadIdx32, stataAccess, hf, readU32_of_le h1, ok_bind, cellToUser, put32ToUser]
  by_cases h : 4 ≤ (fd.data.drop (4 * (u32OfBytes p1).toNat)).length
  · rw [readBytes_of_le h]
    exact iff_of_true ⟨_, rfl⟩ h
  · rw [readBytes_of_lt (Nat.not_le.mp h)]
    refine iff_of_false ?_ h
    rintro ⟨r, hr⟩
    cases hr

theorem writeIdx32_ok_iff (hf : f.pVdF = some (.stata fd)) (h1 : 4 ≤ p1.length)
    (h2 : 4 ≤ p2.length) :
    (∃ r, amStataWriteIdx32 b f p1 p2 = .ok r) ↔ fd.HasCell (u32OfBytes p1) := by
  have hget : ∃ v, get32FromUser b fd.flags p2 = .ok v := by
    rw [get32FromUser]
    split
    · exact ⟨_, readBytes_of_le h2⟩
    · exact ⟨_, rfl⟩
  obtain ⟨v, hv⟩ := hget
  simp only [amStataWriteIdx32, stataAccess, hf, readU32_of_le h1, ok_bind, cellFromUser, hv]
  by_cases h : 4 * (u32OfBytes p1).toNat + 4 ≤ fd.data.length
  · rw [require_of_true _ h]
    exact iff_of_true ⟨_, rfl⟩ h
  · rw [require_of_false _ h]
    refine iff_of_false ?_ h
    rintro ⟨r, hr⟩
    cases hr

/-- Both accessors find the cell of every index below the size of the array. -/
def CellsInside (b : Build) (f : MemFunction) : Prop :=
  ∃ fd, f.pVdF = some (.stata fd) ∧ ∀ p1 p2, 4 ≤ p1.length → 4 ≤ p2.length →
    (u32OfBytes p1).toUInt64 < fd.arraySize →
    (∃ r, amStataReadIdx32 b f p1 p2 = .ok r) ∧ ∃ r, amStataWriteIdx32 b f p1 p2 = .ok r

theorem cellsInside_iff_length (hf : f.pVdF = some (.stata fd)) :
    CellsInside b f ↔ 4 * min fd.arraySize.toNat (2 ^ 32) ≤ fd.data.length := by
  constructor
  · rintro ⟨fd', hfd', h⟩
    cases hf.symm.trans hfd'
    by_cases h0 : fd.arraySize.toNat = 0
    · rw [h0]
      exact Nat.zero_le _
    · -- the last index
      let idx := UInt32.ofNat (min fd.arraySize.toNat (2 ^ 32) - 1)
      have hidx : idx.toNat = min fd.arraySize.toNat (2 ^ 32) - 1 := by
        apply UInt32.toNat_ofNat_of_lt'
        change min fd.arraySize.toNat (2 ^ 32) - 1 < 2 ^ 32
        omega
      have hval : u32OfBytes (u32Bytes idx) = idx := by
        rw [u32OfBytes, List.take_of_length_le (length_u32Bytes idx).le]
        have hread := u32OfBytes_u32Bytes idx
        rwa [u32OfBytes, List.take_of_length_le (length_u32Bytes idx).le] at hread
      have hlt : (u32OfBytes (u32Bytes idx)).toUInt64 < fd.arraySize := by
        rw [hval, UInt64.lt_iff_toNat_lt, UInt32.toNat_toUInt64, hidx]
        omega
      have hread := (h (u32Bytes idx) (u32Bytes idx) (length_u32Bytes idx).ge
        (length_u32Bytes idx).ge hlt).1
      rw [readIdx32_ok_iff hf (length_u32Bytes idx).ge, hval, StataData.HasCell, hidx] at hread
      omega
  · intro h
    refine ⟨fd, hf, fun p1 p2 h1 h2 hlt => ?_⟩
    have hcell : fd.HasCell (u32OfBytes p1) := by
      rw [UInt64.lt_iff_toNat_lt, UInt32.toNat_toUInt64] at hlt
      have hidx := (u32OfBytes p1).toNat_lt
      rw [StataData.HasCell]
      omega
    exact ⟨(readIdx32_ok_iff hf h1 p2).mpr hcell, (writeIdx32_ok_iff hf h1 h2).mpr hcell⟩

end Accessors

section Creation
variable {b : Build} {env : Env} {pCap : AmMemCap} {g : MemFunction}

/-- The two ways to make a static array, with what they find. -/
inductive ArrayMaker
  | device (f : MemFunction)
  | virtd (entries : Registry) (minor : ℕ) (v : VirtdFunction)

namespace ArrayMaker

def Creates (env : Env) (pCap : AmMemCap) (g : MemFunction) : ArrayMaker → Prop
  | device f => amCreateStataDevice env f pCap = (amRetGood, g)
  | virtd entries minor v => pCap.amType = amTypeStaticArray ∧
    ∃ w, amVirtdCreateFunction env entries minor pCap v = .ok (amRetGood, w) ∧ w.func = g

/-- How many elements the function counts; the virtual device cuts the number to 32 bits. -/
def count (pCap : AmMemCap) : ArrayMaker → ℕ
  | device _ => pCap.maxSize.toNat
  | virtd _ _ _ => pCap.maxSize.toNat % 2 ^ 32

def allocated (pCap : AmMemCap) : ℕ :=
  (pCap.typeSpecific tsStatArrayValMaxSize).toNat * pCap.maxSize.toNat % 2 ^ 64

theorem Creates.data {m : ArrayMaker} (h : m.Creates env pCap g) :
    ∃ fd, g.pVdF = some (.stata fd) ∧ fd.arraySize.toNat = m.count pCap ∧
      fd.data.length = allocated pCap := by
  have halloc : amRetAllocErr ≠ amRetGood := by decide
  have hparam : amRetParamErr ≠ amRetGood := by decide
  have hsize : ((pCap.typeSpecific tsStatArrayValMaxSize).toUInt64 * pCap.maxSize).toNat =
      allocated pCap := by
    rw [UInt64.toNat_mul, UInt32.toNat_toUInt64, allocated]
  cases m with
  | device f =>
    simp only [Creates, amCreateStataDevice] at h
    split at h
    · split at h
      · cases h
        exact ⟨_, rfl, rfl, (Env.length_garbage env _).trans hsize⟩
      · exact absurd (congrArg Prod.fst h) halloc
    · exact absurd (congrArg Prod.fst h) halloc
  | virtd entries minor v =>
    obtain ⟨ht, w, h, rfl⟩ := h
    have hle : ¬ amTypeAssocArray < pCap.amType := by
      rw [ht]
      decide
    have hne : ¬ amTypeStaticArray = amTypeFlatMem := by decide
    rw [amVirtdCreateFunction, if_neg hle] at h
    split at h
    · simp only [virtdSwitch, ht, if_neg hne, if_true] at h
      split at h
      · cases h
        refine ⟨_, rfl, ?_, List.length_replicate.trans hsize⟩
        rw [count, virtdStataData, UInt32.toNat_toUInt64, UInt64.toNat_toUInt32]
      · exact absurd (congrArg Prod.fst (Except.ok.inj h)) halloc
    · exact absurd (congrArg Prod.fst (Except.ok.inj h)) hparam

end ArrayMaker

/-- Every index of a new array leads into its storage just when four bytes for each of them were
allocated. -/
theorem cellsInside_iff {m : ArrayMaker} (h : m.Creates env pCap g) :
    CellsInside b g ↔ 4 * min (m.count pCap) (2 ^ 32) ≤ ArrayMaker.allocated pCap := by
  obtain ⟨fd, hfd, hcount, hlen⟩ := h.data
  rw [cellsInside_iff_length hfd, hcount, hlen]

def fourElements (valueSize : UInt32) : AmMemCap :=
  { stataCaps with
    maxSize := 4
    typeSpecific := typeSpecifics [4, 1, valueSize, 1] }

theorem cellsInside_iff_words :
    CellsInside .user (stataDevice .zeroed (.blank 0) (fourElements 4)) ↔
      4 * min ((ArrayMaker.device (.blank 0)).count (fourElements 4)) (2 ^ 32) ≤
        ArrayMaker.allocated (fourElements 4) := by
  have hmade : (ArrayMaker.device (.blank 0)).Creates .zeroed (fourElements 4)
      (stataDevice .zeroed (.blank 0) (fourElements 4)) := rfl
  exact cellsInside_iff hmade

/-- Values of one byte are advertised, and the accessors take four. -/
theorem not_cellsInside : ¬ ∀ (b : Build) (env : Env) (pCap : AmMemCap) (m : ArrayMaker)
    (g : MemFunction), m.Creates env pCap g → CellsInside b g := by
  intro h
  have hbytes := h .user .zeroed (fourElements 1) (.device (.blank 0))
    (stataDevice .zeroed (.blank 0) (fourElements 1)) rfl
  have hdata : (stataDevice .zeroed (.blank 0) (fourElements 1)).pVdF =
      some (.stata (newStataData .zeroed (fourElements 1))) := rfl
  rw [cellsInside_iff_length hdata] at hbytes
  revert hbytes
  decide +kernel

end Creation

end AppMem.Device
