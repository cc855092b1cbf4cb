import AppMem.Device.SortAgreement

/-! # The size of the merge buffer

The sort allocates its buffer once, for the whole range, and every merge of the recursion writes to
the front of it. The size and the middle of a range are computed in 32 bits.
-/
namespace AppMem.Device
open Library.Bytes Library.Checked Abi Memory

section Levels
variable {s e a b n : ℕ}

/-- The ranges that `am_stata_merge_sort` is called for, from the range of the sort on. -/
inductive Level (s e : ℕ) : ℕ → ℕ → Prop
  | top : Level s e s e
  | left {a b : ℕ} (h : Level s e a b) (hab : a < b) : Level s e a (midPtr a b 4)
  | right {a b : ℕ} (h : Level s e a b) (hab : a < b) : Level s e (midPtr a b 4 + 4) b

/-- `am_stata_merge` writes `n` bytes into the buffer for this range: given a storage that covers
the range, it comes back just when the buffer has them. -/
def MergeNeeds (a b n : ℕ) : Prop :=
  ∀ data buffer : List UInt8, b + 4 ≤ data.length →
    ((∃ r, amStataMerge data buffer a b (midPtr a b 4) 4 = .ok r) ↔ n ≤ buffer.length)

/-- A merge writes every element of its range once, wherever it takes the middle to be. -/
theorem mergeNeeds_elements (hab : a < b) : MergeNeeds a b (4 * ((b - a) / 4 + 1)) := by
  intro data buffer hdata
  constructor
  · rintro ⟨r, hr⟩
    have hbuf := (amStataMerge_inside hr hab.le).2
    rwa [runLength, if_pos hab.le] at hbuf
  · intro hbuf
    obtain ⟨hlo, hdvd, hhi⟩ := midPtr_element hab.le
    obtain ⟨m, hm⟩ := hdvd
    have hmid : midPtr a b 4 = a + 4 * m := by omega
    have hend : a + 4 * ((b - a) / 4) + (b - a) % 4 = b := by omega
    obtain ⟨d, buf, hmerge, -⟩ := amStataMerge_of_le data buffer a (q := (b - a) / 4) (m := m)
      (r := (b - a) % 4) (by omega) (Nat.mod_lt _ (by decide)) (by omega) (by omega)
    rw [hend] at hmerge
    exact ⟨(d, buf), by rw [hmid]; exact hmerge⟩

theorem MergeNeeds.eq {m : ℕ} (hm : MergeNeeds a b m) (hn : MergeNeeds a b n) : m = n := by
  have hall (k : ℕ) : m ≤ k ↔ n ≤ k := by
    have hdata : b + 4 ≤ (List.replicate (b + 4) (0 : UInt8)).length := List.length_replicate.ge
    have h := (hm _ (List.replicate k 0) hdata).symm.trans (hn _ (List.replicate k 0) hdata)
    rwa [List.length_replicate] at h
  exact Nat.le_antisymm ((hall n).mpr (Nat.le_refl n)) ((hall m).mp (Nat.le_refl m))

/-- Every level of the recursion lies inside the range of the sort. -/
theorem Level.inside (h : Level s e a b) : s ≤ a ∧ (a < b → b ≤ e) := by
  induction h with
  | top => exact ⟨Nat.le_refl s, fun _ => Nat.le_refl e⟩
  | @left a b _ hab ih =>
    obtain ⟨-, -, hhi⟩ := midPtr_element hab.le
    exact ⟨ih.1, fun _ => hhi.trans (ih.2 hab)⟩
  | @right a b _ hab ih =>
    obtain ⟨hlo, -, -⟩ := midPtr_element hab.le
    exact ⟨by omega, fun _ => ih.2 hab⟩

/-- The buffer has what every merge of a sort writes, and every middle is the middle element. -/
def BufferSuffices (s e : ℕ) : Prop :=
  ∀ a b, Level s e a b → a < b →
    (∃ n, MergeNeeds a b n ∧ n ≤ sizeMergeBytes s e 4) ∧
      midPtr a b 4 = a + 4 * ((b - a) / 4 / 2)

/-- For every range, of which the last element starts `e - s` bytes behind the first: its size in
bytes must be a 32-bit number. -/
theorem bufferSuffices_iff (hse : s < e) : BufferSuffices s e ↔ e - s + 4 < 2 ^ 32 := by
  constructor
  · intro h
    obtain ⟨⟨n, hn, hle⟩, -⟩ := h s e .top hse
    rw [hn.eq (mergeNeeds_elements hse), sizeMergeBytes] at hle
    omega
  · intro hsmall a b hlevel hab
    obtain ⟨hlo, hhi⟩ := hlevel.inside
    have hhi := hhi hab
    refine ⟨⟨_, mergeNeeds_elements hab, ?_⟩, midPtr_eq (by omega)⟩
    rw [sizeMergeBytes]
    omega

theorem bufferSuffices_iff_two : BufferSuffices 0 4 ↔ 4 - 0 + 4 < 2 ^ 32 :=
  bufferSuffices_iff (by decide)

/-- An array of 4 GiB: no byte is asked for. -/
theorem not_bufferSuffices : ¬ ∀ arraySize s e : ℕ, arraySize < 2 ^ 32 → s < e →
    e + 4 ≤ 4 * arraySize → BufferSuffices s e := by
  intro h
  have hwhole := h (2 ^ 30) 0 (2 ^ 32 - 4) (by decide) (by decide) (by decide)
  obtain ⟨⟨n, hn, hle⟩, -⟩ := hwhole 0 (2 ^ 32 - 4) .top (by decide)
  rw [hn.eq (mergeNeeds_elements (by decide))] at hle
  revert hle
  decide

end Levels

end AppMem.Device
