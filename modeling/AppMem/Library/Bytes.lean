import Mathlib.Data.Nat.Digits.Lemmas
import Mathlib.Tactic.Common

/-! # Windows of a list and little-endian words

A memory object is a list of cells. `window` reads a run of consecutive cells and
`splice` overwrites one; a splice inside the list keeps the length, is read back
unchanged, and is invisible to every window beside it. Words are stored least
significant byte first.
-/
namespace AppMem.Library.Bytes

section Windows
variable {α : Type*}

/-- The `len` cells from position `off` on. -/
def window (l : List α) (off len : ℕ) : List α := (l.drop off).take len

/-- Overwrite the cells from position `off` on with `src`. -/
def splice (dst : List α) (off : ℕ) (src : List α) : List α :=
  dst.take off ++ src ++ dst.drop (off + src.length)

@[simp] theorem window_zero (l : List α) (len : ℕ) : window l 0 len = l.take len := rfl

theorem length_window {l : List α} {off len : ℕ} (h : off + len ≤ l.length) :
    (window l off len).length = len := by
  simp only [window, List.length_take, List.length_drop]
  omega

@[simp] theorem splice_zero (dst src : List α) : splice dst 0 src = src ++ dst.drop src.length := by
  simp [splice]

@[simp] theorem splice_nil (dst : List α) (off : ℕ) : splice dst off [] = dst := by
  simp [splice]

theorem length_splice {dst : List α} {off : ℕ} {src : List α}
    (h : off + src.length ≤ dst.length) : (splice dst off src).length = dst.length := by
  simp only [splice, List.length_append, List.length_take, List.length_drop]
  omega

theorem getElem?_splice {dst : List α} {off : ℕ} {src : List α}
    (h : off + src.length ≤ dst.length) (i : ℕ) :
    (splice dst off src)[i]? =
      if off ≤ i ∧ i < off + src.length then src[i - off]? else dst[i]? := by
  have hl : (dst.take off).length = off := by
    simp only [List.length_take]
    omega
  simp only [splice, List.append_assoc, List.getElem?_append, hl, List.getElem?_drop]
  by_cases hlo : i < off
  · simp [hlo, Nat.not_le.mpr hlo]
  · by_cases hhi : i < off + src.length
    · have : i - off < src.length := by omega
      simp [hlo, hhi, this, Nat.not_lt.mp hlo]
    · have hn : ¬ i - off < src.length := by omega
      have hi : off + src.length + (i - off - src.length) = i := by omega
      simp [hlo, hhi, hn, hi]

theorem getElem?_window (l : List α) (off len i : ℕ) :
    (window l off len)[i]? = if i < len then l[off + i]? else none := by
  simp only [window, List.getElem?_take, List.getElem?_drop]

theorem window_splice {dst : List α} {off : ℕ} {src : List α}
    (h : off + src.length ≤ dst.length) : window (splice dst off src) off src.length = src := by
  apply List.ext_getElem?
  intro i
  rw [getElem?_window, getElem?_splice h]
  by_cases hi : i < src.length
  · simp [hi]
  · simp [hi]

/-- A window beside the written cells is unchanged. -/
theorem window_splice_of_disjoint {dst : List α} {off : ℕ} {src : List α}
    (h : off + src.length ≤ dst.length) {pos len : ℕ}
    (hd : pos + len ≤ off ∨ off + src.length ≤ pos) :
    window (splice dst off src) pos len = window dst pos len := by
  apply List.ext_getElem?
  intro i
  rw [getElem?_window, getElem?_window, getElem?_splice h]
  by_cases hi : i < len
  · have hn : ¬ (off ≤ pos + i ∧ pos + i < off + src.length) := by omega
    rw [if_pos hi, if_pos hi, if_neg hn]
  · simp [hi]

theorem window_append (l : List α) (off m n : ℕ) :
    window l off m ++ window l (off + m) n = window l off (m + n) := by
  rw [window, window, window, List.take_add, List.drop_drop]

theorem window_append_left {a : List α} (b : List α) {off len : ℕ} (h : off + len ≤ a.length) :
    window (a ++ b) off len = window a off len := by
  rw [window, window, List.drop_append_of_le_length (by omega), List.take_append_of_le_length]
  rw [List.length_drop]
  omega

theorem window_take (l : List α) {off len n : ℕ} (h : off + len ≤ n) :
    window (l.take n) off len = window l off len := by
  rw [window, window, List.drop_take, List.take_take, Nat.min_eq_left (by omega)]

theorem drop_splice {dst : List α} {off : ℕ} {src : List α} {pos : ℕ}
    (h : off + src.length ≤ dst.length) (hp : off + src.length ≤ pos) :
    (splice dst off src).drop pos = dst.drop pos := by
  apply List.ext_getElem?
  intro i
  have hn : ¬ (off ≤ pos + i ∧ pos + i < off + src.length) := by omega
  rw [List.getElem?_drop, List.getElem?_drop, getElem?_splice h, if_neg hn]

theorem splice_splice_append {dst : List α} {off : ℕ} {a b : List α}
    (h : off + a.length + b.length ≤ dst.length) :
    splice (splice dst off a) (off + a.length) b = splice dst off (a ++ b) := by
  have ha : off + a.length ≤ dst.length := by omega
  have hb : off + a.length + b.length ≤ (splice dst off a).length := by rwa [length_splice ha]
  have hab : off + (a ++ b).length ≤ dst.length := by
    rw [List.length_append]
    omega
  apply List.ext_getElem?
  intro i
  rw [getElem?_splice hb, getElem?_splice ha, getElem?_splice hab, List.length_append,
    List.getElem?_append]
  by_cases hi : off ≤ i ∧ i < off + (a.length + b.length)
  · rw [if_pos hi]
    by_cases hfirst : i - off < a.length
    · rw [if_neg (by omega), if_pos (by omega), if_pos hfirst]
    · rw [if_pos (by omega), if_neg hfirst, Nat.sub_add_eq]
  · rw [if_neg hi, if_neg (by omega), if_neg (by omega)]

/-- What is written over is lost. -/
theorem splice_splice_cover {dst : List α} {off pos : ℕ} {a b : List α}
    (h : off + a.length ≤ dst.length) (hlo : off ≤ pos) (hhi : pos + b.length ≤ off + a.length) :
    splice (splice dst pos b) off a = splice dst off a := by
  have hb : pos + b.length ≤ dst.length := hhi.trans h
  have ha : off + a.length ≤ (splice dst pos b).length := by rwa [length_splice hb]
  apply List.ext_getElem?
  intro i
  rw [getElem?_splice ha, getElem?_splice h, getElem?_splice hb]
  by_cases hi : off ≤ i ∧ i < off + a.length
  · rw [if_pos hi, if_pos hi]
  · rw [if_neg hi, if_neg hi, if_neg (by omega)]

theorem splice_window (l : List α) (off len : ℕ) : splice l off (window l off len) = l := by
  rw [splice, window, List.append_assoc, ← List.drop_drop]
  have htake : (l.drop off).take len ++ (l.drop off).drop ((l.drop off).take len).length =
      l.drop off := by
    rw [List.length_take]
    by_cases h : len ≤ (l.drop off).length
    · rw [Nat.min_eq_left h, List.take_append_drop]
    · rw [Nat.min_eq_right (Nat.not_le.mp h).le, List.take_of_length_le (Nat.not_le.mp h).le,
        List.drop_length, List.append_nil]
  rw [htake, List.take_append_drop]

theorem take_splice_front {dst src : List α} {n : ℕ} (hn : n ≤ src.length) :
    (splice dst 0 src).take n = src.take n := by
  rw [splice_zero, List.take_append_of_le_length hn]

/-- Two writes to the front that agree where they overlap have the same effect if the cells that
only one of them reaches held those values already. -/
theorem splice_front_eq_iff {dst a b : List α} (ha : a.length ≤ dst.length)
    (hb : b.length ≤ dst.length) (hab : ∀ i, i < a.length → i < b.length → a[i]? = b[i]?) :
    splice dst 0 a = splice dst 0 b ↔
      (∀ i, a.length ≤ i → i < b.length → dst[i]? = b[i]?) ∧
        ∀ i, b.length ≤ i → i < a.length → dst[i]? = a[i]? := by
  have hga : ∀ i, (splice dst 0 a)[i]? = if 0 ≤ i ∧ i < 0 + a.length then a[i - 0]? else dst[i]? :=
    getElem?_splice (by rwa [Nat.zero_add])
  have hgb : ∀ i, (splice dst 0 b)[i]? = if 0 ≤ i ∧ i < 0 + b.length then b[i - 0]? else dst[i]? :=
    getElem?_splice (by rwa [Nat.zero_add])
  simp only [Nat.zero_le, true_and, Nat.zero_add, Nat.sub_zero] at hga hgb
  constructor
  · intro h
    constructor
    · intro i hi hlt
      have hcell := hga i
      rwa [h, hgb i, if_pos hlt, if_neg (Nat.not_lt.mpr hi), eq_comm] at hcell
    · intro i hi hlt
      have hcell := hgb i
      rwa [← h, hga i, if_pos hlt, if_neg (Nat.not_lt.mpr hi), eq_comm] at hcell
  · rintro ⟨honly, hmore⟩
    apply List.ext_getElem?
    intro i
    rw [hga i, hgb i]
    by_cases h₁ : i < a.length
    · by_cases h₂ : i < b.length
      · rw [if_pos h₁, if_pos h₂, hab i h₁ h₂]
      · rw [if_pos h₁, if_neg h₂, hmore i (Nat.not_lt.mp h₂) h₁]
    · by_cases h₂ : i < b.length
      · rw [if_neg h₁, if_pos h₂, honly i (Nat.not_lt.mp h₁) h₂]
      · rw [if_neg h₁, if_neg h₂]

theorem window_isPrefix_splice_front {dst a : List α} {off len : ℕ} (ha : a.length ≤ dst.length) :
    window a off len <+: window (splice dst 0 a) off len := by
  have ha' : 0 + a.length ≤ dst.length := by rwa [Nat.zero_add]
  rw [List.prefix_iff_getElem?]
  intro i hi
  have hcell := List.getElem?_eq_getElem hi
  rw [← hcell, getElem?_window, getElem?_window]
  rw [getElem?_window] at hcell
  split
  · rename_i hlen
    rw [if_pos hlen] at hcell
    have hlt := (List.getElem?_eq_some_iff.mp hcell).1
    rw [getElem?_splice ha', if_pos ⟨Nat.zero_le _, by rwa [Nat.zero_add]⟩, Nat.sub_zero]
  · rfl

/-- A front that agrees with a field as far as it reaches, over cells that hold the field. -/
theorem window_splice_front_splice {dst a field : List α} {off : ℕ} (ha : a.length ≤ dst.length)
    (hfield : off + field.length ≤ dst.length) (h : window a off field.length <+: field) :
    window (splice (splice dst off field) 0 a) off field.length = field := by
  have ha' : 0 + a.length ≤ (splice dst off field).length := by
    rwa [Nat.zero_add, length_splice hfield]
  apply List.ext_getElem?
  intro i
  rw [getElem?_window]
  split
  · rename_i hi
    rw [getElem?_splice ha']
    by_cases hlt : off + i < a.length
    · have hcell : (window a off field.length)[i]? = some a[off + i] := by
        rw [getElem?_window, if_pos hi, List.getElem?_eq_getElem hlt]
      obtain ⟨hin, hval⟩ := List.getElem?_eq_some_iff.mp hcell
      rw [if_pos ⟨Nat.zero_le _, by rwa [Nat.zero_add]⟩, Nat.sub_zero,
        List.getElem?_eq_getElem hlt, List.prefix_iff_getElem?.mp h i hin, hval]
    · rw [if_neg (by omega), getElem?_splice hfield, if_pos (by omega), Nat.add_sub_cancel_left]
  · rename_i hi
    rw [List.getElem?_eq_none (Nat.not_lt.mp hi)]

theorem take_splice_splice (l a b : List α) :
    (splice (splice l 0 a) a.length b).take (a.length + b.length) = a ++ b := by
  have h : (splice l 0 a).take a.length = a := by
    rw [take_splice_front (Nat.le_refl _), List.take_length]
  rw [splice, h, ← List.length_append, List.take_left]

theorem take_drop_of_take_append {l a b : List α} (h : l.take (a.length + b.length) = a ++ b) :
    l.take a.length = a ∧ (l.drop a.length).take b.length = b := by
  constructor
  · have ht := congrArg (List.take a.length) h
    rwa [List.take_take, Nat.min_eq_left (Nat.le_add_right _ _), List.take_left] at ht
  · have hd := congrArg (List.drop a.length) h
    rwa [List.drop_take, Nat.add_sub_cancel_left, List.drop_left] at hd

end Windows

section Words

/-- A property of bytes may be checked on the 256 of them. -/
theorem forall_byte {P : UInt8 → Prop} (h : ∀ i : Fin 256, P (UInt8.ofNat i.val)) (b : UInt8) :
    P b := by
  have hb := h ⟨b.toNat, b.toNat_lt⟩
  rwa [UInt8.ofNat_toNat] at hb

/-- The number stored in a list of bytes, least significant byte first. -/
def leVal (l : List UInt8) : ℕ := Nat.ofDigits 256 (l.map UInt8.toNat)

/-- The `n` low bytes of `v`, least significant byte first. -/
def leBytes (n v : ℕ) : List UInt8 := List.ofFn (fun i : Fin n => UInt8.ofNat (v / 256 ^ i.val))

@[simp] theorem leVal_nil : leVal [] = 0 := rfl

@[simp] theorem leVal_cons (b : UInt8) (l : List UInt8) :
    leVal (b :: l) = b.toNat + 256 * leVal l := by
  simp [leVal, Nat.ofDigits_cons]

@[simp] theorem leBytes_zero (v : ℕ) : leBytes 0 v = [] := rfl

theorem leBytes_succ (n v : ℕ) : leBytes (n + 1) v = UInt8.ofNat v :: leBytes n (v / 256) := by
  simp only [leBytes, List.ofFn_succ, Fin.val_zero, pow_zero, Nat.div_one, Fin.val_succ]
  congr 2
  funext i
  rw [pow_succ', Nat.div_div_eq_div_mul]

@[simp] theorem length_leBytes (n v : ℕ) : (leBytes n v).length = n := by
  simp [leBytes]

theorem leVal_lt (l : List UInt8) : leVal l < 256 ^ l.length := by
  have h := Nat.ofDigits_lt_base_pow_length (b := 256) (l := l.map UInt8.toNat) (by decide)
    (fun x hx => by
      obtain ⟨b, -, rfl⟩ := List.mem_map.mp hx
      exact b.toNat_lt)
  simpa only [leVal, List.length_map] using h

theorem leVal_append (a b : List UInt8) : leVal (a ++ b) = leVal a + 256 ^ a.length * leVal b := by
  rw [leVal, leVal, leVal, List.map_append, Nat.ofDigits_append, List.length_map]

/-- Storing a value keeps it up to the bits that do not fit. -/
theorem leVal_leBytes (n v : ℕ) : leVal (leBytes n v) = v % 256 ^ n := by
  induction n generalizing v with
  | zero => simp [Nat.mod_one]
  | succ n ih =>
    have hb : (UInt8.ofNat v).toNat = v % 256 := by simp
    rw [leBytes_succ, leVal_cons, ih, hb, Nat.pow_succ', Nat.mod_mul]

theorem leVal_leBytes_of_lt {n v : ℕ} (h : v < 256 ^ n) : leVal (leBytes n v) = v :=
  (leVal_leBytes n v).trans (Nat.mod_eq_of_lt h)

/-- Every byte list is the storage of its own value. -/
theorem leBytes_leVal (l : List UInt8) : leBytes l.length (leVal l) = l := by
  induction l with
  | nil => rfl
  | cons b l ih =>
    have hb := b.toNat_lt
    have hq : (b.toNat + 256 * leVal l) / 256 = leVal l := by omega
    have hr : UInt8.ofNat (b.toNat + 256 * leVal l) = b := by
      apply UInt8.toNat_inj.mp
      simp only [UInt8.toNat_ofNat']
      omega
    rw [List.length_cons, leVal_cons, leBytes_succ, hq, hr, ih]

end Words

end AppMem.Library.Bytes
