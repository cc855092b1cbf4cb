import Mathlib.Tactic.Common
import Mathlib.Tactic.Linarith

/-! # Text and the numbers in it

Strings of C, decimal numbers, and what the conversion `%d` of `sscanf` reads of a text. Characters
are bytes.
-/
namespace AppMem.Library.Text

section Strings

/-- A string of C, without the zero behind it. -/
structure CString where
  chars : List UInt8
  noZero : 0 ∉ chars

def CString.length (s : CString) : ℕ := s.chars.length

def CString.append (s t : CString) : CString :=
  ⟨s.chars ++ t.chars, List.not_mem_append s.noZero t.noZero⟩

@[simp] theorem CString.length_append (s t : CString) :
    (s.append t).length = s.length + t.length := List.length_append

def ofText (s : String) : List UInt8 := s.toList.map fun c => UInt8.ofNat c.toNat

end Strings

section Numbers
variable {ds rest : List UInt8} {v w : ℕ}

def isDigit (c : UInt8) : Bool := 48 ≤ c && c ≤ 57

/-- `isspace` in the C locale. -/
def isSpace (c : UInt8) : Bool := c == 32 || (9 ≤ c && c ≤ 13)

def decimal (ds : List UInt8) : ℕ := ds.foldl (fun v c => 10 * v + (c.toNat - 48)) 0

structure IsNumber (ds : List UInt8) (v : ℕ) : Prop where
  ne_nil : ds ≠ []
  digits : ∀ c ∈ ds, isDigit c = true
  value : decimal ds = v

def NoDigitFirst (rest : List UInt8) : Prop := ∀ c ∈ rest.head?, isDigit c = false

theorem isSpace_of_isDigit {c : UInt8} (h : isDigit c = true) : isSpace c = false := by
  simp only [isDigit, Bool.and_eq_true, decide_eq_true_eq, UInt8.le_iff_toNat_le] at h
  simp only [isSpace, Bool.or_eq_false_iff, beq_eq_false_iff_ne, Bool.and_eq_false_iff,
    decide_eq_false_iff_not, UInt8.le_iff_toNat_le, ne_eq, ← UInt8.toNat_inj]
  have h48 : (48 : UInt8).toNat = 48 := rfl
  have h32 : (32 : UInt8).toNat = 32 := rfl
  have h13 : (13 : UInt8).toNat = 13 := rfl
  omega

theorem ne_of_isDigit {c d : UInt8} (h : isDigit c = true) (hd : isDigit d = false) : c ≠ d := by
  rintro rfl
  rw [h] at hd
  cases hd

theorem takeWhile_digits (hd : ∀ c ∈ ds, isDigit c = true) (hr : NoDigitFirst rest) :
    (ds ++ rest).takeWhile isDigit = ds ∧ (ds ++ rest).dropWhile isDigit = rest := by
  induction ds with
  | nil =>
    cases rest with
    | nil => exact ⟨rfl, rfl⟩
    | cons c rest =>
      have hc : ¬ isDigit c = true := by
        rw [hr c rfl]
        exact Bool.false_ne_true
      rw [List.nil_append, List.takeWhile_cons_of_neg hc, List.dropWhile_cons_of_neg hc]
      exact ⟨rfl, rfl⟩
  | cons c ds ih =>
    have hc : isDigit c = true := hd c List.mem_cons_self
    obtain ⟨ht, hdr⟩ := ih fun c hmem => hd c (List.mem_cons_of_mem _ hmem)
    rw [List.cons_append, List.takeWhile_cons_of_pos hc, List.dropWhile_cons_of_pos hc, ht, hdr]
    exact ⟨rfl, rfl⟩

end Numbers

section Scanning

def scanSign : List UInt8 → Bool × List UInt8
  | 45 :: s => (true, s)
  | 43 :: s => (false, s)
  | s => (false, s)

/-- `%d`: the number that is read, and what follows it. -/
def scanInt (s : List UInt8) : Option (ℤ × List UInt8) :=
  let r := scanSign (s.dropWhile isSpace)
  let ds := r.2.takeWhile isDigit
  if ds = [] then none
  else some (if r.1 then -(decimal ds : ℤ) else decimal ds, r.2.dropWhile isDigit)

/-- Conversions `%d` with the character `sep` between them: the numbers read before one fails. -/
def scanInts (sep : UInt8) : ℕ → List UInt8 → List ℤ
  | 0, _ => []
  | n + 1, s =>
    match scanInt s with
    | none => []
    | some (v, []) => [v]
    | some (v, c :: s) => if c = sep then v :: scanInts sep n s else [v]

variable {ds rest : List UInt8} {v n : ℕ} {sep : UInt8}

theorem length_scanInts_le (sep : UInt8) (n : ℕ) (s : List UInt8) :
    (scanInts sep n s).length ≤ n := by
  induction n generalizing s with
  | zero => exact Nat.le_refl 0
  | succ n ih =>
    rw [scanInts]
    split
    · exact Nat.zero_le _
    · exact Nat.succ_le_succ (Nat.zero_le n)
    · split
      · exact Nat.succ_le_succ (ih _)
      · exact Nat.succ_le_succ (Nat.zero_le n)

/-- A number is read up to its last digit. -/
theorem scanInt_number (hn : IsNumber ds v) (hr : NoDigitFirst rest) :
    scanInt (ds ++ rest) = some ((v : ℤ), rest) := by
  obtain ⟨ht, hdrop⟩ := takeWhile_digits hn.digits hr
  obtain ⟨c, ds', rfl⟩ := List.exists_cons_of_ne_nil hn.ne_nil
  have hc : isDigit c = true := hn.digits c List.mem_cons_self
  have hspace : ¬ isSpace c = true := by
    rw [isSpace_of_isDigit hc]
    exact Bool.false_ne_true
  have hskip : (c :: ds' ++ rest).dropWhile isSpace = c :: ds' ++ rest := by
    rw [List.cons_append, List.dropWhile_cons_of_neg hspace]
  have hsign : scanSign (c :: ds' ++ rest) = (false, c :: ds' ++ rest) := by
    rw [List.cons_append, scanSign]
    · intro s hs
      exact ne_of_isDigit hc (by rfl) (List.cons.inj hs).1
    · intro s hs
      exact ne_of_isDigit hc (by rfl) (List.cons.inj hs).1
  rw [scanInt, hskip, hsign]
  dsimp only
  rw [ht, hdrop, if_neg (List.cons_ne_nil c ds'), hn.value]
  rfl

theorem scanInts_number_sep (hn : IsNumber ds v) (hsep : isDigit sep = false) :
    scanInts sep (n + 1) (ds ++ sep :: rest) = (v : ℤ) :: scanInts sep n rest := by
  have hfirst : NoDigitFirst (sep :: rest) := by
    rintro c ⟨rfl⟩
    exact hsep
  rw [scanInts, scanInt_number hn hfirst]
  exact if_pos rfl

theorem scanInts_number (hn : IsNumber ds v) : scanInts sep (n + 1) ds = [(v : ℤ)] := by
  have hend : NoDigitFirst [] := by
    rintro c ⟨⟩
  have hscan := scanInt_number hn hend
  rw [List.append_nil] at hscan
  rw [scanInts, hscan]

end Scanning

section Formatting

def hexDigit (d : ℕ) : UInt8 := UInt8.ofNat (if d < 10 then 48 + d else 87 + d)

/-- `%0nx`, of a number with at most `n` digits. -/
def hexText (n v : ℕ) : List UInt8 := (List.range n).reverse.map fun i => hexDigit (v / 16 ^ i % 16)

def natText (n : ℕ) : List UInt8 := (Nat.toDigits 10 n).map fun c => UInt8.ofNat c.toNat

def intText (v : ℤ) : List UInt8 :=
  if v < 0 then 45 :: natText v.natAbs else natText v.natAbs

@[simp] theorem length_hexText (n v : ℕ) : (hexText n v).length = n := by
  rw [hexText, List.length_map, List.length_reverse, List.length_range]

theorem length_natText_le {n k : ℕ} (hk : 0 < k) (h : n < 10 ^ k) : (natText n).length ≤ k := by
  rw [natText, List.length_map]
  exact (Nat.length_toDigits_le_iff (by omega) hk).mpr h

theorem length_intText_le {v : ℤ} {k : ℕ} (hk : 0 < k) (h : v.natAbs < 10 ^ k) :
    (intText v).length ≤ k + 1 := by
  have hnat := length_natText_le hk h
  rw [intText]
  split
  · rw [List.length_cons]
    omega
  · omega

end Formatting

end AppMem.Library.Text
