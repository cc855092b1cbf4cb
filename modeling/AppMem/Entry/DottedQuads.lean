import AppMem.Entry.Address
import Mathlib.Tactic.IntervalCases

/-! # Which names are addresses

Four decimal numbers up to 255 with single dots between them are an address, and nothing else is.
The code agrees for the names that it reads to the end: those of seven characters or less leave
the numbers unset, and of the others with three dots it takes what the conversions give.
-/
namespace AppMem.Entry
open Library.Text Library.Bytes Library.Checked Abi Memory

section Quads
variable {name : CString} {a b c d : ℕ} {f g : ℕ → ℤ} {vs : List ℤ}

structure IsOctet (ds : List UInt8) (v : ℕ) : Prop extends IsNumber ds v where
  le : v ≤ 255

def DottedQuad (name : CString) (a b c d : ℕ) : Prop :=
  ∃ A B C D, name.chars = A ++ 46 :: (B ++ 46 :: (C ++ 46 :: D)) ∧
    IsOctet A a ∧ IsOctet B b ∧ IsOctet C c ∧ IsOctet D d

def quadValue (a b c d : ℕ) : ℕ := a * 2 ^ 24 + b * 2 ^ 16 + c * 2 ^ 8 + d

def IsQuad (name : CString) : Prop := ∃ a b c d, DottedQuad name a b c d

def IsTarget (name : CString) : Prop := ∃ a b c d, DottedQuad name a b c d ∧ quadValue a b c d ≠ 0

/-- Exactly the quads are addresses, and exactly those other than 0.0.0.0 lead to the network. -/
structure RecognisesQuads (name : CString) : Prop where
  quad : ∀ u a b c d, DottedQuad name a b c d →
    amGetIpAddress u name = UInt32.ofNat (quadValue a b c d)
  other : ∀ u, ¬ IsQuad name → amGetIpAddress u name = 0
  network : ∀ u env e a b c d, env.alloc = true → DottedQuad name a b c d →
    quadValue a b c d ≠ 0 → amGetEntryPoint u env (some name) (some e) =
      .ok (e.init env name (UInt32.ofNat (quadValue a b c d)))
  driver : ∀ u env e, ¬ IsTarget name →
    amGetEntryPoint u env (some name) (some e) = .ok (amRetGood, some (e.kd name))

/-- Four numbers are read, and each is an `int`. -/
structure AllRead (vs : List ℤ) : Prop where
  four : vs.length = 4
  fits : ∀ v ∈ vs, FitsInt v

/-- The name is longer than the shortest quad, an address in it fits the buffer, and what is read
of a name with three dots is a quad or has zeros in its low bytes. -/
structure Readable (name : CString) : Prop where
  long : 7 < nameLen name
  short : IsTarget name → name.length ≤ 57
  read : dotCount name = 3 →
    AllRead (scanned name) ∧ (IsQuad name ∨ ∀ v ∈ scanned name, 256 ∣ v)

theorem DottedQuad.value_lt (h : DottedQuad name a b c d) : quadValue a b c d < 2 ^ 32 := by
  obtain ⟨A, B, C, D, -, hA, hB, hC, hD⟩ := h
  have := hA.le
  have := hB.le
  have := hC.le
  have := hD.le
  rw [quadValue]
  omega

theorem scanned_quad (h : DottedQuad name a b c d) :
    scanned name = [(a : ℤ), (b : ℤ), (c : ℤ), (d : ℤ)] := by
  obtain ⟨A, B, C, D, hname, hA, hB, hC, hD⟩ := h
  rw [scanned, hname, scanInts_number_sep hA.toIsNumber rfl, scanInts_number_sep hB.toIsNumber rfl,
    scanInts_number_sep hC.toIsNumber rfl, scanInts_number hD.toIsNumber]

theorem IsOctet.count_dot {ds : List UInt8} {v : ℕ} (h : IsOctet ds v) : ds.count 46 = 0 := by
  rw [List.count_eq_zero]
  intro hmem
  exact Bool.false_ne_true (h.digits 46 hmem)

theorem count_quad (h : DottedQuad name a b c d) : name.chars.count 46 = 3 := by
  obtain ⟨A, B, C, D, hname, hA, hB, hC, hD⟩ := h
  simp only [hname, List.count_append, List.count_cons_self, hA.count_dot, hB.count_dot,
    hC.count_dot, hD.count_dot]

theorem dotCount_quad (h : DottedQuad name a b c d) (hl : name.length < 2 ^ 32) :
    dotCount name = 3 := by
  have hlen : nameLen name = name.chars.length := Nat.mod_eq_of_lt hl
  rw [dotCount, hlen, List.take_length, count_quad h]

theorem allRead_quad (h : DottedQuad name a b c d) : AllRead (scanned name) := by
  rw [scanned_quad h]
  obtain ⟨A, B, C, D, -, hA, hB, hC, hD⟩ := h
  have fits {v : ℕ} (hv : v ≤ 255) : FitsInt v := by
    constructor
    · omega
    · omega
  constructor
  · rfl
  · simp only [List.forall_mem_cons]
    exact ⟨fits hA.le, fits hB.le, fits hC.le, fits hD.le, nofun⟩

end Quads

section Bytes
variable {f g : ℕ → ℤ} {vs : List ℤ} {i : ℕ}

theorem byte_of_ipaddr (h : ipaddr f = ipaddr g) (hi : i < 4) :
    UInt8.ofInt (f i) = UInt8.ofInt (g i) := by
  have hbytes := congrArg u32Bytes h
  rw [ipaddr, ipaddr, u32Bytes_u32OfBytes rfl, u32Bytes_u32OfBytes rfl] at hbytes
  simp only [List.cons.injEq] at hbytes
  obtain ⟨h3, h2, h1, h0, -⟩ := hbytes
  interval_cases i
  · exact h0
  · exact h1
  · exact h2
  · exact h3

theorem ofInt_eq_zero_iff (v : ℤ) : UInt8.ofInt v = 0 ↔ 256 ∣ v := by
  rw [UInt8.ofInt, ← UInt8.toNat_inj, UInt8.toNat_ofNat', UInt8.toNat_zero]
  omega

theorem toNat_ofInt_natCast {n : ℕ} (h : n ≤ 255) : (UInt8.ofInt n).toNat = n := by
  rw [UInt8.ofInt, UInt8.toNat_ofNat']
  omega

theorem ipaddr_eq_zero_iff : ipaddr f = 0 ↔ ∀ i < 4, 256 ∣ f i := by
  have hz : ipaddr (fun _ => 0) = 0 := rfl
  constructor
  · intro h i hi
    rw [← ofInt_eq_zero_iff, byte_of_ipaddr (h.trans hz.symm) hi]
    rfl
  · intro h
    have hb (i : ℕ) (hi : i < 4) : UInt8.ofInt (f i) = 0 := (ofInt_eq_zero_iff _).mpr (h i hi)
    rw [ipaddr, hb 0 (by omega), hb 1 (by omega), hb 2 (by omega), hb 3 (by omega)]
    rfl

theorem ipaddr_natCast {a b c d : ℕ} (ha : a ≤ 255) (hb : b ≤ 255) (hc : c ≤ 255) (hd : d ≤ 255)
    (h : ∀ i < 4, f i = [(a : ℤ), (b : ℤ), (c : ℤ), (d : ℤ)].getD i 0) :
    ipaddr f = UInt32.ofNat (quadValue a b c d) := by
  have h0 : f 0 = a := h 0 (by omega)
  have h1 : f 1 = b := h 1 (by omega)
  have h2 : f 2 = c := h 2 (by omega)
  have h3 : f 3 = d := h 3 (by omega)
  rw [ipaddr, h0, h1, h2, h3, u32OfBytes, List.take_of_length_le (by rfl)]
  simp only [leVal_cons, leVal_nil, toNat_ofInt_natCast ha, toNat_ofInt_natCast hb,
    toNat_ofInt_natCast hc, toNat_ofInt_natCast hd]
  congr 1
  rw [quadValue]
  omega

theorem AllRead.getElem (H : AllRead vs) (hi : i < vs.length) (u : Indeterminate) :
    u.byteAfter vs i = vs[i] := by
  rw [Indeterminate.byteAfter, List.getElem?_eq_getElem hi]
  exact if_pos (H.fits _ (List.getElem_mem hi))

theorem AllRead.byteAfter (H : AllRead vs) (u : Indeterminate) (hi : i < 4) :
    u.byteAfter vs i = vs.getD i 0 := by
  have hlt : i < vs.length := H.four ▸ hi
  rw [H.getElem hlt, List.getD_eq_getElem?_getD, List.getElem?_eq_getElem hlt, Option.getD_some]

/-- Where nothing is stored, or no `int`, the address tells one value from another. -/
theorem allRead_of_ipaddr (hle : vs.length ≤ 4)
    (h : ∀ u u' : Indeterminate, ipaddr (u.byteAfter vs) = ipaddr (u'.byteAfter vs)) :
    AllRead vs := by
  let fill (v : ℤ) : Indeterminate := ⟨fun _ => v, fun _ => v⟩
  have hfill (i : ℕ) (hi : i < 4) (h0 : (fill 0).byteAfter vs i = 0)
      (h1 : (fill 1).byteAfter vs i = 1) : False := by
    have hbyte := byte_of_ipaddr (h (fill 0) (fill 1)) hi
    rw [h0, h1] at hbyte
    exact absurd hbyte (by decide)
  constructor
  · by_contra hne
    have hnone : vs[vs.length]? = none := List.getElem?_eq_none (Nat.le_refl _)
    apply hfill vs.length (by omega)
    · rw [Indeterminate.byteAfter, hnone]
      rfl
    · rw [Indeterminate.byteAfter, hnone]
      rfl
  · intro v hv
    by_contra hno
    obtain ⟨i, hlt, rfl⟩ := List.getElem_of_mem hv
    have hstored (u : Indeterminate) : u.byteAfter vs i = u.overflow vs[i] := by
      rw [Indeterminate.byteAfter, List.getElem?_eq_getElem hlt]
      exact if_neg hno
    exact hfill i (hlt.trans_le hle) (hstored _) (hstored _)

end Bytes

section Recognition
variable {name : CString} {a b c d : ℕ}

theorem amGetIpAddress_short (u : Indeterminate) (h : ¬ 7 < nameLen name) :
    amGetIpAddress u name = ipaddr (u.byteAfter []) := if_neg h

theorem amGetIpAddress_dots (u : Indeterminate) (h : 7 < nameLen name) (hd : dotCount name = 3) :
    amGetIpAddress u name = ipaddr (u.byteAfter (scanned name)) := (if_pos h).trans (if_pos hd)

theorem amGetIpAddress_noDots (u : Indeterminate) (h : 7 < nameLen name)
    (hd : dotCount name ≠ 3) : amGetIpAddress u name = 0 := (if_pos h).trans (if_neg hd)

theorem Readable.quad (R : Readable name) (u : Indeterminate) (h : DottedQuad name a b c d) :
    amGetIpAddress u name = UInt32.ofNat (quadValue a b c d) := by
  have hscan := scanned_quad h
  by_cases hd : dotCount name = 3
  · rw [amGetIpAddress_dots u R.long hd]
    have hread (i : ℕ) (hi : i < 4) := (allRead_quad h).byteAfter u hi
    rw [hscan] at hread
    obtain ⟨A, B, C, D, -, hA, hB, hC, hD⟩ := h
    rw [hscan]
    exact ipaddr_natCast hA.le hB.le hC.le hD.le hread
  · rw [amGetIpAddress_noDots u R.long hd]
    -- the loop misses dots of names of 4 GiB and more only, and those are no targets
    have hzero : quadValue a b c d = 0 := by
      by_contra hne
      have hlen := R.short ⟨a, b, c, d, h, hne⟩
      exact hd (dotCount_quad h (by omega))
    rw [hzero]
    rfl

theorem Readable.other (R : Readable name) (u : Indeterminate) (h : ¬ IsQuad name) :
    amGetIpAddress u name = 0 := by
  by_cases hd : dotCount name = 3
  · obtain ⟨hall, hq | hdvd⟩ := R.read hd
    · exact absurd hq h
    · rw [amGetIpAddress_dots u R.long hd, ipaddr_eq_zero_iff]
      intro i hi
      have hlt : i < (scanned name).length := hall.four ▸ hi
      rw [hall.getElem hlt]
      exact hdvd _ (List.getElem_mem hlt)
  · exact amGetIpAddress_noDots u R.long hd

theorem ofNat_quadValue_ne_zero (h : DottedQuad name a b c d) (hne : quadValue a b c d ≠ 0) :
    UInt32.ofNat (quadValue a b c d) ≠ 0 := by
  intro hz
  have hnat := congrArg UInt32.toNat hz
  rw [UInt32.toNat_ofNat_of_lt' h.value_lt] at hnat
  exact hne hnat

theorem Readable.recognises (R : Readable name) : RecognisesQuads name where
  quad u _ _ _ _ h := R.quad u h
  other := R.other
  network := by
    intro u env e a b c d hmem h hne
    have hlen : (appmemText.append name).length + 1 ≤ 64 := by
      have hbound : name.length ≤ 57 := R.short ⟨a, b, c, d, h, hne⟩
      have happ : appmemText.length = 6 := rfl
      rw [CString.length_append]
      omega
    rw [amGetEntryPoint, R.quad u h]
    rw [if_pos (ofNat_quadValue_ne_zero h hne), require_of_true _ hmem, ok_bind,
      require_of_true _ hlen]
    rfl
  driver := by
    intro u env e hno
    have hzero : amGetIpAddress u name = 0 := by
      by_cases hq : IsQuad name
      · obtain ⟨a, b, c, d, h⟩ := hq
        have hval : quadValue a b c d = 0 := by
          by_contra hne
          exact hno ⟨a, b, c, d, h, hne⟩
        rw [R.quad u h, hval]
        rfl
      · exact R.other u hq
    exact if_neg (not_not_intro hzero)

/-- What is recognised does not depend on the variables that are not set. -/
theorem RecognisesQuads.fixed (R : RecognisesQuads name) (u u' : Indeterminate) :
    amGetIpAddress u name = amGetIpAddress u' name := by
  by_cases hq : IsQuad name
  · obtain ⟨a, b, c, d, h⟩ := hq
    rw [R.quad u a b c d h, R.quad u' a b c d h]
  · rw [R.other u hq, R.other u' hq]

theorem RecognisesQuads.long (R : RecognisesQuads name) : 7 < nameLen name := by
  by_contra hno
  have hall : AllRead [] := by
    apply allRead_of_ipaddr (List.length_nil.trans_le (Nat.zero_le 4))
    intro u u'
    rw [← amGetIpAddress_short u hno, ← amGetIpAddress_short u' hno]
    exact R.fixed u u'
  exact absurd hall.four (by decide)

theorem RecognisesQuads.readable (R : RecognisesQuads name) : Readable name where
  long := R.long
  short := by
    rintro ⟨a, b, c, d, h, hne⟩
    by_contra hno
    let u : Indeterminate := ⟨fun _ => 0, fun _ => 0⟩
    let env : EntryEnv := ⟨true, fun _ => amRetGood⟩
    let e : AmlibEntry := ⟨none, none, none, none, none, none⟩
    have hlen : ¬ (appmemText.append name).length + 1 ≤ 64 := by
      have happ : appmemText.length = 6 := rfl
      rw [CString.length_append]
      omega
    have hrun := R.network u env e a b c d rfl h hne
    rw [amGetEntryPoint, R.quad u a b c d h] at hrun
    rw [if_pos (ofNat_quadValue_ne_zero h hne), require_of_true _ rfl, ok_bind,
      require_of_false _ hlen] at hrun
    cases hrun
  read := by
    intro hd
    have hlong := R.long
    have hall : AllRead (scanned name) := by
      have hle : (scanned name).length ≤ 4 := length_scanInts_le 46 4 name.chars
      apply allRead_of_ipaddr hle
      intro u u'
      rw [← amGetIpAddress_dots u hlong hd, ← amGetIpAddress_dots u' hlong hd]
      exact R.fixed u u'
    constructor
    · exact hall
    · by_cases hq : IsQuad name
      · exact Or.inl hq
      · right
        let u : Indeterminate := ⟨fun _ => 0, fun _ => 0⟩
        have hzero := R.other u hq
        rw [amGetIpAddress_dots u hlong hd, ipaddr_eq_zero_iff] at hzero
        intro v hv
        obtain ⟨i, hlt, rfl⟩ := List.getElem_of_mem hv
        have hi : i < 4 := hall.four ▸ hlt
        have hdvd := hzero i hi
        rwa [hall.getElem hlt] at hdvd

/-- Names are recognised as addresses exactly when they are read to the end. -/
theorem recognisesQuads_iff (name : CString) : RecognisesQuads name ↔ Readable name :=
  ⟨RecognisesQuads.readable, Readable.recognises⟩

/-- 1.1.1.1 is as short as a quad can be. -/
theorem not_recognisesQuads_shortest :
    ¬ RecognisesQuads ⟨ofText "1.1.1.1", by decide⟩ := by
  intro R
  let u : Indeterminate := ⟨fun _ => 0, fun _ => 0⟩
  have hdigit : ∀ c ∈ ofText "1", isDigit c = true := by
    intro c hc
    cases List.mem_singleton.mp (show c ∈ [49] from hc)
    rfl
  have octet : IsOctet (ofText "1") 1 := ⟨⟨List.cons_ne_nil _ _, hdigit, rfl⟩, by omega⟩
  have hquad := R.quad u 1 1 1 1 ⟨_, _, _, _, rfl, octet, octet, octet, octet⟩
  exact absurd hquad (by decide)

end Recognition

end AppMem.Entry
