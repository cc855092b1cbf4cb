import AppMem.Entry.Printing
import Mathlib.Algebra.Order.BigOperators.Group.List

/-! # The room that is printed in

`snprintf` of C99 never returns -1: it returns how long the text would have been. So the calls go
on behind a text that was cut off, with a size that has run below zero, and the functions stay in
their buffer exactly when the whole text fits in it.
-/
namespace AppMem.Entry
open Library.Text Library.Bytes Library.Checked Abi Memory Device

section Results

/-- No call is told of more room than there is, a zero ends the buffer's text, and the count is
within the size. -/
structure Contained (bufSize : UInt32) (r : Printed) : Prop where
  calls : ∀ c ∈ r.calls, c.1 + c.2.toNat ≤ bufSize.toNat
  ends : ∃ buf, r.buf = some buf ∧ 0 ∈ buf
  returned : r.returned ≤ bufSize

/-- Nothing is written outside the buffer, and what comes back is contained. -/
def StaysInside (bufSize : UInt32) (x : Exec Printed) : Prop :=
  ∃ r, x = .ok r ∧ Contained bufSize r

/-- The printing is within a buffer of `n` bytes. -/
structure Printing.Inside (n : ℕ) (p : Printing) : Prop where
  length : p.buf.length = n
  room : p.off + p.bufSize.toNat = n
  calls : ∀ c ∈ p.calls, c.1 + c.2.toNat ≤ n
  ends : p.bufSize.toNat = 0 → 0 ∈ p.buf

variable {p p' : Printing} {t : List UInt8} {ts : List (List UInt8)} {n : ℕ} {more : Bool}
  {bufSize : UInt32} {buf : List UInt8}

theorem snprintf_zero (buf : List UInt8) (off : ℕ) (text : List UInt8) :
    snprintf buf off 0 text = .ok (text.length, buf) := if_pos rfl

theorem snprintf_room {off m : ℕ} (h : off + m = buf.length) (hm : m ≠ 0) :
    ∃ buf', snprintf buf off m t = .ok (t.length, buf') ∧ buf'.length = buf.length ∧
      0 ∈ buf' := by
  have hout : off + (t.take (m - 1) ++ [0]).length ≤ buf.length := by
    rw [List.length_append, List.length_take, List.length_singleton]
    omega
  refine ⟨splice buf off (t.take (m - 1) ++ [0]), ?_, length_splice hout, ?_⟩
  · rw [snprintf, if_neg hm]
    dsimp only
    rw [require_of_true _ hout]
    rfl
  · simp [splice]

theorem toNat_ofInt_length (h : t.length < 2 ^ 32) : (UInt32.ofInt t.length).toNat = t.length := by
  rw [UInt32.ofInt, UInt32.toNat_ofNat']
  omega

theorem Printing.Inside.print (I : p.Inside n) (hn : n < 2 ^ 32) (h : p.off + t.length ≤ n) :
    ∃ p', p.print (.ok t) = .ok (true, p') ∧ p'.Inside n ∧ p'.off = p.off + t.length ∧
      0 ∈ p'.buf := by
  have hroom := I.room
  have hlen : t.length ≤ p.bufSize.toNat := by omega
  have hsb : ((t.length : ℕ) : ℤ) ≠ -1 := by omega
  have hsize : (p.bufSize - UInt32.ofInt t.length).toNat = p.bufSize.toNat - t.length := by
    have hof := toNat_ofInt_length (t := t) (by omega)
    rw [UInt32.toNat_sub_of_le _ _ (by rwa [UInt32.le_iff_toNat_le, hof]), hof]
  obtain ⟨buf', hwrite, hlength, hzero⟩ : ∃ buf', snprintf p.buf p.off p.bufSize.toNat t =
      .ok (t.length, buf') ∧ buf'.length = n ∧ 0 ∈ buf' := by
    by_cases hz : p.bufSize.toNat = 0
    · rw [hz, snprintf_zero]
      exact ⟨p.buf, rfl, I.length, I.ends hz⟩
    · rw [← I.length]
      exact snprintf_room (hroom.trans I.length.symm) hz
  refine ⟨⟨buf', p.off + t.length, p.bufSize - UInt32.ofInt t.length,
    p.calls ++ [(p.off, p.bufSize)]⟩, ?_, ⟨hlength, ?_, ?_, fun _ => hzero⟩, rfl, hzero⟩
  · rw [Printing.print, ok_bind, hwrite, ok_bind]
    exact if_neg hsb
  · dsimp only
    rw [hsize]
    omega
  · intro c hc
    rcases List.mem_append.mp hc with hold | hnew
    · exact I.calls c hold
    · cases List.mem_singleton.mp hnew
      exact hroom.le

theorem Printing.Inside.printAll (I : p.Inside n) (hn : n < 2 ^ 32)
    (h : p.off + ts.flatten.length ≤ n) :
    ∃ p', Printing.printAll (ts.map .ok) p = .ok (true, p') ∧ p'.Inside n ∧
      p'.off = p.off + ts.flatten.length ∧ (ts ≠ [] → 0 ∈ p'.buf) := by
  induction ts generalizing p with
  | nil => exact ⟨p, rfl, I, rfl, fun hne => absurd rfl hne⟩
  | cons t ts ih =>
    rw [List.flatten_cons, List.length_append] at h ⊢
    obtain ⟨q, hq, J, hoff, hzero⟩ := I.print (t := t) hn (by omega)
    obtain ⟨p', hp', I', hoff', hlast⟩ := ih J (by omega)
    refine ⟨p', ?_, I', by omega, fun _ => ?_⟩
    · rw [List.map_cons, Printing.printAll, hq, ok_bind]
      exact hp'
    · by_cases hts : ts = []
      · subst hts
        cases hp'
        exact hzero
      · exact hlast hts

/-- A piece that is printed takes its length from the size, whether it has room or not. -/
theorem print_eq_ok (h : p.print (.ok t) = .ok (more, p')) :
    more = true ∧ p'.bufSize = p.bufSize - UInt32.ofInt t.length := by
  have hsb : ((t.length : ℕ) : ℤ) ≠ -1 := by omega
  rw [Printing.print, ok_bind] at h
  obtain ⟨⟨sb, buf'⟩, hwrite, h⟩ := bind_eq_ok.mp h
  have hret : sb = t.length := by
    rw [snprintf] at hwrite
    split at hwrite
    · cases hwrite
      rfl
    · obtain ⟨_, -, hok⟩ := bind_eq_ok.mp hwrite
      cases hok
      rfl
  dsimp only at h
  rw [hret, if_neg hsb] at h
  cases h
  exact ⟨rfl, rfl⟩

theorem printAll_eq_ok (h : Printing.printAll (ts.map .ok) p = .ok (more, p')) :
    more = true ∧ p'.bufSize = p.bufSize - UInt32.ofInt ts.flatten.length := by
  induction ts generalizing p with
  | nil =>
    cases h
    exact ⟨rfl, (UInt32.sub_zero _).symm⟩
  | cons t ts ih =>
    rw [List.map_cons, Printing.printAll] at h
    obtain ⟨⟨cont, q⟩, hq, h⟩ := bind_eq_ok.mp h
    obtain ⟨rfl, hsize⟩ := print_eq_ok hq
    obtain ⟨hmore, hsize'⟩ := ih h
    refine ⟨hmore, ?_⟩
    rw [hsize', hsize, List.flatten_cons, List.length_append, Nat.cast_add, UInt32.ofInt_add]
    grind

/-- The printing stays inside its buffer exactly when the whole text fits. -/
theorem staysInside_printPieces (hne : ts ≠ []) (hsmall : ts.flatten.length < 2 ^ 32)
    (hsize : bufSize ≠ 0) (hbuf : buf.length = bufSize.toNat) :
    StaysInside bufSize (printPieces (ts.map .ok) buf bufSize) ↔
      ts.flatten.length ≤ bufSize.toNat := by
  constructor
  · rintro ⟨r, hrun, C⟩
    rw [printPieces] at hrun
    obtain ⟨⟨complete, p⟩, hp, hrun⟩ := bind_eq_ok.mp hrun
    obtain ⟨rfl, hleft⟩ := printAll_eq_ok hp
    cases hrun
    have hret := UInt32.le_iff_toNat_le.mp C.returned
    dsimp only at hret hleft
    have hcount (a b : UInt32) : a - (a - b) = b := by grind
    rwa [hleft, hcount, toNat_ofInt_length hsmall] at hret
  · intro hfit
    have hn : bufSize.toNat < 2 ^ 32 := bufSize.toNat_lt
    have hpos : bufSize.toNat ≠ 0 := fun hz => hsize (UInt32.toNat_inj.mp hz)
    have I : (Printing.mk buf 0 bufSize []).Inside bufSize.toNat :=
      ⟨hbuf, Nat.zero_add _, nofun, fun hz => absurd hz hpos⟩
    have hroom : 0 + ts.flatten.length ≤ bufSize.toNat := by omega
    obtain ⟨p, hp, J, hoff, hzero⟩ := I.printAll hn hroom
    refine ⟨⟨p.buf, bufSize - p.bufSize, p.calls⟩, ?_, J.calls, ⟨p.buf, rfl, hzero hne⟩, ?_⟩
    · rw [printPieces, hp]
      rfl
    · have hroom := J.room
      have hle : p.bufSize ≤ bufSize := by
        rw [UInt32.le_iff_toNat_le]
        omega
      rw [UInt32.le_iff_toNat_le, UInt32.toNat_sub_of_le _ _ hle]
      omega

end Results

section Texts
variable {c : AmMemCap} {d : CapDetailsBytes}

def amMaxTypeSpecific : ℕ := 32
def amDetailDescLen : ℕ := 64

def capabilityTexts (c : AmMemCap) : List (List UInt8) :=
  [describedLine "MEMORY TYPE = 0x" c.amType (amCapTypeStr.getD c.amType.toNat []),
    maxSizeLine c.maxSize, countLine "SUB_TYPES = = 0x" c.subType "\n"]

def capabilityText (c : AmMemCap) : List UInt8 := (capabilityTexts c).flatten

def detailTexts (d : CapDetailsBytes) : List (List UInt8) :=
  [describedLine "amType  = 0x" d.amType (fieldText d.amTypeSz),
    describedLine "subType = 0x" d.subType (fieldText d.subTypeSz),
    countLine "typeSpecificCount = 0x" d.typeSpecificCount " \n"] ++
  (List.range d.typeSpecificCount.toNat).map fun i =>
    typeSpecificLine i (fieldText (d.typeSpecificSz.getD i []))

def detailText (d : CapDetailsBytes) : List UInt8 := (detailTexts d).flatten

structure HoldsString (field : List UInt8) : Prop where
  length : field.length = amDetailDescLen
  ends : 0 ∈ field

structure CapDetailsBytes.Valid (d : CapDetailsBytes) : Prop where
  typeText : HoldsString d.amTypeSz
  subText : HoldsString d.subTypeSz
  slots : d.typeSpecificSz.length = amMaxTypeSpecific
  texts : ∀ field ∈ d.typeSpecificSz, HoldsString field
  count : d.typeSpecificCount.toNat ≤ amMaxTypeSpecific

structure CallerBuffer where
  buf : List UInt8
  bufSize : UInt32
  size : bufSize ≠ 0
  room : buf.length = bufSize.toNat

/-- A call of `am_sprintf_capability`. -/
structure CapabilityCall extends CallerBuffer where
  cap : AmMemCap
  known : cap.amType ≤ amTypeList

/-- A call of `am_sprintf_cap_details`. -/
structure DetailsCall extends CallerBuffer where
  details : CapDetailsBytes
  valid : details.Valid

theorem capabilityPieces_known (h : c.amType ≤ amTypeList) :
    capabilityPieces c = (capabilityTexts c).map .ok := by
  have hlt : c.amType.toNat < amCapTypeStr.length :=
    Nat.lt_succ_of_le (UInt32.le_iff_toNat_le.mp h)
  rw [capabilityPieces, readTypeStr, capabilityTexts, List.getD_eq_getElem?_getD,
    List.getElem?_eq_getElem hlt]
  rfl

theorem HoldsString.readField {field : List UInt8} (H : HoldsString field) :
    readField (some field) = .ok (fieldText field) := if_pos H.ends

theorem HoldsString.length_text {field : List UInt8} (H : HoldsString field) :
    (fieldText field).length ≤ amDetailDescLen :=
  H.length ▸ (List.takeWhile_sublist _).length_le

theorem detailPieces_valid (V : d.Valid) : detailPieces d = (detailTexts d).map .ok := by
  rw [detailPieces, detailTexts, V.typeText.readField, V.subText.readField, List.map_append,
    List.map_map]
  congr 1
  apply List.map_congr_left
  intro i hi
  have hlt : i < d.typeSpecificSz.length := by
    rw [V.slots]
    exact (List.mem_range.mp hi).trans_le V.count
  have H := V.texts _ (List.getElem_mem hlt)
  rw [List.getElem?_eq_getElem hlt, H.readField, Function.comp_apply,
    List.getD_eq_getElem?_getD, List.getElem?_eq_getElem hlt]
  rfl

theorem length_describedLine (label : String) (v : UInt32) (text : List UInt8) :
    (describedLine label v text).length = (ofText label).length + text.length + 12 := by
  have hsep : (ofText " : ").length = 3 := rfl
  have hend : (ofText "\n").length = 1 := rfl
  simp only [describedLine, List.length_append, length_hexText, hsep, hend]
  omega

theorem length_intText_intArg (v : UInt32) : (intText (intArg v)).length ≤ 11 := by
  have hlo := v.toInt32.le_toInt
  have hhi := v.toInt32.toInt_lt
  have habs : (intArg v).natAbs < 10 ^ 10 := by
    rw [intArg]
    omega
  exact length_intText_le (by omega) habs

theorem length_capabilityText (h : c.amType ≤ amTypeList) :
    (capabilityText c).length ≤ 130 := by
  have hnames : ∀ name ∈ amCapTypeStr, name.length ≤ 23 := by decide
  have hlt : c.amType.toNat < amCapTypeStr.length :=
    Nat.lt_succ_of_le (UInt32.le_iff_toNat_le.mp h)
  have hname : (amCapTypeStr.getD c.amType.toNat []).length ≤ 23 := by
    rw [List.getD_eq_getElem?_getD, List.getElem?_eq_getElem hlt]
    exact hnames _ (List.getElem_mem hlt)
  have hnum := length_intText_intArg (c.maxSize / (1024 * 1024)).toUInt32
  have htype : (ofText "MEMORY TYPE = 0x").length = 16 := rfl
  have hmax : (ofText "MAX_SIZE    = 0x").length = 16 := rfl
  have hsub : (ofText "SUB_TYPES = = 0x").length = 16 := rfl
  have hsep : (ofText " : ").length = 3 := rfl
  have hmb : (ofText " MB\n").length = 4 := rfl
  have hend : (ofText "\n").length = 1 := rfl
  simp only [capabilityText, capabilityTexts, List.flatten_cons, List.flatten_nil,
    List.length_append, List.length_nil, length_describedLine, maxSizeLine, countLine,
    length_hexText, htype, hmax, hsub, hsep, hmb, hend]
  omega

theorem length_typeSpecificLine (i : ℕ) (text : List UInt8) :
    (typeSpecificLine i text).length ≤ text.length + 18 := by
  have hnum := length_intText_intArg (UInt32.ofNat i)
  have hts : (ofText "TS#").length = 3 := rfl
  have heq : (ofText " = ").length = 3 := rfl
  have hend : (ofText "\n").length = 1 := rfl
  simp only [typeSpecificLine, List.length_append, hts, heq, hend]
  omega

theorem length_detailText (V : d.Valid) : (detailText d).length ≤ 4096 := by
  have hline : ∀ line ∈ (List.range d.typeSpecificCount.toNat).map (fun i =>
      typeSpecificLine i (fieldText (d.typeSpecificSz.getD i []))), line.length ≤ 82 := by
    intro line hmem
    obtain ⟨i, hi, rfl⟩ := List.mem_map.mp hmem
    have hlt : i < d.typeSpecificSz.length := by
      rw [V.slots]
      exact (List.mem_range.mp hi).trans_le V.count
    have htext := (V.texts _ (List.getElem_mem hlt)).length_text
    rw [List.getD_eq_getElem?_getD, List.getElem?_eq_getElem hlt, Option.getD_some]
    exact (length_typeSpecificLine i _).trans (Nat.add_le_add_right htext 18)
  have hlines := List.sum_le_card_nsmul _ 82 (List.forall_mem_map.mpr hline)
  have hcount := V.count
  have htype := V.typeText.length_text
  have hsub := V.subText.length_text
  have hlabel : (ofText "amType  = 0x").length = 12 := rfl
  have hlabel' : (ofText "subType = 0x").length = 12 := rfl
  have hcnt : (ofText "typeSpecificCount = 0x").length = 22 := rfl
  have hend : (ofText " \n").length = 2 := rfl
  rw [List.length_map, List.length_map, List.length_range, Nat.nsmul_eq_mul] at hlines
  simp only [amMaxTypeSpecific, amDetailDescLen] at hcount htype hsub
  simp only [detailText, detailTexts, List.flatten_append, List.flatten_cons, List.flatten_nil,
    List.length_append, List.length_nil, length_describedLine, countLine, length_hexText, hlabel,
    hlabel', hcnt, hend]
  rw [List.length_flatten]
  omega

end Texts

section Calls

def CapabilityCall.StaysInside (c : CapabilityCall) : Prop :=
  Entry.StaysInside c.bufSize (amSprintfCapability (some c.cap) (some c.buf) c.bufSize)

def DetailsCall.StaysInside (d : DetailsCall) : Prop :=
  Entry.StaysInside d.bufSize (amSprintfCapDetails (some d.details) (some d.buf) d.bufSize)

theorem CapabilityCall.staysInside_iff (c : CapabilityCall) :
    c.StaysInside ↔ (capabilityText c.cap).length ≤ c.bufSize.toNat := by
  have hsmall := (length_capabilityText c.known).trans_lt (by omega : 130 < 2 ^ 32)
  rw [CapabilityCall.StaysInside, amSprintfCapability, capabilityPieces_known c.known]
  rw [if_pos c.size]
  exact staysInside_printPieces (List.cons_ne_nil _ _) hsmall c.size c.room

theorem DetailsCall.staysInside_iff (d : DetailsCall) :
    d.StaysInside ↔ (detailText d.details).length ≤ d.bufSize.toNat := by
  have hsmall := (length_detailText d.valid).trans_lt (by omega : 4096 < 2 ^ 32)
  rw [DetailsCall.StaysInside, amSprintfCapDetails, detailPieces_valid d.valid]
  rw [if_pos d.size]
  exact staysInside_printPieces (List.cons_ne_nil _ _) hsmall d.size d.room

/-- Both functions stay inside their buffers for exactly the sizes that the whole text fits in. -/
theorem printing_staysInside_iff (c : CapabilityCall) (d : DetailsCall) :
    (c.StaysInside ↔ (capabilityText c.cap).length ≤ c.bufSize.toNat) ∧
      (d.StaysInside ↔ (detailText d.details).length ≤ d.bufSize.toNat) :=
  ⟨c.staysInside_iff, d.staysInside_iff⟩

def cutCapability : CapabilityCall where
  buf := List.replicate 50 1
  bufSize := 50
  size := by decide
  room := rfl
  cap := ⟨1, 0x10000000, 3, 0, 0, fun _ => 0, fun _ => 0⟩
  known := by decide

/-- The second line is cut off, and the third goes behind the buffer. -/
theorem not_staysInside_cutCapability : ¬ cutCapability.StaysInside := by
  have hfault : amSprintfCapability (some cutCapability.cap) (some cutCapability.buf)
      cutCapability.bufSize = .error .bounds := by
    rfl
  rintro ⟨r, hrun, -⟩
  rw [hfault] at hrun
  cases hrun

end Calls

end AppMem.Entry
