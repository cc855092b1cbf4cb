import AppMem.Device.Refusal
import AppMem.Device.Written

/-! # Sorts of any parameters

The address where a sort starts is computed with the number of elements and the one where it ends
with their size. Whatever the parameters are the range lies inside the storage; what may be left is
the merge buffer, when the range has 4 GiB or more.
-/
namespace AppMem.Device
open Library.Bytes Library.Checked Abi Memory

section Ranges
variable {fd : StataData} {s : SortParam}

/-- A static array with values of any size: its storage holds all elements, and neither the end of
the storage nor a computed start wraps around. -/
structure PlacedArray (fd : StataData) : Prop where
  count : fd.arraySize.toNat < 2 ^ 31
  storage : fd.data.length = fd.arraySize.toNat * fd.dataSize.toNat
  addr : fd.addr ≠ 0
  unwrapped : fd.addr.toNat + fd.data.length ≤ 2 ^ 64
  starts : fd.addr.toNat + fd.arraySize.toNat * fd.arraySize.toNat ≤ 2 ^ 64

structure Accepted (s : SortParam) (fd : StataData) : Prop where
  startIdx : s.startIdx.toNat < fd.arraySize.toNat
  endIdx : s.endIdx.toNat < fd.arraySize.toNat
  dataSize : fd.dataSize = 4

theorem accepted_of_true (h : s.accepted fd = true) : Accepted s fd := by
  simp only [SortParam.accepted, Bool.and_eq_true, decide_eq_true_eq, beq_iff_eq,
    UInt64.lt_iff_toNat_lt, UInt32.toNat_toUInt64] at h
  obtain ⟨⟨⟨⟨-, hstart⟩, hend⟩, -⟩, hsize⟩ := h
  exact ⟨hstart, hend, hsize⟩

theorem PlacedArray.toNat_startAddr (A : PlacedArray fd) (ha : Accepted s fd) :
    (s.startAddr fd).toNat = fd.addr.toNat + s.startIdx.toNat * fd.arraySize.toNat := by
  have hprod : s.startIdx.toNat * fd.arraySize.toNat + fd.arraySize.toNat ≤
      fd.arraySize.toNat * fd.arraySize.toNat := by
    have hle := Nat.mul_le_mul_right fd.arraySize.toNat (Nat.succ_le_of_lt ha.startIdx)
    rwa [Nat.succ_mul] at hle
  have hstarts := A.starts
  have hpos := ha.startIdx
  rw [SortParam.startAddr, UInt64.toNat_add, UInt64.toNat_mul, UInt32.toNat_toUInt64]
  rw [Nat.mod_eq_of_lt (by omega : s.startIdx.toNat * fd.arraySize.toNat < 2 ^ 64),
    Nat.mod_eq_of_lt (by omega)]

theorem PlacedArray.toNat_endAddr (A : PlacedArray fd) (ha : Accepted s fd) :
    fd.addr.toNat ≤ (s.endAddr fd).toNat ∧
      (s.endAddr fd).toNat + 4 ≤ fd.addr.toNat + fd.data.length := by
  have hcount := A.count
  have hend := ha.endIdx
  have h4 : fd.dataSize.toNat = 4 := by
    rw [ha.dataSize]
    rfl
  have hstorage := A.storage
  have hunwrapped := A.unwrapped
  rw [h4] at hstorage
  by_cases h0 : s.endIdx = 0
  · have hone : (1 : UInt64) ≤ fd.arraySize := by
      rw [UInt64.le_iff_toNat_le]
      change 1 ≤ _
      omega
    have hone' : (1 : UInt64).toNat = 1 := rfl
    have heq : (s.endAddr fd).toNat = fd.addr.toNat + (fd.arraySize.toNat - 1) * 4 := by
      rw [SortParam.endAddr, if_pos h0, UInt64.toNat_add, UInt64.toNat_mul, UInt32.toNat_toUInt64, h4,
        UInt64.toNat_sub_of_le _ _ hone, hone',
        Nat.mod_eq_of_lt (by omega : (fd.arraySize.toNat - 1) * 4 < 2 ^ 64),
        Nat.mod_eq_of_lt (by omega)]
    omega
  · -- an index of 2^30 and more wraps in 32 bits and ends the range earlier
    have heq : (s.endAddr fd).toNat = fd.addr.toNat + s.endIdx.toNat * 4 % 2 ^ 32 := by
      rw [SortParam.endAddr, if_neg h0, UInt64.toNat_add, UInt32.toNat_toUInt64, UInt32.toNat_mul, h4,
        Nat.mod_eq_of_lt (by omega)]
    omega

structure InStorage (fd : StataData) (s : SortParam) : Prop where
  start : s.startAddr fd ≠ 0
  above : fd.addr ≤ s.startAddr fd
  order : (s.startAddr fd - fd.addr).toNat < (s.endAddr fd - fd.addr).toNat
  inside : (s.startAddr fd - fd.addr).toNat + 4 * runLength (s.startAddr fd - fd.addr).toNat
    (s.endAddr fd - fd.addr).toNat 4 ≤ fd.data.length
  span : (s.endAddr fd - fd.addr).toNat - (s.startAddr fd - fd.addr).toNat =
    (s.endAddr fd - s.startAddr fd).toNat

/-- Every element of a range lies in the storage, also when the start is not a multiple of the size
of an element. -/
theorem PlacedArray.inStorage (A : PlacedArray fd) (hacc : s.accepted fd = true)
    (hlt : s.startAddr fd < s.endAddr fd) : InStorage fd s := by
  have hstart := A.toNat_startAddr (accepted_of_true hacc)
  obtain ⟨-, hend⟩ := A.toNat_endAddr (accepted_of_true hacc)
  have habove : fd.addr ≤ s.startAddr fd := by
    rw [UInt64.le_iff_toNat_le, hstart]
    exact Nat.le_add_right _ _
  have hlt' := UInt64.lt_iff_toNat_lt.mp hlt
  have hle' := UInt64.le_iff_toNat_le.mp habove
  have horder := toNat_sub_lt habove hlt
  have hS := UInt64.toNat_sub_of_le _ _ habove
  have hE := UInt64.toNat_sub_of_le _ _ (UInt64.le_trans habove (UInt64.le_of_lt hlt))
  have hspan := UInt64.toNat_sub_of_le _ _ (UInt64.le_of_lt hlt)
  refine ⟨fun h0 => A.addr ?_, habove, horder, ?_, by omega⟩
  · rw [h0] at hle'
    exact UInt64.toNat_inj.mp (Nat.le_zero.mp hle')
  · rw [runLength, if_pos horder.le]
    omega

end Ranges

section Sorts
variable {env : Env} {f : MemFunction} {fd : StataData} {p1 : List UInt8} {l1 : UInt64}

/-- The sort comes back without having left its memory, and an error leaves the array alone. -/
def SortClean (env : Env) (f : MemFunction) (p1 : List UInt8) (l1 : UInt64) : Prop :=
  ∃ g r, amStataSort env f p1 l1 = .ok (g, r) ∧ (r.error ≠ amRetGood → g = f)

/-- The parameters are accepted, there is memory for the buffer, and the range has 4 GiB or more. -/
structure Oversized (env : Env) (fd : StataData) (p1 : List UInt8) (l1 : UInt64) (s : SortParam) :
    Prop where
  long : sizeofSortParam ≤ l1.toNat
  param : SortParam.ofBytes (p1.take sizeofSortParam) = s
  accepted : s.accepted fd = true
  order : s.startAddr fd < s.endAddr fd
  memory : env.alloc .mergeBuffer = true
  span : 2 ^ 32 ≤ (s.endAddr fd - s.startAddr fd).toNat + 4

theorem sortClean_of_refuses {e : AmReturn} (hf : f.pVdF = some (.stata fd))
    (h : SortRefuses env fd p1 l1 e) : SortClean env f p1 l1 :=
  ⟨f, _, (h.served hf).1, fun _ => rfl⟩

/-- The merge of the whole range leaves a buffer whose size wrapped around. -/
theorem Oversized.not_clean {s : SortParam} (O : Oversized env fd p1 l1 s)
    (hf : f.pVdF = some (.stata fd)) (A : PlacedArray fd) (hp : l1.toNat ≤ p1.length) :
    ¬ SortClean env f p1 l1 := by
  rintro ⟨g, r, hsort, -⟩
  have I := A.inStorage O.accepted O.order
  have hspan := O.span
  rw [amStataSort_of_params hf O.long (O.long.trans hp), O.param, if_pos O.accepted,
    bind_eq_ok] at hsort
  obtain ⟨⟨fd', r'⟩, hrange, -⟩ := hsort
  obtain ⟨-, ⟨hno, -⟩ | ⟨-, -, d, e, hbegin, -⟩⟩ := sortRange_eq_ok.mp hrange
  · exact hno O.order
  · rw [(accepted_of_true O.accepted).dataSize] at hbegin
    have hgood : e = amRetGood := by
      rw [amStataMergeSortBegin, if_pos O.memory, bind_eq_ok] at hbegin
      obtain ⟨_, -, hbegin⟩ := hbegin
      cases hbegin
      rfl
    subst hgood
    obtain ⟨-, -, hsmall⟩ := (amStataMergeSortBegin_good_iff I.order).mp ⟨d, hbegin⟩
    rw [I.span] at hsmall
    omega

/-- For every static array and all parameters: a sort is clean unless its range has 4 GiB. -/
theorem sortClean_iff (hf : f.pVdF = some (.stata fd)) (A : PlacedArray fd)
    (hp : l1.toNat ≤ p1.length) : SortClean env f p1 l1 ↔ ¬ ∃ s, Oversized env fd p1 l1 s := by
  constructor
  · rintro hclean ⟨s, O⟩
    exact O.not_clean hf A hp hclean
  · intro hno
    by_cases hl : sizeofSortParam ≤ l1.toNat
    · have hlen := hl.trans hp
      by_cases hacc : (SortParam.ofBytes (p1.take sizeofSortParam)).accepted fd = true
      · generalize hs : SortParam.ofBytes (p1.take sizeofSortParam) = s at hacc
        have haddr : s.startAddr fd ≠ 0 ∧ s.endAddr fd ≠ 0 := by
          have hstart := A.toNat_startAddr (accepted_of_true hacc)
          obtain ⟨hend, -⟩ := A.toNat_endAddr (accepted_of_true hacc)
          have hpos : fd.addr.toNat ≠ 0 := fun h => A.addr (UInt64.toNat_inj.mp h)
          constructor
          · rintro h0
            rw [h0, UInt64.toNat_zero] at hstart
            omega
          · rintro h0
            rw [h0, UInt64.toNat_zero] at hend
            omega
        by_cases hlt : s.startAddr fd < s.endAddr fd
        · have I := A.inStorage hacc hlt
          by_cases hm : env.alloc .mergeBuffer = true
          · have hsmall : (s.endAddr fd - s.startAddr fd).toNat + 4 < 2 ^ 32 := by
              by_contra hbig
              exact hno ⟨s, hl, hs, hacc, hlt, hm, Nat.not_lt.mp hbig⟩
            obtain ⟨g, r, hsort, hgood⟩ := (amStataSort_good_iff hf).mpr ⟨s, hl, hlen, hs, hacc,
              I.start, hlt, I.above, hm, I.inside, by rw [I.span]; exact hsmall⟩
            exact ⟨g, r, hsort, fun hbad => absurd hgood hbad⟩
          · exact sortClean_of_refuses hf (.noMemory s hl hlen hs hacc haddr hlt I.above
              (Bool.eq_false_iff.mpr hm))
        · exact sortClean_of_refuses hf (.empty s hl hlen hs hacc haddr hlt)
      · exact sortClean_of_refuses hf (.params hl hlen (Bool.eq_false_iff.mpr hacc))
    · exact sortClean_of_refuses hf (.short (Nat.not_le.mp hl))

end Sorts

section Example

def wordsOfCount (count : UInt64) : StataData where
  addr := 0x1000
  data := List.replicate (count.toNat * 4) 0
  flags := 0
  size := count * 4
  arraySize := count
  idxSize := 4
  dataSize := 4

theorem placedArray_words {count : UInt64} (h : count.toNat < 2 ^ 31) :
    PlacedArray (wordsOfCount count) := by
  have hlen : (wordsOfCount count).data.length = count.toNat * 4 := List.length_replicate
  have haddr : (wordsOfCount count).addr.toNat = 4096 := rfl
  have hnull : (wordsOfCount count).addr ≠ 0 := by
    change (0x1000 : UInt64) ≠ 0
    decide
  refine ⟨h, hlen, hnull, ?_, ?_⟩
  · rw [hlen, haddr]
    omega
  · have hsq : count.toNat * count.toNat ≤ 2 ^ 31 * 2 ^ 31 := Nat.mul_le_mul h.le h.le
    change 4096 + count.toNat * count.toNat ≤ 2 ^ 64
    omega

def wordsFunc (count : UInt64) : MemFunction :=
  { MemFunction.blank 0 with pVdF := some (.stata (wordsOfCount count)) }

def wholeParam : List UInt8 := [amSortTypeStataIntegralMerge, 0, 0, 0, 0].flatMap u32Bytes

theorem sortClean_iff_two : SortClean .zeroed (wordsFunc 2) wholeParam 20 ↔
    ¬ ∃ s, Oversized .zeroed (wordsOfCount 2) wholeParam 20 s :=
  sortClean_iff rfl (placedArray_words (by decide)) (by decide)

theorem ofBytes_wholeParam : SortParam.ofBytes (wholeParam.take sizeofSortParam) =
    ⟨amSortTypeStataIntegralMerge, 0, 0, 0, 0⟩ := by
  decide +kernel

/-- The merge buffer of an array of 4 GiB and one element has four bytes. -/
theorem not_sortClean : ¬ ∀ (env : Env) (f : MemFunction) (fd : StataData) (p1 : List UInt8)
    (l1 : UInt64), f.pVdF = some (.stata fd) → PlacedArray fd → l1.toNat ≤ p1.length →
    SortClean env f p1 l1 := by
  intro h
  have A : PlacedArray (wordsOfCount 0x40000001) := placedArray_words (by decide)
  have O : Oversized .zeroed (wordsOfCount 0x40000001) wholeParam 20
      ⟨amSortTypeStataIntegralMerge, 0, 0, 0, 0⟩ :=
    ⟨by decide, ofBytes_wholeParam, rfl, by decide, rfl, by decide⟩
  exact O.not_clean rfl A (by decide)
    (h .zeroed (wordsFunc 0x40000001) _ wholeParam 20 rfl A (by decide))

end Example

end AppMem.Device
