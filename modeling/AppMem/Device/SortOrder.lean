import AppMem.Device.SortRange
import AppMem.Device.SortSafety

/-! # The order of a sort

A request names an order. `am_stata_sort` refuses signed values and values that are not of four
bytes, for which it has no comparison; it does not look at the order, and has one comparison only.
-/
namespace AppMem.Device
open Library.Bytes Library.Checked Abi Memory Pack

section Orders
variable {env : Env} {f : MemFunction} {fd : StataData} {ws : List UInt32} {p1 : List UInt8}
  {l1 : UInt64} {s : SortParam}

def amSortOrderDesc : UInt32 := 1

/-- The private data of a static array of 32-bit values, however many. -/
structure WordData (fd : StataData) (ws : List UInt32) : Prop where
  data : fd.data = ws.flatMap u32Bytes
  size : fd.dataSize = 4
  count : fd.arraySize.toNat = ws.length
  notNull : fd.addr ≠ 0
  fits : fd.addr.toNat + 4 * ws.length ≤ 2 ^ 64

/-- Parameters for a sort of the whole array; the order is not fixed. -/
structure CoversArray (p1 : List UInt8) (s : SortParam) : Prop where
  present : sizeofSortParam ≤ p1.length
  param : SortParam.ofBytes (p1.take sizeofSortParam) = s
  type : s.type = amSortTypeStataIntegralMerge
  startIdx : s.startIdx = 0
  endIdx : s.endIdx = 0

/-- The values stand in the order that is asked for. -/
def SortedBy (order : UInt32) (ws : List UInt32) : Prop :=
  (order = amSortOrderAsc ∧ ws.Pairwise (· ≤ ·)) ∨
    (order = amSortOrderDesc ∧ ws.Pairwise (· ≥ ·))

/-- A sort that comes back good has put the old values in that order. -/
def HonoursOrder (env : Env) (f : MemFunction) (fd : StataData) (ws : List UInt32)
    (p1 : List UInt8) (l1 : UInt64) (s : SortParam) : Prop :=
  ∀ g r, amStataSort env f p1 l1 = .ok (g, r) → r.error = amRetGood →
    ∃ ws', g.pVdF = some (.stata { fd with data := ws'.flatMap u32Bytes }) ∧ ws'.Perm ws ∧
      SortedBy s.order ws'

/-- The sort of the whole array goes through: nothing is refused, there is memory for the buffer,
and the array has less than 4 GiB. -/
structure WholeSort (env : Env) (ws : List UInt32) (l1 : UInt64) (s : SortParam) : Prop where
  long : sizeofSortParam ≤ l1.toNat
  unsigned : s.dataSigned = 0
  two : 2 ≤ ws.length
  memory : env.alloc .mergeBuffer = true
  small : 4 * ws.length < 2 ^ 32

theorem WordData.stores (W : WordData fd ws) (hf : f.pVdF = some (.stata fd))
    (hsmall : 4 * ws.length < 2 ^ 32) : StoresWords f fd ws where
  data := hf
  words := ⟨W.data, W.size, W.notNull, W.fits, hsmall⟩
  count := W.count

theorem CoversArray.startAddr (C : CoversArray p1 s) : s.startAddr fd = fd.addr := by
  rw [SortParam.startAddr, C.startIdx, (by rfl : (0 : UInt32).toUInt64 = 0), UInt64.zero_mul,
    UInt64.add_zero]

/-- The sort of a whole array ends at its last element, also when the array has 4 GiB and more. -/
theorem CoversArray.toNat_endAddr (C : CoversArray p1 s) (W : WordData fd ws)
    (hpos : 0 < ws.length) : (s.endAddr fd).toNat = fd.addr.toNat + 4 * (ws.length - 1) := by
  have hcount := W.count
  have hfits := W.fits
  have hone : (1 : UInt64) ≤ fd.arraySize := by
    rw [UInt64.le_iff_toNat_le]
    exact hcount ▸ hpos
  rw [SortParam.endAddr, if_pos C.endIdx, W.size, UInt64.toNat_add, UInt64.toNat_mul,
    UInt64.toNat_sub_of_le _ _ hone, hcount]
  simp only [UInt32.toNat_toUInt64, UInt32.reduceToNat, UInt64.reduceToNat]
  omega

theorem SortParam.accepted_unsigned (s : SortParam) (h : s.accepted fd = true) :
    s.dataSigned = 0 := by
  simp only [SortParam.accepted, Bool.and_eq_true, beq_iff_eq] at h
  exact h.1.2

theorem CoversArray.accepted (C : CoversArray p1 s) (W : WordData fd ws) (hpos : 0 < ws.length)
    (hunsigned : s.dataSigned = 0) : s.accepted fd = true := by
  simp only [SortParam.accepted, C.type, C.startIdx, C.endIdx, hunsigned, W.size, beq_self_eq_true,
    Bool.true_and, Bool.and_true, Bool.and_eq_true, decide_eq_true_eq, UInt64.lt_iff_toNat_lt,
    W.count]
  exact ⟨hpos, hpos⟩

theorem wholeSort_of_good (hf : f.pVdF = some (.stata fd)) (W : WordData fd ws)
    (C : CoversArray p1 s) {g : MemFunction} {r : Served}
    (hsort : amStataSort env f p1 l1 = .ok (g, r)) (hgood : r.error = amRetGood) :
    WholeSort env ws l1 s := by
  obtain ⟨t, R⟩ := (amStataSort_good_iff hf).mp ⟨g, r, hsort, hgood⟩
  have hts : t = s := R.param.symm.trans C.param
  rw [hts] at R
  have hpos : 0 < ws.length := by
    rw [← W.count]
    exact Nat.zero_lt_of_lt (accepted_of_true R.accepted).startIdx
  have hend := C.toNat_endAddr W hpos
  have horder := R.order
  have hwrap := R.unwrapped
  rw [C.startAddr] at horder hwrap
  have hlt := UInt64.lt_iff_toNat_lt.mp horder
  rw [UInt64.toNat_sub_of_le _ _ (UInt64.le_refl _),
    UInt64.toNat_sub_of_le _ _ (UInt64.le_of_lt horder)] at hwrap
  refine ⟨R.long, s.accepted_unsigned R.accepted, by omega, R.memory, by omega⟩

/-- Whatever the order, the values end up in ascending order. -/
theorem WholeSort.ascending (S : WholeSort env ws l1 s) (hf : f.pVdF = some (.stata fd))
    (W : WordData fd ws) (C : CoversArray p1 s) :
    ∃ ws' : List UInt32, amStataSort env f p1 l1 =
        .ok ({ f with pVdF := some (.stata { fd with data := ws'.flatMap u32Bytes }) },
          { error := amRetGood }) ∧
      ws'.Perm ws ∧ ws'.Pairwise (· ≤ ·) := by
  have hstores := W.stores hf S.small
  have htwo := S.two
  have hpos : 0 < ws.length := by omega
  have hlast : ws.length - 1 < ws.length := by omega
  have hstart : s.startAddr fd = fd.elementAddr 0 := by
    rw [C.startAddr, StataData.elementAddr]
    exact (UInt64.add_zero _).symm
  have hend : s.endAddr fd = fd.elementAddr (ws.length - 1) := by
    apply UInt64.toNat_inj.mp
    rw [C.toNat_endAddr W hpos, hstores.words.toNat_elementAddr hlast]
  obtain ⟨ws', hsort, B⟩ :=
    (sortRange_sorts env hstores.words (by omega : 0 < ws.length - 1) hlast).1 S.memory
  have hwhole {l : List UInt32} (hl : l.length = ws.length) :
      window l 0 (ws.length - 1 + 1 - 0) = l := by
    rw [Nat.sub_zero, Nat.sub_add_cancel hpos, window_zero, ← hl, List.take_length]
  refine ⟨ws', ?_, ?_, ?_⟩
  · rw [amStataSort_of_params hf S.long C.present, C.param, if_pos (C.accepted W hpos S.unsigned),
      hstart, hend, hsort, ok_bind]
  · have hperm := B.perm
    rwa [hwhole B.length, hwhole rfl] at hperm
  · have hsorted := B.sorted
    rwa [hwhole B.length] at hsorted

/-- An ascending order is the one that is asked for, unless another one cannot be told from it. -/
theorem sortedBy_ascending {ws' : List UInt32} {order : UInt32} (hperm : ws'.Perm ws)
    (hsorted : ws'.Pairwise (· ≤ ·)) : SortedBy order ws' ↔
      order = amSortOrderAsc ∨ (order = amSortOrderDesc ∧ ∀ a ∈ ws, ∀ b ∈ ws, a = b) := by
  constructor
  · rintro (⟨hasc, -⟩ | ⟨hdesc, hge⟩)
    · exact .inl hasc
    · refine .inr ⟨hdesc, fun a ha b hb => ?_⟩
      have hboth : ws'.Pairwise (· = ·) :=
        (hsorted.and hge).imp fun h => UInt32.le_antisymm h.1 h.2
      exact hboth.forall_of_forall (fun _ _ => rfl) (hperm.mem_iff.mpr ha) (hperm.mem_iff.mpr hb)
  · rintro (hasc | ⟨hdesc, hsame⟩)
    · exact .inl ⟨hasc, hsorted⟩
    · refine .inr ⟨hdesc, ?_⟩
      apply List.pairwise_of_forall_mem_list
      intro a ha b hb
      rw [hsame a (hperm.mem_iff.mp ha) b (hperm.mem_iff.mp hb)]
      exact UInt32.le_refl b

theorem WholeSort.not_honours (S : WholeSort env ws l1 s) (hf : f.pVdF = some (.stata fd))
    (W : WordData fd ws) (C : CoversArray p1 s)
    (hno : ¬ (s.order = amSortOrderAsc ∨
      (s.order = amSortOrderDesc ∧ ∀ a ∈ ws, ∀ b ∈ ws, a = b))) :
    ¬ HonoursOrder env f fd ws p1 l1 s := by
  intro h
  obtain ⟨ws', hsort, hperm, hsorted⟩ := S.ascending hf W C
  obtain ⟨v, hv, -, hby⟩ := h _ _ hsort rfl
  have hwords : ws'.flatMap u32Bytes = v.flatMap u32Bytes :=
    congrArg StataData.data (FuncData.stata.inj (Option.some.inj hv))
  rw [← words_injective hwords] at hby
  exact hno ((sortedBy_ascending hperm hsorted).mp hby)

/-- For every static array of 32-bit values, all parameters that cover it and every order. -/
theorem honoursOrder_iff (hf : f.pVdF = some (.stata fd)) (W : WordData fd ws)
    (C : CoversArray p1 s) : HonoursOrder env f fd ws p1 l1 s ↔
      (WholeSort env ws l1 s → s.order = amSortOrderAsc ∨
        (s.order = amSortOrderDesc ∧ ∀ a ∈ ws, ∀ b ∈ ws, a = b)) := by
  constructor
  · intro h S
    by_contra hno
    exact S.not_honours hf W C hno h
  · intro hwhole g r hsort hgood
    have S := wholeSort_of_good hf W C hsort hgood
    obtain ⟨ws', hsort', hperm, hsorted⟩ := S.ascending hf W C
    rw [hsort] at hsort'
    cases hsort'
    exact ⟨ws', rfl, hperm, (sortedBy_ascending hperm hsorted).mpr (hwhole S)⟩

end Orders

section Example

def descendingParam : List UInt8 :=
  [amSortTypeStataIntegralMerge, 0, 0, amSortOrderDesc, 0].flatMap u32Bytes

def descendingSort : SortParam := ⟨amSortTypeStataIntegralMerge, 0, 0, amSortOrderDesc, 0⟩

theorem coversArray_descending : CoversArray descendingParam descendingSort where
  present := by decide
  param := by decide +kernel
  type := rfl
  startIdx := rfl
  endIdx := rfl

theorem wordData_twoWords : WordData twoWords [2, 1] where
  data := rfl
  size := rfl
  count := rfl
  notNull := by decide
  fits := by decide

def pairFunc : MemFunction := { MemFunction.blank 0 with pVdF := some (.stata twoWords) }

theorem honoursOrder_iff_twoWords :
    HonoursOrder .zeroed pairFunc twoWords [2, 1] descendingParam 20 descendingSort ↔
      (WholeSort .zeroed [2, 1] 20 descendingSort → descendingSort.order = amSortOrderAsc ∨
        (descendingSort.order = amSortOrderDesc ∧
          ∀ a ∈ ([2, 1] : List UInt32), ∀ b ∈ ([2, 1] : List UInt32), a = b)) :=
  honoursOrder_iff rfl wordData_twoWords coversArray_descending

/-- A descending sort of two elements that stand in descending order puts them in ascending order. -/
theorem not_honoursOrder : ¬ ∀ (env : Env) (f : MemFunction) (fd : StataData) (ws : List UInt32)
    (p1 : List UInt8) (l1 : UInt64) (s : SortParam), f.pVdF = some (.stata fd) → WordData fd ws →
    CoversArray p1 s → HonoursOrder env f fd ws p1 l1 s := by
  intro h
  have S : WholeSort .zeroed [2, 1] 20 descendingSort :=
    ⟨by decide, rfl, by decide, rfl, by decide⟩
  have hno : ¬ (descendingSort.order = amSortOrderAsc ∨ (descendingSort.order = amSortOrderDesc ∧
      ∀ a ∈ ([2, 1] : List UInt32), ∀ b ∈ ([2, 1] : List UInt32), a = b)) := by
    rintro (hasc | ⟨-, hsame⟩)
    · exact absurd hasc (by decide)
    · exact absurd (hsame 2 List.mem_cons_self 1 (List.mem_cons_of_mem _ List.mem_cons_self))
        (by decide)
  exact S.not_honours rfl wordData_twoWords coversArray_descending hno
    (h .zeroed pairFunc _ _ _ 20 _ rfl wordData_twoWords coversArray_descending)

end Example

end AppMem.Device
