import AppMem.Device.Refusal
import AppMem.Device.SortCorrect

/-! # Sorting a range of an array

An array of 32-bit values, addressed by its elements. `am_stata_merge_sort_begin` sorts the elements
between two addresses; `am_stata_sort` computes these from indices, and takes the number of elements
for the size of one where it computes the first.
-/
namespace AppMem.Device
open Library.Bytes Library.Checked Abi Memory Pack

section Arrays
variable {fd : StataData} {ws ws' : List UInt32} {i j : ℕ}

theorem take_words (ws : List UInt32) (i : ℕ) :
    (ws.flatMap u32Bytes).take (4 * i) = (ws.take i).flatMap u32Bytes := by
  induction ws generalizing i with
  | nil => rw [List.flatMap_nil, List.take_nil, List.take_nil, List.flatMap_nil]
  | cons w ws ih =>
    cases i with
    | zero => rfl
    | succ i =>
      rw [List.flatMap_cons, List.take_succ_cons, List.flatMap_cons, ← ih, Nat.mul_succ,
        List.take_append, length_u32Bytes, Nat.add_sub_cancel, List.take_of_length_le]
      rw [length_u32Bytes]
      omega

theorem drop_words (ws : List UInt32) (i : ℕ) :
    (ws.flatMap u32Bytes).drop (4 * i) = (ws.drop i).flatMap u32Bytes := by
  induction ws generalizing i with
  | nil => rw [List.flatMap_nil, List.drop_nil, List.drop_nil, List.flatMap_nil]
  | cons w ws ih =>
    cases i with
    | zero => rfl
    | succ i =>
      rw [List.flatMap_cons, List.drop_succ_cons, ← ih, Nat.mul_succ, List.drop_append,
        length_u32Bytes, Nat.add_sub_cancel, List.drop_of_length_le, List.nil_append]
      rw [length_u32Bytes]
      omega

theorem holds_window {n : ℕ} (h : i + n ≤ ws.length) :
    Holds (ws.flatMap u32Bytes) (4 * i) (window ws i n) := by
  have hlen : (window ws i n).length = n := length_window h
  constructor
  · rw [hlen, length_words]
    omega
  · rw [hlen, window, drop_words, take_words]
    rfl

theorem splice_words (ws a : List UInt32) (i : ℕ) :
    splice (ws.flatMap u32Bytes) (4 * i) (a.flatMap u32Bytes) =
      (splice ws i a).flatMap u32Bytes := by
  rw [splice, splice, List.flatMap_append, List.flatMap_append, length_words, ← Nat.mul_add,
    take_words, drop_words]

/-- The storage of an array of 32-bit values; it is not at address 0, does not wrap around and has
less than 4 GiB. -/
structure WordArray (fd : StataData) (ws : List UInt32) : Prop where
  data : fd.data = ws.flatMap u32Bytes
  size : fd.dataSize = 4
  notNull : fd.addr ≠ 0
  fits : fd.addr.toNat + 4 * ws.length ≤ 2 ^ 64
  small : 4 * ws.length < 2 ^ 32

def StataData.elementAddr (fd : StataData) (i : ℕ) : UInt64 := fd.addr + (4 * i).toUInt64

/-- The elements from `i` to `j` are sorted, and nothing else has changed. -/
structure SortedBetween (ws ws' : List UInt32) (i j : ℕ) : Prop where
  length : ws'.length = ws.length
  sorted : (window ws' i (j + 1 - i)).Pairwise (· ≤ ·)
  perm : (window ws' i (j + 1 - i)).Perm (window ws i (j + 1 - i))
  frame : ∀ k, k < i ∨ j < k → ws'[k]? = ws[k]?

theorem SortOf.between {a : List UInt32} (h : SortOf (window ws i (j + 1 - i)) a) (hij : i ≤ j)
    (hj : j < ws.length) : SortedBetween ws (splice ws i a) i j := by
  have hlen : a.length = j + 1 - i := by
    rw [h.perm.length_eq]
    exact length_window (by omega)
  have hin : i + a.length ≤ ws.length := by omega
  have hwin : window (splice ws i a) i (j + 1 - i) = a := by
    rw [← hlen]
    exact window_splice hin
  constructor
  · exact length_splice hin
  · rw [hwin]
    exact h.sorted
  · rw [hwin]
    exact h.perm
  · intro k hk
    rw [getElem?_splice hin, if_neg (by omega)]

theorem WordArray.toNat_elementAddr (h : WordArray fd ws) (hi : i < ws.length) :
    (fd.elementAddr i).toNat = fd.addr.toNat + 4 * i := by
  have hfits := h.fits
  have hsmall := h.small
  simp only [StataData.elementAddr, UInt64.toNat_add, Nat.toUInt64, UInt64.toNat_ofNat']
  omega

theorem WordArray.le_elementAddr (h : WordArray fd ws) (hi : i < ws.length) :
    fd.addr ≤ fd.elementAddr i := by
  rw [UInt64.le_iff_toNat_le, h.toNat_elementAddr hi]
  exact Nat.le_add_right _ _

theorem WordArray.offset (h : WordArray fd ws) (hi : i < ws.length) :
    (fd.elementAddr i - fd.addr).toNat = 4 * i := by
  rw [UInt64.toNat_sub_of_le _ _ (h.le_elementAddr hi), h.toNat_elementAddr hi,
    Nat.add_sub_cancel_left]

theorem WordArray.elementAddr_ne_zero (h : WordArray fd ws) (hi : i < ws.length) :
    fd.elementAddr i ≠ 0 := by
  intro h0
  have haddr := h.toNat_elementAddr hi
  rw [h0] at haddr
  apply h.notNull
  apply UInt64.toNat_inj.mp
  exact (Nat.add_eq_zero_iff.mp haddr.symm).1

theorem amStataMergeSortBegin_sorts {env : Env} (hm : env.alloc .mergeBuffer = true)
    (hsmall : 4 * ws.length < 2 ^ 32) (hij : i < j) (hj : j < ws.length) :
    ∃ ws', amStataMergeSortBegin env (ws.flatMap u32Bytes) (4 * i) (4 * j) 4 =
      .ok (ws'.flatMap u32Bytes, amRetGood) ∧ SortedBetween ws ws' i j := by
  have hlen : (window ws i (j + 1 - i)).length = j + 1 - i := length_window (by omega)
  have hbuf : 4 * (window ws i (j + 1 - i)).length ≤
      (env.garbage (sizeMergeBytes (4 * i) (4 * j) 4)).length := by
    rw [Env.length_garbage, sizeMergeBytes, hlen]
    omega
  obtain ⟨a, buf, hsort, -, S⟩ := amStataMergeSort_sorts (ws.flatMap u32Bytes)
    (env.garbage (sizeMergeBytes (4 * i) (4 * j) 4)) (window ws i (j + 1 - i)) (r := 0)
    (s := 4 * i) (e := 4 * j) (by decide) (by omega) (Nat.le_refl _) (by omega)
    (holds_window (by omega)) hbuf
  refine ⟨splice ws i a, ?_, S.between hij.le hj⟩
  rw [amStataMergeSortBegin, if_pos hm]
  dsimp only
  rw [hsort, ok_bind, splice_words]
  rfl

/-- `am_stata_merge_sort_begin` on the addresses of two elements. -/
theorem sortRange_sorts (env : Env) (h : WordArray fd ws) (hij : i < j) (hj : j < ws.length) :
    (env.alloc .mergeBuffer = true →
      ∃ ws', sortRange env fd (fd.elementAddr i) (fd.elementAddr j) =
          .ok ({ fd with data := ws'.flatMap u32Bytes }, { error := amRetGood }) ∧
        SortedBetween ws ws' i j) ∧
    (env.alloc .mergeBuffer = false →
      sortRange env fd (fd.elementAddr i) (fd.elementAddr j) =
        .ok (fd, { error := amRetAllocErr })) := by
  have hi := h.toNat_elementAddr (hij.trans hj)
  have hj' := h.toNat_elementAddr hj
  have hlt : fd.elementAddr i < fd.elementAddr j := by
    rw [UInt64.lt_iff_toNat_lt]
    omega
  have habove := h.le_elementAddr (hij.trans hj)
  have hsize : fd.dataSize.toNat = 4 := by
    rw [h.size]
    rfl
  have hasserts : fd.elementAddr i ≠ 0 ∧ fd.elementAddr j ≠ 0 ∧ fd.dataSize ≠ 0 := by
    refine ⟨h.elementAddr_ne_zero (hij.trans hj), h.elementAddr_ne_zero hj, ?_⟩
    rw [h.size]
    decide
  have hrun (d : List UInt8) (e : AmReturn)
      (hs : amStataMergeSortBegin env (ws.flatMap u32Bytes) (4 * i) (4 * j) 4 = .ok (d, e)) :
      sortRange env fd (fd.elementAddr i) (fd.elementAddr j) =
        .ok ({ fd with data := d }, { error := e }) := by
    refine sortRange_eq_ok.mpr ⟨hasserts, .inr ⟨hlt, habove, d, e, ?_, rfl, rfl⟩⟩
    rw [h.data, h.offset (hij.trans hj), h.offset hj, hsize, hs]
  constructor
  · intro hm
    obtain ⟨ws', hs, S⟩ := amStataMergeSortBegin_sorts hm h.small hij hj
    exact ⟨ws', hrun _ _ hs, S⟩
  · intro hm
    have hs : amStataMergeSortBegin env (ws.flatMap u32Bytes) (4 * i) (4 * j) 4 =
        .ok (ws.flatMap u32Bytes, amRetAllocErr) := by
      rw [amStataMergeSortBegin, hm]
      rfl
    rw [hrun _ _ hs, ← h.data]

def twoWords : StataData where
  addr := 0x1000
  data := [2, 1].flatMap u32Bytes
  flags := 0
  size := 8
  arraySize := 2
  idxSize := 4
  dataSize := 4

theorem wordArray_twoWords : WordArray twoWords [2, 1] where
  data := rfl
  size := rfl
  notNull := by decide
  fits := by decide
  small := by decide

theorem sortRange_sorts_twoWords :
    ∃ ws', sortRange .zeroed twoWords (twoWords.elementAddr 0) (twoWords.elementAddr 1) =
        .ok ({ twoWords with data := ws'.flatMap u32Bytes }, { error := amRetGood }) ∧
      SortedBetween [2, 1] ws' 0 1 :=
  (sortRange_sorts .zeroed wordArray_twoWords (by decide) (by decide)).1 rfl

end Arrays

section Requests
variable {env : Env} {n : ℕ} {f : MemFunction} {fd : StataData} {ws : List UInt32}
  {p1 : List UInt8} {l1 : UInt64} {s : SortParam}

def amSortOrderAsc : UInt32 := 0

/-- The last index that is asked for; 0 stands for the end of the array. -/
def SortParam.lastIdx (s : SortParam) (n : ℕ) : ℕ := if s.endIdx = 0 then n - 1 else s.endIdx.toNat

/-- Parameters that ask for an ascending sort of an index range of an array of `n` elements. -/
structure AsksSort (n : ℕ) (p1 : List UInt8) (l1 : UInt64) (s : SortParam) : Prop where
  long : sizeofSortParam ≤ l1.toNat
  present : sizeofSortParam ≤ p1.length
  param : SortParam.ofBytes (p1.take sizeofSortParam) = s
  type : s.type = amSortTypeStataIntegralMerge
  order : s.order = amSortOrderAsc
  unsigned : s.dataSigned = 0
  start : s.startIdx.toNat < s.lastIdx n
  last : s.lastIdx n < n

structure StoresWords (f : MemFunction) (fd : StataData) (ws : List UInt32) : Prop where
  data : f.pVdF = some (.stata fd)
  words : WordArray fd ws
  count : fd.arraySize.toNat = ws.length

/-- The sort of the range that is asked for, in every array of `n` elements. -/
def SortsRange (env : Env) (n : ℕ) (p1 : List UInt8) (l1 : UInt64) (s : SortParam) : Prop :=
  ∀ f fd ws, StoresWords f fd ws → ws.length = n →
    ∃ ws', amStataSort env f p1 l1 =
        .ok ({ f with pVdF := some (.stata { fd with data := ws'.flatMap u32Bytes }) },
          { error := amRetGood }) ∧
      SortedBetween ws ws' s.startIdx.toNat (s.lastIdx n)

theorem AsksSort.accepted (ha : AsksSort n p1 l1 s) (h : StoresWords f fd ws)
    (hn : ws.length = n) : s.accepted fd = true := by
  have hstart := ha.start
  have hlast := ha.last
  have hend : s.endIdx.toNat < n := by
    unfold SortParam.lastIdx at hlast
    by_cases h0 : s.endIdx = 0
    · rw [h0]
      exact Nat.zero_lt_of_lt hlast
    · rwa [if_neg h0] at hlast
  simp only [SortParam.accepted, ha.type, ha.unsigned, h.words.size, beq_self_eq_true,
    Bool.true_and, Bool.and_true, Bool.and_eq_true, decide_eq_true_eq, UInt64.lt_iff_toNat_lt,
    UInt32.toNat_toUInt64, h.count, hn]
  omega

theorem AsksSort.sort (ha : AsksSort n p1 l1 s) (h : StoresWords f fd ws) (hn : ws.length = n) :
    amStataSort env f p1 l1 = sortRange env fd (s.startAddr fd) (s.endAddr fd) >>= fun r =>
      .ok ({ f with pVdF := some (.stata r.1) }, r.2) := by
  rw [amStataSort_of_params h.data ha.long ha.present, ha.param, if_pos (ha.accepted h hn)]

theorem AsksSort.endAddr (ha : AsksSort n p1 l1 s) (h : StoresWords f fd ws) (hn : ws.length = n) :
    s.endAddr fd = fd.elementAddr (s.lastIdx n) := by
  have hlast := ha.last
  have hsmall := h.words.small
  have hcount := h.count
  rw [hn] at hsmall hcount
  unfold SortParam.endAddr StataData.elementAddr
  unfold SortParam.lastIdx at hlast ⊢
  by_cases h0 : s.endIdx = 0
  · rw [if_pos h0] at hlast ⊢
    rw [if_pos h0]
    congr 1
    have hone : (1 : UInt64) ≤ fd.arraySize := by
      rw [UInt64.le_iff_toNat_le]
      exact hcount ▸ Nat.one_le_of_lt hlast
    apply UInt64.toNat_inj.mp
    rw [h.words.size, UInt64.toNat_mul, UInt64.toNat_sub_of_le _ _ hone, hcount]
    simp only [Nat.toUInt64, UInt64.toNat_ofNat', UInt32.toNat_toUInt64, UInt32.reduceToNat,
      UInt64.reduceToNat]
    omega
  · rw [if_neg h0] at hlast ⊢
    rw [if_neg h0]
    congr 1
    apply UInt64.toNat_inj.mp
    rw [h.words.size, UInt32.toNat_toUInt64, UInt32.toNat_mul]
    simp only [Nat.toUInt64, UInt64.toNat_ofNat', UInt32.reduceToNat]
    omega

/-- The number of bytes in front of the range, as the sort computes it. -/
theorem toNat_startOffset (h : StoresWords f fd ws) (hs : s.startIdx.toNat < ws.length) :
    (s.startIdx.toUInt64 * fd.arraySize).toNat = s.startIdx.toNat * ws.length := by
  have hsmall := h.words.small
  have hprod : s.startIdx.toNat * ws.length < 2 ^ 64 := by
    have hle : s.startIdx.toNat * ws.length ≤ ws.length * ws.length :=
      Nat.mul_le_mul_right _ hs.le
    have hlt : ws.length * ws.length < 2 ^ 32 * 2 ^ 32 := Nat.mul_lt_mul'' (by omega) (by omega)
    exact hle.trans_lt (hlt.trans_eq (by decide))
  rw [UInt64.toNat_mul, UInt32.toNat_toUInt64, h.count, Nat.mod_eq_of_lt hprod]

/-- It is right for a range from the start, and where the elements are as many as their bytes. -/
theorem startAddr_eq (h : StoresWords f fd ws) (hs : s.startIdx.toNat < ws.length)
    (hok : s.startIdx = 0 ∨ ws.length = 4) :
    s.startAddr fd = fd.elementAddr s.startIdx.toNat := by
  have hoff := toNat_startOffset h hs
  unfold SortParam.startAddr StataData.elementAddr
  congr 1
  apply UInt64.toNat_inj.mp
  rw [hoff]
  simp only [Nat.toUInt64, UInt64.toNat_ofNat']
  rcases hok with h0 | h4
  · rw [h0]
    simp only [UInt32.reduceToNat]
    omega
  · rw [h4]
    omega

theorem sortsRange_of_start (hm : env.alloc .mergeBuffer = true) (ha : AsksSort n p1 l1 s)
    (hok : s.startIdx = 0 ∨ n = 4) : SortsRange env n p1 l1 s := by
  intro f fd ws h hn
  have hlast := ha.last
  have hstart : s.startIdx.toNat < ws.length := by
    rw [hn]
    exact ha.start.trans hlast
  rw [← hn] at hok hlast
  obtain ⟨ws', hsort, S⟩ := (sortRange_sorts env h.words (hn ▸ ha.start) hlast).1 hm
  refine ⟨ws', ?_, hn ▸ S⟩
  rw [ha.sort h hn, ha.endAddr h hn, startAddr_eq h hstart hok, ← hn, hsort, ok_bind]

/-- What the sort leaves alone, where it goes to work from byte `offset` on. -/
theorem amStataMergeSortBegin_frame {data d : List UInt8} {offset e : ℕ}
    (hm : env.alloc .mergeBuffer = true) (hlt : offset < e) (hin : e + 4 ≤ data.length)
    (hsmall : data.length < 2 ^ 32)
    (h : amStataMergeSortBegin env data offset e 4 = .ok (d, amRetGood)) (k : ℕ)
    (hk : k < offset ∨ offset + 4 * ((e - offset) / 4 + 1) ≤ k) : d[k]? = data[k]? := by
  obtain ⟨ws, hlen, hw⟩ := exists_holds (l := data) (p := offset) (n := (e - offset) / 4 + 1)
    (by omega)
  have hbuf : 4 * ws.length ≤ (env.garbage (sizeMergeBytes offset e 4)).length := by
    rw [Env.length_garbage, sizeMergeBytes, hlen]
    omega
  obtain ⟨a, buf, hsort, -, S⟩ := amStataMergeSort_sorts data
    (env.garbage (sizeMergeBytes offset e 4)) ws (r := (e - offset) % 4) (s := offset) (e := e)
    (Nat.mod_lt _ (by decide)) (by omega) (Nat.le_refl _) (by omega) hw hbuf
  rw [amStataMergeSortBegin, if_pos hm] at h
  dsimp only at h
  rw [hsort, ok_bind] at h
  cases h
  have ha : a.length = (e - offset) / 4 + 1 := S.perm.length_eq.trans hlen
  have hspl : offset + (a.flatMap u32Bytes).length ≤ data.length := by
    rw [length_words]
    omega
  rw [getElem?_splice hspl, length_words, if_neg (by omega)]

theorem AsksSort.frame (hm : env.alloc .mergeBuffer = true) (ha : AsksSort n p1 l1 s)
    (h : StoresWords f fd ws) (hn : ws.length = n) {d : List UInt8}
    (hfits : fd.addr.toNat + s.startIdx.toNat * n < 2 ^ 64)
    (hsort : amStataSort env f p1 l1 =
      .ok ({ f with pVdF := some (.stata { fd with data := d }) }, { error := amRetGood })) (k : ℕ)
    (hk : k < s.startIdx.toNat * n ∨ s.startIdx.toNat * n +
      4 * ((4 * s.lastIdx n - s.startIdx.toNat * n) / 4 + 1) ≤ k) : d[k]? = fd.data[k]? := by
  have hlast : s.lastIdx n < ws.length := by
    rw [hn]
    exact ha.last
  have hstart : s.startIdx.toNat < ws.length := ha.start.trans hlast
  have hoff := toNat_startOffset h hstart
  rw [hn] at hoff
  have hstartAddr : (s.startAddr fd).toNat = fd.addr.toNat + s.startIdx.toNat * n := by
    rw [SortParam.startAddr, UInt64.toNat_add, hoff, Nat.mod_eq_of_lt hfits]
  have hsize : fd.dataSize.toNat = 4 := by
    rw [h.words.size]
    rfl
  have hdata : fd.data.length = 4 * ws.length := by rw [h.words.data, length_words]
  rw [ha.sort h hn, ha.endAddr h hn, bind_eq_ok] at hsort
  rcases hsort with ⟨⟨fd', r⟩, hrange, hsort⟩
  simp only [Except.ok.injEq, Prod.mk.injEq] at hsort
  obtain ⟨hf, rfl⟩ := hsort
  have hfd : fd' = { fd with data := d } := by
    have hdat := congrArg MemFunction.pVdF hf
    simpa using hdat
  obtain ⟨-, ⟨-, -, hr⟩ | ⟨hlt, habove, d', e, hs, hd, he⟩⟩ := sortRange_eq_ok.mp hrange
  · cases hr
  · cases he
    rw [hfd] at hd
    have hdd : d = d' := congrArg StataData.data hd
    subst hdd
    rw [UInt64.lt_iff_toNat_lt, hstartAddr, h.words.toNat_elementAddr hlast] at hlt
    rw [UInt64.toNat_sub_of_le _ _ habove, hstartAddr, Nat.add_sub_cancel_left,
      h.words.offset hlast, hsize] at hs
    have hsmall := h.words.small
    apply amStataMergeSortBegin_frame hm (by omega) (by omega) (by omega) hs k
    exact hk

def arrayOf (ws : List UInt32) : StataData where
  addr := 0x1000
  data := ws.flatMap u32Bytes
  flags := 0
  size := (4 * ws.length).toUInt64
  arraySize := ws.length.toUInt64
  idxSize := 4
  dataSize := 4

theorem storesWords_arrayOf (hsmall : 4 * ws.length < 2 ^ 32) :
    StoresWords { MemFunction.blank 0 with pVdF := some (.stata (arrayOf ws)) } (arrayOf ws) ws where
  data := rfl
  words := by
    refine ⟨rfl, rfl, (by decide : (0x1000 : UInt64) ≠ 0), ?_, hsmall⟩
    change 0x1000 + 4 * ws.length ≤ 2 ^ 64
    omega
  count := by
    simp only [arrayOf, Nat.toUInt64, UInt64.toNat_ofNat']
    omega

theorem getElem?_words {m : ℕ} {v : UInt32} (hv : ws[m]? = some v) {b : ℕ} (hb : b < 4) :
    (ws.flatMap u32Bytes)[4 * m + b]? = (u32Bytes v)[b]? := by
  have hdrop : ((ws.drop m).flatMap u32Bytes)[b]? = (ws.flatMap u32Bytes)[4 * m + b]? := by
    rw [← drop_words, List.getElem?_drop]
  obtain ⟨hm, rfl⟩ := List.getElem?_eq_some_iff.mp hv
  rw [← hdrop, List.drop_eq_getElem_cons hm, List.flatMap_cons, List.getElem?_append_left]
  rwa [length_u32Bytes]

def oneSet (n m : ℕ) (v : UInt32) : List UInt32 := (List.replicate n 0).set m v

theorem not_sortsRange_of_byte {v : UInt32} {m k b : ℕ} (hm : env.alloc .mergeBuffer = true)
    (ha : AsksSort n p1 l1 s) (hsmall : 4 * n < 2 ^ 32) (hb : b < 4)
    (houtside : 4 * k + b < s.startIdx.toNat * n ∨ s.startIdx.toNat * n +
      4 * ((4 * s.lastIdx n - s.startIdx.toNat * n) / 4 + 1) ≤ 4 * k + b)
    (hwrong : ∀ ws', SortedBetween (oneSet n m v) ws' s.startIdx.toNat (s.lastIdx n) →
      ∃ w w', (oneSet n m v)[k]? = some w ∧ ws'[k]? = some w' ∧
        (u32Bytes w)[b]? ≠ (u32Bytes w')[b]?) :
    ¬ SortsRange env n p1 l1 s := by
  intro hall
  have hlen : (oneSet n m v).length = n := by
    rw [oneSet, List.length_set, List.length_replicate]
  have hsmall : 4 * (oneSet n m v).length < 2 ^ 32 := by rwa [hlen]
  have hstores := storesWords_arrayOf hsmall
  obtain ⟨ws', hsort, S⟩ := hall _ _ _ hstores hlen
  obtain ⟨w, w', hw, hw', hne⟩ := hwrong ws' S
  have hprod : s.startIdx.toNat * n < 2 ^ 62 := by
    have hle : s.startIdx.toNat * n ≤ n * n := Nat.mul_le_mul_right _ (ha.start.trans ha.last).le
    have hlt : n * n < 2 ^ 31 * 2 ^ 31 := Nat.mul_lt_mul'' (by omega) (by omega)
    exact hle.trans_lt (hlt.trans_eq (by decide))
  have hfits : (arrayOf (oneSet n m v)).addr.toNat + s.startIdx.toNat * n < 2 ^ 64 := by
    change 0x1000 + _ < _
    omega
  have hsame := ha.frame hm hstores hlen hfits hsort (4 * k + b) houtside
  rw [getElem?_words hw' hb] at hsame
  change _ = ((oneSet n m v).flatMap u32Bytes)[4 * k + b]? at hsame
  rw [getElem?_words hw hb] at hsame
  exact hne hsame.symm

theorem SortedBetween.head_zero {ws' : List UInt32} {i j : ℕ} (S : SortedBetween ws ws' i j)
    (h0 : (0 : UInt32) ∈ window ws i (j + 1 - i)) : ws'[i]? = some 0 := by
  have hmem := S.perm.mem_iff.mpr h0
  have hsorted := S.sorted
  have hget : (window ws' i (j + 1 - i))[0]? = ws'[i]? := by
    rw [getElem?_window, if_pos, Nat.add_zero]
    by_contra hnone
    rw [Nat.eq_zero_of_not_pos hnone, window, List.take_zero] at hmem
    cases hmem
  generalize window ws' i (j + 1 - i) = l at hmem hsorted hget
  cases l with
  | nil => cases hmem
  | cons x l =>
    rw [← hget, List.getElem?_cons_zero]
    rcases List.mem_cons.mp hmem with hx | hx
    · rw [hx]
    · have hle : x ≤ 0 := (List.pairwise_cons.mp hsorted).1 0 hx
      rw [UInt32.le_zero_iff.mp hle]

theorem SortedBetween.second {ws' : List UInt32} {i : ℕ} {x y : UInt32}
    (S : SortedBetween ws ws' i (i + 1)) (hw : window ws i 2 = [y, x]) (hxy : x < y) :
    ws'[i + 1]? = some y := by
  have htwo : i + 1 + 1 - i = 2 := by omega
  have hperm := S.perm
  have hsorted := S.sorted
  rw [htwo] at hperm hsorted
  rw [hw] at hperm
  have hget : (window ws' i 2)[1]? = ws'[i + 1]? := by rw [getElem?_window, if_pos (by decide)]
  generalize window ws' i 2 = l at hperm hsorted hget
  match l, hperm.length_eq with
  | [a, b], _ =>
    have hab : a ≤ b := (List.pairwise_cons.mp hsorted).1 b List.mem_cons_self
    rw [← hget]
    have hy : y ∈ [a, b] := hperm.mem_iff.mpr List.mem_cons_self
    have hb : b ∈ [y, x] := hperm.mem_iff.mp (List.mem_cons_of_mem _ List.mem_cons_self)
    simp only [List.mem_cons, List.not_mem_nil, or_false] at hy hb
    rcases hy with rfl | rfl
    · rcases hb with rfl | rfl
      · rfl
      · exact absurd (UInt32.lt_of_le_of_lt hab hxy) (UInt32.lt_irrefl _)
    · rfl

/-- For every number of elements and every range that is asked for. -/
theorem sortsRange_iff (hm : env.alloc .mergeBuffer = true) (hsmall : 4 * n < 2 ^ 32)
    (ha : AsksSort n p1 l1 s) : SortsRange env n p1 l1 s ↔ s.startIdx = 0 ∨ n = 4 := by
  refine ⟨fun hall => ?_, sortsRange_of_start hm ha⟩
  by_contra hno
  obtain ⟨hstart, hfour⟩ := not_or.mp hno
  have hpos : 0 < s.startIdx.toNat := by
    apply Nat.pos_of_ne_zero
    intro h0
    exact hstart (UInt32.toNat_inj.mp h0)
  have hlt := ha.start
  have hlast := ha.last
  by_cases h3 : n = 3
  · -- the sort works on words that start in the middle of the elements
    subst h3
    have h1 : s.startIdx.toNat = 1 := by omega
    have h2 : s.lastIdx 3 = 2 := by omega
    refine not_sortsRange_of_byte (v := 0x1000000) (m := 1) (k := 2) (b := 3) hm ha hsmall
      (by decide) (.inr (by rw [h1, h2])) (fun ws' S => ?_) hall
    rw [h1, h2] at S
    exact ⟨0, 0x1000000, rfl, S.second rfl (by decide), by decide⟩
  · -- the first element of the range is in front of the bytes that are sorted
    have hfive : 5 ≤ n := by omega
    refine not_sortsRange_of_byte (v := 1) (m := s.startIdx.toNat) (k := s.startIdx.toNat) (b := 0)
      hm ha hsmall (by decide) (.inl (by nlinarith)) (fun ws' S => ?_) hall
    refine ⟨1, 0, ?_, S.head_zero ?_, by decide⟩
    · rw [oneSet, List.getElem?_set_self]
      rw [List.length_replicate]
      omega
    · apply List.mem_of_getElem? (i := 1)
      rw [getElem?_window, if_pos (by omega), oneSet, List.getElem?_set_ne (by omega),
        List.getElem?_replicate, if_pos (by omega)]

def middleParam : List UInt8 :=
  [amSortTypeStataIntegralMerge, 1, 2, amSortOrderAsc, 0].flatMap u32Bytes

def middleSort : SortParam := ⟨amSortTypeStataIntegralMerge, 1, 2, amSortOrderAsc, 0⟩

theorem asksSort_middle (hn : 2 < n) : AsksSort n middleParam 20 middleSort where
  long := by decide
  present := by decide
  param := by decide +kernel
  type := rfl
  order := rfl
  unsigned := rfl
  start := (by decide : 1 < 2)
  last := hn

theorem sortsRange_iff_middle :
    SortsRange .zeroed 4 middleParam 20 middleSort ↔ middleSort.startIdx = 0 ∨ 4 = 4 :=
  sortsRange_iff rfl (by decide) (asksSort_middle (by decide))

/-- Of three elements the last two are asked for. -/
theorem not_sortsRange : ¬ ∀ (env : Env) (n : ℕ) (p1 : List UInt8) (l1 : UInt64) (s : SortParam),
    env.alloc .mergeBuffer = true → 4 * n < 2 ^ 32 → AsksSort n p1 l1 s →
      SortsRange env n p1 l1 s := by
  intro h
  have hasks : AsksSort 3 middleParam 20 middleSort := asksSort_middle (by decide)
  refine not_sortsRange_of_byte (v := 0x1000000) (m := 1) (k := 2) (b := 3) rfl hasks (by decide)
    (by decide) (.inr (by decide)) (fun ws' S => ?_) (h .zeroed 3 _ _ _ rfl (by decide) hasks)
  exact ⟨0, 0x1000000, rfl, SortedBetween.second S rfl (by decide), by decide⟩

end Requests

end AppMem.Device
