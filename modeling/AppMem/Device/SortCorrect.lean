import Mathlib.Data.List.Sort
import AppMem.Device.SortBounds

/-! # The merge sort sorts

What the loops of the merge do to runs of words: two runs that are sorted become one, through the
merge buffer, and the sort of a range replaces its words by a sorted permutation of them. A range
starts at any byte, and its last word at most three bytes before its end.
-/
namespace AppMem.Device
open Library.Bytes Library.Checked Abi Memory

section Runs
variable {l dst src data buffer : List UInt8} {p : ℕ} {a b ws : List UInt32}

structure Holds (l : List UInt8) (p : ℕ) (ws : List UInt32) : Prop where
  inside : p + 4 * ws.length ≤ l.length
  words : window l p (4 * ws.length) = ws.flatMap u32Bytes

theorem words_injective : Function.Injective (List.flatMap u32Bytes) := by
  intro a
  induction a with
  | nil =>
    intro b h
    have hlen := congrArg List.length h
    simp only [length_words, List.length_nil, Nat.mul_zero, zero_eq_mul, OfNat.ofNat_ne_zero,
      false_or] at hlen
    exact (List.eq_nil_of_length_eq_zero hlen).symm
  | cons x a ih =>
    intro b h
    cases b with
    | nil =>
      have hlen := congrArg List.length h
      simp only [length_words, List.length_cons, List.length_nil] at hlen
      omega
    | cons y b =>
      simp only [List.flatMap_cons] at h
      obtain ⟨hxy, hab⟩ := List.append_inj h (by rw [length_u32Bytes, length_u32Bytes])
      have hv := congrArg u32OfBytes hxy
      rw [u32OfBytes_u32Bytes, u32OfBytes_u32Bytes] at hv
      rw [hv, ih hab]

theorem holds_nil (h : p ≤ l.length) : Holds l p [] := ⟨h, rfl⟩

theorem holds_append : Holds l p (a ++ b) ↔ Holds l p a ∧ Holds l (p + 4 * a.length) b := by
  have hmul : 4 * (a.length + b.length) = 4 * a.length + 4 * b.length := Nat.mul_add ..
  constructor
  · rintro ⟨hin, hw⟩
    rw [List.length_append, hmul] at hin hw
    rw [← window_append, List.flatMap_append] at hw
    have hwin : (window l p (4 * a.length)).length = (a.flatMap u32Bytes).length := by
      rw [length_words]
      exact length_window (by omega)
    obtain ⟨ha, hb⟩ := List.append_inj hw hwin
    exact ⟨⟨by omega, ha⟩, ⟨by omega, hb⟩⟩
  · rintro ⟨⟨-, ha⟩, ⟨hb, hb'⟩⟩
    constructor
    · rw [List.length_append, hmul]
      omega
    · rw [List.length_append, hmul, ← window_append, ha, hb', List.flatMap_append]

theorem Holds.head {x : UInt32} (h : Holds l p (x :: a)) :
    p + 4 ≤ l.length ∧ window l p 4 = u32Bytes x := by
  obtain ⟨hin, hw⟩ := (holds_append.mp (show Holds l p ([x] ++ a) from h)).1
  have hone : [x].flatMap u32Bytes = u32Bytes x := by
    rw [List.flatMap_cons, List.flatMap_nil, List.append_nil]
  exact ⟨hin, hw.trans hone⟩

theorem Holds.tail {x : UInt32} (h : Holds l p (x :: a)) : Holds l (p + 4) a :=
  (holds_append.mp (show Holds l p ([x] ++ a) from h)).2

theorem Holds.read {x : UInt32} (h : Holds l p (x :: a)) : readU32 (l.drop p) = .ok x := by
  obtain ⟨hin, hw⟩ := h.head
  rw [readU32_eq_ok]
  refine ⟨by rw [List.length_drop]; omega, ?_⟩
  have hv := congrArg u32OfBytes hw
  rw [u32OfBytes_u32Bytes] at hv
  rw [← hv, u32OfBytes, u32OfBytes, window, List.take_take, Nat.min_self]

theorem exists_holds {n : ℕ} (h : p + 4 * n ≤ l.length) : ∃ ws, ws.length = n ∧ Holds l p ws := by
  induction n generalizing p with
  | zero => exact ⟨[], rfl, holds_nil h⟩
  | succ n ih =>
    obtain ⟨ws, hlen, hw⟩ := ih (show p + 4 + 4 * n ≤ l.length by omega)
    refine ⟨u32OfBytes (window l p 4) :: ws, by rw [List.length_cons, hlen], ?_⟩
    have hfour : Holds l p [u32OfBytes (window l p 4)] := by
      refine ⟨?_, ?_⟩
      · rw [List.length_singleton]
        omega
      · rw [List.flatMap_cons, List.flatMap_nil, List.append_nil,
          u32Bytes_u32OfBytes (length_window (by omega))]
        rfl
    exact holds_append.mpr (show Holds l p [_] ∧ _ from ⟨hfour, hw⟩)

theorem holds_splice (h : p + 4 * ws.length ≤ l.length) :
    Holds (splice l p (ws.flatMap u32Bytes)) p ws := by
  have hin : p + (ws.flatMap u32Bytes).length ≤ l.length := by rwa [length_words]
  constructor
  · rwa [length_splice hin]
  · have hw := window_splice hin
    rwa [length_words] at hw

theorem Holds.splice_of_disjoint {q : ℕ} (h : Holds l p a) (hq : q + 4 * b.length ≤ l.length)
    (hd : p + 4 * a.length ≤ q ∨ q + 4 * b.length ≤ p) :
    Holds (splice l q (b.flatMap u32Bytes)) p a := by
  have hin : q + (b.flatMap u32Bytes).length ≤ l.length := by rwa [length_words]
  constructor
  · rw [length_splice hin]
    exact h.inside
  · rw [window_splice_of_disjoint hin (by rwa [length_words]), h.words]

theorem splice_words_append (h : p + 4 * (a.length + b.length) ≤ l.length) :
    splice (splice l p (a.flatMap u32Bytes)) (p + 4 * a.length) (b.flatMap u32Bytes) =
      splice l p ((a ++ b).flatMap u32Bytes) := by
  have hin : p + (a.flatMap u32Bytes).length + (b.flatMap u32Bytes).length ≤ l.length := by
    rw [length_words, length_words]
    omega
  have happ := splice_splice_append hin
  rwa [length_words, ← List.flatMap_append] at happ

theorem length_splice_words (h : p + 4 * a.length ≤ l.length) :
    (splice l p (a.flatMap u32Bytes)).length = l.length :=
  length_splice (by rwa [length_words])

theorem Holds.splice_self (h : Holds l p a) : splice l p (a.flatMap u32Bytes) = l := by
  rw [← h.words, splice_window]

theorem amSetPtrval_holds {set fr : ℕ} {x : UInt32} (h : Holds src fr (x :: a))
    (hset : set + 4 ≤ dst.length) :
    amSetPtrval dst set src fr 4 = .ok (splice dst set (u32Bytes x)) := by
  obtain ⟨hin, hw⟩ := h.head
  rw [amSetPtrval_eq_ok, hw]
  exact ⟨hin, hset, rfl⟩

theorem copyRun_holds {fr : ℕ} (dst : List UInt8) (set : ℕ) (h : Holds src fr a)
    (hset : set + 4 * a.length ≤ dst.length) :
    copyRun 4 a.length dst set src fr = .ok (splice dst set (a.flatMap u32Bytes)) := by
  induction a generalizing dst set fr with
  | nil => rw [List.flatMap_nil, splice_nil]; rfl
  | cons x a ih =>
    rw [List.length_cons] at hset
    have hin : set + (u32Bytes x).length ≤ dst.length := by
      rw [length_u32Bytes]
      omega
    have hrest : set + 4 + 4 * a.length ≤ (splice dst set (u32Bytes x)).length := by
      rw [length_splice hin]
      omega
    rw [List.length_cons, copyRun, amSetPtrval_holds h (by omega), ok_bind, ih _ _ h.tail hrest,
      List.flatMap_cons]
    have hboth : set + (u32Bytes x).length + (a.flatMap u32Bytes).length ≤ dst.length := by
      rw [length_u32Bytes, length_words]
      omega
    have happ := splice_splice_append hboth
    rw [length_u32Bytes] at happ
    rw [happ]

/-- How many words of a run are left: its last word starts at most three bytes before its end. -/
theorem runLength_eq {n e r : ℕ} (h : e + 4 = p + 4 * n + r) (hr : r < 4) :
    runLength p e 4 = n := by
  unfold runLength
  split <;> omega

end Runs

section Merge
variable {data : List UInt8} {mid e r : ℕ}

/-- Two runs that are merged, and room for them in the buffer. -/
structure Merging (data : List UInt8) (mid e r : ℕ) (p : MergePtrs) (a b : List UInt32) : Prop where
  left : Holds data p.iptr a
  right : Holds data p.jptr b
  leftEnd : mid + 4 = p.iptr + 4 * a.length
  rightEnd : e + 4 = p.jptr + 4 * b.length + r
  room : p.kptr + 4 * (a.length + b.length) ≤ p.buffer.length

def MergePtrs.put (p : MergePtrs) (iptr jptr : ℕ) (x : UInt32) : MergePtrs :=
  ⟨iptr, jptr, p.kptr + 4, splice p.buffer p.kptr (u32Bytes x)⟩

theorem MergePtrs.length_put {p : MergePtrs} {i j : ℕ} {x : UInt32}
    (h : p.kptr + 4 ≤ p.buffer.length) : (p.put i j x).buffer.length = p.buffer.length :=
  length_splice (by rwa [length_u32Bytes])

theorem Merging.takeLeft {p : MergePtrs} {x : UInt32} {a b : List UInt32}
    (M : Merging data mid e r p (x :: a) b) :
    Merging data mid e r (p.put (p.iptr + 4) p.jptr x) a b := by
  have hroom := M.room
  have hend := M.leftEnd
  rw [List.length_cons] at hroom hend
  refine ⟨M.left.tail, M.right, ?_, M.rightEnd, ?_⟩
  · dsimp only [MergePtrs.put]
    omega
  · rw [MergePtrs.length_put (by omega)]
    dsimp only [MergePtrs.put]
    omega

theorem Merging.takeRight {p : MergePtrs} {y : UInt32} {a b : List UInt32}
    (M : Merging data mid e r p a (y :: b)) :
    Merging data mid e r (p.put p.iptr (p.jptr + 4) y) a b := by
  have hroom := M.room
  have hend := M.rightEnd
  rw [List.length_cons] at hroom hend
  refine ⟨M.left, M.right.tail, M.leftEnd, ?_, ?_⟩
  · dsimp only [MergePtrs.put]
    omega
  · rw [MergePtrs.length_put (by omega)]
    dsimp only [MergePtrs.put]
    omega

/-- What the loop leaves: one run is used up, and what it has written, with the rest of the other, is
the merge of both. Of equal words the one of the second run comes first. -/
def LoopMerged (data : List UInt8) (mid e r : ℕ) (p : MergePtrs) (a b : List UInt32)
    (q : MergePtrs) : Prop :=
  ∃ out a' b', Merging data mid e r q a' b' ∧ (a' = [] ∨ b' = []) ∧
    List.merge b a (· ≤ ·) = out ++ (a' ++ b') ∧ q.kptr = p.kptr + 4 * out.length ∧
    q.buffer = splice p.buffer p.kptr (out.flatMap u32Bytes)

theorem LoopMerged.cons {p q : MergePtrs} {i j : ℕ} {x : UInt32} {a b a₁ b₁ : List UInt32}
    (hroom : p.kptr + 4 * (a.length + b.length) ≤ p.buffer.length)
    (hlen : a₁.length + b₁.length + 1 = a.length + b.length)
    (hmerge : List.merge b a (· ≤ ·) = x :: List.merge b₁ a₁ (· ≤ ·))
    (h : LoopMerged data mid e r (p.put i j x) a₁ b₁ q) : LoopMerged data mid e r p a b q := by
  obtain ⟨out, a', b', M, hempty, hout, hk, hbuf⟩ := h
  refine ⟨x :: out, a', b', M, hempty, ?_, ?_, ?_⟩
  · rw [hmerge, hout, List.cons_append]
  · rw [hk, List.length_cons]
    dsimp only [MergePtrs.put]
    omega
  · have hsum := congrArg List.length hout
    simp only [List.length_merge, List.length_append] at hsum
    have hin : p.kptr + (u32Bytes x).length + (out.flatMap u32Bytes).length ≤ p.buffer.length := by
      rw [length_u32Bytes, length_words]
      omega
    have happ := splice_splice_append hin
    rw [length_u32Bytes] at happ
    rw [hbuf, List.flatMap_cons, ← happ]
    rfl

theorem LoopMerged.stop {p : MergePtrs} {a b : List UInt32} (M : Merging data mid e r p a b)
    (hempty : a = [] ∨ b = []) : LoopMerged data mid e r p a b p := by
  refine ⟨[], a, b, M, hempty, ?_, rfl, ?_⟩
  · rcases hempty with rfl | rfl
    · rw [List.merge_right]
      rfl
    · rw [List.nil_merge, List.append_nil]
      rfl
  · rw [List.flatMap_nil, splice_nil]

theorem mergeLoop_merges {fuel : ℕ} {p : MergePtrs} {a b : List UInt32} (hr : r < 4)
    (M : Merging data mid e r p a b) (hfuel : a.length + b.length ≤ fuel) :
    ∃ q, mergeLoop data mid e 4 fuel p = .ok q ∧ LoopMerged data mid e r p a b q := by
  induction fuel generalizing p a b with
  | zero =>
    have ha : a = [] := List.eq_nil_of_length_eq_zero (by omega)
    have hend := M.leftEnd
    refine ⟨p, ?_, .stop M (.inl ha)⟩
    rw [ha, List.length_nil] at hend
    rw [mergeLoop, if_neg (fun h => by omega)]
  | succ fuel ih =>
    cases a with
    | nil =>
      have hend := M.leftEnd
      refine ⟨p, ?_, .stop M (.inl rfl)⟩
      rw [List.length_nil] at hend
      rw [mergeLoop, if_neg (fun h => by omega)]
    | cons x a =>
      cases b with
      | nil =>
        have hend := M.rightEnd
        refine ⟨p, ?_, .stop M (.inr rfl)⟩
        rw [List.length_nil] at hend
        rw [mergeLoop, if_neg (fun h => by omega)]
      | cons y b =>
        have hi := M.leftEnd
        have hj := M.rightEnd
        have hroom := M.room
        rw [List.length_cons] at hi hj
        simp only [List.length_cons] at hfuel hroom
        have hput : p.kptr + 4 ≤ p.buffer.length := by omega
        rw [mergeLoop, if_pos ⟨by omega, by omega⟩, M.left.read, ok_bind, M.right.read, ok_bind]
        by_cases hlt : x < y
        · have hmerge : List.merge (y :: b) (x :: a) (· ≤ ·) = x :: List.merge (y :: b) a (· ≤ ·) := by
            apply List.cons_merge_cons_neg
            simpa only [decide_eq_true_eq, UInt32.not_le] using hlt
          have hcmp : amUnsignedIntgSortComp32 x y = -1 := if_pos hlt
          obtain ⟨q, hq, hL⟩ := ih M.takeLeft (by rw [List.length_cons]; omega)
          refine ⟨q, ?_, hL.cons M.room (by simp only [List.length_cons]; omega) hmerge⟩
          rw [if_pos hcmp, amSetPtrval_holds M.left hput, ok_bind]
          exact hq
        · have hmerge : List.merge (y :: b) (x :: a) (· ≤ ·) = y :: List.merge b (x :: a) (· ≤ ·) := by
            apply List.cons_merge_cons_pos
            simpa only [decide_eq_true_eq, UInt32.not_lt] using hlt
          have hcmp : amUnsignedIntgSortComp32 x y ≠ -1 := by
            rw [amUnsignedIntgSortComp32, if_neg hlt]
            decide
          obtain ⟨q, hq, hL⟩ := ih M.takeRight (by rw [List.length_cons]; omega)
          refine ⟨q, ?_, hL.cons M.room (by simp only [List.length_cons]; omega) hmerge⟩
          rw [if_neg hcmp, amSetPtrval_holds M.right hput, ok_bind]
          exact hq

/-- Two runs that follow one another are replaced by their merge, which is in the buffer, too. -/
theorem amStataMerge_merges (buffer : List UInt8) {s : ℕ} {a b : List UInt32} (hr : r < 4)
    (ha : Holds data s a) (hb : Holds data (s + 4 * a.length) b) (hmid : mid + 4 = s + 4 * a.length)
    (he : e + 4 = s + 4 * a.length + 4 * b.length + r)
    (hbuf : 4 * (a.length + b.length) ≤ buffer.length) :
    amStataMerge data buffer s e mid 4 =
      .ok (splice data s ((List.merge b a (· ≤ ·)).flatMap u32Bytes),
        splice buffer 0 ((List.merge b a (· ≤ ·)).flatMap u32Bytes)) := by
  have hruns : Merging data mid e r ⟨s, mid + 4, 0, buffer⟩ a b := by
    refine ⟨ha, ?_, hmid, ?_, by rwa [Nat.zero_add]⟩
    · rw [hmid]
      exact hb
    · dsimp only
      omega
  have hna : runLength s mid 4 = a.length := by
    apply runLength_eq (r := 0) _ (by decide)
    omega
  have hnb : runLength (mid + 4) e 4 = b.length := by
    apply runLength_eq _ hr
    omega
  have hnab : runLength s e 4 = a.length + b.length := by
    apply runLength_eq _ hr
    omega
  have hfuel : a.length + b.length ≤ a.length + b.length := Nat.le_refl _
  obtain ⟨q, hloop, out, a', b', M, -, hout, hk, hqbuf⟩ := mergeLoop_merges hr hruns hfuel
  have hsum := congrArg List.length hout
  simp only [List.length_merge, List.length_append] at hsum
  rw [Nat.zero_add] at hk
  have hqlen : q.buffer.length = buffer.length := by
    rw [hqbuf]
    apply length_splice_words
    dsimp only
    omega
  have hna' : runLength q.iptr mid 4 = a'.length := by
    apply runLength_eq (r := 0) _ (by decide)
    exact M.leftEnd
  have hnb' : runLength q.jptr e 4 = b'.length := runLength_eq M.rightEnd hr
  have hfirst := copyRun_holds q.buffer q.kptr M.left (by omega)
  have hlen₁ : (splice q.buffer q.kptr (a'.flatMap u32Bytes)).length = buffer.length := by
    rw [length_splice_words (by omega), hqlen]
  have hsecond := copyRun_holds (splice q.buffer q.kptr (a'.flatMap u32Bytes))
    (q.kptr + a'.length * 4) M.right (by omega)
  -- the three pieces in the buffer make up the merge
  have hpieces : splice (splice q.buffer q.kptr (a'.flatMap u32Bytes)) (q.kptr + a'.length * 4)
      (b'.flatMap u32Bytes) = splice buffer 0 ((List.merge b a (· ≤ ·)).flatMap u32Bytes) := by
    rw [Nat.mul_comm, splice_words_append (by omega), hqbuf, hk, hout]
    have hall := splice_words_append (l := buffer) (p := 0) (a := out) (b := a' ++ b')
      (by rw [List.length_append]; omega)
    rwa [Nat.zero_add] at hall
  have hmerged : Holds (splice buffer 0 ((List.merge b a (· ≤ ·)).flatMap u32Bytes)) 0
      (List.merge b a (· ≤ ·)) := by
    apply holds_splice
    rw [List.length_merge]
    omega
  have hback := copyRun_holds data s hmerged (by
    have hin := hb.inside
    rw [List.length_merge]
    omega)
  rw [List.length_merge, Nat.add_comm] at hback
  unfold amStataMerge
  dsimp only
  rw [hna, hnb, hloop, ok_bind, hna', hfirst, ok_bind, hnb', hsecond, ok_bind, hpieces, hnab, hback,
    ok_bind]
  rfl

theorem splice_words_cover {l : List UInt8} {s p₁ p₂ : ℕ} {a b ws : List UInt32}
    (h : s + 4 * ws.length ≤ l.length) (ha : s ≤ p₁) (ha' : p₁ + 4 * a.length ≤ s + 4 * ws.length)
    (hb : s ≤ p₂) (hb' : p₂ + 4 * b.length ≤ s + 4 * ws.length) :
    splice (splice (splice l p₁ (a.flatMap u32Bytes)) p₂ (b.flatMap u32Bytes)) s
      (ws.flatMap u32Bytes) = splice l s (ws.flatMap u32Bytes) := by
  have hlen : (splice l p₁ (a.flatMap u32Bytes)).length = l.length :=
    length_splice_words (ha'.trans h)
  have hin : s + (ws.flatMap u32Bytes).length ≤ l.length := by rwa [length_words]
  have hin' : s + (ws.flatMap u32Bytes).length ≤ (splice l p₁ (a.flatMap u32Bytes)).length := by
    rwa [hlen]
  rw [splice_splice_cover hin' hb (by rwa [length_words, length_words]),
    splice_splice_cover hin ha (by rwa [length_words, length_words])]

structure SortOf (ws ws' : List UInt32) : Prop where
  sorted : ws'.Pairwise (· ≤ ·)
  perm : ws'.Perm ws

theorem sortOf_short {ws : List UInt32} (h : ws.length ≤ 1) : SortOf ws ws where
  sorted := by
    match ws, h with
    | [], _ => exact .nil
    | [x], _ => exact List.pairwise_singleton _ x
  perm := .refl ws

theorem SortOf.merge {a b a' b' : List UInt32} (ha : SortOf a a') (hb : SortOf b b') :
    SortOf (a ++ b) (List.merge b' a' (· ≤ ·)) where
  sorted := by simpa using hb.sorted.merge ha.sorted
  perm := by
    calc (List.merge b' a' (· ≤ ·)).Perm (b' ++ a') := List.merge_perm_append _
      _ |>.Perm (a' ++ b') := List.perm_append_comm
      _ |>.Perm (a ++ b) := ha.perm.append hb.perm

/-- The sort replaces the words of its range by a sorted permutation of them. -/
theorem amStataMergeSort_sorts {fuel s e r : ℕ} (data buffer : List UInt8) (ws : List UInt32)
    (hr : r < 4) (he : e + 4 = s + 4 * ws.length + r) (hfuel : e - s ≤ fuel)
    (hwrap : e - s + 4 < 2 ^ 32) (hw : Holds data s ws) (hbuf : 4 * ws.length ≤ buffer.length) :
    ∃ (ws' : List UInt32) (buf : List UInt8), amStataMergeSort 4 fuel data buffer s e =
      .ok (splice data s (ws'.flatMap u32Bytes), buf) ∧ buf.length = buffer.length ∧
      SortOf ws ws' := by
  induction fuel generalizing data buffer ws s e r with
  | zero =>
    refine ⟨ws, buffer, ?_, rfl, sortOf_short (by omega)⟩
    rw [amStataMergeSort, if_neg (by omega), hw.splice_self]
  | succ fuel ih =>
    by_cases hse : s < e
    · have hmid : midPtr s e 4 = s + 4 * ((ws.length - 1) / 2) := by
        rw [midPtr_eq hwrap]
        omega
      have hsplit := List.take_append_drop ((ws.length - 1) / 2 + 1) ws
      have hltake : (ws.take ((ws.length - 1) / 2 + 1)).length = (ws.length - 1) / 2 + 1 := by
        rw [List.length_take]
        omega
      have hldrop : (ws.drop ((ws.length - 1) / 2 + 1)).length =
          ws.length - ((ws.length - 1) / 2 + 1) := List.length_drop
      have hin := hw.inside
      rw [← hsplit, holds_append, hltake] at hw
      rw [amStataMergeSort, if_pos hse, hmid]
      dsimp only
      generalize ws.take ((ws.length - 1) / 2 + 1) = a at hsplit hltake hw
      generalize ws.drop ((ws.length - 1) / 2 + 1) = b at hsplit hldrop hw
      obtain ⟨hwa, hwb⟩ := hw
      obtain ⟨a', buf₁, hsort₁, hlen₁, S₁⟩ := ih data buffer a (r := 0) (s := s)
        (e := s + 4 * ((ws.length - 1) / 2)) (by decide) (by omega) (by omega) (by omega) hwa
        (by omega)
      have hla := S₁.perm.length_eq
      have hwb₁ : Holds (splice data s (a'.flatMap u32Bytes))
          (s + 4 * ((ws.length - 1) / 2) + 4) b := by
        apply Holds.splice_of_disjoint _ (by omega) (.inr (by omega))
        rwa [Nat.add_assoc, ← Nat.mul_succ]
      obtain ⟨b', buf₂, hsort₂, hlen₂, S₂⟩ := ih (splice data s (a'.flatMap u32Bytes)) buf₁ b
        (s := s + 4 * ((ws.length - 1) / 2) + 4) (e := e) hr (by omega) (by omega) (by omega) hwb₁
        (by omega)
      have hlb := S₂.perm.length_eq
      have hd₁ : (splice data s (a'.flatMap u32Bytes)).length = data.length :=
        length_splice_words (by omega)
      have hd₂ : (splice (splice data s (a'.flatMap u32Bytes)) (s + 4 * ((ws.length - 1) / 2) + 4)
          (b'.flatMap u32Bytes)).length = data.length := by
        rw [length_splice_words (by omega), hd₁]
      have hleft : Holds (splice (splice data s (a'.flatMap u32Bytes))
          (s + 4 * ((ws.length - 1) / 2) + 4) (b'.flatMap u32Bytes)) s a' :=
        (holds_splice (by omega)).splice_of_disjoint (by omega) (.inl (by omega))
      have hright : Holds (splice (splice data s (a'.flatMap u32Bytes))
          (s + 4 * ((ws.length - 1) / 2) + 4) (b'.flatMap u32Bytes)) (s + 4 * a'.length) b' := by
        have hpos : s + 4 * a'.length = s + 4 * ((ws.length - 1) / 2) + 4 := by omega
        rw [hpos]
        exact holds_splice (by omega)
      have hmid' : s + 4 * ((ws.length - 1) / 2) + 4 = s + 4 * a'.length := by omega
      have he' : e + 4 = s + 4 * a'.length + 4 * b'.length + r := by omega
      have hmerge := amStataMerge_merges buf₂ hr hleft hright hmid' he' (by omega)
      have hall : (List.merge b' a' (· ≤ ·)).length = ws.length := by
        rw [List.length_merge]
        omega
      have hlen₃ : (splice buf₂ 0 ((List.merge b' a' (· ≤ ·)).flatMap u32Bytes)).length =
          buf₂.length := length_splice_words (by omega)
      refine ⟨List.merge b' a' (· ≤ ·), _, ?_, hlen₃.trans (by omega), hsplit ▸ S₁.merge S₂⟩
      rw [hsort₁, ok_bind, hsort₂, ok_bind, hmerge, splice_words_cover (by omega) (Nat.le_refl s)
        (by omega) (by omega) (by omega)]
    · refine ⟨ws, buffer, ?_, rfl, sortOf_short (by omega)⟩
      rw [amStataMergeSort, if_neg hse, hw.splice_self]

end Merge

end AppMem.Device
