import AppMem.Device.SortRange

/-! # One merge

What `am_stata_merge` does to the elements of two neighbouring runs, sorted or not. The calls of
`am_set_ptrval` on the way are listed: each element is copied into the buffer once and, from
there, each place of the range is written once.
-/
namespace AppMem.Device
open Library.Bytes Library.Checked Abi Memory

section Calls

/-- A call of `am_set_ptrval`: where it writes and where it reads. -/
structure PtrCopy where
  set : ℕ
  fr : ℕ
  deriving DecidableEq

def copyRunCalls (dataSize : ℕ) :
    ℕ → List UInt8 → ℕ → List UInt8 → ℕ → Exec (List UInt8 × List PtrCopy)
  | 0, dst, _, _, _ => .ok (dst, [])
  | n + 1, dst, set, src, fr => do
    let dst ← amSetPtrval dst set src fr dataSize
    let r ← copyRunCalls dataSize n dst (set + dataSize) src (fr + dataSize)
    return (r.1, ⟨set, fr⟩ :: r.2)

def mergeLoopCalls (data : List UInt8) (midPtr endPtr dataSize : ℕ) :
    ℕ → MergePtrs → Exec (MergePtrs × List PtrCopy)
  | 0, p => if p.iptr ≤ midPtr ∧ p.jptr ≤ endPtr then .error .hang else .ok (p, [])
  | fuel + 1, p =>
    if p.iptr ≤ midPtr ∧ p.jptr ≤ endPtr then do
      let a ← readU32 (data.drop p.iptr)
      let b ← readU32 (data.drop p.jptr)
      if amUnsignedIntgSortComp32 a b = -1 then
        let buffer ← amSetPtrval p.buffer p.kptr data p.iptr dataSize
        let r ← mergeLoopCalls data midPtr endPtr dataSize fuel
          ⟨p.iptr + dataSize, p.jptr, p.kptr + dataSize, buffer⟩
        return (r.1, ⟨p.kptr, p.iptr⟩ :: r.2)
      else
        let buffer ← amSetPtrval p.buffer p.kptr data p.jptr dataSize
        let r ← mergeLoopCalls data midPtr endPtr dataSize fuel
          ⟨p.iptr, p.jptr + dataSize, p.kptr + dataSize, buffer⟩
        return (r.1, ⟨p.kptr, p.jptr⟩ :: r.2)
    else .ok (p, [])

/-- The storage and the buffer after a merge, and the calls into the buffer and back. -/
structure MergeCalls where
  data : List UInt8
  buffer : List UInt8
  into : List PtrCopy
  back : List PtrCopy

def amStataMergeCalls (data buffer : List UInt8) (startPtr endPtr midPtr dataSize : ℕ) :
    Exec MergeCalls := do
  let jptr := midPtr + dataSize
  let fuel := runLength startPtr midPtr dataSize + runLength jptr endPtr dataSize
  let p ← mergeLoopCalls data midPtr endPtr dataSize fuel ⟨startPtr, jptr, 0, buffer⟩
  let ni := runLength p.1.iptr midPtr dataSize
  let ri ← copyRunCalls dataSize ni p.1.buffer p.1.kptr data p.1.iptr
  let nj := runLength p.1.jptr endPtr dataSize
  let rj ← copyRunCalls dataSize nj ri.1 (p.1.kptr + ni * dataSize) data p.1.jptr
  let r ← copyRunCalls dataSize (runLength startPtr endPtr dataSize) data startPtr rj.1 0
  return ⟨r.1, rj.1, p.2 ++ (ri.2 ++ rj.2), r.2⟩

theorem map_cons_calls {α : Type} (x : Exec (α × List PtrCopy)) (c : PtrCopy) :
    (x >>= fun r => (pure (r.1, c :: r.2) : Exec _)).map Prod.fst = x.map Prod.fst := by
  cases x with
  | error e => rfl
  | ok r => rfl

theorem copyRunCalls_erase (dataSize n : ℕ) (dst : List UInt8) (set : ℕ) (src : List UInt8)
    (fr : ℕ) : (copyRunCalls dataSize n dst set src fr).map Prod.fst =
      copyRun dataSize n dst set src fr := by
  induction n generalizing dst set fr with
  | zero => rfl
  | succ n ih =>
    rw [copyRunCalls, copyRun, except_map_bind]
    congr
    funext dst
    rw [map_cons_calls, ih]

theorem mergeLoopCalls_erase (data : List UInt8) (mid e dataSize fuel : ℕ) (p : MergePtrs) :
    (mergeLoopCalls data mid e dataSize fuel p).map Prod.fst =
      mergeLoop data mid e dataSize fuel p := by
  induction fuel generalizing p with
  | zero =>
    rw [mergeLoopCalls, mergeLoop]
    split
    · rfl
    · rfl
  | succ fuel ih =>
    rw [mergeLoopCalls, mergeLoop]
    split
    · rw [except_map_bind]
      congr
      funext a
      rw [except_map_bind]
      congr
      funext b
      split
      · rw [except_map_bind]
        congr
        funext buffer
        rw [map_cons_calls, ih]
      · rw [except_map_bind]
        congr
        funext buffer
        rw [map_cons_calls, ih]
    · rfl

theorem amStataMergeCalls_erase (data buffer : List UInt8) (s e mid dataSize : ℕ) :
    (amStataMergeCalls data buffer s e mid dataSize).map (fun t => (t.data, t.buffer)) =
      amStataMerge data buffer s e mid dataSize := by
  simp only [amStataMergeCalls, amStataMerge, except_map_bind, ← copyRunCalls_erase,
    ← mergeLoopCalls_erase, except_bind_map]
  rfl

end Calls

section Places

def places (p n : ℕ) : List ℕ := (List.range n).map fun k => p + 4 * k

def copies (set fr n : ℕ) : List PtrCopy :=
  (List.range n).map fun k => ⟨set + 4 * k, fr + 4 * k⟩

theorem places_add (p m n : ℕ) : places p (m + n) = places p m ++ places (p + 4 * m) n := by
  simp only [places, List.range_add, List.map_append, List.map_map]
  congr 1
  apply List.map_congr_left
  intro k _
  rw [Function.comp_apply, Nat.mul_add, Nat.add_assoc]

theorem places_succ (p n : ℕ) : places p (n + 1) = p :: places (p + 4) n := by
  rw [Nat.add_comm, places_add]
  rfl

theorem map_set_copies (set fr n : ℕ) : (copies set fr n).map PtrCopy.set = places set n := by
  rw [copies, List.map_map]
  rfl

theorem map_fr_copies (set fr n : ℕ) : (copies set fr n).map PtrCopy.fr = places fr n := by
  rw [copies, List.map_map]
  rfl

theorem copies_succ (set fr n : ℕ) :
    copies set fr (n + 1) = ⟨set, fr⟩ :: copies (set + 4) (fr + 4) n := by
  rw [copies, List.range_succ_eq_map, List.map_cons, List.map_map]
  congr 1
  apply List.map_congr_left
  intro k _
  simp only [Function.comp_apply, PtrCopy.mk.injEq]
  omega

theorem copyRunCalls_copies {n : ℕ} {dst src out : List UInt8} {set fr : ℕ} {l : List PtrCopy}
    (h : copyRunCalls 4 n dst set src fr = .ok (out, l)) : l = copies set fr n := by
  induction n generalizing dst set fr l with
  | zero =>
    cases h
    rfl
  | succ n ih =>
    rw [copyRunCalls] at h
    obtain ⟨dst', -, h⟩ := bind_eq_ok.mp h
    obtain ⟨r, hr, h⟩ := bind_eq_ok.mp h
    cases h
    rw [copies_succ, ih hr]

/-- The loop has taken `x` elements of the one run and `y` of the other. -/
structure Taken (p q : MergePtrs) (l : List PtrCopy) (x y : ℕ) : Prop where
  iptr : q.iptr = p.iptr + 4 * x
  jptr : q.jptr = p.jptr + 4 * y
  kptr : q.kptr = p.kptr + 4 * (x + y)
  sets : l.map PtrCopy.set = places p.kptr (x + y)
  once : (l.map PtrCopy.fr).Perm (places p.iptr x ++ places p.jptr y)

variable {data buffer : List UInt8} {mid e s : ℕ} {p q : MergePtrs} {l : List PtrCopy}
  {la lb x y : ℕ}

theorem Taken.none (p : MergePtrs) : Taken p p [] 0 0 := ⟨rfl, rfl, rfl, rfl, .nil⟩

theorem Taken.left {b : List UInt8} (T : Taken ⟨p.iptr + 4, p.jptr, p.kptr + 4, b⟩ q l x y) :
    Taken p q (⟨p.kptr, p.iptr⟩ :: l) (x + 1) y := by
  have hi := T.iptr
  have hk := T.kptr
  dsimp only at hi hk
  refine ⟨by omega, T.jptr, by omega, ?_, ?_⟩
  · rw [List.map_cons, T.sets, Nat.add_right_comm, places_succ]
  · rw [List.map_cons, places_succ]
    exact T.once.cons p.iptr

theorem Taken.right {b : List UInt8} (T : Taken ⟨p.iptr, p.jptr + 4, p.kptr + 4, b⟩ q l x y) :
    Taken p q (⟨p.kptr, p.jptr⟩ :: l) x (y + 1) := by
  have hj := T.jptr
  have hk := T.kptr
  dsimp only at hj hk
  refine ⟨T.iptr, by omega, by omega, ?_, ?_⟩
  · rw [List.map_cons, T.sets, ← Nat.add_assoc, places_succ]
  · rw [List.map_cons, places_succ]
    exact (T.once.cons p.jptr).trans List.perm_middle.symm

/-- The loop takes elements in order from both runs, and each once. -/
theorem mergeLoopCalls_taken {fuel : ℕ} (hi : mid + 4 = p.iptr + 4 * la)
    (hj : e + 4 = p.jptr + 4 * lb) (h : mergeLoopCalls data mid e 4 fuel p = .ok (q, l)) :
    ∃ x y, x ≤ la ∧ y ≤ lb ∧ Taken p q l x y := by
  induction fuel generalizing p la lb l with
  | zero =>
    rw [mergeLoopCalls] at h
    split at h
    · cases h
    · cases h
      exact ⟨0, 0, Nat.zero_le _, Nat.zero_le _, Taken.none _⟩
  | succ fuel ih =>
    rw [mergeLoopCalls] at h
    split at h
    · obtain ⟨a, -, h⟩ := bind_eq_ok.mp h
      obtain ⟨b, -, h⟩ := bind_eq_ok.mp h
      split at h
      · obtain ⟨buf, -, h⟩ := bind_eq_ok.mp h
        obtain ⟨⟨q', l'⟩, hr, h⟩ := bind_eq_ok.mp h
        cases h
        have hi' : mid + 4 = p.iptr + 4 + 4 * (la - 1) := by omega
        obtain ⟨x, y, hx, hy, T⟩ := ih (p := ⟨p.iptr + 4, p.jptr, p.kptr + 4, buf⟩) hi' hj hr
        exact ⟨x + 1, y, by omega, hy, T.left⟩
      · obtain ⟨buf, -, h⟩ := bind_eq_ok.mp h
        obtain ⟨⟨q', l'⟩, hr, h⟩ := bind_eq_ok.mp h
        cases h
        have hj' : e + 4 = p.jptr + 4 + 4 * (lb - 1) := by omega
        obtain ⟨x, y, hx, hy, T⟩ := ih (p := ⟨p.iptr, p.jptr + 4, p.kptr + 4, buf⟩) hi hj' hr
        exact ⟨x, y + 1, hx, by omega, T.right⟩
    · cases h
      exact ⟨0, 0, Nat.zero_le _, Nat.zero_le _, Taken.none _⟩

structure CopiedOnce (s n : ℕ) (t : MergeCalls) : Prop where
  sets : t.into.map PtrCopy.set = places 0 n
  once : (t.into.map PtrCopy.fr).Perm (places s n)
  back : t.back = copies s 0 n

theorem amStataMergeCalls_copiedOnce {t : MergeCalls} (hmid : mid + 4 = s + 4 * la)
    (he : e + 4 = mid + 4 + 4 * lb) (h : amStataMergeCalls data buffer s e mid 4 = .ok t) :
    CopiedOnce s (la + lb) t := by
  rw [amStataMergeCalls] at h
  obtain ⟨⟨q, l⟩, hq, h⟩ := bind_eq_ok.mp h
  obtain ⟨⟨bi, li⟩, hli, h⟩ := bind_eq_ok.mp h
  obtain ⟨⟨bj, lj⟩, hlj, h⟩ := bind_eq_ok.mp h
  obtain ⟨⟨d, back⟩, hback, h⟩ := bind_eq_ok.mp h
  cases h
  obtain ⟨x, y, hx, hy, T⟩ := mergeLoopCalls_taken hmid he hq
  have hi := T.iptr
  have hj := T.jptr
  have hk := T.kptr
  dsimp only at hi hj hk hli hlj
  have hni : runLength q.iptr mid 4 = la - x := by
    apply runLength_eq (r := 0) _ (by decide)
    omega
  have hnj : runLength q.jptr e 4 = lb - y := by
    apply runLength_eq (r := 0) _ (by decide)
    omega
  have hn : runLength s e 4 = la + lb := by
    apply runLength_eq (r := 0) _ (by decide)
    omega
  rw [hni] at hli hlj
  rw [hnj] at hlj
  rw [hn] at hback
  cases copyRunCalls_copies hli
  cases copyRunCalls_copies hlj
  cases copyRunCalls_copies hback
  have hla : la = x + (la - x) := by omega
  have hlb : lb = y + (lb - y) := by omega
  constructor
  · have hall : la + lb = x + y + ((la - x) + (lb - y)) := by omega
    have hsets : l.map PtrCopy.set = places 0 (x + y) := T.sets
    rw [List.map_append, List.map_append, hsets, map_set_copies, map_set_copies, hk,
      Nat.mul_comm (la - x) 4, ← places_add, hall]
    exact (places_add 0 (x + y) _).symm
  · have hperm : (places s x ++ places (mid + 4) y ++
        (places q.iptr (la - x) ++ places q.jptr (lb - y))).Perm
        ((places s x ++ places q.iptr (la - x)) ++ (places (mid + 4) y ++ places q.jptr (lb - y))) := by
      rw [List.perm_iff_count]
      intro a
      simp only [List.count_append]
      omega
    rw [hi, hj, ← places_add, ← places_add, ← hla, ← hlb, hmid, ← places_add] at hperm
    rw [List.map_append, List.map_append, map_fr_copies, map_fr_copies, hi, hj, hmid]
    rw [hmid] at T
    exact (T.once.append_right _).trans hperm
  · rfl

end Places

section Elements
variable {ws : List UInt32} {buffer : List UInt8} {i m e : ℕ}

/-- What a merge of the runs from `i` to `m` and from there to `e` makes of an array. -/
structure MergedBetween (ws ws' : List UInt32) (i m e : ℕ) : Prop where
  length : ws'.length = ws.length
  perm : (window ws' i (e + 1 - i)).Perm (window ws i (e + 1 - i))
  sorted : (window ws i (m + 1 - i)).Pairwise (· ≤ ·) → (window ws (m + 1) (e - m)).Pairwise (· ≤ ·) →
    (window ws' i (e + 1 - i)).Pairwise (· ≤ ·)
  frame : ∀ k, k < i ∨ e < k → ws'[k]? = ws[k]?

/-- The array, the buffer and the copies of a merge. -/
structure MergeStep (ws : List UInt32) (i m e : ℕ) (buffer : List UInt8) (t : MergeCalls) :
    Prop where
  data : ∃ ws', t.data = ws'.flatMap u32Bytes ∧ MergedBetween ws ws' i m e
  length : t.buffer.length = buffer.length
  rest : t.buffer.drop (4 * (e + 1 - i)) = buffer.drop (4 * (e + 1 - i))
  calls : CopiedOnce (4 * i) (e + 1 - i) t

theorem window_split (ws : List UInt32) (him : i ≤ m) (hme : m < e) :
    window ws i (m + 1 - i) ++ window ws (m + 1) (e - m) = window ws i (e + 1 - i) := by
  have happ := window_append ws i (m + 1 - i) (e - m)
  have hpos : i + (m + 1 - i) = m + 1 := by omega
  have hlen : m + 1 - i + (e - m) = e + 1 - i := by omega
  rwa [hpos, hlen] at happ

theorem mergedBetween_splice (him : i ≤ m) (hme : m < e) (he : e < ws.length) :
    MergedBetween ws (splice ws i
      (List.merge (window ws (m + 1) (e - m)) (window ws i (m + 1 - i)) (· ≤ ·))) i m e := by
  have hsplit := window_split ws him hme
  generalize hb : window ws (m + 1) (e - m) = b at hsplit
  generalize ha : window ws i (m + 1 - i) = a at hsplit
  have hperm : (List.merge b a (· ≤ ·)).Perm (window ws i (e + 1 - i)) := by
    rw [← hsplit]
    exact (List.merge_perm_append _).trans List.perm_append_comm
  have hlen : (List.merge b a (· ≤ ·)).length = e + 1 - i := by
    rw [hperm.length_eq]
    exact length_window (by omega)
  have hin : i + (List.merge b a (· ≤ ·)).length ≤ ws.length := by omega
  have hwin : window (splice ws i (List.merge b a (· ≤ ·))) i (e + 1 - i) =
      List.merge b a (· ≤ ·) := by
    rw [← hlen]
    exact window_splice hin
  constructor
  · exact length_splice hin
  · rwa [hwin]
  · intro hsa hsb
    rw [hwin]
    rw [ha] at hsa
    rw [hb] at hsb
    exact (SortOf.merge ⟨hsa, .refl a⟩ ⟨hsb, .refl b⟩).sorted
  · intro k hk
    rw [getElem?_splice hin, if_neg (by omega)]

/-- A merge permutes its range, sorts it when both runs are sorted, and copies each element into the
buffer and each place of the range back once. -/
theorem amStataMerge_mergeStep (him : i ≤ m) (hme : m < e) (he : e < ws.length)
    (hbuf : 4 * (e + 1 - i) ≤ buffer.length) :
    ∃ t, amStataMergeCalls (ws.flatMap u32Bytes) buffer (4 * i) (4 * e) (4 * m) 4 = .ok t ∧
      amStataMerge (ws.flatMap u32Bytes) buffer (4 * i) (4 * e) (4 * m) 4 =
        .ok (t.data, t.buffer) ∧ MergeStep ws i m e buffer t := by
  have hla : (window ws i (m + 1 - i)).length = m + 1 - i := length_window (by omega)
  have hlb : (window ws (m + 1) (e - m)).length = e - m := length_window (by omega)
  have ha : Holds (ws.flatMap u32Bytes) (4 * i) (window ws i (m + 1 - i)) :=
    holds_window (by omega)
  have hb : Holds (ws.flatMap u32Bytes) (4 * i + 4 * (window ws i (m + 1 - i)).length)
      (window ws (m + 1) (e - m)) := by
    have hpos : 4 * i + 4 * (window ws i (m + 1 - i)).length = 4 * (m + 1) := by omega
    rw [hpos]
    exact holds_window (by omega)
  have hmid : 4 * m + 4 = 4 * i + 4 * (window ws i (m + 1 - i)).length := by omega
  have hend : 4 * e + 4 = 4 * i + 4 * (window ws i (m + 1 - i)).length +
      4 * (window ws (m + 1) (e - m)).length + 0 := by omega
  have hrun := amStataMerge_merges buffer (by decide) ha hb hmid hend (by omega)
  have herase := amStataMergeCalls_erase (ws.flatMap u32Bytes) buffer (4 * i) (4 * e) (4 * m) 4
  rw [hrun] at herase
  obtain ⟨t, ht, hres⟩ := except_map_eq_ok.mp herase
  have hcalls := amStataMergeCalls_copiedOnce hmid (by omega : _ = _ + 4 * (e - m)) ht
  rw [hla, (by omega : m + 1 - i + (e - m) = e + 1 - i)] at hcalls
  obtain ⟨hdata, hbuffer⟩ := Prod.mk.inj hres
  have hin : 0 + ((List.merge (window ws (m + 1) (e - m)) (window ws i (m + 1 - i))
      (· ≤ ·)).flatMap u32Bytes).length ≤ buffer.length := by
    rw [length_words, List.length_merge]
    omega
  refine ⟨t, ht, ?_, ⟨?_, ?_, ?_, hcalls⟩⟩
  · rw [hrun, hdata, hbuffer]
  · refine ⟨_, ?_, mergedBetween_splice him hme he⟩
    rw [hdata, splice_words]
  · rw [hbuffer, length_splice hin]
  · rw [hbuffer]
    apply drop_splice hin
    rw [length_words, List.length_merge]
    omega

/-- Two runs with equal elements, between other elements. -/
theorem amStataMerge_mergeStep_equal :
    ∃ t, amStataMergeCalls ([9, 2, 5, 2, 5, 7, 1].flatMap u32Bytes) (List.replicate 24 0) 4 20 8 4 =
        .ok t ∧ amStataMerge ([9, 2, 5, 2, 5, 7, 1].flatMap u32Bytes) (List.replicate 24 0) 4 20 8 4 =
        .ok (t.data, t.buffer) ∧
      MergeStep [9, 2, 5, 2, 5, 7, 1] 1 2 5 (List.replicate 24 0) t :=
  amStataMerge_mergeStep (i := 1) (m := 2) (e := 5) (by decide) (by decide) (by decide) (by decide)

end Elements

end AppMem.Device
