import AppMem.Device.MergeSort

/-! # Where the merge sort reads and writes

Every step of the sort keeps the lengths of the storage and of the merge buffer. It comes back just
when its range lies inside the storage; a buffer whose size wrapped around is too small.
-/
namespace AppMem.Device
open Library.Bytes Library.Checked Abi Memory

section Bounds
variable {data buffer dst src out : List UInt8} {set fr n : ℕ}

theorem amSetPtrval_eq_ok : amSetPtrval dst set src fr 4 = .ok out ↔
    fr + 4 ≤ src.length ∧ set + 4 ≤ dst.length ∧ out = splice dst set (window src fr 4) := by
  have hread : 4 ≤ (src.drop fr).length ↔ fr + 4 ≤ src.length := by
    rw [List.length_drop]
    omega
  unfold amSetPtrval
  rw [require_of_true _ rfl, ok_bind]
  by_cases hfr : fr + 4 ≤ src.length
  · rw [readBytes_of_le (hread.mpr hfr), ok_bind]
    by_cases hset : set + 4 ≤ dst.length
    · simp [hfr, hset, window, eq_comm]
    · simp [hset]
  · rw [readBytes_of_lt (Nat.not_le.mp (mt hread.mp hfr))]
    simp [hfr]

theorem length_amSetPtrval (h : amSetPtrval dst set src fr 4 = .ok out) :
    out.length = dst.length := by
  obtain ⟨hfr, hset, rfl⟩ := amSetPtrval_eq_ok.mp h
  apply length_splice
  rwa [length_window hfr]

theorem amSetPtrval_of_le (dst src : List UInt8) (hfr : fr + 4 ≤ src.length)
    (hset : set + 4 ≤ dst.length) :
    ∃ out, amSetPtrval dst set src fr 4 = .ok out ∧ out.length = dst.length :=
  ⟨_, amSetPtrval_eq_ok.mpr ⟨hfr, hset, rfl⟩,
    length_amSetPtrval (amSetPtrval_eq_ok.mpr ⟨hfr, hset, rfl⟩)⟩

theorem length_copyRun (h : copyRun 4 n dst set src fr = .ok out) : out.length = dst.length := by
  induction n generalizing dst set fr with
  | zero =>
    cases h
    rfl
  | succ n ih =>
    rw [copyRun, bind_eq_ok] at h
    rcases h with ⟨dst', hset, h⟩
    rw [ih h, length_amSetPtrval hset]

theorem copyRun_inside (h : copyRun 4 n dst set src fr = .ok out) (hn : 0 < n) :
    fr + 4 * n ≤ src.length ∧ set + 4 * n ≤ dst.length := by
  induction n generalizing dst set fr with
  | zero => exact absurd hn (Nat.lt_irrefl 0)
  | succ n ih =>
    rw [copyRun, bind_eq_ok] at h
    rcases h with ⟨dst', hfirst, h⟩
    obtain ⟨hfr, hset, -⟩ := amSetPtrval_eq_ok.mp hfirst
    cases n with
    | zero => omega
    | succ n =>
      obtain ⟨hfr', hset'⟩ := ih h (Nat.succ_pos n)
      rw [length_amSetPtrval hfirst] at hset'
      omega

theorem copyRun_of_le (n : ℕ) (dst : List UInt8) (set : ℕ) (src : List UInt8) (fr : ℕ)
    (hfr : fr + 4 * n ≤ src.length) (hset : set + 4 * n ≤ dst.length) :
    ∃ out, copyRun 4 n dst set src fr = .ok out ∧ out.length = dst.length := by
  induction n generalizing dst set fr with
  | zero => exact ⟨dst, rfl, rfl⟩
  | succ n ih =>
    have hfr' : fr + 4 ≤ src.length := by omega
    have hset' : set + 4 ≤ dst.length := by omega
    obtain ⟨dst', hfirst, hlen⟩ := amSetPtrval_of_le dst src hfr' hset'
    obtain ⟨out, hout, hlen'⟩ := ih dst' (set + 4) (fr + 4) (by omega) (by omega)
    exact ⟨out, by rw [copyRun, hfirst, ok_bind, hout], hlen'.trans hlen⟩

theorem runLength_succ {p last : ℕ} (h : p ≤ last) :
    runLength p last 4 = runLength (p + 4) last 4 + 1 := by
  unfold runLength
  rw [if_pos h]
  split <;> omega

/-- What the loop of the merge leaves: nothing is lost, and the buffer keeps its length. -/
structure Merged (midPtr endPtr : ℕ) (p q : MergePtrs) : Prop where
  length : q.buffer.length = p.buffer.length
  left : q.iptr + 4 * runLength q.iptr midPtr 4 = p.iptr + 4 * runLength p.iptr midPtr 4
  right : q.jptr + 4 * runLength q.jptr endPtr 4 = p.jptr + 4 * runLength p.jptr endPtr 4
  moved : q.kptr + 4 * (runLength q.iptr midPtr 4 + runLength q.jptr endPtr 4) =
    p.kptr + 4 * (runLength p.iptr midPtr 4 + runLength p.jptr endPtr 4)

theorem length_mergeLoop {mid e fuel : ℕ} {p q : MergePtrs}
    (h : mergeLoop data mid e 4 fuel p = .ok q) : q.buffer.length = p.buffer.length := by
  induction fuel generalizing p with
  | zero =>
    rw [mergeLoop] at h
    split at h
    · cases h
    · cases h
      rfl
  | succ fuel ih =>
    rw [mergeLoop] at h
    split at h
    · rw [bind_eq_ok] at h
      rcases h with ⟨a, -, h⟩
      rw [bind_eq_ok] at h
      rcases h with ⟨b, -, h⟩
      split at h
      · rw [bind_eq_ok] at h
        rcases h with ⟨buffer', hset, h⟩
        rw [ih h, length_amSetPtrval hset]
      · rw [bind_eq_ok] at h
        rcases h with ⟨buffer', hset, h⟩
        rw [ih h, length_amSetPtrval hset]
    · cases h
      rfl

theorem readU32_drop {fr : ℕ} (h : fr + 4 ≤ data.length) :
    readU32 (data.drop fr) = .ok (u32OfBytes (data.drop fr)) :=
  readU32_of_le (by rw [List.length_drop]; omega)

theorem mergeLoop_of_le (data : List UInt8) (mid e : ℕ) {fuel : ℕ} (p : MergePtrs)
    (hfuel : runLength p.iptr mid 4 + runLength p.jptr e 4 ≤ fuel)
    (hi : p.iptr + 4 * runLength p.iptr mid 4 ≤ data.length)
    (hj : p.jptr + 4 * runLength p.jptr e 4 ≤ data.length)
    (hk : p.kptr + 4 * (runLength p.iptr mid 4 + runLength p.jptr e 4) ≤ p.buffer.length) :
    ∃ q, mergeLoop data mid e 4 fuel p = .ok q ∧ Merged mid e p q := by
  induction fuel generalizing p with
  | zero =>
    have hstop : ¬ (p.iptr ≤ mid ∧ p.jptr ≤ e) := by
      rintro ⟨hile, -⟩
      rw [runLength_succ hile] at hfuel
      omega
    exact ⟨p, by rw [mergeLoop, if_neg hstop], rfl, rfl, rfl, rfl⟩
  | succ fuel ih =>
    by_cases hgo : p.iptr ≤ mid ∧ p.jptr ≤ e
    · have hri := runLength_succ hgo.1
      have hrj := runLength_succ hgo.2
      have hia : p.iptr + 4 ≤ data.length := by omega
      have hja : p.jptr + 4 ≤ data.length := by omega
      have hka : p.kptr + 4 ≤ p.buffer.length := by omega
      rw [mergeLoop, if_pos hgo, readU32_drop hia, ok_bind, readU32_drop hja, ok_bind]
      split
      · obtain ⟨buffer', hset, hlen⟩ := amSetPtrval_of_le p.buffer data hia hka
        obtain ⟨q, hq, M⟩ := ih ⟨p.iptr + 4, p.jptr, p.kptr + 4, buffer'⟩
          (by dsimp only; omega) (by dsimp only; omega) (by dsimp only; omega)
          (by dsimp only; omega)
        refine ⟨q, by rw [hset, ok_bind, hq], M.length.trans hlen, ?_, M.right, ?_⟩
        · have := M.left
          dsimp only at this
          omega
        · have := M.moved
          dsimp only at this
          omega
      · obtain ⟨buffer', hset, hlen⟩ := amSetPtrval_of_le p.buffer data hja hka
        obtain ⟨q, hq, M⟩ := ih ⟨p.iptr, p.jptr + 4, p.kptr + 4, buffer'⟩
          (by dsimp only; omega) (by dsimp only; omega) (by dsimp only; omega)
          (by dsimp only; omega)
        refine ⟨q, by rw [hset, ok_bind, hq], M.length.trans hlen, M.left, ?_, ?_⟩
        · have := M.right
          dsimp only at this
          omega
        · have := M.moved
          dsimp only at this
          omega
    · exact ⟨p, by rw [mergeLoop, if_neg hgo], rfl, rfl, rfl, rfl⟩

theorem length_amStataMerge {s e mid : ℕ} {r : List UInt8 × List UInt8}
    (h : amStataMerge data buffer s e mid 4 = .ok r) :
    r.1.length = data.length ∧ r.2.length = buffer.length := by
  unfold amStataMerge at h
  rw [bind_eq_ok] at h
  rcases h with ⟨p, hloop, h⟩
  rw [bind_eq_ok] at h
  rcases h with ⟨b₁, hi, h⟩
  rw [bind_eq_ok] at h
  rcases h with ⟨b₂, hj, h⟩
  rw [bind_eq_ok] at h
  rcases h with ⟨d, hback, h⟩
  cases h
  exact ⟨length_copyRun hback, (length_copyRun hj).trans ((length_copyRun hi).trans
    (length_mergeLoop hloop))⟩

/-- A merge that comes back has its range inside the storage, and its elements in the buffer. -/
theorem amStataMerge_inside {s e mid : ℕ} {r : List UInt8 × List UInt8}
    (h : amStataMerge data buffer s e mid 4 = .ok r) (hse : s ≤ e) :
    s + 4 * runLength s e 4 ≤ data.length ∧ 4 * runLength s e 4 ≤ buffer.length := by
  have hlen := (length_amStataMerge h).2
  unfold amStataMerge at h
  rw [bind_eq_ok] at h
  rcases h with ⟨p, hloop, h⟩
  rw [bind_eq_ok] at h
  rcases h with ⟨b₁, hi, h⟩
  rw [bind_eq_ok] at h
  rcases h with ⟨b₂, hj, h⟩
  rw [bind_eq_ok] at h
  rcases h with ⟨d, hback, h⟩
  cases h
  obtain ⟨hb, hd⟩ := copyRun_inside hback (by rw [runLength_succ hse]; exact Nat.succ_pos _)
  dsimp only at hlen
  omega

theorem amStataMerge_of_le (data buffer : List UInt8) (s : ℕ) {q m r : ℕ} (hm : m ≤ q) (hr : r < 4)
    (hdata : s + 4 * (q + 1) ≤ data.length) (hbuf : 4 * (q + 1) ≤ buffer.length) :
    ∃ d b, amStataMerge data buffer s (s + 4 * q + r) (s + 4 * m) 4 = .ok (d, b) ∧
      d.length = data.length ∧ b.length = buffer.length := by
  have hri : runLength s (s + 4 * m) 4 = m + 1 := by
    rw [runLength, if_pos (by omega)]
    omega
  have hrj : runLength (s + 4 * m + 4) (s + 4 * q + r) 4 = q - m := by
    unfold runLength
    split <;> omega
  have hrun : runLength s (s + 4 * q + r) 4 = q + 1 := by
    rw [runLength, if_pos (by omega)]
    omega
  obtain ⟨p, hloop, M⟩ := mergeLoop_of_le data (s + 4 * m) (s + 4 * q + r)
    ⟨s, s + 4 * m + 4, 0, buffer⟩ (Nat.le_refl _) (by dsimp only; omega) (by dsimp only; omega)
    (by dsimp only; omega)
  have hleft := M.left
  have hright := M.right
  have hmoved := M.moved
  have hlen := M.length
  dsimp only at hleft hright hmoved hlen
  obtain ⟨b₁, hb₁, hlen₁⟩ := copyRun_of_le (runLength p.iptr (s + 4 * m) 4) p.buffer p.kptr data
    p.iptr (by omega) (by omega)
  obtain ⟨b₂, hb₂, hlen₂⟩ := copyRun_of_le (runLength p.jptr (s + 4 * q + r) 4) b₁
    (p.kptr + runLength p.iptr (s + 4 * m) 4 * 4) data p.jptr (by omega) (by omega)
  obtain ⟨d, hd, hlen₃⟩ := copyRun_of_le (runLength s (s + 4 * q + r) 4) data s b₂ 0 (by omega)
    (by omega)
  refine ⟨d, b₂, ?_, hlen₃, by omega⟩
  unfold amStataMerge
  dsimp only
  rw [hloop, ok_bind, hb₁, ok_bind, hb₂, ok_bind, hd, ok_bind]
  rfl

theorem length_amStataMergeSort {fuel s e : ℕ} {r : List UInt8 × List UInt8}
    (h : amStataMergeSort 4 fuel data buffer s e = .ok r) :
    r.1.length = data.length ∧ r.2.length = buffer.length := by
  induction fuel generalizing data buffer s e r with
  | zero =>
    rw [amStataMergeSort] at h
    split at h
    · cases h
    · cases h
      exact ⟨rfl, rfl⟩
  | succ fuel ih =>
    rw [amStataMergeSort] at h
    split at h
    · dsimp only at h
      rw [bind_eq_ok] at h
      rcases h with ⟨r₁, hl, h⟩
      rw [bind_eq_ok] at h
      rcases h with ⟨r₂, hr, h⟩
      obtain ⟨hd, hb⟩ := length_amStataMerge h
      obtain ⟨hd₁, hb₁⟩ := ih hl
      obtain ⟨hd₂, hb₂⟩ := ih hr
      omega
    · cases h
      exact ⟨rfl, rfl⟩

theorem amStataMergeSort_inside {fuel s e : ℕ} {r : List UInt8 × List UInt8}
    (h : amStataMergeSort 4 fuel data buffer s e = .ok r) (hse : s < e) :
    s + 4 * runLength s e 4 ≤ data.length ∧ 4 * runLength s e 4 ≤ buffer.length := by
  cases fuel with
  | zero =>
    rw [amStataMergeSort, if_pos hse] at h
    cases h
  | succ fuel =>
    rw [amStataMergeSort, if_pos hse] at h
    dsimp only at h
    rw [bind_eq_ok] at h
    rcases h with ⟨r₁, hl, h⟩
    rw [bind_eq_ok] at h
    rcases h with ⟨r₂, hr, h⟩
    obtain ⟨hd, hb⟩ := amStataMerge_inside h hse.le
    obtain ⟨hd₁, hb₁⟩ := length_amStataMergeSort hl
    obtain ⟨hd₂, hb₂⟩ := length_amStataMergeSort hr
    omega

/-- Without a wrap in 32 bits the middle is the middle. -/
theorem midPtr_eq {s e : ℕ} (h : e - s + 4 < 2 ^ 32) : midPtr s e 4 = s + 4 * ((e - s) / 4 / 2) := by
  unfold midPtr
  omega

theorem amStataMergeSort_of_le {fuel : ℕ} (data buffer : List UInt8) (s e : ℕ)
    (hfuel : e - s ≤ fuel) (hwrap : e - s + 4 < 2 ^ 32)
    (hdata : s < e → s + 4 * runLength s e 4 ≤ data.length)
    (hbuf : s < e → 4 * runLength s e 4 ≤ buffer.length) :
    ∃ d b, amStataMergeSort 4 fuel data buffer s e = .ok (d, b) ∧ d.length = data.length ∧
      b.length = buffer.length := by
  induction fuel generalizing data buffer s e with
  | zero => exact ⟨data, buffer, by rw [amStataMergeSort, if_neg (by omega)], rfl, rfl⟩
  | succ fuel ih =>
    by_cases hse : s < e
    · have hdata := hdata hse
      have hbuf := hbuf hse
      have hrun : runLength s e 4 = (e - s) / 4 + 1 := if_pos hse.le
      rw [hrun] at hdata hbuf
      have hleft : runLength s (s + 4 * ((e - s) / 4 / 2)) 4 = (e - s) / 4 / 2 + 1 := by
        rw [runLength, if_pos (by omega)]
        omega
      have hright : s + 4 * ((e - s) / 4 / 2) + 4 < e →
          runLength (s + 4 * ((e - s) / 4 / 2) + 4) e 4 = (e - s) / 4 - (e - s) / 4 / 2 := by
        intro hlt
        rw [runLength, if_pos hlt.le]
        omega
      obtain ⟨d₁, b₁, h₁, hd₁, hb₁⟩ := ih data buffer s
        (s + 4 * ((e - s) / 4 / 2)) (by omega) (by omega) (by omega) (by omega)
      obtain ⟨d₂, b₂, h₂, hd₂, hb₂⟩ := ih d₁ b₁
        (s + 4 * ((e - s) / 4 / 2) + 4) e (by omega) (by omega) (by omega) (by omega)
      obtain ⟨d, b, h, hd, hb⟩ := amStataMerge_of_le d₂ b₂ s
        (q := (e - s) / 4) (m := (e - s) / 4 / 2) (r := (e - s) % 4) (Nat.div_le_self _ _)
        (Nat.mod_lt _ (by decide)) (by omega) (by omega)
      have he : s + 4 * ((e - s) / 4) + (e - s) % 4 = e := by omega
      rw [he] at h
      refine ⟨d, b, ?_, by omega, by omega⟩
      rw [amStataMergeSort, if_pos hse, midPtr_eq hwrap]
      dsimp only
      rw [h₁, ok_bind, h₂, ok_bind, h]
    · exact ⟨data, buffer, by rw [amStataMergeSort, if_neg hse], rfl, rfl⟩

/-- A sort comes back good when there is memory for its buffer and its range, of less than 4 GiB,
lies inside the storage. -/
theorem amStataMergeSortBegin_good_iff {env : Env} {s e : ℕ} (hse : s < e) :
    (∃ d, amStataMergeSortBegin env data s e 4 = .ok (d, amRetGood)) ↔
      env.alloc .mergeBuffer = true ∧ s + 4 * runLength s e 4 ≤ data.length ∧ e - s + 4 < 2 ^ 32 := by
  have hrun : runLength s e 4 = (e - s) / 4 + 1 := if_pos hse.le
  cases halloc : env.alloc .mergeBuffer with
  | false =>
    have hfail : amStataMergeSortBegin env data s e 4 = .ok (data, amRetAllocErr) := by
      rw [amStataMergeSortBegin, halloc]
      rfl
    rw [hfail]
    refine iff_of_false ?_ (by simp)
    rintro ⟨d, hd⟩
    cases hd
  | true =>
    have hbegin : amStataMergeSortBegin env data s e 4 =
        amStataMergeSort 4 (e - s) data (env.garbage (sizeMergeBytes s e 4)) s e >>= fun r =>
          .ok (r.1, amRetGood) := by
      rw [amStataMergeSortBegin, if_pos halloc]
      rfl
    have hsize : (env.garbage (sizeMergeBytes s e 4)).length = (e - s + 4) % 2 ^ 32 := by
      rw [Env.length_garbage, sizeMergeBytes]
    rw [hbegin]
    constructor
    · rintro ⟨d, hd⟩
      rw [bind_eq_ok] at hd
      rcases hd with ⟨r, hsort, -⟩
      obtain ⟨hdata, hbuf⟩ := amStataMergeSort_inside hsort hse
      rw [hsize, hrun] at hbuf
      exact ⟨rfl, hdata, by omega⟩
    · rintro ⟨-, hdata, hwrap⟩
      have hbuf : 4 * runLength s e 4 ≤ (env.garbage (sizeMergeBytes s e 4)).length := by
        rw [hsize, hrun]
        omega
      obtain ⟨d, b, hsort, -, -⟩ := amStataMergeSort_of_le data _ s e (Nat.le_refl _) hwrap
        (fun _ => hdata) (fun _ => hbuf)
      exact ⟨d, by rw [hsort, ok_bind]⟩

end Bounds

end AppMem.Device
