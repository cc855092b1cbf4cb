import AppMem.Device.SortBounds
import AppMem.Library.TwoRuns

/-! # Two sorts of one range

The sort looks at the elements of its range and at what it has put into the merge buffer itself, so
two sorts of storages that agree there go through the same steps.
-/
namespace AppMem.Device
open Library.Bytes Library.Checked Library.TwoRuns Abi Memory

def cell (p : ℕ) : Set ℕ := Set.Ico p (p + 4)

def Elements (K : Set ℕ) (s e : ℕ) : Prop := ∀ p, s ≤ p → p ≤ e → 4 ∣ p - s → cell p ⊆ K

section Sorts
variable {K K' : Set ℕ} {data data' buffer buffer' dst dst' src src' : List UInt8}

theorem Elements.head {s e : ℕ} (h : Elements K s e) (hse : s ≤ e) : cell s ⊆ K :=
  h s (Nat.le_refl s) hse ⟨0, by omega⟩

theorem Elements.front {s e mid : ℕ} (h : Elements K s e) (he : mid ≤ e) : Elements K s mid :=
  fun p hp hpe => h p hp (hpe.trans he)

theorem Elements.behind {s e mid : ℕ} (h : Elements K s e) (hs : s ≤ mid) (hdvd : 4 ∣ mid - s) :
    Elements K (mid + 4) e := by
  intro p hp hpe hd
  apply h p (hs.trans ((Nat.le_add_right mid 4).trans hp)) hpe
  omega

theorem Elements.tail {s e : ℕ} (h : Elements K s e) : Elements K (s + 4) e :=
  h.behind (Nat.le_refl s) ⟨0, by omega⟩

theorem readBytes_lockstep {p n : ℕ} (h : AgreeOn K data data') (hK : Set.Ico p (p + n) ⊆ K) :
    readBytes (data.drop p) n = readBytes (data'.drop p) n := by
  have hw := h.window hK
  have hlen : (data.drop p).length = (data'.drop p).length := by
    rw [List.length_drop, List.length_drop, h.length]
  by_cases hn : n ≤ (data.drop p).length
  · rw [readBytes_of_le hn, readBytes_of_le (hlen ▸ hn)]
    exact congrArg Except.ok hw
  · have hn' := Nat.not_le.mp hn
    rw [readBytes_of_lt hn', readBytes_of_lt (hlen ▸ hn')]

theorem readU32_lockstep {p : ℕ} (h : AgreeOn K data data') (hK : cell p ⊆ K) :
    readU32 (data.drop p) = readU32 (data'.drop p) := by
  rw [readU32, readU32, readBytes_lockstep h hK]

theorem amSetPtrval_lockstep {set fr : ℕ} (hdst : AgreeOn K dst dst') (hsrc : AgreeOn K' src src')
    (hK : cell fr ⊆ K') :
    Lockstep (AgreeOn (K ∪ cell set)) (amSetPtrval dst set src fr 4)
      (amSetPtrval dst' set src' fr 4) := by
  unfold amSetPtrval
  rw [readBytes_lockstep hsrc hK, hdst.length]
  apply Lockstep.bind_same
  intro _ _
  apply Lockstep.bind_same
  intro v hv
  apply Lockstep.bind_same
  intro _ hin
  have hlen : v.length = 4 := by
    obtain ⟨hle, rfl⟩ := readBytes_eq_ok.mp hv
    exact List.length_take_of_le hle
  have hroom : set + v.length ≤ dst.length := by
    rw [hlen, hdst.length]
    exact require_eq_ok.mp hin
  have hsplice := hdst.splice hroom
  rw [hlen] at hsplice
  exact hsplice

theorem copyRun_lockstep {n set fr : ℕ} (hdst : AgreeOn K dst dst') (hsrc : AgreeOn K' src src')
    (hK : ∀ i < n, cell (fr + 4 * i) ⊆ K') :
    Lockstep (AgreeOn (K ∪ Set.Ico set (set + 4 * n))) (copyRun 4 n dst set src fr)
      (copyRun 4 n dst' set src' fr) := by
  induction n generalizing K dst dst' set fr with
  | zero =>
    apply hdst.mono
    intro k hk
    rcases hk with hk | ⟨hlo, hhi⟩
    · exact hk
    · omega
  | succ n ih =>
    rw [copyRun, copyRun]
    apply (amSetPtrval_lockstep hdst hsrc (hK 0 (Nat.succ_pos n))).bind
    intro d d' hd
    have hrest : ∀ i < n, cell (fr + 4 + 4 * i) ⊆ K' := by
      intro i hi
      have hcell := hK (i + 1) (Nat.succ_lt_succ hi)
      rwa [Nat.mul_succ, Nat.add_comm (4 * i) 4, ← Nat.add_assoc] at hcell
    refine (ih hd hrest).mono fun a b hab => hab.mono ?_
    rintro k (hk | ⟨hlo, hhi⟩)
    · exact .inl (.inl hk)
    · by_cases hfirst : k < set + 4
      · exact .inl (.inr ⟨hlo, hfirst⟩)
      · exact .inr ⟨Nat.not_lt.mp hfirst, by omega⟩

theorem elements_run {s e : ℕ} (h : Elements K s e) : ∀ i < runLength s e 4, cell (s + 4 * i) ⊆ K := by
  intro i hi
  unfold runLength at hi
  split at hi
  · exact h _ (by omega) (by omega) ⟨i, by omega⟩
  · exact absurd hi (Nat.not_lt_zero i)

/-- The pointers of two merges, when only what is ahead of `kptr` in the buffers may differ. -/
structure SamePtrs (K : Set ℕ) (mid e total : ℕ) (p p' : MergePtrs) : Prop where
  ptrs : p' = { p with buffer := p'.buffer }
  buffer : AgreeOn (Set.Iio p.kptr) p.buffer p'.buffer
  left : Elements K p.iptr mid
  right : Elements K p.jptr e
  moved : p.kptr + 4 * (runLength p.iptr mid 4 + runLength p.jptr e 4) = total

theorem iio_union_cell (k : ℕ) : Set.Iio k ∪ cell k = Set.Iio (k + 4) := by
  ext i
  simp only [cell, Set.mem_union, Set.mem_Iio, Set.mem_Ico]
  omega

theorem SamePtrs.takeLeft {mid e total : ℕ} {p p' : MergePtrs} (S : SamePtrs K mid e total p p')
    (hi : p.iptr ≤ mid) {b b' : List UInt8} (hb : AgreeOn (Set.Iio p.kptr ∪ cell p.kptr) b b') :
    SamePtrs K mid e total ⟨p.iptr + 4, p.jptr, p.kptr + 4, b⟩ ⟨p.iptr + 4, p.jptr, p.kptr + 4, b'⟩ where
  ptrs := rfl
  buffer := iio_union_cell p.kptr ▸ hb
  left := S.left.tail
  right := S.right
  moved := by
    have hrun := runLength_succ hi
    have hmoved := S.moved
    dsimp only
    omega

theorem SamePtrs.takeRight {mid e total : ℕ} {p p' : MergePtrs} (S : SamePtrs K mid e total p p')
    (hj : p.jptr ≤ e) {b b' : List UInt8} (hb : AgreeOn (Set.Iio p.kptr ∪ cell p.kptr) b b') :
    SamePtrs K mid e total ⟨p.iptr, p.jptr + 4, p.kptr + 4, b⟩ ⟨p.iptr, p.jptr + 4, p.kptr + 4, b'⟩ where
  ptrs := rfl
  buffer := iio_union_cell p.kptr ▸ hb
  left := S.left
  right := S.right.tail
  moved := by
    have hrun := runLength_succ hj
    have hmoved := S.moved
    dsimp only
    omega

theorem mergeLoop_lockstep {mid e total fuel : ℕ} {p p' : MergePtrs} (hdata : AgreeOn K data data')
    (S : SamePtrs K mid e total p p') :
    Lockstep (SamePtrs K mid e total) (mergeLoop data mid e 4 fuel p)
      (mergeLoop data' mid e 4 fuel p') := by
  induction fuel generalizing p p' with
  | zero =>
    obtain ⟨i, j, k, b⟩ := p
    obtain ⟨i', j', k', b'⟩ := p'
    cases S.ptrs
    rw [mergeLoop, mergeLoop]
    apply Lockstep.ite
    · intro _
      rfl
    · intro _
      exact S
  | succ fuel ih =>
    obtain ⟨i, j, k, b⟩ := p
    obtain ⟨i', j', k', b'⟩ := p'
    cases S.ptrs
    rw [mergeLoop, mergeLoop]
    apply Lockstep.ite
    · rintro ⟨hi, hj⟩
      have hci := S.left.head hi
      have hcj := S.right.head hj
      rw [readU32_lockstep hdata hci, readU32_lockstep hdata hcj]
      apply Lockstep.bind_same
      intro a _
      apply Lockstep.bind_same
      intro b _
      apply Lockstep.ite
      · intro _
        apply (amSetPtrval_lockstep S.buffer hdata hci).bind
        intro c c' hc
        exact ih (S.takeLeft hi hc)
      · intro _
        apply (amSetPtrval_lockstep S.buffer hdata hcj).bind
        intro c c' hc
        exact ih (S.takeRight hj hc)
    · intro _
      exact S

def SameStorage (K : Set ℕ) (r r' : List UInt8 × List UInt8) : Prop :=
  AgreeOn K r.1 r'.1 ∧ r.2.length = r'.2.length

theorem runLength_split {s e mid : ℕ} (hs : s ≤ mid) (hdvd : 4 ∣ mid - s) (he : mid ≤ e) :
    runLength s mid 4 + runLength (mid + 4) e 4 = runLength s e 4 := by
  unfold runLength
  rw [if_pos hs, if_pos (hs.trans he)]
  split <;> omega

theorem amStataMerge_lockstep {s e mid : ℕ} (hdata : AgreeOn K data data')
    (hbuf : buffer.length = buffer'.length) (hK : Elements K s e) (hs : s ≤ mid)
    (hdvd : 4 ∣ mid - s) (he : mid ≤ e) :
    Lockstep (SameStorage K) (amStataMerge data buffer s e mid 4)
      (amStataMerge data' buffer' s e mid 4) := by
  have hstart : SamePtrs K mid e (4 * runLength s e 4) ⟨s, mid + 4, 0, buffer⟩
      ⟨s, mid + 4, 0, buffer'⟩ := by
    refine ⟨rfl, ⟨hbuf, fun k hk => absurd hk (Nat.not_lt_zero k)⟩,
      hK.front he, hK.behind hs hdvd, ?_⟩
    dsimp only
    rw [Nat.zero_add, runLength_split hs hdvd he]
  unfold amStataMerge
  dsimp only
  apply (mergeLoop_lockstep hdata hstart).bind
  intro p p' S
  obtain ⟨i, j, k, b⟩ := p
  obtain ⟨i', j', k', b'⟩ := p'
  cases S.ptrs
  have hmoved := S.moved
  dsimp only at hmoved ⊢
  apply (copyRun_lockstep S.buffer hdata (elements_run S.left)).bind
  intro b₁ b₁' h₁
  apply (copyRun_lockstep h₁ hdata (elements_run S.right)).bind
  intro b₂ b₂' h₂
  -- every element of the buffer was put there by the merge
  have hfull : ∀ n < runLength s e 4, cell (0 + 4 * n) ⊆
      Set.Iio k ∪ Set.Ico k (k + 4 * runLength i mid 4) ∪
        Set.Ico (k + runLength i mid 4 * 4) (k + runLength i mid 4 * 4 + 4 * runLength j e 4) := by
    rintro n hn m ⟨hlo, hhi⟩
    simp only [Set.mem_union, Set.mem_Iio, Set.mem_Ico]
    omega
  apply (copyRun_lockstep hdata h₂ hfull).bind
  intro d d' hd
  exact ⟨hd.mono Set.subset_union_left, h₂.length⟩

/-- The middle is an element of the range, also where its distance wraps around. -/
theorem midPtr_element {s e : ℕ} (hse : s ≤ e) :
    s ≤ midPtr s e 4 ∧ 4 ∣ midPtr s e 4 - s ∧ midPtr s e 4 ≤ e := by
  unfold midPtr
  omega

theorem amStataMergeSort_lockstep {fuel s e : ℕ} (hdata : AgreeOn K data data')
    (hbuf : buffer.length = buffer'.length) (hK : Elements K s e) :
    Lockstep (SameStorage K) (amStataMergeSort 4 fuel data buffer s e)
      (amStataMergeSort 4 fuel data' buffer' s e) := by
  induction fuel generalizing data data' buffer buffer' s e with
  | zero =>
    rw [amStataMergeSort, amStataMergeSort]
    apply Lockstep.ite
    · intro _
      rfl
    · intro _
      exact ⟨hdata, hbuf⟩
  | succ fuel ih =>
    rw [amStataMergeSort, amStataMergeSort]
    apply Lockstep.ite
    · intro hse
      obtain ⟨hs, hdvd, he⟩ := midPtr_element hse.le
      dsimp only
      apply (ih hdata hbuf (hK.front he)).bind
      rintro r₁ r₁' ⟨hd₁, hb₁⟩
      apply (ih hd₁ hb₁ (hK.behind hs hdvd)).bind
      rintro r₂ r₂' ⟨hd₂, hb₂⟩
      exact amStataMerge_lockstep hd₂ hb₂ hK hs hdvd he
    · intro _
      exact ⟨hdata, hbuf⟩

/-- Two sorts with memory for their buffers, whatever `malloc` leaves in these. -/
theorem amStataMergeSortBegin_lockstep {env env' : Env} {s e : ℕ} (hdata : AgreeOn K data data')
    (hm : env.alloc .mergeBuffer = env'.alloc .mergeBuffer) (hK : Elements K s e) :
    Lockstep (fun r r' => AgreeOn K r.1 r'.1 ∧ r.2 = r'.2) (amStataMergeSortBegin env data s e 4)
      (amStataMergeSortBegin env' data' s e 4) := by
  unfold amStataMergeSortBegin
  rw [hm]
  apply Lockstep.ite
  · intro _
    have hbuf : (env.garbage (sizeMergeBytes s e 4)).length =
        (env'.garbage (sizeMergeBytes s e 4)).length := by
      rw [Env.length_garbage, Env.length_garbage]
    apply (amStataMergeSort_lockstep hdata hbuf hK).bind
    rintro r r' ⟨hd, -⟩
    exact ⟨hd, rfl⟩
  · intro _
    exact ⟨hdata, rfl⟩

end Sorts

end AppMem.Device
