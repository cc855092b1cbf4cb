import AppMem.Virtd.Release

/-! # What a release leaves behind

Between a creation that went well and the release, the blocks of a function are exactly those that
it leads to. The release frees each of them, except for the header of an associative array, and
the release after it is a fault.
-/
namespace AppMem.Virtd
open Library.Checked Library.Blocks Abi Memory Hash Pack Device

section Blocks

def tableOf (table : Option (ℕ × ℕ)) : List ℕ := table.elim [] fun t => [t.1, t.2]

def Owned.blocks (s : Owned) : List ℕ :=
  s.ptrs.pVdF.toList ++ s.ptrs.data.toList ++ (s.items ++ tableOf s.table)

/-- The blocks allocated since the heap was `h` are those that the function leads to. There is a
table when there are items, and only associative arrays have any. -/
structure Owns (kind : VirtdKind) (h : Heap) (s : Owned) : Prop where
  since : Heap.Since h s.heap s.blocks
  table : s.items = [] ↔ s.table = none
  bare : kind ≠ .assca → s.items = []

def VirtdUse.isAccess : VirtdUse → Bool
  | .create _ _ | .release => false
  | _ => true

/-- What a release forgets: `AMLIB_ASSCA`. -/
def leftover (kind : VirtdKind) (s : Owned) : List ℕ :=
  if kind = .assca then s.ptrs.data.toList else []

end Blocks

section Lemmas
variable {kind : VirtdKind} {env : Env} {pCap : AmMemCap} {s s' : Owned} {e : AmReturn} {b : ℕ}
  {h : Heap}

theorem owns_create (hm : env.alloc .funcData = true)
    (hc : createUse kind env pCap s = .ok (s', e)) : Owns kind s.heap s' := by
  let p : VirtdPtrs := { s.ptrs with
    pVdF := some s.heap.next
    data := none }
  obtain ⟨func, r, hok, hr⟩ := createUse_memory kind pCap s hm
  obtain ⟨fn, hcase⟩ := createSwitch_cases env { pCap with amType := kind.amType } 
    s.heap.alloc (p := p) rfl
  rw [hok] at hc
  cases hc
  have S := (Heap.Since.refl s.heap).alloc
  rcases hcase with hsame | hmore
  · rw [← hr] at hsame
    refine ⟨?_, iff_of_true rfl rfl, fun _ => rfl⟩
    rw [Owned.blocks, hsame]
    exact S
  · rw [← hr] at hmore
    refine ⟨?_, iff_of_true rfl rfl, fun _ => rfl⟩
    rw [Owned.blocks, hmore]
    exact S.alloc.perm (List.Perm.swap _ _ _)

theorem since_tableBlocks {l : List ℕ} {hp : Heap} {table : Option (ℕ × ℕ)}
    (S : Heap.Since h hp (tableOf table ++ l)) :
    Heap.Since h (tableBlocks table hp).2 (tableOf (some (tableBlocks table hp).1) ++ l) := by
  cases table with
  | some t => exact S
  | none => exact S.alloc.alloc.perm (List.Perm.swap _ _ _)

/-- A write keeps track of what it allocates, and of the buckets it replaces. -/
theorem Owns.writeBlocks {g : MemFunction} (O : Owns kind h s) (hk : kind = .assca)
    (hw : writeBlocks env g s = .ok s') : Owns kind h s' := by
  unfold Virtd.writeBlocks at hw
  cases hm : env.alloc .asscaItem with
  | false =>
    rw [hm] at hw
    cases hw
    exact ⟨O.since, O.table, O.bare⟩
  | true =>
    rw [hm, Heap.malloc_true] at hw
    dsimp only at hw
    let rest := s.ptrs.pVdF.toList ++ s.ptrs.data.toList
    have S : Heap.Since h s.heap.alloc
        (tableOf s.table ++ (rest ++ (s.items ++ [s.heap.next]))) := by
      refine O.since.alloc.perm (List.perm_iff_count.mpr fun a => ?_)
      simp only [Owned.blocks, rest, List.count_append, List.count_cons, List.count_nil]
      omega
    have S' := since_tableBlocks S
    have hitems : s.items ++ [s.heap.next] = [] ↔
        some (tableBlocks s.table s.heap.alloc).1 = none := by
      simp
    split at hw
    · cases hw
      refine ⟨S'.perm (List.perm_iff_count.mpr fun a => ?_), hitems, fun hne => absurd hk hne⟩
      simp only [Owned.blocks, rest, List.count_append]
      omega
    · rw [bind_eq_ok] at hw
      obtain ⟨h₁, hfree, hw⟩ := hw
      cases hw
      let made := tableBlocks s.table s.heap.alloc
      have Snew : Heap.Since h made.2.alloc (made.1.2 :: (made.2.next :: made.1.1 ::
          (rest ++ (s.items ++ [s.heap.next])))) := by
        refine S'.alloc.perm (List.perm_iff_count.mpr fun a => ?_)
        simp only [made, tableOf, Option.elim, List.count_append, List.count_cons, List.count_nil]
        omega
      obtain ⟨h₂, hfree₂, S₂⟩ := Snew.free Fault.useAfterFree
      rw [hfree] at hfree₂
      cases hfree₂
      refine ⟨S₂.perm (List.perm_iff_count.mpr fun a => ?_), by simp, fun hne => absurd hk hne⟩
      simp only [Owned.blocks, rest, made, tableOf, Option.elim, List.count_append, List.count_cons,
        List.count_nil]
      omega

theorem access_cases {use : VirtdUse} (ha : use.isAccess = true)
    (hs : virtdStep kind s use = .ok (s', e)) : (∃ g, s' = { s with func := g }) ∨
      kind = .assca ∧ ∃ env g, writeBlocks env g s = .ok s' := by
  cases use with
  | create env pCap => cases ha
  | release => cases ha
  | write env p1 p2 =>
    rw [virtdStep, writeUse, bind_eq_ok] at hs
    obtain ⟨-, -, hs⟩ := hs
    rw [bind_eq_ok] at hs
    obtain ⟨r, -, hs⟩ := hs
    by_cases hk : kind = .assca ∧ s.ptrs.pVdF.isSome
    · rw [if_pos hk, bind_eq_ok] at hs
      obtain ⟨s₁, hw, hs⟩ := hs
      cases hs
      exact .inr ⟨hk.1, env, r.1, hw⟩
    · rw [if_neg hk] at hs
      cases hs
      exact .inl ⟨r.1, rfl⟩
  | read p1 p2 =>
    rw [virtdStep, bind_eq_ok] at hs
    obtain ⟨-, -, hs⟩ := hs
    rw [bind_eq_ok] at hs
    obtain ⟨r, -, hs⟩ := hs
    cases hs
    exact .inl ⟨r.1, rfl⟩
  | iter p1 l1 p2 l2 n =>
    rw [virtdStep, bind_eq_ok] at hs
    obtain ⟨-, -, hs⟩ := hs
    rw [bind_eq_ok] at hs
    obtain ⟨-, -, hs⟩ := hs
    rw [bind_eq_ok] at hs
    obtain ⟨r, -, hs⟩ := hs
    cases hs
    exact .inl ⟨r.1, rfl⟩

theorem Owns.step (O : Owns kind h s) {use : VirtdUse} (ha : use.isAccess = true)
    (hs : virtdStep kind s use = .ok (s', e)) : Owns kind h s' ∧ s'.ptrs = s.ptrs := by
  rcases access_cases ha hs with ⟨g, rfl⟩ | ⟨hk, env, g, hw⟩
  · exact ⟨⟨O.since, O.table, O.bare⟩, rfl⟩
  · exact ⟨O.writeBlocks hk hw, writeBlocks_ptrs hw⟩

theorem Owns.run (O : Owns kind h s) {uses : List VirtdUse} {es : List AmReturn}
    (huses : ∀ use ∈ uses, use.isAccess = true)
    (hrun : trace (virtdStep kind) s uses = .ok (s', es)) : Owns kind h s' ∧ s'.ptrs = s.ptrs := by
  induction uses generalizing s es with
  | nil =>
    cases hrun
    exact ⟨O, rfl⟩
  | cons use uses ih =>
    rw [trace_cons, bind_eq_ok] at hrun
    obtain ⟨⟨s₁, e⟩, hs, hrun⟩ := hrun
    rw [bind_eq_ok] at hrun
    obtain ⟨⟨s₂, es'⟩, hrest, hrun⟩ := hrun
    cases hrun
    obtain ⟨O₁, hptrs₁⟩ := O.step (huses use List.mem_cons_self) hs
    obtain ⟨O', hptrs⟩ := ih O₁ (fun u hu => huses u (List.mem_cons_of_mem _ hu)) hrest
    exact ⟨O', hptrs.trans hptrs₁⟩

/-- The loop over the items frees them and the table, in some order. -/
theorem releaseItems_eq (tbl buckets : ℕ) {items : List ℕ} (hne : items ≠ []) :
    ∃ l, l.Perm (items ++ [tbl, buckets]) ∧
      ∀ h, releaseItems (some (tbl, buckets)) items h = h.freeAll Fault.useAfterFree l := by
  induction items with
  | nil => exact absurd rfl hne
  | cons pAI rest ih =>
    cases rest with
    | nil =>
      refine ⟨[buckets, tbl] ++ [pAI], List.perm_iff_count.mpr fun a => ?_, fun h => ?_⟩
      · simp only [List.count_append, List.count_cons, List.count_nil]
        omega
      · rw [Heap.freeAll_append]
        rfl
    | cons next rest =>
      obtain ⟨l, hl, hfree⟩ := ih (List.cons_ne_nil _ _)
      refine ⟨pAI :: l, hl.cons pAI, fun h => ?_⟩
      rw [Heap.freeAll_cons, releaseItems]
      simp only [ok_bind, hfree]

/-- A release of private data that was filled in comes back, and leaves what it forgets. -/
theorem Owns.release (O : Owns kind h s) (hp : s.ptrs.pVdF = some b)
    (hd : kind = .assca → s.ptrs.data.isSome) : ∃ s', releaseUse kind s = .ok (s', amRetGood) ∧
      s'.heap.live = h.live ∪ (leftover kind s).toFinset := by
  have htouch : s.touch = .ok () := by
    rw [Owned.touch, hp]
    refine require_of_true _ (O.since.mem_live ?_)
    simp [Owned.blocks, hp]
  rw [releaseUse, htouch, ok_bind, hp]
  dsimp only
  by_cases hk : kind = .assca
  · obtain ⟨data, hdata⟩ := Option.isSome_iff_exists.mp (hd hk)
    have hblocks : s.blocks = [b] ++ [data] ++ (s.items ++ tableOf s.table) := by
      rw [Owned.blocks, hp, hdata]
      rfl
    obtain ⟨l, hl, hfree⟩ : ∃ l, l.Perm (s.items ++ tableOf s.table) ∧
        ∀ h, releaseItems s.table s.items h = h.freeAll Fault.useAfterFree l := by
      cases ht : s.table with
      | none =>
        rw [O.table.mpr ht]
        exact ⟨[], .refl _, fun _ => rfl⟩
      | some t =>
        have hne : s.items ≠ [] := fun hnil => by
          rw [O.table.mp hnil] at ht
          cases ht
        exact releaseItems_eq t.1 t.2 hne
    have S : Heap.Since h s.heap (l ++ (b :: [data])) := by
      refine O.since.perm (List.perm_iff_count.mpr fun a => ?_)
      have hcount := hl.count_eq a
      rw [hblocks]
      simp only [List.count_append, List.count_cons, List.count_nil] at hcount ⊢
      omega
    obtain ⟨h₁, hall, S₁⟩ := S.freeAll Fault.useAfterFree
    obtain ⟨h₂, hone, S₂⟩ := S₁.free Fault.useAfterFree
    refine ⟨{ s with items := [], table := none, heap := h₂ }, ?_, ?_⟩
    · rw [if_pos hk, amAsscaRelease, hdata, hfree, hall]
      simp only [Option.isSome_some, require_of_true, ok_bind, hone, pure_eq_ok]
    · rw [leftover, if_pos hk, hdata]
      exact S₂.live
  · have hnone := O.table.mp (O.bare hk)
    have S : Heap.Since h s.heap ((s.ptrs.data.toList ++ [b]) ++ []) := by
      refine O.since.perm (List.perm_iff_count.mpr fun a => ?_)
      rw [Owned.blocks, hp, O.bare hk, hnone]
      simp only [tableOf, Option.elim, Option.toList, List.count_append, List.count_cons,
        List.count_nil]
      omega
    obtain ⟨h₁, hall, S₁⟩ := S.freeAll Fault.useAfterFree
    refine ⟨{ s with ptrs := { s.ptrs with data := none }, heap := h₁ }, ?_, ?_⟩
    · rw [if_neg hk, amFlatRelease, hall]
      rfl
    · rw [leftover, if_neg hk]
      exact S₁.live

end Lemmas

/-- After a creation that got its memory, whatever was written, read and iterated: the release
frees every block, but for the header of an associative array. -/
theorem release_leaves {kind : VirtdKind} {env : Env} {pCap : AmMemCap} {s₀ s₁ s : Owned}
    {e : AmReturn} {uses : List VirtdUse} {es : List AmReturn} (hm : env.alloc .funcData = true)
    (hcreate : createUse kind env pCap s₀ = .ok (s₁, e)) (hdata : s₁.ptrs.data.isSome)
    (huses : ∀ use ∈ uses, use.isAccess = true)
    (hrun : trace (virtdStep kind) s₁ uses = .ok (s, es)) :
    ∃ s', virtdStep kind s .release = .ok (s', amRetGood) ∧
      s'.heap.live = s₀.heap.live ∪ (leftover kind s).toFinset := by
  obtain ⟨O, hptrs⟩ := (owns_create hm hcreate).run huses hrun
  have hp : s.ptrs.pVdF = some s₀.heap.next := by
    rw [hptrs, createUse_pVdF hm hcreate]
  apply O.release hp
  rw [hptrs]
  exact fun _ => hdata

/-- A second release looks at freed memory. -/
theorem release_twice {kind : VirtdKind} {s s' : Owned} {e : AmReturn} {b : ℕ}
    (hp : s.ptrs.pVdF = some b) (hs : virtdStep kind s .release = .ok (s', e)) :
    virtdStep kind s' .release = .error .useAfterFree := by
  obtain ⟨hkept, hfreed⟩ := releaseUse_some hp hs
  rw [virtdStep, releaseUse, Owned.touch, hkept]
  dsimp only
  rw [require_of_false _ (s'.heap.apart b hfreed)]
  rfl

end AppMem.Virtd
