import AppMem.Hash.Growth

/-! # What the chains hold

A table that has taken a list of handles is determined by it: bucket `i` holds the handles
with a hash value of that bucket, laid out as pushing at the head and reversing at every
doubling leaves them, and the counters are those of `Growth`.
-/
namespace AppMem.Hash
open Library.Bytes Library.Checked Library.Chain Abi Memory

section Buckets

theorem toNat_pred {nb : UInt32} (h : 1 ≤ nb.toNat) : (nb - 1).toNat = nb.toNat - 1 :=
  UInt32.toNat_sub_of_le _ _ (UInt32.le_iff_toNat_le.mpr h)

theorem bktOf_eq {nb : UInt32} {k : ℕ} (hnb : nb.toNat = 2 ^ k) (hashv : UInt32) :
    bktOf nb hashv = hashv.toNat % 2 ^ k := by
  have hpos : 1 ≤ nb.toNat := by
    rw [hnb]
    exact Nat.one_le_two_pow
  rw [bktOf, hashToBkt, UInt32.toNat_and, toNat_pred hpos, hnb, Nat.and_two_pow_sub_one_eq_mod]

theorem bktOf_lt {nb : UInt32} (hnb : nb ≠ 0) (hashv : UInt32) : bktOf nb hashv < nb.toNat := by
  have hpos : 1 ≤ nb.toNat := by
    have h0 : nb.toNat ≠ 0 := fun h => hnb (UInt32.toNat_inj.mp h)
    omega
  have hle : hashv.toNat &&& (nb.toNat - 1) ≤ nb.toNat - 1 := Nat.and_le_right
  rw [bktOf, hashToBkt, UInt32.toNat_and, toNat_pred hpos]
  omega

theorem toNat_double {nb : UInt32} {k : ℕ} (hk : k < 32) (hnb : nb.toNat = 2 ^ k) :
    (nb * 2 = 0 ↔ k = 31) ∧ (k < 31 → (nb * 2).toNat = 2 ^ (k + 1)) := by
  have hval : (nb * 2).toNat = 2 ^ (k + 1) % 2 ^ 32 := by
    rw [UInt32.toNat_mul, hnb, pow_succ]
    rfl
  constructor
  · constructor
    · intro h0
      by_contra hne
      have hlt : 2 ^ (k + 1) < 2 ^ 32 := Nat.pow_lt_pow_right (by omega) (by omega)
      rw [h0, Nat.mod_eq_of_lt hlt] at hval
      have := Nat.one_le_two_pow (n := k + 1)
      simp only [UInt32.toNat_zero] at hval
      omega
    · rintro rfl
      apply UInt32.toNat_inj.mp
      rw [hval]
      rfl
  · intro h
    rw [hval, Nat.mod_eq_of_lt (Nat.pow_lt_pow_right (by omega) (by omega))]

end Buckets

section Rehash
variable {α : Type}

/-- The new buckets after the handles in `done` were moved. -/
def rehashed (ideal nb2 : UInt32) (done : List (Handle α)) : Rehash α :=
  let t := (done.map Handle.hashv).foldl (fun t h => t.count1 ideal (bktOf nb2 h)) Tally.empty
  ⟨(List.range nb2.toNat).map fun i =>
      ⟨(done.filter fun h => bktOf nb2 h.hashv = i).reverse, t.count i, t.expandMult i⟩,
    t.nonideal⟩

theorem map_range_update (n b : ℕ) (chain : ℕ → List (Handle α)) (count mult : ℕ → UInt32)
    (c : List (Handle α)) (v m : UInt32) :
    ((List.range n).map fun i => (⟨chain i, count i, mult i⟩ : Bucket α)).set b ⟨c, v, m⟩ =
      (List.range n).map fun i => ⟨Function.update chain b c i, Function.update count b v i,
        Function.update mult b m i⟩ := by
  rw [set_map_range]
  apply List.map_congr_left
  intro i _
  by_cases hi : i = b
  · subst hi
    simp only [Function.update_self]
  · simp only [Function.update_of_ne hi]

theorem rehashHandle_rehashed {ideal nb2 : UInt32} (hideal : ideal ≠ 0) (hnb : nb2 ≠ 0)
    (done : List (Handle α)) (h : Handle α) :
    rehashHandle ideal nb2 (rehashed ideal nb2 done) h =
      .ok (rehashed ideal nb2 (done ++ [h])) := by
  have hlt := bktOf_lt hnb h.hashv
  have hchain : (fun i => ((done ++ [h]).filter fun g => bktOf nb2 g.hashv = i).reverse) =
      Function.update (fun i => (done.filter fun g => bktOf nb2 g.hashv = i).reverse)
        (bktOf nb2 h.hashv) (h :: (done.filter fun g =>
          bktOf nb2 g.hashv = bktOf nb2 h.hashv).reverse) := by
    funext i
    by_cases hi : i = bktOf nb2 h.hashv
    · subst hi
      simp
    · simp [Function.update_of_ne hi, Ne.symm hi]
  simp only [rehashed, List.map_append, List.map_cons, List.map_nil, List.foldl_append,
    List.foldl_cons, List.foldl_nil]
  generalize (done.map Handle.hashv).foldl (fun t h => t.count1 ideal (bktOf nb2 h)) Tally.empty = t
  have hget : ((List.range nb2.toNat).map fun i =>
      (⟨(done.filter fun h => bktOf nb2 h.hashv = i).reverse, t.count i, t.expandMult i⟩ :
        Bucket α))[bktOf nb2 h.hashv]? =
      some ⟨(done.filter fun g => bktOf nb2 g.hashv = bktOf nb2 h.hashv).reverse,
        t.count (bktOf nb2 h.hashv), t.expandMult (bktOf nb2 h.hashv)⟩ := by
    rw [List.getElem?_map, List.getElem?_range hlt]
    rfl
  have hsame : t.expandMult =
      Function.update t.expandMult (bktOf nb2 h.hashv) (t.expandMult (bktOf nb2 h.hashv)) :=
    (Function.update_eq_self _ _).symm
  have hb : (hashToBkt h.hashv nb2).toNat = bktOf nb2 h.hashv := rfl
  simp only [rehashHandle, hb, hget, Tally.count1]
  by_cases hc : ideal < t.count (bktOf nb2 h.hashv) + 1
  · simp only [if_pos hc, if_neg hideal]
    rw [map_range_update, ← hchain]
  · simp only [if_neg hc]
    rw [map_range_update, ← hchain, ← hsame]

theorem foldlM_rehashHandle {ideal nb2 : UInt32} (hideal : ideal ≠ 0) (hnb : nb2 ≠ 0)
    (hs done : List (Handle α)) :
    hs.foldlM (rehashHandle ideal nb2) (rehashed ideal nb2 done) =
      .ok (rehashed ideal nb2 (done ++ hs)) := by
  induction hs generalizing done with
  | nil => simp
  | cons h hs ih =>
    rw [List.foldlM_cons, rehashHandle_rehashed hideal hnb, ok_bind, ih, List.append_assoc,
      List.singleton_append]

theorem rehashed_nil (ideal nb2 : UInt32) :
    (rehashed ideal nb2 [] : Rehash α) = ⟨List.replicate nb2.toNat Bucket.empty, 0⟩ := by
  simp [rehashed, Tally.empty, Bucket.empty]

/-- Without buckets, or with an ideal length of zero, the first handle is fatal. -/
theorem foldlM_rehashHandle_fault {ideal nb2 : UInt32} (h0 : nb2 = 0 ∨ ideal = 0)
    {hs : List (Handle α)} (hne : hs ≠ []) :
    ∃ e, hs.foldlM (rehashHandle ideal nb2) ⟨List.replicate nb2.toNat Bucket.empty, 0⟩ =
      .error e := by
  cases hs with
  | nil => exact absurd rfl hne
  | cons h hs =>
    have hstep : ∃ e, rehashHandle ideal nb2 ⟨List.replicate nb2.toNat Bucket.empty, 0⟩ h =
        .error e := by
      by_cases hlt : (hashToBkt h.hashv nb2).toNat < nb2.toNat
      · have hb : (List.replicate nb2.toNat (Bucket.empty : Bucket α))[
            (hashToBkt h.hashv nb2).toNat]? = some Bucket.empty := by
          rw [List.getElem?_replicate, if_pos hlt]
        rcases h0 with rfl | rfl
        · exact absurd hlt (Nat.not_lt_zero _)
        · exact ⟨.divisionByZero, by
            simp only [rehashHandle, hb]
            rfl⟩
      · have hb : (List.replicate nb2.toNat (Bucket.empty : Bucket α))[
            (hashToBkt h.hashv nb2).toNat]? = none := by
          rw [List.getElem?_replicate, if_neg hlt]
        exact ⟨.bounds, by simp only [rehashHandle, hb]⟩
    rcases hstep with ⟨e, he⟩
    exact ⟨e, by rw [List.foldlM_cons, he, error_bind]⟩

end Rehash

section Members
variable {α : Type}

theorem mem_chains_set {bs : List (Bucket α)} {i : ℕ} {b : Bucket α} {h : Handle α}
    (hmem : h ∈ (bs.set i b).flatMap Bucket.chain) :
    h ∈ b.chain ∨ h ∈ bs.flatMap Bucket.chain := by
  rcases List.mem_flatMap.mp hmem with ⟨c, hc, hh⟩
  rcases List.mem_or_eq_of_mem_set hc with hc | rfl
  · exact .inr (List.mem_flatMap.mpr ⟨c, hc, hh⟩)
  · exact .inl hh

theorem mem_chains_of_getElem? {bs : List (Bucket α)} {i : ℕ} {b : Bucket α} {h : Handle α}
    (hb : bs[i]? = some b) (hh : h ∈ b.chain) : h ∈ bs.flatMap Bucket.chain :=
  List.mem_flatMap.mpr ⟨b, List.mem_of_getElem? hb, hh⟩

theorem not_mem_chains_empty (n : ℕ) (h : Handle α) :
    h ∉ (List.replicate n Bucket.empty).flatMap Bucket.chain := by
  simp [Bucket.empty]

theorem mem_rehashHandle {ideal nb : UInt32} {r r' : Rehash α} {g h : Handle α}
    (hr : rehashHandle ideal nb r g = .ok r') (hmem : h ∈ r'.buckets.flatMap Bucket.chain) :
    h = g ∨ h ∈ r.buckets.flatMap Bucket.chain := by
  unfold rehashHandle at hr
  dsimp only at hr
  split at hr
  · cases hr
  · rename_i b hb
    have hchain : h ∈ g :: b.chain ∨ h ∈ r.buckets.flatMap Bucket.chain := by
      split at hr
      · split at hr
        · cases hr
        · cases hr
          exact mem_chains_set hmem
      · cases hr
        exact mem_chains_set hmem
    rcases hchain with hh | hh
    · exact (List.mem_cons.mp hh).imp_right (mem_chains_of_getElem? hb)
    · exact .inr hh

theorem mem_foldlM_rehashHandle {ideal nb : UInt32} {gs : List (Handle α)} {r r' : Rehash α}
    {h : Handle α} (hr : gs.foldlM (rehashHandle ideal nb) r = .ok r')
    (hmem : h ∈ r'.buckets.flatMap Bucket.chain) :
    h ∈ gs ∨ h ∈ r.buckets.flatMap Bucket.chain := by
  induction gs generalizing r with
  | nil =>
    cases hr
    exact .inr hmem
  | cons g gs ih =>
    rw [List.foldlM_cons, bind_eq_ok] at hr
    rcases hr with ⟨r₁, hg, hr⟩
    rcases ih hr with hh | hh
    · exact .inl (List.mem_cons_of_mem _ hh)
    · rcases mem_rehashHandle hg hh with rfl | hh
      · exact .inl List.mem_cons_self
      · exact .inr hh

theorem mem_hashExpandBuckets {env : Env} {t t' : Table α} {h : Handle α}
    (ht : hashExpandBuckets env t = .ok t') (hmem : h ∈ t'.buckets.flatMap Bucket.chain) :
    h ∈ t.buckets.flatMap Bucket.chain := by
  rw [hashExpandBuckets, bind_eq_ok] at ht
  rcases ht with ⟨_, -, ht⟩
  dsimp only at ht
  rw [bind_eq_ok] at ht
  rcases ht with ⟨r, hr, ht⟩
  cases ht
  exact (mem_foldlM_rehashHandle hr hmem).resolve_right (not_mem_chains_empty _ h)

/-- An addition makes the table when there is none, and enters its handle. -/
theorem hashAddKeyptr_cases {env : Env} {head : Option (Table α)} {key : List UInt8} {elt : α}
    {t : Table α} (ht : hashAddKeyptr env head key elt = .ok t) :
    ∃ t₁ : Table α, (head = some t₁ ∨ hashMakeTable env = .ok t₁) ∧
      hashAddToBkt env { t₁ with numItems := t₁.numItems + 1 }
        (hashToBkt (hashJen key) t₁.numBuckets).toNat ⟨key, hashJen key, elt⟩ = .ok t := by
  cases head with
  | none =>
    unfold hashAddKeyptr at ht
    rw [bind_eq_ok] at ht
    rcases ht with ⟨t₁, hmake, ht⟩
    exact ⟨t₁, .inr hmake, ht⟩
  | some t₀ => exact ⟨t₀, .inl rfl, ht⟩

theorem not_mem_hashMakeTable {env : Env} {t : Table α} (ht : hashMakeTable env = .ok t)
    (h : Handle α) : h ∉ t.buckets.flatMap Bucket.chain := by
  rw [hashMakeTable, bind_eq_ok] at ht
  rcases ht with ⟨_, -, ht⟩
  rw [bind_eq_ok] at ht
  rcases ht with ⟨_, -, ht⟩
  cases ht
  exact not_mem_chains_empty _ h

theorem mem_hashAddKeyptr {env : Env} {head : Option (Table α)} {key : List UInt8} {elt : α}
    {t : Table α} {h : Handle α} (ht : hashAddKeyptr env head key elt = .ok t)
    (hmem : h ∈ t.buckets.flatMap Bucket.chain) :
    h = ⟨key, hashJen key, elt⟩ ∨ ∃ t₀, head = some t₀ ∧ h ∈ t₀.buckets.flatMap Bucket.chain := by
  obtain ⟨t₁, hstart, ht⟩ := hashAddKeyptr_cases ht
  have hold : h ∈ t₁.buckets.flatMap Bucket.chain →
      ∃ t₀, head = some t₀ ∧ h ∈ t₀.buckets.flatMap Bucket.chain := by
    intro hh
    rcases hstart with hhead | hmake
    · exact ⟨t₁, hhead, hh⟩
    · exact absurd hh (not_mem_hashMakeTable hmake h)
  unfold hashAddToBkt at ht
  split at ht
  · cases ht
  · rename_i b hb
    have hset : h ∈ (t₁.buckets.set (hashToBkt (hashJen key) t₁.numBuckets).toNat
        ⟨⟨key, hashJen key, elt⟩ :: b.chain, b.count + 1, b.expandMult⟩).flatMap Bucket.chain := by
      dsimp only at ht
      split at ht
      · exact mem_hashExpandBuckets ht hmem
      · cases ht
        exact hmem
    rcases mem_chains_set hset with hh | hh
    · rcases List.mem_cons.mp hh with rfl | hh
      · exact .inl rfl
      · exact .inr (hold (mem_chains_of_getElem? hb hh))
    · exact .inr (hold hh)

theorem mem_chains_set_of_subset {bs : List (Bucket α)} {i : ℕ} {b b' : Bucket α} {h : Handle α}
    (hb : bs[i]? = some b) (hsub : b.chain ⊆ b'.chain)
    (hh : h ∈ b'.chain ∨ h ∈ bs.flatMap Bucket.chain) :
    h ∈ (bs.set i b').flatMap Bucket.chain := by
  have hlt : i < bs.length := (List.getElem?_eq_some_iff.mp hb).1
  have hnew : h ∈ b'.chain → h ∈ (bs.set i b').flatMap Bucket.chain := fun hh =>
    mem_chains_of_getElem? (List.getElem?_set_self hlt) hh
  rcases hh with hh | hh
  · exact hnew hh
  · obtain ⟨c, hc, hh⟩ := List.mem_flatMap.mp hh
    obtain ⟨j, hj⟩ := List.mem_iff_getElem?.mp hc
    by_cases hij : i = j
    · subst hij
      rw [hb] at hj
      cases hj
      exact hnew (hsub hh)
    · exact mem_chains_of_getElem? ((List.getElem?_set_ne hij).trans hj) hh

theorem rehashHandle_keeps {ideal nb : UInt32} {r r' : Rehash α} {g h : Handle α}
    (hr : rehashHandle ideal nb r g = .ok r') (hh : h = g ∨ h ∈ r.buckets.flatMap Bucket.chain) :
    h ∈ r'.buckets.flatMap Bucket.chain := by
  unfold rehashHandle at hr
  dsimp only at hr
  split at hr
  · cases hr
  · rename_i b hb
    have hh' : h ∈ g :: b.chain ∨ h ∈ r.buckets.flatMap Bucket.chain :=
      hh.imp_left fun hg => List.mem_cons.mpr (.inl hg)
    split at hr
    · split at hr
      · cases hr
      · cases hr
        exact mem_chains_set_of_subset hb (List.subset_cons_self g b.chain) hh'
    · cases hr
      exact mem_chains_set_of_subset hb (List.subset_cons_self g b.chain) hh'

theorem foldlM_rehashHandle_keeps {ideal nb : UInt32} {gs : List (Handle α)} {r r' : Rehash α}
    {h : Handle α} (hr : gs.foldlM (rehashHandle ideal nb) r = .ok r')
    (hh : h ∈ gs ∨ h ∈ r.buckets.flatMap Bucket.chain) : h ∈ r'.buckets.flatMap Bucket.chain := by
  induction gs generalizing r with
  | nil =>
    cases hr
    exact hh.resolve_left List.not_mem_nil
  | cons g gs ih =>
    rw [List.foldlM_cons, bind_eq_ok] at hr
    rcases hr with ⟨r₁, hg, hr⟩
    apply ih hr
    rw [List.mem_cons, or_assoc] at hh
    rcases hh with rfl | hh | hh
    · exact .inr (rehashHandle_keeps hg (.inl rfl))
    · exact .inl hh
    · exact .inr (rehashHandle_keeps hg (.inr hh))

/-- Doubling loses no handle. -/
theorem hashExpandBuckets_keeps {env : Env} {t t' : Table α} {h : Handle α}
    (ht : hashExpandBuckets env t = .ok t') (hh : h ∈ t.buckets.flatMap Bucket.chain) :
    h ∈ t'.buckets.flatMap Bucket.chain := by
  rw [hashExpandBuckets, bind_eq_ok] at ht
  rcases ht with ⟨_, -, ht⟩
  dsimp only at ht
  rw [bind_eq_ok] at ht
  rcases ht with ⟨r, hr, ht⟩
  cases ht
  exact foldlM_rehashHandle_keeps hr (.inl hh)

theorem hashAddKeyptr_enters {env : Env} {head : Option (Table α)} {key : List UInt8} {elt : α}
    {t : Table α} (ht : hashAddKeyptr env head key elt = .ok t) :
    ⟨key, hashJen key, elt⟩ ∈ t.buckets.flatMap Bucket.chain := by
  obtain ⟨t₁, -, ht⟩ := hashAddKeyptr_cases ht
  unfold hashAddToBkt at ht
  split at ht
  · cases ht
  · rename_i b hb
    let b' : Bucket α := ⟨⟨key, hashJen key, elt⟩ :: b.chain, b.count + 1, b.expandMult⟩
    have hsub : b.chain ⊆ b'.chain := List.subset_cons_self _ _
    have hset := mem_chains_set_of_subset hb hsub (.inl List.mem_cons_self)
    dsimp only at ht
    split at ht
    · exact hashExpandBuckets_keeps ht hset
    · cases ht
      exact hset

theorem hashMakeTable_memory (env : Env) {env' : Env} (henv : env'.Ample) :
    (hashMakeTable env : Exec (Table α)) =
      if env.alloc .hashTable = true ∧ env.alloc .hashBuckets = true then hashMakeTable env'
      else .error .assertion := by
  rw [hashMakeTable, hashMakeTable, require_of_true _ (henv .hashTable),
    require_of_true _ (henv .hashBuckets)]
  cases env.alloc .hashTable with
  | false => rfl
  | true =>
    cases env.alloc .hashBuckets with
    | false => rfl
    | true => rfl

theorem hashExpandBuckets_memory (env : Env) {env' : Env} (henv : env'.Ample) (t : Table α) :
    hashExpandBuckets env t =
      if env.alloc .hashExpand = true then hashExpandBuckets env' t else .error .assertion := by
  rw [hashExpandBuckets, hashExpandBuckets, require_of_true _ (henv .hashExpand)]
  cases env.alloc .hashExpand with
  | false => rfl
  | true => rfl

end Members

section Representation
variable {α : Type}

def inBucket (nb : UInt32) (i : ℕ) (entries : List (Handle α × ℕ)) : List (Handle α × ℕ) :=
  entries.filter fun p => bktOf nb p.1.hashv = i

/-- `t` is the table that took the handles `entries`, and `g` the growth they caused. -/
structure Holds (t : Table α) (g : Growth) (entries : List (Handle α × ℕ)) : Prop where
  numBuckets : t.numBuckets = g.numBuckets
  log2NumBuckets : t.log2NumBuckets = g.log2NumBuckets
  ineffExpands : t.ineffExpands = g.ineffExpands
  noexpand : t.noexpand = g.noexpand
  numItems : t.numItems = entries.length.toUInt32
  hashes : g.hashes = entries.map fun p => p.1.hashv
  size : g.numBuckets.toNat = 2 ^ (5 + g.doublings)
  buckets : t.buckets = (List.range g.numBuckets.toNat).map fun i =>
    ⟨layout g.doublings (inBucket g.numBuckets i entries), g.count i, g.expandMult i⟩

theorem numBuckets_ne_zero {nb : UInt32} {k : ℕ} (h : nb.toNat = 2 ^ k) : nb ≠ 0 := by
  rintro rfl
  have := Nat.one_le_two_pow (n := k)
  simp only [UInt32.toNat_zero] at h
  omega

theorem Holds.getElem?_bucket {t : Table α} {g : Growth} {entries : List (Handle α × ℕ)}
    (H : Holds t g entries) (hashv : UInt32) :
    t.buckets[(hashToBkt hashv t.numBuckets).toNat]? =
      some ⟨layout g.doublings (inBucket g.numBuckets (bktOf g.numBuckets hashv) entries),
        g.count (bktOf g.numBuckets hashv), g.expandMult (bktOf g.numBuckets hashv)⟩ := by
  have hlt := bktOf_lt (numBuckets_ne_zero H.size) hashv
  have hb : (hashToBkt hashv t.numBuckets).toNat = bktOf g.numBuckets hashv := by
    rw [H.numBuckets, bktOf]
  rw [hb, H.buckets, List.getElem?_map, List.getElem?_range hlt]
  rfl

theorem holds_hashMakeTable {env : Env} (henv : env.Ample) :
    ∃ t : Table α, hashMakeTable env = .ok t ∧ Holds t Growth.start [] := by
  have hmake : hashMakeTable env = .ok
      (⟨List.replicate 32 Bucket.empty, 32, 5, 0, 0, 0, 0, 0⟩ : Table α) := by
    rw [hashMakeTable, require_of_true _ (henv _), require_of_true _ (henv _)]
    rfl
  refine ⟨_, hmake, rfl, rfl, rfl, rfl, rfl, rfl, rfl, ?_⟩
  rfl

/-- The handles in the order in which a doubling visits them. -/
theorem Holds.perm_chains {t : Table α} {g : Growth} {entries : List (Handle α × ℕ)}
    (H : Holds t g entries) :
    (t.buckets.flatMap Bucket.chain).Perm (entries.map Prod.fst) := by
  have hlt : ∀ p ∈ entries, bktOf g.numBuckets p.1.hashv < g.numBuckets.toNat :=
    fun p _ => bktOf_lt (numBuckets_ne_zero H.size) _
  have hper := perm_flatMap_filter (fun p : Handle α × ℕ => bktOf g.numBuckets p.1.hashv)
    g.numBuckets.toNat entries hlt
  rw [H.buckets, List.flatMap_map]
  refine List.Perm.trans ?_ (hper.map Prod.fst)
  rw [List.map_flatMap]
  exact List.Perm.flatMap_left _ fun i _ => perm_layout _ _

/-- The new chain `j` is the old layout of its handles, reversed once more. -/
theorem Holds.chain_double {t : Table α} {g : Growth} {entries : List (Handle α × ℕ)}
    (H : Holds t g entries) {nb2 : UInt32} (hnb2 : nb2.toNat = 2 ^ (5 + g.doublings + 1)) {j : ℕ}
    (hj : j < nb2.toNat) :
    ((t.buckets.flatMap Bucket.chain).filter fun h => bktOf nb2 h.hashv = j).reverse =
      layout (g.doublings + 1) (inBucket nb2 j entries) := by
  have hmod : ∀ hv, bktOf nb2 hv = j → bktOf g.numBuckets hv = j % 2 ^ (5 + g.doublings) := by
    rintro hv rfl
    rw [bktOf_eq hnb2, bktOf_eq H.size, Nat.mod_mod_of_dvd _ (Nat.pow_dvd_pow 2 (Nat.le_succ _))]
  have hfilter : ∀ i, (layout g.doublings (inBucket g.numBuckets i entries)).filter
      (fun h => decide (bktOf nb2 h.hashv = j)) =
      layout g.doublings (entries.filter fun p => decide (bktOf nb2 p.1.hashv = j) &&
        decide (bktOf g.numBuckets p.1.hashv = i)) := by
    intro i
    rw [layout_filter, inBucket, List.filter_filter]
  rw [layout_flip, H.buckets, List.flatMap_map, filter_flatMap_range
    (i := j % 2 ^ (5 + g.doublings))]
  · rw [hfilter]
    congr 2
    apply List.filter_congr
    intro p _
    by_cases hp : bktOf nb2 p.1.hashv = j
    · simp [hp, hmod _ hp]
    · simp [hp]
  · rw [H.size]
    exact Nat.mod_lt _ (Nat.two_pow_pos _)
  · intro i _ hi
    rw [hfilter]
    have hnil : (entries.filter fun p => decide (bktOf nb2 p.1.hashv = j) &&
        decide (bktOf g.numBuckets p.1.hashv = i)) = [] := by
      rw [List.filter_eq_nil_iff]
      intro p _ hp
      simp only [Bool.and_eq_true, decide_eq_true_eq] at hp
      exact hi (hp.2.symm.trans (hmod _ hp.1))
    rw [hnil, layout_nil]

theorem Holds.expand {env : Env} (henv : env.Ample) {t : Table α} {g : Growth}
    {entries : List (Handle α × ℕ)} (H : Holds t g entries) (hne : entries ≠ []) :
    match g.double with
    | none => ∃ e, hashExpandBuckets env t = .error e
    | some g' => ∃ t', hashExpandBuckets env t = .ok t' ∧ Holds t' g' entries := by
  have hlen : g.hashes.length = entries.length := by rw [H.hashes, List.length_map]
  have hideal : t.idealAfter = g.idealAfter := by
    simp only [Table.idealAfter, Growth.idealAfter, H.numItems, H.log2NumBuckets, H.numBuckets, hlen]
  have hstart : 2 * g.numBuckets = g.numBuckets * 2 := UInt32.mul_comm _ _
  have hchains : t.buckets.flatMap Bucket.chain ≠ [] := by
    intro hnil
    have hp := H.perm_chains
    rw [hnil, List.nil_perm, List.map_eq_nil_iff] at hp
    exact hne hp
  rw [hashExpandBuckets, require_of_true _ (henv _), ok_bind]
  simp only [hideal, H.numBuckets, hstart]
  by_cases h0 : g.numBuckets * 2 = 0 ∨ g.idealAfter = 0
  · rw [Growth.double, if_pos h0]
    rcases foldlM_rehashHandle_fault h0 hchains with ⟨e, he⟩
    exact ⟨e, by rw [he, error_bind]⟩
  · rw [Growth.double, if_neg h0]
    rw [not_or] at h0
    have htally : ((t.buckets.flatMap Bucket.chain).map Handle.hashv).foldl
        (fun t h => t.count1 g.idealAfter (bktOf (g.numBuckets * 2) h)) Tally.empty =
        g.tallyAfter := by
      apply foldl_count1_perm
      rw [H.hashes]
      have := H.perm_chains.map Handle.hashv
      rwa [List.map_map] at this
    have hk : 5 + g.doublings < 32 := by
      have h := g.numBuckets.toNat_lt
      rw [H.size] at h
      exact (Nat.pow_lt_pow_iff_right (by decide)).mp h
    have hne31 : 5 + g.doublings ≠ 31 := fun h => h0.1 ((toNat_double hk H.size).1.mpr h)
    have hsize := (toNat_double hk H.size).2 (by omega)
    have hineff : (if t.numItems >>> 1 < g.tallyAfter.nonideal then t.ineffExpands + 1 else 0) =
        g.ineffAfter := by
      rw [Growth.ineffAfter, H.numItems, H.ineffExpands, hlen]
    rw [← rehashed_nil g.idealAfter, foldlM_rehashHandle h0.2 h0.1, ok_bind, List.nil_append]
    simp only [rehashed, htally, hineff]
    refine ⟨_, rfl, ?_⟩
    constructor
    · rfl
    · exact congrArg (· + 1) H.log2NumBuckets
    · rfl
    · exact congrArg (if 1 < g.ineffAfter then 1 else ·) H.noexpand
    · exact H.numItems
    · exact H.hashes
    · exact hsize
    · apply List.map_congr_left
      intro j hj
      rw [List.mem_range] at hj
      rw [H.chain_double hsize hj]

theorem Holds.push {t : Table α} {g : Growth} {entries : List (Handle α × ℕ)}
    (H : Holds t g entries) (h : Handle α) :
    Holds
      { t with
        numItems := t.numItems + 1
        buckets := t.buckets.set (bktOf g.numBuckets h.hashv)
          ⟨h :: layout g.doublings (inBucket g.numBuckets (bktOf g.numBuckets h.hashv) entries),
            g.count (bktOf g.numBuckets h.hashv) + 1, g.expandMult (bktOf g.numBuckets h.hashv)⟩ }
      { g with
        hashes := g.hashes ++ [h.hashv]
        count := Function.update g.count (bktOf g.numBuckets h.hashv)
          (g.count (bktOf g.numBuckets h.hashv) + 1) }
      (entries ++ [(h, g.doublings)]) where
  numBuckets := H.numBuckets
  log2NumBuckets := H.log2NumBuckets
  ineffExpands := H.ineffExpands
  noexpand := H.noexpand
  numItems := by
    simp only [H.numItems, List.length_append, List.length_singleton]
    apply UInt32.toNat_inj.mp
    simp
  hashes := by simp [H.hashes]
  size := H.size
  buckets := by
    have hchain : (fun i => layout g.doublings
        (inBucket g.numBuckets i (entries ++ [(h, g.doublings)]))) =
        Function.update (fun i => layout g.doublings (inBucket g.numBuckets i entries))
          (bktOf g.numBuckets h.hashv)
          (h :: layout g.doublings (inBucket g.numBuckets (bktOf g.numBuckets h.hashv) entries)) := by
      funext i
      by_cases hi : i = bktOf g.numBuckets h.hashv
      · subst hi
        simp [inBucket, List.filter_append, layout_push]
      · simp [inBucket, List.filter_append, Function.update_of_ne hi, Ne.symm hi]
    have hmult := Function.update_eq_self (bktOf g.numBuckets h.hashv) g.expandMult
    simp only [H.buckets, map_range_update, ← hchain, hmult]

/-- Adding a key: the table survives if its growth does. -/
theorem Holds.add {env : Env} (henv : env.Ample) {t : Table α} {g : Growth}
    {entries : List (Handle α × ℕ)} (H : Holds t g entries) (key : List UInt8) (elt : α) :
    match g.add (hashJen key) with
    | none => ∃ e, hashAddKeyptr env (some t) key elt = .error e
    | some g' => ∃ t', hashAddKeyptr env (some t) key elt = .ok t' ∧
        Holds t' g' (entries ++ [(⟨key, hashJen key, elt⟩, g.doublings)]) := by
  have hpush := H.push ⟨key, hashJen key, elt⟩
  have hget := H.getElem?_bucket (hashJen key)
  have hb : (hashToBkt (hashJen key) t.numBuckets).toNat = bktOf g.numBuckets (hashJen key) := by
    rw [H.numBuckets, bktOf]
  rw [hb] at hget
  simp only [hashAddKeyptr, ok_bind, hashAddToBkt, hb, hget, Growth.add]
  by_cases hc : (g.expandMult (bktOf g.numBuckets (hashJen key)) + 1) * hashBktCapacityThresh ≤
      g.count (bktOf g.numBuckets (hashJen key)) + 1 ∧ g.noexpand ≠ 1
  · have hc' := hc
    rw [← H.noexpand] at hc'
    rw [if_pos hc, if_pos hc']
    exact hpush.expand henv (List.append_ne_nil_of_right_ne_nil _ (List.cons_ne_nil _ _))
  · have hc' := hc
    rw [← H.noexpand] at hc'
    rw [if_neg hc, if_neg hc']
    exact ⟨_, rfl, hpush⟩

/-- An addition needs memory just when the table doubles. -/
theorem Holds.add_memory (env : Env) {env' : Env} (henv : env'.Ample) {t : Table α} {g : Growth}
    {entries : List (Handle α × ℕ)} (H : Holds t g entries) (key : List UInt8) (elt : α) :
    hashAddKeyptr env (some t) key elt =
      if g.Doubles (hashJen key) → env.alloc .hashExpand = true then
        hashAddKeyptr env' (some t) key elt
      else .error .assertion := by
  have hget := H.getElem?_bucket (hashJen key)
  have hdoubles : (g.expandMult (bktOf g.numBuckets (hashJen key)) + 1) * hashBktCapacityThresh ≤
      g.count (bktOf g.numBuckets (hashJen key)) + 1 ∧ t.noexpand ≠ 1 ↔ g.Doubles (hashJen key) := by
    rw [H.noexpand, Growth.Doubles]
  simp only [hashAddKeyptr, ok_bind, hashAddToBkt, hget]
  by_cases hd : g.Doubles (hashJen key)
  · rw [if_pos (hdoubles.mpr hd), if_pos (hdoubles.mpr hd), hashExpandBuckets_memory env henv]
    simp only [hd, forall_const]
  · rw [if_neg (mt hdoubles.mp hd), if_neg (mt hdoubles.mp hd), if_pos fun h => absurd h hd]

theorem Holds.find {t : Table α} {g : Growth} {entries : List (Handle α × ℕ)}
    (H : Holds t g entries) (hhash : ∀ p ∈ entries, p.1.hashv = hashJen p.1.key)
    (key : List UInt8) :
    hashFind (some t) key =
      .ok (layout g.doublings (entries.filter fun p => p.1.key = key)).head? := by
  have hpred : (fun h : Handle α => h.key.length == key.length && h.key == key) =
      fun h => decide (h.key = key) := by
    funext h
    by_cases hk : h.key = key
    · simp [hk]
    · simp [hk]
  have hmine : (inBucket g.numBuckets (bktOf g.numBuckets (hashJen key)) entries).filter
      (fun p => decide (p.1.key = key)) = entries.filter fun p => p.1.key = key := by
    rw [inBucket, List.filter_filter]
    apply List.filter_congr
    intro p hp
    by_cases hk : p.1.key = key
    · simp [hk, hhash p hp]
    · simp [hk]
  simp only [hashFind, H.getElem?_bucket, hashFindInBkt, hpred]
  rw [← List.head?_filter, layout_filter, hmine]

end Representation

end AppMem.Hash
