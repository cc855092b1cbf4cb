import AppMem.Hash.Rechaining

/-! # The table in memory is the table

The macros of `uthash` against the operations on lists. The elements are linked in the order in
which they came, and stand in the chains of their buckets; every macro keeps this, comes back or
faults as the operation on lists does, and touches no other memory.
-/
namespace AppMem.Hash
open Library.Checked Library.Doubly Library.TwoRuns Abi Memory

section Shows
variable {α : Type}

/-- The elements `order`, in the order in which they came, and the table that holds them. -/
structure Shows (m : HashMem) (elt : ℕ → α) (order : List ℕ) (T : Option (Table α)) : Prop where
  nodup : order.Nodup
  head : m.head = order.head?
  app : Linked m.appWeb none order none
  table : (order = [] ∧ T = none) ∨ (order ≠ [] ∧ ∃ t t', m.table = some t ∧ T = some t' ∧
    ShowsTable m elt order t t')

variable {m m' : HashMem} {elt elt' : ℕ → α} {order : List ℕ} {T : Option (Table α)} {x : ℕ}
  {key : List UInt8} {env : Env} {fuel : ℕ}

theorem ShowsTable.congr {t : HashTable} {t' : Table α} (H : ShowsTable m elt order t t')
    (helems : ∀ a ∈ order, m'.elems a = m.elems a) (helt : ∀ a ∈ order, elt' a = elt a) :
    ShowsTable m' elt' order t t' := by
  obtain ⟨chains, F⟩ := H.fills
  refine ⟨⟨chains, F.congr (fun a ha => bktWeb_of_elems (helems a ha)) (fun a ha => ?_) helt⟩,
    H.tail, H.counters⟩
  rw [HashMem.label, HashMem.label, helems a ha]

/-- Memory that the elements do not use, and the names of other elements, do not matter. -/
theorem Shows.congr (H : Shows m elt order T) (hhead : m'.head = m.head)
    (htable : m'.table = m.table) (helems : ∀ a ∈ order, m'.elems a = m.elems a)
    (helt : ∀ a ∈ order, elt' a = elt a) : Shows m' elt' order T where
  nodup := H.nodup
  head := hhead.trans H.head
  app := by
    apply H.app.congr
    intro a ha
    rw [HashMem.appWeb, HashMem.appWeb, helems a ha]
  table := by
    rcases H.table with h | ⟨hne, t, t', ht, hT, HT⟩
    · exact .inl h
    · exact .inr ⟨hne, t, t', htable.trans ht, hT, HT.congr helems helt⟩

theorem shows_nil (m : HashMem) (elt : ℕ → α) (h : m.head = none) : Shows m elt [] none :=
  ⟨List.nodup_nil, h, trivial, .inl ⟨rfl, rfl⟩⟩

theorem Shows.isSome (H : Shows m elt order T) {a : ℕ} (ha : a ∈ order) : (m.elems a).isSome := by
  obtain ⟨l, r, rfl⟩ := List.append_of_mem ha
  exact HashMem.isSome_of_appWeb H.app.links

/-- The table is reached through the first element. -/
theorem Shows.tbl_eq (H : Shows m elt order T) (hne : order ≠ []) : ∃ t t', m.tbl = .ok t ∧
    m.table = some t ∧ T = some t' ∧ ShowsTable m elt order t t' := by
  rcases H.table with ⟨hnil, -⟩ | ⟨-, t, t', ht, hT, HT⟩
  · exact absurd hnil hne
  · refine ⟨t, t', ?_, ht, hT, HT⟩
    obtain ⟨a, rest, rfl⟩ := List.exists_cons_of_ne_nil hne
    obtain ⟨e, he⟩ := Option.isSome_iff_exists.mp (H.isSome List.mem_cons_self)
    rw [HashMem.tbl, H.head, List.head?_cons]
    dsimp only
    rw [HashMem.get_of_elems he, ok_bind, ht]

end Shows

section Add
variable {α : Type} {m m' : HashMem} {elt : ℕ → α} {order : List ℕ} {T : Option (Table α)} {x : ℕ}
  {key : List UInt8} {env : Env} {fuel : ℕ}

/-- A new element is linked behind the others; it is not in a chain yet. -/
structure Appended (m₀ : HashMem) (elt : ℕ → α) (order : List ℕ) (x : ℕ) (m : HashMem)
    (t' : Table α) : Prop where
  head : m.head = (order ++ [x]).head?
  app : Linked m.appWeb none (order ++ [x]) none
  table : ∃ t chains, m.tbl = .ok t ∧ t.tail = some x ∧ SameCounters t t' ∧
    Fills m elt t.numBuckets t.buckets t'.buckets chains {a | a ∈ order}
  label : m.label = m₀.label
  rest : ∀ a ∉ order ++ [x], m.elems a = m₀.elems a

theorem tbl_of_head {a : ℕ} {t : HashTable} (hh : m.head = some a) (ha : (m.elems a).isSome)
    (ht : m.table = some t) : m.tbl = .ok t := by
  obtain ⟨e, he⟩ := Option.isSome_iff_exists.mp ha
  rw [HashMem.tbl, hh]
  dsimp only
  rw [HashMem.get_of_elems he, ok_bind, ht]

theorem makeTable_lockstep (x : ℕ) : Lockstep (fun t (t' : Table α) => t.tail = some x ∧
      SameCounters t t' ∧ t.buckets = List.replicate 32 ⟨none, 0, 0⟩ ∧
      t'.buckets = List.replicate 32 Bucket.empty) (makeTable env x) (hashMakeTable env) := by
  unfold makeTable hashMakeTable
  apply Lockstep.bind_same
  intro _ _
  apply Lockstep.bind_same
  intro _ _
  exact ⟨rfl, ⟨rfl, rfl, rfl, rfl, rfl, rfl, rfl⟩, rfl, rfl⟩

theorem appendElem_first (hhead : m.head = none) {e : HashHandle} (he : m.elems x = some e)
    (hnext : e.next = none) :
    Lockstep (Appended m elt [] x) (appendElem env m x) (hashMakeTable env) := by
  have hsome : (m.elems x).isSome := by
    rw [he]
    rfl
  have hbind : (hashMakeTable env : Exec (Table α)) = hashMakeTable env >>= .ok := by
    cases (hashMakeTable env : Exec (Table α)) with
    | error e => rfl
    | ok t => rfl
  unfold appendElem
  rw [hhead]
  dsimp only
  rw [HashMem.modify_eq hsome, ok_bind, hbind]
  apply (makeTable_lockstep (α := α) x).bind
  rintro t t' ⟨htail, C, hb, hb'⟩
  refine ⟨rfl, ⟨?_, trivial⟩, ⟨t, fun _ => [], ?_, htail, C, ?_⟩, ?_, ?_⟩
  · rw [HashMem.appWeb]
    change ((m.put x _).elems x).map _ = _
    rw [HashMem.elems_put_self, he, ← hnext]
    rfl
  · exact tbl_of_head rfl (HashMem.isSome_put hsome) rfl
  · rw [hb, hb']
    have hnone : ({a | a ∈ ([] : List ℕ)} : Set ℕ) = ∅ := by simp
    rw [hnone]
    exact fills_empty _ _ _ _
  · exact HashMem.label_put fun _ => ⟨rfl, rfl⟩
  · intro a ha
    exact HashMem.elems_put_of_ne fun hax => ha (hax ▸ List.mem_singleton_self x)

def HashMem.concat (m : HashMem) (last x : ℕ) : HashMem :=
  (m.put last fun e => { e with next := some x }).put x fun e => { e with prev := some last }

theorem label_concat {last : ℕ} : (m.concat last x).label = m.label := by
  unfold HashMem.concat
  rw [HashMem.label_put, HashMem.label_put]
  · exact fun _ => ⟨rfl, rfl⟩
  · exact fun _ => ⟨rfl, rfl⟩

theorem bktWeb_concat {last : ℕ} : (m.concat last x).bktWeb = m.bktWeb := by
  unfold HashMem.concat
  rw [HashMem.bktWeb_put, HashMem.bktWeb_put]
  · exact fun _ => ⟨rfl, rfl⟩
  · exact fun _ => ⟨rfl, rfl⟩

theorem elems_concat {last a : ℕ} (hl : a ≠ last) (hx : a ≠ x) :
    (m.concat last x).elems a = m.elems a := by
  rw [HashMem.concat, HashMem.elems_put_of_ne hx, HashMem.elems_put_of_ne hl]

theorem linked_concat {front : List ℕ} {last : ℕ}
    (h : Linked m.appWeb none (front ++ [last]) none) (hnodup : (front ++ [last]).Nodup)
    (hx : x ∉ front ++ [last]) {e : HashHandle} (he : m.elems x = some e) (hnext : e.next = none) :
    Linked (m.concat last x).appWeb none (front ++ [last] ++ [x]) none := by
  have hxl : x ≠ last := by
    rintro rfl
    exact hx (List.mem_append_right _ List.mem_cons_self)
  have hweb : (m.put last fun e => { e with next := some x }).appWeb =
      m.appWeb.patchNext (some last) (some x) := HashMem.appWeb_putAt_next (p := some last)
  have hold : Linked (m.put last fun e => { e with next := some x }).appWeb none (front ++ [last])
      (some x) := by
    have hturn : Linked (m.appWeb.patchNext (front ++ [last]).getLast? (some x)) none
        (front ++ [last]) (some x) := h.patchNext_last hnodup
    rw [hweb]
    rwa [List.getLast?_concat] at hturn
  rw [linked_append]
  refine ⟨?_, ?_, trivial⟩
  · apply hold.congr
    intro a ha
    rw [HashMem.concat, HashMem.appWeb, HashMem.appWeb, HashMem.elems_put_of_ne]
    rintro rfl
    exact hx ha
  · rw [HashMem.concat, HashMem.appWeb, HashMem.elems_put_self, HashMem.elems_put_of_ne hxl, he,
      List.getLast?_concat, ← hnext]
    rfl

theorem appendElem_last {front : List ℕ} {last : ℕ} {t' : Table α}
    (H : Shows m elt (front ++ [last]) (some t')) (hx : x ∉ front ++ [last]) {e : HashHandle}
    (he : m.elems x = some e) (hnext : e.next = none) :
    Lockstep (Appended m elt (front ++ [last]) x) (appendElem env m x) (.ok t') := by
  have hne : front ++ [last] ≠ [] := List.append_ne_nil_of_right_ne_nil _ (List.cons_ne_nil _ _)
  obtain ⟨t, t₁, htbl, -, hT, HT⟩ := H.tbl_eq hne
  cases hT
  have hsome : (m.elems x).isSome := by
    rw [he]
    rfl
  have hlast : (m.elems last).isSome := H.isSome (List.mem_append_right _ List.mem_cons_self)
  obtain ⟨first, hfirst⟩ : ∃ first, m.head = some first ∧ first ∈ front ++ [last] := by
    obtain ⟨first, rest, hcons⟩ := List.exists_cons_of_ne_nil hne
    rw [H.head, hcons]
    exact ⟨first, rfl, List.mem_cons_self⟩
  have htail : t.tail = some last := by rw [HT.tail, List.getLast?_concat]
  have hthere : ((m.concat last x).elems first).isSome :=
    HashMem.isSome_put (HashMem.isSome_put (H.isSome hfirst.2))
  unfold appendElem
  rw [hfirst.1]
  dsimp only
  rw [htbl, ok_bind, htail]
  dsimp only
  rw [HashMem.modify_eq hlast, ok_bind, HashMem.modify_eq (HashMem.isSome_put hsome), ok_bind]
  obtain ⟨chains, F⟩ := HT.fills
  refine ⟨?_, linked_concat H.app H.nodup hx he hnext,
    ⟨{ t with tail := some x }, chains, ?_, rfl, ?_, ?_⟩, label_concat, ?_⟩
  · change m.head = _
    rw [H.head, List.head?_append_of_ne_nil _ hne]
  · exact tbl_of_head hfirst.1 hthere rfl
  · have C := HT.counters
    exact ⟨C.numBuckets, C.log2NumBuckets, C.numItems, C.idealChainMaxlen, C.nonidealItems,
      C.ineffExpands, C.noexpand⟩
  · exact F.congr (fun a _ => congrFun bktWeb_concat a) (fun a _ => congrFun label_concat a)
      fun _ _ => rfl
  · intro a ha
    rw [List.mem_append, not_or, List.mem_singleton] at ha
    apply elems_concat _ ha.2
    rintro rfl
    exact ha.1 (List.mem_append_right _ List.mem_cons_self)

theorem appendElem_lockstep (H : Shows m elt order T) (hx : x ∉ order)
    (hthere : ∃ e, m.elems x = some e ∧ e.next = none) :
    Lockstep (Appended m elt order x) (appendElem env m x)
      (T.elim (hashMakeTable env) .ok) := by
  obtain ⟨e, he, hnext⟩ := hthere
  rcases List.eq_nil_or_concat order with rfl | ⟨front, last, hcat⟩
  · rcases H.table with ⟨-, rfl⟩ | ⟨hne, -⟩
    · exact appendElem_first H.head he hnext
    · exact absurd rfl hne
  · rw [List.concat_eq_append] at hcat
    subst hcat
    rcases H.table with ⟨hnil, -⟩ | ⟨-, t, t', -, rfl, -⟩
    · exact absurd hnil (List.append_ne_nil_of_right_ne_nil _ (List.cons_ne_nil _ _))
    · exact appendElem_last H hx he hnext

structure Added (m₀ : HashMem) (order : List ℕ) (x : ℕ) (key : List UInt8) (m : HashMem) : Prop where
  new : m.label x = some (key, hashJen key)
  old : ∀ a ∈ order, m.label a = m₀.label a
  rest : ∀ a ∉ order ++ [x], m.elems a = m₀.elems a

/-- The new element enters its chain, and the buckets may double. -/
theorem addToBkt_lockstep {t : HashTable} {t' : Table α} {chains : ℕ → List ℕ}
    (hnodup : (order ++ [x]).Nodup) (hhead : m.head = (order ++ [x]).head?)
    (happ : Linked m.appWeb none (order ++ [x]) none) (htail : t.tail = some x)
    (C : SameCounters t t') (F : Fills m elt t.numBuckets t.buckets t'.buckets chains {a | a ∈ order})
    {hashv : UInt32} (hlabel : m.label x = some (key, hashv)) (hf : order.length < fuel) :
    Lockstep (fun m' t₁ => Shows m' elt (order ++ [x]) (some t₁) ∧ m'.label = m.label ∧
        ∀ a ∉ order ++ [x], m'.elems a = m.elems a)
      (addToBkt env fuel m t (hashToBkt hashv t.numBuckets).toNat x)
      (hashAddToBkt env t' (hashToBkt hashv t'.numBuckets).toNat ⟨key, hashv, elt x⟩) := by
  have hx : x ∉ ({a | a ∈ order} : Set ℕ) := fun hx =>
    (List.nodup_append.mp hnodup).2.2 x hx x (List.mem_singleton_self x) rfl
  have hne : order ++ [x] ≠ [] := List.append_ne_nil_of_right_ne_nil _ (List.cons_ne_nil _ _)
  have hinsert : (insert x {a | a ∈ order} : Set ℕ) = {a | a ∈ order ++ [x]} := by
    ext a
    simp only [Set.mem_insert_iff, Set.mem_ofPred_eq, List.mem_append, List.mem_singleton]
    exact or_comm
  rw [← C.numBuckets]
  unfold addToBkt hashAddToBkt
  generalize hi : (hashToBkt hashv t.numBuckets).toNat = i
  cases hb : t.buckets[i]? with
  | none =>
    have hb' : t'.buckets[i]? = none := by
      rw [List.getElem?_eq_none_iff, ← F.length]
      exact List.getElem?_eq_none_iff.mp hb
    rw [hb']
    rfl
  | some b =>
    have hlt : i < t'.buckets.length := F.length ▸ (List.getElem?_eq_some_iff.mp hb).1
    have hb' : t'.buckets[i]? = some t'.buckets[i] := List.getElem?_eq_getElem hlt
    have hB := F.bucket i b _ hb hb'
    have hstores := pushed_eq (b := b) (HashMem.isSome_of_label hlabel)
      fun a ha => F.isSome (F.head_mem hb a ha)
    have F' := F.push hx hlabel hi.symm hb hb' (t'.buckets[i].count + 1) t'.buckets[i].expandMult
    rw [hinsert] at F'
    have hrest : ∀ a ∉ order ++ [x], (m.pushed b x).elems a = m.elems a := by
      intro a ha
      apply elems_pushed
      · rintro rfl
        exact ha (List.mem_append_right _ List.mem_cons_self)
      · exact fun hab => ha (List.mem_append_left _ (F.head_mem hb a hab))
    have happ' : Linked (m.pushed b x).appWeb none (order ++ [x]) none := by
      rw [appWeb_pushed]
      exact happ
    have hhead' : (m.pushed b x).head = (order ++ [x]).head? := by
      rw [HashMem.pushed, HashMem.head_putAt]
      exact hhead
    let t₁ : HashTable := { t with
      buckets := t.buckets.set i ⟨some x, t'.buckets[i].count + 1, t'.buckets[i].expandMult⟩
      noexpand := t'.noexpand }
    let t₁' : Table α := { t' with
      buckets := t'.buckets.set i ⟨⟨key, hashv, elt x⟩ :: t'.buckets[i].chain,
        t'.buckets[i].count + 1, t'.buckets[i].expandMult⟩ }
    have HT : ShowsTable (m.pushed b x) elt (order ++ [x]) t₁ t₁' :=
      ⟨⟨_, F'⟩, htail.trans List.getLast?_concat.symm,
        ⟨C.numBuckets, C.log2NumBuckets, C.numItems, C.idealChainMaxlen, C.nonidealItems,
          C.ineffExpands, rfl⟩⟩
    rw [hb']
    dsimp only
    rw [← bind_assoc, hstores, ok_bind, hB.count, hB.expandMult, C.noexpand]
    apply Lockstep.ite
    · intro _
      have hlen : (order ++ [x]).length ≤ fuel := by
        rw [List.length_append, List.length_singleton]
        exact hf
      refine (expandBuckets_lockstep HT hlen).mono ?_
      intro m' t₂ R
      obtain ⟨t₂', htable, HT'⟩ := R.table
      refine ⟨⟨hnodup, R.head.trans hhead', ?_, .inr ⟨hne, _, _, htable, rfl, HT'⟩⟩,
        R.label.trans label_pushed, fun a ha => (R.rest a ha).trans (hrest a ha)⟩
      rw [R.app]
      exact happ'
    · intro _
      refine ⟨⟨hnodup, hhead', happ', .inr ⟨hne, _, _, rfl, rfl, ?_⟩⟩, label_pushed, hrest⟩
      exact HT.congr (fun _ _ => rfl) fun _ _ => rfl

theorem addKeyptr_lockstep (H : Shows m elt order T) (hx : x ∉ order)
    (hthere : (m.elems x).isSome) (hf : order.length < fuel) :
    Lockstep (fun m' t' => Shows m' elt (order ++ [x]) (some t') ∧ Added m order x key m')
      (addKeyptr env fuel m key x) (hashAddKeyptr env T key (elt x)) := by
  obtain ⟨e, he⟩ := Option.isSome_iff_exists.mp hthere
  have hnodup : (order ++ [x]).Nodup := by
    apply H.nodup.append (List.nodup_singleton x)
    rw [List.disjoint_singleton]
    exact hx
  let m₁ := m.put x fun e => { e with
    next := none
    key := key }
  have hne : ∀ a ∈ order, a ≠ x := by
    rintro a ha rfl
    exact hx ha
  have H₁ : Shows m₁ elt order T :=
    H.congr rfl rfl (fun a ha => HashMem.elems_put_of_ne (hne a ha)) fun _ _ => rfl
  have he₁ : m₁.elems x = some { e with
      next := none
      key := key } := by
    rw [HashMem.elems_put_self, he]
    rfl
  have hadd : hashAddKeyptr env T key (elt x) = T.elim (hashMakeTable env) .ok >>= fun t' =>
      hashAddToBkt env { t' with numItems := t'.numItems + 1 }
        (hashToBkt (hashJen key) t'.numBuckets).toNat ⟨key, hashJen key, elt x⟩ := by
    cases T with
    | none => rfl
    | some t => rfl
  rw [hadd, addKeyptr, HashMem.modify_eq hthere, ok_bind]
  apply (appendElem_lockstep H₁ hx ⟨_, he₁, rfl⟩).bind
  intro m₂ t' A
  obtain ⟨t, chains, htbl, htail, C, F⟩ := A.table
  have hx₂ : (m₂.elems x).isSome := by
    apply HashMem.isSome_of_appWeb
    exact A.app.links
  dsimp only
  rw [htbl, ok_bind, HashMem.modify_eq hx₂, ok_bind]
  let m₃ := m₂.put x fun e => { e with hashv := hashJen key }
  have hkey : m₂.label x = some (key, e.hashv) := by
    rw [A.label, HashMem.label, he₁]
    rfl
  have hlabel : m₃.label x = some (key, hashJen key) := by
    obtain ⟨e₂, he₂, hpair⟩ := Option.map_eq_some_iff.mp hkey
    rw [HashMem.label, HashMem.elems_put_self, he₂]
    exact congrArg (fun k => some (k, hashJen key)) (Prod.mk.inj hpair).1
  have hold : ∀ a ≠ x, m₃.elems a = m₂.elems a := fun a ha => HashMem.elems_put_of_ne ha
  have happ : m₃.appWeb = m₂.appWeb := HashMem.appWeb_put fun _ => ⟨rfl, rfl⟩
  have hbkt : m₃.bktWeb = m₂.bktWeb := HashMem.bktWeb_put fun _ => ⟨rfl, rfl⟩
  have F₃ : Fills m₃ elt t.numBuckets t.buckets t'.buckets chains {a | a ∈ order} := by
    apply F.congr (fun a _ => congrFun hbkt a) (fun a ha => ?_) fun _ _ => rfl
    rw [HashMem.label, HashMem.label, hold a (hne a ha)]
  have C₃ : SameCounters { t with numItems := t.numItems + 1 }
      { t' with numItems := t'.numItems + 1 } :=
    ⟨C.numBuckets, C.log2NumBuckets, congrArg (· + 1) C.numItems, C.idealChainMaxlen,
      C.nonidealItems, C.ineffExpands, C.noexpand⟩
  have happ₃ : Linked m₃.appWeb none (order ++ [x]) none := by
    rw [happ]
    exact A.app
  have hhead₃ : m₃.head = (order ++ [x]).head? := A.head
  refine (addToBkt_lockstep (t := { t with numItems := t.numItems + 1 }) hnodup hhead₃ happ₃ htail
    C₃ F₃ hlabel hf).mono ?_
  rintro m' t₁ ⟨H', hlabel', hrest⟩
  refine ⟨H', ?_, fun a ha => ?_, fun a ha => ?_⟩
  · rw [hlabel', hlabel]
  · rw [hlabel', HashMem.label, hold a (hne a ha)]
    change m₂.label a = m.label a
    rw [A.label, HashMem.label, HashMem.elems_put_of_ne (hne a ha)]
    rfl
  · have hax : a ≠ x := by
      rintro rfl
      exact ha (List.mem_append_right _ List.mem_cons_self)
    rw [hrest a ha, hold a hax, A.rest a ha]
    exact HashMem.elems_put_of_ne hax

end Add

section Find
variable {α : Type} {m : HashMem} {elt : ℕ → α} {order : List ℕ} {T : Option (Table α)}
  {key : List UInt8} {fuel : ℕ}

theorem findInBkt_none : findInBkt m key fuel none = .ok none := by
  cases fuel with
  | zero => rfl
  | succ fuel => rfl

/-- Along the links of a chain the first match is found that is first in the list. -/
theorem findInBkt_eq (key : List UInt8) {c : List ℕ} {hs : List (Handle α)} {before : Option ℕ}
    (hl : Linked m.bktWeb before c none) (hc : c.map (handleAt elt m) = hs.map some)
    (hf : c.length ≤ fuel) : ∃ o, findInBkt m key fuel c.head? = .ok o ∧
      o.map (handleAt elt m) = (hashFindInBkt hs key).map some ∧ ∀ a ∈ o, a ∈ c := by
  induction c generalizing hs before fuel with
  | nil =>
    cases hs with
    | nil => exact ⟨none, findInBkt_none, rfl, fun a ha => by cases ha⟩
    | cons h hs => cases hc
  | cons x c ih =>
    cases hs with
    | nil => cases hc
    | cons h hs =>
      rw [List.map_cons, List.map_cons, List.cons.injEq] at hc
      obtain ⟨hx, hc⟩ := hc
      obtain ⟨⟨k, hashv⟩, hlabel, rfl⟩ := Option.map_eq_some_iff.mp hx
      obtain ⟨e, he, hkey⟩ := Option.map_eq_some_iff.mp hlabel
      obtain ⟨rfl, rfl⟩ := Prod.mk.inj hkey
      have hnext : e.hhNext = c.head? := hl.next_first (HashMem.bktLinks he)
      cases fuel with
      | zero => cases hf
      | succ fuel =>
        rw [List.head?_cons, findInBkt, HashMem.get_of_elems he, ok_bind]
        by_cases hmatch : (e.key.length == key.length && e.key == key) = true
        · rw [if_pos hmatch]
          refine ⟨some x, rfl, ?_, fun a ha => ?_⟩
          · rw [hashFindInBkt, List.find?_cons]
            dsimp only
            rw [hmatch, Option.map_some, hx]
            rfl
          · cases ha
            exact List.mem_cons_self
        · rw [if_neg hmatch, hnext]
          obtain ⟨o, ho, hfound, hmem⟩ := ih hl.2 hc (Nat.le_of_succ_le_succ hf)
          refine ⟨o, ho, ?_, fun a ha => List.mem_cons_of_mem x (hmem a ha)⟩
          rw [hfound, hashFindInBkt, hashFindInBkt, List.find?_cons]
          dsimp only
          rw [Bool.eq_false_iff.mpr hmatch]

theorem find_lockstep (H : Shows m elt order T) (hf : order.length ≤ fuel) :
    Lockstep (fun o h => o.map (handleAt elt m) = h.map some ∧ ∀ a ∈ o, a ∈ order)
      (find fuel m key) (hashFind T key) := by
  rcases H.table with ⟨rfl, rfl⟩ | ⟨hne, -⟩
  · have hhead : m.head = none := H.head
    unfold find
    rw [hhead]
    exact ⟨rfl, fun a ha => by cases ha⟩
  · obtain ⟨t, t', htbl, -, rfl, HT⟩ := H.tbl_eq hne
    obtain ⟨chains, F⟩ := HT.fills
    obtain ⟨first, rest, hcons⟩ := List.exists_cons_of_ne_nil hne
    unfold find hashFind
    rw [H.head, hcons, List.head?_cons]
    dsimp only
    rw [htbl, ok_bind, ← HT.counters.numBuckets]
    generalize (hashToBkt (hashJen key) t.numBuckets).toNat = i
    cases hb : t.buckets[i]? with
    | none =>
      have hb' : t'.buckets[i]? = none := by
        rw [List.getElem?_eq_none_iff, ← F.length]
        exact List.getElem?_eq_none_iff.mp hb
      rw [hb']
      rfl
    | some b =>
      have hi : i < t.buckets.length := (List.getElem?_eq_some_iff.mp hb).1
      have hlt : i < t'.buckets.length := F.length ▸ hi
      have hb' : t'.buckets[i]? = some t'.buckets[i] := List.getElem?_eq_getElem hlt
      have hB := F.bucket i b _ hb hb'
      obtain ⟨o, ho, hfound, hmem⟩ :=
        findInBkt_eq key hB.linked hB.chain ((F.length_le hi).trans hf)
      rw [hb']
      dsimp only
      rw [hB.head, ho]
      exact ⟨hfound, fun a ha => hcons ▸ (F.mem a).mpr ⟨i, hi, hmem a ha⟩⟩

end Find

section Delete
variable {α : Type}

/-- `HASH_DEL_IN_BKT` and the counter, on lists: the handle of an element leaves its chain. -/
def Table.without [DecidableEq α] (t : Table α) (hashv : UInt32) (e : α) : Table α :=
  { t with
    buckets := t.buckets.modify (hashToBkt hashv t.numBuckets).toNat fun b =>
      ⟨b.chain.eraseP fun h => h.elt = e, b.count - 1, b.expandMult⟩
    numItems := t.numItems - 1 }

variable {m : HashMem} {elt : ℕ → α} {order : List ℕ} {T : Option (Table α)} {nb : UInt32}
  {bs : List HashBucket} {bs' : List (Bucket α)} {chains : ℕ → List ℕ} {S : Set ℕ} {x : ℕ}
  {b : HashBucket} {b' : Bucket α}

def HashMem.unchained (m : HashMem) (e : HashHandle) : HashMem :=
  (m.putAt e.hhPrev fun p => { p with hhNext := e.hhNext }).putAt e.hhNext fun n =>
    { n with hhPrev := e.hhPrev }

theorem appWeb_unchained {e : HashHandle} : (m.unchained e).appWeb = m.appWeb := by
  unfold HashMem.unchained
  rw [HashMem.appWeb_putAt, HashMem.appWeb_putAt]
  · exact fun _ => ⟨rfl, rfl⟩
  · exact fun _ => ⟨rfl, rfl⟩

theorem label_unchained {e : HashHandle} : (m.unchained e).label = m.label := by
  unfold HashMem.unchained
  rw [HashMem.label_putAt, HashMem.label_putAt]
  · exact fun _ => ⟨rfl, rfl⟩
  · exact fun _ => ⟨rfl, rfl⟩

theorem bktWeb_unchained {e : HashHandle} : (m.unchained e).bktWeb =
    (m.bktWeb.patchNext e.hhPrev e.hhNext).patchPrev e.hhNext e.hhPrev := by
  unfold HashMem.unchained
  rw [HashMem.bktWeb_putAt_prev, HashMem.bktWeb_putAt_next]

theorem elems_unchained {e : HashHandle} {a : ℕ} (hp : a ∉ e.hhPrev) (hn : a ∉ e.hhNext) :
    (m.unchained e).elems a = m.elems a := by
  unfold HashMem.unchained
  rw [HashMem.elems_putAt_of_notMem hn, HashMem.elems_putAt_of_notMem hp]

/-- Without an element the chain holds the handles but the first of that element. -/
theorem handles_erase [DecidableEq α] {l r : List ℕ} {hs : List (Handle α)}
    (h : (l ++ x :: r).map (handleAt elt m) = hs.map some) (helt : ∀ a ∈ l, elt a ≠ elt x) :
    (l ++ r).map (handleAt elt m) = (hs.eraseP fun h => h.elt = elt x).map some := by
  have hname : ∀ {a : ℕ} {g : Handle α}, handleAt elt m a = some g → g.elt = elt a := by
    intro a g hg
    obtain ⟨k, -, rfl⟩ := Option.map_eq_some_iff.mp hg
    rfl
  induction l generalizing hs with
  | nil =>
    obtain ⟨g, hs, rfl, hg, hrest⟩ := List.map_eq_cons_iff.mp h.symm
    rw [List.eraseP_cons_of_pos (by simp [hname hg.symm]), List.nil_append, hrest]
  | cons a l ih =>
    obtain ⟨g, hs, rfl, hg, hrest⟩ := List.map_eq_cons_iff.mp h.symm
    have hga : ¬ decide (g.elt = elt x) = true := by
      rw [decide_eq_true_eq, hname hg.symm]
      exact helt a List.mem_cons_self
    rw [List.eraseP_cons_of_neg (by exact hga), List.cons_append, List.map_cons, List.map_cons, hg,
      ih hrest.symm fun c hc => helt c (List.mem_cons_of_mem a hc)]

theorem ShowsBucket.erase [DecidableEq α] {l r : List ℕ}
    (hB : ShowsBucket m elt b (l ++ x :: r) b') (helt : ∀ a ∈ l, elt a ≠ elt x) {e : HashHandle}
    (he : m.elems x = some e) (count mult : UInt32) :
    ShowsBucket (m.unchained e) elt ⟨(l ++ r).head?, count, mult⟩ (l ++ r)
      ⟨b'.chain.eraseP fun h => h.elt = elt x, count, mult⟩ where
  head := rfl
  linked := by
    obtain ⟨hprev, hnext⟩ := hB.linked.beside (HashMem.bktLinks he)
    have hout := hB.linked.remove hB.nodup
    rw [Option.or_none, Option.or_none, ← hprev, ← hnext] at hout
    rw [bktWeb_unchained]
    exact hout
  nodup := (List.nodup_cons.mp (List.nodup_middle.mp hB.nodup)).2
  chain := by
    have hview : handleAt elt (m.unchained e) = handleAt elt m := by
      funext a
      rw [handleAt, handleAt, label_unchained]
    rw [hview]
    exact handles_erase hB.chain helt
  count := rfl
  expandMult := rfl

theorem Fills.erase [DecidableEq α] (F : Fills m elt nb bs bs' chains S) {i : ℕ} {l r : List ℕ}
    (hsplit : chains i = l ++ x :: r) (hb : bs[i]? = some b) (hb' : bs'[i]? = some b')
    (helt : ∀ a ∈ l, elt a ≠ elt x) {e : HashHandle} (he : m.elems x = some e) (count mult : UInt32) :
    Fills (m.unchained e) elt nb (bs.set i ⟨(l ++ r).head?, count, mult⟩)
      (bs'.set i ⟨b'.chain.eraseP fun h => h.elt = elt x, count, mult⟩)
      (Function.update chains i (l ++ r)) (S \ {x}) := by
  have hlt : i < bs.length := (List.getElem?_eq_some_iff.mp hb).1
  have hB := hsplit ▸ F.bucket i b b' hb hb'
  have hmem : ∀ a, a ∈ chains i ↔ a = x ∨ a ∈ l ++ r := by
    intro a
    rw [hsplit, List.perm_middle.mem_iff, List.mem_cons]
  have hxmem : x ∈ chains i := (hmem x).mpr (.inl rfl)
  have hxnot : x ∉ l ++ r := (List.nodup_cons.mp (List.nodup_middle.mp hB.nodup)).1
  have hbeside : ∀ a, a ∈ e.hhPrev ∨ a ∈ e.hhNext → a ∈ chains i := by
    intro a ha
    obtain ⟨hprev, hnext⟩ := hB.linked.beside (HashMem.bktLinks he)
    rw [hprev, hnext] at ha
    exact (hmem a).mpr (.inr (mem_of_beside ha))
  apply F.replace hlt label_unchained
  · intro j hj hji a ha
    apply elems_unchained
    · exact fun hp => hji (F.apart hj hlt ha (hbeside a (.inl hp)))
    · exact fun hn => hji (F.apart hj hlt ha (hbeside a (.inr hn)))
  · exact hB.erase helt he count mult
  · exact fun a ha => F.home i hlt a ((hmem a).mpr (.inr ha))
  · intro a
    rw [Set.mem_sdiff, Set.mem_singleton_iff, F.mem_iff hlt, hmem a]
    constructor
    · rintro ⟨(hax | ha) | hother, hne⟩
      · exact absurd hax hne
      · exact .inl ha
      · exact .inr hother
    · rintro (ha | ⟨j, hj, hji, ha⟩)
      · exact ⟨.inl (.inr ha), fun hax => hxnot (hax ▸ ha)⟩
      · exact ⟨.inr ⟨j, hj, hji, ha⟩, fun hax => hji (F.apart hj hlt ha (hax ▸ hxmem))⟩

/-- The stores that take an element out of the order. -/
def HashMem.unlinked (m : HashMem) (e : HashHandle) : HashMem :=
  let m := m.putAt e.prev fun p => { p with next := e.next }
  HashMem.putAt { m with head := if e.prev = none then e.next else m.head } e.next fun n =>
    { n with prev := e.prev }

theorem appWeb_unlinked {e : HashHandle} : (m.unlinked e).appWeb =
    (m.appWeb.patchNext e.prev e.next).patchPrev e.next e.prev := by
  unfold HashMem.unlinked
  rw [HashMem.appWeb_putAt_prev, ← HashMem.appWeb_putAt_next]
  rfl

theorem bktWeb_unlinked {e : HashHandle} : (m.unlinked e).bktWeb = m.bktWeb := by
  have hnext : (m.putAt e.prev fun p => { p with next := e.next }).bktWeb = m.bktWeb :=
    HashMem.bktWeb_putAt fun _ => ⟨rfl, rfl⟩
  unfold HashMem.unlinked
  rw [HashMem.bktWeb_putAt, ← hnext]
  · rfl
  · exact fun _ => ⟨rfl, rfl⟩

theorem label_unlinked {e : HashHandle} : (m.unlinked e).label = m.label := by
  have hnext : (m.putAt e.prev fun p => { p with next := e.next }).label = m.label :=
    HashMem.label_putAt fun _ => ⟨rfl, rfl⟩
  unfold HashMem.unlinked
  rw [HashMem.label_putAt, ← hnext]
  · rfl
  · exact fun _ => ⟨rfl, rfl⟩

theorem elems_unlinked {e : HashHandle} {a : ℕ} (hp : a ∉ e.prev) (hn : a ∉ e.next) :
    (m.unlinked e).elems a = m.elems a := by
  unfold HashMem.unlinked
  rw [HashMem.elems_putAt_of_notMem hn]
  exact HashMem.elems_putAt_of_notMem hp

theorem isSome_unlinked {e : HashHandle} {a : ℕ} (h : (m.elems a).isSome) :
    ((m.unlinked e).elems a).isSome := by
  unfold HashMem.unlinked
  apply HashMem.isSome_putAt
  exact HashMem.isSome_putAt h

theorem without_buckets [DecidableEq α] {t' : Table α} {hashv : UInt32} {e : α} {b' : Bucket α}
    {i : ℕ} (hi : (hashToBkt hashv t'.numBuckets).toNat = i) (hb' : t'.buckets[i]? = some b') :
    (t'.without hashv e).buckets = t'.buckets.set i
      ⟨b'.chain.eraseP fun h => h.elt = e, b'.count - 1, b'.expandMult⟩ := by
  rw [Table.without, hi, List.modify_eq_set_getElem?, hb']
  rfl

theorem delInBkt_eq [DecidableEq α] {t : HashTable} {t' : Table α}
    (F : Fills m elt t.numBuckets t.buckets t'.buckets chains S)
    (hnum : t.numBuckets = t'.numBuckets) (hx : x ∈ S) {e : HashHandle} (he : m.elems x = some e)
    (helt : ∀ a ∈ S, a ≠ x → elt a ≠ elt x) :
    ∃ bs, delInBkt m t (hashToBkt e.hashv t.numBuckets).toNat x =
        .ok { m.unchained e with table := some { t with
          buckets := bs
          numItems := t.numItems - 1 } } ∧
      (∃ chains', Fills (m.unchained e) elt t.numBuckets bs (t'.without e.hashv (elt x)).buckets
        chains' (S \ {x})) ∧
      ∀ a ∉ S \ {x}, (m.unchained e).elems a = m.elems a := by
  obtain ⟨i, hi, hxi⟩ := (F.mem x).mp hx
  have hbkt : (hashToBkt e.hashv t.numBuckets).toNat = i := by
    have hhome := F.home i hi x hxi
    rw [HashMem.label, he] at hhome
    exact Option.some.inj hhome
  have hlt : i < t'.buckets.length := F.length ▸ hi
  have hb : t.buckets[i]? = some t.buckets[i] := List.getElem?_eq_getElem hi
  have hb' : t'.buckets[i]? = some t'.buckets[i] := List.getElem?_eq_getElem hlt
  obtain ⟨l, r, hsplit⟩ := List.append_of_mem hxi
  have hB := hsplit ▸ F.bucket i _ _ hb hb'
  have hxnot : x ∉ l ++ r := (List.nodup_cons.mp (List.nodup_middle.mp hB.nodup)).1
  have hmem : ∀ a ∈ l ++ r, a ∈ S \ {x} := by
    intro a ha
    refine ⟨(F.mem a).mpr ⟨i, hi, ?_⟩, fun hax => hxnot (hax ▸ ha)⟩
    rw [hsplit]
    exact List.perm_middle.mem_iff.mpr (List.mem_cons_of_mem x ha)
  have hbeside : ∀ a, a ∈ e.hhPrev ∨ a ∈ e.hhNext → a ∈ S \ {x} := by
    intro a ha
    obtain ⟨hprev, hnext⟩ := hB.linked.beside (HashMem.bktLinks he)
    rw [hprev, hnext] at ha
    exact hmem a (mem_of_beside ha)
  have hhead : (if t.buckets[i].hhHead = some x then e.hhNext else t.buckets[i].hhHead) =
      (l ++ r).head? := by
    rw [hB.head, (hB.linked.beside (HashMem.bktLinks he)).2]
    exact head?_remove fun hxl => hxnot (List.mem_append_left r hxl)
  refine ⟨t.buckets.set i ⟨(l ++ r).head?, t.buckets[i].count - 1, t.buckets[i].expandMult⟩, ?_,
    ⟨Function.update chains i (l ++ r), ?_⟩, ?_⟩
  · unfold delInBkt
    rw [hbkt, hb]
    dsimp only
    rw [HashMem.get_of_elems he, ok_bind,
      HashMem.modifyAt_eq fun a ha => F.isSome (hbeside a (.inl ha)).1, ok_bind,
      HashMem.modifyAt_eq fun a ha => HashMem.isSome_putAt (F.isSome (hbeside a (.inr ha)).1),
      ok_bind, hhead]
    rfl
  · rw [without_buckets (hnum ▸ hbkt) hb', hB.count, hB.expandMult]
    apply F.erase hsplit hb hb' _ he
    intro a ha
    have haS := hmem a (List.mem_append_left r ha)
    exact helt a haS.1 haS.2
  · intro a ha
    apply elems_unchained
    · exact fun hp => ha (hbeside a (.inl hp))
    · exact fun hn => ha (hbeside a (.inr hn))

section Middle
variable {l r : List ℕ} {e : HashHandle} {t : HashTable} {t' : Table α}

theorem Shows.beside (H : Shows m elt (l ++ x :: r) T) (he : m.elems x = some e) {a : ℕ}
    (ha : a ∈ e.prev ∨ a ∈ e.next) : a ∈ l ++ r := by
  obtain ⟨hprev, hnext⟩ := H.app.beside (HashMem.appLinks he)
  rw [hprev, hnext] at ha
  exact mem_of_beside ha

theorem Shows.notMem (H : Shows m elt (l ++ x :: r) T) : x ∉ l ++ r :=
  (List.nodup_cons.mp (List.nodup_middle.mp H.nodup)).1

theorem Shows.isSome_other (H : Shows m elt (l ++ x :: r) T) {a : ℕ} (ha : a ∈ l ++ r) :
    (m.elems a).isSome :=
  H.isSome (List.perm_middle.mem_iff.mpr (List.mem_cons_of_mem x ha))

theorem Shows.head_unlinked (H : Shows m elt (l ++ x :: r) T) (he : m.elems x = some e) :
    (m.unlinked e).head = (l ++ r).head? := by
  have hstores : (m.unlinked e).head = if e.prev = none then e.next else m.head := by
    rw [HashMem.unlinked, HashMem.head_putAt]
    dsimp only
    rw [HashMem.head_putAt]
  obtain ⟨hprev, hnext⟩ := H.app.beside (HashMem.appLinks he)
  rw [hstores, hprev, hnext, H.head]
  cases l with
  | nil => exact if_pos rfl
  | cons y l =>
    rw [if_neg]
    · rfl
    · rw [List.getLast?_eq_none_iff]
      exact List.cons_ne_nil y l

theorem Shows.tbl_unlinked (H : Shows m elt (l ++ x :: r) T) (he : m.elems x = some e)
    (hne : l ++ r ≠ []) (ht : m.table = some t) : (m.unlinked e).tbl = .ok t := by
  obtain ⟨first, rest, hcons⟩ := List.exists_cons_of_ne_nil hne
  have hfirst : first ∈ l ++ r := by
    rw [hcons]
    exact List.mem_cons_self
  apply tbl_of_head (a := first)
  · rw [H.head_unlinked he, hcons, List.head?_cons]
  · exact isSome_unlinked (H.isSome_other hfirst)
  · rw [HashMem.unlinked, HashMem.table_putAt]
    exact HashMem.table_putAt.trans ht

theorem Fills.unlinked (F : Fills m elt nb bs bs' chains S) :
    Fills (m.unlinked e) elt nb bs bs' chains S := by
  apply F.congr
  · exact fun a _ => by rw [bktWeb_unlinked]
  · exact fun a _ => by rw [label_unlinked]
  · exact fun _ _ => rfl

/-- `HASH_DELETE` is `HASH_DEL_IN_BKT` once an element that is not alone is out of the order. -/
theorem Shows.delete_stores (H : Shows m elt (l ++ x :: r) T) (he : m.elems x = some e)
    (hne : l ++ r ≠ []) (htbl : m.tbl = .ok t) (htable : m.table = some t) :
    delete m x = delInBkt (m.unlinked e)
      { t with tail := if t.tail = some x then e.prev else t.tail }
      (hashToBkt e.hashv t.numBuckets).toNat x := by
  have hmany : ¬ (e.prev = none ∧ e.next = none) := by
    obtain ⟨hprev, hnext⟩ := H.app.beside (HashMem.appLinks he)
    rw [hprev, hnext, List.getLast?_eq_none_iff, List.head?_eq_none_iff]
    rintro ⟨rfl, rfl⟩
    exact hne rfl
  unfold delete
  rw [HashMem.get_of_elems he, ok_bind, htbl, ok_bind, if_neg hmany]
  dsimp only
  rw [HashMem.modifyAt_eq fun a ha => H.isSome_other (H.beside he (.inl ha)), ok_bind,
    HashMem.modifyAt_eq, ok_bind]
  · change ((m.unlinked e).tbl >>= fun _ => delInBkt (m.unlinked e) _ _ x) = _
    rw [H.tbl_unlinked he hne htable, ok_bind]
  · exact fun a ha => HashMem.isSome_putAt (H.isSome_other (H.beside he (.inr ha)))

theorem delete_eq [DecidableEq α] (H : Shows m elt (l ++ x :: r) (some t')) (hne : l ++ r ≠ [])
    (helt : ∀ a ∈ l ++ r, elt a ≠ elt x) (he : m.elems x = some e) :
    ∃ m', delete m x = .ok m' ∧ Shows m' elt (l ++ r) (some (t'.without e.hashv (elt x))) ∧
      m'.label = m.label ∧ ∀ a ∉ l ++ r, m'.elems a = m.elems a := by
  obtain ⟨t, t₁, htbl, htable, hsome, HT⟩ := H.tbl_eq (List.append_ne_nil_of_right_ne_nil l
    (List.cons_ne_nil x r))
  cases hsome
  obtain ⟨chains, F⟩ := HT.fills
  obtain ⟨hprev, hnext⟩ := H.app.beside (HashMem.appLinks he)
  have C := HT.counters
  have hmem : ∀ a, a ∈ l ++ x :: r ↔ a = x ∨ a ∈ l ++ r := by
    intro a
    rw [List.perm_middle.mem_iff, List.mem_cons]
  have hset : ({a | a ∈ l ++ x :: r} \ {x} : Set ℕ) = {a | a ∈ l ++ r} := by
    ext a
    rw [Set.mem_sdiff, Set.mem_singleton_iff, Set.mem_ofPred_eq, Set.mem_ofPred_eq, hmem]
    constructor
    · exact fun h => h.1.resolve_left h.2
    · exact fun ha => ⟨.inr ha, fun hax => H.notMem (hax ▸ ha)⟩
  have hself : (m.unlinked e).elems x = some e := by
    rw [elems_unlinked]
    · exact he
    · exact fun hp => H.notMem (H.beside he (.inl hp))
    · exact fun hn => H.notMem (H.beside he (.inr hn))
  let t₂ : HashTable := { t with tail := if t.tail = some x then e.prev else t.tail }
  have htail : t₂.tail = (l ++ r).getLast? := by
    change (if t.tail = some x then e.prev else t.tail) = _
    rw [HT.tail, hprev]
    exact getLast?_remove fun hxr => H.notMem (List.mem_append_right l hxr)
  obtain ⟨bs, hdel, ⟨chains', F'⟩, hrest⟩ := delInBkt_eq (t := t₂) F.unlinked C.numBuckets
    ((hmem x).mpr (.inl rfl)) hself fun a ha hax => helt a (((hmem a).mp ha).resolve_left hax)
  rw [hset] at F' hrest
  refine ⟨{ (m.unlinked e).unchained e with table := some { t₂ with
      buckets := bs
      numItems := t₂.numItems - 1 } }, ?_, ⟨?_, ?_, ?_,
    .inr ⟨hne, _, _, rfl, rfl, ⟨chains', ?_⟩, htail, ?_⟩⟩, ?_, ?_⟩
  · exact (H.delete_stores he hne htbl htable).trans hdel
  · exact (List.nodup_cons.mp (List.nodup_middle.mp H.nodup)).2
  · change ((m.unlinked e).unchained e).head = _
    rw [← H.head_unlinked he, HashMem.unchained, HashMem.head_putAt, HashMem.head_putAt]
  · have hout := H.app.remove H.nodup
    rw [Option.or_none, Option.or_none, ← hprev, ← hnext, ← appWeb_unlinked,
      ← appWeb_unchained] at hout
    exact hout
  · exact F'.congr (fun _ _ => rfl) (fun _ _ => rfl) fun _ _ => rfl
  · exact ⟨C.numBuckets, C.log2NumBuckets, congrArg (· - 1) C.numItems, C.idealChainMaxlen,
      C.nonidealItems, C.ineffExpands, C.noexpand⟩
  · exact label_unchained.trans label_unlinked
  · intro a ha
    refine (hrest a ha).trans (elems_unlinked ?_ ?_)
    · exact fun hp => ha (H.beside he (.inl hp))
    · exact fun hn => ha (H.beside he (.inr hn))

end Middle

end Delete

section Release
variable {α : Type} {m : HashMem} {elt : ℕ → α} {order : List ℕ} {T : Option (Table α)} {x : ℕ}
  {fuel : ℕ}

theorem delete_first (H : Shows m elt (x :: order) T) (helt : ∀ a ∈ order, elt a ≠ elt x) :
    ∃ m' T', delete m x = .ok m' ∧ Shows m' elt order T' ∧ (order = [] → m'.table = none) ∧
      ∀ a ∉ order, m'.elems a = m.elems a := by
  classical
  obtain ⟨e, he⟩ := Option.isSome_iff_exists.mp (H.isSome List.mem_cons_self)
  obtain ⟨t, t', htbl, -, rfl, -⟩ := H.tbl_eq (List.cons_ne_nil x order)
  cases order with
  | nil =>
    have hlinks : e.prev = none ∧ e.next = none :=
      Linked.beside (l := []) (m := []) H.app (HashMem.appLinks he)
    refine ⟨{ m with
        head := none
        table := none }, none, ?_, shows_nil _ _ rfl, fun _ => rfl, fun a _ => rfl⟩
    rw [delete, HashMem.get_of_elems he, ok_bind, htbl, ok_bind, if_pos hlinks]
    rfl
  | cons y order =>
    have hne : [] ++ y :: order ≠ [] := List.cons_ne_nil y order
    have H' : Shows m elt ([] ++ x :: y :: order) (some t') := H
    obtain ⟨m', hdel, hshows, -, hrest⟩ := delete_eq H' hne helt he
    refine ⟨m', _, hdel, hshows, fun h => absurd h (List.cons_ne_nil y order), hrest⟩

theorem releaseFrom_none : releaseFrom fuel m none = .ok m := by
  cases fuel with
  | zero => rfl
  | succ fuel => rfl

/-- The loop of `am_assca_release` deletes the elements one after the other and frees each. -/
theorem releaseFrom_eq (H : Shows m elt order T) (hinj : Set.InjOn elt {a | a ∈ order})
    (hf : order.length ≤ fuel) : ∃ m', releaseFrom fuel m order.head? = .ok m' ∧ m'.head = none ∧
      (order ≠ [] → m'.table = none) ∧ (∀ a ∈ order, m'.elems a = none) ∧
      ∀ a ∉ order, m'.elems a = m.elems a := by
  induction order generalizing m T fuel with
  | nil =>
    exact ⟨m, releaseFrom_none, H.head, fun h => absurd rfl h, List.forall_mem_nil _,
      fun _ _ => rfl⟩
  | cons x order ih =>
    have hx : x ∉ order := (List.nodup_cons.mp H.nodup).1
    obtain ⟨e, he⟩ := Option.isSome_iff_exists.mp (H.isSome List.mem_cons_self)
    have hnext : e.next = order.head? := H.app.next_first (HashMem.appLinks he)
    have helt : ∀ a ∈ order, elt a ≠ elt x := fun a ha hax =>
      hx (hinj (List.mem_cons_of_mem x ha) List.mem_cons_self hax ▸ ha)
    obtain ⟨m₁, T₁, hdel, H₁, hlast, hrest₁⟩ := delete_first H helt
    let m₂ : HashMem := { m₁ with elems := Function.update m₁.elems x none }
    have hfree : m₁.freeElem x = .ok m₂ := by
      rw [HashMem.freeElem, HashMem.get_of_elems ((hrest₁ x hx).trans he)]
      rfl
    have hold : ∀ a ≠ x, m₂.elems a = m₁.elems a := fun a ha => Function.update_of_ne ha _ _
    have H₂ : Shows m₂ elt order T₁ :=
      H₁.congr rfl rfl (fun a ha => hold a fun hax => hx (hax ▸ ha)) fun _ _ => rfl
    cases fuel with
    | zero => cases hf
    | succ fuel =>
      obtain ⟨m', hrel, hhead, htable, hgone, hrest⟩ := ih H₂
        (hinj.mono fun a ha => List.mem_cons_of_mem x ha) (Nat.le_of_succ_le_succ hf)
      refine ⟨m', ?_, hhead, fun _ => ?_, fun a ha => ?_, fun a ha => ?_⟩
      · rw [List.head?_cons, releaseFrom, HashMem.get_of_elems he, ok_bind, hdel, ok_bind, hfree,
          ok_bind, hnext, hrel]
      · by_cases hnil : order = []
        · subst hnil
          rw [List.head?_nil, releaseFrom_none] at hrel
          cases hrel
          exact hlast rfl
        · exact htable hnil
      · by_cases hao : a ∈ order
        · exact hgone a hao
        · obtain rfl := (List.mem_cons.mp ha).resolve_right hao
          rw [hrest a hao]
          exact Function.update_self _ _ _
      · rw [List.mem_cons, not_or] at ha
        rw [hrest a ha.2, hold a ha.1, hrest₁ a ha.2]

end Release

end AppMem.Hash
