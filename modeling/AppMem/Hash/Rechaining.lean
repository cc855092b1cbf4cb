import AppMem.Hash.Pointers
import AppMem.Library.TwoRuns

/-! # Chains in memory

The links of the buckets against the lists of `Table`: the chain of a bucket is the list of handles
that its links lead to. Putting an element in front of its chain keeps this, and so does doubling
the buckets, which comes back or faults as the doubling of the lists does.
-/
namespace AppMem.Hash
open Library.Checked Library.Doubly Library.TwoRuns Abi Memory

namespace HashMem

section Views

/-- The links of the elements in the order in which they came. -/
def appWeb (m : HashMem) : Web := fun a => (m.elems a).map fun e => ⟨e.prev, e.next⟩

def bktWeb (m : HashMem) : Web := fun a => (m.elems a).map fun e => ⟨e.hhPrev, e.hhNext⟩

def label (m : HashMem) (a : ℕ) : Option (List UInt8 × UInt32) :=
  (m.elems a).map fun e => (e.key, e.hashv)

def putAt (m : HashMem) (p : Option ℕ) (f : HashHandle → HashHandle) : HashMem :=
  p.elim m fun a => m.put a f

variable {m : HashMem} {a b : ℕ} {p v : Option ℕ} {f : HashHandle → HashHandle}

theorem get_of_elems {e : HashHandle} (h : m.elems a = some e) : m.get a = .ok e := by
  rw [get, h]

theorem elems_put_of_ne (h : b ≠ a) : (m.put a f).elems b = m.elems b :=
  Function.update_of_ne h _ _

theorem elems_put_self : (m.put a f).elems a = (m.elems a).map f := Function.update_self _ _ _

theorem elems_putAt_of_notMem (h : b ∉ p) : (m.putAt p f).elems b = m.elems b := by
  cases p with
  | none => rfl
  | some a => exact elems_put_of_ne fun hba => h (hba ▸ rfl)

theorem modify_eq (h : (m.elems a).isSome) : m.modify a f = .ok (m.put a f) := by
  obtain ⟨e, he⟩ := Option.isSome_iff_exists.mp h
  rw [modify, get_of_elems he]
  rfl

theorem modifyAt_eq (h : ∀ a ∈ p, (m.elems a).isSome) : m.modifyAt p f = .ok (m.putAt p f) := by
  cases p with
  | none => rfl
  | some a => exact modify_eq (h a rfl)

theorem isSome_put (h : (m.elems b).isSome) : ((m.put a f).elems b).isSome := by
  by_cases hb : b = a
  · subst hb
    rw [elems_put_self, Option.isSome_map]
    exact h
  · rwa [elems_put_of_ne hb]

theorem isSome_putAt (h : (m.elems b).isSome) : ((m.putAt p f).elems b).isSome := by
  cases p with
  | none => exact h
  | some a => exact isSome_put h

theorem appLinks {e : HashHandle} (h : m.elems a = some e) :
    m.appWeb a = some ⟨e.prev, e.next⟩ := by
  rw [appWeb, h, Option.map_some]

theorem bktLinks {e : HashHandle} (h : m.elems a = some e) :
    m.bktWeb a = some ⟨e.hhPrev, e.hhNext⟩ := by
  rw [bktWeb, h, Option.map_some]

theorem isSome_of_appWeb {k : Links} (h : m.appWeb a = some k) : (m.elems a).isSome := by
  rw [appWeb, Option.map_eq_some_iff] at h
  obtain ⟨e, he, -⟩ := h
  rw [he]
  rfl

theorem isSome_of_label {k : List UInt8 × UInt32} (h : m.label a = some k) :
    (m.elems a).isSome := by
  rw [label, Option.map_eq_some_iff] at h
  obtain ⟨e, he, -⟩ := h
  rw [he]
  rfl

/-- A view of the elements does not change with fields that it does not show. -/
theorem view_put {β : Type*} (g : HashHandle → β) (hf : ∀ e, g (f e) = g e) (b : ℕ) :
    ((m.put a f).elems b).map g = (m.elems b).map g := by
  by_cases hb : b = a
  · subst hb
    rw [elems_put_self, Option.map_map]
    congr 1
    funext e
    exact hf e
  · rw [elems_put_of_ne hb]

theorem appWeb_put (hf : ∀ e, (f e).prev = e.prev ∧ (f e).next = e.next) :
    (m.put a f).appWeb = m.appWeb := by
  funext b
  apply view_put
  intro e
  rw [(hf e).1, (hf e).2]

theorem bktWeb_put (hf : ∀ e, (f e).hhPrev = e.hhPrev ∧ (f e).hhNext = e.hhNext) :
    (m.put a f).bktWeb = m.bktWeb := by
  funext b
  apply view_put
  intro e
  rw [(hf e).1, (hf e).2]

theorem label_put (hf : ∀ e, (f e).key = e.key ∧ (f e).hashv = e.hashv) :
    (m.put a f).label = m.label := by
  funext b
  apply view_put
  intro e
  rw [(hf e).1, (hf e).2]

/-- A store through a link, seen as a turn of that link. -/
theorem web_put (g : HashHandle → Links) (k : Links → Links) (hf : ∀ e, g (f e) = k (g e)) :
    (fun b => ((m.put a f).elems b).map g) =
      Function.update (fun b => (m.elems b).map g) a (((m.elems a).map g).map k) := by
  funext b
  by_cases hb : b = a
  · subst hb
    rw [elems_put_self, Function.update_self, Option.map_map, Option.map_map]
    congr 1
    funext e
    exact hf e
  · rw [elems_put_of_ne hb, Function.update_of_ne hb]

theorem appWeb_putAt_next : (m.putAt p fun e => { e with next := v }).appWeb =
    m.appWeb.patchNext p v := by
  cases p with
  | none => rfl
  | some a => exact web_put _ _ fun _ => rfl

theorem appWeb_putAt_prev : (m.putAt p fun e => { e with prev := v }).appWeb =
    m.appWeb.patchPrev p v := by
  cases p with
  | none => rfl
  | some a => exact web_put _ _ fun _ => rfl

theorem bktWeb_putAt_next : (m.putAt p fun e => { e with hhNext := v }).bktWeb =
    m.bktWeb.patchNext p v := by
  cases p with
  | none => rfl
  | some a => exact web_put _ _ fun _ => rfl

theorem bktWeb_putAt_prev : (m.putAt p fun e => { e with hhPrev := v }).bktWeb =
    m.bktWeb.patchPrev p v := by
  cases p with
  | none => rfl
  | some a => exact web_put _ _ fun _ => rfl

theorem appWeb_putAt (hf : ∀ e, (f e).prev = e.prev ∧ (f e).next = e.next) :
    (m.putAt p f).appWeb = m.appWeb := by
  cases p with
  | none => rfl
  | some a => exact appWeb_put hf

theorem bktWeb_putAt (hf : ∀ e, (f e).hhPrev = e.hhPrev ∧ (f e).hhNext = e.hhNext) :
    (m.putAt p f).bktWeb = m.bktWeb := by
  cases p with
  | none => rfl
  | some a => exact bktWeb_put hf

theorem label_putAt (hf : ∀ e, (f e).key = e.key ∧ (f e).hashv = e.hashv) :
    (m.putAt p f).label = m.label := by
  cases p with
  | none => rfl
  | some a => exact label_put hf

@[simp] theorem head_put : (m.put a f).head = m.head := rfl

@[simp] theorem head_putAt : (m.putAt p f).head = m.head := by
  cases p with
  | none => rfl
  | some a => rfl

@[simp] theorem table_putAt : (m.putAt p f).table = m.table := by
  cases p with
  | none => rfl
  | some a => rfl

end Views

end HashMem

section Chains
variable {α : Type}

/-- The handle of a table that stands for the element at an address; `elt` names the element. -/
def handleAt (elt : ℕ → α) (m : HashMem) (a : ℕ) : Option (Handle α) :=
  (m.label a).map fun l => ⟨l.1, l.2, elt a⟩

/-- A bucket whose links lead to the addresses `c`, and the bucket of the table. -/
structure ShowsBucket (m : HashMem) (elt : ℕ → α) (b : HashBucket) (c : List ℕ) (b' : Bucket α) :
    Prop where
  head : b.hhHead = c.head?
  linked : Linked m.bktWeb none c none
  nodup : c.Nodup
  chain : c.map (handleAt elt m) = b'.chain.map some
  count : b.count = b'.count
  expandMult : b.expandMult = b'.expandMult

/-- The buckets are those of the table, with the chains `chains`; the elements of `S` are in the
chain of their hash value. -/
structure Fills (m : HashMem) (elt : ℕ → α) (nb : UInt32) (bs : List HashBucket)
    (bs' : List (Bucket α)) (chains : ℕ → List ℕ) (S : Set ℕ) : Prop where
  length : bs.length = bs'.length
  bucket : ∀ (i : ℕ) b b', bs[i]? = some b → bs'[i]? = some b' →
    ShowsBucket m elt b (chains i) b'
  home : ∀ i < bs.length, ∀ a ∈ chains i,
    (m.label a).map (fun l => (hashToBkt l.2 nb).toNat) = some i
  mem : ∀ a, a ∈ S ↔ ∃ i < bs.length, a ∈ chains i

variable {m m' : HashMem} {elt elt' : ℕ → α} {nb : UInt32} {bs : List HashBucket}
  {bs' : List (Bucket α)} {chains : ℕ → List ℕ} {S : Set ℕ} {b : HashBucket} {b' : Bucket α}
  {c : List ℕ} {i : ℕ} {x : ℕ} {key : List UInt8} {hashv : UInt32}

theorem ShowsBucket.congr (h : ShowsBucket m elt b c b') (hweb : ∀ a ∈ c, m'.bktWeb a = m.bktWeb a)
    (hlabel : ∀ a ∈ c, m'.label a = m.label a) (helt : ∀ a ∈ c, elt' a = elt a) :
    ShowsBucket m' elt' b c b' where
  head := h.head
  linked := h.linked.congr hweb
  nodup := h.nodup
  chain := by
    rw [← h.chain]
    apply List.map_congr_left
    intro a ha
    rw [handleAt, handleAt, hlabel a ha, helt a ha]
  count := h.count
  expandMult := h.expandMult

theorem Fills.congr (F : Fills m elt nb bs bs' chains S) (hweb : ∀ a ∈ S, m'.bktWeb a = m.bktWeb a)
    (hlabel : ∀ a ∈ S, m'.label a = m.label a) (helt : ∀ a ∈ S, elt' a = elt a) :
    Fills m' elt' nb bs bs' chains S where
  length := F.length
  bucket i b b' hb hb' := by
    have hi : i < bs.length := (List.getElem?_eq_some_iff.mp hb).1
    have hS : ∀ a ∈ chains i, a ∈ S := fun a ha => (F.mem a).mpr ⟨i, hi, ha⟩
    exact (F.bucket i b b' hb hb').congr (fun a ha => hweb a (hS a ha))
      (fun a ha => hlabel a (hS a ha)) fun a ha => helt a (hS a ha)
  home i hi a ha := by
    rw [hlabel a ((F.mem a).mpr ⟨i, hi, ha⟩)]
    exact F.home i hi a ha
  mem := F.mem

/-- An element is in one chain. -/
theorem Fills.apart (F : Fills m elt nb bs bs' chains S) {i j : ℕ} (hi : i < bs.length)
    (hj : j < bs.length) {a : ℕ} (hai : a ∈ chains i) (haj : a ∈ chains j) : i = j :=
  Option.some.inj ((F.home i hi a hai).symm.trans (F.home j hj a haj))

theorem fills_empty (m : HashMem) (elt : ℕ → α) (nb : UInt32) (n : ℕ) :
    Fills m elt nb (List.replicate n ⟨none, 0, 0⟩) (List.replicate n Bucket.empty) (fun _ => []) ∅ where
  length := by rw [List.length_replicate, List.length_replicate]
  bucket i b b' hb hb' := by
    cases List.eq_of_mem_replicate (List.mem_of_getElem? hb)
    cases List.eq_of_mem_replicate (List.mem_of_getElem? hb')
    exact ⟨rfl, trivial, List.nodup_nil, rfl, rfl, rfl⟩
  home i _ a ha := absurd ha List.not_mem_nil
  mem a := by simp

def HashMem.pushed (m : HashMem) (b : HashBucket) (x : ℕ) : HashMem :=
  (m.put x fun e => { e with
    hhPrev := none
    hhNext := b.hhHead }).putAt b.hhHead fun e => { e with hhPrev := some x }

theorem appWeb_pushed : (m.pushed b x).appWeb = m.appWeb := by
  unfold HashMem.pushed
  rw [HashMem.appWeb_putAt, HashMem.appWeb_put]
  · exact fun _ => ⟨rfl, rfl⟩
  · exact fun _ => ⟨rfl, rfl⟩

theorem label_pushed : (m.pushed b x).label = m.label := by
  unfold HashMem.pushed
  rw [HashMem.label_putAt, HashMem.label_put]
  · exact fun _ => ⟨rfl, rfl⟩
  · exact fun _ => ⟨rfl, rfl⟩

theorem elems_pushed {a : ℕ} (hx : a ≠ x) (hb : a ∉ b.hhHead) :
    (m.pushed b x).elems a = m.elems a := by
  rw [HashMem.pushed, HashMem.elems_putAt_of_notMem hb, HashMem.elems_put_of_ne hx]

theorem bktWeb_of_elems {a : ℕ} (h : m'.elems a = m.elems a) : m'.bktWeb a = m.bktWeb a := by
  rw [HashMem.bktWeb, HashMem.bktWeb, h]

theorem ShowsBucket.push (hB : ShowsBucket m elt b c b') (hx : x ∉ c)
    (hlabel : m.label x = some (key, hashv)) (count mult : UInt32) :
    ShowsBucket (m.pushed b x) elt ⟨some x, count, mult⟩ (x :: c)
      ⟨⟨key, hashv, elt x⟩ :: b'.chain, count, mult⟩ where
  head := rfl
  linked := by
    have hwebs : (m.pushed b x).bktWeb = (m.put x fun e => { e with
        hhPrev := none
        hhNext := b.hhHead }).bktWeb.patchPrev b.hhHead (some x) := HashMem.bktWeb_putAt_prev
    have hold : Linked (m.put x fun e => { e with
        hhPrev := none
        hhNext := c.head? }).bktWeb none c none := by
      apply hB.linked.congr
      intro a ha
      apply bktWeb_of_elems
      apply HashMem.elems_put_of_ne
      rintro rfl
      exact hx ha
    rw [hwebs, hB.head]
    apply hold.push hB.nodup hx
    obtain ⟨e, he⟩ := Option.isSome_iff_exists.mp (HashMem.isSome_of_label hlabel)
    rw [HashMem.bktWeb, HashMem.elems_put_self, he, Option.or_none]
    rfl
  nodup := List.nodup_cons.mpr ⟨hx, hB.nodup⟩
  chain := by
    have hself : handleAt elt (m.pushed b x) x = some ⟨key, hashv, elt x⟩ := by
      rw [handleAt, label_pushed, hlabel]
      rfl
    have hrest : c.map (handleAt elt (m.pushed b x)) = b'.chain.map some := by
      rw [← hB.chain]
      apply List.map_congr_left
      intro a _
      rw [handleAt, handleAt, label_pushed]
    rw [List.map_cons, List.map_cons, hself, hrest]
  count := rfl
  expandMult := rfl

/-- The elements, seen from one bucket. -/
theorem Fills.mem_iff (F : Fills m elt nb bs bs' chains S) (hi : i < bs.length) (a : ℕ) :
    a ∈ S ↔ a ∈ chains i ∨ ∃ j < bs.length, j ≠ i ∧ a ∈ chains j := by
  rw [F.mem a]
  constructor
  · rintro ⟨j, hj, ha⟩
    by_cases hji : j = i
    · exact .inl (hji ▸ ha)
    · exact .inr ⟨j, hj, hji, ha⟩
  · rintro (ha | ⟨j, hj, -, ha⟩)
    · exact ⟨i, hi, ha⟩
    · exact ⟨j, hj, ha⟩

/-- A bucket gets another chain; the labels stay, and so do the elements of the other chains. -/
theorem Fills.replace (F : Fills m elt nb bs bs' chains S) (hi : i < bs.length)
    (hlabel : m'.label = m.label)
    (helems : ∀ j < bs.length, j ≠ i → ∀ a ∈ chains j, m'.elems a = m.elems a)
    (hB : ShowsBucket m' elt b c b')
    (hhome : ∀ a ∈ c, (m.label a).map (fun l => (hashToBkt l.2 nb).toNat) = some i) {S' : Set ℕ}
    (hmem : ∀ a, a ∈ S' ↔ a ∈ c ∨ ∃ j < bs.length, j ≠ i ∧ a ∈ chains j) :
    Fills m' elt nb (bs.set i b) (bs'.set i b') (Function.update chains i c) S' where
  length := by rw [List.length_set, List.length_set, F.length]
  bucket j d d' hd hd' := by
    by_cases hji : j = i
    · subst hji
      rw [List.getElem?_set_self hi] at hd
      rw [List.getElem?_set_self (F.length ▸ hi)] at hd'
      cases hd
      cases hd'
      rw [Function.update_self]
      exact hB
    · rw [List.getElem?_set_ne (Ne.symm hji)] at hd hd'
      rw [Function.update_of_ne hji]
      have hj : j < bs.length := (List.getElem?_eq_some_iff.mp hd).1
      exact (F.bucket j d d' hd hd').congr
        (fun a ha => bktWeb_of_elems (helems j hj hji a ha)) (fun a _ => by rw [hlabel])
        fun _ _ => rfl
  home j hj a ha := by
    rw [List.length_set] at hj
    rw [hlabel]
    by_cases hji : j = i
    · subst hji
      rw [Function.update_self] at ha
      exact hhome a ha
    · rw [Function.update_of_ne hji] at ha
      exact F.home j hj a ha
  mem a := by
    rw [hmem a, List.length_set]
    constructor
    · rintro (ha | ⟨j, hj, hji, ha⟩)
      · exact ⟨i, hi, by rwa [Function.update_self]⟩
      · exact ⟨j, hj, by rwa [Function.update_of_ne hji]⟩
    · rintro ⟨j, hj, ha⟩
      by_cases hji : j = i
      · subst hji
        rw [Function.update_self] at ha
        exact .inl ha
      · rw [Function.update_of_ne hji] at ha
        exact .inr ⟨j, hj, hji, ha⟩

theorem Fills.push (F : Fills m elt nb bs bs' chains S) (hx : x ∉ S)
    (hlabel : m.label x = some (key, hashv)) (hi : i = (hashToBkt hashv nb).toNat)
    (hb : bs[i]? = some b) (hb' : bs'[i]? = some b') (count mult : UInt32) :
    Fills (m.pushed b x) elt nb (bs.set i ⟨some x, count, mult⟩)
      (bs'.set i ⟨⟨key, hashv, elt x⟩ :: b'.chain, count, mult⟩)
      (Function.update chains i (x :: chains i)) (insert x S) := by
  have hlt : i < bs.length := (List.getElem?_eq_some_iff.mp hb).1
  have hB := F.bucket i b b' hb hb'
  have hnot : ∀ j < bs.length, x ∉ chains j := fun j hj hxj => hx ((F.mem x).mpr ⟨j, hj, hxj⟩)
  apply F.replace hlt label_pushed
  · intro j hj hji a ha
    apply elems_pushed
    · rintro rfl
      exact hnot j hj ha
    · intro hab
      rw [hB.head] at hab
      exact hji (F.apart hj hlt ha (List.mem_of_mem_head? hab))
  · exact hB.push (hnot i hlt) hlabel count mult
  · intro a ha
    rcases List.mem_cons.mp ha with rfl | ha
    · rw [hlabel, hi]
      rfl
    · exact F.home i hlt a ha
  · intro a
    rw [Set.mem_insert_iff, F.mem_iff hlt, List.mem_cons, or_assoc]

end Chains

section Expand
variable {α : Type} {m m₀ : HashMem} {elt : ℕ → α} {nb ideal : UInt32} {s : Moving} {r : Rehash α}
  {S : Set ℕ} {x : ℕ} {e : HashHandle} {b : HashBucket} {bs : List HashBucket}
  {bs' : List (Bucket α)} {chains : ℕ → List ℕ}

theorem pushed_eq (hx : (m.elems x).isSome) (hb : ∀ a ∈ b.hhHead, (m.elems a).isSome) :
    (m.modify x fun e => { e with
      hhPrev := none
      hhNext := b.hhHead }) >>= (fun m => m.modifyAt b.hhHead fun e => { e with hhPrev := some x }) =
      .ok (m.pushed b x) := by
  rw [HashMem.modify_eq hx, ok_bind, HashMem.modifyAt_eq fun a ha => HashMem.isSome_put (hb a ha)]
  rfl

theorem Fills.isSome (F : Fills m elt nb bs bs' chains S) {a : ℕ} (ha : a ∈ S) :
    (m.elems a).isSome := by
  obtain ⟨i, hi, hai⟩ := (F.mem a).mp ha
  have hhome := F.home i hi a hai
  rw [Option.map_eq_some_iff] at hhome
  obtain ⟨l, hl, -⟩ := hhome
  exact HashMem.isSome_of_label hl

theorem Fills.head_mem (F : Fills m elt nb bs bs' chains S) {i : ℕ} (hb : bs[i]? = some b) :
    ∀ a ∈ b.hhHead, a ∈ S := by
  intro a ha
  have hi : i < bs.length := (List.getElem?_eq_some_iff.mp hb).1
  have hi' : i < bs'.length := F.length ▸ hi
  have hhead := (F.bucket i b bs'[i] hb (List.getElem?_eq_getElem hi')).head
  rw [hhead] at ha
  exact (F.mem a).mpr ⟨i, hi, List.mem_of_mem_head? ha⟩

/-- How far the elements are moved: those of `S` are in the new buckets, the others as they were
in `m₀`. -/
structure MovingShows (m₀ : HashMem) (elt : ℕ → α) (nb : UInt32) (s : Moving) (r : Rehash α)
    (S : Set ℕ) : Prop where
  fills : ∃ chains, Fills s.mem elt nb s.buckets r.buckets chains S
  nonideal : s.nonidealItems = r.nonidealItems
  app : s.mem.appWeb = m₀.appWeb
  label : s.mem.label = m₀.label
  head : s.mem.head = m₀.head
  rest : ∀ a ∉ S, s.mem.elems a = m₀.elems a

theorem MovingShows.push (M : MovingShows m₀ elt nb s r S) (hx : x ∉ S)
    (he : m₀.elems x = some e) {b' : Bucket α} {i : ℕ} (hi : i = (hashToBkt e.hashv nb).toNat)
    (hb : s.buckets[i]? = some b) (hb' : r.buckets[i]? = some b') (count mult : UInt32)
    {nonideal nonideal' : UInt32} (hn : nonideal = nonideal') :
    MovingShows m₀ elt nb ⟨s.mem.pushed b x, s.buckets.set i ⟨some x, count, mult⟩, nonideal⟩
      ⟨r.buckets.set i ⟨⟨e.key, e.hashv, elt x⟩ :: b'.chain, count, mult⟩, nonideal'⟩
      (insert x S) := by
  obtain ⟨chains, F⟩ := M.fills
  have hlabel : s.mem.label x = some (e.key, e.hashv) := by
    rw [M.label, HashMem.label, he]
    rfl
  refine ⟨⟨_, F.push hx hlabel hi hb hb' count mult⟩, hn, appWeb_pushed.trans M.app,
    label_pushed.trans M.label, ?_, ?_⟩
  · rw [← M.head, HashMem.pushed, HashMem.head_putAt, HashMem.head_put]
  · intro a ha
    rw [Set.mem_insert_iff, not_or] at ha
    rw [elems_pushed ha.1 fun hab => ha.2 (F.head_mem hb a hab), M.rest a ha.2]

/-- One handle is moved in memory as in the lists. -/
theorem moveHandle_lockstep (M : MovingShows m₀ elt nb s r S) (hx : x ∉ S)
    (he : m₀.elems x = some e) :
    Lockstep (fun s' r' => MovingShows m₀ elt nb s' r' (insert x S))
      (moveHandle ideal nb s x e) (rehashHandle ideal nb r ⟨e.key, e.hashv, elt x⟩) := by
  obtain ⟨chains, F⟩ := id M.fills
  have hpresent : (s.mem.elems x).isSome := by
    rw [M.rest x hx, he]
    rfl
  unfold moveHandle rehashHandle
  dsimp only
  generalize hi : (hashToBkt e.hashv nb).toNat = i
  cases hb : s.buckets[i]? with
  | none =>
    have hb' : r.buckets[i]? = none := by
      rw [List.getElem?_eq_none_iff, ← F.length]
      exact List.getElem?_eq_none_iff.mp hb
    rw [hb']
    rfl
  | some b =>
    have hlt : i < r.buckets.length := F.length ▸ (List.getElem?_eq_some_iff.mp hb).1
    have hb' : r.buckets[i]? = some r.buckets[i] := List.getElem?_eq_getElem hlt
    have hB := F.bucket i b _ hb hb'
    have hstores := pushed_eq (b := b) hpresent fun a ha => F.isSome (F.head_mem hb a ha)
    rw [hb']
    dsimp only
    rw [hB.count, hB.expandMult, M.nonideal]
    by_cases hc : ideal < r.buckets[i].count + 1
    · rw [if_pos hc, if_pos hc]
      by_cases h0 : ideal = 0
      · rw [if_pos h0, if_pos h0]
        rfl
      · rw [if_neg h0, if_neg h0, ← bind_assoc, hstores]
        exact M.push hx he hi.symm hb hb' _ _ rfl
    · rw [if_neg hc, if_neg hc, ← bind_assoc, hstores]
      exact M.push hx he hi.symm hb hb' _ _ rfl

theorem moveChain_none (fuel : ℕ) : moveChain ideal nb fuel s none = .ok s := by
  cases fuel with
  | zero => rfl
  | succ fuel => rfl

/-- An old chain is moved handle by handle; the links behind a handle are read before it moves. -/
theorem moveChain_lockstep {c : List ℕ} {hs : List (Handle α)} {before : Option ℕ} {fuel : ℕ}
    (M : MovingShows m₀ elt nb s r S) (hl : Linked m₀.bktWeb before c none) (hn : c.Nodup)
    (hd : ∀ a ∈ c, a ∉ S) (hc : c.map (handleAt elt m₀) = hs.map some) (hf : c.length ≤ fuel) :
    Lockstep (fun s' r' => MovingShows m₀ elt nb s' r' (S ∪ {a | a ∈ c}))
      (moveChain ideal nb fuel s c.head?) (hs.foldlM (rehashHandle ideal nb) r) := by
  induction c generalizing s r S hs before fuel with
  | nil =>
    cases hs with
    | nil =>
      have hsame : S ∪ {a | a ∈ ([] : List ℕ)} = S := by simp
      rw [List.head?_nil, moveChain_none, hsame]
      exact M
    | cons h hs => cases hc
  | cons x c ih =>
    cases hs with
    | nil => cases hc
    | cons h hs =>
      rw [List.map_cons, List.map_cons, List.cons.injEq] at hc
      obtain ⟨hx, hc⟩ := hc
      obtain ⟨hnot, hn⟩ := List.nodup_cons.mp hn
      have hxS : x ∉ S := hd x List.mem_cons_self
      obtain ⟨⟨key, hashv⟩, hlabel, rfl⟩ := Option.map_eq_some_iff.mp hx
      obtain ⟨e, he, hkey⟩ := Option.map_eq_some_iff.mp hlabel
      obtain ⟨rfl, rfl⟩ := Prod.mk.inj hkey
      have hnext : e.hhNext = c.head? := hl.next_first (HashMem.bktLinks he)
      cases fuel with
      | zero => cases hf
      | succ fuel =>
        have hget : s.mem.get x = .ok e := HashMem.get_of_elems ((M.rest x hxS).trans he)
        have hall : S ∪ {a | a ∈ x :: c} = insert x S ∪ {a | a ∈ c} := by
          ext a
          simp only [Set.mem_union, Set.mem_ofPred_eq, List.mem_cons, Set.mem_insert_iff]
          tauto
        rw [List.head?_cons, moveChain, hget, ok_bind, List.foldlM_cons, hnext, hall]
        apply (moveHandle_lockstep M hxS he).bind
        intro s' r' M'
        apply ih M' hl.2 hn _ hc (Nat.le_of_succ_le_succ hf)
        intro a ha haS
        rcases Set.mem_insert_iff.mp haS with rfl | haS
        · exact hnot ha
        · exact hd a (List.mem_cons_of_mem x ha) haS

theorem moveBuckets_lockstep {fuel : ℕ} (M : MovingShows m₀ elt nb s r S)
    (hlen : bs.length = bs'.length)
    (hb : ∀ (i : ℕ) b b', bs[i]? = some b → bs'[i]? = some b' → ShowsBucket m₀ elt b (chains i) b')
    (hS : ∀ i < bs.length, ∀ a ∈ chains i, a ∉ S)
    (hd : ∀ i j, i < j → j < bs.length → ∀ a ∈ chains i, a ∉ chains j)
    (hf : ∀ i < bs.length, (chains i).length ≤ fuel) :
    Lockstep (fun s' r' => MovingShows m₀ elt nb s' r' (S ∪ {a | ∃ i < bs.length, a ∈ chains i}))
      (bs.foldlM (fun s b => moveChain ideal nb fuel s b.hhHead) s)
      ((bs'.flatMap Bucket.chain).foldlM (rehashHandle ideal nb) r) := by
  induction bs generalizing bs' chains S s r with
  | nil =>
    cases bs' with
    | nil =>
      have hsame : S ∪ {a | ∃ i < ([] : List HashBucket).length, a ∈ chains i} = S := by simp
      rw [hsame]
      exact M
    | cons b' bs' => cases hlen
  | cons b bs ih =>
    cases bs' with
    | nil => cases hlen
    | cons b' bs' =>
      have hB := hb 0 b b' rfl rfl
      have hfirst : 0 < (b :: bs).length := Nat.succ_pos _
      have hall : S ∪ {a | ∃ i < (b :: bs).length, a ∈ chains i} =
          S ∪ {a | a ∈ chains 0} ∪ {a | ∃ i < bs.length, a ∈ chains (i + 1)} := by
        ext a
        simp only [Set.mem_union, Set.mem_ofPred_eq, List.length_cons, or_assoc]
        refine or_congr_right ⟨?_, ?_⟩
        · rintro ⟨i, hi, ha⟩
          cases i with
          | zero => exact .inl ha
          | succ i => exact .inr ⟨i, Nat.lt_of_succ_lt_succ hi, ha⟩
        · rintro (ha | ⟨i, hi, ha⟩)
          · exact ⟨0, hfirst, ha⟩
          · exact ⟨i + 1, Nat.succ_lt_succ hi, ha⟩
      rw [List.foldlM_cons, List.flatMap_cons, List.foldlM_append, hB.head, hall]
      apply (moveChain_lockstep M hB.linked hB.nodup (hS 0 hfirst) hB.chain (hf 0 hfirst)).bind
      intro s' r' M'
      apply ih M' (Nat.succ.inj hlen)
      · exact fun i c c' hc hc' => hb (i + 1) c c' hc hc'
      · intro i hi a ha haS
        rcases haS with haS | ha0
        · exact hS (i + 1) (Nat.succ_lt_succ hi) a ha haS
        · exact hd 0 (i + 1) (Nat.succ_pos i) (Nat.succ_lt_succ hi) a ha0 ha
      · exact fun i j hij hj => hd (i + 1) (j + 1) (Nat.succ_lt_succ hij) (Nat.succ_lt_succ hj)
      · exact fun i hi => hf (i + 1) (Nat.succ_lt_succ hi)

structure SameCounters (t : HashTable) (t' : Table α) : Prop where
  numBuckets : t.numBuckets = t'.numBuckets
  log2NumBuckets : t.log2NumBuckets = t'.log2NumBuckets
  numItems : t.numItems = t'.numItems
  idealChainMaxlen : t.idealChainMaxlen = t'.idealChainMaxlen
  nonidealItems : t.nonidealItems = t'.nonidealItems
  ineffExpands : t.ineffExpands = t'.ineffExpands
  noexpand : t.noexpand = t'.noexpand

/-- The table in memory, with its elements in the order `order`, and the table. -/
structure ShowsTable (m : HashMem) (elt : ℕ → α) (order : List ℕ) (t : HashTable) (t' : Table α) :
    Prop where
  fills : ∃ chains, Fills m elt t.numBuckets t.buckets t'.buckets chains {a | a ∈ order}
  tail : t.tail = order.getLast?
  counters : SameCounters t t'

variable {order : List ℕ} {t : HashTable} {t' : Table α}

theorem Fills.length_le (F : Fills m elt nb bs bs' chains {a | a ∈ order}) {i : ℕ}
    (hi : i < bs.length) : (chains i).length ≤ order.length := by
  have hi' : i < bs'.length := F.length ▸ hi
  have hB := F.bucket i _ _ (List.getElem?_eq_getElem hi) (List.getElem?_eq_getElem hi')
  apply (List.subperm_of_subset hB.nodup _).length_le
  exact fun a ha => (F.mem a).mpr ⟨i, hi, ha⟩

/-- A doubling leaves the elements and their order. -/
structure Rechained (m₀ : HashMem) (elt : ℕ → α) (order : List ℕ) (m : HashMem) (t' : Table α) :
    Prop where
  table : ∃ t, m.table = some t ∧ ShowsTable m elt order t t'
  app : m.appWeb = m₀.appWeb
  label : m.label = m₀.label
  head : m.head = m₀.head
  rest : ∀ a ∉ order, m.elems a = m₀.elems a

theorem expandBuckets_lockstep {env : Env} {fuel : ℕ} (T : ShowsTable m elt order t t')
    (hf : order.length ≤ fuel) :
    Lockstep (Rechained m elt order) (expandBuckets env fuel m t) (hashExpandBuckets env t') := by
  obtain ⟨chains, F⟩ := T.fills
  have C := T.counters
  have hideal : t.idealAfter = t'.idealAfter := by
    rw [HashTable.idealAfter, Table.idealAfter, C.numItems, C.log2NumBuckets, C.numBuckets]
  have hstart : MovingShows m elt (t.numBuckets * 2)
      ⟨m, List.replicate (2 * t.numBuckets).toNat ⟨none, 0, 0⟩, 0⟩
      (⟨List.replicate (2 * t.numBuckets).toNat Bucket.empty, 0⟩ : Rehash α) ∅ :=
    ⟨⟨_, fills_empty m elt _ _⟩, rfl, rfl, rfl, rfl, fun _ _ => rfl⟩
  have hall : (∅ ∪ {a | ∃ i < t.buckets.length, a ∈ chains i} : Set ℕ) = {a | a ∈ order} := by
    ext a
    rw [Set.empty_union]
    exact (F.mem a).symm
  unfold expandBuckets hashExpandBuckets
  apply Lockstep.bind_same
  intro _ _
  rw [hideal, ← C.numBuckets, ← hideal]
  apply (moveBuckets_lockstep hstart F.length F.bucket (fun _ _ _ _ h => h) ?_
    fun i hi => (F.length_le hi).trans hf).bind
  · intro s r M
    rw [hall] at M
    obtain ⟨chains', F'⟩ := M.fills
    refine ⟨⟨_, rfl, ?_⟩, M.app, M.label, M.head, M.rest⟩
    refine ⟨⟨chains', F'.congr (fun _ _ => rfl) (fun _ _ => rfl) fun _ _ => rfl⟩, T.tail, ?_⟩
    constructor
    · rfl
    · exact congrArg (· + 1) C.log2NumBuckets
    · exact C.numItems
    · rfl
    · exact M.nonideal
    · simp only [C.numItems, M.nonideal, C.ineffExpands]
    · simp only [C.numItems, M.nonideal, C.ineffExpands, C.noexpand]
  · intro i j hij hj a hai haj
    exact absurd (F.apart (hij.trans hj) hj hai haj) hij.ne

end Expand

end AppMem.Hash
