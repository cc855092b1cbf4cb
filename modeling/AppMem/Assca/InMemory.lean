import AppMem.Assca.Pointers
import AppMem.Hash.InMemory

/-! # Arrays in memory serve as arrays

Whatever addresses the allocator hands out, an array in memory answers every sequence of writes,
reads and calls of iterators as the array of the model, faults included: no link leads to freed
memory or in a circle. A release then reaches every item and frees it once.
-/
namespace AppMem.Assca
open Library.Bytes Library.Checked Library.Doubly Library.TwoRuns Abi Memory Hash Pack Device

section Rekey
variable {m : HashMem} {elt : ℕ → ℕ} {order : List ℕ} {t : Table ℕ} {x : ℕ} {key : List UInt8}

theorem handleAt_put_key (hinj : Set.InjOn elt {a | a ∈ order}) (hx : x ∈ order) {a : ℕ}
    (ha : a ∈ order) : handleAt elt (m.put x fun e => { e with key := key }) a =
      (handleAt elt m a).map fun h => if h.elt = elt x then { h with key := key } else h := by
  rw [handleAt, handleAt, HashMem.label, HashMem.label]
  by_cases hax : a = x
  · subst hax
    rw [HashMem.elems_put_self]
    cases m.elems a with
    | none => rfl
    | some e => exact congrArg some (if_pos rfl).symm
  · rw [HashMem.elems_put_of_ne hax]
    cases m.elems a with
    | none => rfl
    | some e => exact congrArg some (if_neg fun h => hax (hinj ha hx h)).symm

/-- A key that changes in place changes in the handle of its item. -/
theorem shows_rekey (H : Shows m elt order (some t)) (hinj : Set.InjOn elt {a | a ∈ order})
    (hx : x ∈ order) : Shows (m.put x fun e => { e with key := key }) elt order
      (some (rekey (elt x) key t)) := by
  have hne : order ≠ [] := List.ne_nil_of_mem hx
  obtain ⟨s, t', -, htable, heq, HT⟩ := H.tbl_eq hne
  cases heq
  obtain ⟨chains, F⟩ := HT.fills
  have happ : (m.put x fun e => { e with key := key }).appWeb = m.appWeb :=
    HashMem.appWeb_put fun _ => ⟨rfl, rfl⟩
  have hbkt : (m.put x fun e => { e with key := key }).bktWeb = m.bktWeb :=
    HashMem.bktWeb_put fun _ => ⟨rfl, rfl⟩
  have F' : Fills (m.put x fun e => { e with key := key }) elt s.numBuckets s.buckets
      (rekey (elt x) key t).buckets chains {a | a ∈ order} := by
    constructor
    · rw [rekey, List.length_map, F.length]
    · intro i b b' hb hb'
      rw [rekey, List.getElem?_map, Option.map_eq_some_iff] at hb'
      obtain ⟨b₀, hb₀, rfl⟩ := hb'
      have hi : i < s.buckets.length := (List.getElem?_eq_some_iff.mp hb).1
      have hB := F.bucket i b b₀ hb hb₀
      refine ⟨hB.head, hbkt ▸ hB.linked, hB.nodup, ?_, hB.count, hB.expandMult⟩
      have hview : (chains i).map (handleAt elt (m.put x fun e => { e with key := key })) =
          ((chains i).map (handleAt elt m)).map
            (Option.map fun h => if h.elt = elt x then { h with key := key } else h) := by
        rw [List.map_map]
        apply List.map_congr_left
        intro a ha
        exact handleAt_put_key hinj hx ((F.mem a).mpr ⟨i, hi, ha⟩)
      rw [hview, hB.chain, List.map_map, List.map_map]
      rfl
    · intro i hi a ha
      have hhome := F.home i hi a ha
      rw [HashMem.label, Option.map_map] at hhome ⊢
      refine Eq.trans ?_ hhome
      apply HashMem.view_put
      exact fun _ => rfl
    · exact F.mem
  refine ⟨H.nodup, H.head, happ ▸ H.app, .inr ⟨hne, s, _, htable, rfl, ⟨chains, F'⟩, HT.tail, ?_⟩⟩
  have C := HT.counters
  exact ⟨C.numBuckets, C.log2NumBuckets, C.numItems, C.idealChainMaxlen, C.nonidealItems,
    C.ineffExpands, C.noexpand⟩

end Rekey

section Views
variable {s : AsscaMem} {order : List ℕ} {pAA : AmlibAssca} {a k : ℕ}

def AsscaMem.item (s : AsscaMem) (a : ℕ) : Option AsscaItem :=
  (s.hash.label a).map fun l => ⟨l.1, s.data a⟩

/-- The array of the model in memory, its items at the addresses `order`. -/
structure InMemory (s : AsscaMem) (order : List ℕ) (pAA : AmlibAssca) : Prop where
  keyLen : s.keyLen = pAA.keyLen
  dataLen : s.dataLen = pAA.dataLen
  fixed : (s.bFixedKey, s.bFixedData) = (pAA.bFixedKey, pAA.bFixedData)
  shows : Shows s.hash (fun a => order.idxOf a) order pAA.table
  items : order.map s.item = pAA.items.map some
  cursors : ∀ i, (s.pIterArray i).map some = (pAA.pIterArray i).map fun k => order[k]?
  alone : ∀ a ∉ order, s.hash.elems a = none
  table : order = [] → s.hash.table = none

theorem inMemory_init (keyLength dataLength : UInt32) (bFixedKey bFixedData : Bool) :
    InMemory (.init keyLength dataLength bFixedKey bFixedData) []
      (amlibAsscaInit keyLength dataLength bFixedKey bFixedData) :=
  ⟨rfl, rfl, rfl, shows_nil _ _ rfl, rfl, fun _ => rfl, fun _ _ => rfl, fun _ => rfl⟩

theorem idxOf_injOn (order : List ℕ) : Set.InjOn (fun a => order.idxOf a) {a | a ∈ order} :=
  fun _ ha _ _ h => List.idxOf_inj ha |>.mp h

theorem InMemory.length (I : InMemory s order pAA) : order.length = pAA.items.length := by
  have h := congrArg List.length I.items
  rwa [List.length_map, List.length_map] at h

theorem InMemory.item (I : InMemory s order pAA) (h : order[k]? = some a) :
    ∃ e, s.hash.elems a = some e ∧ pAA.items[k]? = some ⟨e.key, s.data a⟩ := by
  have hk : (order.map s.item)[k]? = (pAA.items.map some)[k]? := by rw [I.items]
  rw [List.getElem?_map, List.getElem?_map, h, Option.map_some, eq_comm,
    Option.map_eq_some_iff] at hk
  obtain ⟨pAI, hpAI, hitem⟩ := hk
  rw [AsscaMem.item, HashMem.label, Option.map_map, eq_comm, Option.map_eq_some_iff] at hitem
  obtain ⟨e, he, rfl⟩ := hitem
  exact ⟨e, he, hpAI⟩

theorem InMemory.next (I : InMemory s order pAA) (h : order[k]? = some a) {e : HashHandle}
    (he : s.hash.elems a = some e) : e.next = order[k + 1]? := by
  obtain ⟨hk, rfl⟩ := List.getElem?_eq_some_iff.mp h
  have hsplit : order = order.take k ++ order[k] :: order.drop (k + 1) := by
    rw [List.cons_getElem_drop_succ, List.take_append_drop]
  have happ := I.shows.app
  rw [hsplit] at happ
  exact (happ.beside (HashMem.appLinks he)).2.trans List.head?_drop

/-- Which cursors are `NULL` is the same. -/
theorem InMemory.getIter (I : InMemory s order pAA) (h : UInt32) :
    amAsscaGetIter s.cursors h = amAsscaGetIter pAA h := by
  have hfree : freeCursor s.cursors = freeCursor pAA := by
    have hnone : ∀ i, (s.pIterArray i).isNone = (pAA.pIterArray i).isNone := by
      intro i
      have hi := congrArg Option.isNone (I.cursors i)
      rwa [Option.isNone_map, Option.isNone_map] at hi
    rw [freeCursor, freeCursor]
    congr 1
    funext i
    exact hnone i
  rw [amAsscaGetIter, amAsscaGetIter, hfree]

theorem InMemory.items_set (I : InMemory s order pAA) (hk : order[k]? = some a) {s' : AsscaMem}
    {pAI : AsscaItem} (hold : ∀ c ∈ order, c ≠ a → s'.item c = s.item c)
    (hnew : s'.item a = some pAI) : order.map s'.item = (pAA.items.set k pAI).map some := by
  rw [List.map_set, ← I.items]
  apply List.ext_getElem?
  intro j
  rw [List.getElem?_set, List.getElem?_map, List.getElem?_map]
  by_cases hj : k = j
  · subst hj
    have hlt : k < (order.map s.item).length := by
      rw [List.length_map]
      exact (List.getElem?_eq_some_iff.mp hk).1
    rw [if_pos rfl, if_pos hlt, hk, Option.map_some, hnew]
  · rw [if_neg hj]
    cases hc : order[j]? with
    | none => rfl
    | some c =>
      have hne : c ≠ a := by
        rintro rfl
        apply hj
        exact (I.shows.nodup.getElem_inj_iff.mp
          ((List.getElem?_eq_some_iff.mp hk).2.trans (List.getElem?_eq_some_iff.mp hc).2.symm))
      rw [Option.map_some, Option.map_some, hold c (List.mem_of_getElem? hc) hne]

theorem InMemory.idxOf (I : InMemory s order pAA) (hk : order[k]? = some a) :
    order.idxOf a = k := by
  obtain ⟨hlt, rfl⟩ := List.getElem?_eq_some_iff.mp hk
  exact I.shows.nodup.idxOf_getElem k hlt

end Views

section Operations
variable {s : AsscaMem} {order : List ℕ} {pAA : AmlibAssca} {a k fuel : ℕ} {b : Build}
  {flags : UInt32} {p1 p2 : List UInt8} {env : Env}

theorem InMemory.getKeyVal (I : InMemory s order pAA) (hf : order.length ≤ fuel) :
    Lockstep (fun r r' => InMemory r.1 order r'.1 ∧ r.2 = r'.2)
      (s.getKeyVal fuel b flags p1 p2) (amlibAsscaGetKeyVal b flags pAA p1 p2) := by
  rcases I.shows.table with ⟨rfl, hT⟩ | ⟨hne, t, t', -, hT, -⟩
  · have hhead : s.hash.head = none := I.shows.head
    unfold AsscaMem.getKeyVal amlibAsscaGetKeyVal
    rw [hhead, hT]
    exact ⟨I, rfl⟩
  · obtain ⟨first, rest, hcons⟩ := List.exists_cons_of_ne_nil hne
    have hhead : s.hash.head = some first := by
      rw [I.shows.head, hcons]
      rfl
    have hfind : ∀ key, Lockstep (fun o h => o.map (handleAt (fun a => order.idxOf a) s.hash) =
        h.map some ∧ ∀ a ∈ o, a ∈ order) (find fuel s.hash key) (hashFind (some t') key) :=
      fun key => hT ▸ find_lockstep I.shows hf
    unfold AsscaMem.getKeyVal amlibAsscaGetKeyVal
    rw [hhead, hT]
    dsimp only
    rw [I.keyLen, I.dataLen]
    apply Lockstep.bind_same
    intro key _
    apply (hfind key).bind
    rintro o h ⟨hfound, hmem⟩
    cases o with
    | none =>
      cases h with
      | none => exact ⟨I, rfl⟩
      | some h => cases hfound
    | some a =>
      cases h with
      | none => cases hfound
      | some h =>
        have ha : order[order.idxOf a]? = some a := List.getElem?_idxOf (hmem a rfl)
        obtain ⟨e, he, hitem⟩ := I.item ha
        have helt : h.elt = order.idxOf a := by
          have hat := Option.some.inj hfound
          rw [handleAt, Option.map_eq_some_iff] at hat
          obtain ⟨l, -, rfl⟩ := hat
          rfl
        dsimp only
        rw [HashMem.get_of_elems he, ok_bind, helt, hitem]
        apply Lockstep.bind_same
        rintro ⟨out, data⟩ _
        refine ⟨⟨rfl, rfl, I.fixed, hT ▸ I.shows, ?_, I.cursors, I.alone, I.table⟩, rfl⟩
        apply I.items_set ha
        · intro c _ hca
          rw [AsscaMem.item, AsscaMem.item]
          dsimp only
          rw [Function.update_of_ne hca]
        · rw [AsscaMem.item, HashMem.label, he]
          dsimp only
          rw [Function.update_self]
          rfl

def grown (order : List ℕ) (x : ℕ) (stored : Bool) : List ℕ := if stored then order ++ [x] else order

/-- `amlib_assca_add_key_fixfix`, at an address that is not in use. -/
theorem InMemory.addKeyFixfix {block : ItemBlock} (I : InMemory s order pAA)
    (hx : env.alloc .asscaItem = true → block.addr ∉ order) (hf : order.length < fuel) :
    Lockstep (fun r r' => InMemory r.1 (grown order block.addr (env.alloc .asscaItem)) r'.1 ∧
        r.2 = r'.2)
      (s.addKeyFixfix fuel env block p1 p2) (amlibAsscaAddKeyFixfix env pAA p1 p2) := by
  obtain ⟨hkey, hdata⟩ := Prod.mk.inj I.fixed
  unfold AsscaMem.addKeyFixfix amlibAsscaAddKeyFixfix
  rw [hkey, hdata, I.keyLen, I.dataLen]
  apply Lockstep.bind_same
  intro _ _
  cases henv : env.alloc .asscaItem with
  | false =>
    rw [if_neg Bool.false_ne_true, if_neg Bool.false_ne_true]
    exact ⟨I, rfl⟩
  | true =>
    have hx := hx henv
    rw [if_pos rfl, if_pos rfl]
    apply Lockstep.bind_same
    intro data _
    apply Lockstep.bind_same
    intro key _
    let x := block.addr
    let m : HashMem := { s.hash with elems := Function.update s.hash.elems x (some block.junk) }
    have hne : ∀ a ∈ order, a ≠ x := by
      rintro a ha rfl
      exact hx ha
    have hold : ∀ a ∈ order, m.elems a = s.hash.elems a := fun a ha =>
      Function.update_of_ne (hne a ha) _ _
    have H : Shows m (fun a => (order ++ [x]).idxOf a) order pAA.table :=
      I.shows.congr rfl rfl hold fun a ha => List.idxOf_append_of_mem ha
    have hthere : (m.elems x).isSome := by
      change (Function.update s.hash.elems x _ x).isSome
      rw [Function.update_self]
      rfl
    have helt : (order ++ [x]).idxOf x = pAA.items.length := by
      rw [List.idxOf_append_of_notMem hx, List.idxOf_cons_self, Nat.add_zero, I.length]
    have hadd : Lockstep (fun m' t' => Shows m' (fun a => (order ++ [x]).idxOf a) (order ++ [x])
          (some t') ∧ Added m order x key m')
        (addKeyptr env fuel m key x) (hashAddKeyptr env pAA.table key pAA.items.length) :=
      helt ▸ addKeyptr_lockstep H hx hthere hf
    apply hadd.bind
    rintro m' t' ⟨H', A⟩
    refine ⟨⟨rfl, rfl, rfl, H', ?_, fun i => ?_, fun a ha => ?_, fun h => ?_⟩, rfl⟩
    · change (order ++ [x]).map _ = (pAA.items ++ [(⟨key, data⟩ : AsscaItem)]).map some
      rw [List.map_append, List.map_append, ← I.items, List.map_singleton, List.map_singleton]
      congr 1
      · apply List.map_congr_left
        intro a ha
        have hlabel : m'.label a = s.hash.label a := by
          rw [A.old a ha, HashMem.label, HashMem.label, hold a ha]
        rw [AsscaMem.item, AsscaMem.item]
        dsimp only
        rw [hlabel, Function.update_of_ne (hne a ha)]
      · rw [AsscaMem.item]
        dsimp only
        rw [A.new, Function.update_self]
        rfl
    · have hi := I.cursors i
      change (s.pIterArray i).map some = (pAA.pIterArray i).map _
      rw [hi]
      cases hc : pAA.pIterArray i with
      | none => rfl
      | some k =>
        rw [hc] at hi
        cases hs : s.pIterArray i with
        | none =>
          rw [hs] at hi
          cases hi
        | some a =>
          rw [hs] at hi
          have hk : order[k]? = some a := (Option.some.inj hi).symm
          have hlt : k < order.length := (List.getElem?_eq_some_iff.mp hk).1
          rw [Option.map_some, Option.map_some, grown, if_pos rfl, List.getElem?_append_left hlt]
    · have hax : a ≠ x := by
        rintro rfl
        exact ha (List.mem_append_right _ (List.mem_singleton_self x))
      change m'.elems a = none
      rw [A.rest a ha]
      change Function.update s.hash.elems x _ a = none
      rw [Function.update_of_ne hax]
      exact I.alone a fun h => ha (List.mem_append_left _ h)
    · exact absurd h (List.append_ne_nil_of_right_ne_nil _ (List.cons_ne_nil _ _))

theorem InMemory.setCursor (I : InMemory s order pAA) (i : Fin maxAsscaIters) {c c' : Option ℕ}
    (hc : c.map some = c'.map fun k => order[k]?) :
    InMemory (s.setCursor i c) order (pAA.setCursor i c') where
  keyLen := I.keyLen
  dataLen := I.dataLen
  fixed := I.fixed
  shows := I.shows
  items := I.items
  cursors j := by
    rw [AsscaMem.setCursor, AmlibAssca.setCursor]
    dsimp only
    by_cases hj : j = i
    · subst hj
      rw [Function.update_self, Function.update_self]
      exact hc
    · rw [Function.update_of_ne hj, Function.update_of_ne hj]
      exact I.cursors j
  alone := I.alone
  table := I.table

theorem InMemory.setItem (I : InMemory s order pAA) (hk : order[k]? = some a) (pAI : AsscaItem) :
    InMemory (s.setItem a pAI) order (pAA.setItem k pAI) where
  keyLen := I.keyLen
  dataLen := I.dataLen
  fixed := I.fixed
  shows := by
    have ha : a ∈ order := List.mem_of_getElem? hk
    rcases I.shows.table with ⟨hnil, -⟩ | ⟨-, t, t', -, hT, -⟩
    · exact absurd hnil (List.ne_nil_of_mem ha)
    · rw [AsscaMem.setItem, AmlibAssca.setItem, hT, Option.map_some, ← I.idxOf hk]
      exact shows_rekey (hT ▸ I.shows) (idxOf_injOn order) ha
  items := by
    obtain ⟨e, he, -⟩ := I.item hk
    apply I.items_set hk
    · intro c _ hca
      rw [AsscaMem.item, AsscaMem.item, AsscaMem.setItem, HashMem.label, HashMem.label]
      dsimp only
      rw [HashMem.elems_put_of_ne hca, Function.update_of_ne hca]
    · rw [AsscaMem.item, AsscaMem.setItem, HashMem.label]
      dsimp only
      rw [HashMem.elems_put_self, he, Function.update_self]
      rfl
  cursors := I.cursors
  alone c hc := by
    have hca : c ≠ a := fun h => hc (h ▸ List.mem_of_getElem? hk)
    exact (HashMem.elems_put_of_ne hca).trans (I.alone c hc)
  table := I.table

theorem InMemory.iter (I : InMemory s order pAA) (l1 l2 : UInt64) (h : UInt32) :
    Lockstep (fun r r' => InMemory r.1 order r'.1 ∧ r.2 = r'.2)
      (s.iter b flags p1 l1 p2 l2 h) (asscaIter b flags pAA p1 l1 p2 l2 h) := by
  unfold AsscaMem.iter asscaIter
  rw [I.getIter h]
  dsimp only
  generalize amAsscaGetIter pAA h = localIter
  apply Lockstep.ite
  · intro _
    have hcursor : (if h &&& (asscaIterFlagReset ||| asscaIterFlagNew) ≠ 0 then s.hash.head
        else s.pIterArray (getIterIdx localIter)).map some =
        (if h &&& (asscaIterFlagReset ||| asscaIterFlagNew) ≠ 0 then
          (if pAA.items = [] then none else some 0)
          else pAA.pIterArray (getIterIdx localIter)).map fun k => order[k]? := by
      split
      · rw [I.shows.head]
        by_cases hnil : pAA.items = []
        · have hlen : order.length = 0 := by rw [I.length, hnil, List.length_nil]
          rw [if_pos hnil, List.eq_nil_of_length_eq_zero hlen]
          rfl
        · have hne : order ≠ [] := by
            rintro rfl
            exact hnil (List.eq_nil_of_length_eq_zero I.length.symm)
          obtain ⟨a, rest, rfl⟩ := List.exists_cons_of_ne_nil hne
          rw [if_neg hnil]
          rfl
      · exact I.cursors _
    generalize (if h &&& (asscaIterFlagReset ||| asscaIterFlagNew) ≠ 0 then s.hash.head
      else s.pIterArray (getIterIdx localIter)) = c at hcursor ⊢
    generalize (if h &&& (asscaIterFlagReset ||| asscaIterFlagNew) ≠ 0 then
      (if pAA.items = [] then none else some 0)
      else pAA.pIterArray (getIterIdx localIter)) = c' at hcursor ⊢
    cases c with
    | none =>
      cases c' with
      | none => exact ⟨I, rfl⟩
      | some k => cases hcursor
    | some a =>
      cases c' with
      | none => cases hcursor
      | some k =>
        have hk : order[k]? = some a := (Option.some.inj hcursor).symm
        obtain ⟨e, he, hitem⟩ := I.item hk
        have hnext : e.next.map some = (pAA.next k).map fun k => order[k]? := by
          rw [I.next hk he, AmlibAssca.next, ← I.length]
          split
          · rename_i hlt
            rw [List.getElem?_eq_getElem hlt, Option.map_some, Option.map_some,
              List.getElem?_eq_getElem hlt]
          · rename_i hge
            rw [List.getElem?_eq_none (Nat.le_of_not_lt hge)]
            rfl
        have I' := I.setCursor (getIterIdx localIter) hnext
        dsimp only
        rw [HashMem.get_of_elems he, ok_bind, hitem]
        apply Lockstep.bind_same
        intro key _
        apply Lockstep.bind_same
        intro data _
        by_cases hb : b.direct flags = true
        · rw [if_pos hb, if_pos hb]
          exact ⟨I', rfl⟩
        · rw [if_neg hb, if_neg hb]
          exact ⟨I'.setItem hk _, rfl⟩
  · intro _
    exact ⟨I.setCursor _ rfl, rfl⟩

end Operations

section Run
variable {s : AsscaMem} {order : List ℕ} {pAA : AmlibAssca} {fuel : ℕ} {b : Build} {flags : UInt32}

/-- One use of the array in memory and of the array; a write may take one more address. -/
theorem InMemory.step (I : InMemory s order pAA) {u : MemUse} (hx : ∀ x ∈ u.block?, x ∉ order)
    (hf : order.length < fuel) :
    Lockstep (fun r r' => (∃ more, InMemory r.1 (order ++ more) r'.1 ∧
        (more = [] ∨ ∃ x ∈ u.block?, more = [x])) ∧ r.2 = r'.2)
      (s.step fuel b flags u) (access b flags pAA u.use) := by
  cases u with
  | write env block p1 p2 =>
    have hfresh : env.alloc .asscaItem = true → block.addr ∉ order := fun henv =>
      hx block.addr (if_pos henv)
    apply (I.addKeyFixfix hfresh hf).bind
    rintro r r' ⟨I', hr⟩
    refine ⟨?_, hr ▸ rfl⟩
    unfold grown at I'
    split at I'
    · rename_i henv
      exact ⟨[block.addr], I', .inr ⟨block.addr, if_pos henv, rfl⟩⟩
    · exact ⟨[], (List.append_nil order).symm ▸ I', .inl rfl⟩
  | read p1 p2 =>
    apply (I.getKeyVal hf.le).bind
    rintro r r' ⟨I', hr⟩
    rw [hr]
    apply Lockstep.bind_same
    intro buf _
    exact ⟨⟨[], (List.append_nil order).symm ▸ I', .inl rfl⟩, rfl⟩
  | iter p1 l1 p2 l2 h =>
    apply (I.iter l1 l2 h).bind
    rintro r r' ⟨I', hr⟩
    rw [hr]
    apply Lockstep.bind_same
    intro buf1 _
    apply Lockstep.bind_same
    intro buf2 _
    exact ⟨⟨[], (List.append_nil order).symm ▸ I', .inl rfl⟩, rfl⟩

theorem InMemory.run (I : InMemory s order pAA) {us : List MemUse}
    (hfresh : (order ++ us.filterMap MemUse.block?).Nodup) (hf : order.length + us.length ≤ fuel) :
    Lockstep (fun r r' => (∃ order', InMemory r.1 order' r'.1 ∧ order'.length ≤ fuel) ∧ r.2 = r'.2)
      (trace (AsscaMem.step fuel b flags) s us)
      (trace (access b flags) pAA (us.map MemUse.use)) := by
  induction us generalizing s order pAA with
  | nil => exact ⟨⟨order, I, hf⟩, rfl⟩
  | cons u us ih =>
    have hblocks : (u :: us).filterMap MemUse.block? =
        u.block?.toList ++ us.filterMap MemUse.block? := by
      rw [List.filterMap_cons]
      cases u.block? with
      | none => rfl
      | some x => rfl
    rw [hblocks, ← List.append_assoc] at hfresh
    rw [List.length_cons] at hf
    have hx : ∀ x ∈ u.block?, x ∉ order := fun x hx hxo =>
      (List.nodup_append.mp (List.nodup_append.mp hfresh).1).2.2 x hxo x
        (Option.mem_toList.mpr hx) rfl
    rw [List.map_cons, trace_cons, trace_cons]
    apply (I.step hx (by omega)).bind
    rintro r r' ⟨⟨more, I', hmore⟩, hr⟩
    have hsub : more.Sublist u.block?.toList ∧ more.length ≤ 1 := by
      rcases hmore with rfl | ⟨x, hxu, rfl⟩
      · exact ⟨List.nil_sublist _, Nat.zero_le 1⟩
      · rw [Option.mem_def.mp hxu]
        exact ⟨List.Sublist.refl _, le_rfl⟩
    have hfresh' : (order ++ more ++ us.filterMap MemUse.block?).Nodup :=
      hfresh.sublist ((hsub.1.append_left order).append_right _)
    have hf' : (order ++ more).length + us.length ≤ fuel := by
      rw [List.length_append]
      omega
    apply (ih I' hfresh' hf').bind
    rintro t t' ⟨hend, ht⟩
    exact ⟨hend, by rw [hr, ht]⟩

/-- A release walks through the items and frees each. -/
theorem InMemory.release (I : InMemory s order pAA) (hf : order.length ≤ fuel) :
    ∃ s', s.release fuel = .ok s' ∧ s'.hash = ⟨fun _ => none, none, none⟩ := by
  obtain ⟨m', hrel, hhead, htable, hgone, hrest⟩ :=
    releaseFrom_eq I.shows (idxOf_injOn order) hf
  refine ⟨{ s with hash := m' }, ?_, ?_⟩
  · rw [AsscaMem.release, I.shows.head, hrel]
    rfl
  · have helems : m'.elems = fun _ => none := by
      funext a
      by_cases ha : a ∈ order
      · exact hgone a ha
      · exact (hrest a ha).trans (I.alone a ha)
    have htbl : m'.table = none := by
      by_cases hnil : order = []
      · subst hnil
        rw [List.head?_nil, releaseFrom_none] at hrel
        cases hrel
        exact I.table rfl
      · exact htable hnil
    obtain ⟨elems, head, table⟩ := m'
    cases helems
    cases hhead
    cases htbl
    rfl

end Run

section Function

theorem useStep_outputs {b : Build} {f : MemFunction} {fd : AsscaData}
    (hf : f.pVdF = some (.assca fd)) (uses : List AsscaUse) :
    (trace (useStep b) f uses).map Prod.snd = (trace (access b fd.flags) fd.data uses).map Prod.snd := by
  let R : MemFunction → AmlibAssca → Prop := fun f pAA =>
    ∃ fd', f.pVdF = some (.assca fd') ∧ fd'.flags = fd.flags ∧ fd'.data = pAA
  have hstep : ∀ f pAA use, R f pAA → Lockstep (fun r r' => R r.1 r'.1 ∧ r.2 = r'.2)
      (useStep b f use) (access b fd.flags pAA use) := by
    rintro f pAA use ⟨fd', hf', hflags, rfl⟩
    rw [useStep_eq hf', hflags]
    cases access b fd.flags fd'.data use with
    | error e => rfl
    | ok r => exact ⟨⟨{ fd' with data := r.1 }, rfl, hflags, rfl⟩, rfl⟩
  exact (trace_lockstep hstep (⟨fd, hf, rfl, rfl⟩ : R f fd.data) uses).outputs

/-- An array in memory, however the allocator places its items, serves every sequence of uses as
the function of the model does, and a release then leaves nothing of it. -/
theorem inMemory_serves {f : MemFunction} {fd : AsscaData} {keyLength dataLength : UInt32}
    {bFixedKey bFixedData : Bool} (hf : f.pVdF = some (.assca fd))
    (hd : fd.data = amlibAsscaInit keyLength dataLength bFixedKey bFixedData) (b : Build)
    {us : List MemUse} (hfresh : (us.filterMap MemUse.block?).Nodup) {fuel : ℕ}
    (hfuel : us.length ≤ fuel) :
    (trace (AsscaMem.step fuel b fd.flags) (.init keyLength dataLength bFixedKey bFixedData) us).map
        Prod.snd = (trace (useStep b) f (us.map MemUse.use)).map Prod.snd ∧
      ∀ s os, trace (AsscaMem.step fuel b fd.flags)
          (.init keyLength dataLength bFixedKey bFixedData) us = .ok (s, os) →
        ∃ s', s.release fuel = .ok s' ∧ s'.hash = ⟨fun _ => none, none, none⟩ := by
  have hstart := inMemory_init keyLength dataLength bFixedKey bFixedData
  have hlock : Lockstep (fun r r' => (∃ order', InMemory r.1 order' r'.1 ∧ order'.length ≤ fuel) ∧
        r.2 = r'.2)
      (trace (AsscaMem.step fuel b fd.flags) (.init keyLength dataLength bFixedKey bFixedData) us)
      (trace (access b fd.flags) (amlibAsscaInit keyLength dataLength bFixedKey bFixedData)
        (us.map MemUse.use)) := by
    apply hstart.run hfresh
    rwa [List.length_nil, Nat.zero_add]
  constructor
  · rw [useStep_outputs hf, hd]
    exact hlock.outputs
  · intro s os hrun
    obtain ⟨r, -, ⟨order, I, hlen⟩, -⟩ := hlock.ok_left hrun
    exact I.release hlen

/-- Two writes of one key with a value of four bytes, at descending addresses, and what is read. -/
def scattered : List MemUse :=
  [.write .zeroed ⟨96, ⟨none, some 5, some 96, none, [], 0⟩⟩ [1, 1, 1, 1] [2, 2, 2, 2],
    .write .zeroed ⟨32, ⟨some 7, none, none, none, [9], 3⟩⟩ [1, 1, 1, 1] [3, 3, 3, 3],
    .read [1, 1, 1, 1] [0, 0, 0, 0], .iter [0, 0, 0, 0] 4 [0, 0, 0, 0] 4 asscaIterFlagNew]

theorem inMemory_serves_scattered : ∃ s s',
    trace (AsscaMem.step 4 .user 0) (.init 4 4 true true) scattered = .ok (s,
      [⟨amRetGood, 0, [1, 1, 1, 1], [2, 2, 2, 2]⟩, ⟨amRetGood, 0, [1, 1, 1, 1], [3, 3, 3, 3]⟩,
        ⟨amRetGood, 0, [1, 1, 1, 1], [3, 3, 3, 3]⟩,
        ⟨amRetGood, iterHandle 0, [1, 1, 1, 1], [2, 2, 2, 2]⟩]) ∧
      s.release 4 = .ok s' ∧ s'.hash = ⟨fun _ => none, none, none⟩ := by
  have hserve := inMemory_serves (f := asscaFour 0) rfl rfl .user
    (by decide : (scattered.filterMap MemUse.block?).Nodup) (by decide : scattered.length ≤ 4)
  have houtputs : (trace (useStep .user) (asscaFour 0) (scattered.map MemUse.use)).map Prod.snd =
      .ok [⟨amRetGood, 0, [1, 1, 1, 1], [2, 2, 2, 2]⟩, ⟨amRetGood, 0, [1, 1, 1, 1], [3, 3, 3, 3]⟩,
        ⟨amRetGood, 0, [1, 1, 1, 1], [3, 3, 3, 3]⟩,
        ⟨amRetGood, iterHandle 0, [1, 1, 1, 1], [2, 2, 2, 2]⟩] := by
    decide +kernel
  rw [houtputs, except_map_eq_ok] at hserve
  obtain ⟨⟨⟨s, os⟩, hrun, rfl⟩, hrelease⟩ := hserve
  obtain ⟨s', hs'⟩ := hrelease s _ hrun
  exact ⟨s, s', hrun, hs'⟩

end Function

end AppMem.Assca
