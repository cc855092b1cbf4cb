import AppMem.Assca.LoneIterator

/-! # Iterators while others write

A new item goes to the end of the list, so that an iterator on its way still meets it. One that has
got the last item has no cursor any more: its next call ends it, whatever was written since.
-/
namespace AppMem.Assca
open Library.Bytes Library.Checked Library.Machine Abi Memory Device

section System

/-- What was stored when an iterator began, and when it was given its last entry. -/
structure Sighting where
  began : List Entry
  last : List Entry

structure GrowingSystem where
  sys : IterSystem
  seen : List Sighting

inductive GrowAct
  | iter (a : IterAct)
  | write (env : Env) (p1 p2 : List UInt8)
  | read (p1 p2 : List UInt8)

namespace GrowingSystem

def meet (s : IterSystem) (seen : List Sighting) : IterAct → IterSystem → List Sighting
  | .start, _ => seen ++ [⟨entries s.pAA, entries s.pAA⟩]
  | .next j, t => match t.iters[j]?, seen[j]? with
    | some c, some x => if c.ended = none then seen.set j { x with last := entries s.pAA } else seen
    | _, _ => seen

def withArray (s : GrowingSystem) (pAA : AmlibAssca) : GrowingSystem :=
  { s with sys := { s.sys with pAA := pAA } }

/-- An access that does not come back is no step, nor is a fifth iterator or a call of one that has
ended. -/
def step (flags : UInt32) (s : GrowingSystem) : GrowAct → Option GrowingSystem
  | .iter a => (s.sys.step flags a).map fun t => ⟨t, meet s.sys s.seen a t⟩
  | .write env p1 p2 =>
    (amlibAsscaAddKeyFixfix env s.sys.pAA p1 p2).toOption.map fun r => s.withArray r.1
  | .read p1 p2 =>
    (amlibAsscaGetKeyVal .user flags s.sys.pAA p1 p2).toOption.map fun r => s.withArray r.1

end GrowingSystem

/-- A new iterator is not given the cursor of one that is still open. -/
def OwnCursor (s : GrowingSystem) : GrowAct → Prop
  | .iter .start => ∀ i, freeCursor s.sys.pAA = some i →
      ∀ c ∈ s.sys.iters, c.ended = none → c.handle ≠ iterHandle i
  | _ => True

instance (s : GrowingSystem) (a : GrowAct) : Decidable (OwnCursor s a) :=
  match a with
  | .iter .start => inferInstanceAs (Decidable (∀ i, freeCursor s.sys.pAA = some i →
      ∀ c ∈ s.sys.iters, c.ended = none → c.handle ≠ iterHandle i))
  | .iter (.next _) => .isTrue trivial
  | .write _ _ _ => .isTrue trivial
  | .read _ _ => .isTrue trivial

/-- What an iterator was given: the first entries in the order of their insertion, and at its end
all that were stored when it was given the last one, among them all that were stored when it
began. -/
structure CaughtUp (pAA : AmlibAssca) (c : IterClient) (x : Sighting) : Prop where
  began : x.began <+: x.last
  last : x.last <+: entries pAA
  yielded : c.yielded <+: entries pAA
  ended : ∀ e, c.ended = some e → e = amRetIterDone ∧ c.yielded = x.last

/-- No call of an iterator faults, and every iterator is right. -/
structure Consistent (s : GrowingSystem) : Prop where
  fault : s.sys.fault = none
  counted : s.seen.length = s.sys.iters.length
  caughtUp : ∀ (j : ℕ) (c : IterClient) (x : Sighting), s.sys.iters[j]? = some c →
    s.seen[j]? = some x → CaughtUp s.sys.pAA c x

end System

section Calls
variable {flags : UInt32} {s : IterSystem} {i : Fin maxAsscaIters} {k : ℕ} {pAI : AsscaItem}

theorem call_item (S : Sized s.pAA) (hcur : s.pAA.pIterArray i = some k)
    (hitem : s.pAA.items[k]? = some pAI) : s.call flags (iterHandle i) =
      .ok (s.pAA.setCursor i (s.pAA.next k), ⟨amRetGood, iterHandle i, pAI.key, pAI.data⟩) := by
  have hget := amAsscaGetIter_iterHandle s.pAA i
  have hvalid : amAsscaGetIter s.pAA (iterHandle i) ≠ asscaIterInvalid := by
    rw [hget]
    exact iterHandle_ne_invalid i
  have hcur' : (if iterHandle i &&& (asscaIterFlagReset ||| asscaIterFlagNew) ≠ 0 then
      (if s.pAA.items = [] then none else some 0)
      else s.pAA.pIterArray (getIterIdx (amAsscaGetIter s.pAA (iterHandle i)))) = some k := by
    rw [if_neg (iterHandle_not_head i), hget, getIterIdx_iterHandle, hcur]
  rw [IterSystem.call, asscaIter_item (Build.direct_user flags) S hvalid hcur' hitem, hget,
    getIterIdx_iterHandle]

theorem call_done (hcur : s.pAA.pIterArray i = none) : s.call flags (iterHandle i) =
    .ok (s.pAA, ⟨amRetIterDone, iterHandle i, [], []⟩) := by
  have hget := amAsscaGetIter_iterHandle s.pAA i
  have hvalid : amAsscaGetIter s.pAA (iterHandle i) ≠ asscaIterInvalid := by
    rw [hget]
    exact iterHandle_ne_invalid i
  rw [IterSystem.call, asscaIter_end hvalid, hget]
  rw [if_neg (iterHandle_not_head i), hget, getIterIdx_iterHandle, hcur]

theorem call_first (S : Sized s.pAA) (hfree : freeCursor s.pAA = some i)
    (hitem : s.pAA.items[0]? = some pAI) : s.call flags asscaIterFlagNew =
      .ok (s.pAA.setCursor i (s.pAA.next 0), ⟨amRetGood, iterHandle i, pAI.key, pAI.data⟩) := by
  have hget : amAsscaGetIter s.pAA asscaIterFlagNew = iterHandle i := by
    rw [amAsscaGetIter_new, hfree]
  have hvalid : amAsscaGetIter s.pAA asscaIterFlagNew ≠ asscaIterInvalid := by
    rw [hget]
    exact iterHandle_ne_invalid i
  have hhead : asscaIterFlagNew &&& (asscaIterFlagReset ||| asscaIterFlagNew) ≠ 0 := by decide
  have hne : s.pAA.items ≠ [] := by
    intro hnil
    rw [hnil] at hitem
    cases hitem
  rw [IterSystem.call, asscaIter_item (Build.direct_user flags) S hvalid
    (by rw [if_pos hhead, if_neg hne]) hitem, hget, getIterIdx_iterHandle]

theorem call_empty (hfree : freeCursor s.pAA = some i) (hnil : s.pAA.items = []) :
    s.call flags asscaIterFlagNew = .ok (s.pAA, ⟨amRetIterDone, iterHandle i, [], []⟩) := by
  have hget : amAsscaGetIter s.pAA asscaIterFlagNew = iterHandle i := by
    rw [amAsscaGetIter_new, hfree]
  have hvalid : amAsscaGetIter s.pAA asscaIterFlagNew ≠ asscaIterInvalid := by
    rw [hget]
    exact iterHandle_ne_invalid i
  have hhead : asscaIterFlagNew &&& (asscaIterFlagReset ||| asscaIterFlagNew) ≠ 0 := by decide
  rw [IterSystem.call, asscaIter_end hvalid (by rw [if_pos hhead, if_pos hnil]), hget]

end Calls

section Visits
variable {pAA pAA' : AmlibAssca} {c : IterClient} {x : Sighting} {i : Fin maxAsscaIters}

/-- An open iterator has a handle and was given `k` entries. Its cursor is at the next one; or it is
`NULL`, and the entries were all of them when it was given the last. -/
structure OnWay (pAA : AmlibAssca) (c : IterClient) (x : Sighting) (i : Fin maxAsscaIters) (k : ℕ) :
    Prop where
  handle : c.handle = iterHandle i
  yielded : c.yielded = (entries pAA).take k
  le : k ≤ (entries pAA).length
  cursor : (pAA.pIterArray i = some k ∧ k < (entries pAA).length) ∨
    (pAA.pIterArray i = none ∧ c.yielded = x.last)

structure Visit (pAA : AmlibAssca) (c : IterClient) (x : Sighting) : Prop where
  began : x.began <+: x.last
  last : x.last <+: entries pAA
  ended : ∀ e, c.ended = some e → e = amRetIterDone ∧ c.yielded = x.last
  ongoing : c.ended = none → ∃ i k, OnWay pAA c x i k

theorem Visit.caughtUp (V : Visit pAA c x) : CaughtUp pAA c x := by
  refine ⟨V.began, V.last, ?_, V.ended⟩
  cases he : c.ended with
  | none =>
    obtain ⟨i, k, O⟩ := V.ongoing he
    rw [O.yielded]
    exact List.take_prefix k _
  | some e =>
    rw [(V.ended e he).2]
    exact V.last

theorem Visit.grow (V : Visit pAA c x) (hgrow : entries pAA <+: entries pAA')
    (hcursors : pAA'.pIterArray = pAA.pIterArray) : Visit pAA' c x := by
  refine ⟨V.began, V.last.trans hgrow, V.ended, fun hc => ?_⟩
  obtain ⟨i, k, O⟩ := V.ongoing hc
  obtain ⟨new, hnew⟩ := hgrow
  have htake : (entries pAA').take k = (entries pAA).take k := by
    rw [← hnew, List.take_append_of_le_length O.le]
  have hle : (entries pAA).length ≤ (entries pAA').length := by
    rw [← hnew, List.length_append]
    exact Nat.le_add_right _ _
  refine ⟨i, k, O.handle, O.yielded.trans htake.symm, O.le.trans hle, ?_⟩
  rw [hcursors]
  exact O.cursor.imp (fun h => ⟨h.1, h.2.trans_le hle⟩) id

theorem Visit.setCursor (V : Visit pAA c x) (h : c.ended = none → c.handle ≠ iterHandle i)
    (v : Option ℕ) : Visit (pAA.setCursor i v) c x := by
  refine ⟨V.began, V.last, V.ended, fun hc => ?_⟩
  obtain ⟨i', k, O⟩ := V.ongoing hc
  have hne : i' ≠ i := by
    rintro rfl
    exact h hc O.handle
  refine ⟨i', k, O.handle, O.yielded, O.le, ?_⟩
  rw [setCursor_of_ne hne]
  exact O.cursor

theorem visit_given {k : ℕ} {pAI : AsscaItem} {began : List Entry}
    (hbegan : began <+: entries pAA) (hitem : pAA.items[k]? = some pAI) (c : IterClient)
    (hc : c.ended = none) (hh : c.handle = iterHandle i)
    (hy : c.yielded = (entries pAA).take k ++ [(pAI.key, pAI.data)]) :
    Visit (pAA.setCursor i (pAA.next k)) c ⟨began, entries pAA⟩ := by
  have hlt : k < pAA.items.length := (List.getElem?_eq_some_iff.mp hitem).1
  have hlen : (entries pAA).length = pAA.items.length := List.length_map _
  have hyield : c.yielded = (entries pAA).take (k + 1) := hy.trans (entries_take_succ hitem).symm
  refine ⟨hbegan, List.prefix_rfl, fun e he => absurd (hc.symm.trans he) (by simp), fun _ => ?_⟩
  refine ⟨i, k + 1, hh, hyield, hlt.trans_eq hlen.symm, ?_⟩
  rw [setCursor_self, AmlibAssca.next]
  by_cases hnext : k + 1 < pAA.items.length
  · rw [if_pos hnext]
    exact .inl ⟨rfl, hnext.trans_eq hlen.symm⟩
  · rw [if_neg hnext, hyield]
    exact .inr ⟨rfl, List.take_of_length_le (by omega)⟩

end Visits

section Invariant
variable {flags : UInt32} {pAA pAA' : AmlibAssca} {s s' : GrowingSystem} {j : ℕ}

/-- Every iterator is where it should be, and every cursor belongs to one open iterator. -/
structure Tended (s : GrowingSystem) : Prop where
  fault : s.sys.fault = none
  sized : Sized s.sys.pAA
  counted : s.seen.length = s.sys.iters.length
  visits : ∀ (j : ℕ) (c : IterClient) (x : Sighting), s.sys.iters[j]? = some c →
    s.seen[j]? = some x → Visit s.sys.pAA c x
  own : ∀ (j j' : ℕ) (c c' : IterClient), s.sys.iters[j]? = some c → s.sys.iters[j']? = some c' →
    c.ended = none → c'.ended = none → c.handle = c'.handle → j = j'
  owned : ∀ i, s.sys.pAA.pIterArray i ≠ none →
    ∃ (j : ℕ) (c : IterClient), s.sys.iters[j]? = some c ∧ c.ended = none ∧ c.handle = iterHandle i

theorem Tended.consistent (T : Tended s) : Consistent s :=
  ⟨T.fault, T.counted, fun j c x hj hx => (T.visits j c x hj hx).caughtUp⟩

theorem tended_start (S : Sized pAA) (hfree : ∀ i, pAA.pIterArray i = none) :
    Tended ⟨.start pAA, []⟩ where
  fault := rfl
  sized := S
  counted := rfl
  visits := by
    intro j c x h
    cases h
  own := by
    intro j j' c c' h
    cases h
  owned := fun i hi => absurd (hfree i) hi

theorem Tended.withArray (T : Tended s) (S : Sized pAA)
    (hgrow : entries s.sys.pAA <+: entries pAA) (hcursors : pAA.pIterArray = s.sys.pAA.pIterArray) :
    Tended (s.withArray pAA) where
  fault := T.fault
  sized := S
  counted := T.counted
  visits := fun j c x hj hx => (T.visits j c x hj hx).grow hgrow hcursors
  own := T.own
  owned := by
    intro i hi
    exact T.owned i fun h => hi ((congrFun hcursors i).trans h)

theorem write_grows {env : Env} {p1 p2 : List UInt8} {r : Pack.Served}
    (h : amlibAsscaAddKeyFixfix env pAA p1 p2 = .ok (pAA', r)) :
    entries pAA <+: entries pAA' ∧ pAA'.pIterArray = pAA.pIterArray := by
  rcases (amlibAsscaAddKeyFixfix_eq_ok.mp h).2.2 with
    ⟨-, rfl⟩ | ⟨data, key, t, -, -, -, -, rfl⟩
  · exact ⟨List.prefix_rfl, rfl⟩
  · refine ⟨?_, rfl⟩
    rw [entries, entries, List.map_append]
    exact List.prefix_append _ _

theorem read_keeps {p1 p2 : List UInt8} {r : Pack.Served}
    (h : amlibAsscaGetKeyVal .user flags pAA p1 p2 = .ok (pAA', r)) : pAA' = pAA := by
  rcases amlibAsscaGetKeyVal_eq_ok.mp h with ⟨-, rfl, -⟩ | ⟨t, key, found, -, -, -, h⟩
  · rfl
  · rcases h with ⟨-, rfl, -⟩ | ⟨e, item, v, -, hitem, hv, rfl, -⟩
    · rfl
    · rw [copyToUser_direct (Build.direct_user flags), bind_eq_ok] at hv
      obtain ⟨bytes, -, hv⟩ := hv
      cases hv
      obtain ⟨hlt, rfl⟩ := List.getElem?_eq_some_iff.mp hitem
      have hset : pAA.items.set e.elt pAA.items[e.elt] = pAA.items := List.set_getElem_self hlt
      rw [hset]

/-- Four open iterators are needed to occupy all cursors. -/
theorem Tended.freeCursor_ne_none (T : Tended s)
    (hopen : s.sys.openIters.length < maxAsscaIters) : freeCursor s.sys.pAA ≠ none := by
  intro hnone
  have hall := freeCursor_eq_none.mp hnone
  have hsub : (List.finRange maxAsscaIters).map iterHandle ⊆
      s.sys.openIters.map IterClient.handle := by
    intro h hmem
    obtain ⟨i, -, rfl⟩ := List.mem_map.mp hmem
    obtain ⟨j, c, hj, hc, hh⟩ := T.owned i (hall i)
    refine List.mem_map.mpr ⟨c, ?_, hh⟩
    exact List.mem_filter.mpr ⟨List.mem_of_getElem? hj, by simp [hc]⟩
  have hnodup : ((List.finRange maxAsscaIters).map iterHandle).Nodup :=
    (List.nodup_finRange _).map iterHandle_injective
  have hle := (hnodup.subperm hsub).length_le
  rw [List.length_map, List.length_map, List.length_finRange] at hle
  omega

variable {i : Fin maxAsscaIters} {v : Option ℕ} {c c₀ : IterClient} {x : Sighting}

theorem Tended.put (T : Tended s) (hj : s.sys.iters[j]? = some c₀) (hopen : c₀.ended = none)
    (hh₀ : c₀.handle = iterHandle i) (hh : c.handle = iterHandle i) (hv : v ≠ none → c.ended = none)
    (V : Visit (s.sys.pAA.setCursor i v) c x) :
    Tended ⟨{ s.sys with
      pAA := s.sys.pAA.setCursor i v
      iters := s.sys.iters.set j c }, s.seen.set j x⟩ := by
  have hlt : j < s.sys.iters.length := (List.getElem?_eq_some_iff.mp hj).1
  have hother : ∀ j' c', j' ≠ j → s.sys.iters[j']? = some c' → c'.ended = none →
      c'.handle ≠ iterHandle i := fun j' c' hjj hj' hc' hh' =>
    hjj (T.own j' j c' c₀ hj' hj hc' hopen (hh'.trans hh₀.symm))
  constructor
  · exact T.fault
  · exact T.sized
  · rw [List.length_set, List.length_set]
    exact T.counted
  · intro j' c' x' hj' hx'
    rcases getElem?_set_cases hj' with ⟨rfl, rfl⟩ | ⟨hjj, hj'⟩
    · rw [List.getElem?_set_self (T.counted.symm ▸ hlt)] at hx'
      cases hx'
      exact V
    · rw [List.getElem?_set_ne (Ne.symm hjj)] at hx'
      exact (T.visits j' c' x' hj' hx').setCursor (hother j' c' hjj hj') v
  · intro j₁ j₂ c₁ c₂ h₁ h₂ hc₁ hc₂ hhh
    rcases getElem?_set_cases h₁ with ⟨hj₁, rfl⟩ | ⟨hj₁, hold₁⟩
    · rcases getElem?_set_cases h₂ with ⟨hj₂, -⟩ | ⟨hj₂, hold₂⟩
      · exact hj₁.trans hj₂.symm
      · exact absurd (hhh.symm.trans hh) (hother j₂ c₂ hj₂ hold₂ hc₂)
    · rcases getElem?_set_cases h₂ with ⟨hj₂, rfl⟩ | ⟨hj₂, hold₂⟩
      · exact absurd (hhh.trans hh) (hother j₁ c₁ hj₁ hold₁ hc₁)
      · exact T.own j₁ j₂ c₁ c₂ hold₁ hold₂ hc₁ hc₂ hhh
  · intro i' hi'
    by_cases hii : i' = i
    · subst hii
      dsimp only at hi'
      rw [setCursor_self] at hi'
      exact ⟨j, c, List.getElem?_set_self hlt, hv hi', hh⟩
    · dsimp only at hi'
      rw [setCursor_of_ne hii] at hi'
      obtain ⟨j', c', hj', hc', hh'⟩ := T.owned i' hi'
      have hjj : j' ≠ j := by
        rintro rfl
        rw [hj] at hj'
        cases hj'
        exact hii (iterHandle_injective (hh'.symm.trans hh₀))
      exact ⟨j', c', by rw [List.getElem?_set_ne (Ne.symm hjj), hj'], hc', hh'⟩

theorem Tended.add (T : Tended s)
    (hfree : ∀ c ∈ s.sys.iters, c.ended = none → c.handle ≠ iterHandle i)
    (hh : c.handle = iterHandle i) (hv : v ≠ none → c.ended = none)
    (V : Visit (s.sys.pAA.setCursor i v) c x) :
    Tended ⟨{ s.sys with
      pAA := s.sys.pAA.setCursor i v
      iters := s.sys.iters ++ [c] }, s.seen ++ [x]⟩ := by
  have hother : ∀ (j : ℕ) c', s.sys.iters[j]? = some c' → c'.ended = none →
      c'.handle ≠ iterHandle i := fun j c' hj => hfree c' (List.mem_of_getElem? hj)
  constructor
  · exact T.fault
  · exact T.sized
  · rw [List.length_append, List.length_append, T.counted]
    rfl
  · intro j' c' x' hj' hx'
    rcases getElem?_concat_cases hj' with ⟨hj', hlt⟩ | ⟨rfl, rfl⟩
    · rw [List.getElem?_append_left (T.counted.symm ▸ hlt)] at hx'
      exact (T.visits j' c' x' hj' hx').setCursor (hother j' c' hj') v
    · rw [← T.counted, List.getElem?_concat_length] at hx'
      cases hx'
      exact V
  · intro j₁ j₂ c₁ c₂ h₁ h₂ hc₁ hc₂ hhh
    rcases getElem?_concat_cases h₁ with ⟨hold₁, -⟩ | ⟨hj₁, rfl⟩
    · rcases getElem?_concat_cases h₂ with ⟨hold₂, -⟩ | ⟨hj₂, rfl⟩
      · exact T.own j₁ j₂ c₁ c₂ hold₁ hold₂ hc₁ hc₂ hhh
      · exact absurd (hhh.trans hh) (hother j₁ c₁ hold₁ hc₁)
    · rcases getElem?_concat_cases h₂ with ⟨hold₂, -⟩ | ⟨hj₂, rfl⟩
      · exact absurd (hhh.symm.trans hh) (hother j₂ c₂ hold₂ hc₂)
      · exact hj₁.trans hj₂.symm
  · intro i' hi'
    by_cases hii : i' = i
    · subst hii
      dsimp only at hi'
      rw [setCursor_self] at hi'
      exact ⟨s.sys.iters.length, c, List.getElem?_concat_length, hv hi', hh⟩
    · dsimp only at hi'
      rw [setCursor_of_ne hii] at hi'
      obtain ⟨j', c', hj', hc', hh'⟩ := T.owned i' hi'
      have hlt : j' < s.sys.iters.length := (List.getElem?_eq_some_iff.mp hj').1
      exact ⟨j', c', by rw [List.getElem?_append_left hlt, hj'], hc', hh'⟩

theorem Tended.next (T : Tended s) (h : s.step flags (.iter (.next j)) = some s') : Tended s' := by
  obtain ⟨t, ht, rfl⟩ := Option.map_eq_some_iff.mp h
  simp only [IterSystem.step] at ht
  split at ht
  · cases ht
  rename_i c hj
  split at ht
  case isFalse => cases ht
  rename_i hcond
  have hlt : j < s.sys.iters.length := (List.getElem?_eq_some_iff.mp hj).1
  obtain ⟨x, hx⟩ : ∃ x, s.seen[j]? = some x :=
    ⟨_, List.getElem?_eq_getElem (T.counted.symm ▸ hlt : j < s.seen.length)⟩
  have V := T.visits j c x hj hx
  obtain ⟨i, k, O⟩ := V.ongoing hcond.2
  rcases O.cursor with ⟨hcur, hk⟩ | ⟨hcur, hall⟩
  · -- one more entry
    rw [entries, List.length_map] at hk
    have hitem := List.getElem?_eq_getElem hk
    rw [O.handle, call_item T.sized hcur hitem] at ht
    dsimp only at ht
    rw [IterClient.got_good] at ht
    cases ht
    rw [GrowingSystem.meet, List.getElem?_set_self hlt, hx]
    dsimp only
    rw [if_pos hcond.2]
    exact T.put hj hcond.2 O.handle rfl (fun _ => hcond.2)
      (visit_given (V.began.trans V.last) hitem _ hcond.2 rfl (by rw [O.yielded]))
  · -- the end
    rw [O.handle, call_done hcur] at ht
    dsimp only at ht
    rw [IterClient.got_done] at ht
    cases ht
    rw [GrowingSystem.meet, List.getElem?_set_self hlt, hx]
    dsimp only
    rw [if_neg (by simp)]
    have hV : Visit s.sys.pAA { c with handle := iterHandle i, ended := some amRetIterDone } x :=
      ⟨V.began, V.last, fun e he => ⟨(Option.some.inj he).symm, hall⟩, fun hc => by cases hc⟩
    have hcursor : s.sys.pAA.setCursor i none = s.sys.pAA := setCursor_eq_self hcur
    have hseen : s.seen.set j x = s.seen := by
      obtain ⟨hlt', rfl⟩ := List.getElem?_eq_some_iff.mp hx
      exact List.set_getElem_self hlt'
    have T' := T.put hj hcond.2 O.handle rfl (fun hne => absurd rfl hne) (hcursor.symm ▸ hV)
    rw [hcursor, hseen] at T'
    exact T'

theorem Tended.begin (T : Tended s) (hown : OwnCursor s (.iter .start))
    (h : s.step flags (.iter .start) = some s') : Tended s' := by
  obtain ⟨t, ht, rfl⟩ := Option.map_eq_some_iff.mp h
  simp only [IterSystem.step] at ht
  split at ht
  case isFalse => cases ht
  rename_i hcond
  obtain ⟨i, hi⟩ := Option.ne_none_iff_exists'.mp (T.freeCursor_ne_none hcond.2)
  by_cases hitems : s.sys.pAA.items = []
  · rw [call_empty hi hitems] at ht
    dsimp only at ht
    rw [IterClient.got_done] at ht
    cases ht
    have hnil : entries s.sys.pAA = [] := by rw [entries, hitems, List.map_nil]
    have hcursor : s.sys.pAA.setCursor i none = s.sys.pAA :=
      setCursor_eq_self (freeCursor_eq_some hi)
    have hV : Visit s.sys.pAA ⟨iterHandle i, [], some amRetIterDone⟩
        ⟨entries s.sys.pAA, entries s.sys.pAA⟩ :=
      ⟨List.prefix_rfl, List.prefix_rfl, fun e he => ⟨(Option.some.inj he).symm, hnil.symm⟩,
        fun hc => by cases hc⟩
    have T' := T.add (hown i hi) rfl (fun hne => absurd rfl hne) (hcursor.symm ▸ hV)
    rw [hcursor] at T'
    exact T'
  · have hitem := List.getElem?_eq_getElem (List.length_pos_iff.mpr hitems)
    rw [call_first T.sized hi hitem] at ht
    dsimp only at ht
    rw [IterClient.got_good] at ht
    cases ht
    rw [GrowingSystem.meet]
    exact T.add (hown i hi) rfl (fun _ => rfl) (visit_given List.prefix_rfl hitem _ rfl rfl rfl)

theorem toOption_eq_some {ε α : Type} {x : Except ε α} {a : α} :
    x.toOption = some a ↔ x = .ok a := by
  cases x with
  | error e => simp [Except.toOption]
  | ok b => simp [Except.toOption]

theorem Tended.step {a : GrowAct} (T : Tended s) (hown : OwnCursor s a)
    (h : s.step flags a = some s') : Tended s' := by
  cases a with
  | iter a =>
    cases a with
    | start => exact T.begin hown h
    | next j => exact T.next h
  | write env p1 p2 =>
    obtain ⟨r, hr, rfl⟩ := Option.map_eq_some_iff.mp h
    have hadd := toOption_eq_some.mp hr
    exact T.withArray (T.sized.add hadd) (write_grows hadd).1 (write_grows hadd).2
  | read p1 p2 =>
    obtain ⟨r, hr, rfl⟩ := Option.map_eq_some_iff.mp h
    rw [read_keeps (toOption_eq_some.mp hr)]
    exact T

/-- In every order of iterator calls, writes and reads with at most four open iterators, in which no
new iterator is given the cursor of one that is still open, each iterator is given the entries in
the order in which they were written, and ends after those that were there when it was given its
last one. -/
theorem iteration_grows {keyLength dataLength : UInt32} {bFixedKey bFixedData : Bool}
    {as : List GrowAct} (hown : Throughout (GrowingSystem.step flags) OwnCursor
      ⟨.start (amlibAsscaInit keyLength dataLength bFixedKey bFixedData), []⟩ as) :
    Always (GrowingSystem.step flags) Consistent
      ⟨.start (amlibAsscaInit keyLength dataLength bFixedKey bFixedData), []⟩ as :=
  always_of_throughout (I := Tended) (fun _ T => T.consistent)
    (fun _ _ _ T hown h => T.step hown h) (tended_start (sized_init _ _ _ _) fun _ => rfl) hown

def fourWrites : List GrowAct :=
  [.write .zeroed [1] [10], .write .zeroed [2] [20], .iter .start, .write .zeroed [3] [30],
    .iter (.next 0), .iter (.next 0), .write .zeroed [4] [40], .iter (.next 0)]

theorem iteration_grows_four : ∃ s,
    run (GrowingSystem.step 0) ⟨.start (amlibAsscaInit 1 1 true true), []⟩ fourWrites = some s ∧
      Consistent s ∧ s.sys.iters = [⟨iterHandle 0, [([1], [10]), ([2], [20]), ([3], [30])],
        some amRetIterDone⟩] := by
  have hrun : (run (GrowingSystem.step 0) ⟨.start (amlibAsscaInit 1 1 true true), []⟩
      fourWrites).map (fun s => s.sys.iters) = some [⟨iterHandle 0,
        [([1], [10]), ([2], [20]), ([3], [30])], some amRetIterDone⟩] := by decide +kernel
  obtain ⟨s, hs, hiters⟩ := Option.map_eq_some_iff.mp hrun
  exact ⟨s, hs, (iteration_grows (by decide +kernel)).run hs, hiters⟩

end Invariant

end AppMem.Assca
