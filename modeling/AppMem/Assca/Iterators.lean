import AppMem.Device.Iterator
import AppMem.Library.Machine

/-! # Several iterators at once

Iterators of one array take turns; nothing is written in between. Each should see all entries in
their order, as it does alone. An iterator that has got the last entry is still open, but its
cursor is `NULL` and the next iterator may be given it.
-/
namespace AppMem.Assca
open Library.Checked Library.Machine Abi Memory Device

/-- An iterator: its handle, the entries it was given, and the code that ended it. -/
structure IterClient where
  handle : UInt32
  yielded : List (List UInt8 × List UInt8)
  ended : Option AmReturn
  deriving DecidableEq

structure IterSystem where
  pAA : AmlibAssca
  iters : List IterClient
  fault : Option Fault

inductive IterAct
  | start
  | next (j : ℕ)

section System

def IterClient.got (c : IterClient) (r : IterResult) : IterClient :=
  if r.error = amRetGood then
    { c with handle := r.handle, yielded := c.yielded ++ [(r.out1, r.out2)] }
  else { c with handle := r.handle, ended := some r.error }

namespace IterSystem

def call (flags : UInt32) (s : IterSystem) (h : UInt32) : Exec (AmlibAssca × IterResult) :=
  asscaIter .user flags s.pAA [] s.pAA.keyLen.toUInt64 [] s.pAA.dataLen.toUInt64 h

def openIters (s : IterSystem) : List IterClient := s.iters.filter fun c => c.ended.isNone

/-- One call; at most four iterators are open. -/
def step (flags : UInt32) (s : IterSystem) : IterAct → Option IterSystem
  | .start =>
    if s.fault = none ∧ s.openIters.length < maxAsscaIters then
      match s.call flags asscaIterFlagNew with
      | .ok r => some { s with
          pAA := r.1
          iters := s.iters ++ [IterClient.got ⟨asscaIterFlagNew, [], none⟩ r.2] }
      | .error e => some { s with fault := some e }
    else none
  | .next j =>
    match s.iters[j]? with
    | none => none
    | some c =>
      if s.fault = none ∧ c.ended = none then
        match s.call flags c.handle with
        | .ok r => some { s with pAA := r.1, iters := s.iters.set j (c.got r.2) }
        | .error e => some { s with fault := some e }
      else none

def start (pAA : AmlibAssca) : IterSystem := ⟨pAA, [], none⟩

end IterSystem

/-- The entries of an array, in the order of `hh.next`. -/
def entries (pAA : AmlibAssca) : List (List UInt8 × List UInt8) :=
  pAA.items.map fun pAI => (pAI.key, pAI.data)

/-- What the iterators were given so far is right: each entry once, in their order, and all of them
before the end. -/
structure Independent (pAA : AmlibAssca) (s : IterSystem) : Prop where
  fault : s.fault = none
  ongoing : ∀ c ∈ s.iters, c.ended = none → c.yielded <+: entries pAA
  ended : ∀ c ∈ s.iters, ∀ e, c.ended = some e → e = amRetIterDone ∧ c.yielded = entries pAA

/-- A new iterator is not given the cursor of one that is still open, unless there is at most one
entry. -/
def NoTakeover (s : IterSystem) : IterAct → Prop
  | .start => ∀ i, freeCursor s.pAA = some i →
      s.pAA.items.length ≤ 1 ∨ ∀ c ∈ s.iters, c.ended = none → c.handle ≠ iterHandle i
  | .next _ => True

instance (s : IterSystem) (a : IterAct) : Decidable (NoTakeover s a) :=
  match a with
  | .start => inferInstanceAs (Decidable (∀ i, freeCursor s.pAA = some i →
      s.pAA.items.length ≤ 1 ∨ ∀ c ∈ s.iters, c.ended = none → c.handle ≠ iterHandle i))
  | .next _ => .isTrue trivial

end System

section Calls
variable {b : Build} {flags : UInt32} {pAA : AmlibAssca} {p1 p2 : List UInt8} {h : UInt32}

def Sized (pAA : AmlibAssca) : Prop :=
  ∀ pAI ∈ pAA.items, pAI.key.length = pAA.keyLen.toNat ∧ pAI.data.length = pAA.dataLen.toNat

theorem sized_init (keyLength dataLength : UInt32) (bFixedKey bFixedData : Bool) :
    Sized (amlibAsscaInit keyLength dataLength bFixedKey bFixedData) :=
  fun _ h => absurd h List.not_mem_nil

theorem Sized.add {env : Env} {pAA' : AmlibAssca} {r : Pack.Served} (S : Sized pAA)
    (h : amlibAsscaAddKeyFixfix env pAA p1 p2 = .ok (pAA', r)) : Sized pAA' := by
  unfold amlibAsscaAddKeyFixfix at h
  rw [bind_eq_ok] at h
  rcases h with ⟨_, -, h⟩
  split at h
  · rw [bind_eq_ok] at h
    rcases h with ⟨data, hdata, h⟩
    rw [bind_eq_ok] at h
    rcases h with ⟨key, hkey, h⟩
    rw [bind_eq_ok] at h
    rcases h with ⟨t, -, h⟩
    cases h
    rcases readBytes_eq_ok.mp hdata with ⟨hd, rfl⟩
    rcases readBytes_eq_ok.mp hkey with ⟨hk, rfl⟩
    intro pAI hmem
    rcases List.mem_append.mp hmem with hmem | hmem
    · exact S pAI hmem
    · rw [List.mem_singleton.mp hmem]
      exact ⟨List.length_take_of_le hk, List.length_take_of_le hd⟩
  · cases h
    exact S

/-- A copy out of an item that the macros take as it is. -/
theorem asscaIter_item (hb : b.direct flags = true) (S : Sized pAA) {i : ℕ} {pAI : AsscaItem}
    (hvalid : amAsscaGetIter pAA h ≠ asscaIterInvalid)
    (hcursor : (if h &&& (asscaIterFlagReset ||| asscaIterFlagNew) ≠ 0 then
      (if pAA.items = [] then none else some 0)
      else pAA.pIterArray (getIterIdx (amAsscaGetIter pAA h))) = some i)
    (hi : pAA.items[i]? = some pAI) :
    asscaIter b flags pAA p1 pAA.keyLen.toUInt64 p2 pAA.dataLen.toUInt64 h =
      .ok (pAA.setCursor (getIterIdx (amAsscaGetIter pAA h)) (pAA.next i),
        ⟨amRetGood, amAsscaGetIter pAA h, pAI.key, pAI.data⟩) := by
  obtain ⟨hk, hd⟩ := S pAI (List.mem_of_getElem? hi)
  have hkey : copyKeyToUser b flags p1 pAI pAA.keyLen.toUInt64.toUInt32.toNat =
      .ok (pAI.key, pAI) := by
    have hle : pAA.keyLen.toNat ≤ (pAI.key ++ pAI.data).length := by
      rw [List.length_append, hk]
      exact Nat.le_add_right _ _
    rw [copyKeyToUser, UInt32.toUInt32_toUInt64, copyToUser_direct hb, readBytes_of_le hle, ← hk,
      List.take_left]
    simp only [ok_bind, pure_eq_ok, List.take_left, List.drop_left]
  have hdata : copyToUser b flags p2 pAI.data pAA.dataLen.toUInt64.toUInt32.toNat =
      .ok (pAI.data, pAI.data) := by
    rw [UInt32.toUInt32_toUInt64, copyToUser_direct hb, readBytes_of_le hd.ge, ok_bind, ← hd,
      List.take_length]
  unfold asscaIter
  dsimp only
  rw [if_pos hvalid, hcursor]
  dsimp only
  rw [hi]
  dsimp only
  rw [hkey, ok_bind, hdata, ok_bind, if_pos hb]
  rfl

theorem asscaIter_end (hvalid : amAsscaGetIter pAA h ≠ asscaIterInvalid) {l1 l2 : UInt64}
    (hcursor : (if h &&& (asscaIterFlagReset ||| asscaIterFlagNew) ≠ 0 then
      (if pAA.items = [] then none else some 0)
      else pAA.pIterArray (getIterIdx (amAsscaGetIter pAA h))) = none) :
    asscaIter b flags pAA p1 l1 p2 l2 h =
      .ok (pAA, ⟨amRetIterDone, amAsscaGetIter pAA h, [], []⟩) := by
  unfold asscaIter
  dsimp only
  rw [if_pos hvalid, hcursor]

end Calls

section Invariant
variable {α : Type*} {flags : UInt32} {pAA : AmlibAssca} {s s' : IterSystem}

theorem getElem?_set_cases {l : List α} {j j' : ℕ} {a c : α} (h : (l.set j a)[j']? = some c) :
    (j' = j ∧ c = a) ∨ (j' ≠ j ∧ l[j']? = some c) := by
  by_cases hj : j' = j
  · subst hj
    have hlt : j' < (l.set j' a).length := (List.getElem?_eq_some_iff.mp h).1
    rw [List.length_set] at hlt
    rw [List.getElem?_set_self hlt] at h
    exact .inl ⟨rfl, (Option.some.inj h).symm⟩
  · rw [List.getElem?_set_ne (Ne.symm hj)] at h
    exact .inr ⟨hj, h⟩

theorem getElem?_concat_cases {l : List α} {j : ℕ} {a c : α} (h : (l ++ [a])[j]? = some c) :
    (l[j]? = some c ∧ j < l.length) ∨ (j = l.length ∧ c = a) := by
  by_cases hj : j < l.length
  · rw [List.getElem?_append_left hj] at h
    exact .inl ⟨h, hj⟩
  · have hlt : j < (l ++ [a]).length := (List.getElem?_eq_some_iff.mp h).1
    rw [List.length_append, List.length_singleton] at hlt
    have heq : j = l.length := by omega
    subst heq
    rw [List.getElem?_concat_length] at h
    exact .inr ⟨rfl, (Option.some.inj h).symm⟩

/-- The cursor of an iterator that was given `k` entries. -/
def cursorAt (pAA : AmlibAssca) (k : ℕ) : Option ℕ := if k < pAA.items.length then some k else none

theorem next_eq_cursorAt (pAA : AmlibAssca) (k : ℕ) : pAA.next k = cursorAt pAA (k + 1) := rfl

/-- An iterator that is open and was given `k` entries, with its cursor. -/
structure IterClient.Open (c : IterClient) (pAA : AmlibAssca) (i : Fin maxAsscaIters) (k : ℕ) :
    Prop where
  handle : c.handle = iterHandle i
  pos : 1 ≤ k
  le : k ≤ pAA.items.length
  yielded : c.yielded = (entries pAA).take k
  cursor : pAA.pIterArray i = cursorAt pAA k

/-- Every open iterator has a cursor to itself, and only open iterators have cursors. -/
structure Separate (pAA : AmlibAssca) (s : IterSystem) : Prop where
  fault : s.fault = none
  items : s.pAA.items = pAA.items
  sized : Sized s.pAA
  ended : ∀ (j : ℕ) (c : IterClient), s.iters[j]? = some c → ∀ e, c.ended = some e →
    e = amRetIterDone ∧ c.yielded = entries pAA
  ongoing : ∀ (j : ℕ) (c : IterClient), s.iters[j]? = some c → c.ended = none →
    ∃ i k, c.Open s.pAA i k
  own : 1 < pAA.items.length → ∀ (j j' : ℕ) (c c' : IterClient), s.iters[j]? = some c →
    s.iters[j']? = some c' → c.ended = none → c'.ended = none → c.handle = c'.handle → j = j'
  owned : ∀ i, s.pAA.pIterArray i ≠ none →
    ∃ (j : ℕ) (c : IterClient), s.iters[j]? = some c ∧ c.ended = none ∧ c.handle = iterHandle i

theorem entries_congr {pAA' : AmlibAssca} (h : pAA'.items = pAA.items) :
    entries pAA' = entries pAA := by
  rw [entries, entries, h]

theorem separate_start (S : Sized pAA) (hfree : ∀ i, pAA.pIterArray i = none) :
    Separate pAA (.start pAA) := by
  constructor
  · rfl
  · rfl
  · exact S
  · intro j c h
    cases h
  · intro j c h
    cases h
  · intro _ j j' c c' h
    cases h
  · intro i hi
    exact absurd (hfree i) hi

theorem Separate.independent (S : Separate pAA s) : Independent pAA s := by
  constructor
  · exact S.fault
  · intro c hc hopen
    obtain ⟨j, hj⟩ := List.mem_iff_getElem?.mp hc
    obtain ⟨i, k, O⟩ := S.ongoing j c hj hopen
    rw [O.yielded, entries_congr S.items]
    exact List.take_prefix k _
  · intro c hc e he
    obtain ⟨j, hj⟩ := List.mem_iff_getElem?.mp hc
    exact S.ended j c hj e he

/-- Four open iterators are needed to occupy all cursors. -/
theorem Separate.freeCursor_ne_none (S : Separate pAA s)
    (hopen : s.openIters.length < maxAsscaIters) : freeCursor s.pAA ≠ none := by
  intro hnone
  have hall := freeCursor_eq_none.mp hnone
  have hsub : (List.finRange maxAsscaIters).map iterHandle ⊆
      s.openIters.map IterClient.handle := by
    intro h hmem
    obtain ⟨i, -, rfl⟩ := List.mem_map.mp hmem
    obtain ⟨j, c, hj, hc, hh⟩ := S.owned i (hall i)
    refine List.mem_map.mpr ⟨c, ?_, hh⟩
    exact List.mem_filter.mpr ⟨List.mem_of_getElem? hj, by simp [hc]⟩
  have hnodup : ((List.finRange maxAsscaIters).map iterHandle).Nodup :=
    (List.nodup_finRange _).map iterHandle_injective
  have hle := (hnodup.subperm hsub).length_le
  rw [List.length_map, List.length_map, List.length_finRange] at hle
  omega

theorem IterClient.got_good (c : IterClient) (h : UInt32) (k d : List UInt8) :
    c.got ⟨amRetGood, h, k, d⟩ = { c with handle := h, yielded := c.yielded ++ [(k, d)] } := rfl

theorem IterClient.got_done (c : IterClient) (h : UInt32) :
    c.got ⟨amRetIterDone, h, [], []⟩ = { c with handle := h, ended := some amRetIterDone } := rfl

theorem entries_take_succ {k : ℕ} {pAI : AsscaItem} (h : pAA.items[k]? = some pAI) :
    (entries pAA).take (k + 1) = (entries pAA).take k ++ [(pAI.key, pAI.data)] := by
  have hlt : k < pAA.items.length := (List.getElem?_eq_some_iff.mp h).1
  have hget : (entries pAA)[k]? = some (pAI.key, pAI.data) := by
    rw [entries, List.getElem?_map, h, Option.map_some]
  rw [List.take_add_one, hget, Option.toList_some]

/-- Another iterator keeps its place when cursor `i` moves. -/
theorem IterClient.Open.setCursor {c : IterClient} {i i' : Fin maxAsscaIters} {k : ℕ}
    (O : c.Open pAA i' k) (h : i' ≠ i) (v : Option ℕ) : c.Open (pAA.setCursor i v) i' k :=
  ⟨O.handle, O.pos, O.le, O.yielded, (setCursor_of_ne h v).trans O.cursor⟩

section Next
variable {j k : ℕ} {c : IterClient} {i : Fin maxAsscaIters}

/-- An open iterator is given its next entry, or the end. -/
theorem Separate.next_cases (S : Separate pAA s) (h : s.step flags (.next j) = some s') :
    ∃ c i k, s.iters[j]? = some c ∧ c.ended = none ∧ c.Open s.pAA i k ∧
      ((∃ pAI, s.pAA.items[k]? = some pAI ∧
        s' = { s with
          pAA := s.pAA.setCursor i (cursorAt s.pAA (k + 1))
          iters := s.iters.set j { c with
            handle := iterHandle i
            yielded := c.yielded ++ [(pAI.key, pAI.data)] } }) ∨
      (¬ k < s.pAA.items.length ∧ ∃ hd,
        s' = { s with iters := s.iters.set j { c with
          handle := hd
          ended := some amRetIterDone } })) := by
  simp only [IterSystem.step] at h
  split at h
  · cases h
  rename_i c hj
  split at h
  case isFalse => cases h
  rename_i hcond
  obtain ⟨i, k, O⟩ := S.ongoing j c hj hcond.2
  refine ⟨c, i, k, hj, hcond.2, O, ?_⟩
  have hget := amAsscaGetIter_iterHandle s.pAA i
  have hvalid : amAsscaGetIter s.pAA c.handle ≠ asscaIterInvalid := by
    rw [O.handle, hget]
    exact iterHandle_ne_invalid i
  have hcur : (if c.handle &&& (asscaIterFlagReset ||| asscaIterFlagNew) ≠ 0 then
      (if s.pAA.items = [] then none else some 0)
      else s.pAA.pIterArray (getIterIdx (amAsscaGetIter s.pAA c.handle))) =
        cursorAt s.pAA k := by
    rw [O.handle, if_neg (iterHandle_not_head i), hget, getIterIdx_iterHandle, O.cursor]
  by_cases hk : k < s.pAA.items.length
  · have hitem := List.getElem?_eq_getElem hk
    rw [cursorAt, if_pos hk] at hcur
    rw [IterSystem.call, asscaIter_item (Build.direct_user flags) S.sized hvalid hcur hitem] at h
    dsimp only at h
    rw [O.handle, hget, getIterIdx_iterHandle, next_eq_cursorAt, IterClient.got_good] at h
    cases h
    exact .inl ⟨_, hitem, rfl⟩
  · rw [cursorAt, if_neg hk] at hcur
    rw [IterSystem.call, asscaIter_end hvalid hcur] at h
    dsimp only at h
    rw [IterClient.got_done] at h
    cases h
    exact .inr ⟨hk, _, rfl⟩

theorem Separate.yield (S : Separate pAA s) (hj : s.iters[j]? = some c) (hopen : c.ended = none)
    (O : c.Open s.pAA i k) {pAI : AsscaItem} (hitem : s.pAA.items[k]? = some pAI) :
    Separate pAA { s with
      pAA := s.pAA.setCursor i (cursorAt s.pAA (k + 1))
      iters := s.iters.set j { c with
        handle := iterHandle i
        yielded := c.yielded ++ [(pAI.key, pAI.data)] } } := by
  have hk : k < s.pAA.items.length := (List.getElem?_eq_some_iff.mp hitem).1
  have htwo : 1 < pAA.items.length := by
    have hpos := O.pos
    rw [← S.items]
    omega
  have hne : ∀ j' c', s.iters[j']? = some c' → c'.ended = none → j' ≠ j →
      ∀ i', c'.handle = iterHandle i' → i' ≠ i := by
    rintro j' c' hj' hc' hjj i' hh rfl
    exact hjj (S.own htwo j' j c' c hj' hj hc' hopen (hh.trans O.handle.symm))
  constructor
  · exact S.fault
  · exact S.items
  · exact S.sized
  · intro j' c' hj' e he
    rcases getElem?_set_cases hj' with ⟨-, rfl⟩ | ⟨-, hj'⟩
    · exact absurd (hopen.symm.trans he) (by simp)
    · exact S.ended j' c' hj' e he
  · intro j' c' hj' hc'
    rcases getElem?_set_cases hj' with ⟨-, rfl⟩ | ⟨hjj, hj'⟩
    · refine ⟨i, k + 1, rfl, Nat.le_add_left 1 k, hk, ?_, setCursor_self _ _ _⟩
      dsimp only
      rw [O.yielded]
      exact (entries_take_succ hitem).symm
    · obtain ⟨i', k', O'⟩ := S.ongoing j' c' hj' hc'
      exact ⟨i', k', O'.setCursor (hne j' c' hj' hc' hjj i' O'.handle) _⟩
  · intro _ j₁ j₂ c₁ c₂ h₁ h₂ hc₁ hc₂ hh
    rcases getElem?_set_cases h₁ with ⟨hj₁, rfl⟩ | ⟨hj₁, hc₁'⟩
    · rcases getElem?_set_cases h₂ with ⟨hj₂, -⟩ | ⟨hj₂, hc₂'⟩
      · exact hj₁.trans hj₂.symm
      · exact absurd rfl (hne j₂ c₂ hc₂' hc₂ hj₂ i hh.symm)
    · rcases getElem?_set_cases h₂ with ⟨hj₂, rfl⟩ | ⟨hj₂, hc₂'⟩
      · exact absurd rfl (hne j₁ c₁ hc₁' hc₁ hj₁ i hh)
      · exact S.own htwo j₁ j₂ c₁ c₂ hc₁' hc₂' hc₁ hc₂ hh
  · intro i' hi'
    by_cases hii : i' = i
    · subst hii
      have hlt : j < s.iters.length := (List.getElem?_eq_some_iff.mp hj).1
      exact ⟨j, _, List.getElem?_set_self hlt, hopen, rfl⟩
    · rw [setCursor_of_ne hii] at hi'
      obtain ⟨j', c', hj', hc', hh⟩ := S.owned i' hi'
      have hjj : j' ≠ j := by
        rintro rfl
        rw [hj] at hj'
        cases hj'
        exact hii (iterHandle_injective (hh.symm.trans O.handle))
      exact ⟨j', c', by rw [List.getElem?_set_ne (Ne.symm hjj), hj'], hc', hh⟩

theorem Separate.finish (S : Separate pAA s) (hj : s.iters[j]? = some c) (O : c.Open s.pAA i k)
    (hk : ¬ k < s.pAA.items.length) (hd : UInt32) :
    Separate pAA { s with iters := s.iters.set j { c with
      handle := hd
      ended := some amRetIterDone } } := by
  have hyield : c.yielded = entries pAA := by
    have hlen : (entries s.pAA).length ≤ k := by
      rw [entries, List.length_map]
      exact Nat.not_lt.mp hk
    rw [O.yielded, List.take_of_length_le hlen, entries_congr S.items]
  constructor
  · exact S.fault
  · exact S.items
  · exact S.sized
  · intro j' c' hj' e he
    rcases getElem?_set_cases hj' with ⟨-, rfl⟩ | ⟨-, hj'⟩
    · exact ⟨(Option.some.inj he).symm, hyield⟩
    · exact S.ended j' c' hj' e he
  · intro j' c' hj' hc'
    rcases getElem?_set_cases hj' with ⟨-, rfl⟩ | ⟨-, hj'⟩
    · cases hc'
    · exact S.ongoing j' c' hj' hc'
  · intro htwo j₁ j₂ c₁ c₂ h₁ h₂ hc₁ hc₂ hh
    rcases getElem?_set_cases h₁ with ⟨-, rfl⟩ | ⟨-, h₁⟩
    · cases hc₁
    · rcases getElem?_set_cases h₂ with ⟨-, rfl⟩ | ⟨-, h₂⟩
      · cases hc₂
      · exact S.own htwo j₁ j₂ c₁ c₂ h₁ h₂ hc₁ hc₂ hh
  · intro i' hi'
    obtain ⟨j', c', hj', hc', hh⟩ := S.owned i' hi'
    have hjj : j' ≠ j := by
      rintro rfl
      rw [hj] at hj'
      cases hj'
      have hii : i = i' := iterHandle_injective (O.handle.symm.trans hh)
      subst hii
      rw [O.cursor, cursorAt, if_neg hk] at hi'
      exact hi' rfl
    exact ⟨j', c', by rw [List.getElem?_set_ne (Ne.symm hjj), hj'], hc', hh⟩

theorem Separate.next (S : Separate pAA s) (h : s.step flags (.next j) = some s') :
    Separate pAA s' := by
  obtain ⟨c, i, k, hj, hopen, O, ⟨pAI, hitem, rfl⟩ | ⟨hk, hd, rfl⟩⟩ := S.next_cases h
  · exact S.yield hj hopen O hitem
  · exact S.finish hj O hk hd

end Next

section Begin
variable {i : Fin maxAsscaIters}

/-- A new iterator takes a free cursor and is given the first entry, or the end. -/
theorem Separate.begin_cases (S : Separate pAA s) (h : s.step flags .start = some s') :
    ∃ i, freeCursor s.pAA = some i ∧
      ((s.pAA.items = [] ∧ ∃ hd,
        s' = { s with iters := s.iters ++ [⟨hd, [], some amRetIterDone⟩] }) ∨
      ∃ pAI, s.pAA.items[0]? = some pAI ∧
        s' = { s with
          pAA := s.pAA.setCursor i (cursorAt s.pAA 1)
          iters := s.iters ++ [⟨iterHandle i, [(pAI.key, pAI.data)], none⟩] }) := by
  simp only [IterSystem.step] at h
  split at h
  case isFalse => cases h
  rename_i hcond
  obtain ⟨i, hi⟩ := Option.ne_none_iff_exists'.mp (S.freeCursor_ne_none hcond.2)
  refine ⟨i, hi, ?_⟩
  have hget : amAsscaGetIter s.pAA asscaIterFlagNew = iterHandle i := by
    rw [amAsscaGetIter_new, hi]
  have hvalid : amAsscaGetIter s.pAA asscaIterFlagNew ≠ asscaIterInvalid := by
    rw [hget]
    exact iterHandle_ne_invalid i
  have hcur : (if asscaIterFlagNew &&& (asscaIterFlagReset ||| asscaIterFlagNew) ≠ 0 then
      (if s.pAA.items = [] then none else some 0)
      else s.pAA.pIterArray (getIterIdx (amAsscaGetIter s.pAA asscaIterFlagNew))) =
        if s.pAA.items = [] then none else some 0 := if_pos (by decide)
  by_cases hitems : s.pAA.items = []
  · rw [IterSystem.call, asscaIter_end hvalid (hcur.trans (if_pos hitems))] at h
    dsimp only at h
    rw [IterClient.got_done] at h
    cases h
    exact .inl ⟨hitems, _, rfl⟩
  · have hitem := List.getElem?_eq_getElem (List.length_pos_iff.mpr hitems)
    rw [IterSystem.call, asscaIter_item (Build.direct_user flags) S.sized hvalid
      (hcur.trans (if_neg hitems)) hitem] at h
    dsimp only at h
    rw [hget, getIterIdx_iterHandle, next_eq_cursorAt, IterClient.got_good] at h
    cases h
    exact .inr ⟨_, hitem, rfl⟩

theorem Separate.enter_empty (S : Separate pAA s) (hitems : s.pAA.items = []) (hd : UInt32) :
    Separate pAA { s with iters := s.iters ++ [⟨hd, [], some amRetIterDone⟩] } := by
  have hempty : [] = entries pAA := by
    rw [entries, ← S.items, hitems, List.map_nil]
  constructor
  · exact S.fault
  · exact S.items
  · exact S.sized
  · intro j c hj e he
    rcases getElem?_concat_cases hj with ⟨hj, -⟩ | ⟨-, rfl⟩
    · exact S.ended j c hj e he
    · exact ⟨(Option.some.inj he).symm, hempty⟩
  · intro j c hj hc
    rcases getElem?_concat_cases hj with ⟨hj, -⟩ | ⟨-, rfl⟩
    · exact S.ongoing j c hj hc
    · cases hc
  · intro htwo
    rw [← S.items, hitems] at htwo
    exact absurd htwo (by decide)
  · intro i' hi'
    obtain ⟨j, c, hj, hc, hh⟩ := S.owned i' hi'
    have hlt : j < s.iters.length := (List.getElem?_eq_some_iff.mp hj).1
    exact ⟨j, c, by rw [List.getElem?_append_left hlt, hj], hc, hh⟩

/-- Where the cursor of another iterator is taken, no cursor matters. -/
theorem IterClient.Open.kept (hok : NoTakeover s .start) (hi : freeCursor s.pAA = some i)
    {c : IterClient} (hmem : c ∈ s.iters) (hc : c.ended = none) {i' : Fin maxAsscaIters} {k : ℕ}
    (O : c.Open s.pAA i' k) : c.Open (s.pAA.setCursor i (cursorAt s.pAA 1)) i' k := by
  rcases hok i hi with hone | hfree
  · have hnone : cursorAt s.pAA 1 = none := if_neg (by omega)
    have hsame : s.pAA.setCursor i (cursorAt s.pAA 1) = s.pAA := by
      rw [hnone, AmlibAssca.setCursor, ← freeCursor_eq_some hi, Function.update_eq_self]
    rwa [hsame]
  · apply O.setCursor
    rintro rfl
    exact hfree c hmem hc O.handle

theorem Separate.enter (S : Separate pAA s) (hok : NoTakeover s .start)
    (hi : freeCursor s.pAA = some i) {pAI : AsscaItem} (hitem : s.pAA.items[0]? = some pAI) :
    Separate pAA { s with
      pAA := s.pAA.setCursor i (cursorAt s.pAA 1)
      iters := s.iters ++ [⟨iterHandle i, [(pAI.key, pAI.data)], none⟩] } := by
  have hpos : 0 < s.pAA.items.length := (List.getElem?_eq_some_iff.mp hitem).1
  constructor
  · exact S.fault
  · exact S.items
  · exact S.sized
  · intro j c hj e he
    rcases getElem?_concat_cases hj with ⟨hj, -⟩ | ⟨-, rfl⟩
    · exact S.ended j c hj e he
    · cases he
  · intro j c hj hc
    rcases getElem?_concat_cases hj with ⟨hj, -⟩ | ⟨-, rfl⟩
    · obtain ⟨i', k, O⟩ := S.ongoing j c hj hc
      exact ⟨i', k, O.kept hok hi (List.mem_of_getElem? hj) hc⟩
    · exact ⟨i, 1, rfl, Nat.le_refl 1, hpos, (entries_take_succ hitem).symm, setCursor_self _ _ _⟩
  · intro htwo j₁ j₂ c₁ c₂ h₁ h₂ hc₁ hc₂ hh
    have hfree : ∀ c ∈ s.iters, c.ended = none → c.handle ≠ iterHandle i := by
      rcases hok i hi with hone | hfree
      · rw [S.items] at hone
        omega
      · exact hfree
    rcases getElem?_concat_cases h₁ with ⟨hj₁, -⟩ | ⟨hj₁, rfl⟩
    · rcases getElem?_concat_cases h₂ with ⟨hj₂, -⟩ | ⟨hj₂, rfl⟩
      · exact S.own htwo j₁ j₂ c₁ c₂ hj₁ hj₂ hc₁ hc₂ hh
      · exact absurd hh (hfree c₁ (List.mem_of_getElem? hj₁) hc₁)
    · rcases getElem?_concat_cases h₂ with ⟨hj₂, -⟩ | ⟨hj₂, rfl⟩
      · exact absurd hh.symm (hfree c₂ (List.mem_of_getElem? hj₂) hc₂)
      · exact hj₁.trans hj₂.symm
  · intro i' hi'
    by_cases hii : i' = i
    · subst hii
      exact ⟨_, _, List.getElem?_concat_length, rfl, rfl⟩
    · rw [setCursor_of_ne hii] at hi'
      obtain ⟨j, c, hj, hc, hh⟩ := S.owned i' hi'
      have hlt : j < s.iters.length := (List.getElem?_eq_some_iff.mp hj).1
      exact ⟨j, c, by rw [List.getElem?_append_left hlt, hj], hc, hh⟩

theorem Separate.begin (S : Separate pAA s) (hok : NoTakeover s .start)
    (h : s.step flags .start = some s') : Separate pAA s' := by
  obtain ⟨i, hi, ⟨hitems, hd, rfl⟩ | ⟨pAI, hitem, rfl⟩⟩ := S.begin_cases h
  · exact S.enter_empty hitems hd
  · exact S.enter hok hi hitem

end Begin

theorem Separate.step {a : IterAct} (S : Separate pAA s) (hok : NoTakeover s a)
    (h : s.step flags a = some s') : Separate pAA s' := by
  cases a with
  | start => exact S.begin hok h
  | next j => exact S.next h

/-- In every run in which no new iterator is given the cursor of one that is still open, each
iterator sees every entry once, in their order, whatever the others do. -/
theorem independent_of_noTakeover (S : Sized pAA) (hfree : ∀ i, pAA.pIterArray i = none)
    {as : List IterAct} (hok : Throughout (IterSystem.step flags) NoTakeover (.start pAA) as) :
    Always (IterSystem.step flags) (Independent pAA) (.start pAA) as :=
  always_of_throughout (I := Separate pAA) (fun _ S => S.independent)
    (fun _ _ _ S hok h => S.step hok h) (separate_start S hfree) hok

/-- The condition cannot be dropped: an iterator whose cursor was given away goes on behind the
last entry. -/
theorem takeover_yields_again (S : Separate pAA s) (htwo : 1 < pAA.items.length)
    (hroom : s.openIters.length < maxAsscaIters) {i : Fin maxAsscaIters} {j : ℕ} {c : IterClient}
    (hi : freeCursor s.pAA = some i) (hj : s.iters[j]? = some c) (hc : c.ended = none)
    (hh : c.handle = iterHandle i) :
    ∃ s', run (IterSystem.step flags) s [.start, .next j] = some s' ∧ ¬ Independent pAA s' := by
  obtain ⟨i', k, O⟩ := S.ongoing j c hj hc
  have hii : i' = i := iterHandle_injective (O.handle.symm.trans hh)
  subst hii
  have htwo' : 1 < s.pAA.items.length := by rwa [S.items]
  have hpos : 0 < s.pAA.items.length := Nat.zero_lt_of_lt htwo'
  -- the cursor is `NULL`, so all entries have been given out
  have hall : c.yielded = entries pAA := by
    have hnone := O.cursor.symm.trans (freeCursor_eq_some hi)
    have hk : ¬ k < s.pAA.items.length := fun hk => by
      rw [cursorAt, if_pos hk] at hnone
      cases hnone
    rw [O.yielded, List.take_of_length_le, entries_congr S.items]
    rw [entries, List.length_map]
    exact Nat.not_lt.mp hk
  have hget : amAsscaGetIter s.pAA asscaIterFlagNew = iterHandle i' := by
    rw [amAsscaGetIter_new, hi]
  have hnew : asscaIter .user flags s.pAA [] s.pAA.keyLen.toUInt64 [] s.pAA.dataLen.toUInt64
      asscaIterFlagNew = _ := asscaIter_item (Build.direct_user flags) S.sized
    (by rw [hget]; exact iterHandle_ne_invalid i')
    (by rw [if_pos (by decide), if_neg (List.length_pos_iff.mp hpos)])
    (List.getElem?_eq_getElem hpos)
  rw [hget, getIterIdx_iterHandle, next_eq_cursorAt, cursorAt, if_pos htwo'] at hnew
  have sized' : Sized (s.pAA.setCursor i' (some (0 + 1))) := S.sized
  have hold : asscaIter .user flags (s.pAA.setCursor i' (some (0 + 1))) [] s.pAA.keyLen.toUInt64 []
      s.pAA.dataLen.toUInt64 (iterHandle i') = _ := asscaIter_item (Build.direct_user flags) sized'
    (by rw [amAsscaGetIter_iterHandle]; exact iterHandle_ne_invalid i')
    (by rw [if_neg (iterHandle_not_head i'), amAsscaGetIter_iterHandle, getIterIdx_iterHandle,
      setCursor_self])
    (List.getElem?_eq_getElem htwo')
  have hlt : j < s.iters.length := (List.getElem?_eq_some_iff.mp hj).1
  have hcall : s.call flags asscaIterFlagNew = _ := hnew
  rw [run_cons, IterSystem.step, if_pos ⟨S.fault, hroom⟩, hcall, Option.bind_some, run_cons]
  simp only [IterSystem.step, List.getElem?_append_left hlt, hj, S.fault, hc, and_self, if_true,
    IterSystem.call, hh]
  have hold' : asscaIter .user flags (s.pAA.setCursor i' (some (0 + 1))) []
      (s.pAA.setCursor i' (some (0 + 1))).keyLen.toUInt64 []
      (s.pAA.setCursor i' (some (0 + 1))).dataLen.toUInt64 (iterHandle i') = _ := hold
  rw [hold']
  refine ⟨_, rfl, fun I => ?_⟩
  have hmem := I.ongoing _ (List.mem_set (by
    rw [List.length_append]
    exact Nat.lt_add_right _ hlt) _) hc
  have hlen := hmem.length_le
  dsimp only at hlen
  rw [IterClient.got_good] at hlen
  dsimp only at hlen
  rw [hall, List.length_append, List.length_singleton] at hlen
  omega

end Invariant

section Instances

def twoEntries : AmlibAssca :=
  { amlibAsscaInit 1 1 true true with items := [⟨[1], [10]⟩, ⟨[2], [20]⟩] }

theorem sized_twoEntries : Sized twoEntries := by
  simp [Sized, twoEntries, amlibAsscaInit]

/-- Two iterators that take turns. -/
theorem independent_twoEntries :
    Always (IterSystem.step 0) (Independent twoEntries) (.start twoEntries)
      [.start, .start, .next 1, .next 0, .next 0, .next 1] := by
  apply independent_of_noTakeover sized_twoEntries (fun _ => rfl)
  decide +kernel

/-- The second iterator starts when the first has got the last entry; the first is then given the
second entry again. -/
theorem not_independent : ¬ ∀ (flags : UInt32) (pAA : AmlibAssca), Sized pAA →
    (∀ i, pAA.pIterArray i = none) → ∀ as : List IterAct,
      Always (IterSystem.step flags) (Independent pAA) (.start pAA) as := by
  intro h
  have hall := h 0 twoEntries sized_twoEntries (fun _ => rfl) [.start, .next 0, .start, .next 0]
  have hrun : (run (IterSystem.step 0) (.start twoEntries)
      [.start, .next 0, .start, .next 0]).map IterSystem.iters = some
        [⟨iterHandle 0, [([1], [10]), ([2], [20]), ([2], [20])], none⟩,
          ⟨iterHandle 0, [([1], [10])], none⟩] := by decide +kernel
  rcases Option.map_eq_some_iff.mp hrun with ⟨s, hs, hiters⟩
  have hind := hall.run hs
  have hmem := hind.ongoing ⟨iterHandle 0, [([1], [10]), ([2], [20]), ([2], [20])], none⟩
    (by rw [hiters]; exact List.mem_cons_self) rfl
  exact absurd hmem (by decide)

end Instances

end AppMem.Assca
