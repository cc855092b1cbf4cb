import Mathlib.Data.Nat.ModEq
import Mathlib.Logic.Function.Basic
import Mathlib.Tactic.Common

/-! # A ring of slots with two indices

A ring of `n` slots holds a list from its consumer index on, and the producer index is where
the next element goes. Both indices are equal for an empty list and for a list of `n`
elements; a ring that is never filled up knows the two apart.
-/
namespace AppMem.Library.Ring

variable {β : Type*} {n ci : ℕ} {slot : ℕ → β} {l : List β}

/-- The slots hold `l` from `ci` on. -/
def Holds (n ci : ℕ) (slot : ℕ → β) (l : List β) : Prop :=
  ∀ j x, l[j]? = some x → slot ((ci + j) % n) = x

def produce (n ci : ℕ) (l : List β) : ℕ := (ci + l.length) % n

theorem holds_nil : Holds n ci slot ([] : List β) := fun _ _ h => nomatch h

theorem produce_lt (hn : 0 < n) : produce n ci l < n := Nat.mod_lt _ hn

/-- Fewer than `n` consecutive positions are distinct. -/
theorem position_inj {i j : ℕ} (hi : i < n) (hj : j < n) (h : (ci + i) % n = (ci + j) % n) :
    i = j := by
  have hmod : i % n = j % n := Nat.ModEq.add_left_cancel' ci h
  rwa [Nat.mod_eq_of_lt hi, Nat.mod_eq_of_lt hj] at hmod

theorem Holds.push (h : Holds n ci slot l) (hroom : l.length < n) (x : β) :
    Holds n ci (Function.update slot (produce n ci l) x) (l ++ [x]) := by
  intro j y hj
  by_cases hlt : j < l.length
  · have hne : (ci + j) % n ≠ produce n ci l := by
      intro he
      have := position_inj (hlt.trans hroom) hroom he
      omega
    rw [Function.update_of_ne hne]
    apply h
    rwa [List.getElem?_append_left hlt] at hj
  · have hjl : j = l.length := by
      have := (List.getElem?_eq_some_iff.mp hj).1
      rw [List.length_append, List.length_singleton] at this
      omega
    subst hjl
    rw [List.getElem?_concat_length] at hj
    cases hj
    exact Function.update_self _ _ _

theorem Holds.scratch (h : Holds n ci slot l) (hroom : l.length < n) (x : β) :
    Holds n ci (Function.update slot (produce n ci l) x) l := by
  intro j y hj
  have hlt := (List.getElem?_eq_some_iff.mp hj).1
  rw [Function.update_of_ne]
  · exact h j y hj
  · intro he
    have := position_inj (hlt.trans hroom) hroom he
    omega

theorem Holds.head {x : β} (h : Holds n ci slot (x :: l)) (hci : ci < n) : slot ci = x := by
  have := h 0 x rfl
  rwa [Nat.add_zero, Nat.mod_eq_of_lt hci] at this

theorem Holds.pop {x : β} (h : Holds n ci slot (x :: l)) : Holds n ((ci + 1) % n) slot l := by
  intro j y hj
  have := h (j + 1) y hj
  rwa [Nat.mod_add_mod, Nat.add_assoc, Nat.add_comm 1 j]

theorem produce_pop (x : β) : produce n ((ci + 1) % n) l = produce n ci (x :: l) := by
  rw [produce, produce, Nat.mod_add_mod, List.length_cons, Nat.add_assoc, Nat.add_comm 1]

theorem produce_push (x : β) : produce n ci (l ++ [x]) = (produce n ci l + 1) % n := by
  rw [produce, produce, Nat.mod_add_mod, List.length_append, List.length_singleton, Nat.add_assoc]

/-- Equal indices mean an empty ring, unless the ring is full. -/
theorem produce_eq_iff (hci : ci < n) (hroom : l.length < n) : produce n ci l = ci ↔ l = [] := by
  constructor
  · intro h
    have h0 : (ci + l.length) % n = (ci + 0) % n := h.trans (Nat.mod_eq_of_lt hci).symm
    exact List.length_eq_zero_iff.mp (position_inj hroom (Nat.lt_of_le_of_lt (Nat.zero_le _) hci) h0)
  · rintro rfl
    exact Nat.mod_eq_of_lt hci

/-- The test a producer can make before the last slot is taken. -/
theorem full_iff (hci : ci < n) (hroom : l.length < n) :
    (produce n ci l + 1) % n = ci ↔ l.length + 1 = n := by
  rw [produce, Nat.mod_add_mod, Nat.add_assoc]
  constructor
  · intro h
    by_contra hne
    have h0 : (ci + (l.length + 1)) % n = (ci + 0) % n := h.trans (Nat.mod_eq_of_lt hci).symm
    have := position_inj (by omega) (by omega) h0
    omega
  · intro h
    rw [h, Nat.add_mod_right, Nat.mod_eq_of_lt hci]

section Fill
variable {δ : Type*} {recv : β → δ → β} {i : ℕ} {d : δ} {ds : List δ}

/-- Put elements into the slots from `ci` on, each on top of what its slot holds. -/
def fill (n : ℕ) (recv : β → δ → β) : ℕ → (ℕ → β) → List δ → ℕ → β
  | _, slot, [] => slot
  | ci, slot, d :: ds =>
    fill n recv ((ci + 1) % n) (Function.update slot ci (recv (slot ci) d)) ds

theorem fill_concat (hci : ci < n) :
    fill n recv ci slot (ds ++ [d]) =
      Function.update (fill n recv ci slot ds) (produce n ci ds)
        (recv (fill n recv ci slot ds (produce n ci ds)) d) := by
  induction ds generalizing ci slot with
  | nil =>
    have hpos : produce n ci ([] : List δ) = ci := Nat.mod_eq_of_lt hci
    rw [hpos]
    rfl
  | cons e ds ih =>
    have hlt : (ci + 1) % n < n := Nat.mod_lt _ (Nat.zero_lt_of_lt hci)
    rw [List.cons_append, fill, ih hlt, produce_pop]
    rfl

theorem fill_of_ne (h : ∀ j, j < ds.length → (ci + j) % n ≠ i) (hci : ci < n) :
    fill n recv ci slot ds i = slot i := by
  induction ds generalizing ci slot with
  | nil => rfl
  | cons d ds ih =>
    have hhead : ci ≠ i := by
      have := h 0 (Nat.succ_pos _)
      rwa [Nat.add_zero, Nat.mod_eq_of_lt hci] at this
    rw [fill, ih, Function.update_of_ne hhead.symm]
    · intro j hj
      have := h (j + 1) (Nat.succ_lt_succ hj)
      rwa [Nat.mod_add_mod, Nat.add_assoc, Nat.add_comm 1 j]
    · exact Nat.mod_lt _ (Nat.zero_lt_of_lt hci)

/-- The first slot keeps the first element, as long as the others do not come round to it. -/
theorem fill_head (hci : ci < n) (hroom : ds.length < n) :
    fill n recv ci slot (d :: ds) ci = recv (slot ci) d := by
  rw [fill, fill_of_ne, Function.update_self]
  · intro j hj he
    rw [Nat.mod_add_mod, Nat.add_assoc, Nat.add_comm 1 j] at he
    have h0 : (ci + (j + 1)) % n = (ci + 0) % n := he.trans (Nat.mod_eq_of_lt hci).symm
    have := position_inj (by omega) (by omega) h0
    omega
  · exact Nat.mod_lt _ (Nat.zero_lt_of_lt hci)

end Fill

end AppMem.Library.Ring
