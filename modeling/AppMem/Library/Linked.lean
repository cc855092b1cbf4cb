import Mathlib.Data.List.Basic
import Mathlib.Tactic.Common

/-! # Linked cells

Cells that stand one after the other in memory, each with a value and the address of another one.
What is found by following the links from an address is one sequence of values; cells that are added
behind the others do not change it.
-/
namespace AppMem.Library.Linked

variable {α : Type*}

structure Cell (α : Type*) where
  value : α
  next : Option ℕ

variable {cells : List (Cell α)} {head : Option ℕ} {l l' : List α}

/-- The values from an address on, in the order of the links. -/
inductive Chained (cells : List (Cell α)) : Option ℕ → List α → Prop
  | nil : Chained cells none []
  | cons {i : ℕ} {c : Cell α} {l : List α} (hc : cells[i]? = some c)
    (hl : Chained cells c.next l) : Chained cells (some i) (c.value :: l)

theorem Chained.unique (h : Chained cells head l) (h' : Chained cells head l') : l = l' := by
  induction h generalizing l' with
  | nil =>
    cases h'
    rfl
  | cons hc _ ih =>
    cases h' with
    | cons hc' hl' =>
      cases Option.some.inj (hc.symm.trans hc')
      rw [ih hl']

theorem Chained.append (h : Chained cells head l) (more : List (Cell α)) :
    Chained (cells ++ more) head l := by
  induction h with
  | nil => exact .nil
  | cons hc _ ih =>
    refine .cons ?_ ih
    obtain ⟨hi, -⟩ := List.getElem?_eq_some_iff.mp hc
    rw [List.getElem?_append_left hi, hc]

/-- A new cell that points to the head of a chain is the head of a longer one. -/
theorem Chained.push (h : Chained cells head l) (a : α) :
    Chained (cells ++ [⟨a, head⟩]) (some cells.length) (a :: l) := by
  have hnew : (cells ++ [⟨a, head⟩])[cells.length]? = some ⟨a, head⟩ := List.getElem?_concat_length
  exact .cons hnew (h.append _)

end AppMem.Library.Linked
