import Mathlib.Data.List.Basic
import Mathlib.Logic.Function.Basic
import Mathlib.Tactic.Common

/-! # Chains that are pushed at the head and reversed as a whole

An entry enters a chain at its head. From time to time the chain is emptied entry by
entry, from its head, onto the head of a new chain, which reverses it. `layout` says
where every entry ends up: behind the head stand the entries that saw an even number of
reversals, the latest first, and then the others, the oldest first.
-/
namespace AppMem.Library.Chain

variable {α : Type*}

/-- The chain after `e` reversals; each entry carries the number of reversals before it. -/
def layout (e : ℕ) (l : List (α × ℕ)) : List α :=
  ((l.filter fun p => p.2 % 2 = e % 2).reverse ++ l.filter fun p => p.2 % 2 ≠ e % 2).map Prod.fst

@[simp] theorem layout_nil (e : ℕ) : layout e ([] : List (α × ℕ)) = [] := rfl

theorem layout_push (e : ℕ) (l : List (α × ℕ)) (a : α) :
    layout e (l ++ [(a, e)]) = a :: layout e l := by
  simp [layout]

theorem layout_flip (e : ℕ) (l : List (α × ℕ)) : layout (e + 1) l = (layout e l).reverse := by
  have hsame : (l.filter fun p => p.2 % 2 = (e + 1) % 2) = l.filter fun p => p.2 % 2 ≠ e % 2 := by
    apply List.filter_congr
    intro p _
    have : p.2 % 2 = (e + 1) % 2 ↔ p.2 % 2 ≠ e % 2 := by omega
    simp [this]
  have hother : (l.filter fun p => p.2 % 2 ≠ (e + 1) % 2) = l.filter fun p => p.2 % 2 = e % 2 := by
    apply List.filter_congr
    intro p _
    have : p.2 % 2 ≠ (e + 1) % 2 ↔ p.2 % 2 = e % 2 := by omega
    simp only [this]
  simp only [layout, hsame, hother, List.map_append, List.map_reverse, List.reverse_append,
    List.reverse_reverse]

theorem layout_filter (q : α → Bool) (e : ℕ) (l : List (α × ℕ)) :
    (layout e l).filter q = layout e (l.filter fun p => q p.1) := by
  simp only [layout, List.filter_map, List.filter_append, List.filter_reverse, List.filter_filter]
  congr 2
  · congr 1
    apply List.filter_congr
    intro p _
    exact Bool.and_comm _ _
  · apply List.filter_congr
    intro p _
    exact Bool.and_comm _ _

theorem layout_map {β : Type*} (f : α → β) (e : ℕ) (l : List (α × ℕ)) :
    (layout e l).map f = layout e (l.map fun p => (f p.1, p.2)) := by
  simp only [layout, List.map_map, List.filter_map, ← List.map_reverse, ← List.map_append]
  rfl

theorem perm_layout (e : ℕ) (l : List (α × ℕ)) : (layout e l).Perm (l.map Prod.fst) := by
  apply List.Perm.map
  have h := List.filter_append_perm (fun p : α × ℕ => decide (p.2 % 2 = e % 2)) l
  refine List.Perm.trans (List.Perm.append (List.reverse_perm _) ?_) h
  apply List.Perm.of_eq
  apply List.filter_congr
  intro p _
  simp

/-- The entry at the head: the latest of those that saw an even number of reversals, and the
oldest of all when there is none. -/
theorem head?_layout (e : ℕ) (l : List (α × ℕ)) :
    (layout e l).head? =
      ((l.filter fun p => p.2 % 2 = e % 2).getLast?.or l.head?).map Prod.fst := by
  simp only [layout, List.head?_map, List.head?_append, List.head?_reverse]
  cases h : (l.filter fun p => p.2 % 2 = e % 2).getLast? with
  | some p => simp
  | none =>
    have hnil : (l.filter fun p => p.2 % 2 = e % 2) = [] := List.getLast?_eq_none_iff.mp h
    have hall : (l.filter fun p => p.2 % 2 ≠ e % 2) = l := by
      rw [List.filter_eq_self]
      intro p hp
      have := List.filter_eq_nil_iff.mp hnil p hp
      simpa using this
    rw [hall]

section Buckets

/-- Bucket by bucket, the entries are a permutation of themselves. -/
theorem perm_flatMap_filter (f : α → ℕ) (n : ℕ) (l : List α) (h : ∀ a ∈ l, f a < n) :
    ((List.range n).flatMap fun i => l.filter fun a => f a = i).Perm l := by
  have key : ∀ m, ((List.range m).flatMap fun i => l.filter fun a => f a = i).Perm
      (l.filter fun a => f a < m) := by
    intro m
    induction m with
    | zero => simp
    | succ m ih =>
      rw [List.range_succ, List.flatMap_append, List.flatMap_singleton]
      refine (ih.append_right _).trans ?_
      have hsplit := List.filter_append_perm (fun a => decide (f a < m))
        (l.filter fun a => decide (f a < m + 1))
      rw [List.filter_filter, List.filter_filter] at hsplit
      have hlo : (l.filter fun a => decide (f a < m) && decide (f a < m + 1)) =
          l.filter fun a => decide (f a < m) := by
        apply List.filter_congr
        intro a _
        have : f a < m → f a < m + 1 := fun h => Nat.lt_succ_of_lt h
        by_cases ha : f a < m
        · simp [ha, this ha]
        · simp [ha]
      have hhi : (l.filter fun a => (!decide (f a < m)) && decide (f a < m + 1)) =
          l.filter fun a => decide (f a = m) := by
        apply List.filter_congr
        intro a _
        have hiff : f a = m ↔ ¬ f a < m ∧ f a < m + 1 := by omega
        rw [← decide_not, ← Bool.decide_and, decide_eq_decide]
        exact hiff.symm
      rw [hlo, hhi] at hsplit
      exact hsplit
  have hall : (l.filter fun a => decide (f a < n)) = l := by
    rw [List.filter_eq_self]
    intro a ha
    simpa using h a ha
  have hn := key n
  rwa [hall] at hn

/-- What only one bucket can hold is found by looking into that bucket. -/
theorem filter_flatMap_range (c : ℕ → List α) (q : α → Bool) {n i : ℕ} (hi : i < n)
    (h : ∀ j < n, j ≠ i → (c j).filter q = []) :
    ((List.range n).flatMap c).filter q = (c i).filter q := by
  induction n with
  | zero => omega
  | succ n ih =>
    rw [List.range_succ, List.flatMap_append, List.filter_append, List.flatMap_singleton]
    by_cases hin : i = n
    · subst hin
      have hnil : ((List.range i).flatMap c).filter q = [] := by
        rw [List.filter_flatMap, List.flatMap_eq_nil_iff]
        intro j hj
        rw [List.mem_range] at hj
        exact h j (by omega) (by omega)
      rw [hnil, List.nil_append]
    · rw [ih (by omega) fun j hj hji => h j (by omega) hji, h n (by omega) (by omega),
        List.append_nil]

theorem set_map_range (f : ℕ → α) (n i : ℕ) (a : α) :
    ((List.range n).map f).set i a = (List.range n).map (Function.update f i a) := by
  apply List.ext_getElem?
  intro j
  rw [List.getElem?_set]
  simp only [List.length_map, List.length_range, List.getElem?_map]
  by_cases hj : j < n
  · by_cases hij : i = j
    · subst hij
      simp [hj]
    · simp [hij, Ne.symm hij, hj]
  · have hnone : (List.range n)[j]? = none := by
      rw [List.getElem?_eq_none_iff, List.length_range]
      omega
    by_cases hij : i = j
    · subst hij
      simp [hj]
    · simp [hij, hnone]

end Buckets

end AppMem.Library.Chain
