import Mathlib.Data.Finset.Basic
import Mathlib.Data.Finset.Lattice.Lemmas
import Mathlib.Data.List.Nodup
import AppMem.Library.Checked

/-! # The blocks of a heap

A heap says which blocks are live and in which order the others were freed. A block that was
ever allocated is live or was freed, and then once: freeing a block that is not live is a fault
of the program. What the blocks hold is left to the program.
-/
namespace AppMem.Library.Blocks
open Library.Checked

/-- A heap. Blocks are numbered in the order of their allocation. -/
@[ext] structure Heap where
  next : ℕ
  live : Finset ℕ
  freed : List ℕ
  covers : ∀ b, b < next ↔ b ∈ live ∨ b ∈ freed
  once : freed.Nodup
  apart : ∀ b ∈ freed, b ∉ live

namespace Heap

variable {ε : Type*} {e : ε} {h h' : Heap} {a b : ℕ} {l : List ℕ}

def empty : Heap where
  next := 0
  live := ∅
  freed := []
  covers b := by simp
  once := List.nodup_nil
  apart b hb := absurd hb List.not_mem_nil

theorem lt_next (hb : b ∈ h.live) : b < h.next := (h.covers b).mpr (.inl hb)

theorem next_notMem_live (h : Heap) : h.next ∉ h.live := fun hb => lt_irrefl _ (lt_next hb)

theorem next_notMem_freed (h : Heap) : h.next ∉ h.freed :=
  fun hb => lt_irrefl _ ((h.covers h.next).mpr (.inr hb))

def alloc (h : Heap) : Heap where
  next := h.next + 1
  live := insert h.next h.live
  freed := h.freed
  covers b := by
    rw [Finset.mem_insert, or_assoc, ← h.covers b, Nat.lt_succ_iff_lt_or_eq, or_comm]
  once := h.once
  apart b hb := by
    rw [Finset.mem_insert, not_or]
    constructor
    · rintro rfl
      exact h.next_notMem_freed hb
    · exact h.apart b hb

/-- `malloc`, which may find no memory. -/
def malloc (ok : Bool) (h : Heap) : Option ℕ × Heap :=
  if ok then (some h.next, h.alloc) else (none, h)

def drop (h : Heap) (b : ℕ) (hb : b ∈ h.live) : Heap where
  next := h.next
  live := h.live.erase b
  freed := h.freed ++ [b]
  covers a := by
    rw [h.covers a, Finset.mem_erase, List.mem_append, List.mem_singleton]
    by_cases hab : a = b
    · subst hab
      simp [hb]
    · simp [hab]
  once := by
    apply h.once.append (List.nodup_singleton b)
    rw [List.disjoint_singleton]
    exact fun hf => h.apart b hf hb
  apart a ha := by
    rw [Finset.mem_erase, not_and]
    rcases List.mem_append.mp ha with ha | ha
    · exact fun _ => h.apart a ha
    · exact fun hne => absurd (List.mem_singleton.mp ha) hne

/-- `free`; a block that is not live is a fault. -/
def free (e : ε) (h : Heap) (b : ℕ) : Except ε Heap :=
  if hb : b ∈ h.live then .ok (h.drop b hb) else .error e

@[simp] theorem malloc_true (h : Heap) : h.malloc true = (some h.next, h.alloc) := rfl

@[simp] theorem malloc_false (h : Heap) : h.malloc false = (none, h) := rfl

@[simp] theorem live_alloc (h : Heap) : h.alloc.live = insert h.next h.live := rfl

@[simp] theorem live_drop (h : Heap) (hb : b ∈ h.live) : (h.drop b hb).live = h.live.erase b := rfl

theorem free_of_live (e : ε) (hb : b ∈ h.live) : free e h b = .ok (h.drop b hb) := dif_pos hb

theorem free_of_not_live (e : ε) (hb : b ∉ h.live) : free e h b = .error e := dif_neg hb

/-- Freeing takes the block away, and says that it was live. -/
theorem free_eq_ok (hf : free e h b = .ok h') :
    b ∈ h.live ∧ h'.live = h.live.erase b ∧ h'.freed = h.freed ++ [b] ∧ h'.next = h.next := by
  by_cases hb : b ∈ h.live
  · rw [free_of_live e hb] at hf
    cases hf
    exact ⟨hb, rfl, rfl, rfl⟩
  · rw [free_of_not_live e hb] at hf
    cases hf

/-- A block that is freed right after its allocation leaves no trace among the live ones. -/
theorem free_alloc (e : ε) (h : Heap) : ∃ h', free e h.alloc h.next = .ok h' ∧ h'.live = h.live := by
  have hb : h.next ∈ h.alloc.live := Finset.mem_insert_self _ _
  refine ⟨_, free_of_live e hb, ?_⟩
  exact Finset.erase_insert h.next_notMem_live

def freeAll (e : ε) (h : Heap) (l : List ℕ) : Except ε Heap := l.foldlM (free e) h

theorem freeAll_cons (e : ε) (h : Heap) (b : ℕ) (l : List ℕ) :
    freeAll e h (b :: l) = free e h b >>= fun h' => freeAll e h' l := rfl

/-- What was freed one after the other stands at the end, in that order. -/
theorem freeAll_eq_ok (hf : freeAll e h l = .ok h') :
    h'.freed = h.freed ++ l ∧ h'.next = h.next := by
  induction l generalizing h with
  | nil =>
    cases hf
    exact ⟨(List.append_nil _).symm, rfl⟩
  | cons b l ih =>
    rw [freeAll_cons, bind_eq_ok] at hf
    obtain ⟨h₁, hb, hf⟩ := hf
    obtain ⟨-, -, hfreed, hnext⟩ := free_eq_ok hb
    obtain ⟨hfreed', hnext'⟩ := ih hf
    refine ⟨?_, hnext'.trans hnext⟩
    rw [hfreed', hfreed, List.append_assoc, List.singleton_append]

theorem freeAll_append (e : ε) (h : Heap) (l m : List ℕ) :
    freeAll e h (l ++ m) = freeAll e h l >>= fun h' => freeAll e h' m :=
  List.foldlM_append

/-- The blocks that became live since the heap was `h₀` and still are, each once in a list. -/
structure Since (h₀ h : Heap) (l : List ℕ) : Prop where
  nodup : l.Nodup
  fresh : ∀ b ∈ l, h₀.next ≤ b
  grown : h₀.next ≤ h.next
  live : h.live = h₀.live ∪ l.toFinset

namespace Since

variable {h₀ : Heap} {m : List ℕ}

theorem refl (h : Heap) : Since h h [] where
  nodup := List.nodup_nil
  fresh b hb := absurd hb List.not_mem_nil
  grown := le_rfl
  live := by simp

theorem perm (S : Since h₀ h l) (hp : l.Perm m) : Since h₀ h m where
  nodup := hp.nodup_iff.mp S.nodup
  fresh b hb := S.fresh b (hp.mem_iff.mpr hb)
  grown := S.grown
  live := by rw [S.live, List.toFinset_eq_of_perm _ _ hp]

theorem mem_live (S : Since h₀ h l) (hb : b ∈ l) : b ∈ h.live := by
  rw [S.live, Finset.mem_union, List.mem_toFinset]
  exact .inr hb

theorem alloc (S : Since h₀ h l) : Since h₀ h.alloc (h.next :: l) where
  nodup := List.nodup_cons.mpr ⟨fun hb => h.next_notMem_live (S.mem_live hb), S.nodup⟩
  fresh b hb := by
    rcases List.mem_cons.mp hb with rfl | hb
    · exact S.grown
    · exact S.fresh b hb
  grown := S.grown.trans (Nat.le_succ _)
  live := by rw [live_alloc, S.live, List.toFinset_cons, Finset.union_insert]

theorem free (S : Since h₀ h (b :: l)) (e : ε) :
    ∃ h', Heap.free e h b = .ok h' ∧ Since h₀ h' l := by
  have hb : b ∈ h.live := S.mem_live List.mem_cons_self
  obtain ⟨hnot, hl⟩ := List.nodup_cons.mp S.nodup
  have hold : b ∉ h₀.live := fun hlive =>
    absurd (lt_next hlive) (Nat.not_lt.mpr (S.fresh b List.mem_cons_self))
  refine ⟨_, free_of_live e hb, hl, fun a ha => S.fresh a (List.mem_cons_of_mem b ha), S.grown, ?_⟩
  have hboth : b ∉ h₀.live ∪ l.toFinset := by
    rw [Finset.mem_union, List.mem_toFinset, not_or]
    exact ⟨hold, hnot⟩
  rw [live_drop, S.live, List.toFinset_cons, Finset.union_insert, Finset.erase_insert hboth]

theorem freeAll (S : Since h₀ h (l ++ m)) (e : ε) :
    ∃ h', Heap.freeAll e h l = .ok h' ∧ Since h₀ h' m := by
  induction l generalizing h with
  | nil => exact ⟨h, rfl, S⟩
  | cons b l ih =>
    obtain ⟨h₁, hb, S₁⟩ := S.free e
    obtain ⟨h₂, hl, S₂⟩ := ih S₁
    refine ⟨h₂, ?_, S₂⟩
    rw [freeAll_cons, hb, ok_bind, hl]

end Since

end Heap

end AppMem.Library.Blocks
