import AppMem.Library.Bytes

/-! # Writing over a list

A text laid over a list goes as far as the list does: the length stays, and two pieces of a text laid
one behind the other are the text. And what `modify` does to an element may change places with what
is done to others.
-/
namespace AppMem.Library.Overlay
open Bytes

variable {α : Type*} {l : List α} {off i j : ℕ}

/-- The elements of `src` over those of `l` from `off` on, as far as `l` goes. -/
def overlay (l : List α) (off : ℕ) (src : List α) : List α :=
  l.mapIdx fun i a => if off ≤ i then src.getD (i - off) a else a

@[simp] theorem length_overlay (l : List α) (off : ℕ) (src : List α) :
    (overlay l off src).length = l.length := List.length_mapIdx

theorem getElem?_overlay (l : List α) (off : ℕ) (src : List α) (i : ℕ) :
    (overlay l off src)[i]? = l[i]?.map fun a => if off ≤ i then src.getD (i - off) a else a :=
  List.getElem?_mapIdx

theorem overlay_append (l : List α) (off : ℕ) (a b : List α) :
    overlay (overlay l off a) (off + a.length) b = overlay l off (a ++ b) := by
  apply List.ext_getElem?
  intro i
  rw [getElem?_overlay, getElem?_overlay, getElem?_overlay, Option.map_map]
  congr 1
  funext x
  simp only [Function.comp_apply, List.getD_eq_getElem?_getD, List.getElem?_append]
  by_cases hoff : off ≤ i
  · by_cases ha : i - off < a.length
    · rw [if_neg (by omega), if_pos hoff, if_pos hoff, if_pos ha]
    · have hsub : i - (off + a.length) = i - off - a.length := by omega
      rw [if_pos (by omega), if_pos hoff, if_pos hoff, if_neg ha, hsub,
        List.getElem?_eq_none (Nat.not_lt.mp ha)]
      rfl
  · rw [if_neg (by omega), if_neg hoff, if_neg hoff]

/-- Where there is room the text replaces what was there. -/
theorem overlay_eq_splice {src : List α} (h : off + src.length ≤ l.length) :
    overlay l off src = splice l off src := by
  apply List.ext_getElem?
  intro i
  rw [getElem?_splice h, getElem?_overlay]
  by_cases hin : off ≤ i ∧ i < off + src.length
  · have hl : i < l.length := by omega
    have hs : i - off < src.length := by omega
    rw [if_pos hin, List.getElem?_eq_getElem hl, List.getElem?_eq_getElem hs, Option.map_some,
      if_pos hin.1, List.getD_eq_getElem?_getD, List.getElem?_eq_getElem hs, Option.getD_some]
  · rw [if_neg hin]
    by_cases hoff : off ≤ i
    · have hs : src.length ≤ i - off := by omega
      simp only [if_pos hoff, List.getD_eq_getElem?_getD, List.getElem?_eq_none hs,
        Option.getD_none, Option.map_id']
    · simp only [if_neg hoff, Option.map_id']

theorem window_append_drop (l : List α) (off n : ℕ) :
    window l off n ++ l.drop (off + (window l off n).length) = l.drop off := by
  rw [← List.drop_drop, window, List.length_take]
  by_cases h : n ≤ (l.drop off).length
  · rw [Nat.min_eq_left h]
    exact List.take_append_drop _ _
  · have hle : (l.drop off).length ≤ n := Nat.le_of_not_le h
    rw [Nat.min_eq_right hle, List.take_of_length_le hle, List.drop_length, List.append_nil]

theorem modify_eq_set_of_getElem? {a : α} (g : α → α) (h : l[i]? = some a) :
    l.modify i g = l.set i (g a) := by
  apply List.ext_getElem?
  intro j
  by_cases hij : i = j
  · subst hij
    rw [List.getElem?_modify_eq, h, List.getElem?_set_self (List.getElem?_eq_some_iff.mp h).1]
    rfl
  · rw [List.getElem?_modify_ne _ _ hij, List.getElem?_set_ne hij]

theorem modify_append_left (h : i < l.length) (g : α → α) (l' : List α) :
    (l ++ l').modify i g = l.modify i g ++ l' := by
  apply List.ext_getElem?
  intro j
  by_cases hj : i = j
  · subst hj
    rw [List.getElem?_modify_eq, List.getElem?_append_left h,
      List.getElem?_append_left (by rwa [List.length_modify]), List.getElem?_modify_eq]
  · rw [List.getElem?_modify_ne _ _ hj, List.getElem?_append, List.getElem?_append,
      List.length_modify, List.getElem?_modify_ne _ _ hj]

theorem set_modify_of_ne (h : i ≠ j) (l : List α) (a : α) (g : α → α) :
    (l.modify i g).set j a = (l.set j a).modify i g := by
  apply List.ext_getElem?
  intro k
  by_cases hk : i = k
  · subst hk
    rw [List.getElem?_set_ne h.symm, List.getElem?_modify_eq, List.getElem?_modify_eq,
      List.getElem?_set_ne h.symm]
  · rw [List.getElem?_modify_ne _ _ hk, List.getElem?_set, List.getElem?_set, List.length_modify,
      List.getElem?_modify_ne _ _ hk]

end AppMem.Library.Overlay
