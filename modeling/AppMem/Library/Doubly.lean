import Mathlib.Data.List.Nodup
import Mathlib.Logic.Function.Basic
import Mathlib.Tactic.Common

/-! # Doubly linked lists

Nodes with a link to either side, by their addresses. `Linked` says that the nodes of a list are
linked one to the next in both directions, with given links at the two ends. A node is taken out by
turning the links of its neighbours to each other, and put in front by three stores; what the
stores do not reach stays linked.
-/
namespace AppMem.Library.Doubly

@[ext] structure Links where
  prev : Option ℕ
  next : Option ℕ

abbrev Web := ℕ → Option Links

namespace Web

def setNext (w : Web) (x : ℕ) (v : Option ℕ) : Web :=
  Function.update w x ((w x).map fun k => { k with next := v })

def setPrev (w : Web) (x : ℕ) (v : Option ℕ) : Web :=
  Function.update w x ((w x).map fun k => { k with prev := v })

def patchNext (w : Web) (o : Option ℕ) (v : Option ℕ) : Web := o.elim w fun x => w.setNext x v

def patchPrev (w : Web) (o : Option ℕ) (v : Option ℕ) : Web := o.elim w fun x => w.setPrev x v

@[simp] theorem patchNext_none (w : Web) (v : Option ℕ) : w.patchNext none v = w := rfl

@[simp] theorem patchPrev_none (w : Web) (v : Option ℕ) : w.patchPrev none v = w := rfl

@[simp] theorem patchNext_some (w : Web) (x : ℕ) (v : Option ℕ) :
    w.patchNext (some x) v = w.setNext x v := rfl

@[simp] theorem patchPrev_some (w : Web) (x : ℕ) (v : Option ℕ) :
    w.patchPrev (some x) v = w.setPrev x v := rfl

variable {w : Web} {o v : Option ℕ} {x y : ℕ}

theorem setNext_of_ne (h : y ≠ x) : w.setNext x v y = w y := Function.update_of_ne h _ _

theorem setPrev_of_ne (h : y ≠ x) : w.setPrev x v y = w y := Function.update_of_ne h _ _

theorem patchNext_of_notMem (h : y ∉ o) : w.patchNext o v y = w y := by
  cases o with
  | none => rfl
  | some x => exact setNext_of_ne fun hyx => h (hyx ▸ rfl)

theorem patchPrev_of_notMem (h : y ∉ o) : w.patchPrev o v y = w y := by
  cases o with
  | none => rfl
  | some x => exact setPrev_of_ne fun hyx => h (hyx ▸ rfl)

end Web

/-- The nodes of the list are linked; `before` and `after` are the links at its ends. -/
def Linked (w : Web) : Option ℕ → List ℕ → Option ℕ → Prop
  | _, [], _ => True
  | before, x :: l, after => w x = some ⟨before, l.head?.or after⟩ ∧ Linked w (some x) l after

variable {w w' : Web} {before before' after after' : Option ℕ} {l m : List ℕ} {x : ℕ}

@[simp] theorem linked_nil : Linked w before [] after := trivial

theorem linked_cons : Linked w before (x :: l) after ↔
    w x = some ⟨before, l.head?.or after⟩ ∧ Linked w (some x) l after := Iff.rfl

/-- Two pieces are linked if each is, to the ends of the other. -/
theorem linked_append : Linked w before (l ++ m) after ↔
    Linked w before l (m.head?.or after) ∧ Linked w (l.getLast?.or before) m after := by
  induction l generalizing before with
  | nil => simp
  | cons x l ih =>
    have hlast : (x :: l).getLast?.or before = l.getLast?.or (some x) := by
      rw [List.getLast?_cons]
      cases l.getLast? with
      | none => rfl
      | some y => rfl
    rw [List.cons_append, linked_cons, linked_cons, ih, hlast, List.head?_append, Option.or_assoc,
      and_assoc]

theorem Linked.congr (h : Linked w before l after) (hw : ∀ x ∈ l, w' x = w x) :
    Linked w' before l after := by
  induction l generalizing before with
  | nil => trivial
  | cons x l ih =>
    refine ⟨(hw x List.mem_cons_self).trans h.1, ih h.2 ?_⟩
    exact fun y hy => hw y (List.mem_cons_of_mem x hy)

theorem Linked.patchNext_other (h : Linked w before l after) {o v : Option ℕ}
    (ho : ∀ x ∈ o, x ∉ l) : Linked (w.patchNext o v) before l after :=
  h.congr fun _ hx => Web.patchNext_of_notMem fun hy => ho _ hy hx

theorem Linked.patchPrev_other (h : Linked w before l after) {o v : Option ℕ}
    (ho : ∀ x ∈ o, x ∉ l) : Linked (w.patchPrev o v) before l after :=
  h.congr fun _ hx => Web.patchPrev_of_notMem fun hy => ho _ hy hx

theorem Linked.patchPrev_head (h : Linked w before l after) (hl : l.Nodup) :
    Linked (w.patchPrev l.head? before') before' l after := by
  cases l with
  | nil => trivial
  | cons x l =>
    have hx : x ∉ l := (List.nodup_cons.mp hl).1
    refine ⟨?_, h.2.congr fun y hy => Web.setPrev_of_ne fun hyx => hx (hyx ▸ hy)⟩
    change Function.update w x _ x = _
    rw [Function.update_self, h.1]
    rfl

theorem Linked.patchNext_last (h : Linked w before l after) (hl : l.Nodup) :
    Linked (w.patchNext l.getLast? after') before l after' := by
  rcases List.eq_nil_or_concat l with rfl | ⟨l, x, rfl⟩
  · trivial
  · rw [List.concat_eq_append] at *
    have hx : x ∉ l := fun hx =>
      (List.nodup_append.mp hl).2.2 x hx x (List.mem_singleton_self x) rfl
    rw [linked_append] at h
    rw [List.getLast?_concat, linked_append]
    refine ⟨h.1.congr fun y hy => Web.setNext_of_ne fun hyx => hx (hyx ▸ hy), ?_, trivial⟩
    change Function.update w x _ x = _
    rw [Function.update_self, h.2.1]
    rfl

/-- A node in front of a list: it has its links, and the first node of the list is turned to it. -/
theorem Linked.push (h : Linked w before l after) (hl : l.Nodup) (hx : x ∉ l)
    (hw : w x = some ⟨before', l.head?.or after⟩) :
    Linked (w.patchPrev l.head? (some x)) before' (x :: l) after := by
  refine ⟨?_, h.patchPrev_head hl⟩
  rw [Web.patchPrev_of_notMem (fun hhead => hx (List.mem_of_mem_head? hhead)), hw]

/-- A node is taken out when its neighbours are turned to each other. -/
theorem Linked.remove (h : Linked w before (l ++ x :: m) after) (hl : (l ++ x :: m).Nodup) :
    Linked ((w.patchNext l.getLast? (m.head?.or after)).patchPrev m.head? (l.getLast?.or before))
      before (l ++ m) after := by
  obtain ⟨hl₁, hl₂, hdis⟩ := List.nodup_append.mp hl
  rw [linked_append] at h
  rw [linked_append]
  constructor
  · apply (h.1.patchNext_last hl₁).patchPrev_other
    intro y hy hyl
    exact hdis y hyl y (List.mem_cons_of_mem x (List.mem_of_mem_head? hy)) rfl
  · have hm : Linked (w.patchNext l.getLast? (m.head?.or after)) (some x) m after := by
      apply h.2.2.patchNext_other
      intro y hy hym
      exact hdis y (List.mem_of_getLast? hy) y (List.mem_cons_of_mem x hym) rfl
    exact hm.patchPrev_head (List.nodup_cons.mp hl₂).2

theorem Linked.links (h : Linked w before (l ++ x :: m) after) :
    w x = some ⟨l.getLast?.or before, m.head?.or after⟩ := (linked_append.mp h).2.1

/-- The links of a node in a list lead to the nodes beside it. -/
theorem Linked.beside (h : Linked w none (l ++ x :: m) none) {p n : Option ℕ}
    (hk : w x = some ⟨p, n⟩) : p = l.getLast? ∧ n = m.head? := by
  rw [h.links, Option.or_none, Option.or_none] at hk
  cases hk
  exact ⟨rfl, rfl⟩

theorem Linked.next_first (h : Linked w before (x :: l) none) {p n : Option ℕ}
    (hk : w x = some ⟨p, n⟩) : n = l.head? := by
  rw [h.1, Option.or_none] at hk
  cases hk
  rfl

theorem mem_of_beside {y : ℕ} (hy : y ∈ l.getLast? ∨ y ∈ m.head?) : y ∈ l ++ m := by
  rcases hy with hy | hy
  · exact List.mem_append_left m (List.mem_of_getLast? hy)
  · exact List.mem_append_right l (List.mem_of_mem_head? hy)

theorem head?_remove (hx : x ∉ l) :
    (if (l ++ x :: m).head? = some x then m.head? else (l ++ x :: m).head?) = (l ++ m).head? := by
  cases l with
  | nil => exact if_pos rfl
  | cons y l =>
    have hyx : y ≠ x := fun hyx => hx (hyx ▸ List.mem_cons_self)
    exact if_neg fun h => hyx (Option.some.inj h)

theorem getLast?_remove (hx : x ∉ m) :
    (if (l ++ x :: m).getLast? = some x then l.getLast? else (l ++ x :: m).getLast?) =
      (l ++ m).getLast? := by
  rcases List.eq_nil_or_concat m with rfl | ⟨m, y, rfl⟩
  · rw [List.getLast?_concat, if_pos rfl, List.append_nil]
  · rw [List.concat_eq_append] at hx ⊢
    have hyx : y ≠ x := fun hyx =>
      hx (hyx ▸ List.mem_append_right m (List.mem_singleton_self y))
    rw [← List.append_assoc, List.getLast?_concat, ← List.cons_append, ← List.append_assoc,
      List.getLast?_concat, if_neg fun h => hyx (Option.some.inj h)]

end AppMem.Library.Doubly
