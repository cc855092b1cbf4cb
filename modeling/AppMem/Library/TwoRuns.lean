import Mathlib.Data.Set.Basic
import Mathlib.Order.Interval.Set.Defs
import AppMem.Library.Bytes
import AppMem.Library.Checked

/-! # Two runs of one program

Two checked computations in lockstep end with related values or with the same fault, and two lists
agree on a set of positions. The rules follow the operations a program is built from; what two
machines in lockstep put out is the same.
-/
namespace AppMem.Library.TwoRuns
open Library.Bytes Library.Checked

universe u

section Lockstep
variable {ε : Type*} {α β γ δ σ τ ι κ ο : Type u}

/-- Both end with values in `R`, or both end with one fault. -/
def Lockstep (R : α → β → Prop) : Except ε α → Except ε β → Prop
  | .ok a, .ok b => R a b
  | .error e, .error e' => e = e'
  | _, _ => False

variable {R : α → β → Prop} {R' : γ → δ → Prop} {x : Except ε α} {y : Except ε β}

theorem Lockstep.refl (x : Except ε α) : Lockstep Eq x x := by
  cases x with
  | error e => rfl
  | ok a => exact (rfl : a = a)

theorem Lockstep.mono {S : α → β → Prop} (hRS : ∀ a b, R a b → S a b) (h : Lockstep R x y) :
    Lockstep S x y := by
  cases x with
  | error e => cases y <;> exact h
  | ok a =>
    cases y with
    | error e => exact h
    | ok b => exact hRS a b h

theorem Lockstep.bind {f : α → Except ε γ} {g : β → Except ε δ} (h : Lockstep R x y)
    (hfg : ∀ a b, R a b → Lockstep R' (f a) (g b)) : Lockstep R' (x >>= f) (y >>= g) := by
  cases x with
  | error e =>
    cases y with
    | error e' => exact h
    | ok b => exact h.elim
  | ok a =>
    cases y with
    | error e' => exact h.elim
    | ok b => exact hfg a b h

theorem Lockstep.bind_same {f : α → Except ε γ} {g : α → Except ε δ} (x : Except ε α)
    (hfg : ∀ a, x = .ok a → Lockstep R' (f a) (g a)) : Lockstep R' (x >>= f) (x >>= g) := by
  cases x with
  | error e => rfl
  | ok a => exact hfg a rfl

theorem Lockstep.ite {c : Prop} [Decidable c] {x' : Except ε α} {y' : Except ε β}
    (h : c → Lockstep R x y) (h' : ¬ c → Lockstep R x' y') :
    Lockstep R (if c then x else x') (if c then y else y') := by
  by_cases hc : c
  · rw [if_pos hc, if_pos hc]
    exact h hc
  · rw [if_neg hc, if_neg hc]
    exact h' hc

theorem Lockstep.ok_left (h : Lockstep R x y) {a : α} (hx : x = .ok a) : ∃ b, y = .ok b ∧ R a b := by
  subst hx
  cases y with
  | error e => exact h.elim
  | ok b => exact ⟨b, rfl, h⟩

theorem Lockstep.trans {S : β → γ → Prop} {z : Except ε γ} (h : Lockstep R x y) (h' : Lockstep S y z) :
    Lockstep (fun a c => ∃ b, R a b ∧ S b c) x z := by
  cases x with
  | error e =>
    cases y with
    | error e' => cases z with
      | error e'' => exact Eq.trans h h'
      | ok c => exact h'.elim
    | ok b => exact h.elim
  | ok a =>
    cases y with
    | error e' => exact h.elim
    | ok b => cases z with
      | error e'' => exact h'.elim
      | ok c => exact ⟨b, h, h'⟩

theorem Lockstep.ran (h : Lockstep R x y) : Lockstep (fun a b => x = .ok a ∧ R a b) x y := by
  cases x with
  | error e => cases y <;> exact h
  | ok a =>
    cases y with
    | error e => exact h
    | ok b => exact ⟨rfl, h⟩

theorem Lockstep.of_map_eq {g : α → β} (h : x.map g = y) : Lockstep (fun a b => g a = b) x y := by
  subst h
  cases x with
  | error e => rfl
  | ok a => exact (rfl : g a = g a)

theorem Lockstep.outputs {P : σ × ο → τ × ο → Prop} {x : Except ε (σ × ο)} {y : Except ε (τ × ο)}
    (h : Lockstep (fun r r' => P r r' ∧ r.2 = r'.2) x y) : x.map Prod.snd = y.map Prod.snd := by
  cases x with
  | error e =>
    cases y with
    | error e' => exact congrArg Except.error h
    | ok r' => exact h.elim
  | ok r =>
    cases y with
    | error e' => exact h.elim
    | ok r' => exact congrArg Except.ok h.2

/-- Machines that stay related step by step stay related over every trace. -/
theorem trace_lockstep {step : σ → ι → Except ε (σ × ο)} {step' : τ → ι → Except ε (τ × ο)}
    {R : σ → τ → Prop} (hstep : ∀ s t i, R s t →
      Lockstep (fun r r' => R r.1 r'.1 ∧ r.2 = r'.2) (step s i) (step' t i))
    {s : σ} {t : τ} (hst : R s t) (is : List ι) :
    Lockstep (fun r r' => R r.1 r'.1 ∧ r.2 = r'.2) (trace step s is) (trace step' t is) := by
  induction is generalizing s t with
  | nil => exact ⟨hst, rfl⟩
  | cons i is ih =>
    rw [trace_cons, trace_cons]
    apply (hstep s t i hst).bind
    rintro r r' ⟨hr, ho⟩
    apply (ih hr).bind
    rintro q q' ⟨hq, hos⟩
    exact ⟨hq, by rw [ho, hos]⟩

variable {step : σ → ι → Except ε (σ × ο)} {step' : τ → κ → Except ε (τ × ο)}
  {R : σ → τ → Prop} {Q : ι → κ → Prop} {ok : σ → ι → Prop}

/-- If on related states and inputs the first machine goes on wherever `ok` holds and the second
stays related to it and puts out the same, then both get through a run along `ok` and put out the
same. -/
theorem trace_lockstep_along
    (hstep : ∀ s t i j, R s t → Q i j → ok s i →
      ∃ s' t' o, step s i = .ok (s', o) ∧ step' t j = .ok (t', o) ∧ R s' t')
    {s : σ} {t : τ} (hst : R s t) {is : List ι} {js : List κ} (hij : List.Forall₂ Q is js)
    (hal : Along step ok s is) :
    ∃ s' t' os, trace step s is = .ok (s', os) ∧ trace step' t js = .ok (t', os) ∧ R s' t' := by
  induction hij generalizing s t with
  | nil => exact ⟨s, t, [], rfl, rfl, hst⟩
  | cons hQ _ ih =>
    obtain ⟨s₁, t₁, o, hs, ht, h₁⟩ := hstep s t _ _ hst hQ hal.1
    obtain ⟨s₂, t₂, os, hs', ht', h₂⟩ := ih h₁ (hal.2 s₁ o hs)
    refine ⟨s₂, t₂, o :: os, ?_, ?_, h₂⟩
    · rw [trace_cons, hs, ok_bind, hs', ok_bind]
    · rw [trace_cons, ht, ok_bind, ht', ok_bind]

end Lockstep

section Agreement
variable {α : Type*} {K K' : Set ℕ} {l l' : List α}

/-- Two lists of one length with the same cells at the positions in `K`. -/
structure AgreeOn (K : Set ℕ) (l l' : List α) : Prop where
  length : l.length = l'.length
  cells : ∀ k ∈ K, l[k]? = l'[k]?

theorem AgreeOn.refl (K : Set ℕ) (l : List α) : AgreeOn K l l := ⟨rfl, fun _ _ => rfl⟩

theorem agreeOn_empty (h : l.length = l'.length) : AgreeOn ∅ l l' := ⟨h, fun _ hk => hk.elim⟩

theorem AgreeOn.mono (h : AgreeOn K l l') (hK : K' ⊆ K) : AgreeOn K' l l' :=
  ⟨h.length, fun k hk => h.cells k (hK hk)⟩

theorem AgreeOn.window {off len : ℕ} (h : AgreeOn K l l') (hK : Set.Ico off (off + len) ⊆ K) :
    window l off len = window l' off len := by
  apply List.ext_getElem?
  intro i
  rw [getElem?_window, getElem?_window]
  by_cases hi : i < len
  · have hmem : off + i ∈ K := hK ⟨Nat.le_add_right off i, Nat.add_lt_add_left hi off⟩
    rw [if_pos hi, if_pos hi, h.cells _ hmem]
  · rw [if_neg hi, if_neg hi]

theorem AgreeOn.splice {off : ℕ} {src : List α} (h : AgreeOn K l l')
    (hin : off + src.length ≤ l.length) :
    AgreeOn (K ∪ Set.Ico off (off + src.length)) (splice l off src) (splice l' off src) := by
  have hin' : off + src.length ≤ l'.length := h.length ▸ hin
  constructor
  · rw [length_splice hin, length_splice hin', h.length]
  · intro k hk
    rw [getElem?_splice hin, getElem?_splice hin']
    by_cases hcell : off ≤ k ∧ k < off + src.length
    · rw [if_pos hcell, if_pos hcell]
    · rw [if_neg hcell, if_neg hcell]
      exact h.cells k (hk.resolve_right hcell)

end Agreement

end AppMem.Library.TwoRuns
