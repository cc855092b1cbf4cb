import Mathlib.Tactic.Common

/-! # Machines that take one action at a time

A step function says what an action makes of a state, or that it cannot happen there.
Several parties make one machine: an interleaving is a list of their actions. What every
step preserves holds at the end of every run; a condition on steps may be assumed of all
steps of a run.
-/
namespace AppMem.Library.Machine

variable {σ α : Type*} {step : σ → α → Option σ} {s s' : σ}

def run (step : σ → α → Option σ) (s : σ) (as : List α) : Option σ := as.foldlM step s

@[simp] theorem run_nil : run step s [] = some s := rfl

theorem run_cons (a : α) (as : List α) :
    run step s (a :: as) = (step s a).bind fun s' => run step s' as := rfl

theorem run_invariant {I : σ → Prop} (hstep : ∀ s a s', I s → step s a = some s' → I s')
    (hs : I s) {as : List α} (h : run step s as = some s') : I s' := by
  induction as generalizing s with
  | nil =>
    cases h
    exact hs
  | cons a as ih =>
    rcases Option.bind_eq_some_iff.mp h with ⟨s₁, ha, hrest⟩
    exact ih (hstep s a s₁ hs ha) hrest

def Throughout (step : σ → α → Option σ) (ok : σ → α → Prop) : σ → List α → Prop
  | _, [] => True
  | s, a :: as => ∀ s', step s a = some s' → ok s a ∧ Throughout step ok s' as

def Always (step : σ → α → Option σ) (P : σ → Prop) : σ → List α → Prop
  | s, [] => P s
  | s, a :: as => P s ∧ ∀ s', step s a = some s' → Always step P s' as

theorem Always.head {P : σ → Prop} {as : List α} (h : Always step P s as) : P s := by
  cases as with
  | nil => exact h
  | cons a as => exact h.1

theorem Always.run {P : σ → Prop} {as : List α} (h : Always step P s as)
    (hrun : Machine.run step s as = some s') : P s' := by
  induction as generalizing s with
  | nil =>
    cases hrun
    exact h
  | cons a as ih =>
    rcases Option.bind_eq_some_iff.mp hrun with ⟨s₁, ha, hrest⟩
    exact ih (h.2 s₁ ha) hrest

instance decidableThroughout {ok : σ → α → Prop} [∀ s a, Decidable (ok s a)] :
    (s : σ) → (as : List α) → Decidable (Throughout step ok s as)
  | _, [] => .isTrue trivial
  | s, a :: as =>
    match h : step s a with
    | none => .isTrue fun _ hs' => nomatch h.symm.trans hs'
    | some s₁ =>
      have : Decidable (Throughout step ok s₁ as) := decidableThroughout s₁ as
      decidable_of_iff (ok s a ∧ Throughout step ok s₁ as)
        ⟨fun hok _ hs' => Option.some.inj (h.symm.trans hs') ▸ hok, fun hall => hall s₁ h⟩

/-- A property that holds along an invariant, and an invariant that a condition on the steps
preserves. -/
theorem always_of_throughout {I P : σ → Prop} {ok : σ → α → Prop} (hP : ∀ s, I s → P s)
    (hstep : ∀ s a s', I s → ok s a → step s a = some s' → I s') (hs : I s) {as : List α}
    (hok : Throughout step ok s as) : Always step P s as := by
  induction as generalizing s with
  | nil => exact hP s hs
  | cons a as ih =>
    refine ⟨hP s hs, fun s' h => ?_⟩
    exact ih (hstep s a s' hs (hok s' h).1 h) (hok s' h).2

theorem Throughout.mono {I : σ → Prop} {ok ok' : σ → α → Prop}
    (hok : ∀ s a, I s → ok s a → ok' s a)
    (hstep : ∀ s a s', I s → ok s a → step s a = some s' → I s') (hs : I s) {as : List α}
    (h : Throughout step ok s as) : Throughout step ok' s as := by
  induction as generalizing s with
  | nil => trivial
  | cons a as ih =>
    intro s' hs'
    obtain ⟨ha, hrest⟩ := h s' hs'
    exact ⟨hok s a hs ha, ih (hstep s a s' hs ha hs') hrest⟩

/-- If a step that breaks the condition also breaks the property, the condition is necessary. -/
theorem throughout_of_always {I P : σ → Prop} {ok : σ → α → Prop}
    (hstep : ∀ s a s', I s → ok s a → step s a = some s' → I s')
    (hnec : ∀ s a s', I s → P s → step s a = some s' → P s' → ok s a) (hs : I s) {as : List α}
    (hP : Always step P s as) : Throughout step ok s as := by
  induction as generalizing s with
  | nil => trivial
  | cons a as ih =>
    intro s' h
    have hok := hnec s a s' hs hP.1 h (hP.2 s' h).head
    exact ⟨hok, ih (hstep s a s' hs hok h) (hP.2 s' h)⟩

end AppMem.Library.Machine
