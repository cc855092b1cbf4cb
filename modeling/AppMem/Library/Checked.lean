import Mathlib.Tactic.Common

/-! # Computations that may fault

A checked computation is a value of `Except ε`. The lemmas peel a sequence apart
without unfolding the monad, and `trace` runs a machine over a list of inputs,
collecting one output for each. Two machines related step by step have the same trace.
-/
namespace AppMem.Library.Checked

universe u
variable {ε : Type*} {α β σ τ ι ο : Type u}

@[simp] theorem ok_bind (a : α) (f : α → Except ε β) : (Except.ok a >>= f) = f a := rfl

@[simp] theorem error_bind (e : ε) (f : α → Except ε β) :
    ((Except.error e : Except ε α) >>= f) = .error e := rfl

@[simp] theorem pure_eq_ok (a : α) : (pure a : Except ε α) = .ok a := rfl

@[simp] theorem throw_eq_error (e : ε) : (throw e : Except ε α) = .error e := rfl

theorem bind_eq_ok {x : Except ε α} {f : α → Except ε β} {b : β} :
    (x >>= f) = .ok b ↔ ∃ a, x = .ok a ∧ f a = .ok b := by
  cases x with
  | error e => simp
  | ok a => simp

theorem except_map_bind (x : Except ε α) (f : α → Except ε β) (g : β → σ) :
    (x >>= f).map g = x >>= fun a => (f a).map g := by
  cases x with
  | error e => rfl
  | ok a => rfl

theorem except_bind_map (x : Except ε α) (g : α → β) (f : β → Except ε σ) :
    (x.map g >>= f) = x >>= fun a => f (g a) := by
  cases x with
  | error e => rfl
  | ok a => rfl

theorem except_map_map (x : Except ε α) (g : α → β) (f : β → σ) :
    (x.map g).map f = x.map fun a => f (g a) := by
  cases x with
  | error e => rfl
  | ok a => rfl

theorem except_map_eq_ok {x : Except ε α} {g : α → β} {b : β} :
    x.map g = .ok b ↔ ∃ a, x = .ok a ∧ g a = b := by
  cases x with
  | error e => simp [Except.map]
  | ok a => simp [Except.map]

/-- `c` must hold, or the computation faults with `e`. -/
def require (c : Prop) [Decidable c] (e : ε) : Except ε Unit := if c then .ok () else .error e

@[simp] theorem require_of_true {c : Prop} [Decidable c] (e : ε) (h : c) :
    require c e = .ok () := if_pos h

@[simp] theorem require_of_false {c : Prop} [Decidable c] (e : ε) (h : ¬ c) :
    require c e = .error e := if_neg h

theorem require_eq_ok {c : Prop} [Decidable c] {e : ε} {u : Unit} :
    require c e = .ok u ↔ c := by
  by_cases h : c
  · simp [h]
  · simp [h]

section Traces

/-- Feed a machine a list of inputs; the final state and the outputs in order. -/
def trace (step : σ → ι → Except ε (σ × ο)) : σ → List ι → Except ε (σ × List ο)
  | s, [] => .ok (s, [])
  | s, i :: is => do
    let r ← step s i
    let rest ← trace step r.1 is
    return (rest.1, r.2 :: rest.2)

theorem trace_cons (step : σ → ι → Except ε (σ × ο)) (s : σ) (i : ι) (is : List ι) :
    trace step s (i :: is) =
      step s i >>= fun r => trace step r.1 is >>= fun rest => .ok (rest.1, r.2 :: rest.2) := rfl

/-- What every step preserves holds at the end of every trace. -/
theorem trace_invariant {step : σ → ι → Except ε (σ × ο)} {P : σ → Prop}
    (hstep : ∀ s i s' o, P s → step s i = .ok (s', o) → P s') {s s' : σ} {is : List ι}
    {os : List ο} (hs : P s) (h : trace step s is = .ok (s', os)) : P s' := by
  induction is generalizing s os with
  | nil =>
    cases h
    exact hs
  | cons i is ih =>
    rw [trace_cons, bind_eq_ok] at h
    obtain ⟨⟨s₁, o⟩, hi, h⟩ := h
    rw [bind_eq_ok] at h
    obtain ⟨⟨s₂, os'⟩, hrest, h⟩ := h
    cases h
    exact ih (hstep s i s₁ o hs hi) hrest

/-- Each input meets `ok` in the state it arrives in, as long as the run goes on. -/
def Along (step : σ → ι → Except ε (σ × ο)) (ok : σ → ι → Prop) : σ → List ι → Prop
  | _, [] => True
  | s, i :: is => ok s i ∧ ∀ s' o, step s i = .ok (s', o) → Along step ok s' is

section Along
variable {step : σ → ι → Except ε (σ × ο)} {ok ok' : σ → ι → Prop} {P : σ → Prop}

theorem Along.of_forall (hok : ∀ s i, ok s i) (s : σ) (is : List ι) : Along step ok s is := by
  induction is generalizing s with
  | nil => trivial
  | cons i is ih => exact ⟨hok s i, fun s' _ _ => ih s'⟩

theorem Along.mono (hinv : ∀ s i s' o, P s → step s i = .ok (s', o) → P s')
    (hok : ∀ s i, P s → ok s i → ok' s i) {s : σ} (hs : P s) {is : List ι}
    (h : Along step ok s is) : Along step ok' s is := by
  induction is generalizing s with
  | nil => trivial
  | cons i is ih => exact ⟨hok s i hs h.1, fun s' o hi => ih (hinv s i s' o hs hi) (h.2 s' o hi)⟩

theorem along_congr (hinv : ∀ s i s' o, P s → step s i = .ok (s', o) → P s')
    (hok : ∀ s i, P s → (ok s i ↔ ok' s i)) {s : σ} (hs : P s) (is : List ι) :
    Along step ok s is ↔ Along step ok' s is :=
  ⟨Along.mono hinv (fun s i h => (hok s i h).mp) hs,
    Along.mono hinv (fun s i h => (hok s i h).mpr) hs⟩

theorem Along.of_append {s s' : σ} {is js : List ι} {os : List ο} (h : Along step ok s (is ++ js))
    (hrun : trace step s is = .ok (s', os)) : Along step ok s' js := by
  induction is generalizing s os with
  | nil =>
    cases hrun
    exact h
  | cons i is ih =>
    rw [trace_cons, bind_eq_ok] at hrun
    obtain ⟨⟨s₁, o⟩, hi, hrun⟩ := hrun
    rw [bind_eq_ok] at hrun
    obtain ⟨⟨s₂, os'⟩, hrest, hrun⟩ := hrun
    cases hrun
    exact ih (h.2 s₁ o hi) hrest

end Along

/-- Lockstep simulation: when each step of `impl` on an input that meets `ok`, seen through
`view`, is the step of `spec`, so is each trace along `ok`, faults included. -/
theorem trace_view_along {impl : σ → ι → Except ε (σ × ο)} {spec : τ → ι → Except ε (τ × ο)}
    {view : σ → τ} {ok : σ → ι → Prop}
    (hview : ∀ s i, ok s i → (impl s i).map (Prod.map view id) = spec (view s) i) {s : σ}
    {is : List ι} (h : Along impl ok s is) :
    (trace impl s is).map (Prod.map view id) = trace spec (view s) is := by
  induction is generalizing s with
  | nil => rfl
  | cons i is ih =>
    have hi := hview s i h.1
    rw [trace_cons, trace_cons, ← hi]
    cases hstep : impl s i with
    | error e => rfl
    | ok r =>
      have hr := ih (h.2 r.1 r.2 hstep)
      simp only [Except.map, ok_bind, Prod.map_fst, Prod.map_snd, id_eq]
      rw [← hr]
      cases trace impl r.1 is with
      | error e => rfl
      | ok q => rfl

theorem trace_outputs_along {impl : σ → ι → Except ε (σ × ο)} {spec : τ → ι → Except ε (τ × ο)}
    {view : σ → τ} {ok : σ → ι → Prop}
    (hview : ∀ s i, ok s i → (impl s i).map (Prod.map view id) = spec (view s) i) {s : σ}
    {is : List ι} (h : Along impl ok s is) :
    (trace impl s is).map Prod.snd = (trace spec (view s) is).map Prod.snd := by
  rw [← trace_view_along hview h]
  cases trace impl s is with
  | error e => rfl
  | ok r => rfl

/-- Lockstep simulation with an invariant of the specification and inputs in `Q`. -/
theorem trace_view {impl : σ → ι → Except ε (σ × ο)} {spec : τ → ι → Except ε (τ × ο)}
    {view : σ → τ} {P : τ → Prop} {Q : ι → Prop}
    (hinv : ∀ t i t' o, P t → Q i → spec t i = .ok (t', o) → P t')
    (hview : ∀ s i, P (view s) → Q i → (impl s i).map (Prod.map view id) = spec (view s) i)
    {s : σ} (hs : P (view s)) {is : List ι} (his : ∀ i ∈ is, Q i) :
    (trace impl s is).map (Prod.map view id) = trace spec (view s) is := by
  have hal : Along impl (fun s i => P (view s) ∧ Q i) s is := by
    induction is generalizing s with
    | nil => trivial
    | cons i is ih =>
      have hQ := his i List.mem_cons_self
      refine ⟨⟨hs, hQ⟩, fun s' o hi => ih ?_ fun j hj => his j (List.mem_cons_of_mem _ hj)⟩
      have hi' := hview s i hs hQ
      rw [hi] at hi'
      exact hinv _ i _ o hs hQ hi'.symm
  exact trace_view_along (fun s i h => hview s i h.1 h.2) hal

end Traces

end AppMem.Library.Checked
