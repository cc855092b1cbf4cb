import AppMem.Driver.Client
import AppMem.Driver.Commit

/-! # Two calls at once

Two processes call the driver, and their steps come in any order. There is one command block for
both. As long as no call stores over what the other has yet to read in it, reads further than its
own command, or reads the value that the other is filling, the calls do what they do one after the
other, in one of the two orders.
-/
namespace AppMem.Driver
open Library.Bytes Library.Checked Library.Machine Abi Memory Pack Device Hash

section Orders

def IoctlCall.run (c : IoctlCall) (k : Kernel) : Exec IoctlResult :=
  appmemdIoctl c.ke k c.minor c.cmd c.arg

def IoctlResult.outcome (r : IoctlResult) : Outcome := ⟨r.ret, r.handled, r.writes⟩

variable (calls : Bool → IoctlCall) (k : Kernel)

def inTurn (first : Bool) : Exec (Kernel × (Bool → Outcome)) := do
  let r ← (calls first).run k
  let r' ← (calls !first).run r.kernel
  return (r'.kernel, fun i => if i = first then r.outcome else r'.outcome)

/-- Of the driver that the calls found in state `k`: when both have returned they got what they get
in one of the orders, and the driver is the same but for the block; and a fault is a fault in one of
the orders. -/
structure Serializable (s : Calls Bool) : Prop where
  results : ∀ o : Bool → Outcome, (∀ i, s.points i = .returned (o i)) →
    ∃ first k', inTurn calls k first = .ok (k', o) ∧ k'.cleared = s.kernel.cleared
  faults : ∀ i e, s.points i = .fault e → ∃ first e', inTurn calls k first = .error e'

/-- Unless the driver has faulted, a step does the same with a block that holds the command of its
call and zeros behind. -/
def UsesOwn (s : Calls Bool) (a : Bool × ℕ) : Prop :=
  (∀ i e, s.points i ≠ .fault e) → ∀ block own, (calls a.1).arg = some block →
    KamCmd.zero.put 0 (fetched block (calls a.1).bytes) = .ok own →
    (advance (calls a.1) a.2 s.kernel (s.points a.1)).map (Except.map cleared) =
      (advance (calls a.1) a.2 (s.kernel.withBlock own) (s.points a.1)).map (Except.map cleared)

/-- What a run of two calls should be: every step uses the command of its own call, and the calls
have the results and the effects of some order. -/
structure Unmixed (acts : List (Bool × ℕ)) : Prop where
  own : Throughout (Calls.step calls) (UsesOwn calls) (.start k) acts
  order : Always (Calls.step calls) (Serializable calls k) (.start k) acts

def Exclusive (s : Calls Bool) (a : Bool × ℕ) : Prop :=
  (calls a.1).KeepsOut a.2 s.kernel (s.points !a.1) (s.points a.1)

end Orders

section Reached

/-- The driver after it was loaded and some calls were served. -/
inductive Reached : Kernel → Prop
  | start (fresh : MemFunction) (major : ℕ) (entries : Registry) :
    Reached (.start fresh major entries)
  | ioctl {k : Kernel} (h : Reached k) (c : IoctlCall) {r : IoctlResult} (hr : c.run k = .ok r) :
    Reached r.kernel

variable {c : IoctlCall} {k k' : Kernel} {p : Point}

theorem takeEffect_sound (hk : k.Sound) (h : c.takeEffect k = .ok (k', p)) : k'.Sound := by
  rcases enter_cases c k with ⟨block, henter⟩ | ⟨o, henter⟩
  · obtain ⟨-, d, f, hd, hf⟩ := enter_command henter
    cases hput : k.tempKcmd.put 0 (fetched block c.bytes) with
    | error e =>
      rw [takeEffect_error henter hput] at h
      cases h
    | ok b =>
      rw [takeEffect_command henter hput] at h
      obtain ⟨⟨k₁, p₁⟩, hr, h⟩ := bind_eq_ok.mp h
      obtain ⟨⟨k₂, p₂⟩, hthrough, h⟩ := bind_eq_ok.mp h
      cases h
      have hd' : (k.withBlock b).devices c.minor = some d := hd
      have h₁ : k₁.Sound := (continueCommand_started hd' hf hr).1.sound (hk.withBlock b)
      have h₂ : k₂.Sound := by
        cases p₁ with
        | capability dataIn =>
          have hcreate : continueCreate c.ke k₁ dataIn = .ok (k₂, p₂) := hthrough
          rw [continueCreate_eq] at hcreate
          obtain ⟨x, heffect, hx⟩ := except_map_eq_ok.mp hcreate
          cases hx
          exact h₁.grow x.1 fun d hd => createEffect_filed heffect hd
        | _ =>
          cases hthrough
          exact h₁
      cases p₂ with
      | value v n => exact h₂.fill v n _
      | _ => exact h₂
  · rw [takeEffect_returned henter] at h
    cases h
    exact hk

theorem Reached.sound (h : Reached k) : k.Sound := by
  induction h with
  | start fresh major entries =>
    refine ⟨fun m hm => if_neg (Nat.ne_of_gt hm), fun m d hd => ?_⟩
    have hd' : (if m = 0 then some (baseDevice fresh major) else none) = some d := hd
    split at hd'
    · cases hd'
      exact base_filed fresh major
    · cases hd'
  | ioctl h c hr ih =>
    rw [IoctlCall.run, appmemdIoctl_eq] at hr
    obtain ⟨⟨k', p⟩, htake, hr⟩ := bind_eq_ok.mp hr
    obtain ⟨o, -, hr⟩ := bind_eq_ok.mp hr
    cases hr
    exact takeEffect_sound ih htake

end Reached

section Log
variable {calls : Bool → IoctlCall} {k a a' : Kernel} {st : Bool → Option Point} {i : Bool}
  {p₀ : Point} {e : Fault}

/-- Which calls have had their effect, in some order, and what it made of the driver. -/
inductive Log (calls : Bool → IoctlCall) (k : Kernel) (st : Bool → Option Point) : Kernel → Prop
  | zero (h : ∀ i, st i = none) : Log calls k st k
  | one (i : Bool) (r : Kernel × Point) (hi : st i = some r.2) (hj : st (!i) = none)
    (h : (calls i).takeEffect k = .ok r) : Log calls k st r.1
  | two (i : Bool) (r r' : Kernel × Point) (hi : st i = some r.2) (hj : st (!i) = some r'.2)
    (h : (calls i).takeEffect k = .ok r) (h' : (calls !i).takeEffect r.1 = .ok r') :
    Log calls k st r'.1

theorem eq_or_eq_not (i j : Bool) : i = j ∨ i = !j := by
  cases i <;> cases j <;> simp

theorem inTurn_eq (calls : Bool → IoctlCall) (k : Kernel) (first : Bool) :
    inTurn calls k first = do
      let r ← (calls first).takeEffect k
      let o ← finish (calls first).ke r.2
      let r' ← (calls !first).takeEffect r.1
      let o' ← finish (calls !first).ke r'.2
      return (r'.1, fun i => if i = first then o else o') := by
  rw [inTurn, IoctlCall.run, appmemdIoctl_eq]
  cases (calls first).takeEffect k with
  | error e => rfl
  | ok r =>
    rw [ok_bind, ok_bind]
    cases finish (calls first).ke r.2 with
    | error e => rfl
    | ok o =>
      simp only [ok_bind, pure_eq_ok]
      rw [IoctlCall.run, appmemdIoctl_eq]
      change ((calls !first).takeEffect r.1 >>= _) >>= _ = _
      cases (calls !first).takeEffect r.1 with
      | error e => rfl
      | ok r' =>
        rw [ok_bind, ok_bind]
        cases finish (calls !first).ke r'.2 with
        | error e => rfl
        | ok o' => rfl

theorem Log.commit (h : Log calls k st a) (hi : st i = none)
    (ht : (calls i).takeEffect a = .ok (a', p₀)) :
    Log calls k (Function.update st i (some p₀)) a' := by
  have hself : Function.update st i (some p₀) i = some p₀ := Function.update_self _ _ _
  have hother : Function.update st i (some p₀) (!i) = st (!i) :=
    Function.update_of_ne (Bool.not_ne_self i) _ _
  cases h with
  | zero h => exact .one i (a', p₀) hself (hother.trans (h _)) ht
  | one j r hj hnj hr =>
    rcases eq_or_eq_not i j with rfl | rfl
    · exact nomatch hi.symm.trans hj
    · rw [Bool.not_not] at hother
      exact .two j r (a', p₀) (hother.trans hj) hself hr ht
  | two j r r' hj hnj hr hr' =>
    rcases eq_or_eq_not i j with rfl | rfl
    · exact nomatch hi.symm.trans hj
    · exact nomatch hi.symm.trans hnj

theorem Log.effect_error (h : Log calls k st a) (hi : st i = none)
    (ht : (calls i).takeEffect a = .error e) : ∃ first e', inTurn calls k first = .error e' := by
  cases h with
  | zero h =>
    refine ⟨i, e, ?_⟩
    rw [inTurn_eq, ht]
    rfl
  | one j r hj hnj hr =>
    rcases eq_or_eq_not i j with rfl | rfl
    · exact nomatch hi.symm.trans hj
    · cases hf : finish (calls j).ke r.2 with
      | error e' =>
        refine ⟨j, e', ?_⟩
        rw [inTurn_eq, hr, ok_bind, hf]
        rfl
      | ok o =>
        refine ⟨j, e, ?_⟩
        rw [inTurn_eq, hr, ok_bind, hf, ok_bind, ht]
        rfl
  | two j r r' hj hnj hr hr' =>
    rcases eq_or_eq_not i j with rfl | rfl
    · exact nomatch hi.symm.trans hj
    · exact nomatch hi.symm.trans hnj

theorem Log.finish_error (h : Log calls k st a) (hi : st i = some p₀)
    (hf : finish (calls i).ke p₀ = .error e) : ∃ first e', inTurn calls k first = .error e' := by
  cases h with
  | zero h => exact nomatch hi.symm.trans (h i)
  | one j r hj hnj hr =>
    rcases eq_or_eq_not i j with rfl | rfl
    · cases hi.symm.trans hj
      refine ⟨i, e, ?_⟩
      rw [inTurn_eq, hr, ok_bind, hf]
      rfl
    · exact nomatch hi.symm.trans hnj
  | two j r r' hj hnj hr hr' =>
    rcases eq_or_eq_not i j with rfl | rfl
    · cases hi.symm.trans hj
      refine ⟨i, e, ?_⟩
      rw [inTurn_eq, hr, ok_bind, hf]
      rfl
    · cases hi.symm.trans hnj
      cases hfirst : finish (calls j).ke r.2 with
      | error e' =>
        refine ⟨j, e', ?_⟩
        rw [inTurn_eq, hr, ok_bind, hfirst]
        rfl
      | ok o =>
        refine ⟨j, e, ?_⟩
        rw [inTurn_eq, hr, ok_bind, hfirst, ok_bind, hr', ok_bind, hf]
        rfl

theorem Log.results (h : Log calls k st a) {o : Bool → Outcome}
    (hall : ∀ i, ∃ p₀, st i = some p₀ ∧ finish (calls i).ke p₀ = .ok (o i)) :
    ∃ first, inTurn calls k first = .ok (a, o) := by
  cases h with
  | zero h =>
    obtain ⟨p₀, hp, -⟩ := hall true
    exact nomatch hp.symm.trans (h true)
  | one j r hj hnj hr =>
    obtain ⟨p₀, hp, -⟩ := hall (!j)
    exact nomatch hp.symm.trans hnj
  | two j r r' hj hnj hr hr' =>
    obtain ⟨p, hp, hf⟩ := hall j
    obtain ⟨p', hp', hf'⟩ := hall (!j)
    cases hp.symm.trans hj
    cases hp'.symm.trans hnj
    have hout : (fun i => if i = j then o j else o (!j)) = o := by
      funext i
      rcases eq_or_eq_not i j with rfl | rfl
      · exact if_pos rfl
      · exact if_neg (Bool.not_ne_self j)
    refine ⟨j, ?_⟩
    rw [inTurn_eq, hr, ok_bind, hf, ok_bind, hr', ok_bind, hf', ok_bind, hout]
    rfl

end Log

section Runs
variable {calls : Bool → IoctlCall} {k a k' a' : Kernel} {s s' : Calls Bool}
  {st st' : Bool → Option Point} {act : Bool × ℕ} {i : Bool} {p' : Point}

/-- The invariant: some effects have been had, in some order, and the driver is what they made of it
but for the block and the values that are being filled. -/
structure Ongoing (calls : Bool → IoctlCall) (k : Kernel) (s : Calls Bool)
    (st : Bool → Option Point) (a : Kernel) : Prop where
  log : Log calls k st a
  sound : s.kernel.Sound
  apart : ∀ i, Apart (s.points i) (s.points !i)
  kernel : ∀ i, ((s.points i).complete ((s.points !i).complete s.kernel)).cleared = a.cleared
  call : ∀ i, Stands (calls i) s.kernel (st i) (s.points i)

/-- A fault that is one in some order as well. -/
structure Failed (calls : Bool → IoctlCall) (k : Kernel) (s : Calls Bool) : Prop where
  fault : ∃ i e, s.points i = .fault e
  order : ∃ first e, inTurn calls k first = .error e

theorem Ongoing.beside (h : Ongoing calls k s st a) (i : Bool) :
    Beside s.kernel a (s.points i) (s.points !i) where
  sound := h.sound
  apart := h.apart i
  fits := (h.call !i).fits
  kernel := h.kernel i

theorem Ongoing.moved (h : Ongoing calls k s st a)
    (hm : Moved (calls i) s.kernel k' a' (s.points !i) p' (st' i)) (hst : st' (!i) = st (!i))
    (hlog : Log calls k st' a') :
    Ongoing calls k ⟨k', Function.update s.points i p'⟩ st' a' := by
  have hself : (⟨k', Function.update s.points i p'⟩ : Calls Bool).points i = p' :=
    Function.update_self _ _ _
  have hother : (⟨k', Function.update s.points i p'⟩ : Calls Bool).points (!i) = s.points (!i) :=
    Function.update_of_ne (Bool.not_ne_self i) _ _
  refine ⟨hlog, hm.sound, fun j => ?_, fun j => ?_, fun j => ?_⟩
  · rcases eq_or_eq_not j i with rfl | rfl
    · rw [hself, hother]
      exact hm.apart
    · rw [Bool.not_not, hself, hother]
      exact hm.apart.symm
  · rcases eq_or_eq_not j i with rfl | rfl
    · rw [hself, hother]
      exact hm.kernel
    · rw [Bool.not_not, hself, hother, complete_comm hm.apart.symm]
      exact hm.kernel
  · rcases eq_or_eq_not j i with rfl | rfl
    · rw [hself]
      exact hm.stands
    · rw [hother, hst]
      exact (h.call !i).grows hm.grows hm.keeps

theorem Pending.step {c : IoctlCall} {p q : Point} {m : ℕ} {r : Exec (Kernel × Point)}
    (hp : Pending c k p) (hb : Beside k a p q) (hout : c.KeepsOut m k q p)
    (hr : advance c m k p = some r) : Step c k a q r := by
  cases p with
  | entry =>
    cases hr
    exact step_entry hb
  | command block done =>
    cases hr
    rw [IoctlCall.KeepsOut] at hout
    by_cases hlt : done < c.bytes
    · rw [if_pos hlt] at hout ⊢
      exact step_copy hp hb hlt hout
    · obtain rfl : done = c.bytes := le_antisymm hp.2.1 (Nat.not_lt.mp hlt)
      rw [if_neg hlt] at hout ⊢
      exact step_start hp hb hout
  | capability dataIn =>
    cases hr
    exact step_create hp hb hout
  | value v n => exact hp.elim
  | sending todo sent => exact hp.elim
  | returned o => exact hp.elim
  | fault e => exact hp.elim

theorem Closing.step {c : IoctlCall} {p q p₀ : Point} {m : ℕ} {r : Exec (Kernel × Point)}
    (hp : Closing c k p₀ p) (hb : Beside k a p q) (hr : advance c m k p = some r) :
    (∃ k' p', r = .ok (k', p') ∧ Moved c k k' a q p' (some p₀)) ∨
      ∃ e, r = .error e ∧ finish c.ke p₀ = .error e := by
  cases p with
  | value v n =>
    cases hr
    exact .inl ⟨_, _, rfl, step_value hp hb⟩
  | sending todo sent =>
    cases todo with
    | nil =>
      cases hr
      refine .inl ⟨_, _, rfl, .refl k, hb.sound, keeps_of_eq rfl q, apart_of_filling rfl,
        hb.kernel, ?_⟩
      have hfinish : finish c.ke (.sending [] sent) = finish c.ke p₀ := hp
      rw [Stands, Closing, ← hfinish, finish, sendAll, ok_bind, List.append_nil]
      rfl
    | cons x todo =>
      rcases step_send hp hb hr with ⟨p', hr', hm⟩ | he
      · exact .inl ⟨k, p', hr', hm⟩
      · exact .inr he
  | returned o => cases hr
  | entry => exact hp.elim
  | command block done => exact hp.elim
  | capability dataIn => exact hp.elim
  | fault e => exact hp.elim

theorem Ongoing.step (h : Ongoing calls k s st a) (hex : Exclusive calls s act)
    (hs : Calls.step calls s act = some s') :
    Failed calls k s' ∨ ∃ st' a', Ongoing calls k s' st' a' := by
  obtain ⟨i, m⟩ := act
  have hcall := h.call i
  obtain ⟨r, hr, rfl⟩ := Option.map_eq_some_iff.mp hs
  have hfault (e : Fault) : Function.update s.points i (.fault e) i = .fault e :=
    Function.update_self _ _ _
  cases hst : st i with
  | none =>
    rw [hst] at hcall
    cases Pending.step hcall (h.beside i) hex hr with
    | goes k' p' hm =>
      rw [← hst] at hm
      exact .inr ⟨st, a, h.moved hm rfl h.log⟩
    | effect k' p' a' p₀ ht hm =>
      have hself : Function.update st i (some p₀) i = some p₀ := Function.update_self _ _ _
      rw [← hself] at hm
      exact .inr ⟨_, a', h.moved hm (Function.update_of_ne (Bool.not_ne_self i) _ _)
        (h.log.commit hst ht)⟩
    | fails e e' ht => exact .inl ⟨⟨i, e, hfault e⟩, h.log.effect_error hst ht⟩
  | some p₀ =>
    rw [hst] at hcall
    rcases Closing.step hcall (h.beside i) hr with ⟨k', p', rfl, hm⟩ | ⟨e, rfl, hf⟩
    · rw [← hst] at hm
      exact .inr ⟨st, a, h.moved hm rfl h.log⟩
    · exact .inl ⟨⟨i, e, hfault e⟩, h.log.finish_error hst hf⟩

theorem Failed.step (h : Failed calls k s) (hs : Calls.step calls s act = some s') :
    Failed calls k s' := by
  obtain ⟨⟨j, e, hj⟩, horder⟩ := h
  obtain ⟨r, hr, rfl⟩ := Option.map_eq_some_iff.mp hs
  have hne : j ≠ act.1 := by
    rintro rfl
    rw [hj] at hr
    cases hr
  refine ⟨⟨j, e, ?_⟩, horder⟩
  cases r with
  | error e' => exact (Function.update_of_ne hne _ _).trans hj
  | ok r => exact (Function.update_of_ne hne _ _).trans hj

theorem ongoing_start (hk : k.Sound) : Ongoing calls k (.start k) (fun _ => none) k where
  log := .zero fun _ => rfl
  sound := hk
  apart _ := apart_of_filling rfl
  kernel _ := rfl
  call _ := trivial

theorem Ongoing.serializable (h : Ongoing calls k s st a) : Serializable calls k s where
  results o ho := by
    have hall (i : Bool) : ∃ p₀, st i = some p₀ ∧ finish (calls i).ke p₀ = .ok (o i) := by
      have hcall := h.call i
      rw [ho i] at hcall
      cases hst : st i with
      | none =>
        rw [hst] at hcall
        exact hcall.elim
      | some p₀ =>
        rw [hst] at hcall
        exact ⟨p₀, rfl, hcall⟩
    obtain ⟨first, hturn⟩ := h.log.results hall
    have hkernel := h.kernel true
    rw [ho, ho] at hkernel
    exact ⟨first, a, hturn, hkernel.symm⟩
  faults i e he := by
    have hcall := h.call i
    rw [he] at hcall
    cases hst : st i with
    | none =>
      rw [hst] at hcall
      exact hcall.elim
    | some p₀ =>
      rw [hst] at hcall
      exact hcall.elim

theorem Failed.serializable (h : Failed calls k s) : Serializable calls k s where
  results o ho := by
    obtain ⟨i, e, he⟩ := h.fault
    exact nomatch (ho i).symm.trans he
  faults _ _ _ := h.order

/-- Storing in the block tells the caller nothing of what was there. -/
theorem put_cleared (k : Kernel) (own : KamCmd) (off : ℕ) (src : List UInt8) (p : Point) :
    (do
      let b ← k.tempKcmd.put off src
      return (k.withBlock b, p) : Exec (Kernel × Point)).map cleared =
    (do
      let b ← own.put off src
      return ((k.withBlock own).withBlock b, p) : Exec (Kernel × Point)).map cleared := by
  unfold KamCmd.put
  split
  · rfl
  · rfl

theorem Pending.usesOwn {c : IoctlCall} {p q : Point} {block : List UInt8} {own : KamCmd}
    (hp : Pending c k p) (harg : c.arg = some block)
    (hown : KamCmd.zero.put 0 (fetched block c.bytes) = .ok own)
    {m : ℕ} (hout : c.KeepsOut m k q p) : (advance c m k p).map (Except.map cleared) =
      (advance c m (k.withBlock own) p).map (Except.map cleared) := by
  have hholds : Holds c block own := by
    obtain ⟨-, hbytes⟩ := put_eq_ok.mp hown
    rw [Holds, hbytes, splice_zero, List.take_left' (length_fetched _ _)]
  cases p with
  | entry => rfl
  | command block' done =>
    obtain rfl : block' = block := by
      obtain ⟨harg', -⟩ := enter_command hp.1
      exact Option.some.inj (harg'.symm.trans harg)
    rw [IoctlCall.KeepsOut] at hout
    apply congrArg some
    by_cases hlt : done < c.bytes
    · rw [if_pos hlt, if_pos hlt]
      exact put_cleared k own _ _ _
    · obtain rfl : done = c.bytes := le_antisymm hp.2.1 (Nat.not_lt.mp hlt)
      rw [if_neg hlt] at hout
      rw [if_neg hlt, if_neg hlt]
      have hclear : k.cleared = (k.withBlock own).cleared := rfl
      exact continueCommand_congr hclear ((holds_of_pending hp).agree hholds)
        fun hlen => (hout hlen).1
  | capability dataIn =>
    obtain ⟨block', henter, hle, hasks, hdata⟩ := hp
    obtain rfl : block' = block := by
      obtain ⟨harg', -⟩ := enter_command henter
      exact Option.some.inj (harg'.symm.trans harg)
    have hcreate : createEffect c.ke k.major k.minor dataIn k.tempKcmd.dataOut =
        createEffect c.ke k.major k.minor dataIn own.dataOut :=
      createEffect_congr fun h => hdata own hholds (hout h)
    apply congrArg some
    rw [continueCreate_eq, continueCreate_eq, hcreate, except_map_map, except_map_map]
    congr 1
    funext r
    have hgrow : (k.grow r.1).cleared = ((k.withBlock own).grow r.1).cleared := by
      rw [grow_cleared, grow_cleared]
      rfl
    exact congrArg (fun k => (k, r.2)) hgrow
  | value v n => exact hp.elim
  | sending todo sent => exact hp.elim
  | returned o => exact hp.elim
  | fault e => exact hp.elim

/-- The steps behind the effect do not look at the block. -/
theorem Closing.usesOwn {c : IoctlCall} {p p₀ : Point} (hp : Closing c k p₀ p) (own : KamCmd)
    (m : ℕ) : (advance c m k p).map (Except.map cleared) =
      (advance c m (k.withBlock own) p).map (Except.map cleared) := by
  cases p with
  | value v n => rfl
  | sending todo sent =>
    cases todo with
    | nil => rfl
    | cons x todo =>
      rw [advance, advance]
      cases x.send c.ke with
      | error e => rfl
      | ok w => cases w <;> rfl
  | returned o => rfl
  | entry => exact hp.elim
  | command block done => exact hp.elim
  | capability dataIn => exact hp.elim
  | fault e => exact hp.elim

theorem Ongoing.usesOwn (h : Ongoing calls k s st a) (hex : Exclusive calls s act) :
    UsesOwn calls s act := by
  intro _ block own harg hown
  have hcall := h.call act.1
  cases hst : st act.1 with
  | none =>
    rw [hst] at hcall
    exact Pending.usesOwn hcall harg hown hex
  | some p₀ =>
    rw [hst] at hcall
    exact Closing.usesOwn hcall own act.2

theorem Failed.usesOwn (h : Failed calls k s) : UsesOwn calls s act := by
  intro hno
  obtain ⟨i, e, he⟩ := h.fault
  exact absurd he (hno i e)

/-- Calls that keep out of each other's way use their own commands, and are like one after the
other. -/
theorem interleaving_unmixed (calls : Bool → IoctlCall) (k : Kernel) (hk : Reached k)
    (acts : List (Bool × ℕ))
    (hex : Throughout (Calls.step calls) (Exclusive calls) (.start k) acts) :
    Unmixed calls k acts := by
  have hstart : Failed calls k (.start k) ∨ ∃ st a, Ongoing calls k (.start k) st a :=
    .inr ⟨_, k, ongoing_start hk.sound⟩
  have hstep (s : Calls Bool) (act : Bool × ℕ) (s' : Calls Bool)
      (hs : Failed calls k s ∨ ∃ st a, Ongoing calls k s st a) (hact : Exclusive calls s act)
      (hs' : Calls.step calls s act = some s') :
      Failed calls k s' ∨ ∃ st a, Ongoing calls k s' st a := by
    rcases hs with hfailed | ⟨st, a, hs⟩
    · exact .inl (hfailed.step hs')
    · exact hs.step hact hs'
  constructor
  · refine Throughout.mono (fun s act hs hact => ?_) hstep hstart hex
    rcases hs with hfailed | ⟨st, a, hs⟩
    · exact hfailed.usesOwn
    · exact hs.usesOwn hact
  · refine always_of_throughout (fun s hs => ?_) hstep hstart hex
    rcases hs with hfailed | ⟨st, a, hs⟩
    · exact hfailed.serializable
    · exact hs.serializable

end Runs

section Instances

instance (b b' : KamCmd) : (p : Point) → Decidable (p.Keeps b b')
  | .command _ done => inferInstanceAs (Decidable (b.bytes.take done = b'.bytes.take done))
  | .capability _ => inferInstanceAs (Decidable (b.dataOut = b'.dataOut))
  | .entry | .value _ _ | .sending _ _ | .returned _ | .fault _ => .isTrue trivial

instance (c : IoctlCall) (k : Kernel) : Decidable (c.ReadsOwn k) :=
  inferInstanceAs (Decidable (∀ d ∈ k.devices c.minor, ∀ f ∈ d.pFunc, _ ≤ _))

instance (c : IoctlCall) (k : Kernel) (q : Point) : Decidable (c.Avoids k q) :=
  inferInstanceAs (Decidable (∀ v ∈ q.filling, _ → ∀ d ∈ k.devices c.minor, ∀ f ∈ d.pFunc, _ ≠ _))

instance (c : IoctlCall) (m : ℕ) (k : Kernel) (q : Point) :
    (p : Point) → Decidable (c.KeepsOut m k q p)
  | .command block done =>
    inferInstanceAs (Decidable (if done < c.bytes then
      ∀ b ∈ (k.tempKcmd.put done (window (fetched block c.bytes) done (m + 1))).toOption,
        q.Keeps k.tempKcmd b
    else c.bytes ≤ block.length → c.ReadsOwn k ∧ c.Avoids k q))
  | .capability _ => inferInstanceAs (Decidable (_ → _))
  | .entry | .value _ _ | .sending _ _ | .returned _ | .fault _ => .isTrue trivial

instance (calls : Bool → IoctlCall) (s : Calls Bool) (a : Bool × ℕ) :
    Decidable (Exclusive calls s a) :=
  inferInstanceAs (Decidable ((calls a.1).KeepsOut a.2 s.kernel (s.points !a.1) (s.points a.1)))

/-- A process that can read the record of the flat memory wherever it looks, and write there. -/
def creator : KEnv where
  env := .zeroed
  deviceCreate := true
  user := fun _ => flatCaps.bytes ++ List.replicate sizeofCrResp 0
  fresh := .blank 0

def creation (out : UInt64) : IoctlCall where
  ke := creator
  minor := 0
  cmd := appmemdOpBidir
  arg := some (u32Bytes amOpCodeCreateFunc ++ u32Bytes sizeofMemCap.toUInt32 ++ leBytes 8 8 ++
    u32Bytes sizeofCrResp.toUInt32 ++ u32Bytes 0 ++ leBytes 8 out.toNat)

def counting : IoctlCall where
  ke := creator
  minor := 0
  cmd := appmemdOpPacket 1
  arg := some (u32Bytes (amSetPacktype amPackTypeOpcodeOnly amOpGetCapCount) ++ u32Bytes 0 ++
    leBytes 8 64)

def loadedDriver : Kernel := .start (.blank 0) 240 targetRegistry

def countWhileAsleep (i : Bool) : IoctlCall := if i then creation 64 else counting

theorem interleaving_unmixed_count : Unmixed countWhileAsleep loadedDriver
    [(true, 0), (true, 31), (true, 0), (false, 0), (false, 15), (false, 0), (true, 0), (false, 0),
      (true, 0), (false, 0), (true, 0)] :=
  interleaving_unmixed countWhileAsleep loadedDriver (.start _ _ _) _ (by decide +kernel)

def twoCreations (i : Bool) : IoctlCall := creation (if i then 64 else 128)

/-- The second copies its command while the first sleeps in the transfer of its capability. -/
def overtaking : List (Bool × ℕ) :=
  [(true, 0), (true, 31), (true, 0), (false, 0), (false, 31), (true, 0), (true, 0), (true, 0),
    (false, 0), (false, 0), (false, 0), (false, 0)]

def Point.stored : Point → Option (List UInt64)
  | .returned o => some (o.writes.map Prod.fst)
  | _ => none

theorem stored_eq_some {p : Point} {addrs : List UInt64} (h : p.stored = some addrs) :
    ∃ o, p = .returned o ∧ o.writes.map Prod.fst = addrs := by
  cases p with
  | returned o => exact ⟨o, rfl, Option.some.inj h⟩
  | _ => cases h

/-- The first function is announced where the second command says. -/
theorem not_unmixed_twoCreations :
    ¬ ∀ calls k acts, Reached k → Unmixed calls k acts := by
  intro hall
  have hrun : (run (Calls.step twoCreations) (.start loadedDriver) overtaking).map
      (fun s => ((s.points true).stored, (s.points false).stored)) =
        some (some [128], some [128]) := by
    decide +kernel
  have hturn : ∀ first, (inTurn twoCreations loadedDriver first).map
      (fun r => (r.2 true).writes.map Prod.fst) = .ok [64] := by
    decide +kernel
  obtain ⟨s, hs, hstored⟩ := Option.map_eq_some_iff.mp hrun
  obtain ⟨o, ho, haddr⟩ := stored_eq_some (congrArg Prod.fst hstored)
  obtain ⟨o', ho', -⟩ := stored_eq_some (congrArg Prod.snd hstored)
  have hserial : Serializable twoCreations loadedDriver s :=
    (hall twoCreations loadedDriver overtaking (.start _ _ _)).order.run hs
  obtain ⟨first, k', horder, -⟩ := hserial.results (fun i => if i then o else o') (by
    intro i
    cases i with
    | true => exact ho
    | false => exact ho')
  have hfirst := hturn first
  rw [horder] at hfirst
  have haddr' : o.writes.map Prod.fst = [64] := Except.ok.inj hfirst
  rw [haddr] at haddr'
  exact absurd haddr' (by decide)

end Instances

end AppMem.Driver
