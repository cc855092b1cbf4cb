import AppMem.Mmap.Serve

/-! # The doorbell serves every request exactly once

The program counters of both parties, the doorbell words and the observer's notes go
together in few ways only. `Phase` lists them; every step leads from one to another, and what
is promised about the protocol can be read off each.
-/
namespace AppMem.Mmap
open Library.Machine Memory Device

variable {σ : Type} {serve : σ → Prog σ} {setFlag : σ → σ} {f₀ : σ}

/-- The device finds both words equal, whichever it read first, or has yet to look. The requests
`reqs` are served. -/
inductive Watching (serve : σ → Prog σ) (setFlag : σ → σ) (f₀ : σ) (v : UInt32) :
    DevicePc σ → σ → List Buffers → List Buffers → Prop
  | setFlag : Watching serve setFlag f₀ v .setFlag f₀ [] []
  | test {f reqs resps} (h : serial serve (setFlag f₀) reqs = some (f, resps)) :
    Watching serve setFlag f₀ v .test f reqs resps
  | testCi {f reqs resps} (h : serial serve (setFlag f₀) reqs = some (f, resps)) :
    Watching serve setFlag f₀ v (.testCi v) f reqs resps
  | testPi {f reqs resps} (h : serial serve (setFlag f₀) reqs = some (f, resps)) :
    Watching serve setFlag f₀ v (.testPi v) f reqs resps

def ClientPc.Trying : ClientPc → Prop
  | .sync _ | .syncCi _ | .gaveUp => True
  | _ => False

def ClientPc.Resting : ClientPc → Prop
  | .idle | .getFree | .fill => True
  | _ => False

def Matched (resps : List Buffers) (seen : List (ℕ × Fin 128 × UInt32)) : Prop :=
  ∀ r ∈ seen, ∃ m, resps[r.1]? = some m ∧ r.2.2 = m (.rx r.2.1)

/-- The ways in which the parties can stand to one another. -/
inductive Phase (serve : σ → Prog σ) (setFlag : σ → σ) (f₀ : σ) : State σ → Prop
  /-- The device has not written its start values; `mapPi` alone cannot mislead the client. -/
  | starting {c m u} (hc : c = .gaveUp ∨ ∃ i, c = .sync i) :
    Phase serve setFlag f₀
      ⟨⟨freshPi, freshCi, freshState, m⟩, c, u, .startPi, f₀, [], [], [], []⟩
  | startingCi {c m u} (hc : c.Trying) :
    Phase serve setFlag f₀
      ⟨⟨amKMapPiStart, freshCi, freshState, m⟩, c, u, .startCi, f₀, [], [], [], []⟩
  /-- Both start values stand; the client may have seen them. -/
  | syncing {c m u d} (hc : c.Trying ∨ c = .loadCi ∨ c = .storePi amKMapCiStart)
      (hd : d = .syncTest ∨ d = .syncTestCi amKMapPiStart ∨ d = .syncTestPi amKMapCiStart) :
    Phase serve setFlag f₀
      ⟨⟨amKMapPiStart, amKMapCiStart, freshState, m⟩, c, u, d, f₀, [], [], [], []⟩
  /-- The client has made `mapPi` equal to `mapCi`; the device may have seen it. -/
  | agreed {m u d} (hd : d = .syncTest ∨ d = .syncTestCi amKMapPiStart ∨
      d = .syncTestCi amKMapCiStart ∨ d = .syncTestPi amKMapCiStart ∨ d = .setState) :
    Phase serve setFlag f₀
      ⟨⟨amKMapCiStart, amKMapCiStart, freshState, m⟩, .waitState, u, d, f₀, [], [], [], []⟩
  | synced {c m u d f} (hc : c = .waitState ∨ c = .loadUPI)
      (hd : Watching serve setFlag f₀ amKMapCiStart d f [] []) :
    Phase serve setFlag f₀
      ⟨⟨amKMapCiStart, amKMapCiStart, amMapStateSynced, m⟩, c, u, d, f, [], [], [], []⟩
  /-- No request is open. -/
  | quiet {c m v d f reqs resps seen} (hc : c.Resting)
      (hd : Watching serve setFlag f₀ v d f reqs resps) (hm : Matched resps seen) :
    Phase serve setFlag f₀ ⟨⟨v, v, amMapStateSynced, m⟩, c, v, d, f, reqs, reqs, resps, seen⟩
  | ringing {m v d f reqs resps seen} (hd : Watching serve setFlag f₀ v d f reqs resps)
      (hm : Matched resps seen) :
    Phase serve setFlag f₀
      ⟨⟨v, v, amMapStateSynced, m⟩, .ring, v + 1, d, f, reqs, reqs, resps, seen⟩
  /-- The request stands in the page, and the device has not noticed. -/
  | posted {m v d f reqs resps seen}
      (hd : Watching serve setFlag f₀ v d f reqs resps ∨
        (d = .testCi (v + 1) ∧ serial serve (setFlag f₀) reqs = some (f, resps)))
      (hm : Matched resps seen) :
    Phase serve setFlag f₀
      ⟨⟨v + 1, v, amMapStateSynced, m⟩, .wait, v + 1, d, f, reqs ++ [m], reqs, resps, seen⟩
  /-- The device is at work; `p` is what it has left to do. -/
  | serving {m m₀ v p f reqs resps seen}
      (h : serial serve (setFlag f₀) reqs = some (f, resps))
      (hp : p.eval m = (serve f).eval m₀) (hm : Matched resps seen) :
    Phase serve setFlag f₀ ⟨⟨v + 1, v, amMapStateSynced, m⟩, .wait, v + 1, .processing p, f,
      reqs ++ [m₀], reqs ++ [m₀], resps, seen⟩
  | answering {m m₀ v d f f₁ reqs resps seen} (hd : d = .ackLoad ∨ d = .ackStore (v + 1))
      (h : serial serve (setFlag f₀) reqs = some (f₁, resps))
      (hp : (serve f₁).eval m₀ = some (f, m)) (hm : Matched resps seen) :
    Phase serve setFlag f₀ ⟨⟨v + 1, v, amMapStateSynced, m⟩, .wait, v + 1, d, f,
      reqs ++ [m₀], reqs ++ [m₀], resps, seen⟩
  /-- `mapCi` has followed; the client may have noticed. -/
  | answered {c m v d f reqs resps seen} (hc : c = .wait ∨ c = .reading)
      (hd : Watching serve setFlag f₀ v d f reqs (resps ++ [m])) (hm : Matched (resps ++ [m]) seen) :
    Phase serve setFlag f₀
      ⟨⟨v, v, amMapStateSynced, m⟩, c, v, d, f, reqs, reqs, resps ++ [m], seen⟩

section Serial

theorem length_serial {f f' : σ} {reqs resps : List Buffers}
    (h : serial serve f reqs = some (f', resps)) : resps.length = reqs.length := by
  induction reqs generalizing f resps with
  | nil =>
    cases h
    rfl
  | cons m ms ih =>
    rcases Option.bind_eq_some_iff.mp h with ⟨r, _, h⟩
    rcases Option.bind_eq_some_iff.mp h with ⟨q, hq, h⟩
    cases h
    rw [List.length_cons, List.length_cons, ih hq]

theorem serial_snoc {f f₁ f₂ : σ} {reqs resps : List Buffers} {m m' : Buffers}
    (h : serial serve f reqs = some (f₁, resps)) (hm : (serve f₁).eval m = some (f₂, m')) :
    serial serve f (reqs ++ [m]) = some (f₂, resps ++ [m']) := by
  simp [serial_append, h, serial, hm]

theorem Watching.serial_eq {v : UInt32} {d : DevicePc σ} {f : σ} {reqs resps : List Buffers}
    (h : Watching serve setFlag f₀ v d f reqs resps) :
    ∃ f', serial serve (setFlag f₀) reqs = some (f', resps) := by
  cases h with
  | setFlag => exact ⟨_, rfl⟩
  | test h => exact ⟨_, h⟩
  | testCi h => exact ⟨_, h⟩
  | testPi h => exact ⟨_, h⟩

end Serial

section Steps

theorem phase_start (m : Buffers) (u : UInt32) : Phase serve setFlag f₀ (start f₀ m u) :=
  .starting (.inr ⟨0, rfl⟩)

/-- While both words are equal the device only looks at them. -/
theorem Watching.step {v : UInt32} {s s' : State σ} {b : Bool} {reqs resps : List Buffers}
    (hd : Watching serve setFlag f₀ v s.device s.func reqs resps) (hpi : s.page.mapPi = v)
    (hci : s.page.mapCi = v) (h : deviceStep serve setFlag s b = some s') :
    ∃ d f, s' = { s with device := d, func := f } ∧
      Watching serve setFlag f₀ v d f reqs resps := by
  rcases s with ⟨⟨pi, ci, st, m⟩, c, u, d, f, sent, begun, fin, seen⟩
  dsimp only at hd hpi hci
  subst hpi hci
  cases hd with
  | setFlag =>
    cases h
    exact ⟨_, _, rfl, .test rfl⟩
  | test hs =>
    cases h
    cases b with
    | false => exact ⟨_, _, rfl, .testPi hs⟩
    | true => exact ⟨_, _, rfl, .testCi hs⟩
  | testCi hs =>
    simp only [deviceStep, if_true, Option.some.injEq] at h
    subst h
    exact ⟨_, _, rfl, .test hs⟩
  | testPi hs =>
    simp only [deviceStep, if_true, Option.some.injEq] at h
    subst h
    exact ⟨_, _, rfl, .test hs⟩

theorem add_one_ne (v : UInt32) : v + 1 ≠ v := by
  intro h
  have hn := congrArg UInt32.toNat h
  have hv := v.toNat_lt
  simp only [UInt32.toNat_add, UInt32.reduceToNat] at hn
  omega

theorem trying_retry (i : ℕ) : (retry i).Trying := by
  unfold retry
  split
  · trivial
  · trivial

/-- A client that has not found both start values goes on trying. -/
theorem ClientPc.Trying.step {s s' : State σ} {a : ClientAct} (hc : s.client.Trying)
    (h : clientStep s a = some s') :
    ∃ c, s' = { s with client := c } ∧
      (c.Trying ∨ c = .loadCi ∧ s.page.mapCi = amKMapCiStart) := by
  rcases s with ⟨pg, c, u, d, f, sent, begun, fin, seen⟩
  cases c <;> simp only [ClientPc.Trying] at hc
  case sync i =>
    cases a <;> cases h
    refine ⟨_, rfl, .inl ?_⟩
    split
    · trivial
    · exact trying_retry i
  case syncCi i =>
    cases a <;> cases h
    refine ⟨_, rfl, ?_⟩
    by_cases hci : pg.mapCi = amKMapCiStart
    · rw [if_pos hci]
      exact .inr ⟨rfl, hci⟩
    · rw [if_neg hci]
      exact .inl (trying_retry i)
  case gaveUp => cases a <;> cases h

theorem Matched.snoc {resps : List Buffers} {seen : List (ℕ × Fin 128 × UInt32)}
    (hm : Matched resps seen) (m : Buffers) : Matched (resps ++ [m]) seen := by
  intro r hr
  rcases hm r hr with ⟨m', hm', hv⟩
  exact ⟨m', List.getElem?_append_left (List.getElem?_eq_some_iff.mp hm').1 ▸ hm', hv⟩

theorem Matched.read {resps : List Buffers} {seen : List (ℕ × Fin 128 × UInt32)} {m : Buffers}
    (hm : Matched (resps ++ [m]) seen) (w : Fin 128) :
    Matched (resps ++ [m]) (seen ++ [(resps.length, w, m (.rx w))]) := by
  intro r hr
  rcases List.mem_append.mp hr with hr | hr
  · exact hm r hr
  · rw [List.mem_singleton.mp hr]
    exact ⟨m, List.getElem?_concat_length, rfl⟩

theorem Phase.client {s s' : State σ} {a : ClientAct} (h : Phase serve setFlag f₀ s)
    (hs : clientStep s a = some s') : Phase serve setFlag f₀ s' := by
  cases h with
  | @starting c m u hc =>
    rcases hc with rfl | ⟨i, rfl⟩
    · cases a <;> cases hs
    · cases a <;> cases hs
      apply Phase.starting
      rw [if_neg (show freshPi ≠ amKMapPiStart by decide)]
      unfold retry
      split
      · exact .inr ⟨_, rfl⟩
      · exact .inl rfl
  | startingCi hc =>
    rcases hc.step hs with ⟨c, rfl, hc | ⟨_, hci⟩⟩
    · exact .startingCi hc
    · exact absurd hci (show freshCi ≠ amKMapCiStart by decide)
  | syncing hc hd =>
    rcases hc with hc | rfl | rfl
    · rcases hc.step hs with ⟨c, rfl, hc | ⟨rfl, _⟩⟩
      · exact .syncing (.inl hc) hd
      · exact .syncing (.inr (.inl rfl)) hd
    · cases a <;> cases hs
      exact .syncing (.inr (.inr rfl)) hd
    · cases a <;> cases hs
      apply Phase.agreed
      rcases hd with rfl | rfl | rfl
      · exact .inl rfl
      · exact .inr (.inl rfl)
      · exact .inr (.inr (.inr (.inl rfl)))
  | agreed hd =>
    cases a <;> cases hs
    rw [if_neg (show freshState ≠ amMapStateSynced by decide)]
    exact .agreed hd
  | synced hc hd =>
    rcases hc with rfl | rfl
    · cases a <;> cases hs
      exact .synced (.inr rfl) hd
    · cases a <;> cases hs
      exact .quiet trivial hd fun _ hr => absurd hr List.not_mem_nil
  | @quiet c m v d f reqs resps seen hc hd hm =>
    cases c <;> simp only [ClientPc.Resting] at hc
    case idle =>
      cases a <;> cases hs
      exact .quiet trivial hd hm
    case getFree =>
      cases a <;> cases hs
      rw [if_pos rfl]
      exact .quiet trivial hd hm
    case fill =>
      cases a <;> cases hs
      · exact .ringing hd hm
      · exact .quiet trivial hd hm
  | ringing hd hm =>
    cases a <;> cases hs
    exact .posted (.inl hd) hm
  | @posted m v d f reqs resps seen hd hm =>
    cases a <;> cases hs
    rw [if_neg (add_one_ne v).symm]
    exact .posted hd hm
  | @serving m m₀ v p f reqs resps seen h hp hm =>
    cases a <;> cases hs
    rw [if_neg (add_one_ne v).symm]
    exact .serving h hp hm
  | @answering m m₀ v d f f₁ reqs resps seen hd h hp hm =>
    cases a <;> cases hs
    rw [if_neg (add_one_ne v).symm]
    exact .answering hd h hp hm
  | @answered c m v d f reqs resps seen hc hd hm =>
    rcases hc with rfl | rfl
    · cases a <;> cases hs
      rw [if_pos rfl]
      exact .answered (.inr rfl) hd hm
    · cases a <;> cases hs
      · exact .quiet trivial hd hm
      · apply Phase.answered (.inr rfl) hd
        rcases hd.serial_eq with ⟨f', hf'⟩
        have hlen := length_serial hf'
        rw [List.length_append, List.length_singleton] at hlen
        rw [← hlen, Nat.add_sub_cancel]
        exact hm.read _

theorem Phase.device {s s' : State σ} {b : Bool} (h : Phase serve setFlag f₀ s)
    (hs : deviceStep serve setFlag s b = some s') : Phase serve setFlag f₀ s' := by
  cases h with
  | starting hc =>
    cases hs
    apply Phase.startingCi
    rcases hc with rfl | ⟨i, rfl⟩
    · trivial
    · trivial
  | startingCi hc =>
    cases hs
    exact .syncing (.inl hc) (.inl rfl)
  | syncing hc hd =>
    have hne : amKMapPiStart ≠ amKMapCiStart := by decide
    rcases hd with rfl | rfl | rfl
    · cases hs
      cases b with
      | false => exact .syncing hc (.inr (.inr rfl))
      | true => exact .syncing hc (.inr (.inl rfl))
    · cases hs
      exact .syncing hc (.inl rfl)
    · cases hs
      exact .syncing hc (.inl rfl)
  | agreed hd =>
    rcases hd with rfl | rfl | rfl | rfl | rfl
    · cases hs
      cases b with
      | false => exact .agreed (.inr (.inr (.inr (.inl rfl))))
      | true => exact .agreed (.inr (.inr (.inl rfl)))
    · cases hs
      exact .agreed (.inl rfl)
    · cases hs
      exact .agreed (.inr (.inr (.inr (.inr rfl))))
    · cases hs
      exact .agreed (.inr (.inr (.inr (.inr rfl))))
    · cases hs
      exact .synced (.inl rfl) .setFlag
  | synced hc hd =>
    rcases hd.step rfl rfl hs with ⟨d, f, rfl, hd⟩
    exact .synced hc hd
  | quiet hc hd hm =>
    rcases hd.step rfl rfl hs with ⟨d, f, rfl, hd⟩
    exact .quiet hc hd hm
  | ringing hd hm =>
    rcases hd.step rfl rfl hs with ⟨d, f, rfl, hd⟩
    exact .ringing hd hm
  | @posted m v d f reqs resps seen hd hm =>
    rcases hd with hd | ⟨rfl, hser⟩
    · cases hd with
      | setFlag =>
        cases hs
        exact .posted (.inl (.test rfl)) hm
      | test hser =>
        cases hs
        cases b with
        | false => exact .posted (.inl (.testPi hser)) hm
        | true => exact .posted (.inr ⟨rfl, hser⟩) hm
      | testCi hser =>
        simp only [deviceStep, if_true, Option.some.injEq] at hs
        subst hs
        exact .posted (.inl (.test hser)) hm
      | testPi hser =>
        simp only [deviceStep, if_neg (add_one_ne v), Option.some.injEq] at hs
        subst hs
        exact .serving hser rfl hm
    · simp only [deviceStep, if_neg (add_one_ne v), Option.some.injEq] at hs
      subst hs
      exact .serving hser rfl hm
  | @serving m m₀ v p f reqs resps seen hser hp hm =>
    cases p with
    | done f' =>
      cases hs
      exact .answering (.inl rfl) hser hp.symm hm
    | read c k =>
      cases hs
      exact .serving hser hp hm
    | write c x k =>
      cases hs
      exact .serving hser hp hm
    | fault => cases hs
  | answering hd hser hp hm =>
    rcases hd with rfl | rfl
    · cases hs
      exact .answering (.inr rfl) hser hp hm
    · cases hs
      exact .answered (.inl rfl) (.test (serial_snoc hser hp)) (hm.snoc _)
  | answered hc hd hm =>
    rcases hd.step rfl rfl hs with ⟨d, f, rfl, hd⟩
    exact .answered hc hd hm

theorem Phase.step {s s' : State σ} {a : Act} (h : Phase serve setFlag f₀ s)
    (hs : step serve setFlag s a = some s') : Phase serve setFlag f₀ s' := by
  cases a with
  | client a => exact h.client hs
  | device b => exact h.device hs

/-- Every reachable state is in one of the phases. -/
theorem phase_run {m : Buffers} {u : UInt32} {as : List Act} {s : State σ}
    (h : run (Mmap.step serve setFlag) (start f₀ m u) as = some s) : Phase serve setFlag f₀ s :=
  run_invariant (fun _ _ _ => Phase.step) (phase_start m u) h

end Steps

section Progress

def Finishes (serve : σ → Prog σ) (setFlag : σ → σ) (s : State σ) : Prop :=
  ∃ n s', run (Mmap.step serve setFlag) s (List.replicate n (.device true)) = some s' ∧
    s'.sent = s.sent ∧ s'.finished.length = s.sent.length

theorem Finishes.of_step {s s₁ : State σ} (h : deviceStep serve setFlag s true = some s₁)
    (hsent : s₁.sent = s.sent) (hf : Finishes serve setFlag s₁) : Finishes serve setFlag s := by
  rcases hf with ⟨n, s', hrun, hs, hlen⟩
  refine ⟨n + 1, s', ?_, hs.trans hsent, hlen.trans (congrArg List.length hsent)⟩
  rw [List.replicate_succ, run_cons, Mmap.step, h]
  exact hrun

theorem finishes_of_served {s : State σ} (h : s.finished.length = s.sent.length) :
    Finishes serve setFlag s := ⟨0, s, rfl, rfl, h⟩

theorem finishes_answering {m v f reqs resps seen} {d : DevicePc σ}
    (hd : d = .ackLoad ∨ d = .ackStore (v + 1))
    (h : serial serve (setFlag f₀) reqs = some (f, resps ++ [m])) :
    Finishes serve setFlag ⟨⟨v + 1, v, amMapStateSynced, m⟩, .wait, v + 1, d, f, reqs, reqs, resps,
      seen⟩ := by
  have hstore : Finishes serve setFlag ⟨⟨v + 1, v, amMapStateSynced, m⟩, .wait, v + 1,
      .ackStore (v + 1), f, reqs, reqs, resps, seen⟩ :=
    .of_step rfl rfl (finishes_of_served (length_serial h))
  rcases hd with rfl | rfl
  · exact .of_step rfl rfl hstore
  · exact hstore

theorem finishes_serving {m m₀ v p f reqs resps seen}
    (h : serial serve (setFlag f₀) reqs = some (f, resps))
    (hp : p.eval m = (serve f).eval m₀) (hdef : p.eval m ≠ none) :
    Finishes serve setFlag ⟨⟨v + 1, v, amMapStateSynced, m⟩, .wait, v + 1, .processing p, f,
      reqs ++ [m₀], reqs ++ [m₀], resps, seen⟩ := by
  induction p generalizing m with
  | done f' => exact .of_step rfl rfl (finishes_answering (.inl rfl) (serial_snoc h hp.symm))
  | read c k ih => exact .of_step rfl rfl (ih _ hp hdef)
  | write c x k ih => exact .of_step rfl rfl (ih hp hdef)
  | fault => exact absurd rfl hdef

/-- No request gets stuck, as long as processing stays defined. -/
theorem Phase.finishes {s : State σ} (h : Phase serve setFlag f₀ s)
    (hdef : serial serve (setFlag f₀) s.sent ≠ none) : Finishes serve setFlag s := by
  cases h with
  | starting _ => exact finishes_of_served rfl
  | startingCi _ => exact finishes_of_served rfl
  | syncing _ _ => exact finishes_of_served rfl
  | agreed _ => exact finishes_of_served rfl
  | synced _ _ => exact finishes_of_served rfl
  | quiet _ hd _ =>
    rcases hd.serial_eq with ⟨_, hser⟩
    exact finishes_of_served (length_serial hser)
  | ringing hd _ =>
    rcases hd.serial_eq with ⟨_, hser⟩
    exact finishes_of_served (length_serial hser)
  | answering hd hser hp _ => exact finishes_answering hd (serial_snoc hser hp)
  | answered _ hd _ =>
    rcases hd.serial_eq with ⟨_, hser⟩
    exact finishes_of_served (length_serial hser)
  | @serving m m₀ v p f reqs resps seen hser hp hm =>
    apply finishes_serving hser hp
    intro hnone
    rw [hp] at hnone
    exact hdef (by simp [serial_append, hser, serial, hnone])
  | @posted m v d f reqs resps seen hd hm =>
    have hserve : ∀ f', serial serve (setFlag f₀) reqs = some (f', resps) →
        Finishes serve setFlag ⟨⟨v + 1, v, amMapStateSynced, m⟩, .wait, v + 1,
          .processing (serve f'), f', reqs ++ [m], reqs ++ [m], resps, seen⟩ := by
      intro f' hser
      apply finishes_serving hser rfl
      intro hnone
      exact hdef (by simp [serial_append, hser, serial, hnone])
    have htestCi : ∀ f', serial serve (setFlag f₀) reqs = some (f', resps) →
        Finishes serve setFlag ⟨⟨v + 1, v, amMapStateSynced, m⟩, .wait, v + 1,
          .testCi (v + 1), f', reqs ++ [m], reqs, resps, seen⟩ := by
      intro f' hser
      refine Finishes.of_step ?_ ?_ (hserve f' hser)
      · simp only [deviceStep, if_neg (add_one_ne v)]
      · rfl
    have htest : ∀ f', serial serve (setFlag f₀) reqs = some (f', resps) →
        Finishes serve setFlag ⟨⟨v + 1, v, amMapStateSynced, m⟩, .wait, v + 1,
          .test, f', reqs ++ [m], reqs, resps, seen⟩ :=
      fun f' hser => .of_step rfl rfl (htestCi f' hser)
    rcases hd with hd | ⟨rfl, hser⟩
    · cases hd with
      | setFlag => exact .of_step rfl rfl (htest _ rfl)
      | test hser => exact htest _ hser
      | testCi hser =>
        refine Finishes.of_step ?_ ?_ (htest f hser)
        · simp only [deviceStep, if_true]
        · rfl
      | testPi hser =>
        refine Finishes.of_step ?_ ?_ (hserve f hser)
        · simp only [deviceStep, if_neg (add_one_ne v)]
        · rfl
    · exact htestCi f hser

end Progress

section Exchange

/-- The client has come out of `am_kd_open` with its `uPI`. -/
def ClientPc.Connected : ClientPc → Prop
  | .idle | .getFree | .fill | .ring | .wait | .reading => True
  | _ => False

def DevicePc.Busy : DevicePc σ → Prop
  | .processing _ | .ackLoad | .ackStore _ => True
  | _ => False

/-- What the protocol promises of a state. -/
structure Orderly (serve : σ → Prog σ) (setFlag : σ → σ) (f₀ : σ) (s : State σ) : Prop where
  /-- The device works on the requests sent, each once, in order and as the client filled it. -/
  inOrder : s.begun <+: s.sent ∧ s.sent.length ≤ s.begun.length + 1
  /-- The responses are those of the requests processed one after the other. -/
  responses : ∃ f, serial serve (setFlag f₀) (s.sent.take s.finished.length) = some (f, s.finished)
  /-- The device is at work only while the client waits for its last request. -/
  exclusive : s.device.Busy → s.client = .wait ∧ s.begun = s.sent
  /-- The client reads once its last request has been answered. -/
  reading : s.client = .reading → s.finished.length = s.sent.length ∧ ¬ s.device.Busy ∧
    s.finished.getLast? = some s.page.buffers
  /-- What it read belongs to the response to that request. -/
  seen : ∀ r ∈ s.seen, ∃ m, s.finished[r.1]? = some m ∧ r.2.2 = m (.rx r.2.1)
  doorbell : s.client.Connected → s.page.mapCi = s.uPI ∨ s.page.mapCi = s.uPI - 1
  /-- Every request is answered in the end. -/
  answered : serial serve (setFlag f₀) s.sent ≠ none → Finishes serve setFlag s

theorem Watching.not_busy {v : UInt32} {d : DevicePc σ} {f : σ} {reqs resps : List Buffers}
    (h : Watching serve setFlag f₀ v d f reqs resps) : ¬ d.Busy := by
  cases h <;> exact id

theorem orderly_quiet {s : State σ} (hbegun : s.begun = s.sent)
    (hser : ∃ f, serial serve (setFlag f₀) s.sent = some (f, s.finished)) (hidle : ¬ s.device.Busy)
    (hread : s.client = .reading → s.finished.getLast? = some s.page.buffers)
    (hseen : Matched s.finished s.seen)
    (hbell : s.client.Connected → s.page.mapCi = s.uPI ∨ s.page.mapCi = s.uPI - 1)
    (hans : serial serve (setFlag f₀) s.sent ≠ none → Finishes serve setFlag s) :
    Orderly serve setFlag f₀ s where
  inOrder := ⟨by rw [hbegun], by rw [hbegun]; exact Nat.le_succ _⟩
  responses := by
    rcases hser with ⟨f, hf⟩
    exact ⟨f, by rw [length_serial hf, List.take_length, hf]⟩
  exclusive h := absurd h hidle
  reading h := by
    rcases hser with ⟨f, hf⟩
    exact ⟨length_serial hf, hidle, hread h⟩
  seen := hseen
  doorbell := hbell
  answered := hans

theorem orderly_open {s : State σ} {m : Buffers} {reqs : List Buffers} (hsent : s.sent = reqs ++ [m])
    (hser : ∃ f, serial serve (setFlag f₀) reqs = some (f, s.finished)) (hwait : s.client = .wait)
    (hbegun : s.begun = reqs ∧ ¬ s.device.Busy ∨ s.begun = reqs ++ [m])
    (hseen : Matched s.finished s.seen) (hbell : s.page.mapCi = s.uPI - 1)
    (hans : serial serve (setFlag f₀) s.sent ≠ none → Finishes serve setFlag s) :
    Orderly serve setFlag f₀ s where
  inOrder := by
    rw [hsent]
    rcases hbegun with ⟨hb, _⟩ | hb
    · rw [hb]
      exact ⟨List.prefix_append _ _, by simp⟩
    · rw [hb]
      exact ⟨List.prefix_refl _, Nat.le_succ _⟩
  responses := by
    rcases hser with ⟨f, hf⟩
    exact ⟨f, by rw [hsent, length_serial hf, List.take_left, hf]⟩
  exclusive h := by
    rcases hbegun with ⟨_, hidle⟩ | hb
    · exact absurd h hidle
    · exact ⟨hwait, hb.trans hsent.symm⟩
  reading h := by
    rw [hwait] at h
    cases h
  seen := hseen
  doorbell _ := .inr hbell
  answered := hans

theorem matched_nil (resps : List Buffers) : Matched resps [] := fun _ h => absurd h List.not_mem_nil

/-- In every run of the client and the device thread, each access to the page being one step,
every request is processed exactly once and in order, never while the client fills it, and the
client reads its own response. -/
theorem doorbell_exactlyOnce (serve : σ → Prog σ) (setFlag : σ → σ) (f₀ : σ) {m : Buffers}
    {u : UInt32} {as : List Act} {s : State σ}
    (h : run (step serve setFlag) (start f₀ m u) as = some s) :
    Orderly serve setFlag f₀ s := by
  have hphase : Phase serve setFlag f₀ s := phase_run h
  have hans := hphase.finishes
  have hsub : ∀ v : UInt32, v = v + 1 - 1 := fun v => by simp
  cases hphase with
  | starting hc =>
    refine orderly_quiet rfl ⟨_, rfl⟩ id ?_ (matched_nil _) ?_ hans
    · rcases hc with rfl | ⟨i, rfl⟩ <;> exact fun h => nomatch h
    · rcases hc with rfl | ⟨i, rfl⟩ <;> exact False.elim
  | @startingCi c m u hc =>
    refine orderly_quiet rfl ⟨_, rfl⟩ id ?_ (matched_nil _) ?_ hans
    · rintro rfl
      exact hc.elim
    · cases c <;> first | exact False.elim | exact hc.elim
  | @syncing c m u d hc hd =>
    refine orderly_quiet rfl ⟨_, rfl⟩ ?_ ?_ (matched_nil _) ?_ hans
    · rcases hd with rfl | rfl | rfl <;> exact id
    · rintro rfl
      rcases hc with hc | hc | hc
      · exact hc.elim
      · cases hc
      · cases hc
    · rcases hc with hc | rfl | rfl
      · cases c <;> first | exact False.elim | exact hc.elim
      · exact False.elim
      · exact False.elim
  | agreed hd =>
    refine orderly_quiet rfl ⟨_, rfl⟩ ?_ (fun h => nomatch h) (matched_nil _) False.elim hans
    rcases hd with rfl | rfl | rfl | rfl | rfl <;> exact id
  | synced hc hd =>
    refine orderly_quiet rfl ⟨_, rfl⟩ hd.not_busy ?_ (matched_nil _) ?_ hans
    · rcases hc with rfl | rfl <;> exact fun h => nomatch h
    · rcases hc with rfl | rfl <;> exact False.elim
  | @quiet c m v d f reqs resps seen hc hd hm =>
    refine orderly_quiet rfl hd.serial_eq hd.not_busy ?_ hm (fun _ => .inl rfl) hans
    rintro rfl
    exact hc.elim
  | ringing hd hm =>
    exact orderly_quiet rfl hd.serial_eq hd.not_busy (fun h => nomatch h) hm
      (fun _ => .inr (hsub _)) hans
  | @posted m v d f reqs resps seen hd hm =>
    have hser : ∃ f', serial serve (setFlag f₀) reqs = some (f', resps) := by
      rcases hd with hd | ⟨_, hser⟩
      · exact hd.serial_eq
      · exact ⟨_, hser⟩
    refine orderly_open rfl hser rfl (.inl ⟨rfl, ?_⟩) hm (hsub _) hans
    rcases hd with hd | ⟨rfl, _⟩
    · exact hd.not_busy
    · exact id
  | serving hser hp hm => exact orderly_open rfl ⟨_, hser⟩ rfl (.inr rfl) hm (hsub _) hans
  | answering hd hser hp hm =>
    exact orderly_open rfl ⟨_, hser⟩ rfl (.inr rfl) hm (hsub _) hans
  | answered hc hd hm =>
    exact orderly_quiet rfl hd.serial_eq hd.not_busy (fun _ => List.getLast?_concat) hm
      (fun _ => .inl rfl) hans

/-- The actions of one write to a fresh array, and the reading of the first word of its response. -/
def writeOnce : List Act :=
  List.replicate 2 (.device true) ++ List.replicate 4 (.client .next) ++
    List.replicate 5 (.device true) ++ List.replicate 4 (.client .next) ++
    [.client (.write 0 0x10050000), .client (.write 2 7), .client .next, .client .next] ++
    List.replicate 390 (.device false) ++ [.client .next, .client (.read 0)]

/-- One write, from the first step of both parties on. -/
theorem doorbell_exactlyOnce_write : ∃ s,
    run (step (mapServe .zeroed 0) MemFunction.setMapped)
      (start (asscaDevice .zeroed (.blank 0xAA01) (asscaCap 4)) (fun _ => 0) 0) writeOnce = some s ∧
    s.seen = [(0, 0, 0x10850000)] ∧
    Orderly (mapServe .zeroed 0) MemFunction.setMapped
      (asscaDevice .zeroed (.blank 0xAA01) (asscaCap 4)) s := by
  have hseen : (run (step (mapServe .zeroed 0) MemFunction.setMapped)
      (start (asscaDevice .zeroed (.blank 0xAA01) (asscaCap 4)) (fun _ => 0) 0) writeOnce).map
        State.seen = some [(0, 0, 0x10850000)] := by decide +kernel
  rcases Option.map_eq_some_iff.mp hseen with ⟨s, hs, hread⟩
  exact ⟨s, hs, hread, doorbell_exactlyOnce (mapServe .zeroed 0) MemFunction.setMapped
      (asscaDevice .zeroed (.blank 0xAA01) (asscaCap 4)) hs⟩

end Exchange

end AppMem.Mmap
