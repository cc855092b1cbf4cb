import AppMem.Assca.LastWrite

/-! # Runs over packets

A run of writes and reads over the network or over the mapped page is the direct run. With memory
for every item and every growth of the table, each of its operations comes back.
-/
namespace AppMem.Assca
open Library.Checked Abi Memory Hash Pack Device

section Completion
variable {b : Build} {env : Env} {σ : Type} {kl dl : ℕ} {flags : UInt32}

def AsscaOp.stores (keyLen dataLen : ℕ) : AsscaOp → Option Pair
  | .write p1 p2 => some (p1.take keyLen, p2.take dataLen)
  | .read _ _ => none

/-- Every operation comes back, with `AM_RET_GOOD` or with `AM_RET_KEY_NOT_FOUND`. -/
def ComesBack (step : σ → AsscaOp → Exec (σ × AlignResult)) (s : σ) (ops : List AsscaOp) : Prop :=
  ∃ s' rs, trace step s ops = .ok (s', rs) ∧
    ∀ r ∈ rs, r.error = amRetGood ∨ r.error = amRetKeyNotFound

theorem ComesBack.cons {step : σ → AsscaOp → Exec (σ × AlignResult)} {s s' : σ} {op : AsscaOp}
    {ops : List AsscaOp} {r : AlignResult} (hstep : step s op = .ok (s', r))
    (hr : r.error = amRetGood ∨ r.error = amRetKeyNotFound) (h : ComesBack step s' ops) :
    ComesBack step s (op :: ops) := by
  obtain ⟨s'', rs, hrun, hrs⟩ := h
  refine ⟨s'', r :: rs, by rw [trace_cons, hstep, ok_bind, hrun, ok_bind], ?_⟩
  intro r' hr'
  rcases List.mem_cons.mp hr' with rfl | hr'
  · exact hr
  · exact hrs r' hr'

theorem ComesBack.of_view {τ : Type} {step : σ → AsscaOp → Exec (σ × AlignResult)}
    {step' : τ → AsscaOp → Exec (τ × AlignResult)} {view : σ → τ} {s : σ} {ops : List AsscaOp}
    (hview : (trace step s ops).map (Prod.map view id) = trace step' (view s) ops)
    (h : ComesBack step' (view s) ops) : ComesBack step s ops := by
  obtain ⟨t, rs, hrun, hrs⟩ := h
  rw [hrun] at hview
  obtain ⟨⟨s', rs'⟩, hok, heq⟩ := except_map_eq_ok.mp hview
  cases heq
  exact ⟨s', rs', hok, hrs⟩

theorem answer_error (direct : Bool) (v : Option (List UInt8)) (p2 : List UInt8) :
    (answer direct v p2).error = amRetGood ∨ (answer direct v p2).error = amRetKeyNotFound := by
  cases v with
  | none => exact .inr rfl
  | some v => exact .inl rfl

/-- With memory, the operations on an array come back as long as the table grows. -/
theorem Stored.comesBack (henv : env.Ample) (hb : b.direct flags = true) {ops : List AsscaOp}
    {f : MemFunction} {fd : AsscaData} {s : Growth × List (Pair × ℕ)}
    (hf : f.pVdF = some (.assca fd)) (S : Stored kl dl flags fd s.1 s.2)
    (hops : ∀ op ∈ ops, op.Fits kl dl)
    (hgrow : ((ops.filterMap (AsscaOp.stores kl dl)).foldlM stamp s).isSome) :
    ComesBack (directStep b env) f ops := by
  induction ops generalizing f fd s with
  | nil => exact ⟨f, [], rfl, fun _ h => absurd h List.not_mem_nil⟩
  | cons op ops ih =>
    have hop := hops op List.mem_cons_self
    have hrest : ∀ op' ∈ ops, op'.Fits kl dl := fun op' h => hops op' (List.mem_cons_of_mem _ h)
    cases op with
    | write p1 p2 =>
      have hstep := S.write henv hf (w := (p1, p2)) hop.1 hop.2
      simp only [List.filterMap_cons, AsscaOp.stores, List.foldlM_cons] at hgrow
      cases hs : stamp s (p1.take kl, p2.take dl) with
      | none =>
        rw [hs] at hgrow
        cases hgrow
      | some s₁ =>
        rw [hs] at hgrow hstep
        obtain ⟨fd₁, hw, S₁⟩ := hstep
        have hdirect : directStep b env f (.write p1 p2) =
            .ok ({ f with pVdF := some (.assca fd₁) }, ⟨amRetGood, p2⟩) := by
          rw [directStep, hw]
          rfl
        exact (ih rfl S₁ hrest hgrow).cons hdirect (.inl rfl)
    | read p1 p2 =>
      simp only [List.filterMap_cons, AsscaOp.stores] at hgrow
      obtain ⟨f', hread⟩ : ∃ f', directStep b env f (.read p1 p2) =
          .ok (f', answer (b.direct flags) (visible s.1.doublings s.2 (p1.take kl)) p2) :=
        S.read hf hop.1 hop.2
      have hsame : f' = f := directStep_read_same hf (S.flags ▸ hb) hread
      rw [hsame] at hread
      exact (ih hf S hrest hgrow).cons hread (answer_error _ _ _)

end Completion

section Equivalence
variable {env₀ : Env} {f₀ f : MemFunction} {pCap : AmMemCap}

theorem stored_setMapped (env₀ : Env) (f₀ : MemFunction) (pCap : AmMemCap) :
    ∃ fd, (asscaDevice env₀ f₀ pCap).setMapped.pVdF = some (.assca fd) ∧
      Stored (pCap.typeSpecific tsAsscaKeyMaxSize).toNat
        (pCap.typeSpecific tsAsscaDataMaxSize).toNat (env₀.flags ||| amFuncDataFlagMmapped) fd
        Growth.start [] :=
  ⟨_, rfl, rfl, rfl, ⟨rfl, rfl⟩, rfl, rfl, fun _ h => absurd h List.not_mem_nil,
    .inl ⟨rfl, rfl, rfl⟩⟩

/-- The packet path equals the direct path, over the network to the target and over the mapped
page to the driver: the same results, the same value buffers and the same table, for every
sequence of operations and whatever the packet buffers held before. With memory, the operations
come back on both paths as long as the table grows. -/
theorem packetPath_eq_direct (env stale handle) {ops : List AsscaOp}
    (hcreate : amCreateAsscaDevice env₀ f₀ pCap = (amRetGood, f))
    (hfit : sizeofWrapper + (pCap.typeSpecific tsAsscaKeyMaxSize).toNat +
      (pCap.typeSpecific tsAsscaDataMaxSize).toNat ≤ maxBasicPackUnionSize)
    (hops : ∀ op ∈ ops, op.Fits (pCap.typeSpecific tsAsscaKeyMaxSize).toNat
      (pCap.typeSpecific tsAsscaDataMaxSize).toNat) :
    (∀ link : NetLink MemFunction, link.target = f →
      (trace (packetStep (netPackAc (serveDevice .user env stale)) ⟨handle, f.crResp⟩) link ops).map
        (Prod.map NetLink.target id) = trace (directStep .user env) f ops) ∧
    (∀ link : KpackLink MemFunction, link.device = f.setMapped →
      (trace (packetStep (kpackPackAc (serveDevice .kernel env stale)) ⟨handle, f.crResp⟩) link
        ops).map (Prod.map KpackLink.device id) = trace (directStep .kernel env) f.setMapped ops) ∧
    (env.Ample → (stamped (ops.filterMap (AsscaOp.stores
        (pCap.typeSpecific tsAsscaKeyMaxSize).toNat
        (pCap.typeSpecific tsAsscaDataMaxSize).toNat))).isSome →
      (∀ link : NetLink MemFunction, link.target = f →
        ComesBack (packetStep (netPackAc (serveDevice .user env stale)) ⟨handle, f.crResp⟩) link
          ops) ∧
      ∀ link : KpackLink MemFunction, link.device = f.setMapped →
        ComesBack (packetStep (kpackPackAc (serveDevice .kernel env stale)) ⟨handle, f.crResp⟩) link
          ops) := by
  have hf := asscaDevice_of_create hcreate
  subst hf
  have hac := asscaDevice_acOps env₀ f₀ pCap
  have hnet : ∀ link : NetLink MemFunction, link.target = asscaDevice env₀ f₀ pCap →
      (trace (packetStep (netPackAc (serveDevice .user env stale))
        ⟨handle, (asscaDevice env₀ f₀ pCap).crResp⟩) link ops).map (Prod.map NetLink.target id) =
        trace (directStep .user env) link.target ops := by
    intro link hlink
    have hready : Ready .user (asscaDevice env₀ f₀ pCap).crResp link.target := by
      rw [hlink]
      exact ready_asscaDevice rfl
    exact packetTrace_view ⟨handle, (asscaDevice env₀ f₀ pCap).crResp⟩ link
      (netPackAc_delivers (serveDevice .user env stale)) hac.1 hac.2 hfit hready hops
  have hpage : ∀ link : KpackLink MemFunction,
      link.device = (asscaDevice env₀ f₀ pCap).setMapped →
      (trace (packetStep (kpackPackAc (serveDevice .kernel env stale))
        ⟨handle, (asscaDevice env₀ f₀ pCap).crResp⟩) link ops).map (Prod.map KpackLink.device id) =
        trace (directStep .kernel env) link.device ops := by
    intro link hlink
    have hready : Ready .kernel (asscaDevice env₀ f₀ pCap).crResp link.device := by
      rw [hlink]
      exact ready_setMapped
    exact packetTrace_view ⟨handle, (asscaDevice env₀ f₀ pCap).crResp⟩ link
      (kpackPackAc_delivers (serveDevice .kernel env stale)) hac.1 hac.2 hfit hready hops
  refine ⟨fun link hlink => hlink ▸ hnet link hlink, fun link hlink => hlink ▸ hpage link hlink,
    fun henv hgrow => ⟨fun link hlink => ?_, fun link hlink => ?_⟩⟩
  · obtain ⟨fd, hfd, S⟩ := stored_asscaDevice env₀ f₀ pCap
    rw [← hlink] at hfd
    exact (S.comesBack henv (Build.direct_user _) (s := (Growth.start, [])) hfd hops hgrow).of_view
      (hnet link hlink)
  · obtain ⟨fd, hfd, S⟩ := stored_setMapped env₀ f₀ pCap
    rw [← hlink] at hfd
    exact (S.comesBack henv (Build.direct_mapped _ _) (s := (Growth.start, [])) hfd hops
      hgrow).of_view (hpage link hlink)

section FourBytes

def writesThenRead : List AsscaOp :=
  [.write [1, 2, 3, 4] [5, 6, 7, 8], .write [1, 2, 3, 4] [9, 9, 9, 9],
    .read [1, 2, 3, 4] [0, 0, 0, 0]]

def fourBytes : MemFunction := asscaDevice .zeroed (.blank 0xAA01) (asscaCap 4)

def toFourBytes : NetLink MemFunction := ⟨.zero, .zero, .zero, .zero, fourBytes⟩

/-- Over the network the second value is read back, as it is directly. -/
theorem packetPath_eq_direct_fourBytes :
    let overNet := packetStep (netPackAc (serveDevice .user .zeroed 0)) ⟨0xAA01, fourBytes.crResp⟩
    (trace overNet toFourBytes writesThenRead).map (Prod.map NetLink.target id) =
      trace (directStep .user .zeroed) fourBytes writesThenRead ∧
    (trace overNet toFourBytes writesThenRead).map Prod.snd =
      .ok [⟨amRetGood, [5, 6, 7, 8]⟩, ⟨amRetGood, [9, 9, 9, 9]⟩, ⟨amRetGood, [9, 9, 9, 9]⟩] ∧
    ComesBack overNet toFourBytes writesThenRead := by
  intro overNet
  have hcreate : amCreateAsscaDevice .zeroed (.blank 0xAA01) (asscaCap 4) =
      (amRetGood, fourBytes) := rfl
  have hops : ∀ op ∈ writesThenRead, op.Fits 4 4 := by
    intro op hop
    simp only [writesThenRead, List.mem_cons, List.not_mem_nil, or_false] at hop
    rcases hop with rfl | rfl | rfl
    · exact ⟨Nat.le_refl 4, Nat.le_refl 4⟩
    · exact ⟨Nat.le_refl 4, Nat.le_refl 4⟩
    · exact ⟨Nat.le_refl 4, Nat.le_refl 4⟩
  obtain ⟨hnet, -, hback⟩ :=
    packetPath_eq_direct .zeroed 0 0xAA01 hcreate (by decide) hops
  have hdirect : (trace (directStep .user .zeroed) fourBytes writesThenRead).map Prod.snd =
      .ok [⟨amRetGood, [5, 6, 7, 8]⟩, ⟨amRetGood, [9, 9, 9, 9]⟩, ⟨amRetGood, [9, 9, 9, 9]⟩] := by
    decide +kernel
  refine ⟨hnet _ rfl, ?_, (hback Env.zeroed_ample (by decide)).1 _ rfl⟩
  rw [← hnet toFourBytes rfl] at hdirect
  cases hrun : trace overNet toFourBytes writesThenRead with
  | error e =>
    rw [hrun] at hdirect
    cases hdirect
  | ok r =>
    rw [hrun] at hdirect
    exact hdirect

end FourBytes

end Equivalence

end AppMem.Assca
