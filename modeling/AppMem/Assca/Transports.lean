import AppMem.Assca.PacketPath
import AppMem.Library.TwoRuns

/-! # Two transports in lockstep

An access sees of its transport the request buffer and the completion only. Over two transports
that exchange the requests of a function alike it has the same result, or the same fault.
-/
namespace AppMem.Assca
open Library.Checked Library.TwoRuns Abi Memory Pack

variable {σ τ : Type}

/-- The transports hand out the same buffers and exchange the requests to `funcId` alike. -/
structure SameExchange (R : σ → τ → Prop) (funcId : UInt16) (ac : PackAc σ) (ac' : PackAc τ) :
    Prop where
  free : ∀ s t, R s t →
    Lockstep (fun r r' => R r.1 r'.1 ∧ r.2 = r'.2) (ac.getFreeIop s) (ac'.getFreeIop t)
  exchange : ∀ s t pTx (n : UInt32), R s t → pTx.wrap.funcId = funcId → sizeofWrapper ≤ n.toNat →
    n.toNat ≤ maxBasicPackUnionSize →
    Lockstep (fun r r' => R r.1 r'.1 ∧ r.2 = r'.2) (ac.sendAndWait s pTx n) (ac'.sendAndWait t pTx n)

variable {R : σ → τ → Prop} {ac : PackAc σ} {ac' : PackAc τ} {pFunc : ClientFunc} {s : σ} {t : τ}
  {txSize : UInt32}

theorem funcId_of_write {f g : PackAll} {off : ℕ} {src : List UInt8} (h : f.write off src = .ok g) :
    g.wrap.funcId = f.wrap.funcId := by
  rw [(Frame.write_eq_ok.mp h).2.1]

theorem packWriteWith_lockstep (E : SameExchange R pFunc.handle.toUInt16 ac ac') (hst : R s t)
    (hlo : sizeofWrapper ≤ txSize.toNat) (hhi : txSize.toNat ≤ maxBasicPackUnionSize)
    (p1 p2 : List UInt8) (idx data : ℕ) :
    Lockstep (fun r r' => R r.1 r'.1 ∧ r.2 = r'.2) (packWriteWith ac pFunc s p1 p2 txSize idx data)
      (packWriteWith ac' pFunc t p1 p2 txSize idx data) := by
  unfold packWriteWith
  apply (E.free s t hst).bind
  rintro ⟨s, tx⟩ ⟨t, tx'⟩ ⟨hst, htx⟩
  obtain rfl : tx = tx' := htx
  apply Lockstep.bind_same
  intro key _
  apply Lockstep.bind_same
  intro pTx hkey
  apply Lockstep.bind_same
  intro val _
  apply Lockstep.bind_same
  intro pTx' hval
  have hid : pTx'.wrap.funcId = pFunc.handle.toUInt16 :=
    (funcId_of_write hval).trans (funcId_of_write hkey)
  apply (E.exchange s t pTx' txSize hst hid hlo hhi).bind
  rintro r r' ⟨hr, hc⟩
  exact ⟨hr, by rw [hc]⟩

theorem packReadWith_lockstep (E : SameExchange R pFunc.handle.toUInt16 ac ac') (hst : R s t)
    (hlo : sizeofWrapper ≤ txSize.toNat) (hhi : txSize.toNat ≤ maxBasicPackUnionSize)
    (p1 p2 : List UInt8) (idx data : ℕ) (short : AmReturn) :
    Lockstep (fun r r' => R r.1 r'.1 ∧ r.2 = r'.2)
      (packReadWith ac pFunc s p1 p2 txSize idx data short)
      (packReadWith ac' pFunc t p1 p2 txSize idx data short) := by
  unfold packReadWith
  apply (E.free s t hst).bind
  rintro ⟨s, tx⟩ ⟨t, tx'⟩ ⟨hst, htx⟩
  obtain rfl : tx = tx' := htx
  apply Lockstep.bind_same
  intro key _
  apply Lockstep.bind_same
  intro pTx hkey
  have hid : pTx.wrap.funcId = pFunc.handle.toUInt16 := funcId_of_write hkey
  apply (E.exchange s t pTx txSize hst hid hlo hhi).bind
  rintro r r' ⟨hr, hc⟩
  rw [hc]
  apply Lockstep.ite
  · intro _
    apply Lockstep.ite
    · intro _
      apply Lockstep.bind_same
      intro val _
      apply Lockstep.bind_same
      intro out _
      exact ⟨hr, rfl⟩
    · exact fun _ => ⟨hr, rfl⟩
  · exact fun _ => ⟨hr, rfl⟩

/-- One access, when the sizes of the function fit a packet. -/
theorem packetStep_lockstep (E : SameExchange R pFunc.handle.toUInt16 ac ac') (hst : R s t)
    (hfit : sizeofWrapper + pFunc.crResp.idxSize.toNat + pFunc.crResp.dataSize.toNat ≤
      maxBasicPackUnionSize) (op : AsscaOp) :
    Lockstep (fun r r' => R r.1 r'.1 ∧ r.2 = r'.2) (packetStep ac pFunc s op)
      (packetStep ac' pFunc t op) := by
  have hfit' := hfit
  simp only [sizeofWrapper, maxBasicPackUnionSize] at hfit'
  cases op with
  | write p1 p2 =>
    have hsum : (8 + pFunc.crResp.dataSize + pFunc.crResp.idxSize : UInt32).toNat =
        sizeofWrapper + pFunc.crResp.idxSize.toNat + pFunc.crResp.dataSize.toNat := by
      simp only [sizeofWrapper, UInt32.toNat_add, UInt32.reduceToNat]
      omega
    rw [packetStep, packetStep, packWrite, packWrite]
    cases (amSetPackAccess pFunc.crResp).writeAl with
    | none => rfl
    | some access =>
      cases access with
      | align =>
        apply packWriteWith_lockstep E hst _ (hsum.trans_le hfit)
        rw [hsum, Nat.add_assoc]
        exact Nat.le_add_right _ _
      | align32 => exact packWriteWith_lockstep E hst (by decide) (by decide) p1 p2 4 4
  | read p1 p2 =>
    have hsum : (8 + pFunc.crResp.idxSize : UInt32).toNat =
        sizeofWrapper + pFunc.crResp.idxSize.toNat := by
      simp only [sizeofWrapper, UInt32.toNat_add, UInt32.reduceToNat]
      omega
    rw [packetStep, packetStep, packRead, packRead]
    cases (amSetPackAccess pFunc.crResp).readAl with
    | none => rfl
    | some access =>
      cases access with
      | align =>
        apply packReadWith_lockstep E hst
        · rw [hsum]
          exact Nat.le_add_right _ _
        · rw [hsum]
          exact (Nat.le_add_right _ _).trans hfit
      | align32 =>
        dsimp only
        rw [amPackRead32Align_eq, amPackRead32Align_eq]
        exact packReadWith_lockstep E hst (by decide) (by decide) p1 p2 4 4 amRetIoUnderrun

end AppMem.Assca
