import AppMem.Pack.Status

/-! # Refused requests

A request is refused by the dispatcher, or by the handler it selects. A handler that refuses
leaves the state alone and writes nothing, so a refused request leaves nothing but an error
response. Two requests with one wrapper are served alike when their handler cannot tell them
apart.
-/
namespace AppMem.Pack
open Library.Bytes Library.Checked Abi Memory

section Refusal
variable {H S : Type} {invoke : Invoke H S} {R : H → PackCall → AmReturn → Prop}
  {pFunc : Option (FuncHdr H)} {rxBuf : PackAll} {resp : PackResp} {stale : UInt32} {s s' : S}
  {p : Processed} {e : AmReturn}

/-- The request is refused with code `e`; `R` says what the handlers refuse. -/
inductive PackRefuses (R : H → PackCall → AmReturn → Prop) (pFunc : Option (FuncHdr H))
    (rxBuf : PackAll) (resp : PackResp) (e : AmReturn) : Prop
  | selected (h : amPackSelect pFunc rxBuf resp = .ok (.fail e))
  | handled (hd : H) (c : PackCall) (tx : Option UInt32)
    (h : amPackSelect pFunc rxBuf resp = .ok (.call hd c tx)) (hr : R hd c e)

/-- A refused request is answered with its code, and nothing else happens. -/
theorem PackRefuses.processed
    (hR : ∀ hd c e, R hd c e → invoke hd c s = .ok (s, { error := e }) ∧ e ≠ amRetGood)
    (h : PackRefuses R pFunc rxBuf (echoWrap rxBuf resp) e) :
    amPackProcessCmd invoke pFunc rxBuf resp stale s =
      .ok (s, errorResp e (echoWrap rxBuf resp)) ∧ e ≠ amRetGood := by
  cases h with
  | selected h => exact ⟨amPackProcessCmd_fail h, amPackSelect_fail_ne_good h⟩
  | handled hd c tx h hr =>
    obtain ⟨hinv, hne⟩ := hR hd c e hr
    refine ⟨?_, hne⟩
    have hwrite : (echoWrap rxBuf resp).write 0 [] = .ok (echoWrap rxBuf resp) := by
      rw [Frame.write_eq_ok]
      exact ⟨Nat.zero_le _, rfl, (splice_nil _ _).symm⟩
    rw [amPackProcessCmd_call h, hinv, ok_bind, hwrite, ok_bind, if_pos hne]

/-- Conversely, an error response tells that the request was refused. -/
theorem packRefuses_of_error
    (hR : ∀ hd c s' r, invoke hd c s = .ok (s', r) → r.error ≠ amRetGood → R hd c r.error)
    (h : amPackProcessCmd invoke pFunc rxBuf resp stale s = .ok (s', p))
    (hp : p.error ≠ amRetGood) : PackRefuses R pFunc rxBuf (echoWrap rxBuf resp) p.error := by
  unfold amPackProcessCmd at h
  rw [bind_eq_ok] at h
  rcases h with ⟨sel, hsel, h⟩
  cases sel with
  | fail e =>
    cases h
    exact .selected hsel
  | call hd c tx =>
    dsimp only at h
    rw [bind_eq_ok] at h
    rcases h with ⟨⟨s₁, r⟩, hinv, h⟩
    rw [bind_eq_ok] at h
    rcases h with ⟨resp', -, h⟩
    split at h
    · rename_i hne
      cases h
      exact .handled hd c tx hsel (hR hd c _ r hinv hne)
    · cases h
      exact absurd rfl hp

end Refusal

section Congruence
variable {H S : Type} {invoke : Invoke H S} {f : FuncHdr H} {rxBuf rxBuf' : PackAll}
  {resp : PackResp} {stale : UInt32} {s : S}

inductive CallPair (f : FuncHdr H) (rxBuf rxBuf' : PackAll) (resp : PackResp) :
    PackCall → PackCall → Prop
  | alignRead (ho : rxBuf.wrap.op &&& 1 ≠ 0) :
    CallPair f rxBuf rxBuf' resp (.align rxBuf.body resp.body) (.align rxBuf'.body resp.body)
  | alignWrite (ho : ¬ rxBuf.wrap.op &&& 1 ≠ 0) :
    CallPair f rxBuf rxBuf' resp (.align rxBuf.body (rxBuf.body.drop f.idxSize.toNat))
      (.align rxBuf'.body (rxBuf'.body.drop f.idxSize.toNat))
  | opOnly : CallPair f rxBuf rxBuf' resp .opOnly .opOnly
  | fivo : CallPair f rxBuf rxBuf' resp (.fivo (rxBuf.body.drop 8) rxBuf.l1)
      (.fivo (rxBuf'.body.drop 8) rxBuf'.l1)
  | action : CallPair f rxBuf rxBuf' resp (.action rxBuf.body rxBuf.actionLen)
      (.action rxBuf'.body rxBuf.actionLen)

theorem callPair_of_packCall (hw : rxBuf.wrap = rxBuf'.wrap) {c c' : PackCall}
    {tx tx' : Option UInt32} (hc : f.packCall rxBuf resp = some (c, tx))
    (hc' : f.packCall rxBuf' resp = some (c', tx')) : CallPair f rxBuf rxBuf' resp c c' := by
  have hl : rxBuf'.actionLen = rxBuf.actionLen := by simp only [Frame.actionLen, hw]
  unfold FuncHdr.packCall at hc hc'
  rw [← hw] at hc'
  split at hc
  · rename_i hty
    rw [if_pos hty] at hc'
    split at hc
    · rename_i ho
      rw [if_pos ho] at hc'
      cases hc
      cases hc'
      exact .alignRead ho
    · rename_i ho
      rw [if_neg ho] at hc'
      cases hc
      cases hc'
      exact .alignWrite ho
  · rename_i hty
    rw [if_neg hty] at hc'
    split at hc
    · rename_i hty
      rw [if_pos hty] at hc'
      cases hc
      cases hc'
      exact .opOnly
    · rename_i hty
      rw [if_neg hty] at hc'
      split at hc
      · rename_i hty
        rw [if_pos hty] at hc'
        cases hc
        cases hc'
        exact .fivo
      · rename_i hty
        rw [if_neg hty] at hc'
        split at hc
        · rename_i hty
          rw [if_pos hty] at hc'
          cases hc
          cases hc'
          rw [hl]
          exact .action
        · cases hc

theorem amPackProcessCmd_congr (hw : rxBuf.wrap = rxBuf'.wrap)
    (hcall : ∀ hop h c c', f.pfnOps ⟨rxBuf.wrap.op.toNat, hop⟩ = some h →
      CallPair f rxBuf rxBuf' (echoWrap rxBuf resp) c c' → invoke h c s = invoke h c' s) :
    amPackProcessCmd invoke (some f) rxBuf resp stale s =
      amPackProcessCmd invoke (some f) rxBuf' resp stale s := by
  have hecho : echoWrap rxBuf resp = echoWrap rxBuf' resp := by
    rw [echoWrap, echoWrap, hw]
  have htx : (f.packCall rxBuf (echoWrap rxBuf resp)).map Prod.snd =
      (f.packCall rxBuf' (echoWrap rxBuf resp)).map Prod.snd := by
    unfold FuncHdr.packCall
    rw [← hw]
    split
    · split <;> rfl
    · split
      · rfl
      · split
        · rfl
        · split <;> rfl
  by_cases hop : rxBuf.wrap.op.toNat < amOpMaxOps
  · have hop' : rxBuf'.wrap.op.toNat < amOpMaxOps := hw ▸ hop
    have hslots : f.pfnOps ⟨_, hop'⟩ = f.pfnOps ⟨_, hop⟩ := by simp only [hw]
    rcases amPackSelect_cases f rxBuf (echoWrap rxBuf resp) hop with
      ⟨hslot, hs⟩ | ⟨h, hslot, hc, hs⟩ | ⟨h, c, tx, hslot, hc, hs⟩
    · have hs' : amPackSelect (some f) rxBuf' (echoWrap rxBuf' resp) =
          .ok (.fail amRetInvalidOpcode) := by
        simp only [amPackSelect, f.slot_of_lt hop', hslots, hslot, ok_bind]
        rfl
      rw [amPackProcessCmd_fail hs, amPackProcessCmd_fail hs', hecho]
    · rw [hc, Option.map_none] at htx
      have hc' := Option.map_eq_none_iff.mp htx.symm
      have hs' : amPackSelect (some f) rxBuf' (echoWrap rxBuf' resp) =
          .ok (.fail amRetInvalidPackOp) := by
        simp only [amPackSelect, f.slot_of_lt hop', hslots, hslot, ok_bind, ← hecho, hc']
        rfl
      rw [amPackProcessCmd_fail hs, amPackProcessCmd_fail hs', hecho]
    · rw [hc, Option.map_some] at htx
      rcases Option.map_eq_some_iff.mp htx.symm with ⟨⟨c', tx'⟩, hc', htx'⟩
      cases htx'
      have hs' : amPackSelect (some f) rxBuf' (echoWrap rxBuf' resp) = .ok (.call h c' tx) := by
        simp only [amPackSelect, f.slot_of_lt hop', hslots, hslot, ok_bind, ← hecho, hc']
        rfl
      rw [amPackProcessCmd_call hs, amPackProcessCmd_call hs', hecho,
        hcall hop h c c' hslot (callPair_of_packCall hw hc hc')]
  · have hop' : ¬ rxBuf'.wrap.op.toNat < amOpMaxOps := hw ▸ hop
    simp only [amPackProcessCmd, amPackSelect_out_of_range f _ _ hop,
      amPackSelect_out_of_range f _ _ hop', error_bind]

end Congruence

end AppMem.Pack
