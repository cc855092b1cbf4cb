import AppMem.Pack.Status

/-! # Well-typed dispatch of packets

The sender chooses the operation and the pack type; the operation picks a handler, the pack
type the way it is called. Dispatch is safe when the handler is called as it was stored, or
the request is answered with an error.
-/
namespace AppMem.Pack
open Library.Bytes Library.Checked Abi Memory

def packConvention (packType : UInt8) : Option Convention :=
  if packType = amKpack ∨ packType = amPackAlign then some .align
  else if packType = amPackTypeOpcodeOnly then some .opOnly
  else if packType = amPackTypeFivo then some .fivo
  else if packType = amPackAction then some .action
  else none

section
variable {H S : Type}

theorem FuncHdr.packCall_convention (f : FuncHdr H) (rxBuf : PackAll) (resp : PackResp) :
    (f.packCall rxBuf resp).map (fun p => p.1.convention) =
      packConvention rxBuf.wrap.packType := by
  unfold packCall packConvention
  split
  · split
    · rfl
    · rfl
  · split
    · rfl
    · split
      · rfl
      · split
        · rfl
        · rfl

variable (conv : H → Convention) (invoke : Invoke H S) (pFunc : Option (FuncHdr H))
  (rxBuf : PackAll) (resp : PackResp) (stale : UInt32) (s : S)

/-- A handler of the table, picked within its bounds, is called as it was stored. -/
def CalledAsStored : Prop :=
  ∃ (f : FuncHdr H) (hop : rxBuf.wrap.op.toNat < amOpMaxOps) (h : H) (c : PackCall)
    (tx : Option UInt32),
    pFunc = some f ∧ f.pfnOps ⟨_, hop⟩ = some h ∧
      amPackSelect pFunc rxBuf (echoWrap rxBuf resp) = .ok (.call h c tx) ∧
      c.convention = conv h

def AnsweredWithError : Prop :=
  ∃ e, amPackSelect pFunc rxBuf (echoWrap rxBuf resp) = .ok (.fail e) ∧
    amPackProcessCmd invoke pFunc rxBuf resp stale s =
      .ok (s, errorResp e (echoWrap rxBuf resp)) ∧ e ≠ amRetGood

/-- What a dispatcher of packets should do with a request. -/
def DispatchSafe : Prop :=
  CalledAsStored conv pFunc rxBuf resp ∨ AnsweredWithError invoke pFunc rxBuf resp stale s

/-- The requests for which it does: there is no function, or the operation is below the end of
the table and, if it is registered, the pack type is unknown or selects the way its handler was
stored. -/
def Dispatchable : Prop :=
  ∀ f, pFunc = some f → ∃ hop : rxBuf.wrap.op.toNat < amOpMaxOps,
    ∀ h, f.pfnOps ⟨_, hop⟩ = some h →
      ∀ cv, packConvention rxBuf.wrap.packType = some cv → cv = conv h

variable {conv invoke pFunc rxBuf resp stale s}

theorem answeredWithError_of_fail {e : AmReturn}
    (h : amPackSelect pFunc rxBuf (echoWrap rxBuf resp) = .ok (.fail e)) :
    AnsweredWithError invoke pFunc rxBuf resp stale s :=
  ⟨e, h, amPackProcessCmd_fail h, amPackSelect_fail_ne_good h⟩

/-- Dispatch is safe exactly for these requests. -/
theorem packDispatch_iff :
    DispatchSafe conv invoke pFunc rxBuf resp stale s ↔ Dispatchable conv pFunc rxBuf := by
  cases pFunc with
  | none =>
    refine iff_of_true (.inr (answeredWithError_of_fail rfl)) ?_
    intro f hf
    cases hf
  | some f =>
    have hsome : Dispatchable conv (some f) rxBuf ↔
        ∃ hop : rxBuf.wrap.op.toNat < amOpMaxOps, ∀ h, f.pfnOps ⟨_, hop⟩ = some h →
          ∀ cv, packConvention rxBuf.wrap.packType = some cv → cv = conv h :=
      ⟨fun h => h f rfl, fun h g hg => Option.some.inj hg ▸ h⟩
    have hconv := f.packCall_convention rxBuf (echoWrap rxBuf resp)
    rw [hsome]
    by_cases hop : rxBuf.wrap.op.toNat < amOpMaxOps
    · rcases amPackSelect_cases f rxBuf (echoWrap rxBuf resp) hop with
        ⟨hslot, hs⟩ | ⟨h, hslot, hcall, hs⟩ | ⟨h, c, tx, hslot, hcall, hs⟩
      · refine iff_of_true (.inr (answeredWithError_of_fail hs)) ⟨hop, fun h hh => ?_⟩
        rw [hslot] at hh
        cases hh
      · refine iff_of_true (.inr (answeredWithError_of_fail hs)) ⟨hop, fun _ _ cv hcv => ?_⟩
        rw [← hconv, hcall] at hcv
        cases hcv
      · have hcv : packConvention rxBuf.wrap.packType = some c.convention := by
          rw [← hconv, hcall]
          rfl
        constructor
        · rintro (⟨g, _, h', c', tx', hg, hslot', hs', hc⟩ | ⟨e, he, _⟩)
          · cases hg
            rw [hs] at hs'
            cases hs'
            refine ⟨hop, fun h'' hh cv hcv' => ?_⟩
            rw [hslot] at hh
            cases hh
            rw [hcv] at hcv'
            cases hcv'
            exact hc
          · rw [hs] at he
            cases he
        · rintro ⟨_, hall⟩
          exact .inl ⟨f, hop, h, c, tx, rfl, hslot, hs, hall h hslot _ hcv⟩
    · have hs := amPackSelect_out_of_range f rxBuf (echoWrap rxBuf resp) hop
      refine iff_of_false ?_ (fun h => hop h.1)
      rintro (⟨_, hop', _⟩ | ⟨e, he, _⟩)
      · exact hop hop'
      · rw [hs] at he
        cases he

end

end AppMem.Pack
