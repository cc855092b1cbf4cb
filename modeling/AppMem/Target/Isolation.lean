import AppMem.Target.Routing
import AppMem.Target.Refusal

/-! # The life of a slot

A slot of the function table is empty until one create request fills it, and all its requests
are refused before that. From then on the function in it goes its own way: its contents and its
responses are those of a device that gets the requests to this slot and no others, whatever is
asked of the other functions in between. The receive slot and the response buffer are shared: what
other requests left in them comes with a request, to the device alone as well.
-/
namespace AppMem.Target
open Library.Bytes Library.Checked Abi Memory Pack Device

section Step
variable {env : Env} {t t' : FuncTable} {rxBuf : PackAll} {resp : PackResp} {stale : UInt32}
  {i : Fin amTargetMaxFunctions} {p : Processed}

theorem packCall_fivo {H : Type} {f : FuncHdr H} {p1 : List UInt8} {l1 : UInt64}
    {tx : Option UInt32} (h : f.packCall rxBuf resp = some (.fivo p1 l1, tx)) :
    p1 = rxBuf.body.drop 8 := by
  unfold FuncHdr.packCall at h
  split at h
  · split at h
    · cases h
    · cases h
  · split at h
    · cases h
    · split at h
      · cases h
        rfl
      · split at h
        · cases h
        · cases h

/-- What a dispatch to the base function does to the table: nothing, or the capability in the
request fills a slot. -/
theorem processBase_slots
    (h : amPackProcessCmd (invokeBase env) (some baseHdr) rxBuf resp stale t = .ok (t', p)) :
    t' = t ∨ ∃ j, t.slots j = .null ∧ t' = t.set j (.device (newDevice env (.blank (slotHandle j))
      (.ofBytes ((rxBuf.body.drop 8).take sizeofMemCap)))) := by
  simp only [amPackProcessCmd, bind_eq_ok] at h
  rcases h with ⟨sel, hsel, h⟩
  cases sel with
  | fail e =>
    cases h
    exact .inl rfl
  | call hd c tx =>
    simp only [bind_eq_ok] at h
    rcases h with ⟨⟨t₁, r⟩, hinv, resp', -, h⟩
    have ht : t' = t₁ := by
      split at h
      · cases h
        rfl
      · cases h
        rfl
    subst ht
    have hc := invokeBase_convention hinv
    cases hd with
    | amTargIdentifyResp | amTargGetCapCount =>
      cases c with
      | opOnly =>
        cases hinv
        exact .inl rfl
      | _ => cases hc
    | amTargGetCap =>
      cases c with
      | fivo p1 l1 =>
        simp only [invokeBase, bind_eq_ok] at hinv
        rcases hinv with ⟨_, -, hinv⟩
        cases hinv
        exact .inl rfl
      | _ => cases hc
    | amTargCreateFunction =>
      cases c with
      | fivo p1 l1 =>
        cases packCall_fivo (packCall_of_select hsel)
        rcases amTargCreateFunction_created hinv with ⟨-, h⟩ | ⟨j, pCap, hj, -, hgood, heq⟩
        · exact .inl h
        · obtain ⟨-, k, hk, -⟩ := amTargCreateFunction_slot hinv hgood
          -- both describe the one slot that changed
          have hjk : k = j := by
            by_contra hne
            have hnew : t'.slots k = t.slots k := by
              rw [heq, FuncTable.set_of_ne hne]
            have hold : t'.slots j = t.slots j := by
              rw [hk, FuncTable.set_of_ne (Ne.symm hne)]
            rw [heq, FuncTable.set_self, hj] at hold
            cases hold
          exact .inr ⟨j, hj, hjk ▸ hk⟩
      | _ => cases hc

end Step

section Slots

def Request.names (r : Request) (i : Fin amTargetMaxFunctions) : Bool :=
  amValidateFunctionId r.rxBuf.wrap.funcId = some i

def Request.created (r : Request) (i : Fin amTargetMaxFunctions) : MemFunction :=
  newDevice r.env (.blank (slotHandle i)) (.ofBytes ((r.rxBuf.body.drop 8).take sizeofMemCap))

def deviceStep (f : MemFunction) (r : Request) : Exec (MemFunction × Processed) :=
  processDevice .user r.env f r.rxBuf r.resp r.stale

def repliesOf (i : Fin amTargetMaxFunctions) (rs : List Request) (ps : List Processed) :
    List Processed :=
  ((rs.zip ps).filter fun q => q.1.names i).map Prod.snd

/-- All requests that name slot `i` are answered with the code for an unknown function. -/
def Refused (i : Fin amTargetMaxFunctions) (rs : List Request) (ps : List Processed) : Prop :=
  ∀ q ∈ rs.zip ps, q.1.names i →
    q.2 = errorResp amRetInvalidFunc (echoWrap q.1.rxBuf q.1.resp)

variable {t t' : FuncTable} {i : Fin amTargetMaxFunctions} {r : Request} {p : Processed}

/-- A request to another slot leaves an occupied slot alone and fills an empty one, or not. -/
theorem targStep_other (hi : r.names i = false) (h : targStep t r = .ok (t', p)) :
    t'.slots i = t.slots i ∨ t.slots i = .null ∧ t'.slots i = .device (r.created i) := by
  have hid : amValidateFunctionId r.rxBuf.wrap.funcId ≠ some i := of_decide_eq_false hi
  rw [targStep] at h
  cases hv : t.validate r.rxBuf.wrap.funcId with
  | null =>
    rw [amTargProcess_null hv, amPackProcessCmd_fail (e := amRetInvalidFunc) rfl] at h
    cases h
    exact .inl rfl
  | base =>
    rw [amTargProcess_base hv] at h
    rcases processBase_slots h with rfl | ⟨j, hj, rfl⟩
    · exact .inl rfl
    · by_cases hij : i = j
      · subst hij
        exact .inr ⟨hj, FuncTable.set_self⟩
      · exact .inl (FuncTable.set_of_ne hij)
  | device f =>
    obtain ⟨j, hj, hf⟩ := FuncTable.validate_eq_device hv
    rw [amTargProcess_device hj hf, bind_eq_ok] at h
    rcases h with ⟨q, -, h⟩
    cases h
    have hij : i ≠ j := by
      rintro rfl
      exact hid hj
    exact .inl (FuncTable.set_of_ne hij)
  | freed =>
    rw [amTargProcess_freed hv] at h
    cases h

theorem targStep_null (hi : r.names i = true) (ht : t.slots i = .null)
    (h : targStep t r = .ok (t', p)) :
    t' = t ∧ p = errorResp amRetInvalidFunc (echoWrap r.rxBuf r.resp) := by
  have hid : amValidateFunctionId r.rxBuf.wrap.funcId = some i := of_decide_eq_true hi
  have hv : t.validate r.rxBuf.wrap.funcId = .null := by
    rw [FuncTable.validate, hid]
    exact ht
  rw [targStep, amTargProcess_null hv, amPackProcessCmd_fail (e := amRetInvalidFunc) rfl] at h
  cases h
  exact ⟨rfl, rfl⟩

theorem targStep_device {f : MemFunction} (hi : r.names i = true) (ht : t.slots i = .device f)
    (h : targStep t r = .ok (t', p)) :
    ∃ g, deviceStep f r = .ok (g, p) ∧ t'.slots i = .device g := by
  have hid : amValidateFunctionId r.rxBuf.wrap.funcId = some i := of_decide_eq_true hi
  rw [targStep, amTargProcess_device hid ht, bind_eq_ok] at h
  rcases h with ⟨q, hq, h⟩
  cases h
  exact ⟨q.1, hq, FuncTable.set_self⟩

end Slots

section Runs
variable {t t' : FuncTable} {i : Fin amTargetMaxFunctions} {rs : List Request} {ps : List Processed}

theorem trace_targStep_cons {r : Request} (h : trace targStep t (r :: rs) = .ok (t', ps)) :
    ∃ t₁ p qs, targStep t r = .ok (t₁, p) ∧ trace targStep t₁ rs = .ok (t', qs) ∧ ps = p :: qs := by
  rw [trace_cons, bind_eq_ok] at h
  rcases h with ⟨⟨t₁, p⟩, hstep, h⟩
  rw [bind_eq_ok] at h
  rcases h with ⟨⟨t₂, qs⟩, hrest, h⟩
  cases h
  exact ⟨t₁, p, qs, hstep, hrest, rfl⟩

/-- A device among others does what it does alone. -/
theorem trace_device {f : MemFunction} (ht : t.slots i = .device f)
    (h : trace targStep t rs = .ok (t', ps)) : ∃ g, t'.slots i = .device g ∧
      trace deviceStep f (rs.filter (Request.names · i)) = .ok (g, repliesOf i rs ps) := by
  induction rs generalizing t f ps with
  | nil =>
    cases h
    exact ⟨f, ht, rfl⟩
  | cons r rs ih =>
    rcases trace_targStep_cons h with ⟨t₁, p, qs, hstep, hrest, rfl⟩
    cases hi : r.names i with
    | false =>
      have ht₁ : t₁.slots i = .device f := by
        rcases targStep_other hi hstep with heq | ⟨hnull, -⟩
        · rw [heq, ht]
        · rw [ht] at hnull
          cases hnull
      rcases ih ht₁ hrest with ⟨g, hg, htrace⟩
      refine ⟨g, hg, ?_⟩
      simp only [repliesOf, List.zip_cons_cons, List.filter_cons, hi, Bool.false_eq_true, if_false]
      exact htrace
    | true =>
      rcases targStep_device hi ht hstep with ⟨g₁, hserve, ht₁⟩
      rcases ih ht₁ hrest with ⟨g, hg, htrace⟩
      refine ⟨g, hg, ?_⟩
      simp only [repliesOf, List.zip_cons_cons, List.filter_cons, hi, if_true, List.map_cons,
        trace_cons, hserve, ok_bind, htrace]

inductive Life (i : Fin amTargetMaxFunctions) (rs : List Request) (ps : List Processed) : Slot → Prop
  | empty (h : Refused i rs ps) : Life i rs ps .null
  | used (before after : List Request) (r : Request) (pb pa : List Processed) (p : Processed)
      (g : MemFunction) (hrs : rs = before ++ r :: after) (hps : ps = pb ++ p :: pa)
      (hlen : pb.length = before.length) (hbefore : Refused i before pb)
      (hr : r.names i = false)
      (halone : trace deviceStep (r.created i) (after.filter (Request.names · i)) =
        .ok (g, repliesOf i after pa)) : Life i rs ps (.device g)

theorem Refused.cons {r : Request} {p : Processed}
    (hr : r.names i = true → p = errorResp amRetInvalidFunc (echoWrap r.rxBuf r.resp))
    (h : Refused i rs ps) : Refused i (r :: rs) (p :: ps) := by
  intro q hq
  rcases List.mem_cons.mp hq with rfl | hq
  · exact hr
  · exact h q hq

theorem Life.cons {r : Request} {p : Processed} {s : Slot}
    (hr : r.names i = true → p = errorResp amRetInvalidFunc (echoWrap r.rxBuf r.resp))
    (h : Life i rs ps s) : Life i (r :: rs) (p :: ps) s := by
  cases h with
  | empty h => exact .empty (h.cons hr)
  | used before after r' pb pa p' g hrs hps hlen hbefore hr' halone =>
    subst hrs hps
    exact .used (r :: before) after r' (p :: pb) pa p' g rfl rfl (congrArg Nat.succ hlen)
      (hbefore.cons hr) hr' halone

theorem life_of_null (ht : t.slots i = .null) (h : trace targStep t rs = .ok (t', ps)) :
    Life i rs ps (t'.slots i) := by
  induction rs generalizing t ps with
  | nil =>
    cases h
    rw [ht]
    exact .empty fun q hq => absurd hq List.not_mem_nil
  | cons r rs ih =>
    rcases trace_targStep_cons h with ⟨t₁, p, qs, hstep, hrest, rfl⟩
    cases hi : r.names i with
    | true =>
      obtain ⟨rfl, hp⟩ := targStep_null hi ht hstep
      exact (ih ht hrest).cons fun _ => hp
    | false =>
      rcases targStep_other hi hstep with heq | ⟨-, hnew⟩
      · exact (ih (heq.trans ht) hrest).cons fun h => absurd (hi.symm.trans h) Bool.false_ne_true
      · rcases trace_device hnew hrest with ⟨g, hg, htrace⟩
        rw [hg]
        exact .used [] rs r [] qs p g rfl rfl rfl (fun q hq => absurd hq List.not_mem_nil) hi htrace

end Runs

end AppMem.Target
