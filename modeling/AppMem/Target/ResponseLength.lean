import AppMem.Device.Written
import AppMem.Target.Leftovers

/-! # The length of a response

`am_pack_process_cmd` computes the length itself for aligned calls and actions, leaves it to the
handler for the other conventions, and overrides both for an error. A response is measured when its
length, whatever the local variable held before, is the wrapper and what was written behind it.
-/
namespace AppMem.Target
open Library.Bytes Library.Checked Abi Memory Pack Device

section Measure
variable {H S : Type} {invoke : Invoke H S} {f : FuncHdr H} {rxBuf : PackAll} {resp : PackResp}
  {s : S} {hd : H} {c : PackCall} {tx : Option UInt32}

/-- The bytes behind the wrapper: those of the handler, or the status of an error. -/
def payloadBytes (r : Served) : ℕ := if r.error = amRetGood then r.out.length else 4

/-- Both lengths are the wrapper and the payload, and stay inside the response buffer. -/
structure Measured (p : Processed) (written : ℕ) : Prop where
  size : p.resp.wrap.size.toNat = p.txBytes.toNat
  written : p.txBytes.toNat = sizeofWrapper + written
  low : sizeofWrapper ≤ p.txBytes.toNat
  high : p.txBytes.toNat ≤ maxBasicPackUnionSize

/-- The handler comes back with what fits into the response buffer, and whatever `tx_bytes` holds
before, the response is the same and measured. -/
def LengthRight (invoke : Invoke H S) (f : FuncHdr H) (rxBuf : PackAll) (resp : PackResp) (s : S)
    (hd : H) (c : PackCall) : Prop :=
  ∃ s' r p, invoke hd c s = .ok (s', r) ∧
    (∀ stale, amPackProcessCmd invoke (some f) rxBuf resp stale s = .ok (s', p)) ∧
    Measured p (payloadBytes r)

theorem measured_errorResp (e : AmReturn) (resp : PackResp) : Measured (errorResp e resp) 4 where
  size := rfl
  written := rfl
  low := Nat.le_add_right 8 4
  high := Nat.le_add_right 12 500

theorem measured_good {resp : PackResp} {n : UInt32} {m : ℕ} (hn : n.toNat = sizeofWrapper + m)
    (hm : m ≤ bodySize) :
    Measured ⟨amRetGood, { resp with wrap := { resp.wrap with size := n.toUInt16 } }, n⟩ m := by
  have hhigh : n.toNat ≤ maxBasicPackUnionSize := by
    rw [hn]
    exact Nat.add_le_add_left hm sizeofWrapper
  have hsize : n.toUInt16.toNat = n.toNat := by
    simp only [UInt32.toNat_toUInt16]
    exact Nat.mod_eq_of_lt (hhigh.trans_lt (by decide))
  exact ⟨hsize, hn, hn.symm ▸ Nat.le_add_right _ _, hhigh⟩

theorem toNat_payload {m : ℕ} (h : m ≤ bodySize) :
    (sizeofWrapper + m).toUInt32.toNat = sizeofWrapper + m := by
  simp only [sizeofWrapper, bodySize, Nat.toUInt32, UInt32.toNat_ofNat'] at h ⊢
  omega

/-- What decides: an error, or a length from the dispatcher or the handler that counts the wrapper
and the bytes written. -/
theorem lengthRight_iff
    (hsel : amPackSelect (some f) rxBuf (echoWrap rxBuf resp) = .ok (.call hd c tx)) :
    LengthRight invoke f rxBuf resp s hd c ↔
      ∃ s' r, invoke hd c s = .ok (s', r) ∧ r.out.length ≤ bodySize ∧
        (r.error ≠ amRetGood ∨
          tx.or r.txBytes = some (sizeofWrapper + r.out.length).toUInt32) := by
  constructor
  · rintro ⟨s', r, p, hinv, hproc, M⟩
    have hcall := fun stale => (amPackProcessCmd_call hsel).symm.trans (hproc stale)
    simp only [hinv, ok_bind] at hcall
    have hwrite : r.out.length ≤ bodySize := by
      have h0 := hcall 0
      rw [bind_eq_ok] at h0
      rcases h0 with ⟨g, hg, -⟩
      simpa using (Frame.write_eq_ok.mp hg).1
    refine ⟨s', r, hinv, hwrite, ?_⟩
    by_cases herr : r.error = amRetGood
    · obtain ⟨g, hg, -⟩ := Frame.write_of_le (echoWrap rxBuf resp) 0 r.out (by
        rw [Nat.zero_add]
        exact hwrite)
      have htx : ∀ stale, tx.getD (r.txBytes.getD stale) = p.txBytes := by
        intro stale
        have h := hcall stale
        rw [hg, ok_bind, if_neg (not_not.mpr herr)] at h
        cases h
        rfl
      have hlen : p.txBytes = (sizeofWrapper + r.out.length).toUInt32 := by
        apply UInt32.toNat_inj.mp
        rw [M.written, payloadBytes, if_pos herr, toNat_payload hwrite]
      refine .inr ?_
      rw [← hlen]
      cases tx with
      | some n => exact congrArg some (htx 0)
      | none =>
        cases hown : r.txBytes with
        | some n =>
          rw [hown] at htx
          exact congrArg some (htx 0)
        | none =>
          rw [hown] at htx
          have h01 : (0 : UInt32) = 1 := (htx 0).trans (htx 1).symm
          exact absurd h01 (by decide)
    · exact .inl herr
  · rintro ⟨s', r, hinv, hwrite, hlen⟩
    obtain ⟨g, hg, -⟩ := Frame.write_of_le (echoWrap rxBuf resp) 0 r.out (by
      rw [Nat.zero_add]
      exact hwrite)
    by_cases herr : r.error = amRetGood
    · have htx := hlen.resolve_left (not_not.mpr herr)
      have hsame : ∀ stale, tx.getD (r.txBytes.getD stale) =
          (sizeofWrapper + r.out.length).toUInt32 := by
        intro stale
        cases tx with
        | some n => exact Option.some.inj htx
        | none =>
          rw [Option.none_or] at htx
          rw [htx]
          rfl
      refine ⟨s', r, ⟨amRetGood, { g with wrap := { g.wrap with
        size := (sizeofWrapper + r.out.length).toUInt32.toUInt16 } },
        (sizeofWrapper + r.out.length).toUInt32⟩, hinv, fun stale => ?_, ?_⟩
      · rw [amPackProcessCmd_call hsel, hinv, ok_bind, hg, ok_bind, if_neg (not_not.mpr herr), hsame]
      · rw [payloadBytes, if_pos herr]
        exact measured_good (toNat_payload hwrite) hwrite
    · refine ⟨s', r, errorResp r.error g, hinv, fun stale => ?_, ?_⟩
      · rw [amPackProcessCmd_call hsel, hinv, ok_bind, hg, ok_bind, if_pos herr]
      · rw [payloadBytes, if_neg herr]
        exact measured_errorResp _ _

end Measure

section Handlers
variable {env : Env} {t t' : FuncTable} {f : MemFunction} {rxBuf : PackAll} {resp : PackResp}
  {c : PackCall} {tx : Option UInt32} {r : Served}

/-- A handler of the base function comes back good; the bytes it has written and the length it has
set. -/
inductive BaseWrites (env : Env) (t : FuncTable) :
    BaseHandler → PackCall → ℕ → UInt32 → Prop
  | identify : BaseWrites env t .amTargIdentifyResp .opOnly 8 16
  | capCount : BaseWrites env t .amTargGetCapCount .opOnly 4 12
  | cap (p1 : List UInt8) (l1 v : UInt64) (hv : readU64 p1 = .ok v) :
    BaseWrites env t .amTargGetCap (.fivo p1 l1)
      ((capsFor t.entries v.toUInt32.toNat).length * sizeofMemCap)
      (v.toUInt32 * sizeofMemCap.toUInt32)
  | create (p1 : List UInt8) (l1 : UInt64) (hp : sizeofMemCap ≤ p1.length)
    (hfree : t.freeSlot ≠ none) (hm : env.alloc .memFunction = true)
    (ho : env.alloc .pfnOps = true)
    (hgood : ∀ e, ¬ NotCreated env (AmMemCap.ofBytes (p1.take sizeofMemCap)).amType e) :
    BaseWrites env t .amTargCreateFunction (.fivo p1 l1) sizeofCrResp sizeofCrResp.toUInt32

theorem length_flatMap_bytes (l : List AmMemCap) :
    (l.flatMap AmMemCap.bytes).length = l.length * sizeofMemCap := by
  simp only [List.length_flatMap, AmMemCap.length_bytes, List.map_const', List.sum_replicate_nat]

theorem created_good_iff {f : MemFunction} {pCap : AmMemCap} :
    (createDevice env f pCap).1 = amRetGood ↔ ∀ e, ¬ NotCreated env pCap.amType e := by
  constructor
  · intro h e he
    obtain ⟨heq, hne⟩ := (notCreated_iff (f := f)).mp he
    exact hne (heq.symm.trans h)
  · intro h
    by_contra hne
    exact h _ (notCreated_iff.mpr ⟨rfl, hne⟩)

theorem BaseWrites.served {hd : BaseHandler} {n : ℕ} {own : UInt32}
    (hw : BaseWrites env t hd c n own) :
    ∃ t' r, invokeBase env hd c t = .ok (t', r) ∧ r.error = amRetGood ∧ r.out.length = n ∧
      r.txBytes = some own := by
  cases hw with
  | identify => exact ⟨t, _, rfl, rfl, rfl, rfl⟩
  | capCount => exact ⟨t, _, rfl, rfl, rfl, rfl⟩
  | cap p1 l1 v hv =>
    refine ⟨t, ⟨amRetGood, (capsFor t.entries v.toUInt32.toNat).flatMap AmMemCap.bytes,
      some (v.toUInt32 * sizeofMemCap.toUInt32)⟩, ?_, rfl, length_flatMap_bytes _, rfl⟩
    rw [invokeBase, amTargGetCap, hv]
    rfl
  | create p1 l1 hp hfree hm ho hgood =>
    obtain ⟨i, hi⟩ := Option.ne_none_iff_exists'.mp hfree
    have hcreated := (created_good_iff (f := .blank (slotHandle i))).mpr hgood
    refine ⟨t.set i (.device (createDevice env (.blank (slotHandle i))
      (.ofBytes (p1.take sizeofMemCap))).2), ⟨amRetGood, (createDevice env (.blank (slotHandle i))
      (.ofBytes (p1.take sizeofMemCap))).2.crResp.bytes, some sizeofCrResp.toUInt32⟩, ?_, rfl,
      length_crResp_bytes _, rfl⟩
    rw [invokeBase, amTargCreateFunction_of_le env t hp, hi]
    simp only [hm, ho, if_true, require_of_true, ok_bind, hcreated]

theorem baseWrites_of_good {hd : BaseHandler} (hi : invokeBase env hd c t = .ok (t', r))
    (hr : r.error = amRetGood) :
    ∃ own, BaseWrites env t hd c r.out.length own ∧ r.txBytes = some own := by
  have hc := invokeBase_convention hi
  cases hd with
  | amTargIdentifyResp =>
    cases c with
    | opOnly =>
      cases hi
      exact ⟨16, .identify, rfl⟩
    | _ => cases hc
  | amTargGetCapCount =>
    cases c with
    | opOnly =>
      cases hi
      exact ⟨12, .capCount, rfl⟩
    | _ => cases hc
  | amTargGetCap =>
    cases c with
    | fivo p1 l1 =>
      simp only [invokeBase, amTargGetCap, bind_eq_ok, pure_eq_ok, Except.ok.injEq] at hi
      rcases hi with ⟨_, ⟨v, hv, rfl⟩, hi⟩
      cases hi
      refine ⟨_, ?_, rfl⟩
      dsimp only
      rw [length_flatMap_bytes]
      exact .cap p1 l1 v hv
    | _ => cases hc
  | amTargCreateFunction =>
    cases c with
    | fivo p1 l1 =>
      by_cases hp : sizeofMemCap ≤ p1.length
      · rw [invokeBase, amTargCreateFunction_of_le env t hp] at hi
        cases hfree : t.freeSlot with
        | none =>
          rw [hfree] at hi
          cases hi
        | some i =>
          have hne : t.freeSlot ≠ none := hfree ▸ Option.some_ne_none i
          rw [hfree] at hi
          dsimp only at hi
          split at hi
          · rename_i hm
            rw [bind_eq_ok] at hi
            rcases hi with ⟨_, ho, hi⟩
            split at hi
            · rename_i hgood
              cases hi
              refine ⟨_, ?_, rfl⟩
              dsimp only
              rw [length_crResp_bytes]
              exact .create p1 l1 hp hne hm (require_eq_ok.mp ho) (created_good_iff.mp hgood)
            · rename_i hbad
              cases hi
              exact absurd hr hbad
          · cases hi
            cases hr
      · simp only [invokeBase, amTargCreateFunction, readBytes_of_lt (Nat.not_le.mp hp)] at hi
        cases hi
    | _ => cases hc

theorem baseTx_none {hd : BaseHandler}
    (hsel : amPackSelect (some baseHdr) rxBuf (echoWrap rxBuf resp) = .ok (.call hd c tx))
    (hc : c.convention = hd.convention) : tx = none := by
  apply packCall_own (packCall_of_select hsel)
  rw [hc]
  cases hd with
  | amTargIdentifyResp | amTargGetCapCount => exact .inl rfl
  | amTargGetCap | amTargCreateFunction => exact .inr rfl

/-- The base requests with a response of the right length: those that are refused, the two that
count their response as a whole, and a request for capabilities whose count, times the size of a
record and without the wrapper, makes the wrapper and the records there are. None that creates. -/
inductive BaseMeasured (env : Env) (t : FuncTable) : BaseHandler → PackCall → Prop
  | refused {h : BaseHandler} {c : PackCall} {e : AmReturn} (he : BaseRefuses env t h c e) :
    BaseMeasured env t h c
  | identify : BaseMeasured env t .amTargIdentifyResp .opOnly
  | capCount : BaseMeasured env t .amTargGetCapCount .opOnly
  | cap (p1 : List UInt8) (l1 v : UInt64) (hv : readU64 p1 = .ok v)
    (hroom : (capsFor t.entries v.toUInt32.toNat).length * sizeofMemCap ≤ bodySize)
    (hcount : v.toUInt32 * sizeofMemCap.toUInt32 =
      (sizeofWrapper + (capsFor t.entries v.toUInt32.toNat).length * sizeofMemCap).toUInt32) :
    BaseMeasured env t .amTargGetCap (.fivo p1 l1)

/-- A request to a device function is refused, or what the dispatcher counts for it (`8` for a write
or an action, `8` and `data_size` for a read), or else the handler, is the wrapper and what the
handler writes. Nothing counts for a release or a close. -/
def DeviceMeasured (env : Env) (f : MemFunction) (hd : DeviceHandler) (c : PackCall)
    (tx : Option UInt32) : Prop :=
  (∃ e, DeviceRefuses env f hd c e) ∨ ∃ n, DeviceWrites env f hd c n ∧ n ≤ bodySize ∧
    tx.or hd.ownLength = some (sizeofWrapper + n).toUInt32

theorem baseMeasured_iff {hd : BaseHandler}
    (hsel : amPackSelect (some baseHdr) rxBuf (echoWrap rxBuf resp) = .ok (.call hd c tx)) :
    LengthRight (invokeBase env) baseHdr rxBuf resp t hd c ↔ BaseMeasured env t hd c := by
  rw [lengthRight_iff hsel]
  constructor
  · rintro ⟨t', r, hi, hroom, hlen⟩
    by_cases hr : r.error = amRetGood
    · obtain ⟨own, hw, htx⟩ := baseWrites_of_good hi hr
      have hlen := hlen.resolve_left (not_not.mpr hr)
      rw [htx, baseTx_none hsel (invokeBase_convention hi), Option.none_or,
        Option.some.injEq] at hlen
      generalize r.out.length = n at hw hroom hlen
      cases hw with
      | identify => exact .identify
      | capCount => exact .capCount
      | cap p1 l1 v hv => exact .cap p1 l1 v hv hroom hlen
      | create => exact absurd hlen (by decide)
    · exact .refused (baseRefuses_of_error hi hr)
  · intro hm
    cases hm with
    | refused he =>
      obtain ⟨hi, hne⟩ := he.served
      exact ⟨t, _, hi, Nat.zero_le _, .inl hne⟩
    | identify =>
      rw [baseTx_none hsel rfl]
      exact ⟨t, _, rfl, by decide, .inr rfl⟩
    | capCount =>
      rw [baseTx_none hsel rfl]
      exact ⟨t, _, rfl, by decide, .inr rfl⟩
    | cap p1 l1 v hv hroom hcount =>
      have hw : BaseWrites env t .amTargGetCap (.fivo p1 l1) _ _ := .cap p1 l1 v hv
      obtain ⟨t', r, hi, -, hn, htx⟩ := hw.served
      refine ⟨t', r, hi, hn.le.trans hroom, .inr ?_⟩
      rw [baseTx_none hsel rfl, htx, hn, hcount]
      rfl

theorem deviceMeasured_iff {hd : DeviceHandler}
    (hsel : amPackSelect (some f.hdr) rxBuf (echoWrap rxBuf resp) = .ok (.call hd c tx)) :
    LengthRight (invokeDevice .user env) f.hdr rxBuf resp f hd c ↔ DeviceMeasured env f hd c tx := by
  rw [lengthRight_iff hsel]
  constructor
  · rintro ⟨g, r, hi, hroom, hlen⟩
    by_cases hr : r.error = amRetGood
    · obtain ⟨hw, htx⟩ := deviceWrites_of_good hi hr
      have hlen := hlen.resolve_left (not_not.mpr hr)
      rw [htx] at hlen
      exact .inr ⟨_, hw, hroom, hlen⟩
    · exact .inl ⟨_, deviceRefuses_of_error hi hr⟩
  · rintro (⟨e, he⟩ | ⟨n, hw, hroom, hlen⟩)
    · obtain ⟨hi, hne⟩ := he.served
      exact ⟨f, _, hi, Nat.zero_le _, .inl hne⟩
    · obtain ⟨g, r, hi, -, rfl, htx⟩ := hw.served
      rw [← htx] at hlen
      exact ⟨g, r, hi, hroom, .inr hlen⟩

end Handlers

section Requests

/-- A request that calls a handler of its function in the way in which it is stored. -/
def CalledAs {H : Type} (conv : H → Convention) (f : FuncHdr H) (rxBuf : PackAll) (resp : PackResp)
    (hd : H) (c : PackCall) (tx : Option UInt32) : Prop :=
  amPackSelect (some f) rxBuf (echoWrap rxBuf resp) = .ok (.call hd c tx) ∧ c.convention = conv hd

/-- If the request calls a handler in the way in which it is stored, its response has the right
length. -/
def ResponseMeasured (env : Env) (t : FuncTable) (rxBuf : PackAll) (resp : PackResp) : Prop :=
  match t.validate rxBuf.wrap.funcId with
  | .base => ∀ hd c tx, CalledAs BaseHandler.convention baseHdr rxBuf resp hd c tx →
      LengthRight (invokeBase env) baseHdr rxBuf resp t hd c
  | .device f => ∀ hd c tx, CalledAs DeviceHandler.convention f.hdr rxBuf resp hd c tx →
      LengthRight (invokeDevice .user env) f.hdr rxBuf resp f hd c
  | _ => True

def RequestMeasured (env : Env) (t : FuncTable) (rxBuf : PackAll) (resp : PackResp) : Prop :=
  match t.validate rxBuf.wrap.funcId with
  | .base => ∀ hd c tx, CalledAs BaseHandler.convention baseHdr rxBuf resp hd c tx →
      BaseMeasured env t hd c
  | .device f => ∀ hd c tx, CalledAs DeviceHandler.convention f.hdr rxBuf resp hd c tx →
      DeviceMeasured env f hd c tx
  | _ => True

/-- For every table, every request and every outcome of the allocations. -/
theorem responseMeasured_iff (env : Env) (t : FuncTable) (rxBuf : PackAll) (resp : PackResp) :
    ResponseMeasured env t rxBuf resp ↔ RequestMeasured env t rxBuf resp := by
  unfold ResponseMeasured RequestMeasured
  cases t.validate rxBuf.wrap.funcId with
  | null => exact Iff.rfl
  | freed => exact Iff.rfl
  | base => exact forall₄_congr fun hd c tx hcall => baseMeasured_iff hcall.1
  | device f => exact forall₄_congr fun hd c tx hcall => deviceMeasured_iff hcall.1

/-- The reply to a request for one capability counts 168 bytes, and 176 are there. -/
theorem not_responseMeasured : ¬ ∀ (env : Env) (t : FuncTable) (rxBuf : PackAll) (resp : PackResp),
    ResponseMeasured env t rxBuf resp := by
  intro h
  have hbase := h .zeroed (.start targetRegistry) oneCapSlot .zero
  have hvalid : (FuncTable.start targetRegistry).validate oneCapSlot.wrap.funcId = .base := rfl
  have hcall : CalledAs BaseHandler.convention baseHdr oneCapSlot .zero .amTargGetCap
      (.fivo (oneCapSlot.body.drop 8) oneCapSlot.l1) none := ⟨rfl, rfl⟩
  unfold ResponseMeasured at hbase
  rw [hvalid] at hbase
  have hmeasured := (baseMeasured_iff hcall.1).mp (hbase _ _ _ hcall)
  cases hmeasured with
  | refused he => cases he
  | cap p1 l1 v hv hroom hcount =>
    have hone : readU64 (oneCapSlot.body.drop 8) = .ok 1 := by decide +kernel
    cases hv.symm.trans hone
    revert hcount
    decide +kernel

end Requests

end AppMem.Target
