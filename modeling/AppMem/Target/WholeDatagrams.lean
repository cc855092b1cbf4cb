import AppMem.Device.Records
import AppMem.Pack.Dispatch
import AppMem.Target.Answers

/-! # Datagrams whose effect does not depend on the slot

A datagram that has all the bytes its operation reads is answered alike in every slot, if it is
answered. One that is cut short leaves open what stands behind it; it is refused in every slot if
its wrapper, the state of its function and the bytes that did arrive are enough to refuse it.
-/
namespace AppMem.Target
open Library.Bytes Library.Checked Abi Memory Hash Pack Device

section Reach
variable {d : Datagram} {off : ℕ} {field : List UInt8}

/-- As far as the datagram reaches, `field` stands `off` bytes behind the wrapper. -/
def Datagram.Begins (d : Datagram) (off : ℕ) (field : List UInt8) : Prop :=
  window (d.bytes.drop sizeofWrapper) off field.length <+: field

theorem length_payload (hhi : d.bytes.length ≤ maxBasicPackUnionSize) (slot : Frame) :
    (d.bytes.drop sizeofWrapper).length ≤ slot.body.length := by
  rw [List.length_drop, slot.length_body]
  exact Nat.sub_le_sub_right hhi _

theorem begins_receive (hlo : sizeofWrapper ≤ d.bytes.length)
    (hhi : d.bytes.length ≤ maxBasicPackUnionSize) (slot : Frame) {len : ℕ}
    (hlen : off + len ≤ bodySize) : d.Begins off (window (slot.receive d.bytes).body off len) := by
  have hbody := (slot.receive d.bytes).length_body
  rw [Datagram.Begins, length_window (by rwa [hbody]), receive_body slot hlo hhi]
  exact window_isPrefix_splice_front (length_payload hhi slot)

/-- Any bytes the datagram leaves open can stand in a slot. -/
theorem exists_slot (hlo : sizeofWrapper ≤ d.bytes.length)
    (hhi : d.bytes.length ≤ maxBasicPackUnionSize) (h : d.Begins off field)
    (hlen : off + field.length ≤ bodySize) :
    ∃ slot : Frame, window (slot.receive d.bytes).body off field.length = field := by
  have hzero : off + field.length ≤ Frame.zero.body.length := by rwa [Frame.zero.length_body]
  let slot : Frame :=
    { Frame.zero with
      body := splice Frame.zero.body off field
      length_body := by rw [length_splice hzero, Frame.zero.length_body] }
  refine ⟨slot, ?_⟩
  rw [receive_body slot hlo hhi]
  exact window_splice_front_splice (length_payload hhi Frame.zero) hzero h

end Reach

section Selection
variable {H : Type} {f : FuncHdr H} {rxBuf : PackAll} {resp : PackResp} {hd : H} {c : PackCall}
  {tx : Option UInt32} {e : AmReturn} {R : H → PackCall → AmReturn → Prop}

/-- The dispatcher finds no handler, or does not know the pack type. -/
inductive NoCall (f : FuncHdr H) (w : PackWrapper) : AmReturn → Prop
  | opcode (hop : w.op.toNat < amOpMaxOps) (h : f.pfnOps ⟨_, hop⟩ = none) :
    NoCall f w amRetInvalidOpcode
  | packType (hd : H) (h : handlerOf f.pfnOps w.op = some hd)
    (hty : packConvention w.packType = none) : NoCall f w amRetInvalidPackOp

/-- The wrapper selects a handler and the way it is called. -/
structure Calls (f : FuncHdr H) (w : PackWrapper) (hd : H) (cv : Convention) : Prop where
  handler : handlerOf f.pfnOps w.op = some hd
  convention : packConvention w.packType = some cv

theorem handlerOf_eq_some {pfnOps : Fin amOpMaxOps → Option H} {op : UInt8} :
    handlerOf pfnOps op = some hd ↔ ∃ hop : op.toNat < amOpMaxOps, pfnOps ⟨_, hop⟩ = some hd := by
  unfold handlerOf
  split
  · rename_i hop
    exact ⟨fun h => ⟨hop, h⟩, fun ⟨_, h⟩ => h⟩
  · rename_i hop
    refine iff_of_false ?_ fun ⟨h, _⟩ => hop h
    intro h
    cases h

theorem amPackSelect_fail_iff :
    amPackSelect (some f) rxBuf resp = .ok (.fail e) ↔ NoCall f rxBuf.wrap e := by
  have hconv := f.packCall_convention rxBuf resp
  constructor
  · intro hsel
    by_cases hop : rxBuf.wrap.op.toNat < amOpMaxOps
    · rcases amPackSelect_cases f rxBuf resp hop with
        ⟨hslot, hs⟩ | ⟨h, hslot, hcall, hs⟩ | ⟨_, _, _, -, -, hs⟩
      · cases hsel.symm.trans hs
        exact .opcode hop hslot
      · cases hsel.symm.trans hs
        rw [hcall, Option.map_none] at hconv
        exact .packType h (handlerOf_eq_some.mpr ⟨hop, hslot⟩) hconv.symm
      · cases hsel.symm.trans hs
    · cases hsel.symm.trans (amPackSelect_out_of_range f rxBuf resp hop)
  · intro hn
    cases hn with
    | opcode hop h =>
      rw [amPackSelect, f.slot_of_lt hop, h]
      rfl
    | packType hd h hty =>
      obtain ⟨hop, hslot⟩ := handlerOf_eq_some.mp h
      rw [hty, Option.map_eq_none_iff] at hconv
      simp only [amPackSelect, f.slot_of_lt hop, hslot, ok_bind, hconv]
      rfl

theorem amPackSelect_call_iff :
    amPackSelect (some f) rxBuf resp = .ok (.call hd c tx) ↔
      handlerOf f.pfnOps rxBuf.wrap.op = some hd ∧ f.packCall rxBuf resp = some (c, tx) := by
  constructor
  · intro hsel
    by_cases hop : rxBuf.wrap.op.toNat < amOpMaxOps
    · rcases amPackSelect_cases f rxBuf resp hop with
        ⟨-, hs⟩ | ⟨_, -, -, hs⟩ | ⟨h, _, _, hslot, hcall, hs⟩
      · cases hsel.symm.trans hs
      · cases hsel.symm.trans hs
      · cases hsel.symm.trans hs
        exact ⟨handlerOf_eq_some.mpr ⟨hop, hslot⟩, hcall⟩
    · cases hsel.symm.trans (amPackSelect_out_of_range f rxBuf resp hop)
  · rintro ⟨h, hcall⟩
    obtain ⟨hop, hslot⟩ := handlerOf_eq_some.mp h
    simp only [amPackSelect, f.slot_of_lt hop, hslot, ok_bind, hcall]
    rfl

theorem packConvention_of_packCall (h : f.packCall rxBuf resp = some (c, tx)) :
    packConvention rxBuf.wrap.packType = some c.convention := by
  have hconv := f.packCall_convention rxBuf resp
  rw [h] at hconv
  exact hconv.symm

theorem packCall_args (h : f.packCall rxBuf resp = some (c, tx)) :
    match c with
    | .align p1 _ => p1 = rxBuf.body
    | .opOnly => True
    | .fivo p1 l1 => p1 = rxBuf.body.drop 8 ∧ l1 = rxBuf.l1
    | .action p1 l1 => p1 = rxBuf.body ∧ l1 = rxBuf.actionLen
    | .config => False := by
  unfold FuncHdr.packCall at h
  split at h
  · split at h
    · cases h
      rfl
    · cases h
      rfl
  · split at h
    · cases h
      trivial
    · split at h
      · cases h
        exact ⟨rfl, rfl⟩
      · split at h
        · cases h
          exact ⟨rfl, rfl⟩
        · cases h

theorem exists_packCall (f : FuncHdr H) (resp : PackResp) {cv : Convention}
    (h : packConvention rxBuf.wrap.packType = some cv) :
    ∃ c tx, f.packCall rxBuf resp = some (c, tx) ∧ c.convention = cv := by
  have hconv := f.packCall_convention rxBuf resp
  rw [h, Option.map_eq_some_iff] at hconv
  rcases hconv with ⟨⟨c, tx⟩, hcall, hc⟩
  exact ⟨c, tx, hcall, hc⟩

theorem packRefuses_call {cv : Convention} (hc : Calls f rxBuf.wrap hd cv)
    (h : PackRefuses R (some f) rxBuf resp e) :
    ∃ c tx, f.packCall rxBuf resp = some (c, tx) ∧ R hd c e := by
  cases h with
  | selected h =>
    cases amPackSelect_fail_iff.mp h with
    | opcode hop hslot =>
      obtain ⟨_, hslot'⟩ := handlerOf_eq_some.mp hc.handler
      cases hslot.symm.trans hslot'
    | packType _ _ hty => cases hty.symm.trans hc.convention
  | handled hd' c tx h hr =>
    obtain ⟨hh, hcall⟩ := amPackSelect_call_iff.mp h
    cases hc.handler.symm.trans hh
    exact ⟨c, tx, hcall, hr⟩

/-- Either the dispatcher refuses, or a handler that the wrapper settles does. -/
theorem packRefuses_iff : PackRefuses R (some f) rxBuf resp e ↔
    NoCall f rxBuf.wrap e ∨ ∃ hd c tx, Calls f rxBuf.wrap hd c.convention ∧
      f.packCall rxBuf resp = some (c, tx) ∧ R hd c e := by
  constructor
  · intro h
    cases h with
    | selected h => exact .inl (amPackSelect_fail_iff.mp h)
    | handled hd c tx h hr =>
      obtain ⟨hh, hcall⟩ := amPackSelect_call_iff.mp h
      exact .inr ⟨hd, c, tx, ⟨hh, packConvention_of_packCall hcall⟩, hcall, hr⟩
  · rintro (h | ⟨hd, c, tx, hc, hcall, hr⟩)
    · exact .selected (amPackSelect_fail_iff.mpr h)
    · exact .handled hd c tx (amPackSelect_call_iff.mpr ⟨hc.handler, hcall⟩) hr

theorem packRefuses_of_calls {cv : Convention} (hc : Calls f rxBuf.wrap hd cv)
    (h : ∀ c tx, f.packCall rxBuf resp = some (c, tx) → c.convention = cv → R hd c e) :
    PackRefuses R (some f) rxBuf resp e := by
  obtain ⟨c, tx, hcall, hcv⟩ := exists_packCall f resp hc.convention
  exact packRefuses_iff.mpr (.inr ⟨hd, c, tx, hcv ▸ hc, hcall, h c tx hcall hcv⟩)

end Selection

section Refused
variable {env : Env} {t : FuncTable} {f : MemFunction} {d : Datagram} {resp : PackResp}
  {e : AmReturn}

def KeyUnknown (pAA : AmlibAssca) (d : Datagram) : Prop :=
  pAA.table = none ∨ ∃ t, pAA.table = some t ∧ pAA.keyLen.toNat ≤ bodySize ∧
    ∀ key, key.length = pAA.keyLen.toNat → d.Begins 0 key → hashFind (some t) key = .ok none

/-- Requests that create a function and are refused whatever the rest of the capability is. -/
inductive BaseRefusedAnyway (env : Env) (t : FuncTable) (d : Datagram) : AmReturn → Prop
  | noMemory (hc : Calls baseHdr d.wrap .amTargCreateFunction .fivo) (hfree : t.freeSlot ≠ none)
    (hm : env.alloc .memFunction = false) : BaseRefusedAnyway env t d amRetAllocErr
  | notCreated (e : AmReturn) (hc : Calls baseHdr d.wrap .amTargCreateFunction .fivo)
    (hfree : t.freeSlot ≠ none) (hm : env.alloc .memFunction = true)
    (ho : env.alloc .pfnOps = true)
    (he : ∀ amType, d.Begins 8 (u32Bytes amType) → NotCreated env amType e) :
    BaseRefusedAnyway env t d e

/-- Requests to a device that are refused whatever the rest of the key or of the parameters is. -/
inductive DeviceRefusedAnyway (env : Env) (f : MemFunction) (d : Datagram) : AmReturn → Prop
  | noTable (hd : DeviceHandler) (hh : hd = .amAsscaRead32Align ∨ hd = .amAsscaWrite32Align)
    (hc : Calls f.hdr d.wrap hd .align) (hf : f.pVdF = none) :
    DeviceRefusedAnyway env f d amRetInvalidHdl
  | keyMissing (fd : AsscaData) (hc : Calls f.hdr d.wrap .amAsscaRead32Align .align)
    (hf : f.pVdF = some (.assca fd)) (hk : KeyUnknown fd.data d) :
    DeviceRefusedAnyway env f d amRetKeyNotFound
  | noArray (hc : Calls f.hdr d.wrap .amStataSort .action) (hf : f.pVdF = none) :
    DeviceRefusedAnyway env f d amRetParamErr
  | sort (fd : StataData) (e : AmReturn) (hc : Calls f.hdr d.wrap .amStataSort .action)
    (hf : f.pVdF = some (.stata fd))
    (hs : ∀ p1, p1.length = sizeofSortParam → d.Begins 0 p1 →
      SortRefuses env fd p1 (d.wrap.size.toUInt64 - 8) e) : DeviceRefusedAnyway env f d e

/-- The wrapper, the function and the bytes received are enough to refuse the request with `e`. -/
def RefusedAnyway (env : Env) (t : FuncTable) (d : Datagram) (e : AmReturn) : Prop :=
  match t.validate d.wrap.funcId with
  | .null => e = amRetInvalidFunc
  | .base => NoCall baseHdr d.wrap e ∨ BaseRefusedAnyway env t d e
  | .device f => NoCall f.hdr d.wrap e ∨ DeviceRefusedAnyway env f d e
  | .freed => False

theorem amType_ofBytes (p1 : List UInt8) :
    (AmMemCap.ofBytes (p1.take sizeofMemCap)).amType = u32OfBytes (window p1 0 4) := by
  simp only [AmMemCap.ofBytes, u32OfBytes, window_zero, List.take_take]
  rfl

section Fields
variable {slot : Frame} (hlo : sizeofWrapper ≤ d.bytes.length)
  (hhi : d.bytes.length ≤ maxBasicPackUnionSize)
include hlo hhi

theorem keyMissing_of_unknown {pAA : AmlibAssca} (h : KeyUnknown pAA d) :
    KeyMissing pAA (slot.receive d.bytes).body := by
  rcases h with h | ⟨t, ht, hlen, hall⟩
  · exact .inl h
  · have hbody : pAA.keyLen.toNat ≤ (slot.receive d.bytes).body.length := by rwa [Frame.length_body]
    have hkey : d.Begins 0 (window (slot.receive d.bytes).body 0 pAA.keyLen.toNat) :=
      begins_receive hlo hhi slot (by rwa [Nat.zero_add])
    exact .inr ⟨t, _, ht, readBytes_of_le hbody,
      hall _ (List.length_take_of_le hbody) hkey⟩

theorem keyUnknown_of_missing {pAA : AmlibAssca}
    (h : ∀ slot : Frame, KeyMissing pAA (slot.receive d.bytes).body) : KeyUnknown pAA d := by
  rcases h Frame.zero with ht | ⟨t, key, ht, hkey, -⟩
  · exact .inl ht
  · have hlen : pAA.keyLen.toNat ≤ bodySize := by
      by_contra hlt
      rw [readBytes_of_lt (by rw [Frame.length_body]; exact Nat.not_le.mp hlt)] at hkey
      cases hkey
    refine .inr ⟨t, ht, hlen, fun key hk hbegins => ?_⟩
    obtain ⟨slot, hslot⟩ := exists_slot hlo hhi hbegins (by rw [Nat.zero_add, hk]; exact hlen)
    have hbody : pAA.keyLen.toNat ≤ (slot.receive d.bytes).body.length := by rwa [Frame.length_body]
    rcases h slot with ht' | ⟨t', key', ht', hkey', hfind⟩
    · cases ht.symm.trans ht'
    · cases ht.symm.trans ht'
      rw [readBytes_of_le hbody] at hkey'
      rw [window_zero, hk] at hslot
      cases hkey'
      rwa [hslot] at hfind

theorem notCreated_receive
    (h : ∀ slot : Frame, NotCreated env
      (AmMemCap.ofBytes (((slot.receive d.bytes).body.drop 8).take sizeofMemCap)).amType e)
    (amType : UInt32) (hbegins : d.Begins 8 (u32Bytes amType)) : NotCreated env amType e := by
  obtain ⟨slot, hslot⟩ := exists_slot hlo hhi hbegins (by rw [length_u32Bytes]; decide)
  have hthere := h slot
  have hfield : window ((slot.receive d.bytes).body.drop 8) 0 4 = u32Bytes amType := by
    rw [← hslot, length_u32Bytes]
    rfl
  rwa [amType_ofBytes, hfield, u32OfBytes_u32Bytes] at hthere

theorem begins_amType : d.Begins 8 (u32Bytes
    (AmMemCap.ofBytes (((slot.receive d.bytes).body.drop 8).take sizeofMemCap)).amType) := by
  have hbegins : d.Begins 8 (window (slot.receive d.bytes).body 8 4) :=
    begins_receive hlo hhi slot (by decide)
  have hfield : window ((slot.receive d.bytes).body.drop 8) 0 4 =
      window (slot.receive d.bytes).body 8 4 := rfl
  rw [amType_ofBytes, hfield, u32Bytes_u32OfBytes (length_window (by rw [Frame.length_body]; decide))]
  exact hbegins

end Fields

end Refused

section Slots
variable {env : Env} {t : FuncTable} {f : MemFunction} {d : Datagram} {resp : PackResp}
  {stale : UInt32} {e : AmReturn}

/-- What the dispatcher refuses in every slot: by the wrapper alone, or with a handler that the
wrapper settles. -/
theorem packRefuses_slots {H : Type} {g : FuncHdr H} {R : H → PackCall → AmReturn → Prop}
    (hlo : sizeofWrapper ≤ d.bytes.length)
    (h : ∀ slot : Frame, PackRefuses R (some g) (slot.receive d.bytes)
      (echoWrap (slot.receive d.bytes) resp) e) :
    NoCall g d.wrap e ∨ ∃ hd cv, Calls g d.wrap hd cv ∧ ∀ slot : Frame, ∃ c tx,
      g.packCall (slot.receive d.bytes) (echoWrap (slot.receive d.bytes) resp) = some (c, tx) ∧
        c.convention = cv ∧ R hd c e := by
  rcases packRefuses_iff.mp (h Frame.zero) with hn | ⟨hd, c, tx, hc, -, -⟩
  · rw [receive_wrap _ hlo] at hn
    exact .inl hn
  · rw [receive_wrap _ hlo] at hc
    refine .inr ⟨hd, c.convention, hc, fun slot => ?_⟩
    have hw := receive_wrap slot hlo
    obtain ⟨c', tx', hcall, hr⟩ := packRefuses_call (hw ▸ hc) (h slot)
    have hcv := packConvention_of_packCall hcall
    rw [hw] at hcv
    exact ⟨c', tx', hcall, Option.some.inj (hcv.symm.trans hc.convention), hr⟩

theorem baseRefusedAnyway_iff (resp : PackResp) (hlo : sizeofWrapper ≤ d.bytes.length)
    (hhi : d.bytes.length ≤ maxBasicPackUnionSize) :
    (∀ slot : Frame, PackRefuses (BaseRefuses env t) (some baseHdr) (slot.receive d.bytes)
      (echoWrap (slot.receive d.bytes) resp) e) ↔
      NoCall baseHdr d.wrap e ∨ BaseRefusedAnyway env t d e := by
  constructor
  · intro h
    rcases packRefuses_slots hlo h with hn | ⟨hd, cv, hc, hall⟩
    · exact .inl hn
    · obtain ⟨c, tx, -, hcv, hr⟩ := hall Frame.zero
      cases hr with
      | noMemory p1 l1 hp hfree hm =>
        cases hcv
        exact .inr (.noMemory hc hfree hm)
      | notCreated p1 l1 _ hp hfree hm ho _ =>
        cases hcv
        refine .inr (.notCreated e hc hfree hm ho (notCreated_receive hlo hhi fun slot => ?_))
        obtain ⟨c', tx', hcall, -, hr'⟩ := hall slot
        cases hr' with
        | noMemory _ _ _ _ hm' => cases hm.symm.trans hm'
        | notCreated p1' l1' _ _ _ _ _ he =>
          obtain ⟨rfl, -⟩ := packCall_args hcall
          exact he
  · rintro (hn | hr) slot
    · exact packRefuses_iff.mpr (.inl (by rwa [receive_wrap slot hlo]))
    · have hw := receive_wrap slot hlo
      have hlen : sizeofMemCap ≤ ((slot.receive d.bytes).body.drop 8).length := by
        rw [List.length_drop, Frame.length_body]
        decide
      cases hr with
      | noMemory hc hfree hm =>
        refine packRefuses_of_calls (hw.symm ▸ hc) fun c tx hcall hcv => ?_
        cases c with
        | fivo p1 l1 =>
          obtain ⟨rfl, -⟩ := packCall_args hcall
          exact .noMemory _ _ hlen hfree hm
        | _ => cases hcv
      | notCreated _ hc hfree hm ho he =>
        refine packRefuses_of_calls (hw.symm ▸ hc) fun c tx hcall hcv => ?_
        cases c with
        | fivo p1 l1 =>
          obtain ⟨rfl, -⟩ := packCall_args hcall
          exact .notCreated _ _ e hlen hfree hm ho (he _ (begins_amType hlo hhi))
        | _ => cases hcv

theorem deviceRefusedAnyway_iff (resp : PackResp) (hlo : sizeofWrapper ≤ d.bytes.length)
    (hhi : d.bytes.length ≤ maxBasicPackUnionSize) :
    (∀ slot : Frame, PackRefuses (DeviceRefuses env f) (some f.hdr) (slot.receive d.bytes)
      (echoWrap (slot.receive d.bytes) resp) e) ↔
      NoCall f.hdr d.wrap e ∨ DeviceRefusedAnyway env f d e := by
  constructor
  · intro h
    rcases packRefuses_slots hlo h with hn | ⟨hd, cv, hc, hall⟩
    · exact .inl hn
    · obtain ⟨c, tx, -, hcv, hr⟩ := hall Frame.zero
      cases hr with
      | noTable _ p1 p2 hh hf =>
        cases hcv
        exact .inr (.noTable hd hh hc hf)
      | keyMissing fd p1 p2 hf hk =>
        cases hcv
        refine .inr (.keyMissing fd hc hf (keyUnknown_of_missing hlo hhi fun slot => ?_))
        obtain ⟨c', tx', hcall, -, hr'⟩ := hall slot
        cases hr' with
        | keyMissing fd' p1' p2' hf' hk' =>
          cases hf.symm.trans hf'
          cases packCall_args hcall
          exact hk'
      | noArray p1 l1 hf =>
        cases hcv
        exact .inr (.noArray hc hf)
      | sort fd p1 l1 _ hf hs =>
        cases hcv
        refine .inr (.sort fd e hc hf fun p1' hp hbegins => ?_)
        obtain ⟨slot, hslot⟩ := exists_slot hlo hhi hbegins (by rw [hp]; decide)
        obtain ⟨c', tx', hcall, -, hr'⟩ := hall slot
        cases hr' with
        | noTable _ _ _ hh _ => rcases hh with h | h <;> cases h
        | noArray _ _ hf' => cases hf.symm.trans hf'
        | sort fd' p1'' l1' _ hf' hs' =>
          cases hf.symm.trans hf'
          obtain ⟨rfl, hl⟩ := packCall_args hcall
          rw [hl, Frame.actionLen, receive_wrap slot hlo] at hs'
          rw [window_zero, hp] at hslot
          refine hs'.congr hp.ge ?_
          rw [hslot, ← hp, List.take_length]
  · rintro (hn | hr) slot
    · exact packRefuses_iff.mpr (.inl (by rwa [receive_wrap slot hlo]))
    · have hw := receive_wrap slot hlo
      cases hr with
      | noTable hd hh hc hf =>
        refine packRefuses_of_calls (hw.symm ▸ hc) fun c tx _ hcv => ?_
        cases c with
        | align p1 p2 => exact .noTable hd p1 p2 hh hf
        | _ => cases hcv
      | keyMissing fd hc hf hk =>
        refine packRefuses_of_calls (hw.symm ▸ hc) fun c tx hcall hcv => ?_
        cases c with
        | align p1 p2 =>
          cases packCall_args hcall
          exact .keyMissing fd _ p2 hf (keyMissing_of_unknown hlo hhi hk)
        | _ => cases hcv
      | noArray hc hf =>
        refine packRefuses_of_calls (hw.symm ▸ hc) fun c tx _ hcv => ?_
        cases c with
        | action p1 l1 => exact .noArray p1 l1 hf
        | _ => cases hcv
      | sort fd _ hc hf hs =>
        refine packRefuses_of_calls (hw.symm ▸ hc) fun c tx hcall hcv => ?_
        cases c with
        | action p1 l1 =>
          obtain ⟨rfl, rfl⟩ := packCall_args hcall
          have hlen : sizeofSortParam ≤ (slot.receive d.bytes).body.length := by
            rw [Frame.length_body]
            decide
          have hbegins : d.Begins 0 (window (slot.receive d.bytes).body 0 sizeofSortParam) :=
            begins_receive hlo hhi slot (by decide)
          have hthere := hs _ (List.length_take_of_le hlen) hbegins
          rw [Frame.actionLen, hw]
          exact .sort fd _ _ e hf (hthere.congr hlen (by rw [List.take_take, Nat.min_self]))
        | _ => cases hcv

/-- The request is refused in every slot with one code exactly when that code is settled without
the bytes that did not arrive. -/
theorem refusedAnyway_iff (resp : PackResp) (hlo : sizeofWrapper ≤ d.bytes.length)
    (hhi : d.bytes.length ≤ maxBasicPackUnionSize) :
    (∀ slot : Frame, t.Refuses env (slot.receive d.bytes)
      (echoWrap (slot.receive d.bytes) resp) e) ↔ RefusedAnyway env t d e := by
  have hw : ∀ slot : Frame, (slot.receive d.bytes).wrap = d.wrap := fun slot =>
    receive_wrap slot hlo
  unfold RefusedAnyway
  cases hv : t.validate d.wrap.funcId with
  | null =>
    constructor
    · intro h
      cases h Frame.zero with
      | unknown _ hr =>
        cases hr with
        | selected hs =>
          cases hs
          rfl
        | handled _ _ _ hs _ => cases hs
      | base hv' _ => cases hv.symm.trans ((hw Frame.zero) ▸ hv')
      | device _ hv' _ => cases hv.symm.trans ((hw Frame.zero) ▸ hv')
    · rintro rfl slot
      exact .unknown ((hw slot).symm ▸ hv) (.selected rfl)
  | base =>
    dsimp only
    rw [← baseRefusedAnyway_iff resp hlo hhi]
    constructor
    · intro h slot
      cases h slot with
      | base _ hr => exact hr
      | unknown hv' _ => cases hv.symm.trans ((hw slot) ▸ hv')
      | device _ hv' _ => cases hv.symm.trans ((hw slot) ▸ hv')
    · intro h slot
      exact .base ((hw slot).symm ▸ hv) (h slot)
  | device f =>
    dsimp only
    rw [← deviceRefusedAnyway_iff resp hlo hhi]
    constructor
    · intro h slot
      cases h slot with
      | device f' hv' hr =>
        cases hv.symm.trans ((hw slot) ▸ hv')
        exact hr
      | unknown hv' _ => cases hv.symm.trans ((hw slot) ▸ hv')
      | base hv' _ => cases hv.symm.trans ((hw slot) ▸ hv')
    · intro h slot
      exact .device f ((hw slot).symm ▸ hv) (h slot)
  | freed =>
    refine iff_of_false (fun h => ?_) id
    cases h Frame.zero with
    | unknown hv' _ => cases hv.symm.trans ((hw Frame.zero) ▸ hv')
    | base hv' _ => cases hv.symm.trans ((hw Frame.zero) ▸ hv')
    | device _ hv' _ => cases hv.symm.trans ((hw Frame.zero) ▸ hv')

end Slots

section Effect
variable {env : Env} {t : FuncTable} {d : Datagram} {resp : PackResp} {stale : UInt32}

/-- The target comes back with one response and one state of its functions, whatever slot the
datagram is in, and a datagram that is too short for its operation or does not have the size it
gives is refused. -/
def PrefixOnly (env : Env) (t : FuncTable) (d : Datagram) (resp : PackResp) (stale : UInt32) :
    Prop :=
  ∃ r, (∀ c, processReceived env t c d resp stale = .ok r) ∧
    (d.bytes.length < t.needs d.wrap ∨ d.wrap.size.toNat ≠ d.bytes.length →
      r.1 = t ∧ r.2.error ≠ amRetGood)

/-- The datagram has all bytes its operation reads and the size it gives, and is answered. -/
structure WholeAnswered (env : Env) (t : FuncTable) (d : Datagram) (resp : PackResp) : Prop where
  needs : t.needs d.wrap ≤ d.bytes.length
  size : d.wrap.size.toNat = d.bytes.length
  answered : Answered env t (Frame.zero.receive d.bytes) resp

def capCountDatagram : Datagram where
  bytes := (⟨amPackFuncIdBaseappmem, amPackTypeOpcodeOnly, amOpGetCapCount, 0, 8⟩ : PackWrapper).bytes
  sender := 0

end Effect

end AppMem.Target
