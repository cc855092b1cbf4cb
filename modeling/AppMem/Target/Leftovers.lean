import AppMem.Pack.Transport
import AppMem.Target.Refusal
import AppMem.Target.Threads

/-! # What earlier datagrams leave in a slot

A datagram shorter than its slot leaves the rest of the slot as an earlier datagram set it.
`am_targ_process_cmd` looks at the length only to see whether there is a wrapper, so a request
that is shorter than what its handler reads is completed from the datagram before.
-/
namespace AppMem.Target
open Library.Bytes Library.Checked Abi Memory Pack Device

section Needs

def BaseHandler.needs : BaseHandler → ℕ
  | .amTargIdentifyResp | .amTargGetCapCount => 0
  | .amTargGetCap => 8 + 8
  | .amTargCreateFunction => 8 + sizeofMemCap

/-- How many bytes behind the wrapper the request of a device operation has; the value of a
write stands behind the index. -/
def deviceNeeds (f : MemFunction) (op : UInt8) (h : DeviceHandler) : ℕ :=
  max (h.indexBytes f)
    (if op &&& 1 ≠ 0 ∨ h.dataBytes f = 0 then 0 else f.crResp.idxSize.toNat + h.dataBytes f)

def handlerOf {H : Type} (pfnOps : Fin amOpMaxOps → Option H) (op : UInt8) : Option H :=
  if h : op.toNat < amOpMaxOps then pfnOps ⟨_, h⟩ else none

def FuncTable.needs (t : FuncTable) (w : PackWrapper) : ℕ :=
  sizeofWrapper +
    match t.validate w.funcId with
    | .base => ((handlerOf baseHdr.pfnOps w.op).map BaseHandler.needs).getD 0
    | .device f => ((handlerOf f.pfnOps w.op).map (deviceNeeds f w.op)).getD 0
    | _ => 0

variable {env : Env} {t : FuncTable} {rxBuf rxBuf' : PackAll} {resp : PackResp} {stale : UInt32}

theorem handlerOf_of_lt {H : Type} {pfnOps : Fin amOpMaxOps → Option H} {op : UInt8}
    (hop : op.toNat < amOpMaxOps) : handlerOf pfnOps op = pfnOps ⟨_, hop⟩ := dif_pos hop

theorem processBase_congr (hw : rxBuf.wrap = rxBuf'.wrap)
    (hb : SamePrefix (((handlerOf baseHdr.pfnOps rxBuf.wrap.op).map BaseHandler.needs).getD 0)
      rxBuf.body rxBuf'.body) :
    amPackProcessCmd (invokeBase env) (some baseHdr) rxBuf resp stale t =
      amPackProcessCmd (invokeBase env) (some baseHdr) rxBuf' resp stale t := by
  apply amPackProcessCmd_congr hw
  intro hop h c c' hslot hpair
  rw [handlerOf_of_lt hop, hslot, Option.map_some, Option.getD_some] at hb
  cases hpair with
  | fivo =>
    cases h with
    | amTargGetCap =>
      have hd : SamePrefix 8 (rxBuf.body.drop 8) (rxBuf'.body.drop 8) := hb.drop
      simp only [invokeBase, amTargGetCap, hd.readU64 (Nat.le_refl 8)]
    | amTargCreateFunction =>
      have hd : SamePrefix sizeofMemCap (rxBuf.body.drop 8) (rxBuf'.body.drop 8) := hb.drop
      simp only [invokeBase, amTargCreateFunction, hd.readBytes (Nat.le_refl _)]
    | _ => rfl
  | opOnly => rfl
  | _ => cases h <;> rfl

theorem processDevice_congr {f : MemFunction} (hw : rxBuf.wrap = rxBuf'.wrap)
    (hb : SamePrefix
      (((handlerOf f.pfnOps rxBuf.wrap.op).map (deviceNeeds f rxBuf.wrap.op)).getD 0)
      rxBuf.body rxBuf'.body) :
    processDevice .user env f rxBuf resp stale = processDevice .user env f rxBuf' resp stale := by
  apply amPackProcessCmd_congr hw
  intro hop h c c' hslot hpair
  have hslot' : f.pfnOps ⟨_, hop⟩ = some h := hslot
  rw [handlerOf_of_lt hop, hslot', Option.map_some, Option.getD_some] at hb
  have hindex : SamePrefix (h.indexBytes f) rxBuf.body rxBuf'.body := hb.mono (Nat.le_max_left _ _)
  cases hpair with
  | alignRead ho => exact invokeDevice_align_congr hindex ⟨rfl, rfl⟩
  | alignWrite ho =>
    apply invokeDevice_align_congr hindex
    by_cases hd : h.dataBytes f = 0
    · rw [hd]
      refine ⟨?_, rfl⟩
      rw [List.length_drop, List.length_drop, rxBuf.length_body, rxBuf'.length_body]
    · have hneeds : f.crResp.idxSize.toNat + h.dataBytes f ≤ deviceNeeds f rxBuf.wrap.op h := by
        rw [deviceNeeds, if_neg (by simp only [ho, hd, or_self, not_false_eq_true])]
        exact Nat.le_max_right _ _
      exact (hb.mono hneeds).drop
  | opOnly => rfl
  | fivo => cases h <;> rfl
  | action => exact invokeDevice_action_congr hindex

/-- The target reads no more than a request needs. -/
theorem amTargProcess_congr (hw : rxBuf.wrap = rxBuf'.wrap)
    (hb : SamePrefix (t.needs rxBuf.wrap - sizeofWrapper) rxBuf.body rxBuf'.body) :
    amTargProcess env t rxBuf resp stale = amTargProcess env t rxBuf' resp stale := by
  rw [FuncTable.needs, Nat.add_sub_cancel_left] at hb
  cases hv : t.validate rxBuf.wrap.funcId with
  | null =>
    have hv' : t.validate rxBuf'.wrap.funcId = .null := hw ▸ hv
    have hs : amPackSelect (none : Option (FuncHdr BaseHandler)) rxBuf (echoWrap rxBuf resp) =
        .ok (.fail amRetInvalidFunc) := rfl
    have hs' : amPackSelect (none : Option (FuncHdr BaseHandler)) rxBuf' (echoWrap rxBuf' resp) =
        .ok (.fail amRetInvalidFunc) := rfl
    rw [amTargProcess_null hv, amTargProcess_null hv', amPackProcessCmd_fail hs,
      amPackProcessCmd_fail hs', echoWrap, echoWrap, hw]
  | base =>
    have hv' : t.validate rxBuf'.wrap.funcId = .base := hw ▸ hv
    rw [hv] at hb
    rw [amTargProcess_base hv, amTargProcess_base hv']
    exact processBase_congr hw hb
  | device f =>
    rw [hv] at hb
    obtain ⟨i, hid, hf⟩ := FuncTable.validate_eq_device hv
    rw [amTargProcess_device hid hf, amTargProcess_device (hw ▸ hid) hf, processDevice_congr hw hb]
  | freed =>
    rw [amTargProcess_freed hv, amTargProcess_freed (hw ▸ hv)]

end Needs

section Datagrams
variable {env : Env} {t : FuncTable} {d : Datagram} {resp : PackResp} {stale : UInt32}

def Datagram.wrap (d : Datagram) : PackWrapper := .ofBytes d.bytes

theorem ofBytes_congr {l l' : List UInt8} (hl : 8 ≤ l.length) (h : l.take 8 = l'.take 8) :
    PackWrapper.ofBytes l = PackWrapper.ofBytes l' := by
  have hbytes : (PackWrapper.ofBytes l).bytes = l'.take 8 := (PackWrapper.bytes_ofBytes hl).trans h
  have hback := PackWrapper.ofBytes_bytes_append (PackWrapper.ofBytes l) (l'.drop 8)
  rw [hbytes, List.take_append_drop] at hback
  exact hback.symm

theorem receive_wrap (slot : Frame) (hlo : sizeofWrapper ≤ d.bytes.length) :
    (slot.receive d.bytes).wrap = d.wrap := by
  have hlen : 8 ≤ (d.bytes.take maxBasicPackUnionSize).length := by
    rw [List.length_take]
    exact Nat.le_min.mpr ⟨by decide, hlo⟩
  apply ofBytes_congr
  · rw [splice_zero, List.length_append]
    exact Nat.le_add_right_of_le hlen
  · rw [take_splice_front hlen, List.take_take]
    rfl

theorem receive_body (slot : Frame) (hlo : sizeofWrapper ≤ d.bytes.length)
    (hhi : d.bytes.length ≤ maxBasicPackUnionSize) :
    (slot.receive d.bytes).body = splice slot.body 0 (d.bytes.drop sizeofWrapper) := by
  have hwrap : slot.wrap.bytes.drop d.bytes.length = [] := by
    apply List.drop_of_length_le
    rw [PackWrapper.length_bytes]
    exact hlo
  change (splice slot.raw 0 (d.bytes.take maxBasicPackUnionSize)).drop sizeofWrapper = _
  rw [List.take_of_length_le hhi, splice_zero, splice_zero, List.drop_append_of_le_length hlo,
    List.length_drop, Frame.raw, List.drop_append, hwrap, PackWrapper.length_bytes,
    List.nil_append]
  rfl

/-- Two slots that received one datagram agree as far as it reaches. -/
theorem samePrefix_receive (slot slot' : Frame) (hlo : sizeofWrapper ≤ d.bytes.length)
    (hhi : d.bytes.length ≤ maxBasicPackUnionSize) :
    SamePrefix (d.bytes.length - sizeofWrapper) (slot.receive d.bytes).body
      (slot'.receive d.bytes).body := by
  have hself := Frame.datagram_receive slot' hhi
  have hagree := Frame.agreeUpTo_receive slot (slot'.receive d.bytes) hlo hhi
  rw [hself] at hagree
  refine ⟨?_, hagree.2⟩
  rw [Frame.length_body, Frame.length_body]

def processReceived (env : Env) (t : FuncTable) (c : RecCmd) (d : Datagram) (resp : PackResp)
    (stale : UInt32) : Exec (FuncTable × Processed) :=
  amTargProcessCmd env t (c.receive d) resp stale

theorem processReceived_eq (c : RecCmd) (hlo : sizeofWrapper ≤ d.bytes.length)
    (hhi : d.bytes.length ≤ maxBasicPackUnionSize) :
    processReceived env t c d resp stale =
      amTargProcess env t (c.rxBuf.receive d.bytes) resp stale := by
  have hnat := Datagram.toNat_length hhi
  have hlen : sizeofWrapper ≤ (c.receive d).recvLen.toNat := by
    rw [RecCmd.receive, hnat]
    exact hlo
  rw [processReceived, amTargProcessCmd, require_of_true _ hlen, ok_bind]
  rfl

/-- The capabilities are asked for with the wrapper alone; how many stands in the slot. -/
def getCapDatagram : Datagram where
  bytes := (⟨amPackFuncIdBaseappmem, amPackTypeFivo, amOpGetCap, 0, 8⟩ : PackWrapper).bytes
  sender := 0

def oneCapSlot : Frame where
  wrap := ⟨amPackFuncIdBaseappmem, amPackTypeFivo, amOpGetCap, 0, 24⟩
  body := leBytes 8 8 ++ leBytes 8 1 ++ List.replicate 488 0
  length_body := by
    rw [List.length_append, List.length_append, length_leBytes, length_leBytes,
      List.length_replicate]
    rfl

end Datagrams

end AppMem.Target
