import AppMem.Pack.Client

/-! # A status survives the packet path

Whatever a handler does, the response repeats the identification of the request, says
whether it is an error, and carries the code that both clients read back.
-/
namespace AppMem.Pack
open Library.Bytes Library.Checked Abi Memory

section Flags

theorem resp_and_or_resp (t : UInt8) :
    amFuncPackTypeFlagResp &&& (t ||| amFuncPackTypeFlagResp) = amFuncPackTypeFlagResp := by
  revert t
  apply forall_byte
  decide +kernel

theorem resp_and_or_err (t : UInt8) :
    amFuncPackTypeFlagResp &&& (t ||| amFuncPackTypeFlagErr) = amFuncPackTypeFlagResp &&& t := by
  revert t
  apply forall_byte
  decide +kernel

theorem err_and_or_err (t : UInt8) :
    amFuncPackTypeFlagErr &&& (t ||| amFuncPackTypeFlagErr) = amFuncPackTypeFlagErr := by
  revert t
  apply forall_byte
  decide +kernel

/-- A pack type the switch knows has no flag bit. -/
theorem FuncHdr.packCall_packType {H : Type} {f : FuncHdr H} {rxBuf : PackAll} {resp : PackResp}
    {p : PackCall × Option UInt32} (h : f.packCall rxBuf resp = some p) :
    amFuncPackTypeFlagErr &&& (rxBuf.wrap.packType ||| amFuncPackTypeFlagResp) = 0 := by
  unfold FuncHdr.packCall at h
  split at h
  · rename_i ht
    rcases ht with ht | ht
    · rw [ht]
      decide
    · rw [ht]
      decide
  · split at h
    · rename_i ht
      rw [ht]
      decide
    · split at h
      · rename_i ht
        rw [ht]
        decide
      · split at h
        · rename_i ht
          rw [ht]
          decide
        · cases h

end Flags

section ErrorResponses

theorem respStatus_errorResp (e : AmReturn) (resp : PackResp) :
    respStatus (errorResp e resp).resp = e := by
  have htake : (splice resp.body 0 (statusBytes e)).take 4 = statusBytes e := by
    rw [take_splice_front (length_statusBytes e).ge, List.take_of_length_le]
    exact (length_statusBytes e).le
  have h := u32OfBytes_u32Bytes e.toUInt32
  rw [u32OfBytes, List.take_of_length_le (length_u32Bytes _).le] at h
  simp only [respStatus, errorResp, u32OfBytes, htake]
  rw [statusBytes, h, Int32.toInt32_toUInt32]

/-- Both clients read the code of an error response back. -/
theorem amNetWaitResult_errorResp (e : AmReturn) (resp : PackResp) :
    amNetWaitResult (errorResp e resp).resp = e := by
  have hflag : amFuncPackTypeFlagErr &&& (errorResp e resp).resp.wrap.packType ≠ 0 := by
    rw [errorResp, err_and_or_err]
    decide
  rw [amNetWaitResult, if_pos hflag, respStatus_errorResp]

/-- A client sees of a response only the wrapper and the first four bytes of the payload. -/
theorem amNetWaitResult_congr {a b : PackResp} (hw : a.wrap = b.wrap)
    (hb : a.body.take 4 = b.body.take 4) : amNetWaitResult a = amNetWaitResult b := by
  simp only [amNetWaitResult, respStatus, u32OfBytes, hw, hb]

end ErrorResponses

/-- What a client may rely on in a response to `rxBuf`. -/
structure Transparent (rxBuf : PackAll) (p : Processed) : Prop where
  funcId : p.resp.wrap.funcId = rxBuf.wrap.funcId
  op : p.resp.wrap.op = rxBuf.wrap.op
  appTag : p.resp.wrap.appTag = rxBuf.wrap.appTag
  isResp : amFuncPackTypeFlagResp &&& p.resp.wrap.packType ≠ 0
  isErr : amFuncPackTypeFlagErr &&& p.resp.wrap.packType ≠ 0 ↔ p.error ≠ amRetGood
  errorForm : p.error ≠ amRetGood →
    p.txBytes = 12 ∧ p.resp.wrap.size = 12 ∧ respStatus p.resp = p.error
  net : amNetWaitResult p.resp = p.error
  kpack : amKpackWaitResult p.resp = p.error
  netBytes : sizeofWrapper ≤ p.txBytes.toNat → p.txBytes.toNat ≤ maxBasicPackUnionSize →
    ∀ rx : PackResp, amNetWaitResult (rx.receive (p.resp.datagram p.txBytes.toNat)) = p.error

section Dispatch
variable {H S : Type} {rxBuf : PackAll} {resp : PackResp}

theorem transparent_errorResp {e : AmReturn} (he : e ≠ amRetGood)
    (hw : resp.wrap = { rxBuf.wrap with
      packType := rxBuf.wrap.packType ||| amFuncPackTypeFlagResp }) :
    Transparent rxBuf (errorResp e resp) := by
  have hnet := amNetWaitResult_errorResp e resp
  have herr : amFuncPackTypeFlagErr &&& (errorResp e resp).resp.wrap.packType ≠ 0 := by
    rw [errorResp, err_and_or_err]
    decide
  refine ⟨?_, ?_, ?_, ?_, ⟨fun _ => he, fun _ => herr⟩, fun _ => ⟨rfl, rfl, ?_⟩, hnet, hnet, ?_⟩
  · simp [errorResp, hw]
  · simp [errorResp, hw]
  · simp [errorResp, hw]
  · rw [errorResp, resp_and_or_err, hw, resp_and_or_resp]
    decide
  · exact respStatus_errorResp e resp
  · intro hlo hhi rx
    obtain ⟨hwrap, hbody⟩ := Frame.receive_datagram rx (errorResp e resp).resp hlo hhi
    refine (amNetWaitResult_congr hwrap ?_).trans hnet
    have hlen : 4 ≤ ((errorResp e resp).resp.body.take 4).length := by
      rw [List.length_take, (errorResp e resp).resp.length_body]
      decide
    have h4 : (errorResp e resp).txBytes.toNat - sizeofWrapper = 4 := rfl
    rw [hbody, h4, take_splice_front hlen, List.take_take, Nat.min_self]

theorem transparent_good {n : UInt32} (hflag : amFuncPackTypeFlagErr &&&
      (rxBuf.wrap.packType ||| amFuncPackTypeFlagResp) = 0)
    (hw : resp.wrap = { rxBuf.wrap with
      packType := rxBuf.wrap.packType ||| amFuncPackTypeFlagResp }) :
    Transparent rxBuf
      ⟨amRetGood, { resp with wrap := { resp.wrap with size := n.toUInt16 } }, n⟩ := by
  have hnet : ∀ g : PackResp, g.wrap = { resp.wrap with size := n.toUInt16 } →
      amNetWaitResult g = amRetGood := by
    intro g hg
    simp only [amNetWaitResult, hg, hw, hflag, ne_eq, not_true_eq_false, if_false]
  refine ⟨?_, ?_, ?_, ?_, ?_, fun h => absurd rfl h, hnet _ rfl, hnet _ rfl, ?_⟩
  · simp [hw]
  · simp [hw]
  · simp [hw]
  · simp only [hw, resp_and_or_resp]
    decide
  · simp [hw, hflag]
  · intro hlo hhi rx
    exact hnet _ (Frame.receive_datagram rx _ hlo hhi).1

theorem amPackSelect_fail_ne_good {pFunc : Option (FuncHdr H)} {e : AmReturn}
    (h : amPackSelect pFunc rxBuf resp = .ok (.fail e)) : e ≠ amRetGood := by
  cases pFunc with
  | none =>
    cases h
    decide
  | some f =>
    by_cases hop : rxBuf.wrap.op.toNat < amOpMaxOps
    · rcases amPackSelect_cases f rxBuf resp hop with ⟨_, hs⟩ | ⟨_, _, _, hs⟩ | ⟨_, _, _, _, _, hs⟩
      · rw [hs] at h
        cases h
        decide
      · rw [hs] at h
        cases h
        decide
      · rw [hs] at h
        cases h
    · rw [amPackSelect_out_of_range f rxBuf resp hop] at h
      cases h

theorem amPackSelect_call_flag {pFunc : Option (FuncHdr H)} {hd : H} {c : PackCall}
    {tx : Option UInt32} (h : amPackSelect pFunc rxBuf resp = .ok (.call hd c tx)) :
    amFuncPackTypeFlagErr &&& (rxBuf.wrap.packType ||| amFuncPackTypeFlagResp) = 0 := by
  cases pFunc with
  | none => cases h
  | some f =>
    by_cases hop : rxBuf.wrap.op.toNat < amOpMaxOps
    · rcases amPackSelect_cases f rxBuf resp hop with ⟨_, hs⟩ | ⟨_, _, _, hs⟩ | ⟨_, _, _, _, hc, _⟩
      · rw [hs] at h
        cases h
      · rw [hs] at h
        cases h
      · exact FuncHdr.packCall_packType hc
    · rw [amPackSelect_out_of_range f rxBuf resp hop] at h
      cases h

/-- Every response is transparent. -/
theorem transparent_of_ok {invoke : Invoke H S} {pFunc : Option (FuncHdr H)} {stale : UInt32}
    {s s' : S} {p : Processed}
    (h : amPackProcessCmd invoke pFunc rxBuf resp stale s = .ok (s', p)) :
    Transparent rxBuf p := by
  cases hsel : amPackSelect pFunc rxBuf (echoWrap rxBuf resp) with
  | error e => simp [amPackProcessCmd, hsel] at h
  | ok sel =>
    cases sel with
    | fail e =>
      rw [amPackProcessCmd_fail hsel] at h
      cases h
      exact transparent_errorResp (amPackSelect_fail_ne_good hsel) rfl
    | call hd c tx =>
      rw [amPackProcessCmd_call hsel, bind_eq_ok] at h
      rcases h with ⟨r, -, h⟩
      rw [bind_eq_ok] at h
      rcases h with ⟨g, hg, h⟩
      have hw : g.wrap = (echoWrap rxBuf resp).wrap := (Frame.write_eq_ok.mp hg).2.1
      split at h
      · rename_i herr
        cases h
        exact transparent_errorResp herr hw
      · cases h
        exact transparent_good (amPackSelect_call_flag hsel) hw

/-- With the operation in range, only the handler that is selected can fault. -/
theorem amPackProcessCmd_fault {invoke : Invoke H S} {pFunc : Option (FuncHdr H)} {stale : UInt32}
    {s : S} {e : Fault} (hop : rxBuf.wrap.op.toNat < amOpMaxOps)
    (h : amPackProcessCmd invoke pFunc rxBuf resp stale s = .error e) :
    ∃ hd c tx, amPackSelect pFunc rxBuf (echoWrap rxBuf resp) = .ok (.call hd c tx) ∧
      (invoke hd c s = .error e ∨
        ∃ s' r, invoke hd c s = .ok (s', r) ∧ bodySize < r.out.length) := by
  have hsel : ∃ sel, amPackSelect pFunc rxBuf (echoWrap rxBuf resp) = .ok sel := by
    cases pFunc with
    | none => exact ⟨_, rfl⟩
    | some f =>
      rcases amPackSelect_cases f rxBuf (echoWrap rxBuf resp) hop with
        ⟨_, hs⟩ | ⟨_, _, _, hs⟩ | ⟨_, _, _, _, _, hs⟩
      · exact ⟨_, hs⟩
      · exact ⟨_, hs⟩
      · exact ⟨_, hs⟩
  obtain ⟨sel, hsel⟩ := hsel
  cases sel with
  | fail e' =>
    rw [amPackProcessCmd_fail hsel] at h
    cases h
  | call hd c tx =>
    refine ⟨hd, c, tx, hsel, ?_⟩
    rw [amPackProcessCmd_call hsel] at h
    cases hi : invoke hd c s with
    | error e' =>
      rw [hi, error_bind] at h
      cases h
      exact .inl rfl
    | ok r =>
      refine .inr ⟨r.1, r.2, rfl, ?_⟩
      by_contra hle
      obtain ⟨g, hg, -⟩ := (echoWrap rxBuf resp).write_of_le 0 r.2.out (by omega)
      rw [hi, ok_bind, hg, ok_bind] at h
      split at h
      · cases h
      · cases h

/-- Status transparency: for every request with an operation in range, every function and every
handler, the response says exactly what the dispatcher returned, to both clients, unless the handler
that the request selects faults or writes past the response. -/
theorem statusTransparency (invoke : Invoke H S) (pFunc : Option (FuncHdr H)) (rxBuf : PackAll)
    (resp : PackResp) (stale : UInt32) (s : S) (hop : rxBuf.wrap.op.toNat < amOpMaxOps) :
    (∃ s' p, amPackProcessCmd invoke pFunc rxBuf resp stale s = .ok (s', p) ∧
      Transparent rxBuf p) ∨
    ∃ hd c tx e, amPackSelect pFunc rxBuf (echoWrap rxBuf resp) = .ok (.call hd c tx) ∧
      amPackProcessCmd invoke pFunc rxBuf resp stale s = .error e ∧
      (invoke hd c s = .error e ∨
        ∃ s' r, invoke hd c s = .ok (s', r) ∧ bodySize < r.out.length) := by
  cases h : amPackProcessCmd invoke pFunc rxBuf resp stale s with
  | ok r => exact .inl ⟨r.1, r.2, rfl, transparent_of_ok h⟩
  | error e =>
    obtain ⟨hd, c, tx, hsel, hf⟩ := amPackProcessCmd_fault hop h
    exact .inr ⟨hd, c, tx, e, hsel, rfl, hf⟩

def opcodeRequest : PackAll :=
  { Frame.zero with wrap := ⟨0xAA01, amPackTypeOpcodeOnly, 0x11, 7, 8⟩ }

def countingHandler : Invoke Unit ℕ := fun _ _ calls => .ok (calls + 1, { error := 5 })

theorem statusTransparency_called : ∃ p,
    amPackProcessCmd countingHandler (some ⟨fun _ => some (), 4, 4⟩) opcodeRequest Frame.zero 0 0 =
        .ok (1, p) ∧
      Transparent opcodeRequest p ∧ amNetWaitResult p.resp = 5 := by
  have hrun : (amPackProcessCmd countingHandler (some ⟨fun _ => some (), 4, 4⟩) opcodeRequest
      Frame.zero 0 0).map (fun r => (r.1, r.2.error)) = .ok (1, 5) := by decide +kernel
  obtain ⟨⟨calls, p⟩, hrun, hres⟩ := except_map_eq_ok.mp hrun
  obtain ⟨rfl, herror⟩ := Prod.mk.inj hres
  rcases statusTransparency countingHandler (some ⟨fun _ => some (), 4, 4⟩) opcodeRequest Frame.zero
    0 0 (by decide) with ⟨_, _, hok, T⟩ | ⟨_, _, _, _, -, hfault, -⟩
  · cases hrun.symm.trans hok
    exact ⟨p, hrun, T, T.net.trans herror⟩
  · cases hrun.symm.trans hfault

end Dispatch

end AppMem.Pack
