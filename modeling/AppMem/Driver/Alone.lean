import AppMem.Driver.Steps

/-! # A call alone

What is left of a call when it uses the driver no more, and the call taken in one go:
`appmemd_ioctl` is its steps one after the other.
-/
namespace AppMem.Driver
open Library.Bytes Library.Checked Library.Machine Library.Overlay Abi Memory Pack Device Hash

section Finish
variable (ke : KEnv)

def sendAll : List Sending → Exec (AmReturn × List UserWrite)
  | [] => .ok (amRetGood, [])
  | x :: todo => do
    match ← x.send ke with
    | none => return (x.failure, [])
    | some w =>
      let r ← sendAll todo
      return (r.1, w :: r.2)

def finish : Point → Exec Outcome
  | .value _ _ => .ok (.handler amRetGood [])
  | .sending todo sent => do
    let r ← sendAll ke todo
    return .handler r.1 (sent ++ r.2)
  | .returned o => .ok o
  | .fault e => .error e
  | _ => .error .convention

def Point.complete (k : Kernel) : Point → Kernel
  | .value v done => k.fill v done (v.src.drop done)
  | _ => k

def throughCreate (r : Kernel × Point) : Exec (Kernel × Point) :=
  match r.2 with
  | .capability dataIn => continueCreate ke r.1 dataIn
  | _ => .ok r

def IoctlCall.takeEffect (c : IoctlCall) (k : Kernel) : Exec (Kernel × Point) :=
  match c.enter k with
  | .command block _ => do
    let b ← k.tempKcmd.put 0 (fetched block c.bytes)
    let r ← c.continueCommand (k.withBlock b) block
    let r ← throughCreate c.ke r
    return (r.2.complete r.1, r.2)
  | p => .ok (k, p)

def Outcome.result (o : Outcome) (k : Kernel) : IoctlResult := ⟨k, o.ret, o.handled, o.writes⟩

end Finish

section Pieces
variable {ke : KEnv} {k : Kernel} {minor n : ℕ} {d : KDevice} {f : MemFunction} {c : KamCmd}
  {src : List UInt8}

@[simp] theorem length_fetched (src : List UInt8) (n : ℕ) : (fetched src n).length = n := by
  rw [fetched, List.length_append, List.length_replicate, List.length_take]
  omega

theorem copyIn_eq_put (c : KamCmd) (src : List UInt8) (n : ℕ) :
    c.copyIn src n = c.put 0 (fetched src n) := by
  unfold KamCmd.copyIn KamCmd.put
  by_cases h : n ≤ sizeofKamCmd
  · have hput : 0 + (fetched src n).length ≤ sizeofKamCmd := by rwa [length_fetched, Nat.zero_add]
    rw [dif_pos h, dif_pos hput]
    rfl
  · have hput : ¬ 0 + (fetched src n).length ≤ sizeofKamCmd := by
      rwa [length_fetched, Nat.zero_add]
    rw [dif_neg h, dif_neg hput]

theorem setFunc_eq_mapFunc (hd : k.devices minor = some d) (hf : d.pFunc = some f)
    (g : MemFunction → MemFunction) : k.setFunc minor (g f) = k.mapFunc minor g := by
  rw [Kernel.setFunc, Kernel.mapFunc, hd, Option.map_some, Option.map_some, hf, Option.map_some]

/-- The loop of `appmem_get_capabilites` is its transfers. -/
theorem copyCaps_eq (ke : KEnv) (entries : Registry) (is : List ℕ) (pCaps : UInt64) :
    copyCaps ke entries is pCaps = do
      let r ← sendAll ke (capSendings entries is pCaps)
      return { error := r.1, writes := r.2 } := by
  induction is generalizing pCaps with
  | nil => rfl
  | cons i is ih =>
    rw [copyCaps, capSendings]
    cases capAt entries i with
    | none => exact ih pCaps
    | some cap =>
      dsimp only
      rw [sendAll, Sending.send]
      dsimp only
      have hfirst : (decide (i ≠ 0) = false) ↔ i = 0 := by
        rw [decide_eq_false_iff_not, not_not]
      simp only [hfirst]
      by_cases hroom : sizeofMemCap ≤ (ke.user pCaps).length
      · rw [require_of_true _ (.inr hroom), ok_bind, ok_bind, if_pos hroom, if_pos hroom,
          readBytes_of_le cap.length_bytes.ge, List.take_of_length_le cap.length_bytes.le, ih]
        cases sendAll ke (capSendings entries is (pCaps + sizeofMemCap.toUInt64)) with
        | error e => rfl
        | ok r => rfl
      · by_cases hi : i = 0
        · rw [require_of_true _ (.inl hi), ok_bind, ok_bind, if_neg hroom, if_neg hroom]
          rfl
        · rw [require_of_false _ (not_or.mpr ⟨hi, hroom⟩)]
          rfl

/-- A read is a lookup, and then a copy of the item that was found. -/
theorem amAsscaRead32Align_eq {b : Build} {fd : AsscaData} (hfd : f.pVdF = some (.assca fd))
    (p1 p2 : List UInt8) : amAsscaRead32Align b f p1 p2 = do
      match ← asscaFound f p1 with
      | none => return (f, { error := amRetKeyNotFound })
      | some elt =>
        match fd.data.items[elt]? with
        | none => throw .bounds
        | some pAI =>
          let r ← copyToUser b fd.flags p2 pAI.data fd.data.dataLen.toNat
          let items := fd.data.items.set elt { pAI with data := r.2 }
          return (f.setAssca fd { fd.data with items := items },
            { error := amRetGood, out := r.1 }) := by
  rw [amAsscaRead32Align, asscaAccess, asscaFound, hfd]
  dsimp only
  rw [amlibAsscaGetKeyVal]
  have hself : f.setAssca fd fd.data = f := setAssca_self hfd
  cases ht : fd.data.table with
  | none => rw [ok_bind, ok_bind, hself]
  | some t =>
    dsimp only
    cases readBytes p1 fd.data.keyLen.toNat with
    | error e => rfl
    | ok key =>
      rw [ok_bind, ok_bind]
      cases hashFind (some t) key with
      | error e => rfl
      | ok found =>
        cases found with
        | none =>
          simp only [ok_bind, pure_eq_ok, hself, Option.map_none]
        | some h =>
          simp only [ok_bind, pure_eq_ok, Option.map_some]
          cases fd.data.items[h.elt]? with
          | none => rfl
          | some pAI =>
            dsimp only
            rw [← ht]
            cases copyToUser b fd.flags p2 pAI.data fd.data.dataLen.toNat with
            | error e => rfl
            | ok r => rfl

theorem invokeDevice_read (minor : ℕ) {env : Env} {p1 p2 : List UInt8} :
    invokeDevice .kernel env .amAsscaRead32Align (.align p1 p2) f = do
      match ← asscaFilling minor f p1 p2 with
      | none => invokeDevice .kernel env .amAsscaRead32Align (.align p1 p2) f
      | some v => return (fillItem f v.elt 0 v.src, { error := amRetGood }) := by
  rw [asscaFilling]
  split
  · rename_i fd hfd
    rw [invokeDevice, amAsscaRead32Align_eq hfd]
    cases asscaFound f p1 with
    | error e => rfl
    | ok found =>
      rw [ok_bind, ok_bind]
      cases found with
      | none => rfl
      | some elt =>
        dsimp only
        cases hitem : fd.data.items[elt]? with
        | none => rfl
        | some pAI =>
          dsimp only
          by_cases hlen : fd.data.dataLen.toNat ≤ pAI.data.length
          · rw [require_of_true _ hlen, ok_bind]
            by_cases hdir : Build.kernel.direct fd.flags = true
            · rw [if_pos hdir]
              rfl
            · have hroom : 0 + (fetched p2 fd.data.dataLen.toNat).length ≤ pAI.data.length := by
                rwa [length_fetched, Nat.zero_add]
              have hmodify : fd.data.items.modify elt (fun pAI => { pAI with
                  data := overlay pAI.data 0 (fetched p2 fd.data.dataLen.toNat) }) =
                  fd.data.items.set elt { pAI with
                    data := splice pAI.data 0 (fetched p2 fd.data.dataLen.toNat) } := by
                rw [modify_eq_set_of_getElem? _ hitem, overlay_eq_splice hroom]
              rw [if_neg hdir, copyToUser, readBytes_of_le hlen, ok_bind, if_neg hdir, pure_eq_ok,
                pure_eq_ok, ok_bind, ok_bind]
              dsimp only
              rw [fillItem, hfd]
              dsimp only
              rw [hmodify]
              rfl
          · have hlt : pAI.data.length < fd.data.dataLen.toNat := Nat.not_le.mp hlen
            rw [require_of_false _ hlen, copyToUser, readBytes_of_lt hlt]
            rfl
  · rfl

theorem asscaFilling_minor {p1 p2 : List UInt8} {v : Filling}
    (h : asscaFilling minor f p1 p2 = .ok (some v)) : v.minor = minor := by
  unfold asscaFilling at h
  split at h
  · rw [bind_eq_ok] at h
    rcases h with ⟨found, -, h⟩
    cases found with
    | none => cases h
    | some elt =>
      dsimp only at h
      split at h
      · cases h
      · rw [bind_eq_ok] at h
        rcases h with ⟨_, -, h⟩
        split at h <;> cases h
        rfl
  · cases h

end Pieces

section Alone
variable {ke : KEnv} {k : Kernel} {minor n : ℕ} {d : KDevice} {f : MemFunction}

def callHandler (ke : KEnv) (k : Kernel) (minor : ℕ) (f : MemFunction) (h : DriverHandler)
    (c : PackCall) (dst : Dest) : Exec IoctlResult := do
  let r ← invokeDriver ke minor f k h c
  let s ← storeOut ke r.1 dst r.2.out
  return ⟨s.1, r.2.error, some r.2.error, r.2.writes ++ s.2⟩

def closeCall (ke : KEnv) (r : Kernel × Point) : Exec IoctlResult := do
  let o ← finish ke r.2
  return o.result (r.2.complete r.1)

def toEnd (ke : KEnv) (r : Kernel × Point) : Exec IoctlResult := do
  let r ← throughCreate ke r
  closeCall ke r

theorem runHandler_toEnd (h : DriverHandler) (c : PackCall) (dst : Dest) :
    callHandler ke k minor f h c dst = runHandler ke k minor f h c dst >>= toEnd ke := by
  unfold callHandler runHandler
  cases invokeDriver ke minor f k h c with
  | error e => rfl
  | ok r =>
    rw [ok_bind, ok_bind]
    cases storeOut ke r.1 dst r.2.out with
    | error e => rfl
    | ok s => rfl

theorem storeOut_nil {dst : Dest} (h : dst = .command 0) : storeOut ke k dst [] = .ok (k, []) := by
  subst h
  have hin : 0 + ([] : List UInt8).length ≤ sizeofKamCmd := Nat.zero_le _
  rw [storeOut, dif_pos hin]
  simp only [splice_nil]

theorem closeCall_sending (k : Kernel) (todo : List Sending) :
    closeCall ke (k, .sending todo []) = do
      let r ← sendAll ke todo
      return ⟨k, r.1, some r.1, r.2⟩ := by
  rw [closeCall, finish]
  cases sendAll ke todo with
  | error e => rfl
  | ok r => rfl

theorem toEnd_sending (k : Kernel) (todo : List Sending) : toEnd ke (k, .sending todo []) = do
    let r ← sendAll ke todo
    return ⟨k, r.1, some r.1, r.2⟩ := closeCall_sending k todo

theorem callHandler_sends {h : DriverHandler} {c : PackCall} {dst : Dest} {x : Exec KServed}
    (hi : invokeDriver ke minor f k h c = x >>= fun r => .ok (k, r)) (hdst : dst = .command 0)
    (hout : ∀ r, x = .ok r → r.out = []) :
    callHandler ke k minor f h c dst = x >>= fun r => .ok ⟨k, r.error, some r.error, r.writes⟩ := by
  rw [callHandler, hi]
  cases hx : x with
  | error e => rfl
  | ok r =>
    rw [ok_bind, ok_bind, ok_bind, hout r hx, storeOut_nil hdst, ok_bind, List.append_nil]
    rfl

theorem appmemGetCapCount_eq (cmd : KamCmd) : (.ok (appmemGetCapCount ke cmd f) : Exec KServed) = do
    let r ← sendAll ke [countSending cmd f]
    return { error := r.1, writes := r.2 } := by
  rw [appmemGetCapCount, sendAll, Sending.send, countSending]
  dsimp only
  rw [require_of_true _ (.inl rfl), ok_bind]
  by_cases hroom : 4 ≤ (ke.user cmd.data).length
  · rw [if_pos hroom, if_pos hroom, readBytes_of_le (length_u32Bytes _).ge,
      List.take_of_length_le (length_u32Bytes _).le]
    rfl
  · rw [if_neg hroom, if_neg hroom]
    rfl

theorem appmemGetCapabilites_eq (entries : Registry) (cmd : KamCmd) :
    appmemGetCapabilites ke entries cmd f = do
      let r ← sendAll ke (capabilitySendings entries cmd f)
      return { error := r.1, writes := r.2 } := by
  rw [appmemGetCapabilites, capabilitySendings]
  by_cases ht : f.amType = amTypeBaseAppmem
  · rw [if_pos ht, if_pos ht]
    exact copyCaps_eq ke entries _ _
  · rw [if_neg ht, if_neg ht]
    rfl

theorem appmemGetCapDetails_eq (entries : Registry) (cmd : KamCmd) :
    appmemGetCapDetails ke entries cmd f = do
      match ← detailsSending entries cmd f with
      | none => return { error := negEnotty }
      | some x =>
        let r ← sendAll ke [x]
        return { error := r.1, writes := r.2 } := by
  rw [appmemGetCapDetails, detailsSending]
  dsimp only
  split
  · rename_i h
    rw [if_pos h.1, dif_pos h.2]
    cases entries ⟨_, h.2⟩ with
    | none => rfl
    | some e =>
      dsimp only
      cases e.pCapDetails with
      | none => rfl
      | some details =>
        dsimp only
        have hsend (stCount : UInt32) :
            (if stCount.toNat * sizeofCapDetails ≤ (ke.user cmd.data).length then do
                let b ← readBytes (details.flatMap AmCapDetails.bytes)
                  (stCount.toNat * sizeofCapDetails)
                return { error := amRetGood, writes := [(cmd.data, b)] }
              else return { error := negEnotty } : Exec KServed) = do
              let r ← sendAll ke [⟨cmd.data, details.flatMap AmCapDetails.bytes,
                stCount.toNat * sizeofCapDetails, false, negEnotty⟩]
              return { error := r.1, writes := r.2 } := by
          rw [sendAll, Sending.send]
          dsimp only
          rw [require_of_true _ (.inl rfl), ok_bind]
          split
          · cases readBytes (details.flatMap AmCapDetails.bytes)
              (stCount.toNat * sizeofCapDetails) with
            | error e => rfl
            | ok b => rfl
          · rfl
        simp only [pure_eq_ok] at hsend ⊢
        split
        · rw [ok_bind, ok_bind, ok_bind]
          exact hsend _
        · cases e.pCap with
          | none => rfl
          | some cap =>
            dsimp only
            rw [ok_bind, ok_bind, ok_bind]
            exact hsend _
  · rename_i h
    split
    · rename_i ht
      rw [dif_neg fun hlt => h ⟨ht, hlt⟩]
      rfl
    · rfl

theorem closeCall_report (k : Kernel) (minor : ℕ) (dataOut : UInt64) :
    closeCall ke (startReport k minor dataOut) =
      .ok ⟨(reportFunction ke k minor dataOut).1, (reportFunction ke k minor dataOut).2.error,
        some (reportFunction ke k minor dataOut).2.error,
        (reportFunction ke k minor dataOut).2.writes⟩ := by
  rw [startReport, reportFunction]
  cases k.devices minor with
  | none => rfl
  | some d =>
    dsimp only
    cases d.pFunc with
    | none => rfl
    | some g =>
      dsimp only
      rw [closeCall_sending, sendAll, Sending.send]
      dsimp only
      rw [require_of_true _ (.inl rfl), ok_bind]
      by_cases hroom : sizeofCrResp ≤ (ke.user dataOut).length
      · rw [if_pos hroom, if_pos hroom, readBytes_of_le (length_crResp_bytes _).ge,
          List.take_of_length_le (length_crResp_bytes _).le]
        rfl
      · rw [if_neg hroom, if_neg hroom]
        rfl

theorem reportFunction_out (k : Kernel) (minor : ℕ) (dataOut : UInt64) :
    (reportFunction ke k minor dataOut).2.out = [] := by
  unfold reportFunction
  split
  · rfl
  · split
    · rfl
    · dsimp only
      split <;> rfl

theorem createHandler_toEnd : callHandler ke k minor f .appmemCreateFunction .config (.command 0) =
    startHandler ke k minor f .appmemCreateFunction .config (.command 0) >>= toEnd ke := by
  rw [callHandler, invokeDriver, appmemCreateFunction, startHandler]
  dsimp only
  by_cases ht : f.amType ≠ amTypeBaseAppmem
  · rw [if_pos ht, if_pos (.inl ht), ok_bind, storeOut_nil rfl]
    rfl
  · by_cases hl : k.tempKcmd.lenIn.toNat < sizeofMemCap
    · rw [if_neg ht, if_pos hl, if_pos (.inr hl), ok_bind, storeOut_nil rfl]
      rfl
    · rw [if_neg ht, if_neg hl, if_neg (not_or.mpr ⟨ht, hl⟩), ok_bind]
      change _ = continueCreate ke k k.tempKcmd.dataIn >>= closeCall ke
      rw [continueCreate]
      by_cases hcap : (ke.user k.tempKcmd.dataIn).length < sizeofMemCap
      · rw [if_pos hcap, if_pos hcap, ok_bind, storeOut_nil rfl]
        rfl
      · rw [if_neg hcap, if_neg hcap]
        cases buildFunction ke k (.ofBytes ((ke.user k.tempKcmd.dataIn).take sizeofMemCap)) with
        | error e => rfl
        | ok r =>
          rw [ok_bind, ok_bind]
          cases r.2.2 with
          | none =>
            dsimp only
            rw [pure_eq_ok, ok_bind, storeOut_nil rfl]
            rfl
          | some minor =>
            dsimp only
            rw [pure_eq_ok, ok_bind, reportFunction_out, storeOut_nil rfl, ok_bind, pure_eq_ok,
              pure_eq_ok, ok_bind, closeCall_report, List.append_nil]

theorem capCount_toEnd :
    callHandler ke k minor f .appmemGetCapCount .config (.command 0) =
      startHandler ke k minor f .appmemGetCapCount .config (.command 0) >>= toEnd ke := by
  have hsends := callHandler_sends
    (show invokeDriver ke minor f k .appmemGetCapCount .config =
      (.ok (appmemGetCapCount ke k.tempKcmd f) : Exec KServed) >>= fun r => .ok (k, r) from rfl)
    rfl (by
      rintro r ⟨rfl⟩
      unfold appmemGetCapCount
      dsimp only
      split <;> rfl)
  rw [hsends, appmemGetCapCount_eq, startHandler, ok_bind, toEnd_sending]
  cases sendAll ke [countSending k.tempKcmd f] with
  | error e => rfl
  | ok r => rfl

theorem capabilites_toEnd :
    callHandler ke k minor f .appmemGetCapabilites .config (.command 0) =
      startHandler ke k minor f .appmemGetCapabilites .config (.command 0) >>= toEnd ke := by
  have hsends := callHandler_sends
    (show invokeDriver ke minor f k .appmemGetCapabilites .config =
      appmemGetCapabilites ke k.entries k.tempKcmd f >>= fun r => .ok (k, r) from rfl)
    rfl (by
      intro r hr
      rw [appmemGetCapabilites_eq, bind_eq_ok] at hr
      rcases hr with ⟨_, -, hr⟩
      cases hr
      rfl)
  rw [hsends, appmemGetCapabilites_eq, startHandler, ok_bind, toEnd_sending]
  cases sendAll ke (capabilitySendings k.entries k.tempKcmd f) with
  | error e => rfl
  | ok r => rfl

theorem capDetails_toEnd :
    callHandler ke k minor f .appmemGetCapDetails .config (.command 0) =
      startHandler ke k minor f .appmemGetCapDetails .config (.command 0) >>= toEnd ke := by
  have hsends := callHandler_sends
    (show invokeDriver ke minor f k .appmemGetCapDetails .config =
      appmemGetCapDetails ke k.entries k.tempKcmd f >>= fun r => .ok (k, r) from rfl)
    rfl (by
      intro r hr
      rw [appmemGetCapDetails_eq, bind_eq_ok] at hr
      rcases hr with ⟨x, -, hr⟩
      cases x with
      | none =>
        cases hr
        rfl
      | some x =>
        dsimp only at hr
        rw [bind_eq_ok] at hr
        rcases hr with ⟨_, -, hr⟩
        cases hr
        rfl)
  rw [hsends, appmemGetCapDetails_eq, startHandler]
  cases detailsSending k.entries k.tempKcmd f with
  | error e => rfl
  | ok x =>
    cases x with
    | none => rfl
    | some x =>
      rw [ok_bind, ok_bind]
      dsimp only
      rw [pure_eq_ok, ok_bind, toEnd_sending]
      cases sendAll ke [x] with
      | error e => rfl
      | ok r => rfl

/-- The value goes to its destination, and what it leaves behind into the item. -/
theorem asscaRead_toEnd (hd : k.devices minor = some d) (hf : d.pFunc = some f)
    (p1 p2 : List UInt8) (dst : Dest) :
    callHandler ke k minor f (.device .amAsscaRead32Align) (.align p1 p2) dst =
      startHandler ke k minor f (.device .amAsscaRead32Align) (.align p1 p2) dst >>= toEnd ke := by
  rw [startHandler]
  cases hfill : asscaFilling minor f p1 p2 with
  | error e =>
    rw [callHandler, invokeDriver, invokeDevice_read minor, hfill]
    rfl
  | ok x =>
    cases x with
    | none => exact runHandler_toEnd _ _ _
    | some v =>
      have hminor : v.minor = minor := asscaFilling_minor hfill
      rw [callHandler, invokeDriver, invokeDevice_read minor, hfill]
      simp only [ok_bind, pure_eq_ok]
      rw [setFunc_eq_mapFunc hd hf fun f => fillItem f v.elt 0 v.src, ← hminor]
      cases dst with
      | user addr => rfl
      | command off =>
        rw [storeOut, storeOut]
        split
        · rfl
        · rfl

theorem startHandler_toEnd (hd : k.devices minor = some d) (hf : d.pFunc = some f)
    (h : DriverHandler) (c : PackCall) {dst : Dest} (hdst : c = .config → dst = .command 0) :
    callHandler ke k minor f h c dst = startHandler ke k minor f h c dst >>= toEnd ke := by
  cases h with
  | appmemGetCapCount =>
    cases c with
    | config => exact hdst rfl ▸ capCount_toEnd
    | _ => exact runHandler_toEnd _ _ _
  | appmemGetCapabilites =>
    cases c with
    | config => exact hdst rfl ▸ capabilites_toEnd
    | _ => exact runHandler_toEnd _ _ _
  | appmemGetCapDetails =>
    cases c with
    | config => exact hdst rfl ▸ capDetails_toEnd
    | _ => exact runHandler_toEnd _ _ _
  | appmemCreateFunction =>
    cases c with
    | config => exact hdst rfl ▸ createHandler_toEnd
    | _ => exact runHandler_toEnd _ _ _
  | device h =>
    cases h with
    | amAsscaRead32Align =>
      cases c with
      | align p1 p2 => exact asscaRead_toEnd hd hf p1 p2 dst
      | _ => exact runHandler_toEnd _ _ _
    | _ => exact runHandler_toEnd _ _ _

theorem ioctlSelect_config {cmd : KamCmd} {h : DriverHandler} {dst : Dest}
    (hs : ioctlSelect ke d f cmd n = .ok (.call h .config dst)) : dst = .command 0 := by
  unfold ioctlSelect at hs
  rw [bind_eq_ok] at hs
  rcases hs with ⟨slot, -, hs⟩
  cases slot with
  | none => cases hs
  | some h' =>
    dsimp only at hs
    split at hs
    · unfold alignedCall at hs
      split at hs <;> cases hs
    · split at hs
      · unfold packetCall at hs
        split at hs
        · split at hs
          · rw [bind_eq_ok] at hs
            rcases hs with ⟨_, -, hs⟩
            cases hs
          · cases hs
        · split at hs <;> cases hs
      · cases hs
        rfl

theorem ioctlRun_toEnd (hd : k.devices minor = some d) (hf : d.pFunc = some f) :
    ioctlRun ke k minor d f n = dispatch ke k minor d f n >>= toEnd ke := by
  rw [ioctlRun, dispatch]
  cases hs : ioctlSelect ke d f k.tempKcmd n with
  | error e => rfl
  | ok chosen =>
    cases chosen with
    | ret code => rfl
    | call h c dst =>
      exact startHandler_toEnd hd hf h c fun hc => ioctlSelect_config (hc ▸ hs)

/-- A call taken in one go has its effect, and then what is left of it. -/
theorem appmemdIoctl_eq (c : IoctlCall) (k : Kernel) :
    appmemdIoctl c.ke k c.minor c.cmd c.arg = do
      let r ← c.takeEffect k
      let o ← finish c.ke r.2
      return o.result r.1 := by
  unfold appmemdIoctl IoctlCall.takeEffect IoctlCall.enter
  split
  · rfl
  · split
    · rfl
    · cases harg : c.arg with
      | none => rfl
      | some block =>
        cases hd : k.devices c.minor with
        | none => rfl
        | some d =>
          dsimp only
          cases hf : d.pFunc with
          | none => rfl
          | some f =>
            dsimp only
            rw [copyIn_eq_put]
            cases hput : k.tempKcmd.put 0 (fetched block (cmdBytes c.cmd)) with
            | error e =>
              rw [IoctlCall.bytes, hput]
              rfl
            | ok b =>
              rw [IoctlCall.bytes, hput, ok_bind, ok_bind, IoctlCall.continueCommand,
                IoctlCall.bytes]
              by_cases hlen : block.length < cmdBytes c.cmd
              · rw [if_pos hlen, if_pos hlen]
                rfl
              · have hd' : (k.withBlock b).devices c.minor = some d := hd
                rw [if_neg hlen, if_neg hlen, hd']
                dsimp only
                rw [hf]
                dsimp only
                change ioctlRun c.ke (k.withBlock b) c.minor d f (cmdBytes c.cmd) = _
                rw [ioctlRun_toEnd hd' hf]
                cases dispatch c.ke (k.withBlock b) c.minor d f (cmdBytes c.cmd) with
                | error e => rfl
                | ok r =>
                  rw [ok_bind, ok_bind, toEnd]
                  cases throughCreate c.ke r with
                  | error e => rfl
                  | ok r => rfl

end Alone

end AppMem.Driver
