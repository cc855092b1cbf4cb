import AppMem.Device.Handlers
import AppMem.Pack.Transport

/-! # The packet path to an associative array

Writes and reads sent as packets and served by the dispatcher, against direct calls of the
accessors. Every access through a transport that delivers is the direct access, seen from
the caller and from the table.
-/
namespace AppMem.Assca
open Library.Bytes Library.Checked Abi Memory Hash Pack Device

/-- One operation of a client: the key buffer and the value buffer. -/
inductive AsscaOp
  | write (p1 p2 : List UInt8)
  | read (p1 p2 : List UInt8)
  deriving DecidableEq, Repr

def AsscaOp.Fits (keyLen dataLen : ℕ) : AsscaOp → Prop
  | .write p1 p2 => keyLen ≤ p1.length ∧ dataLen ≤ p2.length
  | .read p1 p2 => keyLen ≤ p1.length ∧ dataLen ≤ p2.length

/-- The accessors called with the caller's own pointers. -/
def directStep (b : Build) (env : Env) (f : MemFunction) :
    AsscaOp → Exec (MemFunction × AlignResult)
  | .write p1 p2 => do
    let r ← amAsscaWrite32Align env f p1 p2
    return (r.1, ⟨r.2.error, p2⟩)
  | .read p1 p2 => do
    let r ← amAsscaRead32Align b f p1 p2
    let p2 ← writeBytes p2 r.2.out
    return (r.1, ⟨r.2.error, p2⟩)

/-- The same operation through the pointers `am_set_pack_access` installed. -/
def packetStep {σ : Type} (ac : PackAc σ) (pFunc : ClientFunc) (s : σ) :
    AsscaOp → Exec (σ × AlignResult)
  | .write p1 p2 => packWrite ac pFunc (amSetPackAccess pFunc.crResp) s p1 p2
  | .read p1 p2 => packRead ac pFunc (amSetPackAccess pFunc.crResp) s p1 p2

/-- The target's side: `am_pack_process_cmd` on the function itself. -/
def serveDevice (b : Build) (env : Env) (stale : UInt32) (rxBuf : PackAll) (resp : PackResp)
    (f : MemFunction) : Exec (MemFunction × Processed) :=
  processDevice b env f rxBuf resp stale

section Function

/-- What creation establishes and every access keeps, with the client's copy of the sizes. -/
structure Ready (b : Build) (r : CrResp) (f : MemFunction) : Prop where
  sizes : f.crResp.idxSize = r.idxSize ∧ f.crResp.dataSize = r.dataSize
  writeOp : f.pfnOps ⟨amOpWriteAlign.toNat, by decide⟩ = some .amAsscaWrite32Align
  readOp : f.pfnOps ⟨amOpReadAlign.toNat, by decide⟩ = some .amAsscaRead32Align
  data : ∃ fd, f.pVdF = some (.assca fd) ∧ fd.data.keyLen = r.idxSize ∧
    fd.data.dataLen = r.dataSize ∧ b.direct fd.flags = true

theorem amlibAsscaGetKeyVal_sizes {b : Build} {flags : UInt32} {pAA pAA' : AmlibAssca}
    {k d : List UInt8} {r : Served} (h : amlibAsscaGetKeyVal b flags pAA k d = .ok (pAA', r)) :
    pAA'.keyLen = pAA.keyLen ∧ pAA'.dataLen = pAA.dataLen := by
  unfold amlibAsscaGetKeyVal at h
  split at h
  · cases h
    exact ⟨rfl, rfl⟩
  · simp only [bind_eq_ok] at h
    rcases h with ⟨_, _, o, _, h⟩
    cases o with
    | none =>
      cases h
      exact ⟨rfl, rfl⟩
    | some hd =>
      dsimp only at h
      split at h
      · cases h
      · rw [bind_eq_ok] at h
        rcases h with ⟨_, _, h⟩
        cases h
        exact ⟨rfl, rfl⟩

theorem amlibAsscaAddKeyFixfix_sizes {env : Env} {pAA pAA' : AmlibAssca} {k d : List UInt8}
    {r : Served} (h : amlibAsscaAddKeyFixfix env pAA k d = .ok (pAA', r)) :
    pAA'.keyLen = pAA.keyLen ∧ pAA'.dataLen = pAA.dataLen ∧ r = { error := amRetGood } := by
  unfold amlibAsscaAddKeyFixfix at h
  rw [bind_eq_ok] at h
  rcases h with ⟨_, _, h⟩
  split at h
  · simp only [bind_eq_ok] at h
    rcases h with ⟨_, _, _, _, _, _, h⟩
    cases h
    exact ⟨rfl, rfl, rfl⟩
  · cases h
    exact ⟨rfl, rfl, rfl⟩

/-- Reading delivers a whole value or nothing. -/
theorem amlibAsscaGetKeyVal_out {b : Build} {flags : UInt32} {pAA pAA' : AmlibAssca}
    {k d : List UInt8} {r : Served} (hb : b.direct flags = true)
    (h : amlibAsscaGetKeyVal b flags pAA k d = .ok (pAA', r)) :
    (r.error = amRetKeyNotFound ∧ r.out = []) ∨
      (r.error = amRetGood ∧ r.out.length = pAA.dataLen.toNat) := by
  unfold amlibAsscaGetKeyVal at h
  split at h
  · cases h
    exact .inl ⟨rfl, rfl⟩
  · simp only [bind_eq_ok] at h
    rcases h with ⟨_, _, o, _, h⟩
    cases o with
    | none =>
      cases h
      exact .inl ⟨rfl, rfl⟩
    | some hd =>
      dsimp only at h
      split at h
      · cases h
      · rw [bind_eq_ok] at h
        rcases h with ⟨v, hv, h⟩
        rw [copyToUser_direct hb, bind_eq_ok] at hv
        rcases hv with ⟨w, hw, hv⟩
        cases hv
        cases h
        obtain ⟨hlen, rfl⟩ := readBytes_eq_ok.mp hw
        exact .inr ⟨rfl, by rw [List.length_take, Nat.min_eq_left hlen]⟩

variable {b : Build} {env : Env} {r : CrResp} {f g : MemFunction}

theorem Ready.access {op : AsscaData → Exec (AmlibAssca × Served)} {v : Served} (hf : Ready b r f)
    (hop : ∀ fd pAA v, op fd = .ok (pAA, v) →
      pAA.keyLen = fd.data.keyLen ∧ pAA.dataLen = fd.data.dataLen)
    (h : asscaAccess f op = .ok (g, v)) : Ready b r g := by
  obtain ⟨fd, hfd, hk, hd, hflag⟩ := hf.data
  simp only [asscaAccess, hfd, bind_eq_ok] at h
  rcases h with ⟨⟨pAA, w⟩, hw, h⟩
  cases h
  obtain ⟨hk', hd'⟩ := hop fd pAA w hw
  exact ⟨hf.sizes, hf.writeOp, hf.readOp,
    ⟨{ fd with data := pAA }, rfl, hk'.trans hk, hd'.trans hd, hflag⟩⟩

theorem Ready.directStep (hf : Ready b r f) {op : AsscaOp} {v : AlignResult}
    (h : directStep b env f op = .ok (g, v)) : Ready b r g := by
  cases op with
  | write p1 p2 =>
    simp only [Assca.directStep, bind_eq_ok] at h
    rcases h with ⟨⟨f', w⟩, hw, h⟩
    cases h
    refine hf.access (fun fd pAA v hv => ?_) hw
    obtain ⟨hk, hd, -⟩ := amlibAsscaAddKeyFixfix_sizes hv
    exact ⟨hk, hd⟩
  | read p1 p2 =>
    simp only [Assca.directStep, bind_eq_ok] at h
    rcases h with ⟨⟨f', w⟩, hw, _, _, h⟩
    cases h
    exact hf.access (fun fd pAA v hv => amlibAsscaGetKeyVal_sizes hv) hw

/-- No handler changes the lengths of an array. -/
theorem invokeDevice_lengths {h : DeviceHandler} {c : PackCall} {r : Served} {fd : AsscaData}
    (hf : f.pVdF = some (.assca fd)) (hr : invokeDevice b env h c f = .ok (g, r)) : ∃ fd', g.pVdF = some (.assca fd') ∧
      fd'.data.keyLen = fd.data.keyLen ∧ fd'.data.dataLen = fd.data.dataLen := by
  have hsame := invokeDevice_same hr
  have hconv := invokeDevice_convention hr
  have haccess {op : AsscaData → Exec (AmlibAssca × Served)}
      (hop : ∀ pAA v, op fd = .ok (pAA, v) →
        pAA.keyLen = fd.data.keyLen ∧ pAA.dataLen = fd.data.dataLen)
      (h : asscaAccess f op = .ok (g, r)) : ∃ fd', g.pVdF = some (.assca fd') ∧
        fd'.data.keyLen = fd.data.keyLen ∧ fd'.data.dataLen = fd.data.dataLen := by
    rcases asscaAccess_eq_ok.mp h with ⟨hnone, -⟩ | ⟨fd₁, pAA, hfd, hok, rfl⟩
    · cases hf.symm.trans hnone
    · cases hf.symm.trans hfd
      exact ⟨{ fd with data := pAA }, rfl, hop pAA r hok⟩
  cases h with
  | amTargRelease | amTargOpen | amTargClose =>
    cases c with
    | opOnly =>
      cases hr
      exact ⟨fd, hf, rfl, rfl⟩
    | _ => cases hconv
  | amFlatRead32Align | amFlatWrite32Align =>
    cases c with
    | align p1 p2 =>
      obtain ⟨_, _, hflat, -⟩ := flatAccess_eq_ok.mp hr
      cases hf.symm.trans hflat
    | _ => cases hconv
  | amStataReadIdx32 | amStataWriteIdx32 =>
    cases c with
    | align p1 p2 =>
      obtain ⟨_, _, hstata, -⟩ := stataAccess_eq_ok.mp hr
      cases hf.symm.trans hstata
    | _ => cases hconv
  | amStataSort =>
    cases c with
    | action p1 l1 =>
      have hsort : amStataSort env f p1 l1 = .ok (g, r) := hr
      rcases amStataSort_cases hsort with ⟨rfl, -⟩ | ⟨_, _, _, hstata, -⟩
      · exact ⟨fd, hf, rfl, rfl⟩
      · cases hf.symm.trans hstata
    | _ => cases hconv
  | amAsscaRead32Align =>
    cases c with
    | align p1 p2 => exact haccess (fun _ _ hop => amlibAsscaGetKeyVal_sizes hop) hr
    | _ => cases hconv
  | amAsscaWrite32Align =>
    cases c with
    | align p1 p2 =>
      exact haccess (fun _ _ hop =>
        ⟨(amlibAsscaAddKeyFixfix_sizes hop).1, (amlibAsscaAddKeyFixfix_sizes hop).2.1⟩) hr
    | _ => cases hconv

end Function

section Served
variable {b : Build} {env : Env} {r : CrResp} {f : MemFunction} {req : PackAll}
  {h : DeviceHandler} {stale : UInt32} {resp : PackResp}

theorem select_write (hslot : f.pfnOps ⟨amOpWriteAlign.toNat, by decide⟩ = some h)
    (ht : req.wrap.packType = amPackAlign) (ho : req.wrap.op = amOpWriteAlign) :
    amPackSelect (some f.hdr) req resp = .ok (.call h
      (.align req.body (req.body.drop f.crResp.idxSize.toNat)) (some 8)) := by
  have hlt : req.wrap.op.toNat < amOpMaxOps := by
    rw [ho]
    decide
  have hslot' : f.hdr.pfnOps ⟨req.wrap.op.toNat, hlt⟩ = some h := by
    rw [← hslot]
    simp only [MemFunction.hdr, ho]
  have hcall : f.hdr.packCall req resp =
      some (.align req.body (req.body.drop f.crResp.idxSize.toNat), some 8) := by
    rw [FuncHdr.packCall, if_pos (.inr ht), ho, if_neg (by decide)]
    rfl
  simp only [amPackSelect, f.hdr.slot_of_lt hlt, ok_bind, hslot', hcall]
  rfl

theorem select_read (hslot : f.pfnOps ⟨amOpReadAlign.toNat, by decide⟩ = some h)
    (ht : req.wrap.packType = amPackAlign) (ho : req.wrap.op = amOpReadAlign) :
    amPackSelect (some f.hdr) req resp = .ok (.call h
      (.align req.body resp.body) (some (8 + f.crResp.dataSize))) := by
  have hlt : req.wrap.op.toNat < amOpMaxOps := by
    rw [ho]
    decide
  have hslot' : f.hdr.pfnOps ⟨req.wrap.op.toNat, hlt⟩ = some h := by
    rw [← hslot]
    simp only [MemFunction.hdr, ho]
  have hcall : f.hdr.packCall req resp =
      some (.align req.body resp.body, some (8 + f.crResp.dataSize)) := by
    rw [FuncHdr.packCall, if_pos (.inr ht), ho, if_pos (by decide)]
    rfl
  simp only [amPackSelect, f.hdr.slot_of_lt hlt, ok_bind, hslot', hcall]
  rfl

theorem serve_write (hslot : f.pfnOps ⟨amOpWriteAlign.toNat, by decide⟩ = some h)
    (ht : req.wrap.packType = amPackAlign) (ho : req.wrap.op = amOpWriteAlign)
    {R : Exec MemFunction}
    (hR : invokeDevice b env h (.align req.body (req.body.drop f.crResp.idxSize.toNat)) f =
      R.map fun g => (g, { error := amRetGood })) :
    (∃ e, R = .error e ∧ serveDevice b env stale req resp f = .error e) ∨
    ∃ g p, R = .ok g ∧ serveDevice b env stale req resp f = .ok (g, p) ∧ p.error = amRetGood ∧
      WellSized p := by
  rw [serveDevice, processDevice, amPackProcessCmd_call (select_write hslot ht ho), hR]
  cases R with
  | error e => exact .inl ⟨e, rfl, rfl⟩
  | ok g =>
    obtain ⟨resp', hresp, -, -⟩ :=
      (echoWrap req resp).write_of_le 0 [] (by decide)
    have hlo : sizeofWrapper ≤ (8 : UInt32).toNat := by decide
    have hhi : (8 : UInt32).toNat ≤ maxBasicPackUnionSize := by decide
    refine .inr ⟨g, ⟨amRetGood, { resp' with wrap := { resp'.wrap with size := 8 } }, 8⟩, rfl, ?_,
      rfl, ⟨rfl, hlo, hhi⟩⟩
    simp only [Except.map, ok_bind, hresp]
    rfl

theorem serve_read (hslot : f.pfnOps ⟨amOpReadAlign.toNat, by decide⟩ = some h)
    (hfit : sizeofWrapper + f.crResp.dataSize.toNat ≤ maxBasicPackUnionSize)
    (ht : req.wrap.packType = amPackAlign) (ho : req.wrap.op = amOpReadAlign)
    {R : Exec (MemFunction × Served)}
    (hR : invokeDevice b env h (.align req.body resp.body) f = R)
    (hout : ∀ g v, R = .ok (g, v) → (v.error ≠ amRetGood ∧ v.out = []) ∨
      (v.error = amRetGood ∧ v.out.length = f.crResp.dataSize.toNat)) :
    (∃ e, R = .error e ∧ serveDevice b env stale req resp f = .error e) ∨
    ∃ g v p, R = .ok (g, v) ∧
      serveDevice b env stale req resp f = .ok (g, p) ∧ p.error = v.error ∧ WellSized p ∧
      (v.error ≠ amRetGood → v.out = []) ∧
      (v.error = amRetGood → v.out.length = f.crResp.dataSize.toNat ∧
        p.txBytes.toNat = sizeofWrapper + f.crResp.dataSize.toNat ∧
        p.resp.body.take f.crResp.dataSize.toNat = v.out) := by
  rw [serveDevice, processDevice, amPackProcessCmd_call (select_read hslot ht ho), echoWrap_body,
    hR]
  cases hr : R with
  | error e => exact .inl ⟨e, rfl, rfl⟩
  | ok q =>
    obtain ⟨g, v⟩ := q
    simp only [sizeofWrapper, maxBasicPackUnionSize] at hfit
    right
    rcases hout g v hr with ⟨hne, hnone⟩ | ⟨herr, hlen⟩
    · obtain ⟨resp', hresp, -⟩ :=
        (echoWrap req resp).write_of_le 0 [] (by decide)
      refine ⟨g, v, errorResp v.error resp', rfl, ?_, rfl, wellSized_errorResp _ _,
        fun _ => hnone, fun h => absurd h hne⟩
      simp only [ok_bind, hnone, hresp, if_pos hne]
    · obtain ⟨resp', hresp, hwrap, hbody⟩ :=
        (echoWrap req resp).write_of_le 0 v.out (by
          rw [hlen]
          simp only [bodySize]
          omega)
      have htx : (8 + f.crResp.dataSize : UInt32).toNat = 8 + f.crResp.dataSize.toNat := by
        rw [UInt32.toNat_add]
        exact Nat.mod_eq_of_lt (by
          simp only [UInt32.reduceToNat]
          omega)
      refine ⟨g, v, ⟨amRetGood, { resp' with
          wrap := { resp'.wrap with size := (8 + f.crResp.dataSize).toUInt16 } },
          8 + f.crResp.dataSize⟩,
        rfl, ?_, herr.symm, ⟨rfl, ?_, ?_⟩, fun h => absurd herr h, fun _ => ⟨hlen, htx, ?_⟩⟩
      · simp only [ok_bind, hresp, herr, ne_eq, not_true_eq_false, if_false]
        rfl
      · rw [htx]
        simp only [sizeofWrapper]
        omega
      · rw [htx]
        exact hfit
      · rw [hbody, ← hlen, take_splice_front (Nat.le_refl _), List.take_length]

/-- The accessors look only at the key and the value behind their pointers. -/
theorem amAsscaWrite32Align_congr (hf : Ready b r f) {k k' d d' : List UInt8}
    (hk : readBytes k r.idxSize.toNat = readBytes k' r.idxSize.toNat)
    (hd : readBytes d r.dataSize.toNat = readBytes d' r.dataSize.toNat) :
    amAsscaWrite32Align env f k d = amAsscaWrite32Align env f k' d' := by
  obtain ⟨fd, hfd, hkl, hdl, -⟩ := hf.data
  rw [← hkl] at hk
  rw [← hdl] at hd
  simp only [amAsscaWrite32Align, asscaAccess, hfd, amlibAsscaAddKeyFixfix_congr hk hd]

theorem amAsscaRead32Align_congr (hf : Ready b r f) {k k' d d' : List UInt8}
    (hk : readBytes k r.idxSize.toNat = readBytes k' r.idxSize.toNat) :
    amAsscaRead32Align b f k d = amAsscaRead32Align b f k' d' := by
  obtain ⟨fd, hfd, hkl, -, hflag⟩ := hf.data
  rw [← hkl] at hk
  simp only [amAsscaRead32Align, asscaAccess, hfd, amlibAsscaGetKeyVal_congr d d' hflag hk]

end Served

section Client
variable {σ : Type} (ac : PackAc σ) (pFunc : ClientFunc) (s : σ) (p1 p2 : List UInt8)

/-- The two write functions differ in the size they send. -/
def packWriteWith (txSize : UInt32) (idx data : ℕ) : Exec (σ × AlignResult) := do
  let r ← ac.getFreeIop s
  let key ← readBytes p1 idx
  let pTx ← (fillWrap pFunc r.2 amPackAlign amOpWriteAlign txSize).write 0 key
  let val ← readBytes p2 data
  let pTx ← pTx.write idx val
  let r ← ac.sendAndWait r.1 pTx txSize
  return (r.1, ⟨r.2.error, p2⟩)

/-- The two read functions differ in the code for a response that is too short. -/
def packReadWith (txSize : UInt32) (idx data : ℕ) (short : AmReturn) : Exec (σ × AlignResult) := do
  let r ← ac.getFreeIop s
  let key ← readBytes p1 idx
  let pTx ← (fillWrap pFunc r.2 amPackAlign amOpReadAlign txSize).write 0 key
  let r ← ac.sendAndWait r.1 pTx txSize
  if r.2.error = amRetGood then
    if sizeofWrapper + data ≤ r.2.respBytes.toNat then
      let val ← readBytes r.2.pRx.body data
      let p2 ← writeBytes p2 val
      return (r.1, ⟨amRetGood, p2⟩)
    else return (r.1, ⟨short, p2⟩)
  else return (r.1, ⟨r.2.error, p2⟩)

theorem amPackRead32Align_eq :
    amPackRead32Align ac pFunc s p1 p2 = packReadWith ac pFunc s p1 p2 12 4 4 amRetIoUnderrun := by
  have h : ∀ n : UInt32, (12 ≤ n) = (sizeofWrapper + 4 ≤ n.toNat) := fun n => rfl
  simp only [amPackRead32Align, packReadWith, h]

variable {ac pFunc s p1 p2} {b : Build} {env : Env} {stale : UInt32} {view : σ → MemFunction}
  {h : DeviceHandler} {idx data : ℕ}

/-- A write through a delivering transport is the call of the handler, when the handler looks at
nothing but the index and the value. -/
theorem packWriteWith_of_handler (D : Delivers ac (serveDevice b env stale) view)
    (hslot : (view s).pfnOps ⟨amOpWriteAlign.toNat, by decide⟩ = some h)
    (hidx : (view s).crResp.idxSize.toNat = idx) (txSize : UInt32)
    (hlo : sizeofWrapper + idx + data ≤ txSize.toNat) (hhi : txSize.toNat ≤ maxBasicPackUnionSize)
    (h1 : idx ≤ p1.length) (h2 : data ≤ p2.length) {R : Exec MemFunction}
    (hR : ∀ body : List UInt8, body.length = bodySize → body.take idx = p1.take idx →
      (body.drop idx).take data = p2.take data →
      invokeDevice b env h (.align body (body.drop idx)) (view s) =
        R.map fun g => (g, { error := amRetGood })) :
    (packWriteWith ac pFunc s p1 p2 txSize idx data).map (Prod.map view id) =
      R.map fun g => (g, ⟨amRetGood, p2⟩) := by
  subst hidx
  generalize hidx : (view s).crResp.idxSize.toNat = idx at *
  simp only [sizeofWrapper, maxBasicPackUnionSize] at hlo hhi
  obtain ⟨s', tx, hfree, hview⟩ := D.free s
  have hkey : (p1.take idx).length = idx := List.length_take_of_le h1
  have hval : (p2.take data).length = data := List.length_take_of_le h2
  obtain ⟨g₁, hg₁, hw₁, hb₁⟩ :=
    (fillWrap pFunc tx amPackAlign amOpWriteAlign txSize).write_of_le 0 (p1.take idx)
      (by rw [hkey]; simp only [bodySize]; omega)
  obtain ⟨g₂, hg₂, hw₂, hb₂⟩ := g₁.write_of_le idx (p2.take data)
    (by rw [hval]; simp only [bodySize]; omega)
  have htag : g₂.wrap.appTag = tx.wrap.appTag := by
    rw [hw₂, hw₁]
    rfl
  obtain ⟨req, resp, ⟨hwrap, hbody⟩, herr, hok⟩ := D.exchange s s' tx s' g₂ txSize hfree htag
    (by simp only [sizeofWrapper]; omega) hhi
  rw [hview] at herr hok
  -- the packet holds the key and the value
  have hreq : req.body.take (idx + data) = p1.take idx ++ p2.take data := by
    have hg : g₂.body.take (idx + data) = p1.take idx ++ p2.take data := by
      have h := take_splice_splice tx.body (p1.take idx) (p2.take data)
      rw [hkey, hval] at h
      rw [hb₂, hb₁]
      exact h
    rw [← hg, ← Nat.min_eq_left (show idx + data ≤ txSize.toNat - sizeofWrapper by
      simp only [sizeofWrapper]; omega), ← List.take_take, ← List.take_take, hbody]
  obtain ⟨hfront, hback⟩ := take_drop_of_take_append (l := req.body) (a := p1.take idx)
    (b := p2.take data) (by rw [hkey, hval, hreq])
  rw [hkey] at hfront hback
  rw [hval] at hback
  have ht : req.wrap.packType = amPackAlign := by
    rw [hwrap, hw₂, hw₁]
    rfl
  have ho : req.wrap.op = amOpWriteAlign := by
    rw [hwrap, hw₂, hw₁]
    rfl
  have hcall := hR req.body req.length_body hfront hback
  rw [← hidx] at hcall
  simp only [packWriteWith, hfree, ok_bind, readBytes_of_le h1, hg₁, readBytes_of_le h2, hg₂]
  rcases serve_write hslot ht ho hcall with ⟨e, rfl, hpack⟩ | ⟨g, p, rfl, hpack, hgood, hsize⟩
  · rw [herr e hpack]
    rfl
  · obtain ⟨s'', c, hsend, hv, hc, -, -⟩ := hok g p hpack (transparent_of_ok hpack) hsize
    rw [hsend]
    simp only [ok_bind, Except.map, Prod.map, hv, hc, hgood, id_eq, pure_eq_ok]

theorem packReadWith_of_handler (D : Delivers ac (serveDevice b env stale) view)
    (hslot : (view s).pfnOps ⟨amOpReadAlign.toNat, by decide⟩ = some h)
    (hdata : (view s).crResp.dataSize.toNat = data) (txSize : UInt32) (short : AmReturn)
    (p2 : List UInt8) (hlo : sizeofWrapper + idx ≤ txSize.toNat)
    (hhi : txSize.toNat ≤ maxBasicPackUnionSize)
    (hfit : sizeofWrapper + data ≤ maxBasicPackUnionSize) (h1 : idx ≤ p1.length)
    {R : Exec (MemFunction × Served)}
    (hR : ∀ body answer : List UInt8, body.length = bodySize → answer.length = bodySize →
      body.take idx = p1.take idx →
      invokeDevice b env h (.align body answer) (view s) = R)
    (hout : ∀ g v, R = .ok (g, v) → (v.error ≠ amRetGood ∧ v.out = []) ∨
      (v.error = amRetGood ∧ v.out.length = data)) :
    (packReadWith ac pFunc s p1 p2 txSize idx data short).map (Prod.map view id) =
      R >>= fun r => writeBytes p2 r.2.out >>= fun p2 => .ok (r.1, ⟨r.2.error, p2⟩) := by
  subst hdata
  obtain ⟨s', tx, hfree, hview⟩ := D.free s
  have hkey : (p1.take idx).length = idx := List.length_take_of_le h1
  have hroom : idx ≤ bodySize := by
    simp only [sizeofWrapper, maxBasicPackUnionSize, bodySize] at *
    omega
  obtain ⟨g, hg, hw, hb⟩ :=
    (fillWrap pFunc tx amPackAlign amOpReadAlign txSize).write_of_le 0 (p1.take idx)
      (by rw [hkey, Nat.zero_add]; exact hroom)
  have htag : g.wrap.appTag = tx.wrap.appTag := by
    rw [hw]
    rfl
  obtain ⟨req, resp, ⟨hwrap, hbody⟩, herr, hok⟩ := D.exchange s s' tx s' g txSize hfree htag
    (by omega) hhi
  rw [hview] at herr hok
  -- the packet holds the key
  have hfront : req.body.take idx = p1.take idx := by
    have hle : idx ≤ txSize.toNat - sizeofWrapper := by omega
    have h := congrArg (List.take idx) hbody
    rwa [List.take_take, List.take_take, Nat.min_eq_left hle, hb,
      take_splice_front hkey.ge, List.take_take, Nat.min_self] at h
  have ht : req.wrap.packType = amPackAlign := by
    rw [hwrap, hw]
    rfl
  have ho : req.wrap.op = amOpReadAlign := by
    rw [hwrap, hw]
    rfl
  have hcall := hR req.body resp.body req.length_body resp.length_body hfront
  simp only [packReadWith, hfree, ok_bind, readBytes_of_le h1, hg]
  rcases serve_read hslot hfit ht ho hcall hout with
    ⟨e, rfl, hpack⟩ | ⟨t, v, p, rfl, hpack, hcode, hsize, hnone, hgood⟩
  · rw [herr e hpack]
    rfl
  · obtain ⟨s'', c, hsend, hv, hc, hlen, -, hpay⟩ := hok t p hpack (transparent_of_ok hpack) hsize
    rw [hsend]
    simp only [ok_bind, hc, hcode]
    by_cases he : v.error = amRetGood
    · obtain ⟨hout, htx, htake⟩ := hgood he
      have hval : readBytes c.pRx.body (view s).crResp.dataSize.toNat = .ok v.out := by
        rw [htx, Nat.add_sub_cancel_left, htake] at hpay
        rw [readBytes_of_le, hpay]
        rw [c.pRx.length_body]
        simp only [sizeofWrapper, maxBasicPackUnionSize, bodySize] at *
        omega
      have hshort : sizeofWrapper + (view s).crResp.dataSize.toNat ≤ c.respBytes.toNat := by
        rw [hlen, htx]
      rw [if_pos he, if_pos hshort, hval, ok_bind]
      cases writeBytes p2 v.out with
      | error e => rfl
      | ok q => simp only [ok_bind, Except.map, Prod.map, hv, he, id_eq, pure_eq_ok]
    · rw [if_neg he, hnone he, writeBytes_of_le (Nat.zero_le _), splice_nil]
      simp only [ok_bind, Except.map, Prod.map, hv, id_eq, pure_eq_ok]

theorem packWriteWith_view (D : Delivers ac (serveDevice b env stale) view)
    (hf : Ready b pFunc.crResp (view s)) (txSize : UInt32)
    (hlo : sizeofWrapper + pFunc.crResp.idxSize.toNat + pFunc.crResp.dataSize.toNat ≤ txSize.toNat)
    (hhi : txSize.toNat ≤ maxBasicPackUnionSize)
    (h1 : pFunc.crResp.idxSize.toNat ≤ p1.length) (h2 : pFunc.crResp.dataSize.toNat ≤ p2.length) :
    (packWriteWith ac pFunc s p1 p2 txSize pFunc.crResp.idxSize.toNat
      pFunc.crResp.dataSize.toNat).map (Prod.map view id) =
      directStep b env (view s) (.write p1 p2) := by
  have hroom : pFunc.crResp.idxSize.toNat + pFunc.crResp.dataSize.toNat ≤ bodySize := by
    simp only [sizeofWrapper, maxBasicPackUnionSize, bodySize] at *
    omega
  have hidx : (view s).crResp.idxSize.toNat = pFunc.crResp.idxSize.toNat :=
    congrArg UInt32.toNat hf.sizes.1
  have hgood : ∀ g v, amAsscaWrite32Align env (view s) p1 p2 = .ok (g, v) →
      v = { error := amRetGood } := by
    intro g v hw
    obtain ⟨fd, hfd, -⟩ := hf.data
    rcases asscaAccess_eq_ok.mp hw with ⟨hnone, -⟩ | ⟨_, _, -, hop, -⟩
    · rw [hfd] at hnone
      cases hnone
    · exact (amlibAsscaAddKeyFixfix_sizes hop).2.2
  refine (packWriteWith_of_handler D hf.writeOp hidx txSize hlo hhi h1 h2
    (R := (amAsscaWrite32Align env (view s) p1 p2).map Prod.fst) ?_).trans ?_
  · intro body hbody hkey hval
    have hk : readBytes body pFunc.crResp.idxSize.toNat =
        readBytes p1 pFunc.crResp.idxSize.toNat := by
      rw [readBytes_of_le (by omega), readBytes_of_le h1, hkey]
    have hd : readBytes (body.drop pFunc.crResp.idxSize.toNat) pFunc.crResp.dataSize.toNat =
        readBytes p2 pFunc.crResp.dataSize.toNat := by
      rw [readBytes_of_le (by rw [List.length_drop]; omega), readBytes_of_le h2, hval]
    rw [invokeDevice, amAsscaWrite32Align_congr hf hk hd]
    cases hw : amAsscaWrite32Align env (view s) p1 p2 with
    | error e => rfl
    | ok q => exact congrArg Except.ok (Prod.ext rfl (hgood q.1 q.2 hw))
  · rw [directStep]
    cases hw : amAsscaWrite32Align env (view s) p1 p2 with
    | error e => rfl
    | ok q =>
      have hq : q.2.error = amRetGood := congrArg Served.error (hgood q.1 q.2 hw)
      simp only [Except.map, ok_bind, pure_eq_ok, hq]

theorem packReadWith_view (D : Delivers ac (serveDevice b env stale) view)
    (hf : Ready b pFunc.crResp (view s)) (txSize : UInt32) (short : AmReturn) (p2 : List UInt8)
    (hlo : sizeofWrapper + pFunc.crResp.idxSize.toNat ≤ txSize.toNat)
    (hhi : txSize.toNat ≤ maxBasicPackUnionSize)
    (hfit : sizeofWrapper + pFunc.crResp.dataSize.toNat ≤ maxBasicPackUnionSize)
    (h1 : pFunc.crResp.idxSize.toNat ≤ p1.length) :
    (packReadWith ac pFunc s p1 p2 txSize pFunc.crResp.idxSize.toNat
      pFunc.crResp.dataSize.toNat short).map (Prod.map view id) =
      directStep b env (view s) (.read p1 p2) := by
  have hroom : pFunc.crResp.idxSize.toNat ≤ bodySize := by
    simp only [sizeofWrapper, maxBasicPackUnionSize, bodySize] at *
    omega
  have hdata : (view s).crResp.dataSize.toNat = pFunc.crResp.dataSize.toNat :=
    congrArg UInt32.toNat hf.sizes.2
  refine packReadWith_of_handler D hf.readOp hdata txSize short p2 hlo hhi hfit h1
    (R := amAsscaRead32Align b (view s) p1 p2) ?_ ?_
  · intro body answer hbody _ hkey
    have hk : readBytes body pFunc.crResp.idxSize.toNat =
        readBytes p1 pFunc.crResp.idxSize.toNat := by
      rw [readBytes_of_le (by omega), readBytes_of_le h1, hkey]
    rw [invokeDevice, amAsscaRead32Align_congr hf hk]
  · intro g v hr
    obtain ⟨fd, hfd, -, hd, hflag⟩ := hf.data
    have hne : amRetKeyNotFound ≠ amRetGood := by decide
    rcases asscaAccess_eq_ok.mp hr with ⟨hnone, -⟩ | ⟨fd', pAA, hfd', hop, -⟩
    · rw [hfd] at hnone
      cases hnone
    · rw [hfd] at hfd'
      cases hfd'
      rw [← hd]
      rcases amlibAsscaGetKeyVal_out hflag hop with ⟨herr, hnone⟩ | hgood
      · exact .inl ⟨by rwa [herr], hnone⟩
      · exact .inr hgood

end Client

section Equivalence

/-- The two kernel pack types name the packet functions; which pair depends on the sizes. -/
theorem packAccess_kpack {r : CrResp} {acOp : UInt32} (h : amNetGetPacktype acOp = 5) :
    packAccess r acOp =
      if r.dataSize = 4 ∧ r.idxSize = 4 then some .align32 else some .align := by
  rw [packAccess, if_pos (.inr (by rw [h]; rfl))]

variable {b : Build} {env : Env} {stale : UInt32} {σ : Type} {ac : PackAc σ} {view : σ → MemFunction}
  {pFunc : ClientFunc}

section Sizes
variable (ac) (pFunc)

/-- Whichever function `am_set_pack_access` chose, a write sends the index and the value. -/
theorem packetStep_write_eq
    (hw : packAccess pFunc.crResp (pFunc.crResp.acOps acopWrite) =
      if pFunc.crResp.dataSize = 4 ∧ pFunc.crResp.idxSize = 4 then some .align32 else some .align)
    (hfit : sizeofWrapper + pFunc.crResp.idxSize.toNat + pFunc.crResp.dataSize.toNat ≤
      maxBasicPackUnionSize) (s : σ) (p1 p2 : List UInt8) :
    ∃ txSize : UInt32, sizeofWrapper + pFunc.crResp.idxSize.toNat + pFunc.crResp.dataSize.toNat ≤
        txSize.toNat ∧ txSize.toNat ≤ maxBasicPackUnionSize ∧
      packetStep ac pFunc s (.write p1 p2) = packWriteWith ac pFunc s p1 p2 txSize
        pFunc.crResp.idxSize.toNat pFunc.crResp.dataSize.toNat := by
  have hsum : (8 + pFunc.crResp.dataSize + pFunc.crResp.idxSize : UInt32).toNat =
      sizeofWrapper + pFunc.crResp.idxSize.toNat + pFunc.crResp.dataSize.toNat := by
    simp only [sizeofWrapper, maxBasicPackUnionSize] at *
    simp only [UInt32.toNat_add, UInt32.reduceToNat]
    omega
  simp only [packetStep, packWrite, amSetPackAccess, hw]
  by_cases h4 : pFunc.crResp.dataSize = 4 ∧ pFunc.crResp.idxSize = 4
  · refine ⟨10 + 7, by rw [h4.1, h4.2]; decide, by decide, ?_⟩
    rw [if_pos h4, h4.1, h4.2]
    rfl
  · refine ⟨_, hsum.ge, hsum.trans_le hfit, ?_⟩
    rw [if_neg h4]
    rfl

theorem packetStep_read_eq
    (hr : packAccess pFunc.crResp (pFunc.crResp.acOps acopRead) =
      if pFunc.crResp.dataSize = 4 ∧ pFunc.crResp.idxSize = 4 then some .align32 else some .align)
    (hfit : sizeofWrapper + pFunc.crResp.idxSize.toNat + pFunc.crResp.dataSize.toNat ≤
      maxBasicPackUnionSize) (s : σ) (p1 p2 : List UInt8) :
    ∃ (txSize : UInt32) (short : AmReturn),
      sizeofWrapper + pFunc.crResp.idxSize.toNat ≤ txSize.toNat ∧
        txSize.toNat ≤ maxBasicPackUnionSize ∧
      packetStep ac pFunc s (.read p1 p2) = packReadWith ac pFunc s p1 p2 txSize
        pFunc.crResp.idxSize.toNat pFunc.crResp.dataSize.toNat short := by
  have hkeySize : (8 + pFunc.crResp.idxSize : UInt32).toNat =
      sizeofWrapper + pFunc.crResp.idxSize.toNat := by
    simp only [sizeofWrapper, maxBasicPackUnionSize] at *
    simp only [UInt32.toNat_add, UInt32.reduceToNat]
    omega
  simp only [packetStep, packRead, amSetPackAccess, hr]
  by_cases h4 : pFunc.crResp.dataSize = 4 ∧ pFunc.crResp.idxSize = 4
  · refine ⟨12, amRetIoUnderrun, by rw [h4.2]; decide, by decide, ?_⟩
    simp only [amPackRead32Align_eq, h4.1, h4.2]
    rfl
  · refine ⟨_, amRetIoErr, hkeySize.ge, by omega, ?_⟩
    rw [if_neg h4]
    rfl

end Sizes

theorem packetStep_view (D : Delivers ac (serveDevice b env stale) view)
    (hw : amNetGetPacktype (pFunc.crResp.acOps acopWrite) = 5)
    (hr : amNetGetPacktype (pFunc.crResp.acOps acopRead) = 5)
    (hfit : sizeofWrapper + pFunc.crResp.idxSize.toNat + pFunc.crResp.dataSize.toNat ≤
      maxBasicPackUnionSize) (s : σ) (op : AsscaOp) (hf : Ready b pFunc.crResp (view s))
    (hop : op.Fits pFunc.crResp.idxSize.toNat pFunc.crResp.dataSize.toNat) :
    (packetStep ac pFunc s op).map (Prod.map view id) = directStep b env (view s) op := by
  cases op with
  | write p1 p2 =>
    obtain ⟨txSize, hlo, hhi, hstep⟩ :=
      packetStep_write_eq ac pFunc (packAccess_kpack hw) hfit s p1 p2
    rw [hstep]
    exact packWriteWith_view D hf txSize hlo hhi hop.1 hop.2
  | read p1 p2 =>
    obtain ⟨txSize, short, hlo, hhi, hstep⟩ :=
      packetStep_read_eq ac pFunc (packAccess_kpack hr) hfit s p1 p2
    rw [hstep]
    exact packReadWith_view D hf txSize short p2 hlo hhi (by omega) hop.1

/-- Runs through a delivering transport are direct runs. -/
theorem packetTrace_view (pFunc : ClientFunc) (s : σ) (D : Delivers ac (serveDevice b env stale) view)
    (hw : amNetGetPacktype (pFunc.crResp.acOps acopWrite) = 5)
    (hr : amNetGetPacktype (pFunc.crResp.acOps acopRead) = 5)
    (hfit : sizeofWrapper + pFunc.crResp.idxSize.toNat + pFunc.crResp.dataSize.toNat ≤
      maxBasicPackUnionSize) (hf : Ready b pFunc.crResp (view s)) {ops : List AsscaOp}
    (hops : ∀ op ∈ ops, op.Fits pFunc.crResp.idxSize.toNat pFunc.crResp.dataSize.toNat) :
    (trace (packetStep ac pFunc) s ops).map (Prod.map view id) =
      trace (directStep b env) (view s) ops :=
  trace_view (P := Ready b pFunc.crResp) (fun _ _ _ _ hf _ h => hf.directStep h)
    (fun s op hf hop => packetStep_view D hw hr hfit s op hf hop) hf hops

variable {env₀ : Env} {f₀ f : MemFunction} {pCap : AmMemCap}

/-- Creation succeeds in one way only. -/
theorem asscaDevice_of_create (h : amCreateAsscaDevice env₀ f₀ pCap = (amRetGood, f)) :
    f = asscaDevice env₀ f₀ pCap := by
  unfold amCreateAsscaDevice at h
  split at h
  · split at h
    · exact (Prod.mk.inj h).2.symm
    · exact absurd (Prod.mk.inj h).1 (by decide)
  · exact absurd (Prod.mk.inj h).1 (by decide)

theorem ready_asscaDevice (h : b.direct env₀.flags = true) :
    Ready b (asscaDevice env₀ f₀ pCap).crResp (asscaDevice env₀ f₀ pCap) where
  sizes := ⟨rfl, rfl⟩
  writeOp := rfl
  readOp := rfl
  data := ⟨_, rfl, rfl, rfl, h⟩

theorem asscaDevice_acOps (env₀ : Env) (f₀ : MemFunction) (pCap : AmMemCap) :
    amNetGetPacktype ((asscaDevice env₀ f₀ pCap).crResp.acOps acopWrite) = 5 ∧
      amNetGetPacktype ((asscaDevice env₀ f₀ pCap).crResp.acOps acopRead) = 5 := by
  simp only [asscaDevice, acopWrite, acopRead]
  decide

theorem ready_setMapped :
    Ready b (asscaDevice env₀ f₀ pCap).crResp (asscaDevice env₀ f₀ pCap).setMapped where
  sizes := ⟨rfl, rfl⟩
  writeOp := rfl
  readOp := rfl
  data := ⟨_, rfl, rfl, rfl, Build.direct_mapped _ _⟩

end Equivalence

end AppMem.Assca
