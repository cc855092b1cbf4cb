import AppMem.Assca.LastWrite
import AppMem.Cells.AnyPath
import AppMem.Net.PacketFit

/-! # The accesses for sizes of four bytes

`am_pack_write32_align` and `am_pack_read32_align` take the place of the general accesses where
index and value have four bytes. A write announces and sends one byte more, because its size counts
the padding of a structure; the handlers take from a packet what they need, and look at no size.
Over a transport that delivers, all of them come back: on an array with memory, and on a flat memory
or a static array within it.
-/
namespace AppMem.Net
open Library.Bytes Library.Checked Abi Memory Hash Pack Device Assca Cells Target

section Requests
variable {σ : Type} (ac : PackAc σ) (pFunc : ClientFunc) (pTx : PackAll) (p1 p2 : List UInt8)

/-- A write of four bytes and four bytes that announces `txSize`. -/
def wordRequest (txSize : UInt32) : Exec PackAll := do
  let key ← readBytes p1 4
  let pTx ← (fillWrap pFunc pTx amPackAlign amOpWriteAlign txSize).write 0 key
  let data ← readBytes p2 4
  pTx.write 4 data

def write32Request : Exec PackAll := wordRequest pFunc pTx p1 p2 17

theorem amPackWrite32Align_eq (s : σ) : amPackWrite32Align ac pFunc s p1 p2 =
    ac.getFreeIop s >>= fun r => write32Request pFunc r.2 p1 p2 >>= fun pTx =>
      ac.sendAndWait r.1 pTx 17 >>= fun r => .ok (r.1, ⟨r.2.error, p2⟩) := by
  simp only [amPackWrite32Align, write32Request, wordRequest, bind_assoc]
  rfl

def readExchange (s : σ) : Exec (σ × Completion) :=
  ac.getFreeIop s >>= fun r => readRequest pFunc r.2 p1 >>= fun pTx =>
    ac.sendAndWait r.1 pTx (readSize pFunc)

/-- What a read makes of the end of its transaction; `short` is the code for a response without a
whole value. -/
def readBack (short : AmReturn) (dataSize : ℕ) (c : Completion) : Exec AlignResult :=
  if c.error = amRetGood then
    if sizeofWrapper + dataSize ≤ c.respBytes.toNat then do
      let data ← readBytes c.pRx.body dataSize
      let p2 ← writeBytes p2 data
      return ⟨amRetGood, p2⟩
    else return ⟨short, p2⟩
  else return ⟨c.error, p2⟩

theorem amPackReadAlign_back (s : σ) : amPackReadAlign ac pFunc s p1 p2 =
    readExchange ac pFunc p1 s >>= fun r =>
      readBack p2 amRetIoErr pFunc.crResp.dataSize.toNat r.2 >>= fun a => .ok (r.1, a) := by
  simp only [amPackReadAlign_eq, readExchange, bind_assoc]
  congr 1
  funext r
  congr 1
  funext pTx
  congr 1
  funext r
  unfold readBack
  split
  · split
    · simp only [bind_assoc]
      rfl
    · rfl
  · rfl

theorem amPackRead32Align_back (hidx : pFunc.crResp.idxSize = 4) (s : σ) :
    amPackRead32Align ac pFunc s p1 p2 = readExchange ac pFunc p1 s >>= fun r =>
      readBack p2 amRetIoUnderrun 4 r.2 >>= fun a => .ok (r.1, a) := by
  have hsize : readSize pFunc = 12 := by
    rw [readSize, hidx]
    rfl
  have hkey : pFunc.crResp.idxSize.toNat = 4 := by
    rw [hidx]
    rfl
  simp only [amPackRead32Align, readExchange, readRequest, hsize, hkey, bind_assoc]
  congr 1
  funext r
  congr 1
  funext key
  congr 1
  funext pTx
  congr 1
  funext r
  have htest : (12 ≤ r.2.respBytes) ↔ sizeofWrapper + 4 ≤ r.2.respBytes.toNat :=
    UInt32.le_iff_toNat_le
  unfold readBack
  split
  · simp only [htest]
    split
    · simp only [bind_assoc]
      rfl
    · rfl
  · rfl

end Requests

section Agreement
variable (pFunc : ClientFunc) (f : MemFunction) (p1 p2 : List UInt8)

/-- Both reads come back good with the same value, or both with an error and no value. -/
def SameRead (r32 r : AlignResult) : Prop :=
  (r32.error = amRetGood ∧ r.error = amRetGood ∧ r32.p2 = r.p2) ∨
    (r32.error ≠ amRetGood ∧ r.error ≠ amRetGood ∧ r32.p2 = p2 ∧ r.p2 = p2)

/-- The two reads do the same over every transport, whatever it delivers. -/
def ReadsAgree : Prop :=
  ∀ (σ : Type) (ac : PackAc σ) (s : σ),
    (∃ e, amPackRead32Align ac pFunc s p1 p2 = .error e ∧
      amPackReadAlign ac pFunc s p1 p2 = .error e) ∨
    ∃ s' r32 r, amPackRead32Align ac pFunc s p1 p2 = .ok (s', r32) ∧
      amPackReadAlign ac pFunc s p1 p2 = .ok (s', r) ∧ SameRead p2 r32 r

/-- The function, the code and the length of the response after a packet was handled. -/
def outcome (r : MemFunction × Processed) : MemFunction × AmReturn × UInt32 :=
  (r.1, r.2.error, r.2.txBytes)

/-- The target does the same for two requests of 17 and of 16 bytes, whatever frames it receives them
in and whatever was in these. -/
def SameEffect (req32 req : PackAll) : Prop :=
  ∀ b env rx32 rx resp32 resp stale32 stale, Frame.AgreeUpTo 17 rx32 req32 →
    Frame.AgreeUpTo 16 rx req →
    (processDevice b env f rx32 resp32 stale32).map outcome =
      (processDevice b env f rx resp stale).map outcome

/-- Both requests are sent, the target does the same for them, and both writes return what the same
response says. -/
def WritesAgree : Prop :=
  ∀ pTx, ∃ req32 req, write32Request pFunc pTx p1 p2 = .ok req32 ∧
    writeRequest pFunc pTx p1 p2 = .ok req ∧ SameEffect f req32 req ∧
    ∀ (σ : Type) (ac : PackAc σ) (s s₁ s32 s' : σ) (c : Completion),
      ac.getFreeIop s = .ok (s₁, pTx) → ac.sendAndWait s₁ req32 17 = .ok (s32, c) →
      ac.sendAndWait s₁ req 16 = .ok (s', c) →
      amPackWrite32Align ac pFunc s p1 p2 = .ok (s32, ⟨c.error, p2⟩) ∧
        amPackWriteAlign ac pFunc s p1 p2 = .ok (s', ⟨c.error, p2⟩)

end Agreement

section Reads
variable {pFunc : ClientFunc} {p1 p2 : List UInt8}

/-- The end of a transaction means the same to both reads. -/
theorem readBack_agree (p2 : List UInt8) (c : Completion) :
    (∃ e, readBack p2 amRetIoUnderrun 4 c = .error e ∧ readBack p2 amRetIoErr 4 c = .error e) ∨
    ∃ r32 r, readBack p2 amRetIoUnderrun 4 c = .ok r32 ∧ readBack p2 amRetIoErr 4 c = .ok r ∧
      SameRead p2 r32 r := by
  have hunderrun : amRetIoUnderrun ≠ amRetGood := by decide
  have hio : amRetIoErr ≠ amRetGood := by decide
  unfold readBack
  by_cases hgood : c.error = amRetGood
  · rw [if_pos hgood, if_pos hgood]
    by_cases hlong : sizeofWrapper + 4 ≤ c.respBytes.toNat
    · rw [if_pos hlong, if_pos hlong]
      -- the same copy of the value
      cases hcopy : (readBytes c.pRx.body 4 >>= fun data => writeBytes p2 data >>= fun p2 =>
          (.ok ⟨amRetGood, p2⟩ : Exec AlignResult)) with
      | error e => exact .inl ⟨e, hcopy, hcopy⟩
      | ok r =>
        have hr : r.error = amRetGood := by
          simp only [bind_eq_ok] at hcopy
          obtain ⟨_, -, _, -, hr⟩ := hcopy
          cases hr
          rfl
        exact .inr ⟨r, r, hcopy, hcopy, .inl ⟨hr, hr, rfl⟩⟩
    · rw [if_neg hlong, if_neg hlong]
      exact .inr ⟨_, _, rfl, rfl, .inr ⟨hunderrun, hio, rfl, rfl⟩⟩
  · rw [if_neg hgood, if_neg hgood]
    exact .inr ⟨_, _, rfl, rfl, .inr ⟨hgood, hgood, rfl, rfl⟩⟩

theorem readsAgree (hidx : pFunc.crResp.idxSize = 4) (hdata : pFunc.crResp.dataSize = 4)
    (p1 p2 : List UInt8) : ReadsAgree pFunc p1 p2 := by
  intro σ ac s
  have hsize : pFunc.crResp.dataSize.toNat = 4 := by
    rw [hdata]
    rfl
  rw [amPackRead32Align_back ac pFunc p1 p2 hidx, amPackReadAlign_back, hsize]
  cases readExchange ac pFunc p1 s with
  | error e => exact .inl ⟨e, rfl, rfl⟩
  | ok r =>
    rw [ok_bind, ok_bind]
    rcases readBack_agree p2 r.2 with ⟨e, h32, h⟩ | ⟨r32, r', h32, h, hsame⟩
    · rw [h32, h]
      exact .inl ⟨e, rfl, rfl⟩
    · rw [h32, h]
      exact .inr ⟨r.1, r32, r', rfl, rfl, hsame⟩

end Reads

section Writes
variable {b : Build} {env : Env} {pFunc : ClientFunc} {f : MemFunction} {h : DeviceHandler}
  {c : PackCall} {pTx rx req : PackAll} {resp : PackResp} {stale n : UInt32}
  {p1 p2 p1' p2' : List UInt8}

/-- What a handler that was selected makes of a packet, but for the contents of the response. -/
theorem processDevice_outcome
    (hsel : amPackSelect (some f.hdr) rx (echoWrap rx resp) = .ok (.call h c (some n))) :
    (processDevice b env f rx resp stale).map outcome =
      invokeDevice b env h c f >>= fun r => require (r.2.out.length ≤ bodySize) Fault.bounds >>=
        fun _ => .ok (r.1, if r.2.error ≠ amRetGood then (r.2.error, sizeofRespErr.toUInt32)
          else (amRetGood, n)) := by
  rw [processDevice, amPackProcessCmd_call hsel]
  cases invokeDevice b env h c f with
  | error e => rfl
  | ok r =>
    rw [ok_bind, ok_bind]
    by_cases hfit : r.2.out.length ≤ bodySize
    · obtain ⟨g, hg, -⟩ := (echoWrap rx resp).write_of_le 0 r.2.out (by rwa [Nat.zero_add])
      rw [hg, ok_bind, require_of_true Fault.bounds hfit, ok_bind]
      by_cases hgood : r.2.error ≠ amRetGood
      · rw [if_pos hgood, if_pos hgood]
        rfl
      · rw [if_neg hgood, if_neg hgood]
        rfl
    · rw [require_of_false Fault.bounds hfit, Frame.write, dif_neg (by rwa [Nat.zero_add])]
      rfl

/-- A function with sizes of four bytes, in any state: the client and the table know the same sizes.
What the two arrays and flat memory hold does not matter. -/
structure FastFunc (pFunc : ClientFunc) (f : MemFunction) : Prop where
  idxSize : pFunc.crResp.idxSize = 4
  dataSize : pFunc.crResp.dataSize = 4
  target : f.crResp.idxSize = 4
  write : ∃ h, f.pfnOps ⟨amOpWriteAlign.toNat, by decide⟩ = some h ∧
    (h = .amFlatWrite32Align ∨ h = .amStataWriteIdx32 ∨ h = .amAsscaWrite32Align)
  lens : ∀ fd, f.pVdF = some (.assca fd) → fd.data.keyLen = 4 ∧ fd.data.dataLen = 4

/-- Every function that the target creates with these sizes is one, after any calls. -/
theorem TargetFunc.fastFunc {cap : AmMemCap} (hf : TargetFunc cap f) (hcap : capSizes cap = (4, 4))
    (hidx : pFunc.crResp.idxSize = f.crResp.idxSize)
    (hdata : pFunc.crResp.dataSize = f.crResp.dataSize) : FastFunc pFunc f := by
  have hsizes := hf.sizes.trans hcap
  have hi : f.crResp.idxSize = 4 := congrArg Prod.fst hsizes
  have hd : f.crResp.dataSize = 4 := congrArg Prod.snd hsizes
  cases hf.kind with
  | stata fd ht hdat hw hr =>
    refine ⟨hidx.trans hi, hdata.trans hd, hi, ⟨_, hw, .inr (.inl rfl)⟩, fun fd' hfd' => ?_⟩
    cases hdat.symm.trans hfd'
  | flat fd ht hdat hw hr =>
    refine ⟨hidx.trans hi, hdata.trans hd, hi, ⟨_, hw, .inl rfl⟩, fun fd' hfd' => ?_⟩
    cases hdat.symm.trans hfd'
  | assca fd hs ht hdat hk hl hw hr =>
    refine ⟨hidx.trans hi, hdata.trans hd, hi, ⟨_, hw, .inr (.inr rfl)⟩, fun fd' hfd' => ?_⟩
    cases hdat.symm.trans hfd'
    rw [hcap] at hk hl
    exact ⟨hk, hl⟩

theorem get32FromUser_congr (b : Build) (flags : UInt32) (h : SamePrefix 4 p2 p2') :
    get32FromUser b flags p2 = get32FromUser b flags p2' := by
  simp only [get32FromUser, h.readBytes (Nat.le_refl 4), h.1, h.2]

/-- A write handler takes four bytes from behind each pointer. -/
theorem FastFunc.invoke_congr (F : FastFunc pFunc f)
    (hh : h = .amFlatWrite32Align ∨ h = .amStataWriteIdx32 ∨ h = .amAsscaWrite32Align)
    (h1 : SamePrefix 4 p1 p1') (h2 : SamePrefix 4 p2 p2') :
    invokeDevice b env h (.align p1 p2) f = invokeDevice b env h (.align p1' p2') f := by
  have hkey := h1.readBytes (Nat.le_refl 4)
  have hval := h2.readBytes (Nat.le_refl 4)
  rcases hh with rfl | rfl | rfl
  · simp only [invokeDevice, amFlatWrite32Align, readU32, hkey, cellFromUser,
      get32FromUser_congr b _ h2]
  · simp only [invokeDevice, amStataWriteIdx32, readU32, hkey, cellFromUser,
      get32FromUser_congr b _ h2]
  · simp only [invokeDevice, amAsscaWrite32Align, asscaAccess]
    split
    · rfl
    · rename_i fd hfd
      obtain ⟨hk, hd⟩ := F.lens fd hfd
      have hkey' : readBytes p1 fd.data.keyLen.toNat = readBytes p1' fd.data.keyLen.toNat := by
        rw [hk]
        exact hkey
      have hval' : readBytes p2 fd.data.dataLen.toNat = readBytes p2' fd.data.dataLen.toNat := by
        rw [hd]
        exact hval
      rw [amlibAsscaAddKeyFixfix_congr hkey' hval']
    · rfl

theorem wordRequest_of_le (pFunc : ClientFunc) (pTx : PackAll) (n : UInt32) (h1 : 4 ≤ p1.length)
    (h2 : 4 ≤ p2.length) : ∃ req, wordRequest pFunc pTx p1 p2 n = .ok req ∧
      req.wrap = (fillWrap pFunc pTx amPackAlign amOpWriteAlign n).wrap ∧
      req.body.take 8 = p1.take 4 ++ p2.take 4 := by
  have hk : (p1.take 4).length = 4 := List.length_take_of_le h1
  have hd : (p2.take 4).length = 4 := List.length_take_of_le h2
  obtain ⟨g, hg, hgw, hgb⟩ := (fillWrap pFunc pTx amPackAlign amOpWriteAlign n).write_of_le 0
    (p1.take 4) (by rw [hk]; decide)
  obtain ⟨req, hreq, hw, hb⟩ := g.write_of_le 4 (p2.take 4) (by rw [hd]; decide)
  refine ⟨req, ?_, hw.trans hgw, ?_⟩
  · rw [wordRequest, readBytes_of_le h1, ok_bind, hg, ok_bind, readBytes_of_le h2, ok_bind, hreq]
  · have hfront : g.body.take 4 = p1.take 4 := by
      rw [hgb, take_splice_front hk.ge, List.take_of_length_le hk.le]
    rw [hb, splice, hfront, List.take_append_of_le_length, List.take_of_length_le]
    · rw [List.length_append, hk, hd]
    · rw [List.length_append, hk, hd]

/-- The general write builds the same request with another size. -/
theorem writeRequest_eq (hidx : pFunc.crResp.idxSize = 4) (hdata : pFunc.crResp.dataSize = 4) :
    writeRequest pFunc pTx p1 p2 = wordRequest pFunc pTx p1 p2 16 := by
  simp only [writeRequest, wordRequest, writeSize, hidx, hdata]
  rfl

theorem take_of_agree {m : ℕ} (hm : 16 ≤ m) (h : Frame.AgreeUpTo m rx req) :
    rx.body.take 8 = req.body.take 8 := by
  have ht := congrArg (List.take 8) h.2
  simp only [sizeofWrapper, List.take_take] at ht
  rwa [Nat.min_eq_left (by omega : 8 ≤ m - 8)] at ht

theorem FastFunc.writesAgree (F : FastFunc pFunc f) (h1 : 4 ≤ p1.length) (h2 : 4 ≤ p2.length) :
    WritesAgree pFunc f p1 p2 := by
  intro pTx
  obtain ⟨req32, hreq32, hw32, hb32⟩ := wordRequest_of_le pFunc pTx 17 h1 h2
  obtain ⟨req, hreq, hw, hb⟩ := wordRequest_of_le pFunc pTx 16 h1 h2
  have hreq' : writeRequest pFunc pTx p1 p2 = .ok req := by
    rw [writeRequest_eq F.idxSize F.dataSize, hreq]
  refine ⟨req32, req, hreq32, hreq', ?_, ?_⟩
  · intro b env rx32 rx resp32 resp stale32 stale hrx32 hrx
    obtain ⟨h, hslot, hh⟩ := F.write
    have hidx : f.crResp.idxSize.toNat = 4 := by
      rw [F.target]
      rfl
    have hsel32 : amPackSelect (some f.hdr) rx32 (echoWrap rx32 resp32) = _ :=
      select_write hslot (by rw [hrx32.1, hw32]; rfl) (by rw [hrx32.1, hw32]; rfl)
    have hsel : amPackSelect (some f.hdr) rx (echoWrap rx resp) = _ :=
      select_write hslot (by rw [hrx.1, hw]; rfl) (by rw [hrx.1, hw]; rfl)
    have hbody : SamePrefix (4 + 4) rx32.body rx.body := by
      refine ⟨rx32.length_body.trans rx.length_body.symm, ?_⟩
      rw [take_of_agree (by decide) hrx32, take_of_agree (by decide) hrx, hb32, hb]
    rw [processDevice_outcome hsel32, processDevice_outcome hsel, hidx,
      F.invoke_congr hh (hbody.mono (by decide)) hbody.drop]
  · intro σ ac s s₁ s32 s' c hfree hsend32 hsend
    have hsize : writeSize pFunc = 16 := by
      rw [writeSize, F.idxSize, F.dataSize]
      rfl
    constructor
    · rw [amPackWrite32Align_eq, hfree, ok_bind, write32Request, hreq32, ok_bind, hsend32, ok_bind]
    · rw [amPackWriteAlign_eq, hfree, ok_bind, hreq', ok_bind, hsize, hsend, ok_bind]

end Writes

section Deliveries
variable (b : Build) (env : Env) (pFunc : ClientFunc) (f : MemFunction) (p1 p2 : List UInt8)

/-- Over every transport that delivers, both writes come back good and leave `g` at its end. -/
def WritesReturn (g : MemFunction) : Prop :=
  ∀ (σ : Type) (ac : PackAc σ) (stale : UInt32) (view : σ → MemFunction) (s : σ),
    Delivers ac (serveDevice b env stale) view → view s = f → ∃ s32 s',
      amPackWrite32Align ac pFunc s p1 p2 = .ok (s32, ⟨amRetGood, p2⟩) ∧
      amPackWriteAlign ac pFunc s p1 p2 = .ok (s', ⟨amRetGood, p2⟩) ∧ view s32 = g ∧ view s' = g

/-- Over every transport that delivers, both reads come back with `r`. -/
def ReadsReturn (r : AlignResult) : Prop :=
  ∀ (σ : Type) (ac : PackAc σ) (stale : UInt32) (view : σ → MemFunction) (s : σ),
    Delivers ac (serveDevice b env stale) view → view s = f → ∃ s32 s',
      amPackRead32Align ac pFunc s p1 p2 = .ok (s32, r) ∧
      amPackReadAlign ac pFunc s p1 p2 = .ok (s', r)

/-- The accesses to an array that holds the writes of `log` come back with memory: a write unless
the table breaks down as it grows, a read with the value that shows or with `AM_RET_KEY_NOT_FOUND`. -/
def ArrayReturns : Prop :=
  ∀ b env fd g log, env.Ample → Ready b pFunc.crResp f → f.pVdF = some (.assca fd) →
    Stored 4 4 fd.flags fd g log →
    (∀ s, stamp (g, log) (p1.take 4, p2.take 4) = some s → ∃ fd',
      WritesReturn b env pFunc f p1 p2 { f with pVdF := some (.assca fd') } ∧
        Stored 4 4 fd.flags fd' s.1 s.2) ∧
    ReadsReturn b env pFunc f p1 p2 (answer true (visible g.doublings log (p1.take 4)) p2)

/-- The accesses to a cell inside a flat memory or a static array come back. -/
def CellsReturn : Prop :=
  ∀ b env (t : CellType) mem, t.storage f = some mem →
    t.cell (u32OfBytes p1).toNat + 4 ≤ mem.length →
    (f.pfnOps ⟨amOpWriteAlign.toNat, by decide⟩ = some t.writeAl →
      WritesReturn b env pFunc f p1 p2
        (t.setStorage f (splice mem (t.cell (u32OfBytes p1).toNat) (p2.take 4)))) ∧
    (f.pfnOps ⟨amOpReadAlign.toNat, by decide⟩ = some t.readAl → f.crResp.dataSize = 4 →
      ReadsReturn b env pFunc f p1 p2
        ⟨amRetGood, splice p2 0 (window mem (t.cell (u32OfBytes p1).toNat) 4)⟩)

end Deliveries

section Returns
variable {b : Build} {env : Env} {pFunc : ClientFunc} {f g : MemFunction} {p1 p2 : List UInt8}
  {r : AlignResult}

/-- The two writes differ in the size they send. -/
theorem WritesReturn.of_sizes (F : FastFunc pFunc f)
    (h : ∀ (σ : Type) (ac : PackAc σ) (stale : UInt32) (view : σ → MemFunction) (s : σ),
      Delivers ac (serveDevice b env stale) view → view s = f → ∀ txSize : UInt32,
        16 ≤ txSize.toNat → txSize.toNat ≤ maxBasicPackUnionSize →
        (packWriteWith ac pFunc s p1 p2 txSize 4 4).map (Prod.map view id) =
          .ok (g, ⟨amRetGood, p2⟩)) : WritesReturn b env pFunc f p1 p2 g := by
  intro σ ac stale view s D hs
  have hsize : ∀ txSize : UInt32, 16 ≤ txSize.toNat → txSize.toNat ≤ maxBasicPackUnionSize →
      ∃ s', packWriteWith ac pFunc s p1 p2 txSize 4 4 = .ok (s', ⟨amRetGood, p2⟩) ∧
        view s' = g := by
    intro txSize hlo hhi
    obtain ⟨⟨s', r⟩, hok, heq⟩ :=
      except_map_eq_ok.mp (h σ ac stale view s D hs txSize hlo hhi)
    cases heq
    exact ⟨s', hok, rfl⟩
  obtain ⟨s32, h32, hv32⟩ := hsize 17 (by decide) (by decide)
  obtain ⟨s', h16, hv⟩ := hsize 16 (by decide) (by decide)
  refine ⟨s32, s', h32, ?_, hv32, hv⟩
  have hgen : amPackWriteAlign ac pFunc s p1 p2 =
      packWriteWith ac pFunc s p1 p2 (8 + pFunc.crResp.dataSize + pFunc.crResp.idxSize)
        pFunc.crResp.idxSize.toNat pFunc.crResp.dataSize.toNat := rfl
  rw [hgen, F.idxSize, F.dataSize]
  exact h16

/-- The two reads differ in the code for a response that is too short. -/
theorem ReadsReturn.of_sizes (F : FastFunc pFunc f)
    (h : ∀ (σ : Type) (ac : PackAc σ) (stale : UInt32) (view : σ → MemFunction) (s : σ),
      Delivers ac (serveDevice b env stale) view → view s = f → ∀ short : AmReturn,
        (packReadWith ac pFunc s p1 p2 12 4 4 short).map (Prod.map view id) = .ok (g, r)) :
    ReadsReturn b env pFunc f p1 p2 r := by
  intro σ ac stale view s D hs
  have hshort : ∀ short : AmReturn, ∃ s', packReadWith ac pFunc s p1 p2 12 4 4 short =
      .ok (s', r) := by
    intro short
    obtain ⟨⟨s', r⟩, hok, heq⟩ := except_map_eq_ok.mp (h σ ac stale view s D hs short)
    cases heq
    exact ⟨s', hok⟩
  obtain ⟨s32, h32⟩ := hshort amRetIoUnderrun
  obtain ⟨s', h4⟩ := hshort amRetIoErr
  refine ⟨s32, s', (amPackRead32Align_eq ac pFunc s p1 p2).trans h32, ?_⟩
  have hgen : amPackReadAlign ac pFunc s p1 p2 = packReadWith ac pFunc s p1 p2
      (8 + pFunc.crResp.idxSize) pFunc.crResp.idxSize.toNat pFunc.crResp.dataSize.toNat
      amRetIoErr := rfl
  rw [hgen, F.idxSize, F.dataSize]
  exact h4

theorem FastFunc.arrayReturns (F : FastFunc pFunc f) (h1 : 4 ≤ p1.length) (h2 : 4 ≤ p2.length) :
    ArrayReturns pFunc f p1 p2 := by
  intro b env fd g log henv hready hf S
  have hidx : pFunc.crResp.idxSize.toNat = 4 := congrArg UInt32.toNat F.idxSize
  have hdata : pFunc.crResp.dataSize.toNat = 4 := congrArg UInt32.toNat F.dataSize
  have hdirect : b.direct fd.flags = true := by
    obtain ⟨fd', hf', -, -, hb⟩ := hready.data
    rw [hf] at hf'
    cases hf'
    exact hb
  have hkey : pFunc.crResp.idxSize.toNat ≤ p1.length := hidx.trans_le h1
  have hval : pFunc.crResp.dataSize.toNat ≤ p2.length := hdata.trans_le h2
  constructor
  · intro s hs
    have hstep := S.write henv hf (w := (p1, p2)) h1 h2
    rw [hs] at hstep
    obtain ⟨fd', hw, S'⟩ := hstep
    refine ⟨fd', WritesReturn.of_sizes F ?_, S'⟩
    intro σ ac stale view s₀ D hs₀ txSize hlo hhi
    have hview := packWriteWith_view D (hs₀ ▸ hready) txSize (by rw [hidx, hdata]; exact hlo) hhi
      hkey hval
    rw [hidx, hdata, hs₀, directStep, hw] at hview
    exact hview
  · obtain ⟨f', hread⟩ : ∃ f', directStep b env f (.read p1 p2) =
        .ok (f', answer (b.direct fd.flags) (visible g.doublings log (p1.take 4)) p2) :=
      S.read hf h1 h2
    rw [hdirect] at hread
    refine ReadsReturn.of_sizes F (g := f') ?_
    intro σ ac stale view s₀ D hs₀ short
    have hview := packReadWith_view D (hs₀ ▸ hready) 12 short p2 (by rw [hidx]; decide) (by decide)
      (by rw [hdata]; decide) hkey
    rw [hidx, hdata, hs₀, hread] at hview
    exact hview

theorem FastFunc.cellsReturn (F : FastFunc pFunc f) (h1 : 4 ≤ p1.length) (h2 : 4 ≤ p2.length) :
    CellsReturn pFunc f p1 p2 := by
  intro b env t mem hmem hin
  have hidx : f.crResp.idxSize.toNat = 4 := congrArg UInt32.toNat F.target
  have hsame : ∀ body : List UInt8, body.take 4 = p1.take 4 → u32OfBytes body = u32OfBytes p1 :=
    fun body h => u32OfBytes_congr (Nat.le_refl 4) h
  have hlong : ∀ body : List UInt8, body.length = bodySize → 8 ≤ body.length := by
    intro body h
    rw [h]
    decide
  constructor
  · intro hslot
    refine WritesReturn.of_sizes F ?_
    intro σ ac stale view s D hs txSize hlo hhi
    subst hs
    rw [packWriteWith_of_handler D hslot hidx txSize hlo hhi h1 h2 (R := .ok (t.setStorage (view s)
      (splice mem (t.cell (u32OfBytes p1).toNat) (p2.take 4))))]
    · rfl
    · intro body hb hkey hval
      have hroom : 4 ≤ (body.drop 4).length := by
        rw [List.length_drop]
        have hlen := hlong body hb
        omega
      have hlen : 4 ≤ body.length := (by decide : 4 ≤ 8).trans (hlong body hb)
      rw [writeAl_of_room hmem hlen hroom (by rw [hsame body hkey]; exact hin), hsame body hkey,
        hval]
      rfl
  · intro hslot hdata
    have hsize : f.crResp.dataSize.toNat = 4 := congrArg UInt32.toNat hdata
    refine ReadsReturn.of_sizes F (g := f) ?_
    intro σ ac stale view s D hs short
    subst hs
    rw [packReadWith_of_handler D hslot hsize 12 short p2
      (by decide : sizeofWrapper + 4 ≤ (12 : UInt32).toNat) (by decide) (by decide) h1 (R := .ok (view s, {
        error := amRetGood
        out := window mem (t.cell (u32OfBytes p1).toNat) 4 })), ok_bind, writeBytes_of_le]
    · rfl
    · exact (length_window hin).trans_le h2
    · intro body answer hb ha hkey
      have hlen : 4 ≤ body.length := (by decide : 4 ≤ 8).trans (hlong body hb)
      have hroom : 4 ≤ answer.length := (by decide : 4 ≤ 8).trans (hlong answer ha)
      rw [← hsame body hkey] at hin ⊢
      exact readAl_of_room hmem hlen hroom hin
    · intro g v hv
      cases hv
      exact .inr ⟨rfl, length_window hin⟩

/-- The accesses for four bytes agree with the general ones, and where the handlers come back, so do
both. -/
theorem fastPath_agrees (F : FastFunc pFunc f) (h1 : 4 ≤ p1.length) (h2 : 4 ≤ p2.length) :
    (WritesAgree pFunc f p1 p2 ∧ ReadsAgree pFunc p1 p2) ∧
      ArrayReturns pFunc f p1 p2 ∧ CellsReturn pFunc f p1 p2 :=
  ⟨⟨F.writesAgree h1 h2, readsAgree F.idxSize F.dataSize p1 p2⟩, F.arrayReturns h1 h2,
    F.cellsReturn h1 h2⟩

def fourBytesCap : AmMemCap := { asscaCaps with typeSpecific := typeSpecifics [4, 4, 1, 1] }

def fourBytesClient : ClientFunc := ⟨0, (newDevice .zeroed (.blank 0) fourBytesCap).crResp⟩

theorem fastFunc_fourBytes :
    FastFunc fourBytesClient (newDevice .zeroed (.blank 0) fourBytesCap) :=
  (TargetFunc.created .zeroed 0).fastFunc rfl rfl rfl

def fourBytesLink : NetLink MemFunction :=
  ⟨.zero, .zero, .zero, .zero, newDevice .zeroed (.blank 0) fourBytesCap⟩

theorem fastPath_agrees_fourBytes :
    (WritesAgree fourBytesClient (newDevice .zeroed (.blank 0) fourBytesCap) [1, 0, 0, 0]
        [2, 0, 0, 0] ∧
      ReadsAgree fourBytesClient [1, 0, 0, 0] [2, 0, 0, 0]) ∧
    ∃ fd s32 s', fd.data.items = [⟨[1, 0, 0, 0], [2, 0, 0, 0]⟩] ∧
      amPackWrite32Align (netPackAc (serveDevice .user .zeroed 0)) fourBytesClient fourBytesLink
        [1, 0, 0, 0] [2, 0, 0, 0] = .ok (s32, ⟨amRetGood, [2, 0, 0, 0]⟩) ∧
      amPackWriteAlign (netPackAc (serveDevice .user .zeroed 0)) fourBytesClient fourBytesLink
        [1, 0, 0, 0] [2, 0, 0, 0] = .ok (s', ⟨amRetGood, [2, 0, 0, 0]⟩) ∧
      s32.target.pVdF = some (.assca fd) ∧ s'.target.pVdF = some (.assca fd) := by
  obtain ⟨hagree, harray, -⟩ := fastPath_agrees fastFunc_fourBytes
    (by decide : 4 ≤ ([1, 0, 0, 0] : List UInt8).length)
    (by decide : 4 ≤ ([2, 0, 0, 0] : List UInt8).length)
  refine ⟨hagree, ?_⟩
  obtain ⟨fd, hfd, S⟩ := stored_asscaDevice .zeroed (.blank 0) fourBytesCap
  obtain ⟨s, hs⟩ := Option.isSome_iff_exists.mp
    (by decide : (stamp (Growth.start, []) ([1, 0, 0, 0], [2, 0, 0, 0])).isSome)
  obtain ⟨fd', hwrites, S'⟩ := (harray .user .zeroed fd Growth.start [] Env.zeroed_ample
    (ready_asscaDevice rfl) hfd (S.flags.symm ▸ S)).1 s hs
  obtain ⟨s32, s', h32, h16, hv32, hv⟩ := hwrites _ (netPackAc (serveDevice .user .zeroed 0)) 0
    NetLink.target fourBytesLink (netPackAc_delivers _) rfl
  refine ⟨fd', s32, s', ?_, h32, h16, congrArg MemFunction.pVdF hv32, congrArg MemFunction.pVdF hv⟩
  obtain ⟨g, -, hg⟩ := Option.map_eq_some_iff.mp hs
  rw [S'.items, ← hg]
  rfl

end Returns

end AppMem.Net
