import AppMem.Assca.PacketPath
import AppMem.Device.PacketSizes
import AppMem.Device.Written
import AppMem.Net.CreateFunction
import AppMem.Target.Routing

/-! # Packets that fit their buffers

The sizes of a function are chosen when it is created, and from then on they are lengths of
copies on both sides of the network. Nobody compares them with the size of a packet: an access
stays inside the buffers as long as wrapper, key and value do.
-/
namespace AppMem.Net
open Library.Bytes Library.Checked Abi Memory Pack Device Assca Target

section Requests
variable {σ : Type} (ac : PackAc σ) (pFunc : ClientFunc) (pTx : PackAll) (p1 p2 : List UInt8)

/-- `tx_size` of a write and of a read. -/
def writeSize : UInt32 := 8 + pFunc.crResp.dataSize + pFunc.crResp.idxSize
def readSize : UInt32 := 8 + pFunc.crResp.idxSize

def writeRequest : Exec PackAll := do
  let key ← readBytes p1 pFunc.crResp.idxSize.toNat
  let pTx ← (fillWrap pFunc pTx amPackAlign amOpWriteAlign (writeSize pFunc)).write 0 key
  let data ← readBytes p2 pFunc.crResp.dataSize.toNat
  pTx.write pFunc.crResp.idxSize.toNat data

def readRequest : Exec PackAll := do
  let key ← readBytes p1 pFunc.crResp.idxSize.toNat
  (fillWrap pFunc pTx amPackAlign amOpReadAlign (readSize pFunc)).write 0 key

theorem amPackWriteAlign_eq (s : σ) : amPackWriteAlign ac pFunc s p1 p2 =
    ac.getFreeIop s >>= fun r => writeRequest pFunc r.2 p1 p2 >>= fun pTx =>
      ac.sendAndWait r.1 pTx (writeSize pFunc) >>= fun r => .ok (r.1, ⟨r.2.error, p2⟩) := by
  simp only [amPackWriteAlign, writeRequest, writeSize, bind_assoc]
  rfl

theorem amPackReadAlign_eq (s : σ) : amPackReadAlign ac pFunc s p1 p2 =
    ac.getFreeIop s >>= fun r => readRequest pFunc r.2 p1 >>= fun pTx =>
      ac.sendAndWait r.1 pTx (readSize pFunc) >>= fun r =>
        if r.2.error = amRetGood then
          if sizeofWrapper + pFunc.crResp.dataSize.toNat ≤ r.2.respBytes.toNat then
            readBytes r.2.pRx.body pFunc.crResp.dataSize.toNat >>= fun data =>
              writeBytes p2 data >>= fun p2 => .ok (r.1, ⟨amRetGood, p2⟩)
          else .ok (r.1, ⟨amRetIoErr, p2⟩)
        else .ok (r.1, ⟨r.2.error, p2⟩) := by
  simp only [amPackReadAlign, readRequest, readSize, bind_assoc]
  rfl

end Requests

section Fits
variable (pFunc : ClientFunc) (f : MemFunction)

/-- The target selects a handler for the packet that looks at no memory behind what its pointers
lead to, and its answer fits the response. -/
def ServedInside (rx : PackAll) (resp : PackResp) : Prop :=
  ∃ h p1 p2 tx, amPackSelect (some f.hdr) rx (echoWrap rx resp) = .ok (.call h (.align p1 p2) tx) ∧
    ∀ env, (∀ b1 b2, invokeDevice .user env h (.align (p1 ++ b1) (p2 ++ b2)) f =
      invokeDevice .user env h (.align p1 p2) f) ∧
    ∀ g r, invokeDevice .user env h (.align p1 p2) f = .ok (g, r) → r.out.length ≤ bodySize

/-- A request of `n` bytes: its length is in the wrapper, and whatever frame the target receives
it in and whatever frame the answer goes to, both are kept to. -/
def Carried (req : PackAll) (n : UInt32) : Prop :=
  req.wrap.size.toUInt32 = n ∧
    ∀ rx resp, Frame.AgreeUpTo n.toNat rx req → ServedInside f rx resp

/-- A write is refused before anything is sent, or the request is built inside the transmit buffer
and carried out. -/
def WriteFits : Prop :=
  ∀ pTx p1 p2, pFunc.crResp.idxSize.toNat ≤ p1.length → pFunc.crResp.dataSize.toNat ≤ p2.length →
    (∃ e, e ≠ amRetGood ∧ ∀ (σ : Type) (ac : PackAc σ) (s s' : σ), ac.getFreeIop s = .ok (s', pTx) →
      amPackWriteAlign ac pFunc s p1 p2 = .ok (s', ⟨e, p2⟩)) ∨
    ∃ req, writeRequest pFunc pTx p1 p2 = .ok req ∧ Carried f req (writeSize pFunc)

def ReadFits : Prop :=
  ∀ pTx p1 p2, pFunc.crResp.idxSize.toNat ≤ p1.length → pFunc.crResp.dataSize.toNat ≤ p2.length →
    (∃ e, e ≠ amRetGood ∧ ∀ (σ : Type) (ac : PackAc σ) (s s' : σ), ac.getFreeIop s = .ok (s', pTx) →
      amPackReadAlign ac pFunc s p1 p2 = .ok (s', ⟨e, p2⟩)) ∨
    ∃ req, readRequest pFunc pTx p1 = .ok req ∧ Carried f req (readSize pFunc)

def PacketsFit : Prop := WriteFits pFunc f ∧ ReadFits pFunc f

end Fits

section Target
variable {c : AmMemCap} {f g : MemFunction} {env : Env} {h : DeviceHandler} {r : Served}

/-- `idx_size` and `data_size` of a function, as the creators take them from a capability. -/
def capSizes (c : AmMemCap) : UInt32 × UInt32 :=
  if c.amType = amTypeStaticArray then
    (c.typeSpecific tsStatArrayIdxByteSize, c.typeSpecific tsStatArrayValMaxSize)
  else if c.amType = amTypeFlatMem then
    (c.typeSpecific tsFlatAddressByteSize, c.typeSpecific tsFlatAddressByteSize)
  else (c.typeSpecific tsAsscaKeyMaxSize, c.typeSpecific tsAsscaDataMaxSize)

def advertisedCap (c : AmMemCap) : AmMemCap :=
  if c.amType = amTypeStaticArray then stataCaps
  else if c.amType = amTypeFlatMem then flatCaps
  else asscaCaps

def AdvertisedSizes (c : AmMemCap) : Prop :=
  (capSizes c).1 ≤ (capSizes (advertisedCap c)).1 ∧ (capSizes c).2 ≤ (capSizes (advertisedCap c)).2

instance (c : AmMemCap) : Decidable (AdvertisedSizes c) := inferInstanceAs (Decidable (_ ∧ _))

/-- A function that the target created for a capability, after any calls of its handlers. -/
inductive TargetFunc (c : AmMemCap) : MemFunction → Prop
  | created (env : Env) (handle : UInt32) : TargetFunc c (newDevice env (.blank handle) c)
  | called {b : Build} {env : Env} {h : DeviceHandler} {call : PackCall} {f g : MemFunction}
    {r : Served} (hf : TargetFunc c f) (h : invokeDevice b env h call f = .ok (g, r)) :
    TargetFunc c g

/-- The three kinds of function, and what their handlers take from a packet. -/
inductive TargetKind (c : AmMemCap) (f : MemFunction) : Prop
  | stata (fd : StataData) (ht : c.amType = amTypeStaticArray) (hf : f.pVdF = some (.stata fd))
    (hw : f.pfnOps ⟨amOpWriteAlign.toNat, by decide⟩ = some .amStataWriteIdx32)
    (hr : f.pfnOps ⟨amOpReadAlign.toNat, by decide⟩ = some .amStataReadIdx32)
  | flat (fd : FlatData) (ht : c.amType = amTypeFlatMem) (hf : f.pVdF = some (.flat fd))
    (hw : f.pfnOps ⟨amOpWriteAlign.toNat, by decide⟩ = some .amFlatWrite32Align)
    (hr : f.pfnOps ⟨amOpReadAlign.toNat, by decide⟩ = some .amFlatRead32Align)
  | assca (fd : AsscaData) (hs : c.amType ≠ amTypeStaticArray) (ht : c.amType ≠ amTypeFlatMem)
    (hf : f.pVdF = some (.assca fd)) (hk : fd.data.keyLen = (capSizes c).1)
    (hd : fd.data.dataLen = (capSizes c).2)
    (hw : f.pfnOps ⟨amOpWriteAlign.toNat, by decide⟩ = some .amAsscaWrite32Align)
    (hr : f.pfnOps ⟨amOpReadAlign.toNat, by decide⟩ = some .amAsscaRead32Align)

theorem TargetFunc.kind (hf : TargetFunc c f) : TargetKind c f := by
  induction hf with
  | created env handle =>
    unfold newDevice
    by_cases hs : c.amType = amTypeStaticArray
    · rw [if_pos hs]
      exact .stata _ hs rfl rfl rfl
    · rw [if_neg hs]
      by_cases ht : c.amType = amTypeFlatMem
      · rw [if_pos ht]
        exact .flat _ ht rfl rfl rfl
      · rw [if_neg ht]
        refine .assca _ hs ht rfl ?_ ?_ rfl rfl
        · rw [capSizes, if_neg hs, if_neg ht]
          rfl
        · rw [capSizes, if_neg hs, if_neg ht]
          rfl
  | called _ h ih =>
    have hsame := invokeDevice_same h
    have hops := congrArg MemFunction.pfnOps hsame.rest
    cases ih with
    | stata fd ht hf hw hr =>
      obtain ⟨fd', hfd'⟩ := hsame.stata fd hf
      exact .stata fd' ht hfd' (hops ▸ hw) (hops ▸ hr)
    | flat fd ht hf hw hr =>
      obtain ⟨fd', hfd'⟩ := hsame.flat fd hf
      exact .flat fd' ht hfd' (hops ▸ hw) (hops ▸ hr)
    | assca fd hs ht hf hk hd hw hr =>
      obtain ⟨fd', hfd', hk', hd'⟩ := invokeDevice_lengths hf h
      exact .assca fd' hs ht hfd' (hk'.trans hk) (hd'.trans hd) (hops ▸ hw) (hops ▸ hr)

theorem TargetFunc.sizes (hf : TargetFunc c f) :
    (f.crResp.idxSize, f.crResp.dataSize) = capSizes c := by
  induction hf with
  | created env handle =>
    unfold newDevice capSizes
    split
    · rfl
    · split
      · rfl
      · rfl
  | called _ h ih => rw [(invokeDevice_same h).rest, ← ih]

theorem length_out_le {p1 p2 : List UInt8}
    (hi : invokeDevice .user env h (.align p1 p2) f = .ok (g, r)) :
    r.out.length ≤ max 4 f.dataLen := by
  by_cases hgood : r.error = amRetGood
  · obtain ⟨hw, -⟩ := deviceWrites_of_good hi hgood
    generalize r.out.length = n at hw ⊢
    cases hw with
    | asscaRead fd p1 p2 key t hd item hf =>
      rw [MemFunction.dataLen, hf]
      exact Nat.le_max_right _ _
    | _ => omega
  · obtain ⟨hserved, -⟩ := (deviceRefuses_of_error hi hgood).served
    have hout : r.out = [] :=
      congrArg (fun q => q.2.out) (Except.ok.inj (hi.symm.trans hserved))
    rw [hout]
    exact Nat.zero_le _

def SizesFit (c : AmMemCap) : Prop :=
  sizeofWrapper + (capSizes c).1.toNat + (capSizes c).2.toNat ≤ maxBasicPackUnionSize

instance (c : AmMemCap) : Decidable (SizesFit c) := inferInstanceAs (Decidable (_ ≤ _))

theorem inside_of_cells {w r : DeviceHandler} {n : ℕ} (hn : n ≤ 15) (hlen : f.dataLen = 0)
    (hw : f.pfnOps ⟨amOpWriteAlign.toNat, by decide⟩ = some w)
    (hr : f.pfnOps ⟨amOpReadAlign.toNat, by decide⟩ = some r)
    (hwrite : w.indexBytes f = 4 ∧ w.dataBytes f = 4)
    (hread : r.indexBytes f = 4 ∧ r.dataBytes f = 0) :
    f.dataLen ≤ bodySize ∧
    (∃ h, f.pfnOps ⟨amOpWriteAlign.toNat, by decide⟩ = some h ∧ h.indexBytes f ≤ bodySize ∧
      n + h.dataBytes f ≤ bodySize) ∧
    ∃ h, f.pfnOps ⟨amOpReadAlign.toNat, by decide⟩ = some h ∧ h.indexBytes f ≤ bodySize ∧
      h.dataBytes f = 0 := by
  simp only [bodySize]
  exact ⟨by omega, ⟨w, hw, by omega, by omega⟩, r, hr, by omega, hread.2⟩

/-- What a handler takes from a packet of a fitting size lies inside the frame. -/
theorem TargetFunc.inside (hf : TargetFunc c f) (hadv : AdvertisedSizes c) (hfit : SizesFit c) :
    f.dataLen ≤ bodySize ∧
    (∃ h, f.pfnOps ⟨amOpWriteAlign.toNat, by decide⟩ = some h ∧ h.indexBytes f ≤ bodySize ∧
      f.crResp.idxSize.toNat + h.dataBytes f ≤ bodySize) ∧
    ∃ h, f.pfnOps ⟨amOpReadAlign.toNat, by decide⟩ = some h ∧ h.indexBytes f ≤ bodySize ∧
      h.dataBytes f = 0 := by
  have hidx : f.crResp.idxSize = (capSizes c).1 := congrArg Prod.fst hf.sizes
  have hadv' := UInt32.le_iff_toNat_le.mp hadv.1
  simp only [SizesFit, sizeofWrapper, maxBasicPackUnionSize] at hfit
  rw [hidx]
  cases hf.kind with
  | stata fd ht hf hw hr =>
    have hmax : (capSizes (advertisedCap c)).1.toNat = 15 := by
      rw [advertisedCap, if_pos ht]
      rfl
    rw [hmax] at hadv'
    have hlen : f.dataLen = 0 := by rw [MemFunction.dataLen, hf]
    exact inside_of_cells hadv' hlen hw hr ⟨rfl, rfl⟩ ⟨rfl, rfl⟩
  | flat fd ht hf hw hr =>
    have hmax : (capSizes (advertisedCap c)).1.toNat = 15 := by
      have hne : ¬ c.amType = amTypeStaticArray := by
        rw [ht]
        decide
      rw [advertisedCap, if_neg hne, if_pos ht]
      rfl
    rw [hmax] at hadv'
    have hlen : f.dataLen = 0 := by rw [MemFunction.dataLen, hf]
    exact inside_of_cells hadv' hlen hw hr ⟨rfl, rfl⟩ ⟨rfl, rfl⟩
  | assca fd hs ht hf hk hd hw hr =>
    have hkey : f.keyLen = (capSizes c).1.toNat := by rw [MemFunction.keyLen, hf, ← hk]
    have hdata : f.dataLen = (capSizes c).2.toNat := by rw [MemFunction.dataLen, hf, ← hd]
    rw [hdata]
    refine ⟨?_, ⟨_, hw, ?_, ?_⟩, _, hr, ?_, rfl⟩
    · simp only [bodySize]
      omega
    · simp only [DeviceHandler.indexBytes, bodySize, hkey]
      omega
    · simp only [DeviceHandler.dataBytes, bodySize, hdata]
      omega
    · simp only [DeviceHandler.indexBytes, bodySize, hkey]
      omega

end Target

section Bounds
variable {c : AmMemCap} {pFunc : ClientFunc} {f : MemFunction} {pTx req : PackAll}
  {p1 p2 : List UInt8}

/-- The client and the target have the same sizes, those of the capability. -/
structure SameSizes (c : AmMemCap) (pFunc : ClientFunc) (f : MemFunction) : Prop where
  idxSize : pFunc.crResp.idxSize = (capSizes c).1
  dataSize : pFunc.crResp.dataSize = (capSizes c).2
  func : TargetFunc c f

theorem writeRequest_eq_ok (h : writeRequest pFunc pTx p1 p2 = .ok req)
    (h1 : pFunc.crResp.idxSize.toNat ≤ p1.length) (h2 : pFunc.crResp.dataSize.toNat ≤ p2.length) :
    pFunc.crResp.idxSize.toNat + pFunc.crResp.dataSize.toNat ≤ bodySize ∧
      req.wrap = (fillWrap pFunc pTx amPackAlign amOpWriteAlign (writeSize pFunc)).wrap := by
  rw [writeRequest, readBytes_of_le h1, ok_bind, bind_eq_ok] at h
  rcases h with ⟨g, hg, h⟩
  rw [readBytes_of_le h2, ok_bind] at h
  rcases Frame.write_eq_ok.mp h with ⟨hle, hw, -⟩
  rw [List.length_take_of_le h2] at hle
  exact ⟨hle, hw.trans (Frame.write_eq_ok.mp hg).2.1⟩

theorem writeRequest_of_le (pTx : PackAll) (h1 : pFunc.crResp.idxSize.toNat ≤ p1.length)
    (h2 : pFunc.crResp.dataSize.toNat ≤ p2.length)
    (hfit : pFunc.crResp.idxSize.toNat + pFunc.crResp.dataSize.toNat ≤ bodySize) :
    ∃ req, writeRequest pFunc pTx p1 p2 = .ok req := by
  obtain ⟨g, hg, -⟩ :=
    (fillWrap pFunc pTx amPackAlign amOpWriteAlign (writeSize pFunc)).write_of_le 0
      (p1.take pFunc.crResp.idxSize.toNat) (by rw [List.length_take_of_le h1]; omega)
  obtain ⟨req, hreq, -⟩ := g.write_of_le pFunc.crResp.idxSize.toNat
    (p2.take pFunc.crResp.dataSize.toNat) (by rw [List.length_take_of_le h2]; exact hfit)
  refine ⟨req, ?_⟩
  rw [writeRequest, readBytes_of_le h1, ok_bind, hg, ok_bind, readBytes_of_le h2, ok_bind, hreq]

theorem readRequest_of_le (pTx : PackAll) (h1 : pFunc.crResp.idxSize.toNat ≤ p1.length)
    (hfit : pFunc.crResp.idxSize.toNat ≤ bodySize) :
    ∃ req, readRequest pFunc pTx p1 = .ok req ∧
      req.wrap = (fillWrap pFunc pTx amPackAlign amOpReadAlign (readSize pFunc)).wrap := by
  obtain ⟨req, hreq, hw, -⟩ :=
    (fillWrap pFunc pTx amPackAlign amOpReadAlign (readSize pFunc)).write_of_le 0
      (p1.take pFunc.crResp.idxSize.toNat) (by rw [List.length_take_of_le h1]; omega)
  exact ⟨req, by rw [readRequest, readBytes_of_le h1, ok_bind, hreq], hw⟩

/-- The code has no check that could refuse a write. -/
theorem not_writeRefused (pFunc : ClientFunc) (pTx : PackAll) (p1 p2 : List UInt8) :
    ¬ ∃ e, e ≠ amRetGood ∧ ∀ (σ : Type) (ac : PackAc σ) (s s' : σ),
      ac.getFreeIop s = .ok (s', pTx) → amPackWriteAlign ac pFunc s p1 p2 = .ok (s', ⟨e, p2⟩) := by
  rintro ⟨e, -, h⟩
  -- over a transport that never comes back
  have hcall := h Unit ⟨fun _ => .ok ((), pTx), fun _ _ _ => .error .hang⟩ () () rfl
  rw [amPackWriteAlign_eq, ok_bind] at hcall
  cases hreq : writeRequest pFunc pTx p1 p2 with
  | error fault =>
    rw [hreq] at hcall
    cases hcall
  | ok req =>
    rw [hreq] at hcall
    cases hcall

theorem toUInt16_toUInt32_of_le {n : UInt32} (h : n.toNat ≤ maxBasicPackUnionSize) :
    n.toUInt16.toUInt32 = n := by
  simp only [maxBasicPackUnionSize] at h
  apply UInt32.toNat_inj.mp
  rw [UInt16.toNat_toUInt32, UInt32.toNat_toUInt16]
  omega

/-- A handler that was selected keeps to what its pointers lead to. -/
theorem servedInside_of_select {h : DeviceHandler} {rx : PackAll} {resp : PackResp}
    {q1 q2 : List UInt8} {tx : Option UInt32} (hlen : f.dataLen ≤ bodySize)
    (hsel : amPackSelect (some f.hdr) rx (echoWrap rx resp) = .ok (.call h (.align q1 q2) tx))
    (h1 : h.indexBytes f ≤ q1.length) (h2 : h.dataBytes f ≤ q2.length) :
    ServedInside f rx resp := by
  refine ⟨h, q1, q2, tx, hsel, fun env => ⟨fun b1 b2 => ?_, fun g r hi => ?_⟩⟩
  · exact invokeDevice_align_append h1 h2 b1 b2
  · have hout := length_out_le hi
    simp only [bodySize] at hlen ⊢
    omega

theorem SameSizes.writeFits (S : SameSizes c pFunc f) (hadv : AdvertisedSizes c)
    (hfit : SizesFit c) : WriteFits pFunc f := by
  obtain ⟨hlen, ⟨h, hslot, hindex, hdata⟩, -⟩ := S.func.inside hadv hfit
  simp only [SizesFit, sizeofWrapper, maxBasicPackUnionSize] at hfit
  intro pTx p1 p2 h1 h2
  obtain ⟨req, hreq⟩ := writeRequest_of_le pTx h1 h2 (by
    rw [S.idxSize, S.dataSize]
    simp only [bodySize]
    omega)
  obtain ⟨-, hw⟩ := writeRequest_eq_ok hreq h1 h2
  have hsize : (writeSize pFunc).toNat ≤ maxBasicPackUnionSize := by
    rw [writeSize, S.idxSize, S.dataSize, UInt32.toNat_add, UInt32.toNat_add]
    simp only [UInt32.reduceToNat, maxBasicPackUnionSize]
    omega
  refine .inr ⟨req, hreq, ?_, fun rx resp hrx => ?_⟩
  · rw [hw]
    exact toUInt16_toUInt32_of_le hsize
  · have ht : rx.wrap.packType = amPackAlign := by
      rw [hrx.1, hw]
      rfl
    have ho : rx.wrap.op = amOpWriteAlign := by
      rw [hrx.1, hw]
      rfl
    apply servedInside_of_select hlen (select_write hslot ht ho)
    · rw [rx.length_body]
      exact hindex
    · rw [List.length_drop, rx.length_body]
      omega

theorem SameSizes.readFits (S : SameSizes c pFunc f) (hadv : AdvertisedSizes c)
    (hfit : SizesFit c) : ReadFits pFunc f := by
  obtain ⟨hlen, -, ⟨h, hslot, hindex, hdata⟩⟩ := S.func.inside hadv hfit
  simp only [SizesFit, sizeofWrapper, maxBasicPackUnionSize] at hfit
  intro pTx p1 p2 h1 h2
  obtain ⟨req, hreq, hw⟩ := readRequest_of_le pTx h1 (by
    rw [S.idxSize]
    simp only [bodySize]
    omega)
  have hsize : (readSize pFunc).toNat ≤ maxBasicPackUnionSize := by
    rw [readSize, S.idxSize, UInt32.toNat_add]
    simp only [UInt32.reduceToNat, maxBasicPackUnionSize]
    omega
  refine .inr ⟨req, hreq, ?_, fun rx resp hrx => ?_⟩
  · rw [hw]
    exact toUInt16_toUInt32_of_le hsize
  · have ht : rx.wrap.packType = amPackAlign := by
      rw [hrx.1, hw]
      rfl
    have ho : rx.wrap.op = amOpReadAlign := by
      rw [hrx.1, hw]
      rfl
    apply servedInside_of_select hlen (select_read hslot ht ho)
    · rw [rx.length_body]
      exact hindex
    · rw [hdata]
      exact Nat.zero_le _

theorem SameSizes.fits_iff (S : SameSizes c pFunc f) (hadv : AdvertisedSizes c) :
    PacketsFit pFunc f ↔ SizesFit c := by
  constructor
  · rintro ⟨hwrite, -⟩
    have h1 : pFunc.crResp.idxSize.toNat ≤
        (List.replicate pFunc.crResp.idxSize.toNat (0 : UInt8)).length :=
      List.length_replicate.ge
    have h2 : pFunc.crResp.dataSize.toNat ≤
        (List.replicate pFunc.crResp.dataSize.toNat (0 : UInt8)).length :=
      List.length_replicate.ge
    obtain hrefused | ⟨req, hreq, -⟩ := hwrite .zero _ _ h1 h2
    · exact absurd hrefused (not_writeRefused _ _ _ _)
    · obtain ⟨hle, -⟩ := writeRequest_eq_ok hreq h1 h2
      rw [S.idxSize, S.dataSize] at hle
      simp only [SizesFit, sizeofWrapper, maxBasicPackUnionSize, bodySize] at hle ⊢
      omega
  · exact fun hfit => ⟨S.writeFits hadv hfit, S.readFits hadv hfit⟩

end Bounds

section Creation
variable {n : ℕ} {env : Env} {stale : UInt32} {sent : AmReturn} {l l' : RowLink (RowTarget n)}
  {pCap : List UInt8} {pFunc nf : NetFunc} {c : AmMemCap} {f : MemFunction}

theorem amNetWaitResult_errorReply {m : ℕ} (e : AmReturn) (row : Row n) (rx : Row m) :
    amNetWaitResult (rx.receive ((errorReply e row).resp.raw.take
      (errorReply e row).txBytes.toNat)).head = e := by
  have hraw : (errorReply e row).resp.raw.take (errorReply e row).txBytes.toNat =
      (errorReply e row).resp.wrap.bytes ++ (errorReply e row).resp.rest.take 4 :=
    Row.take_raw _ (by change 8 ≤ 12; omega)
  have hstatus : (errorReply e row).resp.rest.take 4 = statusBytes e :=
    (take_splice_front (length_statusBytes e).ge).trans
      (List.take_of_length_le (length_statusBytes e).le)
  have hcut : (statusBytes e).take (bodySize + m * maxBasicPackUnionSize) = statusBytes e := by
    apply List.take_of_length_le
    rw [length_statusBytes]
    simp only [bodySize]
    omega
  obtain ⟨hw, hr⟩ := rx.receive_append (errorReply e row).resp.wrap (statusBytes e)
  rw [hcut] at hr
  rw [hraw, hstatus]
  refine (amNetWaitResult_congr (b := (errorResp e row.head).resp) hw ?_).trans
    (amNetWaitResult_errorResp e row.head)
  have hbody : ((errorResp e row.head).resp.body).take 4 = statusBytes e :=
    (take_splice_front (length_statusBytes e).ge).trans
      (List.take_of_length_le (length_statusBytes e).le)
  have hle : 4 ≤ bodySize := by decide
  rw [hbody, Row.head, List.take_take, Nat.min_eq_left hle, hr,
    take_splice_front (length_statusBytes e).ge,
    List.take_of_length_le (length_statusBytes e).le]

/-- When the client is told that all is well the target has created a function. -/
theorem amNetCreateFunction_good (hbase : l.target.table.slots 0 = .base)
    (hx : amNetCreateFunction (serveRow env stale) sent l pCap pFunc = .ok (l', amRetGood, nf)) :
    sent = amRetGood ∧ 188 ≤ pCap.length ∧
      ∃ r, amTargCreateFunction env l.target.table pCap = .ok (l'.target.table, r) ∧
        r.error = amRetGood := by
  have hlen : 188 ≤ pCap.length := by
    by_contra hshort
    rw [amNetCreateFunction, createRequest_of_lt (Nat.not_le.mp hshort)] at hx
    cases hx
  have hsent : sent = amRetGood := by
    by_contra hne
    obtain ⟨x, hx', hret⟩ := amNetCreateFunction_unsent env stale l pFunc hlen hne
    rw [hx] at hx'
    cases hx'
    exact hne hret.symm
  subst hsent
  refine ⟨rfl, hlen, ?_⟩
  obtain ⟨pTx, hreq, hw, hb⟩ := createRequest_of_le l.tx hlen
  unfold amNetCreateFunction at hx
  rw [hreq, ok_bind, bind_eq_ok] at hx
  rcases hx with ⟨⟨l₁, cpl⟩, hex, hx⟩
  dsimp only at hx
  -- the exchange came back good, and it is what the client reports
  have hgood : l₁ = l' ∧ cpl.error = amRetGood := by
    split at hx
    · rename_i hgood
      simp only [bind_eq_ok] at hx
      rcases hx with ⟨_, -, _, -, hx⟩
      exact ⟨congrArg Prod.fst (Except.ok.inj hx), hgood⟩
    · rename_i hbad
      exact absurd (congrArg (fun q => q.2.1) (Except.ok.inj hx)) hbad
  obtain ⟨rfl, hgood⟩ := hgood
  have hsend : sendTo pTx (188 : UInt32).toNat = .ok (pTx.datagram 188) := rfl
  unfold amNetExchange at hex
  rw [hsend, ok_bind, if_neg (not_not.mpr rfl), bind_eq_ok] at hex
  rcases hex with ⟨⟨s', d⟩, hserve, hex⟩
  rw [bind_eq_ok] at hex
  rcases hex with ⟨_, -, hex⟩
  cases hex
  -- the target's side
  unfold serveRow at hserve
  rw [bind_eq_ok] at hserve
  rcases hserve with ⟨_, -, hserve⟩
  dsimp only at hserve
  rw [bind_eq_ok] at hserve
  rcases hserve with ⟨⟨t', reply⟩, hproc, hserve⟩
  simp only [bind_eq_ok] at hserve
  rcases hserve with ⟨_, -, _, -, hserve⟩
  cases hserve
  obtain ⟨hsw, hsb⟩ := Frame.agreeUpTo_receive l.target.slot pTx (n := 188) (by decide) (by decide)
  rw [amTargProcessRow_fivo env l.target.resp stale (h := .amTargCreateFunction) hbase (by decide)
    rfl (hsw.trans hw), invokeBase,
    amTargCreateFunction_congr (le_trans (by decide) hlen) (createRequest_payload hsb hb),
    bind_eq_ok] at hproc
  rcases hproc with ⟨⟨t₁, r⟩, hcreate, hproc⟩
  rw [bind_eq_ok] at hproc
  rcases hproc with ⟨row, -, hproc⟩
  dsimp only at hproc
  split at hproc
  · rename_i hbad
    cases hproc
    exact absurd ((amNetWaitResult_errorReply r.error row l.rx).symm.trans hgood) hbad
  · rename_i hok
    cases hproc
    exact ⟨r, hcreate, not_not.mp hok⟩

def NetFunc.client (nf : NetFunc) : ClientFunc := ⟨nf.handle, CrResp.ofBytes nf.record.crResp⟩

/-- A function of the target after any calls of its handlers. -/
inductive AfterCalls (f₀ : MemFunction) : MemFunction → Prop
  | refl : AfterCalls f₀ f₀
  | step {b : Build} {env : Env} {h : DeviceHandler} {call : PackCall} {f g : MemFunction}
    {r : Served} (hf : AfterCalls f₀ f) (h : invokeDevice b env h call f = .ok (g, r)) :
    AfterCalls f₀ g

theorem AfterCalls.targetFunc {f₀ : MemFunction} (h₀ : TargetFunc c f₀) (hf : AfterCalls f₀ f) :
    TargetFunc c f := by
  induction hf with
  | refl => exact h₀
  | step _ h ih => exact ih.called h

/-- What a good creation leaves behind on both sides. -/
theorem sameSizes_of_create {f₀ : MemFunction} {i : Fin amTargetMaxFunctions}
    (hbase : l.target.table.slots 0 = .base)
    (hx : amNetCreateFunction (serveRow env stale) sent l pCap pFunc = .ok (l', amRetGood, nf))
    (hfree : l.target.table.slots i = .null) (hslot : l'.target.table.slots i = .device f₀)
    (hf : AfterCalls f₀ f) : SameSizes (.ofBytes (pCap.take sizeofMemCap)) nf.client f := by
  obtain ⟨rfl, hlen, r, hcreate, hgood⟩ := amNetCreateFunction_good hbase hx
  generalize hc : AmMemCap.ofBytes (pCap.take sizeofMemCap) = c
  obtain ⟨-, j, hj, rfl⟩ := amTargCreateFunction_slot hcreate hgood
  have hij : i = j := by
    by_contra hne
    rw [hj, FuncTable.set_of_ne hne, hfree] at hslot
    cases hslot
  subst hij
  rw [hj, FuncTable.set_self, hc] at hslot
  cases hslot
  have hfunc := hf.targetFunc (.created env (slotHandle i))
  obtain ⟨x, hx', -, hcr⟩ := amNetCreateFunction_crResp stale pFunc hbase hcreate hgood hlen
  cases hx.symm.trans hx'
  rw [hc] at hcr
  have hfront : (newDevice env (.blank (slotHandle i)) c).crResp.bytes.take 352 =
      announcedFront (newDevice env (.blank (slotHandle i)) c).crResp :=
    List.take_left' (length_announcedFront _)
  obtain ⟨hdata, hidx, -⟩ := announced_sizes (newDevice env (.blank (slotHandle i)) c).crResp _
    (hcr.trans (congrArg (· ++ _) hfront))
  have hsizes := (TargetFunc.created (c := c) env (slotHandle i)).sizes
  exact ⟨hidx.trans (congrArg Prod.fst hsizes), hdata.trans (congrArg Prod.snd hsizes), hfunc⟩

/-- Both accesses of a function that was created over the network keep to the buffers of client and
target just when wrapper, index and value fit one frame. -/
theorem packetsFit_iff {f₀ : MemFunction} {i : Fin amTargetMaxFunctions}
    (hbase : l.target.table.slots 0 = .base)
    (hx : amNetCreateFunction (serveRow env stale) sent l pCap pFunc = .ok (l', amRetGood, nf))
    (hadv : AdvertisedSizes (.ofBytes (pCap.take sizeofMemCap)))
    (hfree : l.target.table.slots i = .null) (hslot : l'.target.table.slots i = .device f₀)
    (hf : AfterCalls f₀ f) :
    PacketsFit nf.client f ↔ SizesFit (.ofBytes (pCap.take sizeofMemCap)) :=
  (sameSizes_of_create hbase hx hfree hslot hf).fits_iff hadv

/-- A capability of an array with keys and values of these sizes, and what follows it in memory. -/
def asscaRequest (keySize dataSize : UInt32) : List UInt8 :=
  AmMemCap.bytes { asscaCaps with typeSpecific := typeSpecifics [keySize, dataSize, 1, 1] } ++
    List.replicate 20 0

theorem length_asscaRequest (keySize dataSize : UInt32) :
    188 ≤ (asscaRequest keySize dataSize).length := by
  rw [asscaRequest, List.length_append, AmMemCap.length_bytes, List.length_replicate]
  decide

theorem exists_created (hlen : 188 ≤ pCap.length)
    (hret : (amTargCreateFunction .zeroed freshLink.target.table pCap).map (fun q => q.2.error) =
      .ok amRetGood) : ∃ l' nf i f₀,
    amNetCreateFunction (serveRow .zeroed 0) amRetGood freshLink pCap newFunc =
      .ok (l', amRetGood, nf) ∧
    freshLink.target.table.slots i = .null ∧ l'.target.table.slots i = .device f₀ := by
  have hbase : freshLink.target.table.slots 0 = .base := rfl
  cases hcreate : amTargCreateFunction .zeroed freshLink.target.table pCap with
  | error e =>
    rw [hcreate] at hret
    cases hret
  | ok q =>
    rw [hcreate] at hret
    have hgood : q.2.error = amRetGood := Except.ok.inj hret
    obtain ⟨⟨l', e, nf⟩, hx, rfl, -⟩ :=
      amNetCreateFunction_crResp 0 newFunc hbase hcreate hgood hlen
    obtain ⟨-, -, r, hcreate', hgood'⟩ := amNetCreateFunction_good hbase hx
    rcases amTargCreateFunction_created hcreate' with ⟨hbad, -⟩ | ⟨i, c, hi, -, -, ht⟩
    · exact absurd hgood' hbad
    · have hslot : l'.target.table.slots i =
          .device (createDevice .zeroed (.blank (slotHandle i)) c).2 := by
        rw [ht, FuncTable.set_self]
      exact ⟨l', nf, i, _, hx, hi, hslot⟩

theorem packetsFit_iff_fourBytes : ∃ nf f₀,
    PacketsFit (NetFunc.client nf) f₀ ↔ SizesFit (.ofBytes ((asscaRequest 4 4).take sizeofMemCap)) := by
  obtain ⟨l', nf, i, f₀, hx, hfree, hslot⟩ :=
    exists_created (length_asscaRequest 4 4) (by decide +kernel)
  exact ⟨nf, f₀, packetsFit_iff rfl hx (by decide +kernel) hfree hslot .refl⟩

/-- Keys of four bytes and values of 504, which are advertised, need four bytes more than a
transmit buffer has. -/
theorem not_packetsFit : ¬ ∀ (n : ℕ) (env : Env) (stale : UInt32) (sent : AmReturn)
    (l l' : RowLink (RowTarget n)) (pCap : List UInt8) (pFunc nf : NetFunc) (f₀ f : MemFunction)
    (i : Fin amTargetMaxFunctions), l.target.table.slots 0 = .base →
    amNetCreateFunction (serveRow env stale) sent l pCap pFunc = .ok (l', amRetGood, nf) →
    AdvertisedSizes (.ofBytes (pCap.take sizeofMemCap)) → l.target.table.slots i = .null →
    l'.target.table.slots i = .device f₀ → AfterCalls f₀ f → PacketsFit nf.client f := by
  intro h
  obtain ⟨l', nf, i, f₀, hx, hfree, hslot⟩ :=
    exists_created (length_asscaRequest 4 504) (by decide +kernel)
  have hadv : AdvertisedSizes (.ofBytes ((asscaRequest 4 504).take sizeofMemCap)) := by
    decide +kernel
  have hfit := h 1 .zeroed 0 amRetGood freshLink l' _ newFunc nf f₀ f₀ i rfl hx hadv hfree hslot .refl
  rw [(sameSizes_of_create rfl hx hfree hslot .refl).fits_iff hadv] at hfit
  revert hfit
  decide +kernel

end Creation

end AppMem.Net
