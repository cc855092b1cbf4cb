import AppMem.Assca.PacketPath
import AppMem.Device.PacketSizes
import AppMem.Driver.ClientStatus

/-! # Packet writes to the driver

A write of `am_kd_fixed_write_packet`: the command on the client's stack, its length as a number of
quadwords in the command code, eight bytes more in the driver, and the array behind it. The longest
packets that fit the command of the client do not fit that of the driver.
-/
namespace AppMem.Driver
open Library.Bytes Library.Checked Abi Memory Pack Device Assca

section Codes
variable (nr : UInt8)

theorem toNat_appmemdOpPacket : (appmemdOpPacket nr).toNat = 0xC0044B00 ||| nr.toNat := by
  rw [appmemdOpPacket, UInt32.toNat_or, UInt8.toNat_toUInt32]
  rfl

theorem iocNr_appmemdOpPacket : iocNr (appmemdOpPacket nr) = nr.toNat := by
  have hnr : nr.toNat < 2 ^ 8 := nr.toNat_lt
  have hmask : (0xFF : UInt32).toNat = 2 ^ 8 - 1 := rfl
  rw [iocNr, UInt32.toNat_and, toNat_appmemdOpPacket, hmask, Nat.and_two_pow_sub_one_eq_mod,
    Nat.or_mod_two_pow, Nat.mod_eq_of_lt hnr]
  exact Nat.zero_or _

theorem iocType_appmemdOpPacket : iocType (appmemdOpPacket nr) = appmemdIocMagic := by
  have hnr : nr.toNat < 2 ^ 8 := nr.toNat_lt
  have hmask : (0xFF : UInt32).toNat = 2 ^ 8 - 1 := rfl
  have hshift : nr.toNat >>> 8 = 0 := by
    rw [Nat.shiftRight_eq_div_pow]
    exact Nat.div_eq_of_lt hnr
  apply UInt32.toNat_inj.mp
  rw [iocType, UInt32.toNat_and, UInt32.toNat_shiftRight, toNat_appmemdOpPacket, hmask,
    Nat.and_two_pow_sub_one_eq_mod]
  have height : (8 : UInt32).toNat % 32 = 8 := rfl
  rw [height, Nat.shiftRight_or_distrib, hshift, Nat.or_zero]
  rfl

end Codes

section Announcement
variable {g : KdFunc} {r : CrResp}

structure SizesOf (g : KdFunc) (r : CrResp) : Prop where
  idxSize : g.idxSize = r.idxSize
  dataSize : g.dataSize = r.dataSize
  packDataOffset : g.packDataOffset = r.packDataOffset
  wrPackQwordSize : g.wrPackQwordSize = r.wrPackQwordSize

theorem sizesOf_of_bytes (h : g.crResp = r.bytes) : SizesOf g r := by
  obtain ⟨hdata, hidx, htail⟩ := announced_sizes r
    [r.packDataOffset, r.wrPackQwordSize, r.rdPackQwordSize, 0, 0, 0, 0, 0] h
  have hget (i : ℕ) : g.crResp.getD (352 + i) 0 = (g.crResp.drop 352).getD i 0 := by
    rw [List.getD_eq_getElem?_getD, List.getD_eq_getElem?_getD, List.getElem?_drop]
  constructor
  · exact hidx
  · exact hdata
  · exact (hget 0).trans (by rw [htail]; rfl)
  · exact (hget 1).trans (by rw [htail]; rfl)

end Announcement

section Arrays
variable {pCap : AmMemCap} {d : KDevice} {f g : MemFunction}

/-- The function of an array that `am_create_assca_device` made for the driver, once it is
announced and after any calls. -/
inductive ArrayOf (pCap : AmMemCap) : MemFunction → Prop
  | create {env : Env} {f₀ f : MemFunction} (h : amCreateAsscaDevice env f₀ pCap = (amRetGood, f)) :
    ArrayOf pCap f
  | announce {f : MemFunction} (hf : ArrayOf pCap f) (d : KDevice) : ArrayOf pCap (announce d f)
  | call {b : Build} {env : Env} {h : DeviceHandler} {c : PackCall} {f g : MemFunction}
    {r : Served} (hf : ArrayOf pCap f) (h : invokeDevice b env h c f = .ok (g, r)) :
    ArrayOf pCap g

structure ArrayFacts (keyLen dataLen : UInt32) (f : MemFunction) : Prop where
  data : ∃ fd, f.pVdF = some (.assca fd) ∧ fd.data.keyLen = keyLen ∧ fd.data.dataLen = dataLen
  idxSize : f.crResp.idxSize = keyLen
  dataSize : f.crResp.dataSize = dataLen
  offset : f.crResp.packDataOffset = packDataOffset keyLen
  qwords : f.crResp.wrPackQwordSize = wrPackQwordSize keyLen dataLen
  writeOp : f.pfnOps ⟨amOpWriteAlign.toNat, by decide⟩ = some .amAsscaWrite32Align

theorem ArrayOf.facts (h : ArrayOf pCap f) (ht : pCap.amType = amTypeAssocArray) :
    ArrayFacts (pCap.typeSpecific tsAsscaKeyMaxSize) (pCap.typeSpecific tsAsscaDataMaxSize) f := by
  induction h with
  | create h =>
    obtain ⟨-, rfl⟩ := (amCreateAsscaDevice_good_iff ht).mp h
    exact ⟨⟨_, rfl, rfl, rfl⟩, rfl, rfl, rfl, rfl, rfl⟩
  | announce _ d ih => exact ⟨ih.data, ih.idxSize, ih.dataSize, ih.offset, ih.qwords, ih.writeOp⟩
  | call _ h ih =>
    obtain ⟨fd, hfd, hkey, hdata⟩ := ih.data
    obtain ⟨fd', hfd', hkey', hdata'⟩ := invokeDevice_lengths hfd h
    rw [(invokeDevice_same h).rest]
    exact ⟨⟨fd', hfd', hkey'.trans hkey, hdata'.trans hdata⟩, ih.idxSize, ih.dataSize, ih.offset,
      ih.qwords, ih.writeOp⟩

/-- A device for an array: it has taken the sizes from the announcement of its function. -/
structure ArrayDevice (pCap : AmMemCap) (d : KDevice) (f : MemFunction) : Prop where
  capType : pCap.amType = amTypeAssocArray
  func : ArrayOf pCap f
  type : d.amType = amTypeAssocArray
  adopted : d.adopt f = d

theorem arrayDevice_of_create {env : Env} {f₀ : MemFunction} (ht : pCap.amType = amTypeAssocArray)
    (hd : d.amType = amTypeAssocArray) (h : amCreateAsscaDevice env f₀ pCap = (amRetGood, f)) :
    ArrayDevice pCap { d.adopt f with pFunc := some (announce (d.adopt f) f) }
      (announce (d.adopt f) f) := by
  have htype : (d.adopt f).amType = amTypeAssocArray := by
    rw [KDevice.adopt]
    dsimp only
    rw [if_pos hd]
    exact hd
  refine ⟨ht, .announce (.create h) _, htype, ?_⟩
  rw [KDevice.adopt]
  dsimp only
  rw [if_pos htype]
  simp only [KDevice.adopt, hd, if_true, announce]

end Arrays

section Commands
variable {e : KdEnv} {n : ℕ}

theorem fillCmd_of_le (cmd : List UInt8) {off : ℕ} {src : List UInt8}
    (h : off + src.length ≤ sizeofKamCmd) : fillCmd cmd off src = .ok (splice cmd off src) := by
  rw [fillCmd, require_of_true _ h]
  rfl

/-- The operation, the key and the value stand side by side in the command. -/
theorem writePacketCmd_of_fits (e : KdEnv) (g : KdFunc) (p1 p2 : UInt64)
    (h1 : g.idxSize.toNat ≤ (e.ke.user p1).length) (h2 : g.dataSize.toNat ≤ (e.ke.user p2).length)
    (hkey : g.idxSize.toNat ≤ 4 * g.packDataOffset.toNat)
    (hval : 4 + 4 * g.packDataOffset.toNat + g.dataSize.toNat ≤ sizeofKamCmd) :
    ∃ cmd, writePacketCmd e g p1 p2 = .ok cmd ∧ cmd.length = sizeofKamCmd ∧
      window cmd 0 4 = u32Bytes amOpCodeWriteFixPacket ∧
      window cmd 4 g.idxSize.toNat = (e.ke.user p1).take g.idxSize.toNat ∧
      window cmd (4 + 4 * g.packDataOffset.toNat) g.dataSize.toNat =
        (e.ke.user p2).take g.dataSize.toNat := by
  generalize hkl : g.idxSize.toNat = kl at *
  generalize hdl : g.dataSize.toNat = dl at *
  generalize hoff : 4 * g.packDataOffset.toNat = off at *
  have hstack : e.stack.bytes.length = sizeofKamCmd := e.stack.length_bytes
  have hk : ((e.ke.user p1).take kl).length = kl := List.length_take_of_le h1
  have hv : ((e.ke.user p2).take dl).length = dl := List.length_take_of_le h2
  have hop : (u32Bytes amOpCodeWriteFixPacket).length = 4 := length_u32Bytes _
  -- three copies that do not overlap
  have hin₁ : 0 + (u32Bytes amOpCodeWriteFixPacket).length ≤ e.stack.bytes.length := by omega
  let cmd₁ := splice e.stack.bytes 0 (u32Bytes amOpCodeWriteFixPacket)
  have hlen₁ : cmd₁.length = sizeofKamCmd := (length_splice hin₁).trans hstack
  have hin₂ : 4 + ((e.ke.user p1).take kl).length ≤ cmd₁.length := by omega
  let cmd₂ := splice cmd₁ 4 ((e.ke.user p1).take kl)
  have hlen₂ : cmd₂.length = sizeofKamCmd := (length_splice hin₂).trans hlen₁
  have hin₃ : 4 + off + ((e.ke.user p2).take dl).length ≤ cmd₂.length := by omega
  refine ⟨splice cmd₂ (4 + off) ((e.ke.user p2).take dl), ?_, (length_splice hin₃).trans hlen₂,
    ?_, ?_, ?_⟩
  · rw [writePacketCmd, fillCmd_of_le _ (hstack ▸ hin₁), ok_bind, hkl, readBytes_of_le h1, ok_bind,
      fillCmd_of_le _ (hlen₁ ▸ hin₂), ok_bind, hdl, readBytes_of_le h2, ok_bind, hoff,
      fillCmd_of_le _ (hlen₂ ▸ hin₃)]
  · rw [window_splice_of_disjoint hin₃ (by omega), window_splice_of_disjoint hin₂ (by omega)]
    have hw := window_splice hin₁
    rwa [hop] at hw
  · rw [window_splice_of_disjoint hin₃ (by omega)]
    have hw := window_splice hin₂
    rwa [hk] at hw
  · have hw := window_splice hin₃
    rwa [hv] at hw

theorem KamCmd.copyIn_windows (c : KamCmd) {src : List UInt8} (hn : n ≤ sizeofKamCmd)
    (hsrc : n ≤ src.length) : ∃ c', c.copyIn src n = .ok c' ∧
      ∀ off len, off + len ≤ n → window c'.bytes off len = window src off len := by
  refine ⟨_, dif_pos hn, fun off len h => ?_⟩
  have htake : (src.take n).length = n := List.length_take_of_le hsrc
  dsimp only
  rw [htake, Nat.sub_self, List.replicate_zero, List.append_nil, splice_zero,
    window_append_left _ (by rw [htake]; exact h), window_take _ h]

/-- What the driver can read of a command on the stack. -/
theorem KdEnv.block_windows {cmd : List UInt8} (hcmd : cmd.length = sizeofKamCmd)
    (hreach : sizeofKamCmd ≤ e.reach) : sizeofKamCmd ≤ (e.block cmd).length ∧
      ∀ off len, off + len ≤ sizeofKamCmd → window (e.block cmd) off len = window cmd off len := by
  constructor
  · rw [KdEnv.block, List.length_take, List.length_append]
    omega
  · intro off len h
    rw [KdEnv.block, window_take _ (h.trans hreach), window_append_left _ (hcmd.symm ▸ h)]

theorem readBytes_drop {l v : List UInt8} {off : ℕ} (h : off + n ≤ l.length)
    (hw : window l off n = v) : readBytes (l.drop off) n = .ok v := by
  rw [readBytes_of_le (by rw [List.length_drop]; omega), ← hw]
  rfl

end Commands

section Delivery
variable {e : KdEnv} {k : Kernel} {minor : ℕ} {g : KdFunc} {d : KDevice} {f : MemFunction}
  {pCap : AmMemCap} {p1 p2 : UInt64} {c : KamCmd} {n : ℕ}

theorem ArrayDevice.select_write {ke : KEnv} (hd : ArrayDevice pCap d f)
    (hop : c.op = amOpCodeWriteFixPacket) (hn : d.wrPackSize.toNat ≤ n) :
    ioctlSelect ke d f c n = .ok (.call (.device .amAsscaWrite32Align)
      (.align (c.bytes.drop 4) (c.packetData d.packDataOffset))
      (.command (4 + 4 * d.packDataOffset.toNat))) := by
  have hlt : (amOpcode c.op).toNat < amOpMaxOps := by
    rw [hop]
    decide
  have hslot : d.pfnOps ⟨_, hlt⟩ = some (.device .amAsscaWrite32Align) := by
    have hops : d.pfnOps = fun i => (f.pfnOps i).map .device := by
      rw [← hd.adopted, KDevice.adopt]
      dsimp only
      split <;> rfl
    have hcode : amOpcode c.op = amOpWriteAlign := by
      rw [hop]
      decide
    simp only [hops, hcode, (hd.func.facts hd.capType).writeOp, Option.map_some]
  have halign : ¬ amNetGetPacktype c.op = amPackAlign.toUInt32 := by
    rw [hop]
    decide
  have hpack : amNetGetPacktype c.op = amKpack.toUInt32 := by
    rw [hop]
    decide
  have heven : ¬ c.op &&& 1 ≠ 0 := by
    rw [hop]
    decide
  simp only [ioctlSelect, d.slot_of_lt hlt, hslot, ok_bind]
  rw [if_neg halign, if_pos hpack, packetCall, if_neg heven, if_pos hn]

theorem ArrayDevice.sizes (hd : ArrayDevice pCap d f) :
    d.packDataOffset = f.crResp.packDataOffset ∧ d.wrPackSize = f.crResp.wrPackQwordSize * 8 := by
  have hadopt := hd.adopted
  rw [KDevice.adopt] at hadopt
  dsimp only at hadopt
  rw [if_pos hd.type] at hadopt
  rw [← hadopt]
  exact ⟨rfl, rfl⟩

/-- The request that the client builds for a write is accepted, it fits the command of the driver
and covers the key and the value, and the array is asked to write exactly these. -/
def PacketDelivered (e : KdEnv) (k : Kernel) (minor : ℕ) (g : KdFunc) (d : KDevice)
    (f : MemFunction) (p1 p2 : UInt64) (keyLen dataLen : ℕ) : Prop :=
  let code := appmemdOpPacket g.wrPackQwordSize
  ∃ cmd c q1 q2 dst, writePacketCmd e g p1 p2 = .ok cmd ∧
    Reaches k minor code (some (e.block cmd)) d f c ∧
    cmdBytes code ≤ sizeofKamCmd ∧ 4 + keyLen ≤ cmdBytes code ∧
    4 + 4 * wordsOf keyLen + dataLen ≤ cmdBytes code ∧
    ioctlSelect e.ke d f c (cmdBytes code) =
      .ok (.call (.device .amAsscaWrite32Align) (.align q1 q2) dst) ∧
    readBytes q1 keyLen = .ok ((e.ke.user p1).take keyLen) ∧
    readBytes q2 dataLen = .ok ((e.ke.user p2).take dataLen)

/-- What the client needs for a write: a function of the device, buffers with a key and a value,
and a stack that can be read. -/
structure WriteReady (e : KdEnv) (k : Kernel) (minor : ℕ) (g : KdFunc) (d : KDevice)
    (f : MemFunction) (p1 p2 : UInt64) (keyLen dataLen : ℕ) : Prop where
  handle : g.handle = some minor
  device : k.devices minor = some d
  func : d.pFunc = some f
  crResp : g.crResp = f.crResp.bytes
  key : keyLen ≤ (e.ke.user p1).length
  value : dataLen ≤ (e.ke.user p2).length
  reach : sizeofKamCmd ≤ e.reach

/-- A key and a value that fit the command of the client are delivered as long as the packet has
at most 62 words: with eight bytes more, 63 words are longer than the command of the driver. -/
theorem packetDelivered_iff (hd : ArrayDevice pCap d f) {keyLen dataLen : ℕ}
    (hk : (pCap.typeSpecific tsAsscaKeyMaxSize).toNat = keyLen)
    (hv : (pCap.typeSpecific tsAsscaDataMaxSize).toNat = dataLen)
    (hw : WriteReady e k minor g d f p1 p2 keyLen dataLen)
    (hfits : 4 * (1 + wordsOf keyLen) + dataLen ≤ sizeofKamCmd) :
    PacketDelivered e k minor g d f p1 p2 keyLen dataLen ↔
      1 + wordsOf keyLen + wordsOf dataLen ≤ 62 := by
  subst hk hv
  generalize hkey : pCap.typeSpecific tsAsscaKeyMaxSize = key at *
  generalize hval : pCap.typeSpecific tsAsscaDataMaxSize = val at *
  have F := hd.func.facts hd.capType
  rw [hkey, hval] at F
  have S := sizesOf_of_bytes hw.crResp
  simp only [sizeofKamCmd] at hfits
  have hwords : 1 + wordsOf key.toNat + wordsOf val.toNat ≤ 64 := by
    unfold wordsOf at hfits ⊢
    omega
  have hidx : g.idxSize = key := S.idxSize.trans F.idxSize
  have hdata : g.dataSize = val := S.dataSize.trans F.dataSize
  have hoff : g.packDataOffset.toNat = wordsOf key.toNat := by
    rw [S.packDataOffset, F.offset, toNat_packDataOffset]
    omega
  have hqwords : g.wrPackQwordSize.toNat = (1 + wordsOf key.toNat + wordsOf val.toNat + 1) / 2 := by
    rw [S.wrPackQwordSize, F.qwords, toNat_wrPackQwordSize, packetWords]
    omega
  have hbytes : cmdBytes (appmemdOpPacket g.wrPackQwordSize) = 8 * g.wrPackQwordSize.toNat + 8 := by
    rw [cmdBytes, iocNr_appmemdOpPacket]
    omega
  have hround : key.toNat ≤ 4 * wordsOf key.toNat := by
    unfold wordsOf
    omega
  have hround' : val.toNat ≤ 4 * wordsOf val.toNat := by
    unfold wordsOf
    omega
  constructor
  · rintro ⟨cmd, c, q1, q2, dst, -, -, hle, -⟩
    simp only [hbytes, sizeofKamCmd] at hle
    omega
  · intro hsmall
    have hle : cmdBytes (appmemdOpPacket g.wrPackQwordSize) ≤ sizeofKamCmd := by
      rw [hbytes, sizeofKamCmd]
      omega
    obtain ⟨cmd, hcmd, hlen, hopw, hkeyw, hvalw⟩ := writePacketCmd_of_fits e g p1 p2
      (by rw [hidx]; exact hw.key) (by rw [hdata]; exact hw.value)
      (by rw [hidx, hoff]; exact hround) (by rw [hdata, hoff, sizeofKamCmd]; omega)
    obtain ⟨hblock, hblockw⟩ := KdEnv.block_windows hlen hw.reach
    obtain ⟨c, hc, hcw⟩ := k.tempKcmd.copyIn_windows hle (hle.trans hblock)
    have hwin (off len : ℕ) (h : off + len ≤ cmdBytes (appmemdOpPacket g.wrPackQwordSize)) :
        window c.bytes off len = window cmd off len :=
      (hcw off len h).trans (hblockw off len (h.trans hle))
    have hop : c.op = amOpCodeWriteFixPacket := by
      have h4 : (c.bytes.drop 0).take 4 = u32Bytes amOpCodeWriteFixPacket :=
        (hwin 0 4 (by rw [hbytes]; omega)).trans hopw
      rw [KamCmd.op, KamCmd.u32, u32OfBytes, h4]
      exact u32OfBytes_u32Bytes _
    have hdoff : d.packDataOffset.toNat = wordsOf key.toNat := by
      rw [hd.sizes.1, ← S.packDataOffset, hoff]
    have hwr : d.wrPackSize.toNat ≤ cmdBytes (appmemdOpPacket g.wrPackQwordSize) := by
      rw [hd.sizes.2, ← S.wrPackQwordSize, hbytes, UInt8.toNat_mul]
      simp only [UInt8.reduceToNat]
      omega
    have hreaches : Reaches k minor (appmemdOpPacket g.wrPackQwordSize) (some (e.block cmd)) d f c := by
      refine ⟨iocType_appmemdOpPacket _, ?_, hw.device, hw.func, e.block cmd, rfl,
        hle.trans hblock, hc⟩
      rw [iocNr_appmemdOpPacket, hqwords, appmemdIocMaxnr]
      omega
    have hclen := c.length_bytes
    simp only [sizeofKamCmd] at hclen
    rw [hidx] at hkeyw
    rw [hdata, hoff] at hvalw
    have hcover : 4 + 4 * wordsOf key.toNat + val.toNat ≤
        cmdBytes (appmemdOpPacket g.wrPackQwordSize) := by
      rw [hbytes, hqwords]
      omega
    refine ⟨cmd, c, _, _, _, hcmd, hreaches, hle, by omega, hcover, hd.select_write hop hwr, ?_, ?_⟩
    · apply readBytes_drop (by omega)
      rw [hwin _ _ (by omega), hkeyw]
    · rw [KamCmd.packetData, hdoff]
      apply readBytes_drop (by omega)
      rw [hwin _ _ (by omega), hvalw]

end Delivery

section Example

/-- The capability of an array with keys of `keySize` bytes and values of `dataSize`. -/
def packetCap (keySize dataSize : UInt32) : AmMemCap :=
  { largestCap with typeSpecific := typeSpecifics [keySize, dataSize, 1, 1] }

def packetBase (keySize dataSize : UInt32) : KDevice :=
  { baseDevice (.blank 0) 240 with amType := amTypeAssocArray }.adopt
    (asscaDevice .zeroed (.blank 1) (packetCap keySize dataSize))

def packetFunction (keySize dataSize : UInt32) : MemFunction :=
  announce (packetBase keySize dataSize)
    (asscaDevice .zeroed (.blank 1) (packetCap keySize dataSize))

def packetDevice (keySize dataSize : UInt32) : KDevice :=
  { packetBase keySize dataSize with pFunc := some (packetFunction keySize dataSize) }

def packetKernel (keySize dataSize : UInt32) : Kernel :=
  let base := Kernel.start (.blank 0) 240 targetRegistry
  { base with devices := Function.update base.devices 1 (some (packetDevice keySize dataSize)) }

def packetClient : KdEnv where
  ke := ⟨.zeroed, true, fun _ => List.replicate 256 1, .blank 0⟩
  opened := true
  stack := .zero
  beyond := []
  reach := sizeofKamCmd

def packetFunc (keySize dataSize : UInt32) : KdFunc where
  handle := some 1
  crRespAddr := 0x2000
  crResp := (packetFunction keySize dataSize).crResp.bytes
  hasFn := true
  writeAl := some .fixedPacket
  readAl := some .fixedPacket
  mapFlags := 0

theorem arrayDevice_packet (keySize dataSize : UInt32) :
    ArrayDevice (packetCap keySize dataSize) (packetDevice keySize dataSize)
      (packetFunction keySize dataSize) :=
  arrayDevice_of_create rfl rfl ((amCreateAsscaDevice_good_iff rfl).mpr ⟨⟨rfl, rfl⟩, rfl⟩)

theorem writeReady_packet (keySize dataSize : UInt32) {keyLen dataLen : ℕ} (hk : keyLen ≤ 256)
    (hv : dataLen ≤ 256) : WriteReady packetClient (packetKernel keySize dataSize) 1
      (packetFunc keySize dataSize) (packetDevice keySize dataSize)
      (packetFunction keySize dataSize) 8 16 keyLen dataLen := by
  have hlen (p : UInt64) : (packetClient.ke.user p).length = 256 := List.length_replicate
  have hdevice : (packetKernel keySize dataSize).devices 1 = some (packetDevice keySize dataSize) := by
    dsimp only [packetKernel]
    exact Function.update_self ..
  exact ⟨rfl, hdevice, rfl, rfl, (hlen 8).symm ▸ hk, (hlen 16).symm ▸ hv, le_refl _⟩

theorem packetDelivered_iff_fourBytes :
    PacketDelivered packetClient (packetKernel 4 4) 1 (packetFunc 4 4) (packetDevice 4 4)
        (packetFunction 4 4) 8 16 4 4 ↔ 1 + wordsOf 4 + wordsOf 4 ≤ 62 :=
  packetDelivered_iff (arrayDevice_packet 4 4) rfl rfl
    (writeReady_packet 4 4 (by decide) (by decide)) (by decide)

/-- A key of four bytes and a value of 248 fill the command of the client: 64 words, and 264 bytes
for the command of the driver. -/
theorem not_packetDelivered : ¬ ∀ (pCap : AmMemCap) (d : KDevice) (f : MemFunction) (e : KdEnv)
    (k : Kernel) (minor : ℕ) (g : KdFunc) (p1 p2 : UInt64) (keyLen dataLen : ℕ),
    ArrayDevice pCap d f → (pCap.typeSpecific tsAsscaKeyMaxSize).toNat = keyLen →
    (pCap.typeSpecific tsAsscaDataMaxSize).toNat = dataLen →
    WriteReady e k minor g d f p1 p2 keyLen dataLen → 1 ≤ keyLen → 1 ≤ dataLen →
    4 * (1 + wordsOf keyLen) + dataLen ≤ sizeofKamCmd →
    PacketDelivered e k minor g d f p1 p2 keyLen dataLen := by
  intro h
  obtain ⟨cmd, c, q1, q2, dst, -, -, hle, -⟩ := h _ _ _ _ _ _ _ _ _ 4 248
    (arrayDevice_packet 4 248) rfl rfl (writeReady_packet 4 248 (by decide) (by decide))
    (by decide) (by decide) (by decide)
  have hbytes : cmdBytes (appmemdOpPacket (packetFunc 4 248).wrPackQwordSize) = 264 := by
    decide +kernel
  rw [hbytes, sizeofKamCmd] at hle
  omega

end Example

end AppMem.Driver
