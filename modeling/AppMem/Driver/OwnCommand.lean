import AppMem.Driver.Alone

/-! # The bytes of the command block that a call reads

The block is 256 bytes long and a call fills only the first of them. What lies behind was left by
other calls. A call whose handler reads no further than its own bytes does the same whatever
they are.
-/
namespace AppMem.Driver
open Library.Bytes Library.Checked Abi Memory Pack Device Hash

section Reach

/-- The key that a handler reads through its first pointer. -/
def indexBytes (f : MemFunction) : DriverHandler → ℕ
  | .device .amFlatRead32Align | .device .amFlatWrite32Align => 4
  | .device .amStataReadIdx32 | .device .amStataWriteIdx32 => 4
  | .device .amAsscaRead32Align | .device .amAsscaWrite32Align =>
    match f.pVdF with
    | some (.assca fd) => fd.data.keyLen.toNat
    | _ => 0
  | _ => 0

def valueBytes (f : MemFunction) : DriverHandler → ℕ
  | .device .amFlatWrite32Align | .device .amStataWriteIdx32 => 4
  | .device .amAsscaRead32Align | .device .amAsscaWrite32Align =>
    match f.pVdF with
    | some (.assca fd) => fd.data.dataLen.toNat
    | _ => 0
  | _ => 0

/-- How far a handler that takes the whole command reads in it before its first transfer. -/
def configReach (f : MemFunction) (c : KamCmd) : DriverHandler → ℕ
  | .appmemGetCapCount | .appmemGetCapabilites => 16
  | .appmemGetCapDetails => 24
  | .appmemCreateFunction =>
    if f.amType ≠ amTypeBaseAppmem then 4 else if c.lenIn.toNat < sizeofMemCap then 8 else 16
  | .device _ => 4

/-- How far the dispatcher and the handler read in a command of `n` bytes before they sleep. -/
def commandReach (d : KDevice) (f : MemFunction) (c : KamCmd) (n : ℕ) : ℕ :=
  match d.slot c.op with
  | .error _ => 4
  | .ok none => 4
  | .ok (some h) =>
    if amNetGetPacktype c.op = amPackAlign.toUInt32 then
      if c.op &&& 1 ≠ 0 then max 16 (4 + indexBytes f h)
      else max (4 + indexBytes f h) (8 + valueBytes f h)
    else if amNetGetPacktype c.op = amKpack.toUInt32 then
      if c.op &&& 1 ≠ 0 then
        if d.rdPackSize.toNat ≤ n then
          max (4 + 4 * f.crResp.packDataOffset.toNat + 8) (4 + indexBytes f h)
        else 4
      else if d.wrPackSize.toNat ≤ n then
        max (4 + indexBytes f h) (4 + 4 * d.packDataOffset.toNat + valueBytes f h)
      else 4
    else configReach f c h

/-- The first `n` bytes of two commands are the same. -/
def KamCmd.Agree (n : ℕ) (c c' : KamCmd) : Prop := c.bytes.take n = c'.bytes.take n

def Kernel.cleared (k : Kernel) : Kernel := k.withBlock .zero

def cleared (r : Kernel × Point) : Kernel × Point := (r.1.cleared, r.2)

end Reach

section Fields
variable {n off len : ℕ} {c c' : KamCmd}

theorem KamCmd.Agree.window (h : c.Agree n c') (hin : off + len ≤ n) :
    Library.Bytes.window c.bytes off len = Library.Bytes.window c'.bytes off len := by
  rw [← window_take c.bytes hin, h, window_take c'.bytes hin]

theorem KamCmd.Agree.u32 (h : c.Agree n c') (hin : off + 4 ≤ n) : c.u32 off = c'.u32 off := by
  have hw := h.window hin
  rw [KamCmd.u32, KamCmd.u32, u32OfBytes, u32OfBytes]
  exact congrArg (fun l => UInt32.ofNat (leVal l)) hw

theorem KamCmd.Agree.u64 (h : c.Agree n c') (hin : off + 8 ≤ n) : c.u64 off = c'.u64 off := by
  rw [KamCmd.u64, KamCmd.u64, h.window hin]

structure SameBytes (n : ℕ) (p q : List UInt8) : Prop where
  length : p.length = q.length
  take : p.take n = q.take n

theorem SameBytes.refl (n : ℕ) (p : List UInt8) : SameBytes n p p := ⟨rfl, rfl⟩

theorem KamCmd.Agree.drop (h : c.Agree n c') (hin : off + len ≤ n) :
    SameBytes len (c.bytes.drop off) (c'.bytes.drop off) where
  length := by rw [List.length_drop, List.length_drop, c.length_bytes, c'.length_bytes]
  take := h.window hin

theorem SameBytes.readBytes {p q : List UInt8} (h : SameBytes n p q) (hm : len ≤ n) :
    readBytes p len = readBytes q len := by
  have htake : p.take len = q.take len := by
    rw [← Nat.min_eq_left hm, ← List.take_take, h.take, List.take_take]
  by_cases hl : len ≤ p.length
  · rw [readBytes_of_le hl, readBytes_of_le (h.length ▸ hl), htake]
  · rw [readBytes_of_lt (Nat.not_le.mp hl), readBytes_of_lt (h.length ▸ Nat.not_le.mp hl)]

theorem SameBytes.readU32 {p q : List UInt8} (h : SameBytes 4 p q) : readU32 p = readU32 q := by
  rw [Memory.readU32, Memory.readU32, h.readBytes le_rfl]

end Fields

section Handlers
variable {env : Env} {f : MemFunction} {p p' q q' : List UInt8}

theorem cellToUser_congr (b : Build) (flags : UInt32) (data : List UInt8) (off : ℕ)
    (h : q.length = q'.length) :
    cellToUser b flags data off q = cellToUser b flags data off q' := by
  rw [cellToUser, cellToUser, put32ToUser, put32ToUser, h]

theorem cellFromUser_congr (b : Build) (flags : UInt32) (data : List UInt8) (off : ℕ)
    (h : SameBytes 4 q q') :
    cellFromUser b flags data off q = cellFromUser b flags data off q' := by
  rw [cellFromUser, cellFromUser, get32FromUser, get32FromUser, h.readBytes le_rfl, h.length,
    h.take]

/-- A handler does the same with other bytes behind those it reads. -/
theorem invokeDevice_congr {h : DeviceHandler} (hp : SameBytes (indexBytes f (.device h)) p p')
    (hq : SameBytes (valueBytes f (.device h)) q q') :
    invokeDevice .kernel env h (.align p q) f = invokeDevice .kernel env h (.align p' q') f := by
  cases h with
  | amFlatRead32Align =>
    simp only [invokeDevice, amFlatRead32Align, hp.readU32, cellToUser_congr _ _ _ _ hq.length]
  | amFlatWrite32Align =>
    simp only [invokeDevice, amFlatWrite32Align, hp.readU32, cellFromUser_congr _ _ _ _ hq]
  | amStataReadIdx32 =>
    simp only [invokeDevice, amStataReadIdx32, hp.readU32, cellToUser_congr _ _ _ _ hq.length]
  | amStataWriteIdx32 =>
    simp only [invokeDevice, amStataWriteIdx32, hp.readU32, cellFromUser_congr _ _ _ _ hq]
  | amAsscaRead32Align =>
    rw [invokeDevice, invokeDevice, amAsscaRead32Align, amAsscaRead32Align, asscaAccess,
      asscaAccess]
    split
    · rfl
    · rename_i fd hfd
      rw [indexBytes, hfd] at hp
      rw [valueBytes, hfd] at hq
      simp only [amlibAsscaGetKeyVal, hp.readBytes le_rfl, copyToUser, hq.take]
    · rfl
  | amAsscaWrite32Align =>
    rw [invokeDevice, invokeDevice, amAsscaWrite32Align, amAsscaWrite32Align, asscaAccess,
      asscaAccess]
    split
    · rfl
    · rename_i fd hfd
      rw [indexBytes, hfd] at hp
      rw [valueBytes, hfd] at hq
      rw [amlibAsscaAddKeyFixfix_congr (hp.readBytes le_rfl) (hq.readBytes le_rfl)]
    · rfl
  | _ => rfl

theorem asscaFound_congr (hp : SameBytes (indexBytes f (.device .amAsscaRead32Align)) p p') :
    asscaFound f p = asscaFound f p' := by
  rw [asscaFound, asscaFound]
  split
  · rename_i fd hfd
    rw [indexBytes, hfd] at hp
    rw [hp.readBytes le_rfl]
  · rfl

theorem asscaFilling_congr (minor : ℕ)
    (hp : SameBytes (indexBytes f (.device .amAsscaRead32Align)) p p')
    (hq : SameBytes (valueBytes f (.device .amAsscaRead32Align)) q q') :
    asscaFilling minor f p q = asscaFilling minor f p' q' := by
  rw [asscaFilling, asscaFilling]
  split
  · rename_i fd hfd
    rw [valueBytes, hfd] at hq
    rw [asscaFound_congr hp]
    simp only [fetched, hq.take]
  · rfl

end Handlers

section Dispatch
variable {ke : KEnv} {k : Kernel} {minor n : ℕ} {d : KDevice} {f : MemFunction} {b b' : KamCmd}

/-- Storing through the second pointer changes nothing but the block, and which bytes go to the
process does not depend on the driver. -/
theorem storeOut_cleared (ke : KEnv) (k k₀ : Kernel) (dst : Dest) (out : List UInt8) :
    (storeOut ke k dst out).map (fun s => (s.1.cleared, s.2)) =
      (storeOut ke k₀ dst out).map fun s => (k.cleared, s.2) := by
  cases dst with
  | user addr =>
    rw [storeOut, storeOut]
    cases (require (out.length ≤ (ke.user addr).length) Fault.bounds : Exec Unit) with
    | error e => rfl
    | ok u => rfl
  | command off =>
    rw [storeOut, storeOut]
    split
    · rfl
    · rfl

theorem storeOut_then (ke : KEnv) (k k₀ : Kernel) (dst : Dest) (out : List UInt8)
    (p : List UserWrite → Point) :
    (storeOut ke k dst out >>= fun s => .ok (s.1, p s.2)).map cleared =
      (storeOut ke k₀ dst out).map fun s => (k.cleared, p s.2) := by
  have hs := congrArg (Except.map fun s => (s.1, p s.2)) (storeOut_cleared ke k k₀ dst out)
  rw [except_map_map, except_map_map] at hs
  refine Eq.trans ?_ hs
  cases storeOut ke k dst out with
  | error e => rfl
  | ok s => rfl

/-- A handler of a function, but for the block: `k₀` is any driver. -/
theorem runHandler_device (k₀ : Kernel) (h : DeviceHandler) (c : PackCall) (dst : Dest) :
    (runHandler ke k minor f (.device h) c dst).map cleared =
      invokeDevice .kernel ke.env h c f >>= fun r =>
        (storeOut ke k₀ dst r.2.out).map fun s =>
          ((k.setFunc minor r.1).cleared, .returned (.handler r.2.error s.2)) := by
  rw [runHandler, invokeDriver]
  cases invokeDevice .kernel ke.env h c f with
  | error e => rfl
  | ok r => exact storeOut_then ke _ k₀ dst r.2.out fun ws => .returned (.handler r.2.error ws)

theorem startHandler_congr {h : DriverHandler} {p p' q q' : List UInt8} (k k' : Kernel) (dst : Dest)
    (hk : k.cleared = k'.cleared) (hp : SameBytes (indexBytes f h) p p')
    (hq : SameBytes (valueBytes f h) q q') :
    (startHandler ke k minor f h (.align p q) dst).map cleared =
      (startHandler ke k' minor f h (.align p' q') dst).map cleared := by
  have hset (g : MemFunction) : (k.setFunc minor g).cleared = (k'.setFunc minor g).cleared :=
    congrArg (fun k => Kernel.setFunc k minor g) hk
  have hrun {h : DeviceHandler} (hp : SameBytes (indexBytes f (.device h)) p p')
      (hq : SameBytes (valueBytes f (.device h)) q q') :
      (runHandler ke k minor f (.device h) (.align p q) dst).map cleared =
        (runHandler ke k' minor f (.device h) (.align p' q') dst).map cleared := by
    rw [runHandler_device k, runHandler_device k, invokeDevice_congr hp hq]
    simp only [hset]
  cases h with
  | device h =>
    cases h with
    | amAsscaRead32Align =>
      rw [startHandler, startHandler, asscaFilling_congr minor hp hq]
      cases asscaFilling minor f p' q' with
      | error e => rfl
      | ok x =>
        cases x with
        | none => exact hrun hp hq
        | some v =>
          have hk₁ := storeOut_then ke k k dst [] fun _ => .value v 0
          have hk₂ := storeOut_then ke k' k dst [] fun _ => .value v 0
          rw [hk] at hk₁
          exact hk₁.trans hk₂.symm
    | _ => exact hrun hp hq
  | _ => rfl

theorem entries_eq {k k' : Kernel} (hk : k.cleared = k'.cleared) : k.entries = k'.entries := by
  have he : k.cleared.entries = k'.cleared.entries := by rw [hk]
  exact he

theorem startHandler_config_congr {h : DriverHandler} {k k' : Kernel} (dst : Dest)
    (hk : k.cleared = k'.cleared) (hag : k.tempKcmd.Agree n k'.tempKcmd) (h8 : 8 ≤ n)
    (hreach : configReach f k.tempKcmd h ≤ n) :
    (startHandler ke k minor f h .config dst).map cleared =
      (startHandler ke k' minor f h .config dst).map cleared := by
  cases h with
  | appmemGetCapCount =>
    have hdata : k.tempKcmd.data = k'.tempKcmd.data := hag.u64 hreach
    rw [startHandler, startHandler, countSending, countSending, hdata]
    exact congrArg (fun k => Except.ok (k, _)) hk
  | appmemGetCapabilites =>
    have hdata : k.tempKcmd.data = k'.tempKcmd.data := hag.u64 hreach
    have hlen : k.tempKcmd.len = k'.tempKcmd.len := hag.u32 h8
    rw [startHandler, startHandler, capabilitySendings, capabilitySendings, hdata, hlen,
      entries_eq hk]
    exact congrArg (fun k => Except.ok (k, _)) hk
  | appmemGetCapDetails =>
    have hdata : k.tempKcmd.data = k'.tempKcmd.data := hag.u64 (by
      rw [configReach] at hreach
      omega)
    have hparam : k.tempKcmd.parameter = k'.tempKcmd.parameter := hag.u64 hreach
    have hsend : detailsSending k.entries k.tempKcmd f =
        detailsSending k'.entries k'.tempKcmd f := by
      simp only [detailsSending, hdata, hparam, entries_eq hk]
    rw [startHandler, startHandler, hsend]
    cases detailsSending k'.entries k'.tempKcmd f with
    | error e => rfl
    | ok x =>
      cases x with
      | none => exact congrArg (fun k => Except.ok (k, _)) hk
      | some x => exact congrArg (fun k => Except.ok (k, _)) hk
  | appmemCreateFunction =>
    have hlen : k.tempKcmd.lenIn = k'.tempKcmd.lenIn := hag.u32 h8
    rw [startHandler, startHandler, ← hlen]
    split
    · exact congrArg (fun k => Except.ok (k, _)) hk
    · rename_i hpass
      rw [not_or] at hpass
      rw [configReach, if_neg hpass.1, if_neg hpass.2] at hreach
      have hdata : k.tempKcmd.dataIn = k'.tempKcmd.dataIn := hag.u64 hreach
      rw [hdata]
      exact congrArg (fun k => Except.ok (k, _)) hk
  | device h =>
    cases h <;> rfl

/-- The command decides what follows it, when it is as long as what is read of it. -/
theorem dispatch_congr {k k' : Kernel} (hk : k.cleared = k'.cleared)
    (hag : k.tempKcmd.Agree n k'.tempKcmd) (h8 : 8 ≤ n)
    (hreach : commandReach d f k.tempKcmd n ≤ n) :
    (dispatch ke k minor d f n).map cleared = (dispatch ke k' minor d f n).map cleared := by
  have hop : k.tempKcmd.op = k'.tempKcmd.op := hag.u32 (by omega)
  unfold commandReach at hreach
  rw [dispatch, dispatch, ioctlSelect, ioctlSelect, ← hop]
  cases hslot : d.slot k.tempKcmd.op with
  | error e => rfl
  | ok slot =>
    rw [hslot] at hreach
    cases slot with
    | none => exact congrArg (fun k => Except.ok (k, _)) hk
    | some h =>
      dsimp only at hreach ⊢
      rw [ok_bind, ok_bind]
      dsimp only
      by_cases halign : amNetGetPacktype k.tempKcmd.op = amPackAlign.toUInt32
      · rw [if_pos halign] at hreach
        rw [if_pos halign, if_pos halign, pure_eq_ok, pure_eq_ok, ok_bind, ok_bind, alignedCall,
          alignedCall, ← hop]
        by_cases hodd : k.tempKcmd.op &&& 1 ≠ 0
        · rw [if_pos hodd, max_le_iff] at hreach
          have hdata : k.tempKcmd.data = k'.tempKcmd.data := hag.u64 hreach.1
          rw [if_pos hodd, if_pos hodd, ← hdata]
          exact startHandler_congr k k' _ hk (hag.drop hreach.2) (.refl _ _)
        · rw [if_neg hodd, max_le_iff] at hreach
          rw [if_neg hodd, if_neg hodd]
          exact startHandler_congr k k' _ hk (hag.drop hreach.1) (hag.drop hreach.2)
      · rw [if_neg halign] at hreach
        rw [if_neg halign, if_neg halign]
        by_cases hpack : amNetGetPacktype k.tempKcmd.op = amKpack.toUInt32
        · rw [if_pos hpack] at hreach
          rw [if_pos hpack, if_pos hpack, packetCall, packetCall, ← hop]
          by_cases hodd : k.tempKcmd.op &&& 1 ≠ 0
          · rw [if_pos hodd] at hreach
            rw [if_pos hodd, if_pos hodd]
            by_cases hn : d.rdPackSize.toNat ≤ n
            · rw [if_pos hn, max_le_iff] at hreach
              have hptr : readU64 (k.tempKcmd.packetData f.crResp.packDataOffset) =
                  readU64 (k'.tempKcmd.packetData f.crResp.packDataOffset) := by
                rw [readU64, readU64, KamCmd.packetData, KamCmd.packetData,
                  (hag.drop hreach.1).readBytes le_rfl]
              rw [if_pos hn, if_pos hn, ← hptr]
              cases readU64 (k.tempKcmd.packetData f.crResp.packDataOffset) with
              | error e => rfl
              | ok rdptr => exact startHandler_congr k k' _ hk (hag.drop hreach.2) (.refl _ _)
            · rw [if_neg hn, if_neg hn]
              exact congrArg (fun k => Except.ok (k, _)) hk
          · rw [if_neg hodd] at hreach
            rw [if_neg hodd, if_neg hodd]
            by_cases hn : d.wrPackSize.toNat ≤ n
            · rw [if_pos hn, max_le_iff] at hreach
              rw [if_pos hn, if_pos hn]
              exact startHandler_congr k k' _ hk (hag.drop hreach.1) (hag.drop hreach.2)
            · rw [if_neg hn, if_neg hn]
              exact congrArg (fun k => Except.ok (k, _)) hk
        · rw [if_neg hpack] at hreach
          rw [if_neg hpack, if_neg hpack]
          exact startHandler_config_congr _ hk hag h8 hreach

end Dispatch

end AppMem.Driver
