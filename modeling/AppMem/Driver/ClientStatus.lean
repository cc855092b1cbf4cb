import AppMem.Driver.Client
import AppMem.Driver.Status

/-! # Statuses on the ioctl path

The client of the driver looks only at the sign of what `ioctl` returns. Which of its calls
report what the handler answered.
-/
namespace AppMem.Driver
open Library.Bytes Library.Checked Abi Memory Pack Device

section Ioctl
variable {ke : KEnv} {k : Kernel} {minor : ℕ} {cmd : UInt32} {block : List UInt8}
  {d : KDevice} {f : MemFunction} {c : KamCmd} {n : ℕ} {h : DriverHandler}

/-- The dispatcher cannot copy the command, and returns the 0 of its last line. -/
def CopyFails (k : Kernel) (minor : ℕ) (cmd : UInt32) (block : List UInt8) : Prop :=
  iocType cmd = appmemdIocMagic ∧ iocNr cmd ≤ appmemdIocMaxnr ∧
    (∃ d f, k.devices minor = some d ∧ d.pFunc = some f) ∧ block.length < cmdBytes cmd

/-- Aligned calls pass the command behind its operation code. -/
theorem ioctlSelect_align {call : PackCall} {dst : Dest}
    (hs : ioctlSelect ke d f c n = .ok (.call h call dst)) (hc : call.convention = .align) :
    ∃ p2, call = .align (c.bytes.drop 4) p2 := by
  unfold ioctlSelect at hs
  rw [bind_eq_ok] at hs
  rcases hs with ⟨slot, -, hs⟩
  cases slot with
  | none => cases hs
  | some h' =>
    dsimp only at hs
    split at hs
    · unfold alignedCall at hs
      split at hs
      · cases hs
        exact ⟨_, rfl⟩
      · cases hs
        exact ⟨_, rfl⟩
    · split at hs
      · unfold packetCall at hs
        split at hs
        · split at hs
          · rw [bind_eq_ok] at hs
            rcases hs with ⟨_, -, hs⟩
            cases hs
            exact ⟨_, rfl⟩
          · cases hs
        · split at hs
          · cases hs
            exact ⟨_, rfl⟩
          · cases hs
      · cases hs
        cases hc

/-- Only one handler is registered for an operation. -/
theorem positiveStatus_iff (hop : (amOpcode c.op).toNat < amOpMaxOps)
    (hslot : d.pfnOps ⟨_, hop⟩ = some h) :
    PositiveStatus ke d f c n ↔ HandlerFails ke d f c n h := by
  constructor
  · rintro ⟨_, h', hslot', hfails⟩
    cases Option.some.inj (hslot.symm.trans hslot')
    exact hfails
  · intro hfails
    exact ⟨hop, h, hslot, hfails⟩

theorem invokeAlign_status {k' : Kernel} {r : KServed} {p2 : List UInt8}
    (hop : (amOpcode c.op).toNat < amOpMaxOps) (hslot : d.pfnOps ⟨_, hop⟩ = some h)
    (ht : amNetGetPacktype c.op = amPackAlign.toUInt32 ∨
      amNetGetPacktype c.op = amKpack.toUInt32 ∧ ¬ d.TooShort c.op n)
    (hr : invokeDriver ke minor f k h (.align (c.bytes.drop 4) p2) = .ok (k', r)) :
    SignOf (PositiveStatus ke d f c n) r.error := by
  rw [SignOf.congr_iff (positiveStatus_iff hop hslot)]
  cases h with
  | device h =>
    simp only [invokeDriver, bind_eq_ok] at hr
    rcases hr with ⟨⟨g, r'⟩, hr', hr⟩
    cases hr
    exact SignOf.congr (and_iff_left ht).symm (alignStatus hr')
  | _ => cases hr

theorem invokeConfig_status {k' : Kernel} {r : KServed}
    (hop : (amOpcode c.op).toNat < amOpMaxOps) (hslot : d.pfnOps ⟨_, hop⟩ = some h)
    (hc : k.tempKcmd = c) (hl : amNetGetPacktype c.op ≠ amPackAlign.toUInt32)
    (ht : amNetGetPacktype c.op ≠ amKpack.toUInt32)
    (hr : invokeDriver ke minor f k h .config = .ok (k', r)) :
    SignOf (PositiveStatus ke d f c n) r.error := by
  have hstatus := configStatus hr
  rw [hc] at hstatus
  refine SignOf.congr ?_ hstatus
  rw [positiveStatus_iff hop hslot]
  cases h with
  | appmemCreateFunction => simp [HandlerFails, hl, ht]
  | device h => simp [HandlerFails, hl, ht]
  | _ => simp [HandlerFails]

/-- The end of the dispatcher: the sign of its status tells what the handler answered, unless
the handler answered with a positive code. -/
theorem ioctlRun_status {r : IoctlResult} (hr : ioctlRun ke k minor d f n = .ok r) :
    (¬ r.ret < 0 ↔ r.handled = some amRetGood) ↔ ¬ PositiveStatus ke d f k.tempKcmd n := by
  have hneg : negEnotty < 0 := by decide
  unfold ioctlRun at hr
  rw [bind_eq_ok] at hr
  rcases hr with ⟨sel, hsel, hr⟩
  by_cases hop : (amOpcode k.tempKcmd.op).toNat < amOpMaxOps
  · have hearly : sel = .ret negEnotty → ¬ PositiveStatus ke d f k.tempKcmd n →
        ((¬ r.ret < 0 ↔ r.handled = some amRetGood) ↔ ¬ PositiveStatus ke d f k.tempKcmd n) := by
      rintro rfl hno
      cases hr
      exact iff_of_true (iff_of_false (fun h => h hneg) nofun) hno
    have hcall : ∀ h call dst, sel = .call h call dst →
        (∀ k' r', invokeDriver ke minor f k h call = .ok (k', r') →
          SignOf (PositiveStatus ke d f k.tempKcmd n) r'.error) →
        ((¬ r.ret < 0 ↔ r.handled = some amRetGood) ↔ ¬ PositiveStatus ke d f k.tempKcmd n) := by
      rintro h call dst rfl hstatus
      dsimp only at hr
      rw [bind_eq_ok] at hr
      rcases hr with ⟨⟨k', r'⟩, hinv, hr⟩
      rw [bind_eq_ok] at hr
      rcases hr with ⟨s, -, hr⟩
      cases hr
      rw [Option.some.injEq]
      exact (hstatus k' r' hinv).iff
    cases hslot : d.pfnOps ⟨_, hop⟩ with
    | none =>
      rw [ioctlSelect_none hop hslot] at hsel
      apply hearly (Except.ok.inj hsel).symm
      rintro ⟨_, h, hslot', -⟩
      rw [hslot] at hslot'
      cases hslot'
    | some h =>
      have hcases : SelectCase ke d f k.tempKcmd n h (ioctlSelect ke d f k.tempKcmd n) :=
        ioctlSelect_cases hop hslot
      rw [hsel] at hcases
      cases hcases with
      | aligned call dst hc ht =>
        apply hcall h call dst rfl
        obtain ⟨p2, rfl⟩ := ioctlSelect_align hsel hc
        intro k' r' hinv
        exact invokeAlign_status hop hslot (.inl ht) hinv
      | packet call dst hc hl ht hn hp =>
        apply hcall h call dst rfl
        obtain ⟨p2, rfl⟩ := ioctlSelect_align hsel hc
        intro k' r' hinv
        exact invokeAlign_status hop hslot (.inr ⟨ht, hn⟩) hinv
      | tooShort hl ht hn =>
        apply hearly rfl
        rw [positiveStatus_iff hop hslot]
        cases h with
        | appmemCreateFunction => simp [HandlerFails, ht]
        | device h => simp [HandlerFails, hl, hn]
        | _ => simp [HandlerFails]
      | config dst hl ht =>
        apply hcall h .config dst rfl
        intro k' r' hinv
        exact invokeConfig_status hop hslot rfl hl ht hinv
  · rw [ioctlSelect, d.slot_of_ge hop, error_bind] at hsel
    cases hsel

theorem ioctlStatus {r : IoctlResult} (hr : appmemdIoctl ke k minor cmd (some block) = .ok r) :
    (¬ r.ret < 0 ↔ r.handled = some amRetGood) ↔ ¬ CopyFails k minor cmd block ∧
      ∀ d f c, Reaches k minor cmd (some block) d f c →
        ¬ PositiveStatus ke d f c (cmdBytes cmd) := by
  have hneg : negEnotty < 0 := by decide
  have hearly : .early k negEnotty = r → ¬ CopyFails k minor cmd block →
      (∀ d f c, ¬ Reaches k minor cmd (some block) d f c) →
      ((¬ r.ret < 0 ↔ r.handled = some amRetGood) ↔ ¬ CopyFails k minor cmd block ∧
        ∀ d f c, Reaches k minor cmd (some block) d f c →
          ¬ PositiveStatus ke d f c (cmdBytes cmd)) := by
    rintro rfl hcopy hno
    exact iff_of_true (iff_of_false (fun h => h hneg) nofun)
      ⟨hcopy, fun d f c h => absurd h (hno d f c)⟩
  have hr' := hr
  unfold appmemdIoctl at hr'
  split at hr'
  · rename_i hm
    exact hearly (Except.ok.inj hr') (fun h => hm h.1) fun _ _ _ h => hm h.1
  · split at hr'
    · rename_i hn
      have hnot : ¬ iocNr cmd ≤ appmemdIocMaxnr := Nat.not_le.mpr hn
      exact hearly (Except.ok.inj hr') (fun h => hnot h.2.1) fun _ _ _ h => hnot h.2.1
    · rename_i hm hn
      dsimp only at hr'
      split at hr'
      · rename_i ha
        cases ha
      · rename_i hd
        apply hearly (Except.ok.inj hr')
        · rintro ⟨-, -, ⟨d, f, hd', -⟩, -⟩
          rw [hd] at hd'
          cases hd'
        · rintro d f c ⟨-, -, hd', -⟩
          rw [hd] at hd'
          cases hd'
      · rename_i block' d ha hd
        cases ha
        split at hr'
        · rename_i hf
          apply hearly (Except.ok.inj hr')
          · rintro ⟨-, -, ⟨d', f, hd', hf'⟩, -⟩
            cases Option.some.inj (hd.symm.trans hd')
            rw [hf] at hf'
            cases hf'
          · rintro d' f c ⟨-, -, hd', hf', -⟩
            cases Option.some.inj (hd.symm.trans hd')
            rw [hf] at hf'
            cases hf'
        · rename_i f hf
          rw [bind_eq_ok] at hr'
          rcases hr' with ⟨c, hc, hr'⟩
          have hmagic := not_not.mp hm
          have hmax := Nat.not_lt.mp hn
          split at hr'
          · rename_i hlen
            cases hr'
            have hfails : CopyFails k minor cmd block := ⟨hmagic, hmax, ⟨d, f, hd, hf⟩, hlen⟩
            have hzero : ¬ amRetGood < 0 := by decide
            refine iff_of_false (fun h => ?_) fun h => h.1 hfails
            cases h.mp hzero
          · rename_i hlen
            have hreach : Reaches k minor cmd (some block) d f c :=
              ⟨hmagic, hmax, hd, hf, block, rfl, Nat.not_lt.mp hlen, hc⟩
            rw [ioctlRun_status hr']
            constructor
            · intro hno
              refine ⟨fun hfails => hlen hfails.2.2.2, fun d' f' c' h => ?_⟩
              obtain ⟨rfl, rfl, rfl⟩ := hreach.unique h
              exact hno
            · intro hall
              exact hall.2 d f c hreach

end Ioctl

section Client
variable {e : KdEnv} {k : Kernel} {f : KdFunc} {op : KdOp} {r : KdResult}

/-- The call is good exactly when the device was open and the handler answered so. -/
def StatusKept (e : KdEnv) (f : KdFunc) (op : KdOp) (r : KdResult) : Prop :=
  r.ret = amRetGood ↔ (op.target e f).isSome = true ∧ r.handled = some amRetGood

/-- What `copy_from_user` can read of a command. -/
def KdEnv.block (e : KdEnv) (cmd : List UInt8) : List UInt8 := (cmd ++ e.beyond).take e.reach

/-- There is no device to create a function on, or the command reaches the driver and no
handler answers it with a positive code. -/
def SignTells (e : KdEnv) (k : Kernel) (f : KdFunc) (op : KdOp) : Prop :=
  match op.target e f with
  | none => ∀ pCap, op ≠ .createFunction pCap
  | some minor => ∀ cmd, op.command e f = .ok cmd →
    ¬ CopyFails k minor (op.code f) (e.block cmd) ∧
      ∀ d f' c, Reaches k minor (op.code f) (some (e.block cmd)) d f' c →
        ¬ PositiveStatus e.ke d f' c (cmdBytes (op.code f))

theorem closedStatus_good : op.closedStatus = amRetGood ↔ ∃ pCap, op = .createFunction pCap := by
  have hio : amRetIoErr ≠ amRetGood := by decide
  cases op with
  | createFunction pCap => exact iff_of_true rfl ⟨pCap, rfl⟩
  | _ => exact iff_of_false hio nofun

/-- The status of every call that returns. -/
theorem statusKept_iff (hr : kdCall e k f op = .ok r) :
    StatusKept e f op r ↔ SignTells e k f op := by
  unfold kdCall at hr
  rw [bind_eq_ok] at hr
  rcases hr with ⟨cmd, hcmd, hr⟩
  unfold StatusKept SignTells
  cases ht : op.target e f with
  | none =>
    rw [ht] at hr
    cases hr
    simp [closedStatus_good]
  | some minor =>
    rw [ht] at hr
    dsimp only at hr
    rw [bind_eq_ok] at hr
    rcases hr with ⟨r', hr', hr⟩
    have hstatus := ioctlStatus hr'
    have hret : r.ret = amRetGood ↔ ¬ r'.ret < 0 := by
      split at hr
      · rename_i hneg
        cases hr
        have hio : amRetIoErr ≠ amRetGood := by decide
        exact iff_of_false hio fun h => h hneg
      · rename_i hneg
        cases hr
        exact iff_of_true rfl hneg
    have hhandled : r.handled = r'.handled := by
      split at hr
      · cases hr
        rfl
      · cases hr
        rfl
    rw [hret, hhandled, Option.isSome_some, and_iff_right rfl, hstatus]
    constructor
    · intro h cmd' hcmd'
      cases Except.ok.inj (hcmd.symm.trans hcmd')
      exact h
    · intro h
      exact h cmd hcmd

end Client

section Example

def arrayClient : KdEnv where
  ke := ⟨.zeroed, true, fun _ => [1, 2, 3, 4, 0, 0, 0, 0], .blank 0⟩
  opened := true
  stack := .zero
  beyond := []
  reach := sizeofKamCmd

def arrayKernel : Kernel :=
  let base := Kernel.start (.blank 0) 240 targetRegistry
  let device := { baseDevice (.blank 0) 240 with amType := amTypeAssocArray }
  let f := asscaDevice .zeroed (.blank 1) (asscaCap 4)
  { base with devices := Function.update base.devices 1 (some (device.adopt f)) }

def arrayFunc : KdFunc where
  handle := some 1
  crRespAddr := 0x2000
  crResp := (asscaDevice .zeroed (.blank 1) (asscaCap 4)).crResp.bytes
  hasFn := true
  writeAl := some .fixedPacket
  readAl := some .fixedPacket
  mapFlags := 0

theorem read_missing : (kdCall arrayClient arrayKernel arrayFunc (.fixedReadPacket 8 8)).map
    (fun r => (r.ret, r.handled)) = .ok (amRetGood, some amRetKeyNotFound) := by
  decide +kernel

theorem statusKept_iff_write : ∃ r,
    kdCall arrayClient arrayKernel arrayFunc (.fixedWritePacket 8 8) = .ok r ∧
      (StatusKept arrayClient arrayFunc (.fixedWritePacket 8 8) r ↔
        SignTells arrayClient arrayKernel arrayFunc (.fixedWritePacket 8 8)) := by
  have hok : (kdCall arrayClient arrayKernel arrayFunc (.fixedWritePacket 8 8)).toBool = true := by
    decide +kernel
  cases hr : kdCall arrayClient arrayKernel arrayFunc (.fixedWritePacket 8 8) with
  | error fault =>
    rw [hr] at hok
    cases hok
  | ok r => exact ⟨r, rfl, statusKept_iff hr⟩

theorem not_statusKept : ¬ ∀ (e : KdEnv) (k : Kernel) (f : KdFunc) (op : KdOp) (r : KdResult),
    kdCall e k f op = .ok r → StatusKept e f op r := by
  intro h
  have hread := read_missing
  cases hr : kdCall arrayClient arrayKernel arrayFunc (.fixedReadPacket 8 8) with
  | error fault =>
    rw [hr] at hread
    cases hread
  | ok r =>
    rw [hr] at hread
    simp only [Except.map, Except.ok.injEq, Prod.mk.injEq] at hread
    have hhandled := ((h _ _ _ _ r hr).mp hread.1).2
    rw [hread.2] at hhandled
    cases hhandled

end Example

end AppMem.Driver
