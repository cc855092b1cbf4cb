import AppMem.Driver.PacketWrite

/-! # Accesses through the driver

A client reads and writes through `fn->read_al` and `fn->write_al`, which the driver serves with
one `ioctl` each. What the driver stores in the client's memory is part of the outcome. The
accesses of four bytes put the index and the value, or a pointer, into the command.
-/
namespace AppMem.Driver
open Library.Bytes Library.Checked Abi Memory Pack Device Assca

section Calls

def kdIoctl (e : KdEnv) (k : Kernel) (f : KdFunc) (op : KdOp) : Exec (KdResult × List UserWrite) := do
  let cmd ← op.command e f
  match op.target e f with
  | none => return (⟨k, op.closedStatus, f, none⟩, [])
  | some minor =>
    let r ← appmemdIoctl e.ke k minor (op.code f) (some (e.block cmd))
    if r.ret < 0 then return (⟨r.kernel, amRetIoErr, f, r.handled⟩, r.writes)
    else return (⟨r.kernel, amRetGood, op.after e f r.writes, r.handled⟩, r.writes)

theorem kdIoctl_fst (e : KdEnv) (k : Kernel) (f : KdFunc) (op : KdOp) :
    (kdIoctl e k f op).map Prod.fst = kdCall e k f op := by
  simp only [kdIoctl, kdCall, except_map_bind]
  congr 1
  funext cmd
  cases op.target e f with
  | none => rfl
  | some minor =>
    simp only [except_map_bind, KdEnv.block]
    congr 1
    funext r
    split
    · rfl
    · rfl

def KdAccess.write (p1 p2 : UInt64) : KdAccess → KdOp
  | .align32 => .write32Align p1 p2
  | .fixedPacket => .fixedWritePacket p1 p2

def KdAccess.read (p1 p2 : UInt64) : KdAccess → KdOp
  | .align32 => .read32Align p1 p2
  | .fixedPacket => .fixedReadPacket p1 p2

def KdEnv.withBuffers (e : KdEnv) (a1 a2 : UInt64) (p1 p2 : List UInt8) : KdEnv :=
  { e with ke := { e.ke with
      user := fun a => if a = a1 then p1 else if a = a2 then p2 else e.ke.user a } }

def storedAt (a : UInt64) (p : List UInt8) (ws : List UserWrite) : List UInt8 :=
  ws.foldl (fun p w => if w.1 = a then splice p 0 w.2 else p) p

/-- An operation through `fn->write_al` or `fn->read_al` of a function of the driver, with the
buffers at `a1` and `a2`. -/
def kdStep (e : KdEnv) (a1 a2 : UInt64) (f : KdFunc) (k : Kernel) :
    AsscaOp → Exec (Kernel × AlignResult)
  | .write p1 p2 =>
    match f.writeAl with
    | none => .error .nullPointer
    | some access => do
      let r ← kdIoctl (e.withBuffers a1 a2 p1 p2) k f (access.write a1 a2)
      return (r.1.kernel, ⟨r.1.ret, storedAt a2 p2 r.2⟩)
  | .read p1 p2 =>
    match f.readAl with
    | none => .error .nullPointer
    | some access => do
      let r ← kdIoctl (e.withBuffers a1 a2 p1 p2) k f (access.read a1 a2)
      return (r.1.kernel, ⟨r.1.ret, storedAt a2 p2 r.2⟩)

end Calls

section Commands
variable {e : KdEnv} {k : Kernel} {minor : ℕ} {d : KDevice} {f : MemFunction} {cmd : List UInt8}

theorem cmdBytes_common : cmdBytes appmemdOpCommon = 24 := by decide

/-- The driver can read the command and eight bytes behind it. -/
structure StackReadable (e : KdEnv) : Prop where
  beyond : 8 ≤ e.beyond.length
  reach : 24 ≤ e.reach

/-- A command of sixteen bytes arrives, whatever stands behind it. -/
theorem common_arrives (S : StackReadable e) (hd : k.devices minor = some d) (hf : d.pFunc = some f)
    (hcmd : cmd.length = 16) : ∃ c : KamCmd,
      Reaches k minor appmemdOpCommon (some (e.block cmd)) d f c ∧
      ∀ off len, off + len ≤ 16 → window c.bytes off len = window cmd off len := by
  have hreach := S.reach
  have hlen : 24 ≤ (e.block cmd).length := by
    have := S.beyond
    rw [KdEnv.block, List.length_take, List.length_append]
    omega
  obtain ⟨c, hc, hwin⟩ := k.tempKcmd.copyIn_windows (n := 24) (by decide) hlen
  refine ⟨c, ⟨by decide, by decide, hd, hf, _, rfl, ?_, ?_⟩, fun off len h => ?_⟩
  · rw [cmdBytes_common]
    exact hlen
  · rw [cmdBytes_common]
    exact hc
  · rw [hwin off len (by omega), KdEnv.block, window_take _ (by omega),
      window_append_left _ (by omega)]

theorem KamCmd.u32OfBytes_drop {c : KamCmd} {off : ℕ} {v : UInt32}
    (h : window c.bytes off 4 = u32Bytes v) : u32OfBytes (c.bytes.drop off) = v := by
  have htake : (c.bytes.drop off).take 4 = u32Bytes v := h
  have hback := u32OfBytes_u32Bytes v
  rw [u32OfBytes, List.take_of_length_le (length_u32Bytes v).le] at hback
  rw [u32OfBytes, htake, hback]

theorem take_four {l : List UInt8} (h : 4 ≤ l.length) : u32Bytes (u32OfBytes l) = l.take 4 := by
  have hlen : (l.take 4).length = 4 := List.length_take_of_le h
  have hword : u32OfBytes l = u32OfBytes (l.take 4) := by
    rw [u32OfBytes, u32OfBytes, List.take_take]
    rfl
  rw [hword, u32Bytes_u32OfBytes hlen]

end Commands

section Aligned
variable {e : KdEnv} {k : Kernel} {minor : ℕ} {d : KDevice} {f f' : MemFunction} {g : KdFunc}
  {h : DeviceHandler} {a1 a2 : UInt64} {p1 p2 : List UInt8}

theorem user_fst : (e.withBuffers a1 a2 p1 p2).ke.user a1 = p1 := if_pos rfl

theorem user_snd (hne : a1 ≠ a2) : (e.withBuffers a1 a2 p1 p2).ke.user a2 = p2 := by
  change (if a2 = a1 then p1 else if a2 = a2 then p2 else _) = p2
  rw [if_neg hne.symm, if_pos rfl]

theorem ioctlSelect_aligned {ke : KEnv} {c : KamCmd} {n : ℕ}
    (hop : (amOpcode c.op).toNat < amOpMaxOps) (hslot : d.pfnOps ⟨_, hop⟩ = some (.device h))
    (ht : amNetGetPacktype c.op = amPackAlign.toUInt32) :
    ioctlSelect ke d f c n = .ok (alignedCall ke c (.device h)) := by
  simp only [ioctlSelect, d.slot_of_lt hop, hslot, ok_bind, if_pos ht]
  rfl

/-- The code of an aligned operation gets to the handler that is registered for it. -/
theorem ioctlSelect_code {ke : KEnv} {c : KamCmd} {n : ℕ} {code : UInt32} {op : UInt8}
    (hc : c.op = code) (hop : amOpcode code = op) (hlt : op.toNat < amOpMaxOps)
    (hslot : d.pfnOps ⟨op.toNat, hlt⟩ = some (.device h))
    (ht : amNetGetPacktype code = amPackAlign.toUInt32) :
    ioctlSelect ke d f c n = .ok (alignedCall ke c (.device h)) := by
  subst hc hop
  exact ioctlSelect_aligned hlt hslot ht

/-- A write of four bytes is the call of the handler on the index and the value. -/
theorem write32_ioctl (S : StackReadable e) (hg : g.handle = some minor)
    (hd : k.devices minor = some d) (hf : d.pFunc = some f)
    (hslot : d.pfnOps ⟨amOpWriteAlign.toNat, by decide⟩ = some (.device h)) (hne : a1 ≠ a2)
    (h1 : 4 ≤ p1.length) (h2 : 4 ≤ p2.length)
    (hcall : ∀ q1 q2 : List UInt8, 4 ≤ q1.length → 4 ≤ q2.length → u32OfBytes q1 = u32OfBytes p1 →
      q2.take 4 = p2.take 4 →
      invokeDevice .kernel e.ke.env h (.align q1 q2) f = .ok (f', { error := amRetGood })) :
    ∃ k', kdIoctl (e.withBuffers a1 a2 p1 p2) k g (.write32Align a1 a2) =
        .ok (⟨k', amRetGood, g, some amRetGood⟩, []) ∧ k'.devices = (k.setFunc minor f').devices := by
  let e' := e.withBuffers a1 a2 p1 p2
  let cmd := u32Bytes amOpCodeWriteAlign ++ u32Bytes (u32OfBytes p1) ++
    leBytes 8 (u32OfBytes p2).toNat
  have hcmd : write32Cmd e' a1 a2 = .ok cmd := by
    have hr1 : readU32 (e'.ke.user a1) = .ok (u32OfBytes p1) := by
      rw [user_fst]
      exact readU32_of_le h1
    have hr2 : readU32 (e'.ke.user a2) = .ok (u32OfBytes p2) := by
      rw [user_snd hne]
      exact readU32_of_le h2
    rw [write32Cmd, hr1, ok_bind, hr2]
    rfl
  have S' : StackReadable e' := ⟨S.beyond, S.reach⟩
  have hsize : cmd.length = 16 := by simp [cmd]
  obtain ⟨c, hreach, hwin⟩ := common_arrives S' hd hf hsize
  have hop : c.op = amOpCodeWriteAlign := KamCmd.u32OfBytes_drop (hwin 0 4 (by decide))
  have hidx : u32OfBytes (c.bytes.drop 4) = u32OfBytes p1 :=
    KamCmd.u32OfBytes_drop (hwin 4 4 (by decide))
  have hval : (c.bytes.drop 8).take 4 = p2.take 4 := by
    have h8 : window cmd 8 4 = u32Bytes (u32OfBytes p2) := by
      have hfront : (leBytes 8 (u32OfBytes p2).toNat).take 4 = leBytes 4 (u32OfBytes p2).toNat := rfl
      rw [u32Bytes, ← hfront]
      rfl
    rw [← take_four h2, ← h8]
    exact hwin 8 4 (by decide)
  have hlen : c.bytes.length = 256 := c.length_bytes
  have heven : ¬ c.op &&& 1 ≠ 0 := by
    rw [hop]
    decide
  have hselect : ioctlSelect e'.ke d f c (cmdBytes appmemdOpCommon) =
      .ok (.call (.device h) (.align (c.bytes.drop 4) (c.bytes.drop 8)) (.command 8)) := by
    rw [ioctlSelect_code hop (by decide) _ hslot (by decide), alignedCall, if_neg heven]
  have hinvoke : invokeDevice .kernel e'.ke.env h (.align (c.bytes.drop 4) (c.bytes.drop 8)) f =
      .ok (f', { error := amRetGood }) := by
    apply hcall _ _ _ _ hidx hval
    · rw [List.length_drop]
      omega
    · rw [List.length_drop]
      omega
  have hioctl : ∃ k', appmemdIoctl e'.ke k minor appmemdOpCommon (some (e'.block cmd)) =
      .ok ⟨k', amRetGood, some amRetGood, []⟩ ∧ k'.devices = (k.setFunc minor f').devices := by
    rw [appmemdIoctl_of_reaches hreach, ioctlRun, hselect, ok_bind]
    dsimp only
    rw [invokeDriver, hinvoke, ok_bind]
    exact ⟨_, rfl, rfl⟩
  obtain ⟨k', hioctl, hk'⟩ := hioctl
  refine ⟨k', ?_, hk'⟩
  have hpos : ¬ amRetGood < 0 := by decide
  simp only [kdIoctl, KdOp.command, KdOp.target, KdOp.code, hg]
  rw [hcmd, ok_bind]
  rw [hioctl, ok_bind, if_neg hpos]
  rfl

theorem read32_ioctl (S : StackReadable e) (hg : g.handle = some minor)
    (hd : k.devices minor = some d) (hf : d.pFunc = some f)
    (hslot : d.pfnOps ⟨amOpReadAlign.toNat, by decide⟩ = some (.device h)) (hne : a1 ≠ a2)
    (h1 : 4 ≤ p1.length) {out : List UInt8} (hout : out ≠ []) (hroom : out.length ≤ p2.length)
    (hcall : ∀ q1 : List UInt8, 4 ≤ q1.length → u32OfBytes q1 = u32OfBytes p1 →
      invokeDevice .kernel e.ke.env h (.align q1 p2) f =
        .ok (f', { error := amRetGood, out := out })) :
    ∃ k', kdIoctl (e.withBuffers a1 a2 p1 p2) k g (.read32Align a1 a2) =
        .ok (⟨k', amRetGood, g, some amRetGood⟩, [(a2, out)]) ∧
      k'.devices = (k.setFunc minor f').devices := by
  let e' := e.withBuffers a1 a2 p1 p2
  let cmd := u32Bytes amOpCodeReadAlign ++ u32Bytes (u32OfBytes p1) ++ leBytes 8 a2.toNat
  have hcmd : read32Cmd e' a1 a2 = .ok cmd := by
    have hr1 : readU32 (e'.ke.user a1) = .ok (u32OfBytes p1) := by
      rw [user_fst]
      exact readU32_of_le h1
    rw [read32Cmd, hr1]
    rfl
  have S' : StackReadable e' := ⟨S.beyond, S.reach⟩
  have hsize : cmd.length = 16 := by simp [cmd]
  obtain ⟨c, hreach, hwin⟩ := common_arrives S' hd hf hsize
  have hop : c.op = amOpCodeReadAlign := KamCmd.u32OfBytes_drop (hwin 0 4 (by decide))
  have hidx : u32OfBytes (c.bytes.drop 4) = u32OfBytes p1 :=
    KamCmd.u32OfBytes_drop (hwin 4 4 (by decide))
  have hdata : c.data = a2 := by
    have ha2 : a2.toNat < 256 ^ 8 := a2.toNat_lt
    have h8 : window c.bytes 8 8 = leBytes 8 a2.toNat := hwin 8 8 (by decide)
    rw [KamCmd.data, KamCmd.u64, h8, leVal_leBytes_of_lt ha2, UInt64.ofNat_toNat]
  have huser : e'.ke.user c.data = p2 := by
    rw [hdata]
    exact user_snd hne
  have hlen : c.bytes.length = 256 := c.length_bytes
  have hodd : c.op &&& 1 ≠ 0 := by
    rw [hop]
    decide
  have hselect : ioctlSelect e'.ke d f c (cmdBytes appmemdOpCommon) =
      .ok (.call (.device h) (.align (c.bytes.drop 4) p2) (.user a2)) := by
    rw [ioctlSelect_code hop (by decide) _ hslot (by decide), alignedCall, if_pos hodd, huser,
      hdata]
  have hinvoke : invokeDevice .kernel e'.ke.env h (.align (c.bytes.drop 4) p2) f =
      .ok (f', { error := amRetGood, out := out }) := by
    apply hcall _ _ hidx
    rw [List.length_drop]
    omega
  have hroom' : out.length ≤ (e'.ke.user a2).length := by
    rw [user_snd hne]
    exact hroom
  have hioctl : ∃ k', appmemdIoctl e'.ke k minor appmemdOpCommon (some (e'.block cmd)) =
      .ok ⟨k', amRetGood, some amRetGood, [(a2, out)]⟩ ∧
        k'.devices = (k.setFunc minor f').devices := by
    rw [appmemdIoctl_of_reaches hreach, ioctlRun, hselect, ok_bind]
    dsimp only
    rw [invokeDriver, hinvoke, ok_bind]
    simp only [pure_eq_ok, ok_bind, storeOut, require_of_true _ hroom', if_neg hout]
    exact ⟨_, rfl, rfl⟩
  obtain ⟨k', hioctl, hk'⟩ := hioctl
  refine ⟨k', ?_, hk'⟩
  have hpos : ¬ amRetGood < 0 := by decide
  simp only [kdIoctl, KdOp.command, KdOp.target, KdOp.code, hg]
  rw [hcmd, ok_bind]
  rw [hioctl, ok_bind, if_neg hpos]
  rfl

end Aligned

end AppMem.Driver
