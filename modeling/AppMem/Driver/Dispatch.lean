import AppMem.Driver.Ioctl
import AppMem.Pack.Dispatch
import AppMem.Target.Handlers

/-! # Well-typed dispatch

When the two dispatchers call a handler through the member of the union it was stored in, and
when they answer with an error. Neither looks at the pack type an operation was registered
with, and neither looks whether the operation lies inside the table.
-/
namespace AppMem.Driver
open Library.Bytes Library.Checked Abi Memory Pack Device Target

/-- The pack types of the operation codes of a handler, as `appmemd_ioctl.h` has them. -/
def DriverHandler.packTypes : DriverHandler → List UInt8
  | .appmemGetCapCount => [amPackTypeOpcodeOnly]
  | .appmemGetCapabilites | .appmemCreateFunction | .appmemGetCapDetails => [amPackTypeFivo]
  | .device h =>
    match h.convention with
    | .opOnly => [amPackTypeOpcodeOnly]
    | .action => [amPackAction]
    | .align => [amPackAlign, amKpack]
    | _ => []

section
variable (ke : KEnv) (k : Kernel) (minor : ℕ) (cmd : UInt32) (arg : Option (List UInt8))

/-- The checks in front of the dispatch let the command through to function `f` of device `d`. -/
def Reaches (d : KDevice) (f : MemFunction) (c : KamCmd) : Prop :=
  iocType cmd = appmemdIocMagic ∧ iocNr cmd ≤ appmemdIocMaxnr ∧ k.devices minor = some d ∧
    d.pFunc = some f ∧ ∃ block, arg = some block ∧ cmdBytes cmd ≤ block.length ∧
      k.tempKcmd.copyIn block (cmdBytes cmd) = .ok c

/-- A handler of the device's table is called as it was stored, and for a pack type of its
operation code. -/
def IoctlCalledAsStored : Prop :=
  ∃ (d : KDevice) (f : MemFunction) (c : KamCmd) (hop : (amOpcode c.op).toNat < amOpMaxOps)
    (h : DriverHandler) (call : PackCall) (dst : Dest),
    Reaches k minor cmd arg d f c ∧ d.pfnOps ⟨_, hop⟩ = some h ∧
      ioctlSelect ke d f c (cmdBytes cmd) = .ok (.call h call dst) ∧
      call.convention = h.convention ∧
      amNetGetPacktype c.op ∈ h.packTypes.map UInt8.toUInt32

def IoctlAnsweredWithError : Prop :=
  ∃ r, appmemdIoctl ke k minor cmd arg = .ok r ∧ r.handled = none ∧ r.ret ≠ amRetGood ∧
    r.kernel.devices = k.devices ∧ r.writes = []

/-- What the dispatcher of the driver should do with a command. -/
def IoctlSafe : Prop :=
  IoctlCalledAsStored ke k minor cmd arg ∨ IoctlAnsweredWithError ke k minor cmd arg

/-- The length of the packet is below what the device asks for. -/
def KDevice.TooShort (d : KDevice) (op : UInt32) (n : ℕ) : Prop :=
  n < (if op &&& 1 ≠ 0 then d.rdPackSize else d.wrPackSize).toNat

/-- The pack type of the command selects the way `h` was stored. A packet that is too short is
refused whatever the handler, and a packet read takes its pointer from the command. -/
def FitsHandler (d : KDevice) (f : MemFunction) (op : UInt32) (n : ℕ) (h : DriverHandler) : Prop :=
  if amNetGetPacktype op = amPackAlign.toUInt32 then h.convention = .align
  else if amNetGetPacktype op = amKpack.toUInt32 then
    d.TooShort op n ∨ h.convention = .align ∧
      (op &&& 1 ≠ 0 → 4 + 4 * f.crResp.packDataOffset.toNat + 8 ≤ sizeofKamCmd)
  else h.convention = .config ∧ amNetGetPacktype op ∈ h.packTypes.map UInt8.toUInt32

def IoctlDispatchable : Prop :=
  iocType cmd ≠ appmemdIocMagic ∨ appmemdIocMaxnr < iocNr cmd ∨
    ∃ block, arg = some block ∧ ∀ d f, k.devices minor = some d → d.pFunc = some f →
      iocNr cmd < appmemdIocMaxnr ∧ cmdBytes cmd ≤ block.length ∧
        ∃ hop : (amOpcode (u32OfBytes block)).toNat < amOpMaxOps,
          ∀ h, d.pfnOps ⟨_, hop⟩ = some h →
            FitsHandler d f (u32OfBytes block) (cmdBytes cmd) h

end

section Select
variable {ke : KEnv} {k : Kernel} {minor : ℕ} {cmd : UInt32} {arg : Option (List UInt8)}
  {d : KDevice} {f : MemFunction} {c : KamCmd} {n : ℕ} {h : DriverHandler}

theorem KDevice.slot_of_lt (d : KDevice) {op : UInt32} (hop : (amOpcode op).toNat < amOpMaxOps) :
    d.slot op = .ok (d.pfnOps ⟨_, hop⟩) := dif_pos hop

theorem KDevice.slot_of_ge (d : KDevice) {op : UInt32}
    (hop : ¬ (amOpcode op).toNat < amOpMaxOps) : d.slot op = .error .opTable := dif_neg hop

theorem cmdBytes_le (h : iocNr cmd < appmemdIocMaxnr) : cmdBytes cmd ≤ sizeofKamCmd := by
  simp only [cmdBytes, sizeofKamCmd, appmemdIocMaxnr] at *
  omega

theorem KamCmd.copyIn_of_le (c : KamCmd) {src : List UInt8} (hn : n ≤ sizeofKamCmd)
    (hsrc : n ≤ src.length) (h4 : 4 ≤ n) :
    ∃ c', c.copyIn src n = .ok c' ∧ c'.op = u32OfBytes src := by
  refine ⟨_, dif_pos hn, ?_⟩
  have hlen : (src.take n ++ List.replicate (n - (src.take n).length) 0).length = n := by
    simp [hsrc]
  have htake : (src.take n ++ List.replicate (n - (src.take n).length) 0).take 4 =
      src.take 4 := by
    have h4' : 4 ≤ (src.take n).length := by
      rw [List.length_take]
      omega
    rw [List.take_append_of_le_length h4', List.take_take, Nat.min_eq_left h4]
  have h4' : 4 ≤ (src.take n ++ List.replicate (n - (src.take n).length) 0).length := by
    rw [hlen]
    exact h4
  rw [KamCmd.op, KamCmd.u32, List.drop_zero, u32OfBytes, take_splice_front h4', htake, u32OfBytes]

theorem appmemdIoctl_of_reaches (hr : Reaches k minor cmd arg d f c) :
    appmemdIoctl ke k minor cmd arg =
      ioctlRun ke { k with tempKcmd := c } minor d f (cmdBytes cmd) := by
  rcases hr with ⟨hm, hn, hd, hf, block, rfl, hlen, hc⟩
  have hnot : ¬ appmemdIocMaxnr < iocNr cmd := Nat.not_lt.mpr hn
  have hlen' : ¬ block.length < cmdBytes cmd := Nat.not_lt.mpr hlen
  simp only [appmemdIoctl, hm, hnot, hd, hf, hc, hlen', ne_eq, not_true_eq_false, if_false, ok_bind]

theorem packTypes_of_align (hc : h.convention = .align) : h.packTypes = [amPackAlign, amKpack] := by
  cases h with
  | device h =>
    have hd : h.convention = .align := hc
    simp only [DriverHandler.packTypes, hd]
  | _ => cases hc

theorem ioctlSelect_none (hop : (amOpcode c.op).toNat < amOpMaxOps)
    (hs : d.pfnOps ⟨_, hop⟩ = none) : ioctlSelect ke d f c n = .ok (.ret negEnotty) := by
  simp only [ioctlSelect, d.slot_of_lt hop, hs, ok_bind]
  rfl

inductive SelectCase (ke : KEnv) (d : KDevice) (f : MemFunction) (c : KamCmd) (n : ℕ)
    (h : DriverHandler) : Exec Chosen → Prop
  | aligned (call : PackCall) (dst : Dest) (hc : call.convention = .align)
    (ht : amNetGetPacktype c.op = amPackAlign.toUInt32) :
    SelectCase ke d f c n h (.ok (.call h call dst))
  | tooShort (hl : amNetGetPacktype c.op ≠ amPackAlign.toUInt32)
    (ht : amNetGetPacktype c.op = amKpack.toUInt32) (hn : d.TooShort c.op n) :
    SelectCase ke d f c n h (.ok (.ret negEnotty))
  | packet (call : PackCall) (dst : Dest) (hc : call.convention = .align)
    (hl : amNetGetPacktype c.op ≠ amPackAlign.toUInt32)
    (ht : amNetGetPacktype c.op = amKpack.toUInt32) (hn : ¬ d.TooShort c.op n)
    (hp : c.op &&& 1 ≠ 0 → 4 + 4 * f.crResp.packDataOffset.toNat + 8 ≤ sizeofKamCmd) :
    SelectCase ke d f c n h (.ok (.call h call dst))
  | noPointer (hl : amNetGetPacktype c.op ≠ amPackAlign.toUInt32)
    (ht : amNetGetPacktype c.op = amKpack.toUInt32) (hn : ¬ d.TooShort c.op n)
    (ho : c.op &&& 1 ≠ 0)
    (hp : ¬ 4 + 4 * f.crResp.packDataOffset.toNat + 8 ≤ sizeofKamCmd) :
    SelectCase ke d f c n h (.error .bounds)
  | config (dst : Dest) (hl : amNetGetPacktype c.op ≠ amPackAlign.toUInt32)
    (ht : amNetGetPacktype c.op ≠ amKpack.toUInt32) :
    SelectCase ke d f c n h (.ok (.call h .config dst))

theorem ioctlSelect_cases (hop : (amOpcode c.op).toNat < amOpMaxOps)
    (hs : d.pfnOps ⟨_, hop⟩ = some h) :
    SelectCase ke d f c n h (ioctlSelect ke d f c n) := by
  simp only [ioctlSelect, d.slot_of_lt hop, hs, ok_bind]
  split
  · rename_i ht
    unfold alignedCall
    split
    · exact .aligned _ _ rfl ht
    · exact .aligned _ _ rfl ht
  · rename_i hl
    split
    · rename_i ht
      unfold packetCall
      split
      · rename_i ho
        have hshort : d.TooShort c.op n ↔ n < d.rdPackSize.toNat := by
          rw [KDevice.TooShort, if_pos ho]
        split
        · rename_i hn
          have hnot : ¬ d.TooShort c.op n := by
            rw [hshort]
            omega
          by_cases hp : 4 + 4 * f.crResp.packDataOffset.toNat + 8 ≤ sizeofKamCmd
          · have hlen : 8 ≤ (c.packetData f.crResp.packDataOffset).length := by
              rw [KamCmd.packetData, List.length_drop, c.length_bytes]
              omega
            simp only [readU64, readBytes_of_le hlen, ok_bind]
            exact .packet _ _ rfl hl ht hnot fun _ => hp
          · have hlen : (c.packetData f.crResp.packDataOffset).length < 8 := by
              rw [KamCmd.packetData, List.length_drop, c.length_bytes]
              omega
            simp only [readU64, readBytes_of_lt hlen, error_bind]
            exact .noPointer hl ht hnot ho hp
        · rename_i hn
          exact .tooShort hl ht (hshort.mpr (by omega))
      · rename_i ho
        have hshort : d.TooShort c.op n ↔ n < d.wrPackSize.toNat := by
          rw [KDevice.TooShort, if_neg ho]
        split
        · rename_i hn
          exact .packet _ _ rfl hl ht (by rw [hshort]; omega) fun h => absurd h ho
        · rename_i hn
          exact .tooShort hl ht (hshort.mpr (by omega))
    · rename_i ht
      exact .config _ hl ht

end Select

section Safe
variable {ke : KEnv} {k : Kernel} {minor : ℕ} {cmd : UInt32} {arg : Option (List UInt8)}
  {d d' : KDevice} {f f' : MemFunction} {c c' : KamCmd} {h : DriverHandler}

theorem Reaches.unique (hr : Reaches k minor cmd arg d f c)
    (hr' : Reaches k minor cmd arg d' f' c') : d' = d ∧ f' = f ∧ c' = c := by
  rcases hr with ⟨-, -, hd, hf, block, ha, -, hc⟩
  rcases hr' with ⟨-, -, hd', hf', block', ha', -, hc'⟩
  cases Option.some.inj (hd.symm.trans hd')
  cases Option.some.inj (ha.symm.trans ha')
  exact ⟨rfl, Option.some.inj (hf'.symm.trans hf), Except.ok.inj (hc'.symm.trans hc)⟩

/-- Without a handler the dispatcher answers with an error and touches only its buffer. -/
theorem answeredWithError_of_ret (hr : Reaches k minor cmd arg d f c)
    (hs : ioctlSelect ke d f c (cmdBytes cmd) = .ok (.ret negEnotty)) :
    IoctlAnsweredWithError ke k minor cmd arg := by
  refine ⟨.early { k with tempKcmd := c } negEnotty, ?_, rfl, ?_, rfl, rfl⟩
  · simp only [appmemdIoctl_of_reaches hr, ioctlRun, hs, ok_bind]
    rfl
  · change negEnotty ≠ amRetGood
    decide

/-- With a handler to call, only the first way of being safe is left. -/
theorem not_answeredWithError_of_call (hr : Reaches k minor cmd arg d f c) {call : PackCall}
    {dst : Dest} (hs : ioctlSelect ke d f c (cmdBytes cmd) = .ok (.call h call dst)) :
    ¬ IoctlAnsweredWithError ke k minor cmd arg := by
  rintro ⟨r, hret, hnone, -⟩
  simp only [appmemdIoctl_of_reaches hr, ioctlRun, hs, ok_bind, bind_eq_ok, pure_eq_ok,
    Except.ok.injEq] at hret
  rcases hret with ⟨_, _, _, _, rfl⟩
  cases hnone

theorem calledAsStored_iff (hr : Reaches k minor cmd arg d f c)
    (hop : (amOpcode c.op).toNat < amOpMaxOps) (hslot : d.pfnOps ⟨_, hop⟩ = some h) :
    IoctlCalledAsStored ke k minor cmd arg ↔
      ∃ call dst, ioctlSelect ke d f c (cmdBytes cmd) = .ok (.call h call dst) ∧
        call.convention = h.convention ∧
        amNetGetPacktype c.op ∈ h.packTypes.map UInt8.toUInt32 := by
  constructor
  · rintro ⟨d', f', c', hop', h', call, dst, hr', hslot', hs, hc, ht⟩
    obtain ⟨rfl, rfl, rfl⟩ := hr.unique hr'
    cases Option.some.inj (hslot.symm.trans hslot')
    exact ⟨call, dst, hs, hc, ht⟩
  · rintro ⟨call, dst, hs, hc, ht⟩
    exact ⟨d, f, c, hop, h, call, dst, hr, hslot, hs, hc, ht⟩

/-- Once a command has got through the checks, its handler must fit. -/
theorem ioctlSafe_of_reaches (hr : Reaches k minor cmd arg d f c) :
    IoctlSafe ke k minor cmd arg ↔ ∃ hop : (amOpcode c.op).toNat < amOpMaxOps,
      ∀ h, d.pfnOps ⟨_, hop⟩ = some h → FitsHandler d f c.op (cmdBytes cmd) h := by
  by_cases hop : (amOpcode c.op).toNat < amOpMaxOps
  · cases hslot : d.pfnOps ⟨_, hop⟩ with
    | none =>
      refine iff_of_true (.inr (answeredWithError_of_ret hr (ioctlSelect_none hop hslot))) ?_
      refine ⟨hop, fun h hh => ?_⟩
      rw [hslot] at hh
      cases hh
    | some h =>
      have hfits : (∃ hop : (amOpcode c.op).toNat < amOpMaxOps,
          ∀ h, d.pfnOps ⟨_, hop⟩ = some h → FitsHandler d f c.op (cmdBytes cmd) h) ↔
          FitsHandler d f c.op (cmdBytes cmd) h := by
        constructor
        · rintro ⟨_, hall⟩
          exact hall h hslot
        · intro hh
          exact ⟨hop, fun h' hh' => Option.some.inj (hslot.symm.trans hh') ▸ hh⟩
      have hcases : SelectCase ke d f c (cmdBytes cmd) h (ioctlSelect ke d f c (cmdBytes cmd)) :=
        ioctlSelect_cases hop hslot
      rw [hfits, IoctlSafe, calledAsStored_iff hr hop hslot]
      generalize hsel : ioctlSelect ke d f c (cmdBytes cmd) = sel at hcases
      cases hcases with
      | aligned call dst hc ht =>
        have hno := not_answeredWithError_of_call hr hsel
        simp only [FitsHandler, ht, if_true]
        constructor
        · rintro (⟨call', dst', hs, hc', -⟩ | hans)
          · cases hs
            rw [← hc', hc]
          · exact absurd hans hno
        · intro hh
          refine .inl ⟨call, dst, rfl, hc.trans hh.symm, ?_⟩
          rw [packTypes_of_align hh]
          exact List.mem_cons_self
      | tooShort hl ht hn =>
        refine iff_of_true (.inr (answeredWithError_of_ret hr hsel)) ?_
        rw [FitsHandler, if_neg hl, if_pos ht]
        exact .inl hn
      | packet call dst hc hl ht hn hp =>
        have hno := not_answeredWithError_of_call hr hsel
        rw [FitsHandler, if_neg hl, if_pos ht]
        constructor
        · rintro (⟨call', dst', hs, hc', -⟩ | hans)
          · cases hs
            exact .inr ⟨hc'.symm.trans hc, hp⟩
          · exact absurd hans hno
        · rintro (hshort | ⟨hh, -⟩)
          · exact absurd hshort hn
          · refine .inl ⟨call, dst, rfl, hc.trans hh.symm, ?_⟩
            rw [packTypes_of_align hh, ht]
            exact List.mem_cons_of_mem _ List.mem_cons_self
      | noPointer hl ht hn ho hp =>
        rw [FitsHandler, if_neg hl, if_pos ht]
        refine iff_of_false ?_ ?_
        · rintro (⟨_, _, hs, _⟩ | ⟨r, hret, _⟩)
          · cases hs
          · simp only [appmemdIoctl_of_reaches hr, ioctlRun, hsel, error_bind] at hret
            cases hret
        · rintro (hshort | ⟨-, hpos⟩)
          · exact hn hshort
          · exact hp (hpos ho)
      | config dst hl ht =>
        have hno := not_answeredWithError_of_call hr hsel
        rw [FitsHandler, if_neg hl, if_neg ht]
        constructor
        · rintro (⟨call', dst', hs, hc', hty⟩ | hans)
          · cases hs
            exact ⟨hc'.symm, hty⟩
          · exact absurd hans hno
        · rintro ⟨hh, hty⟩
          exact .inl ⟨.config, dst, rfl, hh.symm, hty⟩
  · refine iff_of_false ?_ (fun hh => hop hh.1)
    have hs : ioctlSelect ke d f c (cmdBytes cmd) = .error .opTable := by
      simp only [ioctlSelect, d.slot_of_ge hop, error_bind]
    rintro (⟨d', f', c', hop', h', call, dst, hr', -⟩ | ⟨r, hret, -⟩)
    · obtain ⟨rfl, rfl, rfl⟩ := hr.unique hr'
      exact hop hop'
    · simp only [appmemdIoctl_of_reaches hr, ioctlRun, hs, error_bind] at hret
      cases hret

theorem ioctlSafe_of_early (h : appmemdIoctl ke k minor cmd arg = .ok (.early k negEnotty)) :
    IoctlSafe ke k minor cmd arg := by
  have hne : negEnotty ≠ amRetGood := by decide
  exact .inr ⟨_, h, rfl, hne, rfl, rfl⟩

/-- A command that reaches no function must not be answered as good. -/
theorem not_ioctlSafe_of_good {k' : Kernel}
    (h : appmemdIoctl ke k minor cmd arg = .ok (.early k' amRetGood))
    (hno : ∀ d f c, ¬ Reaches k minor cmd arg d f c) : ¬ IoctlSafe ke k minor cmd arg := by
  rintro (⟨d, f, c, -, -, -, -, hr, -⟩ | ⟨r, hr, -, hbad, -⟩)
  · exact hno d f c hr
  · rw [h] at hr
    cases hr
    exact hbad rfl

/-- A command that would not fit into the buffer is written past its end. -/
theorem not_ioctlSafe_of_overflow {block : List UInt8} (hm : iocType cmd = appmemdIocMagic)
    (hn : iocNr cmd = appmemdIocMaxnr) (hd : k.devices minor = some d) (hf : d.pFunc = some f) :
    ¬ IoctlSafe ke k minor cmd (some block) := by
  have hnot : ¬ appmemdIocMaxnr < iocNr cmd := by omega
  have hcopy : k.tempKcmd.copyIn block (cmdBytes cmd) = .error .bounds := by
    refine dif_neg ?_
    simp only [cmdBytes, sizeofKamCmd, hn, appmemdIocMaxnr]
    decide
  rintro (⟨_, _, _, _, _, _, _, ⟨-, -, -, -, _, ha, -, hc⟩, -⟩ | ⟨r, hret, -⟩)
  · cases ha
    rw [hcopy] at hc
    cases hc
  · simp only [appmemdIoctl, hm, hnot, hd, hf, hcopy, ne_eq, not_true_eq_false, if_false,
      error_bind] at hret
    cases hret

theorem ioctlSafe_of_function {block : List UInt8} (hm : iocType cmd = appmemdIocMagic)
    (hn : iocNr cmd ≤ appmemdIocMaxnr) (hd : k.devices minor = some d) (hf : d.pFunc = some f) :
    IoctlSafe ke k minor cmd (some block) ↔
      iocNr cmd < appmemdIocMaxnr ∧ cmdBytes cmd ≤ block.length ∧
        ∃ hop : (amOpcode (u32OfBytes block)).toNat < amOpMaxOps,
          ∀ h, d.pfnOps ⟨_, hop⟩ = some h →
            FitsHandler d f (u32OfBytes block) (cmdBytes cmd) h := by
  rcases Nat.lt_or_eq_of_le hn with hlt | heq
  · by_cases hlen : cmdBytes cmd ≤ block.length
    · obtain ⟨c, hc, hcop⟩ := k.tempKcmd.copyIn_of_le (cmdBytes_le hlt) hlen
        (by unfold cmdBytes; omega)
      have hr : Reaches k minor cmd (some block) d f c :=
        ⟨hm, hn, hd, hf, block, rfl, hlen, hc⟩
      rw [ioctlSafe_of_reaches hr, hcop]
      exact ⟨fun h => ⟨hlt, hlen, h⟩, fun h => h.2.2⟩
    · obtain ⟨c, hc⟩ : ∃ c, k.tempKcmd.copyIn block (cmdBytes cmd) = .ok c :=
        ⟨_, dif_pos (cmdBytes_le hlt)⟩
      have hret : appmemdIoctl ke k minor cmd (some block) =
          .ok (.early { k with tempKcmd := c } amRetGood) := by
        simp only [appmemdIoctl, hm, Nat.not_lt.mpr hn, hd, hf, hc, ne_eq, not_true_eq_false,
          if_false, ok_bind, Nat.not_le.mp hlen, if_true]
        rfl
      refine iff_of_false (not_ioctlSafe_of_good hret ?_) fun h => hlen h.2.1
      rintro _ _ _ ⟨-, -, -, -, _, ha, hlen', -⟩
      cases ha
      exact hlen hlen'
  · exact iff_of_false (not_ioctlSafe_of_overflow hm heq hd hf) fun h => h.1.ne heq

/-- The dispatcher of the driver is safe exactly for the commands described above. -/
theorem ioctlSafe_iff : IoctlSafe ke k minor cmd arg ↔ IoctlDispatchable k minor cmd arg := by
  by_cases hm : iocType cmd = appmemdIocMagic
  · by_cases hn : appmemdIocMaxnr < iocNr cmd
    · refine iff_of_true (ioctlSafe_of_early ?_) (.inr (.inl hn))
      simp only [appmemdIoctl, hm, hn, ne_eq, not_true_eq_false, if_false, if_true]
    · have hrest : IoctlDispatchable k minor cmd arg ↔
          ∃ block, arg = some block ∧ ∀ d f, k.devices minor = some d → d.pFunc = some f →
            iocNr cmd < appmemdIocMaxnr ∧ cmdBytes cmd ≤ block.length ∧
              ∃ hop : (amOpcode (u32OfBytes block)).toNat < amOpMaxOps,
                ∀ h, d.pfnOps ⟨_, hop⟩ = some h →
                  FitsHandler d f (u32OfBytes block) (cmdBytes cmd) h := by
        rw [IoctlDispatchable, or_iff_right (fun h => h hm), or_iff_right hn]
      rw [hrest]
      cases arg with
      | none =>
        have hret : appmemdIoctl ke k minor cmd none = .ok (.early k amRetGood) := by
          simp only [appmemdIoctl, hm, hn, ne_eq, not_true_eq_false, if_false]
        refine iff_of_false (not_ioctlSafe_of_good hret ?_) ?_
        · rintro d f c ⟨-, -, -, -, _, ha, -⟩
          cases ha
        · rintro ⟨_, ha, -⟩
          cases ha
      | some block =>
        cases hd : k.devices minor with
        | none =>
          refine iff_of_true (ioctlSafe_of_early ?_) ⟨block, rfl, fun d f h => nomatch h⟩
          simp only [appmemdIoctl, hm, hn, hd, ne_eq, not_true_eq_false, if_false]
        | some d =>
          cases hf : d.pFunc with
          | none =>
            refine iff_of_true (ioctlSafe_of_early ?_) ⟨block, rfl, fun d' f h h' => ?_⟩
            · simp only [appmemdIoctl, hm, hn, hd, hf, ne_eq, not_true_eq_false, if_false]
            · cases h
              rw [hf] at h'
              cases h'
          | some f =>
            rw [ioctlSafe_of_function hm (Nat.not_lt.mp hn) hd hf]
            constructor
            · intro h
              refine ⟨block, rfl, fun d' f' h₁ h₂ => ?_⟩
              cases h₁
              cases Option.some.inj (hf.symm.trans h₂)
              exact h
            · rintro ⟨_, ha, hall⟩
              cases ha
              exact hall d f rfl hf
  · refine iff_of_true (ioctlSafe_of_early ?_) (.inl hm)
    simp only [appmemdIoctl, hm, ne_eq, not_false_eq_true, if_true]

end Safe

/-- Both dispatchers, for every request and every function. -/
theorem dispatchSafe_iff (env : Env) (pFunc : Option (FuncHdr BaseHandler)) (t : FuncTable)
    (b : Build) (f : MemFunction) (rxBuf : PackAll) (resp : PackResp) (stale : UInt32) (ke : KEnv)
    (k : Kernel) (minor : ℕ) (cmd : UInt32) (arg : Option (List UInt8)) :
    (DispatchSafe BaseHandler.convention (invokeBase env) pFunc rxBuf resp stale t ↔
      Dispatchable BaseHandler.convention pFunc rxBuf) ∧
    (DispatchSafe DeviceHandler.convention (invokeDevice b env) (some f.hdr) rxBuf resp stale f ↔
      Dispatchable DeviceHandler.convention (some f.hdr) rxBuf) ∧
    (IoctlSafe ke k minor cmd arg ↔ IoctlDispatchable k minor cmd arg) :=
  ⟨packDispatch_iff, packDispatch_iff, ioctlSafe_iff⟩

/-- A packet that calls the sort of a static array as if it took no parameters. -/
theorem not_dispatchSafe :
    ¬ ∀ b env f rxBuf resp stale,
      DispatchSafe DeviceHandler.convention (invokeDevice b env) (some f.hdr) rxBuf resp stale f := by
  intro h
  have hall := packDispatch_iff.mp (h .user .zeroed (stataDevice .zeroed (.blank 0xAA01) stataCaps)
    { Frame.zero with wrap := ⟨0xAA01, amPackTypeOpcodeOnly, amOpSort, 1, 8⟩ } .zero 0)
  obtain ⟨hop, hslot⟩ := hall _ rfl
  cases hslot .amStataSort rfl .opOnly rfl

end AppMem.Driver
