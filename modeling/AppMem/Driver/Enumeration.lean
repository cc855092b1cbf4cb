import AppMem.Device.Virtd
import AppMem.Driver.Filling
import AppMem.Driver.PacketWrite
import AppMem.Driver.Unload

/-! # What a client can ask for

The number of capabilities, the capabilities and the details of a type, from the driver and from the
virtual device. Both go through their table of entries with the same loop; the driver stores each
record by itself in the memory of the client.
-/
namespace AppMem.Driver
open Library.Bytes Library.Checked Library.Blocks Abi Memory Pack Device

section Virtd

def amVirtdGetCapabilitesCount : UInt32 := virtdBaseCap.subType

/-- The number of records for a type; the base device has one whatever its capability says. -/
def detailsCount (amType : UInt32) (e : FunctionEntry) : Exec UInt32 :=
  if amType = amTypeBaseAppmem then .ok 1
  else match e.pCap with
    | none => .error .nullPointer
    | some cap => .ok cap.subType

def amVirtGetCapDetails (entries : Registry) (pCapDetails : List UInt8) (amType : UInt32) :
    Exec (AmReturn × List UInt8) :=
  if h : amType.toNat < maxDeviceFunctions then
    match entries ⟨_, h⟩ with
    | none => .ok (amRetInvalidOpcode, pCapDetails)
    | some e =>
      match e.pCapDetails with
      | none => .ok (amRetInvalidOpcode, pCapDetails)
      | some details => do
        let stCount ← detailsCount amType e
        let b ← readBytes (details.flatMap AmCapDetails.bytes) (stCount.toNat * sizeofCapDetails)
        let pCapDetails ← writeBytes pCapDetails b
        return (amRetGood, pCapDetails)
  else .ok (amRetInvalidOpcode, pCapDetails)

end Virtd

section Client

def amOpCodeGetcCapCount : UInt32 := amSetPacktype amPackTypeOpcodeOnly amOpGetCapCount
def amOpCodeGetCaps : UInt32 := amSetPacktype amPackTypeFivo amOpGetCap
def amOpCodeGetCapDetails : UInt32 := amSetPacktype amPackTypeFivo amOpGetCapDetails

def commonCmd (op len : UInt32) (data : UInt64) (parameter : List UInt8) : List UInt8 :=
  u32Bytes op ++ u32Bytes len ++ leBytes 8 data.toNat ++ parameter

def unsetParameter (e : KdEnv) : List UInt8 := window e.stack.bytes 16 8

def commonIoctl (e : KdEnv) (k : Kernel) (cmd : List UInt8) : Exec IoctlResult :=
  appmemdIoctl e.ke k 0 appmemdOpCommon (some (e.block cmd))

/-- What can be read from address `a` on after the stores of the driver behind it. -/
def storedFrom (a : UInt64) (p : List UInt8) (ws : List UserWrite) : List UInt8 :=
  ws.foldl (fun p w => splice p (w.1 - a).toNat w.2) p

/-- `am_kd_get_capabilities_count`, with its counter at `pCount`. -/
def amKdGetCapabilitiesCount (e : KdEnv) (k : Kernel) (pCount : UInt64) :
    Exec (Kernel × UInt32) :=
  if e.opened then do
    let r ← commonIoctl e k (commonCmd amOpCodeGetcCapCount 4 pCount (unsetParameter e))
    return (r.kernel, u32OfBytes (storedFrom pCount (u32Bytes 0) r.writes))
  else .ok (k, 0)

def amKdGetCapabilities (e : KdEnv) (k : Kernel) (pAmCaps : UInt64) (count : UInt32) :
    Exec (Kernel × AmReturn × List UInt8) :=
  if e.opened then do
    let len := count * sizeofMemCap.toUInt32
    let r ← commonIoctl e k (commonCmd amOpCodeGetCaps len pAmCaps (unsetParameter e))
    let p := storedFrom pAmCaps (e.ke.user pAmCaps) r.writes
    return (r.kernel, if r.ret < 0 then amRetIoErr else amRetGood, p)
  else .ok (k, amRetOpenErr, e.ke.user pAmCaps)

/-- `am_kd_get_cap_details`; there is no status when it ends the program. -/
def amKdGetCapDetails (e : KdEnv) (k : Kernel) (pCapDetails : UInt64) (amType : UInt32) :
    Exec (Kernel × Option AmReturn × List UInt8) :=
  if e.opened then do
    let len := sizeofCapDetails.toUInt32 * 5
    let r ← commonIoctl e k
      (commonCmd amOpCodeGetCapDetails len pCapDetails (leBytes 8 amType.toNat))
    let p := storedFrom pCapDetails (e.ke.user pCapDetails) r.writes
    return (r.kernel, if r.ret < 0 then none else some amRetGood, p)
  else .ok (k, some amRetOpenErr, e.ke.user pCapDetails)

end Client

section Commands
variable {k : Kernel} {d : KDevice} {f : MemFunction} {op len : UInt32} {data : UInt64}
  {parameter : List UInt8} {h : DriverHandler}

/-- The words of a command in the buffer of the driver. -/
structure Carries24 (c : KamCmd) (op len : UInt32) (data : UInt64) (parameter : List UInt8) :
    Prop where
  op : c.op = op
  len : c.len = len
  data : c.data = data
  parameter : c.parameter = UInt64.ofNat (leVal parameter)

theorem length_commonCmd (hp : parameter.length = 8) :
    (commonCmd op len data parameter).length = 24 := by
  simp [commonCmd, hp]

theorem carries_commonCmd {c : KamCmd} (hp : parameter.length = 8)
    (hc : ∀ off n, off + n ≤ 24 →
      window c.bytes off n = window (commonCmd op len data parameter) off n) :
    Carries24 c op len data parameter := by
  have hu32 : ∀ off, off + 4 ≤ 24 → c.u32 off =
      UInt32.ofNat (leVal (window (commonCmd op len data parameter) off 4)) := by
    intro off hoff
    rw [← hc off 4 hoff]
    rfl
  have hu64 : ∀ off, off + 8 ≤ 24 → c.u64 off =
      UInt64.ofNat (leVal (window (commonCmd op len data parameter) off 8)) := by
    intro off hoff
    rw [← hc off 8 hoff]
    rfl
  have hop : window (commonCmd op len data parameter) 0 4 = u32Bytes op := by
    rw [commonCmd, List.append_assoc, List.append_assoc, window_zero,
      List.take_left' (length_u32Bytes op)]
  have hlen : window (commonCmd op len data parameter) 4 4 = u32Bytes len := by
    rw [commonCmd, List.append_assoc, List.append_assoc, window,
      List.drop_left' (length_u32Bytes op), List.take_left' (length_u32Bytes len)]
  have hdata : window (commonCmd op len data parameter) 8 8 = leBytes 8 data.toNat := by
    rw [commonCmd, List.append_assoc, window, List.drop_left' (by simp),
      List.take_left' (length_leBytes 8 _)]
  have hparameter : window (commonCmd op len data parameter) 16 8 = parameter := by
    rw [commonCmd, window, List.drop_left' (by simp), List.take_of_length_le hp.le]
  have hword : ∀ v : UInt32, UInt32.ofNat (leVal (u32Bytes v)) = v := by
    intro v
    have hv : v.toNat < 256 ^ 4 := v.toNat_lt
    rw [u32Bytes, leVal_leBytes_of_lt hv, UInt32.ofNat_toNat]
  have hquad : UInt64.ofNat (leVal (leBytes 8 data.toNat)) = data := by
    have hv : data.toNat < 256 ^ 8 := data.toNat_lt
    rw [leVal_leBytes_of_lt hv, UInt64.ofNat_toNat]
  constructor
  · rw [KamCmd.op, hu32 0 (by decide), hop, hword]
  · rw [KamCmd.len, hu32 4 (by decide), hlen, hword]
  · rw [KamCmd.data, hu64 8 (by decide), hdata, hquad]
  · rw [KamCmd.parameter, hu64 16 (by decide), hparameter]

theorem commonIoctl_eq (e : KdEnv) (len : UInt32) (data : UInt64) (hd : k.devices 0 = some d)
    (hf : d.pFunc = some f) (hreach : 24 ≤ e.reach) (hp : parameter.length = 8)
    (hop : (amOpcode op).toNat < amOpMaxOps) (hh : d.pfnOps ⟨_, hop⟩ = some h)
    (halign : amNetGetPacktype op ≠ amPackAlign.toUInt32)
    (hkpack : amNetGetPacktype op ≠ amKpack.toUInt32) :
    ∃ c, Carries24 c op len data parameter ∧
      commonIoctl e k (commonCmd op len data parameter) = do
        let r ← invokeDriver e.ke 0 f { k with tempKcmd := c } h .config
        let s ← storeOut e.ke r.1 (.command 0) r.2.out
        return ⟨s.1, r.2.error, some r.2.error, r.2.writes ++ s.2⟩ := by
  have hblock : (e.block (commonCmd op len data parameter)).take 24 =
      commonCmd op len data parameter := by
    rw [KdEnv.block, List.take_take, Nat.min_eq_left hreach,
      List.take_left' (length_commonCmd hp)]
  have hlong : 24 ≤ (e.block (commonCmd op len data parameter)).length := by
    have h24 := congrArg List.length hblock
    rw [List.length_take, length_commonCmd hp] at h24
    omega
  obtain ⟨c, hc, hwin⟩ := k.tempKcmd.copyIn_windows (n := 24) (by decide) hlong
  have C : Carries24 c op len data parameter := by
    apply carries_commonCmd hp
    intro off n hoff
    rw [hwin off n hoff, ← window_take _ hoff, hblock]
  have hreaches : Reaches k 0 appmemdOpCommon (some (e.block (commonCmd op len data parameter)))
      d f c := ⟨by decide, by decide, hd, hf, _, rfl, hlong, hc⟩
  refine ⟨c, C, ?_⟩
  rw [commonIoctl, appmemdIoctl_of_reaches hreaches, ioctlRun]
  have hslot : d.slot op = .ok (some h) := by
    rw [d.slot_of_lt hop, hh]
  simp only [ioctlSelect, C.op, hslot, ok_bind, if_neg halign, if_neg hkpack, pure_eq_ok]

end Commands

section Base
variable {ke : KEnv} {k k' : Kernel} {entries : Registry} {f : MemFunction} {minor : ℕ}
  {cmd : UInt32} {arg : Option (List UInt8)} {q : IoctlResult} {r : KServed}

def baseOps : Fin amOpMaxOps → Option DriverHandler := (baseDevice (.blank 0) 0).pfnOps

/-- The driver has its base device, and these entries. -/
structure Answers (k : Kernel) (entries : Registry) : Prop where
  entries : k.entries = entries
  numbered : 0 < k.minor
  base : ∃ d f, k.devices 0 = some d ∧ d.pFunc = some f ∧ d.pfnOps = baseOps ∧
    f.amType = amTypeBaseAppmem

theorem baseOps_ne_device (i : Fin amOpMaxOps) (h : DeviceHandler) :
    baseOps i ≠ some (.device h) := by
  simp only [baseOps, baseDevice, setOp]
  split_ifs <;> simp

theorem Answers.of_eq (A : Answers k entries) (hentries : k'.entries = k.entries)
    (hminor : k.minor ≤ k'.minor) (hbase : k'.devices 0 = k.devices 0) : Answers k' entries :=
  ⟨hentries.trans A.entries, A.numbered.trans_le hminor, hbase ▸ A.base⟩

theorem ioctlSelect_call {d : KDevice} {c : KamCmd} {n : ℕ} {h : DriverHandler} {p : PackCall}
    {dst : Dest} (hs : ioctlSelect ke d f c n = .ok (.call h p dst)) :
    ∃ i, d.pfnOps i = some h := by
  by_cases hop : (amOpcode c.op).toNat < amOpMaxOps
  · cases hh : d.pfnOps ⟨_, hop⟩ with
    | none =>
      rw [ioctlSelect_none hop hh] at hs
      cases hs
    | some h' =>
      have hcase : SelectCase ke d f c n h' (ioctlSelect ke d f c n) := ioctlSelect_cases hop hh
      rw [hs] at hcase
      cases hcase with
      | aligned => exact ⟨_, hh⟩
      | packet => exact ⟨_, hh⟩
      | config => exact ⟨_, hh⟩
  · rw [ioctlSelect, d.slot_of_ge hop] at hs
    cases hs

theorem storeOut_keeps {dst : Dest} {out : List UInt8} {s : Kernel × List UserWrite}
    (hs : storeOut ke k dst out = .ok s) : s.1.entries = k.entries ∧ s.1.minor = k.minor ∧
      s.1.devices = k.devices := by
  cases dst with
  | user addr =>
    rw [storeOut, bind_eq_ok] at hs
    obtain ⟨-, -, hs⟩ := hs
    cases hs
    exact ⟨rfl, rfl, rfl⟩
  | command off =>
    rw [storeOut] at hs
    split at hs
    · cases hs
      exact ⟨rfl, rfl, rfl⟩
    · cases hs

/-- What an `ioctl` does to the driver, a handler does, if one is called. -/
theorem ioctl_invoked (hr : appmemdIoctl ke k minor cmd arg = .ok q) :
    (q.kernel.entries = k.entries ∧ q.kernel.minor = k.minor ∧ q.kernel.devices = k.devices) ∨
    ∃ d f c h i p s, k.devices minor = some d ∧ d.pFunc = some f ∧ d.pfnOps i = some h ∧
      invokeDriver ke minor f { k with tempKcmd := c } h p = .ok s ∧
      q.kernel.entries = s.1.entries ∧ q.kernel.minor = s.1.minor ∧
      q.kernel.devices = s.1.devices := by
  unfold appmemdIoctl at hr
  split at hr
  · cases hr
    exact .inl ⟨rfl, rfl, rfl⟩
  split at hr
  · cases hr
    exact .inl ⟨rfl, rfl, rfl⟩
  split at hr
  · cases hr
    exact .inl ⟨rfl, rfl, rfl⟩
  · cases hr
    exact .inl ⟨rfl, rfl, rfl⟩
  rename_i block d hd
  split at hr
  · cases hr
    exact .inl ⟨rfl, rfl, rfl⟩
  rename_i f hf
  rw [bind_eq_ok] at hr
  obtain ⟨c, -, hr⟩ := hr
  dsimp only at hr
  split at hr
  · cases hr
    exact .inl ⟨rfl, rfl, rfl⟩
  rw [ioctlRun, bind_eq_ok] at hr
  obtain ⟨chosen, hsel, hr⟩ := hr
  cases chosen with
  | ret code =>
    cases hr
    exact .inl ⟨rfl, rfl, rfl⟩
  | call h p dst =>
    dsimp only at hr
    rw [bind_eq_ok] at hr
    obtain ⟨s, hinvoke, hr⟩ := hr
    rw [bind_eq_ok] at hr
    obtain ⟨s', hstore, hr⟩ := hr
    cases hr
    obtain ⟨i, hi⟩ := ioctlSelect_call hsel
    exact .inr ⟨d, f, c, h, i, p, s, hd, hf, hi, hinvoke, storeOut_keeps hstore⟩

theorem reportFunction_keeps (ke : KEnv) (k : Kernel) (hm : minor ≠ 0) (dataOut : UInt64) :
    (reportFunction ke k minor dataOut).1.entries = k.entries ∧
      (reportFunction ke k minor dataOut).1.minor = k.minor ∧
      (reportFunction ke k minor dataOut).1.devices 0 = k.devices 0 := by
  have hset : ∀ g, (k.setFunc minor g).devices 0 = k.devices 0 :=
    fun g => Function.update_of_ne hm.symm _ _
  unfold reportFunction
  split
  · exact ⟨rfl, rfl, rfl⟩
  · split
    · exact ⟨rfl, rfl, rfl⟩
    · dsimp only
      split
      · exact ⟨rfl, rfl, hset _⟩
      · exact ⟨rfl, rfl, hset _⟩

theorem createFunction_keeps (hc : appmemCreateFunction ke k f = .ok (k', r)) (hm : 0 < k.minor) :
    k'.entries = k.entries ∧ k.minor ≤ k'.minor ∧ k'.devices 0 = k.devices 0 := by
  have hgrow : ∀ x, (k.grow x).entries = k.entries ∧ k.minor ≤ (k.grow x).minor ∧
      (k.grow x).devices 0 = k.devices 0 := by
    intro x
    cases x with
    | nothing => exact ⟨rfl, le_rfl, rfl⟩
    | number => exact ⟨rfl, Nat.le_succ _, rfl⟩
    | device d => exact ⟨rfl, Nat.le_succ _, Function.update_of_ne hm.ne _ _⟩
  by_cases he : EarlyRefusal ke k.tempKcmd f
  · rw [appmemCreateFunction_early he] at hc
    cases hc
    exact ⟨rfl, le_rfl, rfl⟩
  rw [appmemCreateFunction_late he, buildFunction_eq, bind_eq_ok] at hc
  obtain ⟨b, hb, hc⟩ := hc
  obtain ⟨⟨x, error, o⟩, -, rfl⟩ := except_map_eq_ok.mp hb
  cases o with
  | none =>
    cases hc
    exact hgrow x
  | some df =>
    dsimp only [Option.map_some] at hc
    have hkernel : (reportFunction ke (k.grow x) k.minor k.tempKcmd.dataOut).1 = k' :=
      congrArg Prod.fst (Except.ok.inj hc)
    obtain ⟨hentries, hminor, hbase⟩ := reportFunction_keeps ke (k.grow x) hm.ne' k.tempKcmd.dataOut
    rw [hkernel] at hentries hminor hbase
    obtain ⟨ge, gm, gd⟩ := hgrow x
    exact ⟨hentries.trans ge, gm.trans hminor.ge, hbase.trans gd⟩

theorem Answers.ioctl (A : Answers k entries)
    (hr : appmemdIoctl ke k minor cmd arg = .ok q) : Answers q.kernel entries := by
  rcases ioctl_invoked hr with ⟨he, hm, hd⟩ | ⟨d, f, c, h, i, p, s, hd, hf, hi, hs, he, hm, hdev⟩
  · exact A.of_eq he hm.ge (by rw [hd])
  · have A' : Answers s.1 entries := by
      unfold invokeDriver at hs
      split at hs
      · rw [bind_eq_ok] at hs
        obtain ⟨g, -, hs⟩ := hs
        cases hs
        have hne : minor ≠ 0 := by
          rintro rfl
          obtain ⟨d', f', hd', -, hops, -⟩ := A.base
          rw [hd] at hd'
          cases hd'
          exact baseOps_ne_device i _ (hops ▸ hi)
        exact A.of_eq rfl le_rfl (Function.update_of_ne hne.symm _ _)
      · cases hs
        exact A.of_eq rfl le_rfl rfl
      · rw [bind_eq_ok] at hs
        obtain ⟨g, -, hs⟩ := hs
        cases hs
        exact A.of_eq rfl le_rfl rfl
      · rw [bind_eq_ok] at hs
        obtain ⟨g, -, hs⟩ := hs
        cases hs
        exact A.of_eq rfl le_rfl rfl
      · obtain ⟨ge, gm, gd⟩ := createFunction_keeps hs A.numbered
        exact A.of_eq ge gm gd
      · cases hs
    exact A'.of_eq he hm.ge (by rw [hdev])

end Base

section Calls
variable {e : KdEnv} {k : Kernel} {entries : Registry} {a : UInt64} {count amType : UInt32}

theorem storeOut_nothing (ke : KEnv) (k : Kernel) : storeOut ke k (.command 0) [] = .ok (k, []) := by
  have hroom : 0 + ([] : List UInt8).length ≤ sizeofKamCmd := Nat.zero_le _
  rw [storeOut, dif_pos hroom]
  simp only [splice_nil]

/-- The client can read and write its memory from `a` on. -/
def Contiguous (ke : KEnv) (a : UInt64) : Prop :=
  ∀ n ≤ (ke.user a).length, ke.user (a + UInt64.ofNat n) = (ke.user a).drop n

theorem countCall (A : Answers k entries) (ho : e.opened = true) (hreach : 24 ≤ e.reach)
    (hread : 4 ≤ (e.ke.user a).length) :
    (amKdGetCapabilitiesCount e k a).map Prod.snd = .ok amVirtdGetCapabilitesCount := by
  obtain ⟨d, f, hd, hf, hops, ht⟩ := A.base
  have hh : d.pfnOps ⟨(amOpcode amOpCodeGetcCapCount).toNat, by decide⟩ =
      some .appmemGetCapCount := by
    rw [hops]
    rfl
  have hp : (unsetParameter e).length = 8 :=
    length_window (by rw [e.stack.length_bytes]; decide)
  obtain ⟨c, C, hcall⟩ := commonIoctl_eq e 4 a hd hf hreach hp (by decide) hh (by decide)
    (by decide)
  have hserved : appmemGetCapCount e.ke c f =
      { error := amRetGood, writes := [(a, u32Bytes virtdBaseCap.subType)] } := by
    rw [appmemGetCapCount, C.data, if_pos hread, if_pos ht]
  have hstored : storedFrom a (u32Bytes 0) ([(a, u32Bytes virtdBaseCap.subType)] ++ []) =
      u32Bytes virtdBaseCap.subType := by
    rw [List.append_nil, storedFrom, List.foldl_cons, List.foldl_nil, UInt64.sub_self]
    rw [UInt64.toNat_zero, splice_zero, List.drop_of_length_le (by simp), List.append_nil]
  rw [amKdGetCapabilitiesCount, if_pos ho, hcall, invokeDriver, ok_bind]
  dsimp only
  rw [hserved]
  dsimp only
  rw [storeOut_nothing, ok_bind, pure_eq_ok, ok_bind]
  dsimp only
  rw [hstored, u32OfBytes_u32Bytes]
  rfl

def capWrites (a : UInt64) : ℕ → List AmMemCap → List UserWrite
  | _, [] => []
  | off, cap :: caps =>
    (a + UInt64.ofNat off, cap.bytes) :: capWrites a (off + sizeofMemCap) caps

theorem length_flatMap_caps (caps : List AmMemCap) :
    (caps.flatMap AmMemCap.bytes).length = caps.length * sizeofMemCap := by
  simp only [List.length_flatMap, AmMemCap.length_bytes, List.map_const', List.sum_replicate_nat]

theorem storedFrom_capWrites {off : ℕ} {caps : List AmMemCap} {p : List UInt8}
    (hroom : off + caps.length * sizeofMemCap ≤ p.length) (hsmall : p.length < 2 ^ 64) :
    storedFrom a p (capWrites a off caps) = splice p off (caps.flatMap AmMemCap.bytes) := by
  induction caps generalizing off p with
  | nil =>
    rw [List.flatMap_nil, splice_nil]
    rfl
  | cons cap caps ih =>
    rw [List.length_cons, Nat.add_mul, Nat.one_mul] at hroom
    have hoff : (a + UInt64.ofNat off - a).toNat = off := by
      rw [UInt64.add_comm, UInt64.add_sub_cancel]
      exact UInt64.toNat_ofNat_of_lt' (by omega : off < 2 ^ 64)
    have hfits : off + cap.bytes.length ≤ p.length := by
      rw [AmMemCap.length_bytes]
      omega
    have hlen := length_splice hfits
    have hrest := @ih (off + sizeofMemCap) (splice p off cap.bytes) (by rw [hlen]; omega)
      (by rw [hlen]; exact hsmall)
    have hall : off + cap.bytes.length + (caps.flatMap AmMemCap.bytes).length ≤ p.length := by
      rw [length_flatMap_caps, AmMemCap.length_bytes]
      omega
    rw [capWrites, storedFrom, List.foldl_cons]
    dsimp only
    rw [hoff]
    rw [List.flatMap_cons, ← splice_splice_append hall, AmMemCap.length_bytes]
    exact hrest

theorem copyCaps_capWrites {ke : KEnv} (hmem : Contiguous ke a) {is : List ℕ} {off : ℕ}
    (hroom : off + (is.filterMap (capAt entries)).length * sizeofMemCap ≤ (ke.user a).length) :
    copyCaps ke entries is (a + UInt64.ofNat off) =
      .ok { error := amRetGood, writes := capWrites a off (is.filterMap (capAt entries)) } := by
  induction is generalizing off with
  | nil => rfl
  | cons i is ih =>
    rw [copyCaps]
    cases hcap : capAt entries i with
    | none =>
      rw [List.filterMap_cons_none hcap] at hroom ⊢
      exact ih hroom
    | some cap =>
      rw [List.filterMap_cons_some hcap] at hroom ⊢
      rw [List.length_cons, Nat.add_mul, Nat.one_mul] at hroom
      have huser : sizeofMemCap ≤ (ke.user (a + UInt64.ofNat off)).length := by
        rw [hmem off (by omega), List.length_drop]
        omega
      have hnext : a + UInt64.ofNat off + sizeofMemCap.toUInt64 =
          a + UInt64.ofNat (off + sizeofMemCap) := by
        rw [UInt64.ofNat_add, UInt64.add_assoc]
      dsimp only
      rw [require_of_true _ (.inr huser), ok_bind, if_pos huser, hnext, ih (by omega), ok_bind]
      rfl

theorem capsCall (A : Answers k entries) (ho : e.opened = true) (hreach : 24 ≤ e.reach)
    (hmem : Contiguous e.ke a) (hcount : count ≠ 0)
    (hroom : count.toNat * sizeofMemCap ≤ (e.ke.user a).length)
    (hsmall : count.toNat * sizeofMemCap < 2 ^ 32) (hlong : (e.ke.user a).length < 2 ^ 64) :
    (amKdGetCapabilities e k a count).map Prod.snd =
      (amVirtdGetCapabilities entries (e.ke.user a) count).map fun p => (amRetGood, p) := by
  obtain ⟨d, f, hd, hf, hops, ht⟩ := A.base
  have hh : d.pfnOps ⟨(amOpcode amOpCodeGetCaps).toNat, by decide⟩ =
      some .appmemGetCapabilites := by
    rw [hops]
    rfl
  have hp : (unsetParameter e).length = 8 :=
    length_window (by rw [e.stack.length_bytes]; decide)
  obtain ⟨c, C, hcall⟩ := commonIoctl_eq e (count * sizeofMemCap.toUInt32) a hd hf hreach hp
    (by decide) hh (by decide) (by decide)
  have hlen : c.len.toNat / sizeofMemCap = count.toNat := by
    have hmul : (count * sizeofMemCap.toUInt32).toNat = count.toNat * sizeofMemCap := by
      rw [UInt32.toNat_mul]
      exact Nat.mod_eq_of_lt hsmall
    rw [C.len, hmul, Nat.mul_div_cancel _ (by decide)]
  have hcaps : ((List.range (min count.toNat virtdBaseCap.subType.toNat)).filterMap
      (capAt entries)).length ≤ count.toNat :=
    (List.length_filterMap_le _ _).trans (by simp)
  have hfits : 0 + ((List.range (min count.toNat virtdBaseCap.subType.toNat)).filterMap
      (capAt entries)).length * sizeofMemCap ≤ (e.ke.user a).length := by
    rw [Nat.zero_add]
    exact (Nat.mul_le_mul_right _ hcaps).trans hroom
  have hserved : appmemGetCapabilites e.ke k.entries c f = .ok {
      error := amRetGood
      writes := capWrites a 0 ((List.range (min count.toNat virtdBaseCap.subType.toNat)).filterMap
        (capAt entries)) } := by
    have hcopy := copyCaps_capWrites hmem hfits
    have hzero : a + UInt64.ofNat 0 = a := UInt64.add_zero a
    rw [hzero] at hcopy
    rw [appmemGetCapabilites, if_pos ht, hlen, C.data, A.entries]
    exact hcopy
  have hbytes : (((List.range (min count.toNat virtdBaseCap.subType.toNat)).filterMap
      (capAt entries)).flatMap AmMemCap.bytes).length ≤ (e.ke.user a).length := by
    rw [Nat.zero_add] at hfits
    simpa [List.length_flatMap] using hfits
  rw [amKdGetCapabilities, if_pos ho]
  dsimp only
  rw [hcall, invokeDriver]
  dsimp only
  rw [hserved, ok_bind, pure_eq_ok, ok_bind]
  dsimp only
  rw [storeOut_nothing, ok_bind, pure_eq_ok, ok_bind, List.append_nil,
    storedFrom_capWrites hfits hlong, amVirtdGetCapabilities, require_of_true _ hcount, ok_bind,
    writeBytes_of_le hbytes]
  rfl

def RoomFor (entries : Registry) (amType : UInt32) (p : List UInt8) : Prop :=
  ∀ h : amType.toNat < maxDeviceFunctions, ∀ entry, entries ⟨_, h⟩ = some entry →
    ∀ n, detailsCount amType entry = .ok n → n.toNat * sizeofCapDetails ≤ p.length

/-- The program goes on only with good news. -/
def goesOn (r : AmReturn × List UInt8) : Option AmReturn × List UInt8 :=
  (if r.1 = amRetGood then some amRetGood else none, r.2)

def serveDetails (ke : KEnv) (dst : UInt64) (details : List AmCapDetails) (stCount : UInt32) :
    Exec KServed :=
  let n := stCount.toNat * sizeofCapDetails
  if n ≤ (ke.user dst).length then do
    let b ← readBytes (details.flatMap AmCapDetails.bytes) n
    return { error := amRetGood, writes := [(dst, b)] }
  else return { error := negEnotty }

/-- The handler of the driver, with the count and the copy apart. -/
theorem appmemGetCapDetails_serve {ke : KEnv} {c : KamCmd} {f : MemFunction}
    (ht : f.amType = amTypeBaseAppmem) (hrange : c.parameter.toUInt32.toNat < maxDeviceFunctions) :
    appmemGetCapDetails ke entries c f = (match entries ⟨_, hrange⟩ with
      | none => .ok { error := negEnotty }
      | some entry => entry.pCapDetails.elim (.ok { error := negEnotty }) fun details =>
        detailsCount c.parameter.toUInt32 entry >>= serveDetails ke c.data details) := by
  rw [appmemGetCapDetails]
  dsimp only
  rw [dif_pos ⟨ht, hrange⟩]
  cases entries ⟨_, hrange⟩ with
  | none => rfl
  | some entry =>
    dsimp only
    cases entry.pCapDetails with
    | none => rfl
    | some details =>
      dsimp only
      rw [Option.elim_some, detailsCount]
      by_cases hbase : c.parameter.toUInt32 = amTypeBaseAppmem
      · rw [if_pos hbase, if_pos hbase]
        rfl
      · rw [if_neg hbase, if_neg hbase]
        cases entry.pCap with
        | none => rfl
        | some cap => rfl

theorem serveDetails_eq {ke : KEnv} {dst : UInt64} (details : List AmCapDetails) {n : UInt32}
    (hroom : n.toNat * sizeofCapDetails ≤ (ke.user dst).length) :
    (serveDetails ke dst details n).map
        (fun s => (s.error, s.out, storedFrom dst (ke.user dst) s.writes)) = do
      let b ← readBytes (details.flatMap AmCapDetails.bytes) (n.toNat * sizeofCapDetails)
      let p ← writeBytes (ke.user dst) b
      return (amRetGood, [], p) := by
  rw [serveDetails, if_pos hroom]
  cases hread : readBytes (details.flatMap AmCapDetails.bytes) (n.toNat * sizeofCapDetails) with
  | error fault => rfl
  | ok b =>
    have hlen : b.length ≤ (ke.user dst).length := by
      obtain ⟨-, rfl⟩ := readBytes_eq_ok.mp hread
      exact (List.length_take_le _ _).trans hroom
    have hstored : storedFrom dst (ke.user dst) [(dst, b)] = splice (ke.user dst) 0 b := by
      rw [storedFrom, List.foldl_cons, List.foldl_nil, UInt64.sub_self, UInt64.toNat_zero]
    rw [ok_bind, ok_bind, writeBytes_of_le hlen, ok_bind, ← hstored]
    rfl

/-- The handler of the driver serves as the virtual device does. -/
theorem detailsServed {ke : KEnv} {c : KamCmd} {f : MemFunction} (ht : f.amType = amTypeBaseAppmem)
    (hty : amType = c.parameter.toUInt32) (hroom : RoomFor entries amType (ke.user c.data)) :
    (appmemGetCapDetails ke entries c f).map
        (fun s => (s.error, s.out, storedFrom c.data (ke.user c.data) s.writes)) =
      (amVirtGetCapDetails entries (ke.user c.data) amType).map
        fun r => (if r.1 = amRetGood then amRetGood else negEnotty, [], r.2) := by
  subst hty
  rw [amVirtGetCapDetails]
  by_cases hrange : c.parameter.toUInt32.toNat < maxDeviceFunctions
  · rw [appmemGetCapDetails_serve ht hrange, dif_pos hrange]
    cases hentry : entries ⟨_, hrange⟩ with
    | none => rfl
    | some entry =>
      dsimp only
      cases entry.pCapDetails with
      | none => rfl
      | some details =>
        rw [Option.elim_some]
        dsimp only
        cases hcount : detailsCount c.parameter.toUInt32 entry with
        | error fault => rfl
        | ok n =>
          rw [ok_bind, ok_bind, serveDetails_eq details (hroom hrange entry hentry n hcount)]
          cases readBytes (details.flatMap AmCapDetails.bytes) (n.toNat * sizeofCapDetails) with
          | error fault => rfl
          | ok b =>
            rw [ok_bind, ok_bind]
            cases writeBytes (ke.user c.data) b with
            | error fault => rfl
            | ok p => rfl
  · have hnot : ¬ (f.amType = amTypeBaseAppmem ∧
        c.parameter.toUInt32.toNat < maxDeviceFunctions) := fun h => hrange h.2
    rw [appmemGetCapDetails]
    dsimp only
    rw [dif_neg hnot, dif_neg hrange]
    rfl

theorem detailsCall (A : Answers k entries) (ho : e.opened = true) (hreach : 24 ≤ e.reach)
    (hroom : RoomFor entries amType (e.ke.user a)) :
    (amKdGetCapDetails e k a amType).map Prod.snd =
      (amVirtGetCapDetails entries (e.ke.user a) amType).map goesOn := by
  obtain ⟨d, f, hd, hf, hops, ht⟩ := A.base
  have hh : d.pfnOps ⟨(amOpcode amOpCodeGetCapDetails).toNat, by decide⟩ =
      some .appmemGetCapDetails := by
    rw [hops]
    rfl
  obtain ⟨c, C, hcall⟩ := commonIoctl_eq e (sizeofCapDetails.toUInt32 * 5) a hd hf hreach
    (length_leBytes 8 amType.toNat) (by decide) hh (by decide) (by decide)
  have hparameter : c.parameter.toUInt32 = amType := by
    have hv : amType.toNat < 256 ^ 8 := amType.toNat_lt.trans (by decide)
    have hquad : UInt64.ofNat amType.toNat = amType.toUInt64 := by
      apply UInt64.toNat_inj.mp
      rw [UInt64.toNat_ofNat_of_lt' (amType.toNat_lt.trans (by decide)), UInt32.toNat_toUInt64]
    rw [C.parameter, leVal_leBytes_of_lt hv, hquad, UInt32.toUInt32_toUInt64]
  have hserved := detailsServed (c := c) ht hparameter.symm (C.data ▸ hroom)
  rw [C.data] at hserved
  rw [amKdGetCapDetails, if_pos ho]
  dsimp only
  rw [hcall, invokeDriver]
  dsimp only
  rw [A.entries]
  cases hhandler : appmemGetCapDetails e.ke entries c f with
  | error fault =>
    rw [hhandler] at hserved
    cases hvirtd : amVirtGetCapDetails entries (e.ke.user a) amType with
    | error fault' =>
      rw [hvirtd] at hserved
      exact congrArg Except.error (Except.error.inj hserved)
    | ok r =>
      rw [hvirtd] at hserved
      cases hserved
  | ok s =>
    rw [hhandler] at hserved
    cases hvirtd : amVirtGetCapDetails entries (e.ke.user a) amType with
    | error fault' =>
      rw [hvirtd] at hserved
      cases hserved
    | ok r =>
      rw [hvirtd] at hserved
      obtain ⟨herror, hrest⟩ := Prod.mk.inj (Except.ok.inj hserved)
      obtain ⟨hout, hstored⟩ := Prod.mk.inj hrest
      have hstore := storeOut_nothing e.ke { k with tempKcmd := c }
      rw [A.entries] at hstore
      rw [ok_bind, pure_eq_ok, ok_bind]
      dsimp only
      rw [hout, hstore, ok_bind, pure_eq_ok, ok_bind, List.append_nil, hstored, herror]
      by_cases hgood : r.1 = amRetGood
      · simp only [Except.map, goesOn, if_pos hgood]
        rfl
      · simp only [Except.map, goesOn, if_neg hgood]
        rfl

end Calls

section Runs
variable {le : LoadEnv} {entries : Registry} {m₀ m m' : Module} {h h' : Heap} {e : KdEnv}
  {a : UInt64}

theorem Answers.init {ret : AmReturn} (hi : appmemdInit le entries h = .ok (ret, some m, h')) :
    ∃ advertised, advertiseAll entries mappedTypes = .ok advertised ∧
      Answers m.kernel advertised := by
  unfold appmemdInit at hi
  rw [bind_eq_ok] at hi
  obtain ⟨advertised, hadvertise, hi⟩ := hi
  refine ⟨advertised, hadvertise, ?_⟩
  have hbase : Answers (.start le.fresh le.major advertised) advertised :=
    ⟨rfl, Nat.one_pos, _, _, rfl, rfl, rfl, rfl⟩
  split at hi
  · cases hi
  split at hi
  · cases hi
  · unfold initDevices at hi
    split at hi
    · cases hi
    split at hi
    · cases hi
    · rw [bind_eq_ok] at hi
      obtain ⟨-, -, hi⟩ := hi
      cases hi
      exact hbase

theorem Answers.step {advertised : Registry} (A : Answers m.kernel advertised) {i : ModuleCall}
    {ret : AmReturn × Bool} (hi : moduleIoctl m i = .ok (m', ret)) :
    Answers m'.kernel advertised := by
  unfold moduleIoctl at hi
  rw [bind_eq_ok] at hi
  obtain ⟨q, hq, hi⟩ := hi
  have A' := A.ioctl hq
  split at hi
  · cases hi
    exact A'
  · rw [bind_eq_ok] at hi
    obtain ⟨m₁, -, hi⟩ := hi
    cases hi
    exact A'

/-- After any calls of any clients the driver still tells a client what the virtual device with the
advertised table would tell it. -/
theorem enumeration_agrees {ret : AmReturn} {is : List ModuleCall} {rets : List (AmReturn × Bool)}
    (hload : appmemdInit le entries h = .ok (ret, some m₀, h'))
    (hrun : trace moduleIoctl m₀ is = .ok (m, rets)) (ho : e.opened = true)
    (hreach : 24 ≤ e.reach) (hmem : Contiguous e.ke a) (hlong : (e.ke.user a).length < 2 ^ 64) :
    ∃ advertised, advertiseAll entries mappedTypes = .ok advertised ∧
      (4 ≤ (e.ke.user a).length →
        (amKdGetCapabilitiesCount e m.kernel a).map Prod.snd = .ok amVirtdGetCapabilitesCount) ∧
      (∀ count : UInt32, count ≠ 0 → count.toNat * sizeofMemCap < 2 ^ 32 →
        count.toNat * sizeofMemCap ≤ (e.ke.user a).length →
        (amKdGetCapabilities e m.kernel a count).map Prod.snd =
          (amVirtdGetCapabilities advertised (e.ke.user a) count).map fun p => (amRetGood, p)) ∧
      ∀ amType, RoomFor advertised amType (e.ke.user a) →
        (amKdGetCapDetails e m.kernel a amType).map Prod.snd =
          (amVirtGetCapDetails advertised (e.ke.user a) amType).map goesOn := by
  obtain ⟨advertised, hadvertise, A₀⟩ := Answers.init hload
  have A : Answers m.kernel advertised := by
    apply trace_invariant (P := fun m : Module => Answers m.kernel advertised) ?_ A₀ hrun
    intro m i m' ret A hi
    exact A.step hi
  refine ⟨advertised, hadvertise, ?_, ?_, ?_⟩
  · intro hread
    exact countCall A ho hreach hread
  · intro count hcount hsmall hroom
    exact capsCall A ho hreach hmem hcount hroom hsmall hlong
  · intro amType hroom
    exact detailsCall A ho hreach hroom

def clientUpTo (limit : ℕ) : KdEnv where
  ke := { noStorage with user := fun a => List.replicate (limit - a.toNat) 0 }
  opened := true
  stack := .zero
  beyond := []
  reach := 24

theorem contiguous_clientUpTo {limit : ℕ} (hl : limit < 2 ^ 64) (a : UInt64) :
    Contiguous (clientUpTo limit).ke a := by
  intro n hn
  change List.replicate (limit - (a + UInt64.ofNat n).toNat) (0 : UInt8) =
    (List.replicate (limit - a.toNat) 0).drop n
  have hle : n ≤ limit - a.toNat := hn.trans_eq List.length_replicate
  rw [List.drop_replicate]
  cases n with
  | zero =>
    have hzero : a + UInt64.ofNat 0 = a := UInt64.add_zero a
    rw [hzero, Nat.sub_zero]
  | succ n =>
    have hadd : (a + UInt64.ofNat (n + 1)).toNat = a.toNat + (n + 1) := by
      rw [UInt64.toNat_add, UInt64.toNat_ofNat_of_lt' (by omega : n + 1 < 2 ^ 64)]
      exact Nat.mod_eq_of_lt (by omega)
    rw [hadd, Nat.sub_add_eq]

/-- A flat memory was made; three kinds of lists are on offer all the same. -/
theorem enumeration_agrees_loaded : ∃ m rets advertised,
    loadAndRun plainLoad [flatCall .zeroed] = .ok (some (m, rets)) ∧
    advertiseAll driverRegistry mappedTypes = .ok advertised ∧
    (amKdGetCapabilitiesCount (clientUpTo 8192) m.kernel 1024).map Prod.snd = .ok 5 ∧
    (amKdGetCapabilities (clientUpTo 8192) m.kernel 1024 5).map Prod.snd =
      (amVirtdGetCapabilities advertised (List.replicate 7168 0) 5).map
        (fun p => (amRetGood, p)) ∧
    (amKdGetCapDetails (clientUpTo 8192) m.kernel 1024 amTypeList).map Prod.snd =
      (amVirtGetCapDetails advertised (List.replicate 7168 0) amTypeList).map goesOn := by
  have hruns : (loadAndRun plainLoad [flatCall .zeroed]).map
      (Option.map fun q => q.2) = .ok (some [(amRetGood, true)]) := by decide +kernel
  obtain ⟨o, hrun, ho⟩ := except_map_eq_ok.mp hruns
  obtain ⟨⟨m, rets⟩, rfl, -⟩ := Option.map_eq_some_iff.mp ho
  have hrun' := hrun
  unfold loadAndRun at hrun
  rw [bind_eq_ok] at hrun
  obtain ⟨⟨ret, o, h⟩, hload, hrun⟩ := hrun
  cases o with
  | none => cases hrun
  | some m₀ =>
    dsimp only at hrun
    rw [bind_eq_ok] at hrun
    obtain ⟨r, htrace, hrun⟩ := hrun
    cases hrun
    have hlength : ((clientUpTo 8192).ke.user 1024).length = 7168 := List.length_replicate
    obtain ⟨advertised, hadvertise, hcount, hcaps, hdetails⟩ := enumeration_agrees
      (e := clientUpTo 8192) (a := 1024) hload htrace rfl le_rfl
      (contiguous_clientUpTo (by decide) 1024) (by rw [hlength]; decide)
    have hlists : (advertiseAll driverRegistry mappedTypes).map
        (fun entries => (entries ⟨amTypeList.toNat, by decide⟩).map (detailsCount amTypeList)) =
          .ok (some (.ok 3)) := by decide +kernel
    have hroom : RoomFor advertised amTypeList ((clientUpTo 8192).ke.user 1024) := by
      intro hrange entry hentry n hn
      rw [hadvertise] at hlists
      have hentry' := Except.ok.inj hlists
      dsimp only at hentry'
      rw [hentry, Option.map_some, hn] at hentry'
      cases hentry'
      rw [hlength]
      decide
    refine ⟨m, rets, advertised, hrun', hadvertise, ?_, ?_, hdetails _ hroom⟩
    · exact hcount (by rw [hlength]; decide)
    · exact hcaps 5 (by decide) (by decide) (by rw [hlength]; decide)

end Runs

end AppMem.Driver
