import AppMem.Device.Bounds
import AppMem.Driver.Dispatch

/-! # Statuses of the driver's handlers

Handlers answer with positive library codes, the driver with negative error numbers. When a
handler called by the dispatcher answers with a positive code.
-/
namespace AppMem.Driver
open Library.Bytes Library.Checked Abi Memory Hash Pack Device

section Positive

def KeyStored (f : MemFunction) (p1 : List UInt8) : Prop :=
  ∃ fd t key h, f.pVdF = some (.assca fd) ∧ fd.data.table = some t ∧
    readBytes p1 fd.data.keyLen.toNat = .ok key ∧ hashFind (some t) key = .ok (some h)

def AlignFails : DeviceHandler → MemFunction → List UInt8 → Prop
  | .amAsscaRead32Align, f, p1 => ¬ KeyStored f p1
  | .amAsscaWrite32Align, f, _ => f.pVdF = none
  | _, _, _ => False

def HasMemory (env : Env) (amType : UInt32) : Prop :=
  env.alloc .funcData = true ∧
    env.alloc (if amType = amTypeAssocArray then .assca else .storage) = true

/-- `appmem_create_function` accepts the request and runs out of memory or device numbers. -/
def CreateRunsOut (ke : KEnv) (c : KamCmd) (f : MemFunction) : Prop :=
  f.amType = amTypeBaseAppmem ∧ sizeofMemCap ≤ c.lenIn.toNat ∧
    sizeofMemCap ≤ (ke.user c.dataIn).length ∧
    (ke.env.alloc .memFunction = false ∨
      (createBranch (u32OfBytes (ke.user c.dataIn))).isSome = true ∧
        (ke.deviceCreate = false ∨ ¬ HasMemory ke.env (u32OfBytes (ke.user c.dataIn))))

/-- Handler `h` answers command `c` of `n` bytes with a positive code. -/
def HandlerFails (ke : KEnv) (d : KDevice) (f : MemFunction) (c : KamCmd) (n : ℕ) :
    DriverHandler → Prop
  | .device h => AlignFails h f (c.bytes.drop 4) ∧
    (amNetGetPacktype c.op = amPackAlign.toUInt32 ∨
      amNetGetPacktype c.op = amKpack.toUInt32 ∧ ¬ d.TooShort c.op n)
  | .appmemCreateFunction => CreateRunsOut ke c f ∧
    amNetGetPacktype c.op ≠ amPackAlign.toUInt32 ∧ amNetGetPacktype c.op ≠ amKpack.toUInt32
  | _ => False

/-- The handler that command `c` of `n` bytes calls answers with a positive code. -/
def PositiveStatus (ke : KEnv) (d : KDevice) (f : MemFunction) (c : KamCmd) (n : ℕ) : Prop :=
  ∃ (hop : (amOpcode c.op).toNat < amOpMaxOps) (h : DriverHandler),
    d.pfnOps ⟨_, hop⟩ = some h ∧ HandlerFails ke d f c n h

/-- A status with its cause: positive exactly when `P` holds. -/
def SignOf (P : Prop) (error : AmReturn) : Prop :=
  P ∧ 0 < error ∨ ¬ P ∧ (error = amRetGood ∨ error < 0)

theorem SignOf.good {P : Prop} (h : ¬ P) : SignOf P amRetGood := .inr ⟨h, .inl rfl⟩

theorem SignOf.enotty {P : Prop} (h : ¬ P) : SignOf P negEnotty := .inr ⟨h, .inr (by decide)⟩

theorem SignOf.congr {P Q : Prop} {error : AmReturn} (hpq : P ↔ Q) (h : SignOf P error) :
    SignOf Q error := by
  rcases h with ⟨hp, he⟩ | ⟨hp, he⟩
  · exact .inl ⟨hpq.mp hp, he⟩
  · exact .inr ⟨fun hq => hp (hpq.mpr hq), he⟩

theorem SignOf.congr_iff {P Q : Prop} {error : AmReturn} (hpq : P ↔ Q) :
    SignOf P error ↔ SignOf Q error := ⟨.congr hpq, .congr hpq.symm⟩

/-- Only a code that is not positive is read correctly from its sign. -/
theorem SignOf.iff {P : Prop} {error : AmReturn} (h : SignOf P error) :
    (¬ error < 0 ↔ error = amRetGood) ↔ ¬ P := by
  rcases h with ⟨hp, he⟩ | ⟨hp, rfl | he⟩
  · have hneg : ¬ error < 0 := Int32.not_lt.mpr (Int32.le_of_lt he)
    have hne : error ≠ amRetGood := by
      rintro rfl
      exact absurd he (by decide)
    exact iff_of_false (fun h => hne (h.mp hneg)) fun h => h hp
  · have hzero : ¬ amRetGood < 0 := by decide
    exact iff_of_true (iff_of_true hzero rfl) hp
  · have hne : error ≠ amRetGood := by
      rintro rfl
      exact absurd he (by decide)
    exact iff_of_true (iff_of_false (fun h => h he) hne) hp

end Positive

section Handlers
variable {b : Build} {env : Env} {f g : MemFunction} {p1 p2 : List UInt8} {r : Served}

theorem readStatus (hr : amAsscaRead32Align b f p1 p2 = .ok (g, r)) :
    SignOf (¬ KeyStored f p1) r.error := by
  rcases asscaAccess_eq_ok.mp hr with ⟨hf, -, rfl⟩ | ⟨fd, pAA, hf, hop, -⟩
  · refine .inl ⟨?_, by decide⟩
    rintro ⟨fd, t, key, h, hfd, -⟩
    rw [hf] at hfd
    cases hfd
  · have hstored : KeyStored f p1 ↔ ∃ t key h, fd.data.table = some t ∧
        readBytes p1 fd.data.keyLen.toNat = .ok key ∧ hashFind (some t) key = .ok (some h) := by
      constructor
      · rintro ⟨fd', t, key, h, hfd, hrest⟩
        cases Option.some.inj (hf.symm.trans hfd)
        exact ⟨t, key, h, hrest⟩
      · rintro ⟨t, key, h, hrest⟩
        exact ⟨fd, t, key, h, hf, hrest⟩
    refine SignOf.congr (not_congr hstored.symm) ?_
    rcases amlibAsscaGetKeyVal_eq_ok.mp hop with
      ⟨ht, -, rfl⟩ | ⟨t, key, found, ht, hkey, hfind, hrest⟩
    · refine .inl ⟨?_, by decide⟩
      rintro ⟨t, key, h, ht', -⟩
      rw [ht] at ht'
      cases ht'
    · rcases hrest with ⟨rfl, -, rfl⟩ | ⟨h, item, v, rfl, -, -, -, rfl⟩
      · refine .inl ⟨?_, by decide⟩
        rintro ⟨t', key', h, ht', hkey', hfind'⟩
        cases Option.some.inj (ht.symm.trans ht')
        cases Except.ok.inj (hkey.symm.trans hkey')
        rw [hfind] at hfind'
        cases hfind'
      · exact .good (not_not_intro ⟨t, key, h, ht, hkey, hfind⟩)

theorem writeStatus (hr : amAsscaWrite32Align env f p1 p2 = .ok (g, r)) :
    SignOf (f.pVdF = none) r.error := by
  rcases asscaAccess_eq_ok.mp hr with ⟨hf, -, rfl⟩ | ⟨fd, pAA, hf, hop, -⟩
  · exact .inl ⟨hf, by decide⟩
  · obtain ⟨-, rfl, -⟩ := amlibAsscaAddKeyFixfix_eq_ok.mp hop
    apply SignOf.good
    rw [hf]
    exact Option.some_ne_none _

theorem alignStatus {h : DeviceHandler}
    (hr : invokeDevice b env h (.align p1 p2) f = .ok (g, r)) :
    SignOf (AlignFails h f p1) r.error := by
  have hgood : r.error = amRetGood → SignOf False r.error := fun h => h ▸ .good id
  cases h with
  | amFlatRead32Align => exact hgood (CellKind.read_good (k := .flat) hr)
  | amFlatWrite32Align => exact hgood (CellKind.write_good (k := .flat) hr)
  | amStataReadIdx32 => exact hgood (CellKind.read_good (k := .stata) hr)
  | amStataWriteIdx32 => exact hgood (CellKind.write_good (k := .stata) hr)
  | amAsscaRead32Align => exact readStatus hr
  | amAsscaWrite32Align => exact writeStatus hr
  | _ => cases hr

theorem creator_status {name : String} {create : Creator} {pCap : AmMemCap}
    (hb : createBranch pCap.amType = some (name, create)) :
    (create env f pCap).1 =
      if env.alloc .funcData = true ∧
          env.alloc (if pCap.amType = amTypeAssocArray then .assca else .storage) = true then
        amRetGood
      else amRetAllocErr := by
  unfold createBranch at hb
  split at hb
  · rename_i ht
    cases hb
    rw [ht]
    exact twoAllocs_eq
  · split at hb
    · rename_i ht
      cases hb
      rw [ht]
      exact twoAllocs_eq
    · split at hb
      · rename_i ht
        cases hb
        rw [amCreateAsscaDevice, ht]
        simp only [and_true]
        exact twoAllocs_eq
      · cases hb

theorem createBranch_status {name : String} {create : Creator} {pCap : AmMemCap}
    (hb : createBranch pCap.amType = some (name, create)) :
    SignOf (¬ HasMemory env pCap.amType) (create env f pCap).1 := by
  have hpos : 0 < amRetAllocErr := by decide
  by_cases hm : HasMemory env pCap.amType
  · rw [creator_status hb, if_pos (show _ ∧ _ from hm)]
    exact .good (not_not.mpr hm)
  · rw [creator_status hb, if_neg (show ¬ (_ ∧ _) from hm)]
    exact .inl ⟨hm, hpos⟩

theorem buildFunction_status {ke : KEnv} {k k' : Kernel} {pCap : AmMemCap} {e : AmReturn}
    {minor : Option ℕ} (h : buildFunction ke k pCap = .ok (k', e, minor)) :
    SignOf (ke.env.alloc .memFunction = false ∨ (createBranch pCap.amType).isSome = true ∧
        (ke.deviceCreate = false ∨ ¬ HasMemory ke.env pCap.amType)) e ∧
      (minor.isSome → e = amRetGood) := by
  have hpos : 0 < amRetAllocErr := by decide
  unfold buildFunction at h
  split at h
  · rename_i hmem
    split at h
    · rename_i hb
      cases h
      refine ⟨.enotty ?_, nofun⟩
      simp [hmem, hb]
    · rename_i name create hb
      rw [bind_eq_ok] at h
      rcases h with ⟨⟨k₁, dev⟩, hdev, h⟩
      unfold appmemDeviceFuncCreate at hdev
      dsimp only at hdev
      split at hdev
      · rename_i hdc
        rw [bind_eq_ok] at hdev
        rcases hdev with ⟨_, _, hdev⟩
        cases hdev
        dsimp only at h
        have hcause : (ke.env.alloc .memFunction = false ∨ (createBranch pCap.amType).isSome = true ∧
            (ke.deviceCreate = false ∨ ¬ HasMemory ke.env pCap.amType)) ↔
            ¬ HasMemory ke.env pCap.amType := by
          simp [hmem, hb, hdc]
        have hstatus : SignOf (¬ HasMemory ke.env pCap.amType)
            (create ke.env { ke.fresh with pfnOps := fun _ => none } pCap).1 := createBranch_status hb
        rw [SignOf.congr_iff hcause]
        split at h
        · rename_i hgood
          cases h
          rw [hgood] at hstatus
          exact ⟨hstatus, fun _ => rfl⟩
        · cases h
          exact ⟨hstatus, nofun⟩
      · rename_i hdc
        cases hdev
        cases h
        refine ⟨.inl ⟨.inr ⟨by simp [hb], .inl (by simpa using hdc)⟩, hpos⟩, nofun⟩
  · rename_i hmem
    cases h
    exact ⟨.inl ⟨.inl (by simpa using hmem), hpos⟩, nofun⟩

theorem createStatus {ke : KEnv} {k k' : Kernel} {r : KServed}
    (h : appmemCreateFunction ke k f = .ok (k', r)) :
    SignOf (CreateRunsOut ke k.tempKcmd f) r.error := by
  have hlt : negEnotty < 0 := by decide
  have htype : ∀ l : List UInt8,
      (AmMemCap.ofBytes (l.take sizeofMemCap)).amType = u32OfBytes l := by
    intro l
    simp only [AmMemCap.ofBytes, u32OfBytes, List.take_take]
    rfl
  unfold appmemCreateFunction at h
  dsimp only at h
  split at h
  · rename_i ht
    cases h
    exact .enotty fun hc => ht hc.1
  · rename_i ht
    split at h
    · rename_i hl
      cases h
      exact .enotty fun hc => absurd hc.2.1 (Nat.not_le.mpr hl)
    · rename_i hl
      split at h
      · rename_i hu
        cases h
        exact .enotty fun hc => absurd hc.2.2.1 (Nat.not_le.mpr hu)
      · rename_i hu
        rw [bind_eq_ok] at h
        rcases h with ⟨⟨k₁, e, minor⟩, hb, h⟩
        obtain ⟨hsign, hminor⟩ := buildFunction_status hb
        rw [htype] at hsign
        have hcause : CreateRunsOut ke k.tempKcmd f ↔
            (ke.env.alloc .memFunction = false ∨
              (createBranch (u32OfBytes (ke.user k.tempKcmd.dataIn))).isSome = true ∧
                (ke.deviceCreate = false ∨
                  ¬ HasMemory ke.env (u32OfBytes (ke.user k.tempKcmd.dataIn)))) := by
          rw [CreateRunsOut, and_iff_right (not_not.mp ht), and_iff_right (Nat.not_lt.mp hl),
            and_iff_right (Nat.not_lt.mp hu)]
        rw [SignOf.congr_iff hcause]
        cases minor with
        | none =>
          cases h
          exact hsign
        | some minor =>
          cases hminor rfl
          have hno := hsign.resolve_left fun h => absurd h.2 (by decide)
          refine .inr ⟨hno.1, ?_⟩
          dsimp only at h
          simp only [pure_eq_ok, Except.ok.injEq] at h
          unfold reportFunction at h
          split at h
          · cases h
            exact .inr hlt
          · split at h
            · cases h
              exact .inr hlt
            · dsimp only at h
              split at h
              · cases h
                exact .inl rfl
              · cases h
                exact .inr (by decide)

theorem copyCaps_status {ke : KEnv} {entries : Registry} {is : List ℕ} {pCaps : UInt64}
    {r : KServed} (h : copyCaps ke entries is pCaps = .ok r) :
    r.error = amRetGood ∨ r.error < 0 := by
  induction is generalizing pCaps r with
  | nil =>
    cases h
    exact .inl rfl
  | cons i is ih =>
    unfold copyCaps at h
    split at h
    · exact ih h
    · rw [bind_eq_ok] at h
      rcases h with ⟨_, _, h⟩
      split at h
      · rw [bind_eq_ok] at h
        rcases h with ⟨r', hr', h⟩
        cases h
        have hrest : r'.error = amRetGood ∨ r'.error < 0 := ih hr'
        exact hrest
      · cases h
        exact .inr (by decide)

theorem copyDetails_status {stCount : Exec UInt32} {c : UInt32 → Prop} [DecidablePred c]
    {x : UInt32 → Exec (List UInt8)} {addr : UInt64} {r : KServed}
    (h : (stCount >>= fun s => if c s then
      x s >>= fun b => Except.ok { error := amRetGood, writes := [(addr, b)] }
      else Except.ok { error := negEnotty }) = .ok r) : r.error = amRetGood ∨ r.error < 0 := by
  rw [bind_eq_ok] at h
  rcases h with ⟨s, -, h⟩
  split at h
  · rw [bind_eq_ok] at h
    rcases h with ⟨b, -, h⟩
    cases h
    exact .inl rfl
  · cases h
    exact .inr (by decide)

/-- The handlers that describe the driver never answer with a positive code. -/
theorem configStatus {ke : KEnv} {minor : ℕ} {k k' : Kernel} {r : KServed} {h : DriverHandler}
    (hr : invokeDriver ke minor f k h .config = .ok (k', r)) :
    SignOf (h = .appmemCreateFunction ∧ CreateRunsOut ke k.tempKcmd f) r.error := by
  have hlt : negEnotty < 0 := by decide
  cases h with
  | device h =>
    simp only [invokeDriver, bind_eq_ok] at hr
    rcases hr with ⟨r', hr', -⟩
    have hc := invokeDevice_convention hr'
    cases h <;> cases hc
  | appmemGetCapCount =>
    cases hr
    refine .inr ⟨nofun, ?_⟩
    unfold appmemGetCapCount
    dsimp only
    split
    · exact .inl rfl
    · exact .inr hlt
  | appmemGetCapabilites =>
    simp only [invokeDriver, bind_eq_ok] at hr
    rcases hr with ⟨r', hr', hr⟩
    cases hr
    refine .inr ⟨nofun, ?_⟩
    unfold appmemGetCapabilites at hr'
    split at hr'
    · exact copyCaps_status hr'
    · cases hr'
      exact .inl rfl
  | appmemGetCapDetails =>
    simp only [invokeDriver, bind_eq_ok] at hr
    rcases hr with ⟨r', hr', hr⟩
    cases hr
    refine .inr ⟨nofun, ?_⟩
    unfold appmemGetCapDetails at hr'
    dsimp only at hr'
    split at hr'
    · split at hr'
      · cases hr'
        exact .inr hlt
      · split at hr'
        · cases hr'
          exact .inr hlt
        · split at hr'
          · exact copyDetails_status hr'
          · split at hr'
            · cases hr'
            · exact copyDetails_status hr'
    · cases hr'
      exact .inr hlt
  | appmemCreateFunction =>
    exact SignOf.congr (by simp) (createStatus hr)

end Handlers

end AppMem.Driver
