import AppMem.Driver.Filling

/-! # What a step leaves

What the start of a handler makes of the driver and of its call, and what no step takes away: a
device stays with its operations, its function keeps its type, and no item of an array is lost. What
gives back goes by the number of reads, so no handler stores in the command block.
-/
namespace AppMem.Driver
open Library.Bytes Library.Checked Abi Memory Pack Device Hash

section Kept

structure KDevice.Kept (d d' : KDevice) : Prop where
  pfnOps : d'.pfnOps = d.pfnOps
  pFunc : ∀ f, d.pFunc = some f →
    ∃ f', d'.pFunc = some f' ∧ f'.amType = f.amType ∧ itemCount f ≤ itemCount f'

def Grows (k k' : Kernel) : Prop :=
  ∀ m d, k.devices m = some d → ∃ d', k'.devices m = some d' ∧ d.Kept d'

def givesBack : DeviceHandler → Bool
  | .amFlatRead32Align | .amStataReadIdx32 | .amAsscaRead32Align => true
  | _ => false

/-- Operations as the creators file them: what gives back goes by the number of reads. -/
def FiledOps (t : Fin amOpMaxOps → Option DeviceHandler) : Prop :=
  ∀ i h, t i = some h → givesBack h = true → i.val = amOpReadAlign.toNat

def KDevice.Filed (d : KDevice) : Prop :=
  ∀ i h, d.pfnOps i = some (.device h) → givesBack h = true → i.val = amOpReadAlign.toNat

/-- The driver as calls leave it: the numbers from the counter on are free, and the operations of
the devices are filed. -/
structure Kernel.Sound (k : Kernel) : Prop where
  numbered : ∀ m, k.minor ≤ m → k.devices m = none
  filed : ∀ m d, k.devices m = some d → d.Filed

def Filling.Fits (v : Filling) (k : Kernel) : Prop :=
  ∃ d f, k.devices v.minor = some d ∧ d.pFunc = some f ∧ v.elt < itemCount f

variable {k k' k'' : Kernel} {minor off : ℕ} {d : KDevice} {f g : MemFunction} {v : Filling}
  {src : List UInt8}

theorem KDevice.Kept.refl (d : KDevice) : d.Kept d := ⟨rfl, fun f hf => ⟨f, hf, rfl, le_rfl⟩⟩

theorem KDevice.Kept.trans {d' d'' : KDevice} (h : d.Kept d') (h' : d'.Kept d'') : d.Kept d'' where
  pfnOps := h'.pfnOps.trans h.pfnOps
  pFunc f hf := by
    obtain ⟨f', hf', ht, hn⟩ := h.pFunc f hf
    obtain ⟨f'', hf'', ht', hn'⟩ := h'.pFunc f' hf'
    exact ⟨f'', hf'', ht'.trans ht, hn.trans hn'⟩

theorem Grows.of_devices (h : k'.devices = k.devices) : Grows k k' :=
  fun _ d hd => ⟨d, h ▸ hd, .refl d⟩

theorem Grows.refl (k : Kernel) : Grows k k := .of_devices rfl

theorem Grows.trans (h : Grows k k') (h' : Grows k' k'') : Grows k k'' := by
  intro m d hd
  obtain ⟨d', hd', hkept⟩ := h m d hd
  obtain ⟨d'', hd'', hkept'⟩ := h' m d' hd'
  exact ⟨d'', hd'', hkept.trans hkept'⟩

theorem grows_update {g : KDevice → KDevice}
    (hdev : k'.devices = Function.update k.devices minor ((k.devices minor).map g))
    (hg : ∀ d, k.devices minor = some d → d.Kept (g d)) : Grows k k' := by
  intro m d hd
  rw [hdev]
  by_cases hm : m = minor
  · subst hm
    rw [Function.update_self, hd]
    exact ⟨g d, rfl, hg d hd⟩
  · rw [Function.update_of_ne hm]
    exact ⟨d, hd, .refl d⟩

theorem grows_fill : Grows k (k.fill v off src) := by
  refine grows_update rfl fun d hd => ⟨rfl, fun f hf => ⟨fillItem f v.elt off src, ?_, ?_, ?_⟩⟩
  · exact congrArg (Option.map _) hf
  · rw [fillItem_rest]
  · exact (itemCount_fillItem f v.elt off src).ge

theorem grows_setFunc (hd : k.devices minor = some d) (hf : d.pFunc = some f)
    (ht : g.amType = f.amType) (hn : itemCount f ≤ itemCount g) :
    Grows k (k.setFunc minor g) := by
  refine grows_update rfl fun d' hd' => ⟨rfl, fun f' hf' => ⟨g, rfl, ?_⟩⟩
  cases hd.symm.trans hd'
  cases hf.symm.trans hf'
  exact ⟨ht, hn⟩

namespace Kernel.Sound

theorem update {g : KDevice → KDevice} (h : k.Sound) (hminor : k'.minor = k.minor)
    (hdev : k'.devices = Function.update k.devices minor ((k.devices minor).map g))
    (hg : ∀ d, (g d).pfnOps = d.pfnOps) : k'.Sound where
  numbered m hm := by
    have hfree : k.devices m = none := h.numbered m (hminor ▸ hm)
    rw [hdev]
    by_cases hmm : m = minor
    · subst hmm
      rw [Function.update_self, hfree]
      rfl
    · rw [Function.update_of_ne hmm]
      exact hfree
  filed m d hd := by
    rw [hdev] at hd
    by_cases hmm : m = minor
    · subst hmm
      rw [Function.update_self] at hd
      obtain ⟨d₀, hd₀, rfl⟩ := Option.map_eq_some_iff.mp hd
      intro i
      rw [hg]
      exact h.filed m d₀ hd₀ i
    · rw [Function.update_of_ne hmm] at hd
      exact h.filed m d hd

theorem setFunc (h : k.Sound) (minor : ℕ) (g : MemFunction) : (k.setFunc minor g).Sound :=
  h.update rfl rfl fun _ => rfl

theorem fill (h : k.Sound) (v : Filling) (off : ℕ) (src : List UInt8) : (k.fill v off src).Sound :=
  h.update rfl rfl fun _ => rfl

theorem withBlock (h : k.Sound) (b : KamCmd) : (k.withBlock b).Sound := ⟨h.numbered, h.filed⟩

theorem grow (h : k.Sound) (x : Growth) (hx : ∀ d, x = .device d → d.Filed) :
    (k.grow x).Sound where
  numbered m hm := by
    cases x with
    | nothing => exact h.numbered m hm
    | number => exact h.numbered m (Nat.le_of_succ_le hm)
    | device d =>
      have hne : m ≠ k.minor := Nat.ne_of_gt hm
      exact (Function.update_of_ne hne _ _).trans (h.numbered m (Nat.le_of_succ_le hm))
  filed m d hd := by
    cases x with
    | nothing => exact h.filed m d hd
    | number => exact h.filed m d hd
    | device d' =>
      have hd' : Function.update k.devices k.minor (some d') m = some d := hd
      by_cases hm : m = k.minor
      · subst hm
        rw [Function.update_self] at hd'
        cases hd'
        exact hx d rfl
      · rw [Function.update_of_ne hm] at hd'
        exact h.filed m d hd'

theorem grows_grow (h : k.Sound) (x : Growth) : Grows k (k.grow x) := by
  cases x with
  | nothing => exact .refl k
  | number => exact .of_devices rfl
  | device d =>
    intro m d' hd'
    have hne : m ≠ k.minor := by
      rintro rfl
      exact nomatch (h.numbered k.minor le_rfl).symm.trans hd'
    exact ⟨d', (Function.update_of_ne hne _ _).trans hd', .refl d'⟩

end Kernel.Sound

theorem Filling.Fits.grows (h : v.Fits k) (hk : Grows k k') : v.Fits k' := by
  obtain ⟨d, f, hd, hf, hlt⟩ := h
  obtain ⟨d', hd', hkept⟩ := hk _ _ hd
  obtain ⟨f', hf', -, hn⟩ := hkept.pFunc f hf
  exact ⟨d', f', hd', hf', hlt.trans_le hn⟩

theorem Filling.Fits.minor_ne (h : v.Fits k) (hk : k.Sound) : v.minor ≠ k.minor := by
  obtain ⟨d, f, hd, -, -⟩ := h
  intro hm
  exact nomatch (hk.numbered v.minor hm.ge).symm.trans hd

end Kept

section Filed
variable {ke : KEnv} {env : Env} {d : KDevice} {f g : MemFunction} {c : KamCmd} {n : ℕ}
  {h : DriverHandler}

theorem base_filed (fresh : MemFunction) (major : ℕ) : (baseDevice fresh major).Filed := by
  intro i h hi
  simp only [baseDevice, setOp] at hi
  split at hi
  · cases hi
  · split at hi
    · cases hi
    · split at hi
      · cases hi
      · split at hi <;> cases hi

theorem FiledOps.setRead {t : Fin amOpMaxOps → Option DeviceHandler} (ht : FiledOps t)
    (h : DeviceHandler) : FiledOps (setOp t amOpReadAlign (some h)) := by
  intro i h' hi hgives
  rw [setOp] at hi
  split at hi
  · assumption
  · exact ht i h' hi hgives

theorem FiledOps.setOther {t : Fin amOpMaxOps → Option DeviceHandler} (ht : FiledOps t)
    (op : UInt8) (h : DeviceHandler) (hkeeps : givesBack h = false) :
    FiledOps (setOp t op (some h)) := by
  intro i h' hi hgives
  rw [setOp] at hi
  split at hi
  · cases hi
    rw [hkeeps] at hgives
    cases hgives
  · exact ht i h' hi hgives

theorem filed_registerOpenClose (hf : FiledOps f.pfnOps) :
    FiledOps (registerOpenClose f).pfnOps := by
  have hrelease := hf.setOther amOpReleaseFunc .amTargRelease rfl
  have hopen := hrelease.setOther amOpOpenFunc .amTargOpen rfl
  exact hopen.setOther amOpCloseFunc .amTargClose rfl

theorem creator_filed {name : String} {create : Creator} {pCap : AmMemCap}
    (hb : createBranch pCap.amType = some (name, create)) (hf : FiledOps f.pfnOps) :
    FiledOps (create env f pCap).2.pfnOps := by
  unfold createBranch at hb
  split at hb
  · cases hb
    unfold amCreateFlatDevice
    split
    · split
      · have hwrite := (filed_registerOpenClose hf).setOther amOpWriteAlign .amFlatWrite32Align rfl
        exact hwrite.setRead .amFlatRead32Align
      · exact hf
    · exact hf
  · split at hb
    · cases hb
      have hsizes : FiledOps (stataSizes f pCap).pfnOps := hf
      unfold amCreateStataDevice
      split
      · split
        · have hsort := (filed_registerOpenClose hsizes).setOther amOpSort .amStataSort rfl
          have hwrite := hsort.setOther amOpWriteAlign .amStataWriteIdx32 rfl
          exact hwrite.setRead .amStataReadIdx32
        · exact hsizes
      · exact hf
    · split at hb
      · cases hb
        unfold amCreateAsscaDevice
        split
        · split
          · have hread := (filed_registerOpenClose hf).setRead .amAsscaRead32Align
            exact hread.setOther amOpWriteAlign .amAsscaWrite32Align rfl
          · exact hf
        · exact hf
      · cases hb

theorem adopt_filed (d : KDevice) (hf : FiledOps f.pfnOps) : (d.adopt f).Filed := by
  intro i h hi hgives
  have hops : (d.adopt f).pfnOps i = (f.pfnOps i).map .device := by
    unfold KDevice.adopt
    dsimp only
    split <;> rfl
  rw [hops] at hi
  obtain ⟨h', hi', hh⟩ := Option.map_eq_some_iff.mp hi
  cases hh
  exact hf i h hi' hgives

theorem newKDevice_filed (major minor : ℕ) (name : String) (amType : UInt32) :
    (newKDevice major minor name amType).Filed := by
  intro i h hi
  cases hi

theorem buildEffect_filed {major minor : ℕ} {pCap : AmMemCap}
    {r : Growth × AmReturn × Option (KDevice × MemFunction)}
    (h : buildEffect ke major minor pCap = .ok r) (hd : r.1 = .device d) : d.Filed := by
  unfold buildEffect at h
  split at h
  · split at h
    · cases h
      cases hd
    · rename_i name create hb
      split at h
      · obtain ⟨-, -, h⟩ := bind_eq_ok.mp h
        dsimp only at h
        split at h
        · cases h
          cases hd
          exact adopt_filed _ (creator_filed hb fun i h hi => by cases hi)
        · cases h
          cases hd
          exact newKDevice_filed _ _ _ _
      · cases h
        cases hd
  · cases h
    cases hd

theorem createEffect_filed {major minor : ℕ} {dataIn dataOut : UInt64} {x : Growth} {p : Point}
    (h : createEffect ke major minor dataIn dataOut = .ok (x, p)) (hd : x = .device d) :
    d.Filed := by
  unfold createEffect at h
  split at h
  · cases h
    cases hd
  · obtain ⟨⟨x', e, o⟩, hb, h⟩ := bind_eq_ok.mp h
    cases o with
    | none =>
      cases h
      exact buildEffect_filed hb hd
    | some df =>
      obtain ⟨d', f'⟩ := df
      cases h
      cases hd
      exact buildEffect_filed (d := d') hb (buildEffect_pFunc hb).1

theorem invokeDevice_out {h : DeviceHandler} {p q : List UInt8} {r : Served}
    (hgives : givesBack h = false)
    (hr : invokeDevice .kernel env h (.align p q) f = .ok (g, r)) : r.out = [] := by
  cases h with
  | amFlatRead32Align => cases hgives
  | amStataReadIdx32 => cases hgives
  | amAsscaRead32Align => cases hgives
  | amFlatWrite32Align =>
    obtain ⟨fd, fd', -, hop, -⟩ := flatAccess_eq_ok.mp hr
    obtain ⟨off, -, hop⟩ := bind_eq_ok.mp hop
    obtain ⟨data, -, hop⟩ := bind_eq_ok.mp hop
    cases hop
    rfl
  | amStataWriteIdx32 =>
    obtain ⟨fd, fd', -, hop, -⟩ := stataAccess_eq_ok.mp hr
    obtain ⟨idx, -, hop⟩ := bind_eq_ok.mp hop
    obtain ⟨data, -, hop⟩ := bind_eq_ok.mp hop
    cases hop
    rfl
  | amAsscaWrite32Align =>
    rcases asscaAccess_eq_ok.mp hr with ⟨-, -, rfl⟩ | ⟨fd, a, -, hop, -⟩
    · rfl
    · obtain ⟨-, rfl, -⟩ := amlibAsscaAddKeyFixfix_eq_ok.mp hop
      rfl
  | _ => cases hr

theorem odd_of_opcode {op : UInt32} (h : (amOpcode op).toNat = amOpReadAlign.toNat) :
    op &&& 1 ≠ 0 := by
  intro heven
  have hlow : op.toNat % 256 = 17 := by
    have h' := h
    rw [amOpcode, UInt32.toNat_toUInt8, UInt32.toNat_and] at h'
    have hmask : op.toNat &&& (0xFF : UInt32).toNat = op.toNat % 256 :=
      Nat.and_two_pow_sub_one_eq_mod op.toNat 8
    rw [hmask, Nat.mod_mod] at h'
    exact h'
  have hbit : op.toNat % 2 = 0 := by
    have h' := congrArg UInt32.toNat heven
    rw [UInt32.toNat_and] at h'
    exact (Nat.and_one_is_mod op.toNat).symm.trans h'
  omega

/-- Under an even number nothing is given back. -/
theorem KDevice.Filed.even {op : UInt32} {h : DeviceHandler} (hd : d.Filed)
    (hslot : d.slot op = .ok (some (.device h))) (heven : op &&& 1 = 0) : givesBack h = false := by
  by_cases hop : (amOpcode op).toNat < amOpMaxOps
  · rw [KDevice.slot, dif_pos hop] at hslot
    apply Bool.eq_false_iff.mpr
    intro hgives
    exact odd_of_opcode (hd _ h (Except.ok.inj hslot) hgives) heven
  · rw [KDevice.slot, dif_neg hop] at hslot
    cases hslot

theorem ioctlSelect_command {call : PackCall} {off : ℕ}
    (hsel : ioctlSelect ke d f c n = .ok (.call h call (.command off))) :
    call = .config ∨ (∃ p q, call = .align p q) ∧ d.slot c.op = .ok (some h) ∧ c.op &&& 1 = 0 := by
  unfold ioctlSelect at hsel
  obtain ⟨slot, hslot, hsel⟩ := bind_eq_ok.mp hsel
  cases slot with
  | none => cases hsel
  | some h' =>
    dsimp only at hsel
    split at hsel
    · unfold alignedCall at hsel
      split at hsel
      · cases hsel
      · rename_i heven
        cases hsel
        exact .inr ⟨⟨_, _, rfl⟩, hslot, not_not.mp heven⟩
    · split at hsel
      · unfold packetCall at hsel
        split at hsel
        · split at hsel
          · obtain ⟨_, -, hsel⟩ := bind_eq_ok.mp hsel
            cases hsel
          · cases hsel
        · rename_i heven
          split at hsel
          · cases hsel
            exact .inr ⟨⟨_, _, rfl⟩, hslot, not_not.mp heven⟩
          · cases hsel
      · cases hsel
        exact .inl rfl

end Filed

section Started
variable {ke : KEnv} {k k' : Kernel} {minor n : ℕ} {d d' : KDevice} {f f' : MemFunction}
  {c : KamCmd} {p : Point} {dataIn : UInt64}

/-- The command asks for a function and passes the checks in front of the transfer. -/
structure Asks (d : KDevice) (f : MemFunction) (c : KamCmd) : Prop where
  slot : d.slot c.op = .ok (some .appmemCreateFunction)
  notAlign : amNetGetPacktype c.op ≠ amPackAlign.toUInt32
  notPacket : amNetGetPacktype c.op ≠ amKpack.toUInt32
  amType : f.amType = amTypeBaseAppmem
  lenIn : sizeofMemCap ≤ c.lenIn.toNat

inductive Started (ke : KEnv) (k : Kernel) (minor : ℕ) (d : KDevice) (f : MemFunction) (n : ℕ) :
    Kernel → Point → Prop
  | early (code : AmReturn) : Started ke k minor d f n k (.returned (.early code))
  | handled (g : MemFunction) (b : KamCmd) (o : Outcome) (ht : g.amType = f.amType)
    (hn : itemCount f ≤ itemCount g) (hb : d.Filed → b = k.tempKcmd) :
    Started ke k minor d f n ((k.setFunc minor g).withBlock b) (.returned o)
  | refused (o : Outcome) : Started ke k minor d f n k (.returned o)
  | sends (todo : List Sending) : Started ke k minor d f n k (.sending todo [])
  | asks (h : Asks d f k.tempKcmd) : Started ke k minor d f n k (.capability k.tempKcmd.dataIn)
  | fills (v : Filling) (hm : v.minor = minor) (hlt : v.elt < itemCount f)
    (hfound : readItem ke k d f n = some v.elt) : Started ke k minor d f n k (.value v 0)

/-- Bytes go to the block only where the second pointer points into it. -/
theorem storeOut_block {dst : Dest} {out : List UInt8} {s : Kernel × List UserWrite}
    (h : storeOut ke k dst out = .ok s) :
    ∃ b, s.1 = k.withBlock b ∧ ((∀ off, dst = .command off → out = []) → b = k.tempKcmd) := by
  cases dst with
  | user addr =>
    obtain ⟨u, -, h⟩ := bind_eq_ok.mp h
    cases h
    exact ⟨k.tempKcmd, rfl, fun _ => rfl⟩
  | command off =>
    rw [storeOut_command] at h
    obtain ⟨b, hput, rfl⟩ := except_map_eq_ok.mp h
    refine ⟨b, rfl, fun hout => ?_⟩
    rw [hout off rfl, KamCmd.put] at hput
    split at hput
    · cases hput
      simp only [splice_nil]
    · cases hput

theorem asscaFilling_found {p1 p2 : List UInt8} {v : Filling}
    (h : asscaFilling minor f p1 p2 = .ok (some v)) :
    asscaFound f p1 = .ok (some v.elt) ∧ v.elt < itemCount f := by
  unfold asscaFilling at h
  split at h
  · rename_i fd hfd
    obtain ⟨found, hfound, h⟩ := bind_eq_ok.mp h
    cases found with
    | none => cases h
    | some elt =>
      dsimp only at h
      split at h
      · cases h
      · rename_i pAI hitem
        obtain ⟨_, -, h⟩ := bind_eq_ok.mp h
        have hlt : elt < itemCount f := by
          rw [itemCount, hfd]
          exact (List.getElem?_eq_some_iff.mp hitem).1
        split at h
        · cases h
        · cases h
          exact ⟨hfound, hlt⟩
  · cases h

theorem runHandler_started {h : DeviceHandler} {call : PackCall} {dst : Dest}
    (hsel : ioctlSelect ke d f k.tempKcmd n = .ok (.call (.device h) call dst))
    (hr : runHandler ke k minor f (.device h) call dst = .ok (k', p)) :
    Started ke k minor d f n k' p := by
  rw [runHandler, invokeDriver] at hr
  obtain ⟨r, hi, hr⟩ := bind_eq_ok.mp hr
  obtain ⟨s, hs, hr⟩ := bind_eq_ok.mp hr
  obtain ⟨served, hserved, hi⟩ := bind_eq_ok.mp hi
  obtain ⟨b, hb, hsame⟩ := storeOut_block hs
  cases hi
  cases hr
  rw [hb]
  have ht : served.1.amType = f.amType := by rw [(invokeDevice_same hserved).rest]
  refine .handled served.1 b _ ht (itemCount_le_invokeDevice hserved) fun hd => ?_
  apply hsame
  rintro off rfl
  rcases ioctlSelect_command hsel with rfl | ⟨⟨p, q, rfl⟩, hslot, heven⟩
  · have hconv := invokeDevice_convention hserved
    cases h <;> cases hconv
  · exact invokeDevice_out (hd.even hslot heven) hserved

theorem startHandler_started {h : DriverHandler} {call : PackCall} {dst : Dest}
    (hsel : ioctlSelect ke d f k.tempKcmd n = .ok (.call h call dst))
    (hr : startHandler ke k minor f h call dst = .ok (k', p))
    (hask : call = .config → h = .appmemCreateFunction → f.amType = amTypeBaseAppmem →
      sizeofMemCap ≤ k.tempKcmd.lenIn.toNat → Asks d f k.tempKcmd) :
    Started ke k minor d f n k' p := by
  cases h with
  | device h =>
    cases h with
    | amAsscaRead32Align =>
      cases call with
      | align p1 p2 =>
        rw [startHandler] at hr
        obtain ⟨x, hfill, hr⟩ := bind_eq_ok.mp hr
        cases x with
        | none => exact runHandler_started hsel hr
        | some v =>
          obtain ⟨s, hs, hr⟩ := bind_eq_ok.mp hr
          obtain ⟨b, hb, hsame⟩ := storeOut_block hs
          obtain rfl : b = k.tempKcmd := hsame fun _ _ => rfl
          obtain ⟨hfound, hlt⟩ := asscaFilling_found hfill
          cases hr
          rw [hb]
          have hread : readItem ke k d f n = some v.elt := by
            rw [readItem, hsel]
            dsimp only
            rw [hfound]
            rfl
          exact .fills v (asscaFilling_minor hfill) hlt hread
      | _ => exact runHandler_started hsel hr
    | _ => exact runHandler_started hsel hr
  | appmemGetCapCount =>
    cases call with
    | config =>
      cases hr
      exact .sends _
    | _ => cases hr
  | appmemGetCapabilites =>
    cases call with
    | config =>
      cases hr
      exact .sends _
    | _ => cases hr
  | appmemGetCapDetails =>
    cases call with
    | config =>
      rw [startHandler] at hr
      obtain ⟨x, -, hr⟩ := bind_eq_ok.mp hr
      cases x with
      | none =>
        cases hr
        exact .refused _
      | some x =>
        cases hr
        exact .sends _
    | _ => cases hr
  | appmemCreateFunction =>
    cases call with
    | config =>
      rw [startHandler] at hr
      split at hr
      · cases hr
        exact .refused _
      · rename_i hpass
        rw [not_or, not_not, Nat.not_lt] at hpass
        cases hr
        exact .asks (hask rfl rfl hpass.1 hpass.2)
    | _ => cases hr

theorem ioctlSelect_asks {h : DriverHandler} {dst : Dest}
    (hsel : ioctlSelect ke d f c n = .ok (.call h .config dst)) :
    d.slot c.op = .ok (some h) ∧ amNetGetPacktype c.op ≠ amPackAlign.toUInt32 ∧
      amNetGetPacktype c.op ≠ amKpack.toUInt32 := by
  unfold ioctlSelect at hsel
  obtain ⟨slot, hslot, hsel⟩ := bind_eq_ok.mp hsel
  cases slot with
  | none => cases hsel
  | some h' =>
    dsimp only at hsel
    split at hsel
    · unfold alignedCall at hsel
      split at hsel <;> cases hsel
    · rename_i halign
      split at hsel
      · unfold packetCall at hsel
        split at hsel
        · split at hsel
          · obtain ⟨_, -, hsel⟩ := bind_eq_ok.mp hsel
            cases hsel
          · cases hsel
        · split at hsel <;> cases hsel
      · rename_i hpacket
        cases hsel
        exact ⟨hslot, halign, hpacket⟩

theorem dispatch_started (hr : dispatch ke k minor d f n = .ok (k', p)) :
    Started ke k minor d f n k' p := by
  rw [dispatch] at hr
  obtain ⟨chosen, hsel, hr⟩ := bind_eq_ok.mp hr
  cases chosen with
  | ret code =>
    cases hr
    exact .early code
  | call h call dst =>
    apply startHandler_started hsel hr
    rintro rfl rfl ht hlen
    obtain ⟨hslot, halign, hpacket⟩ := ioctlSelect_asks hsel
    exact ⟨hslot, halign, hpacket, ht, hlen⟩

/-- A command that asks gets to the transfer of the capability. -/
theorem Asks.dispatch (h : Asks d f k.tempKcmd) :
    dispatch ke k minor d f n = .ok (k, .capability k.tempKcmd.dataIn) := by
  have hpass : ¬ (f.amType ≠ amTypeBaseAppmem ∨ k.tempKcmd.lenIn.toNat < sizeofMemCap) :=
    not_or.mpr ⟨not_not.mpr h.amType, Nat.not_lt.mpr h.lenIn⟩
  rw [Driver.dispatch, ioctlSelect, h.slot, ok_bind]
  dsimp only
  rw [if_neg h.notAlign, if_neg h.notPacket, pure_eq_ok, ok_bind]
  dsimp only
  rw [startHandler, if_neg hpass]

theorem Asks.kept (h : Asks d f c) (hd : d.Kept d') (ht : f'.amType = f.amType) : Asks d' f' c where
  slot := by
    rw [KDevice.slot, hd.pfnOps]
    exact h.slot
  notAlign := h.notAlign
  notPacket := h.notPacket
  amType := ht.trans h.amType
  lenIn := h.lenIn

theorem Started.of_capability (h : Started ke k minor d f n k' p) (hp : p = .capability dataIn) :
    k' = k ∧ dataIn = k.tempKcmd.dataIn ∧ Asks d f k.tempKcmd := by
  cases h with
  | asks h =>
    cases hp
    exact ⟨rfl, rfl, h⟩
  | _ => cases hp

theorem Started.grows (hd : k.devices minor = some d) (hf : d.pFunc = some f)
    (h : Started ke k minor d f n k' p) : Grows k k' := by
  cases h with
  | early | refused | sends | asks | fills => exact .refl k
  | handled g b o ht hn => exact grows_setFunc hd hf ht hn

theorem Started.sound (h : Started ke k minor d f n k' p) (hk : k.Sound) : k'.Sound := by
  cases h with
  | early | refused | sends | asks | fills => exact hk
  | handled g b o ht hn => exact (hk.setFunc minor g).withBlock b

/-- No handler stores in the block. -/
theorem Started.block (h : Started ke k minor d f n k' p) (hd : d.Filed) :
    k'.tempKcmd = k.tempKcmd := by
  cases h with
  | early | refused | sends | asks | fills => rfl
  | handled g b o ht hn hb => exact hb hd

end Started

end AppMem.Driver
