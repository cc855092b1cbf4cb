import AppMem.Cells.Agreement
import AppMem.Driver.Access
import AppMem.Driver.CreateBlocks
import AppMem.Device.Records

/-! # Cells through the driver

The accesses of four bytes that a client of the driver makes, each with one `ioctl`. With the
packets to a target, the calls of the virtual device and the packets on the mapped page they are
the fourth way to a flat memory or a static array, and all four give the same results.
-/
namespace AppMem.Cells
open Library.Bytes Library.Checked Library.Cells Abi Memory Pack Device Assca Driver

section Devices
variable {t : CellType} {pCap : AmMemCap} {f : MemFunction}

/-- A device of the driver with the accessors of its function. -/
structure OnDriver (t : CellType) (pCap : AmMemCap) (d : KDevice) (f : MemFunction) : Prop where
  func : d.pFunc = some f
  writeOp : d.pfnOps ⟨amOpWriteAlign.toNat, by decide⟩ = some (.device t.writeAl)
  readOp : d.pfnOps ⟨amOpReadAlign.toNat, by decide⟩ = some (.device t.readAl)
  onTarget : OnTarget t pCap f

/-- The announcement names the device, and leaves what the accessors use. -/
theorem OnTarget.announce (h : OnTarget t pCap f) (d : KDevice) :
    OnTarget t pCap (announce d f) :=
  ⟨h.idxSize, h.dataSize, h.writeOp, h.readOp, h.acWrite, h.acRead, h.room⟩

theorem OnTarget.setMapped (h : OnTarget t pCap f) : OnTarget t pCap f.setMapped := by
  refine ⟨h.idxSize, h.dataSize, h.writeOp, h.readOp, h.acWrite, h.acRead, ?_⟩
  obtain ⟨mem, hmem, hlen⟩ := h.room
  refine ⟨mem, ?_, hlen⟩
  cases t with
  | flat =>
    obtain ⟨fd, hfd, hdata⟩ := storage_flat.mp hmem
    apply storage_flat.mpr
    refine ⟨{ fd with flags := fd.flags ||| amFuncDataFlagMmapped }, ?_, hdata⟩
    rw [MemFunction.setMapped, hfd]
    rfl
  | stata =>
    obtain ⟨fd, hfd, hdata⟩ := storage_stata.mp hmem
    apply storage_stata.mpr
    refine ⟨{ fd with flags := fd.flags ||| amFuncDataFlagMmapped }, ?_, hdata⟩
    rw [MemFunction.setMapped, hfd]
    rfl

theorem onDriver_adopt (h : OnTarget t pCap f) (d : KDevice) : OnDriver t pCap (d.adopt f) f := by
  have hops : (d.adopt f).pFunc = some f ∧
      ∀ i, (d.adopt f).pfnOps i = (f.pfnOps i).map .device := by
    unfold KDevice.adopt
    dsimp only
    split
    · exact ⟨rfl, fun _ => rfl⟩
    · exact ⟨rfl, fun _ => rfl⟩
  refine ⟨hops.1, ?_, ?_, h⟩
  · exact (hops.2 _).trans (congrArg (Option.map DriverHandler.device) h.writeOp)
  · exact (hops.2 _).trans (congrArg (Option.map DriverHandler.device) h.readOp)

theorem createBranch_cell (ht : pCap.amType = t.amType) :
    ∃ name, createBranch pCap.amType = some (name, t.create) := by
  rw [ht]
  cases t with
  | flat => exact ⟨_, rfl⟩
  | stata => exact ⟨_, rfl⟩

variable {ke : KEnv} {k k' : Kernel} {base : MemFunction} {r : KServed}

theorem deviceCreate_some {name : String} {amType : UInt32} {minor : ℕ}
    (h : appmemDeviceFuncCreate ke k name amType = .ok (k', some minor)) :
    minor = k.minor ∧ ∃ d, k'.devices minor = some d := by
  unfold appmemDeviceFuncCreate at h
  dsimp only at h
  split at h
  · rw [bind_eq_ok] at h
    obtain ⟨_, -, h⟩ := h
    cases h
    exact ⟨rfl, _, Function.update_self _ _ _⟩
  · cases h

theorem onDriver_report {minor : ℕ} {d : KDevice} {dataOut : UInt64} (h : OnDriver t pCap d f)
    (hd : k.devices minor = some d) : ∃ d' f',
      (reportFunction ke k minor dataOut).1.devices minor = some d' ∧ OnDriver t pCap d' f' := by
  obtain ⟨hkernel, -⟩ := reportFunction_eq ke dataOut hd h.func
  refine ⟨{ d with pFunc := some (announce d f) }, announce d f, ?_, rfl, h.writeOp, h.readOp,
    h.onTarget.announce d⟩
  rw [hkernel, Kernel.setFunc, hd]
  exact Function.update_self _ _ _

/-- A good create command for a flat memory or a static array leaves a device with the
accessors. -/
theorem onDriver_of_create (ht : pCap.amType = t.amType) (hcap : commandCap ke k.tempKcmd = pCap)
    (h : appmemCreateFunction ke k base = .ok (k', r)) (hgood : r.error = amRetGood) :
    ∃ d f, k'.devices k.minor = some d ∧ OnDriver t pCap d f := by
  have hneg : negEnotty ≠ amRetGood := by decide
  have halloc : amRetAllocErr ≠ amRetGood := by decide
  have he : ¬ EarlyRefusal ke k.tempKcmd base := by
    intro he
    rw [appmemCreateFunction_early he] at h
    cases h
    exact hneg hgood
  rw [appmemCreateFunction_late he, hcap, bind_eq_ok] at h
  obtain ⟨⟨k₁, e, o⟩, hbuild, h⟩ := h
  obtain ⟨name, hb⟩ := createBranch_cell ht
  cases hm : ke.env.alloc .memFunction with
  | false =>
    rw [buildFunction_noMemory hm] at hbuild
    cases hbuild
    cases h
    exact absurd hgood halloc
  | true =>
    rw [buildFunction_branch hm hb, bind_eq_ok] at hbuild
    obtain ⟨⟨k₂, o₂⟩, hdev, hbuild⟩ := hbuild
    cases o₂ with
    | none =>
      cases hbuild
      cases h
      exact absurd hgood halloc
    | some minor =>
      obtain ⟨rfl, d, hd⟩ := deviceCreate_some hdev
      dsimp only at hbuild
      split at hbuild
      · rename_i hcreate
        cases hbuild
        dsimp only at h
        have hon : OnTarget t pCap (t.create ke.env { ke.fresh with pfnOps := fun _ => none } pCap).2 :=
          onTarget_of_create (Prod.ext hcreate rfl)
        have hk' := congrArg Prod.fst (Except.ok.inj h)
        rw [← show _ = k' from hk']
        apply onDriver_report (onDriver_adopt hon d)
        simp only [Function.update_self, hd, Option.map_some]
      · rename_i hcreate
        cases hbuild
        cases h
        exact absurd hgood hcreate

end Devices

section Accesses
variable {t : CellType} {pCap : AmMemCap} {e : KdEnv} {g : KdFunc} {minor : ℕ} {a1 a2 : UInt64}

def DriverHolds (t : CellType) (pCap : AmMemCap) (minor : ℕ) (k : Kernel) (mem : List UInt8) :
    Prop :=
  ∃ d f, k.devices minor = some d ∧ OnDriver t pCap d f ∧ t.storage f = some mem ∧
    mem.length = (t.size pCap).toNat

/-- A client that has opened the device and has the accesses of four bytes, with its buffers at
two addresses. -/
structure DriverClient (e : KdEnv) (g : KdFunc) (minor : ℕ) (a1 a2 : UInt64) : Prop where
  handle : g.handle = some minor
  writeAl : g.writeAl = some .align32
  readAl : g.readAl = some .align32
  stack : StackReadable e
  apart : a1 ≠ a2

/-- Through the driver every operation works on the storage. -/
theorem kdStep_works (hadv : Advertised t pCap) (hs : SizesServed t pCap)
    (C : DriverClient e g minor a1 a2) :
    WorksOn (kdStep e a1 a2 g) (t.idxSize pCap).toNat (t.dataSize pCap).toNat
      (t.valueAt (t.dataSize pCap).toNat) (t.InRange pCap) (DriverHolds t pCap minor) := by
  obtain ⟨hidx, -, hdata⟩ := served_toNat hs
  have hset : ∀ (k k' : Kernel) d f (f' : MemFunction), k.devices minor = some d →
      OnDriver t pCap d f → k'.devices = (k.setFunc minor f').devices →
      OnTarget t pCap f' → ∃ d', k'.devices minor = some d' ∧ OnDriver t pCap d' f' := by
    intro k k' d f f' hd O hk' hf'
    refine ⟨{ d with pFunc := some f' }, ?_, rfl, O.writeOp, O.readOp, hf'⟩
    rw [hk', Kernel.setFunc, hd]
    exact Function.update_self _ _ _
  constructor
  · rintro k mem i ⟨d, f, -, -, -, hlen⟩ hin
    rw [hlen]
    exact valueAt_le hadv hin
  · rintro k mem p1 p2 ⟨d, f, hd, O, hmem, hlen⟩ hop hin
    obtain ⟨hcell, hroom⟩ := cell_place hadv hs hop.1 hin hlen
    have h1 : 4 ≤ p1.length := hidx.trans hop.1
    have h2 : 4 ≤ p2.length := hdata ▸ hop.2
    have hval : (p2.take 4).length = 4 := List.length_take_of_le h2
    let mem' := splice mem (t.cell (u32OfBytes p1).toNat) (p2.take 4)
    have hlen' : mem'.length = (t.size pCap).toNat := by
      rw [length_splice (by rw [hval]; exact hroom), hlen]
    have hinvoke : ∀ q1 q2 : List UInt8, 4 ≤ q1.length → 4 ≤ q2.length →
        u32OfBytes q1 = u32OfBytes p1 → q2.take 4 = p2.take 4 →
        invokeDevice .kernel e.ke.env t.writeAl (.align q1 q2) f =
          .ok (t.setStorage f mem', { error := amRetGood }) := by
      intro q1 q2 hq1 hq2 hkey hvalue
      rw [writeAl_of_room hmem hq1 hq2 (hkey ▸ hroom), hkey, hvalue]
    obtain ⟨k', hcall, hk'⟩ := write32_ioctl C.stack C.handle hd O.func O.writeOp C.apart h1 h2
      hinvoke
    obtain ⟨d', hd', O'⟩ := hset k k' d f _ hd O hk' (O.onTarget.setStorage hlen')
    refine ⟨k', ?_, d', _, hd', O', ?_, ?_⟩
    · rw [kdStep, C.writeAl]
      dsimp only [KdAccess.write]
      rw [hcall]
      rfl
    · rw [storage_setStorage hmem, ← hcell, hdata]
    · rw [← hcell, hdata]
      exact hlen'
  · rintro k mem p1 p2 ⟨d, f, hd, O, hmem, hlen⟩ hop hin
    obtain ⟨hcell, hroom⟩ := cell_place hadv hs hop.1 hin hlen
    have h1 : 4 ≤ p1.length := hidx.trans hop.1
    have h2 : 4 ≤ p2.length := hdata ▸ hop.2
    have hout : (window mem (t.cell (u32OfBytes p1).toNat) 4).length = 4 := length_window hroom
    have hsome : window mem (t.cell (u32OfBytes p1).toNat) 4 ≠ [] := by
      intro h
      rw [h] at hout
      cases hout
    have hfits : (window mem (t.cell (u32OfBytes p1).toNat) 4).length ≤ p2.length := by
      rw [hout]
      exact h2
    have hinvoke : ∀ q1 : List UInt8, 4 ≤ q1.length → u32OfBytes q1 = u32OfBytes p1 →
        invokeDevice .kernel e.ke.env t.readAl (.align q1 p2) f = .ok (f, {
          error := amRetGood
          out := window mem (t.cell (u32OfBytes p1).toNat) 4 }) := by
      intro q1 hq1 hkey
      rw [readAl_of_room hmem hq1 h2 (hkey ▸ hroom), hkey]
    obtain ⟨k', hcall, hk'⟩ := read32_ioctl C.stack C.handle hd O.func O.readOp C.apart h1 hsome
      hfits hinvoke
    obtain ⟨d', hd', O'⟩ := hset k k' d f f hd O hk' O.onTarget
    refine ⟨k', ?_, d', f, hd', O', hmem, hlen⟩
    rw [kdStep, C.readAl]
    dsimp only [KdAccess.read]
    rw [hcall, ← hcell, hdata]
    have hstored : storedAt a2 p2 [(a2, window mem (t.cell (u32OfBytes p1).toNat) 4)] =
        splice p2 0 (window mem (t.cell (u32OfBytes p1).toNat) 4) := if_pos rfl
    rw [← hstored]
    rfl

end Accesses

section Agreement
variable (env : Env) (stale handle : UInt32) (page : KpackLink MemFunction) (e : KdEnv)
  (a1 a2 : UInt64) (g : KdFunc) (k : Kernel)

/-- The results of the accesses through the driver, and of packets on the mapped page. -/
def throughDriver (ops : List AsscaOp) : Exec (List AlignResult) :=
  (trace (kdStep e a1 a2 g) k ops).map Prod.snd

def overMapping (ops : List AsscaOp) : Exec (List AlignResult) :=
  (trace (packetStep (kpackPackAc (serveDevice .kernel env stale)) ⟨handle, page.device.crResp⟩)
    page ops).map Prod.snd

variable {env stale handle page e a1 a2 g k}
variable {t : CellType} {pCap : AmMemCap} {link : NetLink MemFunction} {v : VirtdFunction}
  {f f₀ f₁ base : MemFunction} {env₀ env₁ : Env} {calls : FuncCalls} {entries : Registry} {n : ℕ}
  {ke : KEnv} {k₀ : Kernel} {r : KServed} {ops : List AsscaOp}

/-- A function that the target made, one of the virtual device, one of the driver and one that the
driver has mapped, all from one capability with sizes that are served: every sequence of proper
operations has the same results on all four, whatever their storages held. -/
theorem everyPath_agrees (hadv : Advertised t pCap) (hs : SizesServed t pCap)
    (htarget : t.create env₀ f₀ pCap = (amRetGood, link.target))
    (hvirtd : amVirtdCreateFunction env₁ entries n pCap ⟨f₁, some calls⟩ = .ok (amRetGood, v))
    (hdriver : appmemCreateFunction ke k₀ base = .ok (k, r)) (hgood : r.error = amRetGood)
    (hcap : commandCap ke k₀.tempKcmd = pCap) (C : DriverClient e g k₀.minor a1 a2)
    (hfunc : (k.devices k₀.minor).bind KDevice.pFunc = some f) (hpage : page.device = f.setMapped)
    (hp : ProperFor t pCap ops) :
    ∃ outs, direct env v ops = .ok outs ∧ overPackets env stale handle link ops = .ok outs ∧
      throughDriver e a1 a2 g k ops = .ok outs ∧
      overMapping env stale handle page ops = .ok outs := by
  have hnone : ∀ w ∈ ([] : List Written), w.2.length = (t.dataSize pCap).toNat :=
    fun w hw => absurd hw List.not_mem_nil
  have hboth : ∃ outs, overPackets env stale handle link ops = .ok outs ∧
      direct env v ops = .ok outs ∧ _ :=
    results_of_served hadv hs (onTarget_of_create htarget) (onVirtd_of_create hadv.type hvirtd) hp
  obtain ⟨outs, hpackets, hdirect, -⟩ := hboth
  obtain ⟨d, f', hd, O⟩ := onDriver_of_create hadv.type hcap hdriver hgood
  have hsame : f = f' := by
    rw [hd] at hfunc
    exact Option.some.inj (hfunc.symm.trans O.func)
  subst hsame
  obtain ⟨mem, hmem, hlen⟩ := O.onTarget.room
  obtain ⟨mem', hmem', hlen'⟩ := O.onTarget.setMapped.room
  obtain ⟨k', hrun⟩ := (kdStep_works hadv hs C).run ⟨d, f, hd, O, hmem, hlen⟩ (remembers_nil _ _)
    hnone hp
  have hpath : PathHolds t pCap KpackLink.device page.device.crResp page mem' := by
    rw [PathHolds, hpage]
    exact ⟨O.onTarget.setMapped, rfl, hmem', hlen'⟩
  obtain ⟨page', hrun'⟩ := (anyPath_works handle
    (kpackPackAc_delivers (serveDevice .kernel env stale)) hadv hs).run hpath (remembers_nil _ _)
    hnone hp
  have W : WorksOn (virtdStep env) _ _ _ _ (VirtdHolds t pCap) := virtdStep_works hadv hs
  obtain ⟨v', hrun₀⟩ := W.run ⟨onVirtd_of_create hadv.type hvirtd,
    (onVirtd_of_create hadv.type hvirtd).room.choose_spec⟩ (remembers_nil _ _) hnone hp
  have houts : outs = results (t.idxSize pCap).toNat (t.dataSize pCap).toNat
      (t.valueAt (t.dataSize pCap).toNat) [] ops := by
    rw [direct, hrun₀] at hdirect
    exact (Except.ok.inj hdirect).symm
  refine ⟨outs, hdirect, hpackets, ?_, ?_⟩
  · rw [throughDriver, hrun, houts]
    rfl
  · rw [overMapping, hrun', houts]
    rfl

/-- An array of values of four bytes is asked for, at a null pointer; the announcement goes there,
too. -/
def arrayCall : KEnv where
  env := .zeroed
  deviceCreate := true
  user := fun _ => (arrayCap 4 4).bytes ++ List.replicate 192 0
  fresh := .blank 0

def arrayUser : KdEnv where
  ke := arrayCall
  opened := true
  stack := .zero
  beyond := List.replicate 8 0
  reach := sizeofKamCmd

def arrayAccess : KdFunc where
  handle := some 1
  crRespAddr := 0
  crResp := []
  hasFn := true
  writeAl := some .align32
  readAl := some .align32
  mapFlags := 0

/-- An element that is written twice and read, on all four. -/
theorem everyPath_agrees_four : ∃ v k f r, appmemCreateFunction arrayCall createKernel
      (.blank 0) = .ok (k, r) ∧
    (k.devices createKernel.minor).bind KDevice.pFunc = some f ∧
    ∃ outs, direct .zeroed v [.write [3, 0, 0, 0] [1, 2, 3, 4], .read [3, 0, 0, 0] [0, 0, 0, 0]] =
        .ok outs ∧
      overPackets .zeroed 0 0xAA01 (newLink .stata (arrayCap 4 4))
        [.write [3, 0, 0, 0] [1, 2, 3, 4], .read [3, 0, 0, 0] [0, 0, 0, 0]] = .ok outs ∧
      throughDriver arrayUser 8 16 arrayAccess k
        [.write [3, 0, 0, 0] [1, 2, 3, 4], .read [3, 0, 0, 0] [0, 0, 0, 0]] = .ok outs ∧
      overMapping .zeroed 0 0xAA01 ⟨.zero, .zero, f.setMapped⟩
        [.write [3, 0, 0, 0] [1, 2, 3, 4], .read [3, 0, 0, 0] [0, 0, 0, 0]] = .ok outs := by
  have hadv : Advertised .stata (arrayCap 4 4) :=
    ⟨by decide, by decide, by decide, by decide⟩
  have hserved : SizesServed .stata (arrayCap 4 4) := ⟨.inl (by decide), by decide⟩
  have htarget : CellType.stata.create .zeroed (.blank 0xAA01) (arrayCap 4 4) =
      (amRetGood, (newLink .stata (arrayCap 4 4)).target) := rfl
  have hvirtd : ∃ v, amVirtdCreateFunction .zeroed targetRegistry 0 (arrayCap 4 4)
      ⟨.blank 0, some ⟨none, none, none, none, none⟩⟩ = .ok (amRetGood, v) := ⟨_, rfl⟩
  have hcap : commandCap arrayCall createKernel.tempKcmd = arrayCap 4 4 := by
    have huser : (arrayCall.user createKernel.tempKcmd.dataIn).take sizeofMemCap =
        (arrayCap 4 4).bytes ++ [] := by
      rw [List.append_nil]
      exact List.take_left' (AmMemCap.length_bytes _)
    rw [commandCap, huser, AmMemCap.ofBytes_bytes]
  have hgood : (appmemCreateFunction arrayCall createKernel (.blank 0)).map
      (fun q => (q.2.error, ((q.1.devices createKernel.minor).bind KDevice.pFunc).isSome)) =
        .ok (amRetGood, true) := by decide +kernel
  have hclient : DriverClient arrayUser arrayAccess createKernel.minor 8 16 :=
    ⟨rfl, rfl, rfl, ⟨by decide, by decide⟩, by decide⟩
  have hin : CellType.stata.InRange (arrayCap 4 4) (leVal [3, 0, 0, 0]) := by
    change leVal [3, 0, 0, 0] < 16
    decide
  have hproper : ProperFor .stata (arrayCap 4 4) [.write [3, 0, 0, 0] [1, 2, 3, 4],
      .read [3, 0, 0, 0] [0, 0, 0, 0]] :=
    ⟨⟨⟨by decide, by decide⟩, hin, trivial⟩, ⟨⟨by decide, by decide⟩, hin, _, rfl⟩, trivial⟩
  obtain ⟨v, hv⟩ := hvirtd
  obtain ⟨⟨k, r⟩, hk, hvals⟩ := except_map_eq_ok.mp hgood
  obtain ⟨hr, hsome⟩ := Prod.mk.inj hvals
  obtain ⟨f, hf⟩ := Option.isSome_iff_exists.mp hsome
  exact ⟨v, k, f, r, hk, hf,
    everyPath_agrees hadv hserved htarget hv hk hr hcap hclient hf rfl hproper⟩

end Agreement

end AppMem.Cells
