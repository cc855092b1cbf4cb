import AppMem.Driver.Status
import AppMem.Library.Blocks

/-! # What creating a function device leaves behind

The device node, the entry of the list, the table of operations, the function, its private data
and its storage are allocated one after the other. Only a creator that finds no storage frees
something, the private data; the clean-up of `appmem_create_function` is empty.
-/
namespace AppMem.Driver
open Library.Bytes Library.Checked Library.Blocks Abi Memory Pack Device

section Blocks

/-- The heap after `am_create_flat_device`, `am_create_stata_device` or `am_create_assca_device`. -/
def creatorBlocks (env : Env) (amType : UInt32) (h : Heap) : Exec Heap :=
  match h.malloc (env.alloc .funcData) with
  | (none, h) => .ok h
  | (some pVdF, h) =>
    match h.malloc (env.alloc (dataSite amType)) with
    | (none, h) => h.free .useAfterFree pVdF
    | (some _, h) => .ok h

/-- The heap after `appmem_device_func_create`: the node, the device and its operations. -/
def funcCreateBlocks (ke : KEnv) (h : Heap) : Heap :=
  let node := h.malloc ke.deviceCreate
  if node.1.isSome then
    ((node.2.malloc (ke.env.alloc .kdevice)).2.malloc (ke.env.alloc .pfnOps)).2
  else node.2

/-- The heap after the function is built, or is not: nothing is freed that is not needed. -/
def buildBlocks (ke : KEnv) (amType : UInt32) (h : Heap) : Exec Heap :=
  match h.malloc (ke.env.alloc .memFunction) with
  | (none, h) => .ok h
  | (some _, h) =>
    if (createBranch amType).isSome then
      if ke.deviceCreate then creatorBlocks ke.env amType (funcCreateBlocks ke h)
      else .ok (funcCreateBlocks ke h)
    else .ok h

def EarlyRefusal (ke : KEnv) (c : KamCmd) (pBaseFunc : MemFunction) : Prop :=
  pBaseFunc.amType ≠ amTypeBaseAppmem ∨ c.lenIn.toNat < sizeofMemCap ∨
    (ke.user c.dataIn).length < sizeofMemCap

instance (ke : KEnv) (c : KamCmd) (f : MemFunction) : Decidable (EarlyRefusal ke c f) :=
  inferInstanceAs (Decidable (_ ∨ _ ∨ _))

def commandCap (ke : KEnv) (c : KamCmd) : AmMemCap :=
  AmMemCap.ofBytes ((ke.user c.dataIn).take sizeofMemCap)

/-- The heap after `appmem_create_function`. -/
def createBlocks (ke : KEnv) (c : KamCmd) (pBaseFunc : MemFunction) (h : Heap) : Exec Heap :=
  if EarlyRefusal ke c pBaseFunc then .ok h else buildBlocks ke (commandCap ke c).amType h

/-- One new device at the head of the list, with its function and its operations. -/
def OneNewDevice (k k' : Kernel) : Prop :=
  ∃ minor d, k'.functionDevices = minor :: k.functionDevices ∧ k'.devices minor = some d ∧
    d.pFunc.isSome ∧ ∃ i, (d.pfnOps i).isSome

/-- The call comes back without a fault. Either it is good and there is one new device, or it is
not, and the devices and the live blocks are those from before. -/
def AllOrNothing (ke : KEnv) (k : Kernel) (pBaseFunc : MemFunction) (h : Heap) : Prop :=
  ∃ k' r h', appmemCreateFunction ke k pBaseFunc = .ok (k', r) ∧
    createBlocks ke k.tempKcmd pBaseFunc h = .ok h' ∧
    ((r.error = amRetGood ∧ OneNewDevice k k') ∨
      (r.error ≠ amRetGood ∧ k'.functionDevices = k.functionDevices ∧ k'.devices = k.devices ∧
        h'.live = h.live))

structure AllSucceed (ke : KEnv) (c : KamCmd) : Prop where
  type : (createBranch (commandCap ke c).amType).isSome
  node : ke.deviceCreate = true
  device : ke.env.alloc .kdevice = true
  ops : ke.env.alloc .pfnOps = true
  memory : HasMemory ke.env (commandCap ke c).amType
  answer : sizeofCrResp ≤ (ke.user c.dataOut).length

/-- A command that is refused at once, no memory for the function itself, or no failure at all. -/
def NothingToUndo (ke : KEnv) (c : KamCmd) (pBaseFunc : MemFunction) : Prop :=
  EarlyRefusal ke c pBaseFunc ∨ ke.env.alloc .memFunction = false ∨ AllSucceed ke c

end Blocks

section Lemmas
variable {ke : KEnv} {k : Kernel} {f : MemFunction} {h : Heap} {name : String} {create : Creator}

theorem appmemCreateFunction_early (hr : EarlyRefusal ke k.tempKcmd f) :
    appmemCreateFunction ke k f = .ok (k, { error := negEnotty }) := by
  unfold appmemCreateFunction
  dsimp only
  by_cases ht : f.amType ≠ amTypeBaseAppmem
  · rw [if_pos ht]
  · rw [if_neg ht]
    by_cases hl : k.tempKcmd.lenIn.toNat < sizeofMemCap
    · rw [if_pos hl]
    · rw [if_neg hl, if_pos ((hr.resolve_left ht).resolve_left hl)]

theorem appmemCreateFunction_late (hr : ¬ EarlyRefusal ke k.tempKcmd f) :
    appmemCreateFunction ke k f = buildFunction ke k (commandCap ke k.tempKcmd) >>= fun r =>
      match r.2.2 with
      | some minor => .ok (reportFunction ke r.1 minor k.tempKcmd.dataOut)
      | none => .ok (r.1, { error := r.2.1 }) := by
  rw [EarlyRefusal, not_or, not_or] at hr
  unfold appmemCreateFunction
  dsimp only
  rw [if_neg hr.1, if_neg hr.2.1, if_neg hr.2.2]
  rfl

theorem creator_good_iff {env : Env} {g : MemFunction} {pCap : AmMemCap}
    (hb : createBranch pCap.amType = some (name, create)) :
    (create env g pCap).1 = amRetGood ↔ HasMemory env pCap.amType := by
  have hne : amRetAllocErr ≠ amRetGood := by decide
  by_cases hm : HasMemory env pCap.amType
  · rw [creator_status hb, if_pos (show _ ∧ _ from hm)]
    exact iff_of_true rfl hm
  · rw [creator_status hb, if_neg (show ¬ (_ ∧ _) from hm)]
    exact iff_of_false hne hm

theorem live_creatorBlocks {env : Env} {amType : UInt32} (hm : ¬ HasMemory env amType) :
    ∃ h', creatorBlocks env amType h = .ok h' ∧ h'.live = h.live := by
  unfold creatorBlocks
  rw [HasMemory, not_and] at hm
  cases hfd : env.alloc .funcData with
  | false => exact ⟨h, rfl, rfl⟩
  | true =>
    have hdata : env.alloc (dataSite amType) = false := by
      simpa [dataSite] using hm hfd
    rw [hdata]
    exact Heap.free_alloc _ h

theorem creatorBlocks_ok (env : Env) (amType : UInt32) (h : Heap) :
    ∃ h', creatorBlocks env amType h = .ok h' := by
  by_cases hm : HasMemory env amType
  · have hdata : env.alloc (dataSite amType) = true := hm.2
    refine ⟨h.alloc.alloc, ?_⟩
    unfold creatorBlocks
    rw [hm.1, hdata]
    rfl
  · obtain ⟨h', hok, -⟩ := live_creatorBlocks (h := h) hm
    exact ⟨h', hok⟩

theorem appmemDeviceFuncCreate_of_memory (k : Kernel) (name : String) (amType : UInt32)
    (hn : ke.deviceCreate = true) (hd : ke.env.alloc .kdevice = true) (ho : ke.env.alloc .pfnOps = true) :
    ∃ k₁ d, appmemDeviceFuncCreate ke k name amType = .ok (k₁, some k.minor) ∧
      k₁.functionDevices = k.minor :: k.functionDevices ∧ k₁.devices k.minor = some d ∧
      k₁.tempKcmd = k.tempKcmd := by
  unfold appmemDeviceFuncCreate
  simp only [hn, hd, ho, and_self, require_of_true, ok_bind, if_true, pure_eq_ok]
  exact ⟨_, _, rfl, rfl, Function.update_self _ _ _, rfl⟩

theorem appmemDeviceFuncCreate_of_not_memory {amType : UInt32} (hn : ke.deviceCreate = true)
    (hm : ¬ (ke.env.alloc .kdevice = true ∧ ke.env.alloc .pfnOps = true)) :
    appmemDeviceFuncCreate ke k name amType = .error .nullPointer := by
  unfold appmemDeviceFuncCreate
  simp only [hn, require_of_false _ hm, error_bind, if_true]

theorem creator_ops {env : Env} {g : MemFunction} {pCap : AmMemCap}
    (hb : createBranch pCap.amType = some (name, create)) (hm : HasMemory env pCap.amType) :
    ∃ i, ((create env g pCap).2.pfnOps i).isSome := by
  have hread : amOpReadAlign.toNat < amOpMaxOps := by decide
  have hwrite : amOpWriteAlign.toNat < amOpMaxOps := by decide
  unfold createBranch at hb
  split at hb
  · rename_i ht
    cases hb
    rw [HasMemory, ht] at hm
    have hstorage : env.alloc .storage = true := hm.2
    rw [amCreateFlatDevice, if_pos hm.1, if_pos hstorage]
    exact ⟨⟨_, hread⟩, rfl⟩
  · split at hb
    · rename_i ht
      cases hb
      rw [HasMemory, ht] at hm
      have hstorage : env.alloc .storage = true := hm.2
      rw [amCreateStataDevice, if_pos hm.1, if_pos hstorage]
      exact ⟨⟨_, hread⟩, rfl⟩
    · split at hb
      · rename_i ht
        cases hb
        rw [HasMemory, ht] at hm
        have hassca : env.alloc .assca = true := hm.2
        rw [amCreateAsscaDevice, if_pos ⟨hm.1, ht⟩, if_pos hassca]
        exact ⟨⟨_, hwrite⟩, rfl⟩
      · cases hb

section Build
variable {pCap : AmMemCap}

theorem buildFunction_noMemory (hm : ke.env.alloc .memFunction = false) :
    buildFunction ke k pCap = .ok (k, amRetAllocErr, none) := by
  rw [buildFunction, hm, if_neg Bool.false_ne_true]

theorem buildFunction_noBranch (hm : ke.env.alloc .memFunction = true)
    (hb : createBranch pCap.amType = none) :
    buildFunction ke k pCap = .ok (k, negEnotty, none) := by
  rw [buildFunction, if_pos hm, hb]

theorem buildFunction_branch (hm : ke.env.alloc .memFunction = true)
    (hb : createBranch pCap.amType = some (name, create)) : buildFunction ke k pCap =
      appmemDeviceFuncCreate ke k name pCap.amType >>= fun r =>
        match r.2 with
        | none => .ok (r.1, amRetAllocErr, none)
        | some minor =>
          let c := create ke.env { ke.fresh with pfnOps := fun _ => none } pCap
          if c.1 = amRetGood then
            let dev := (r.1.devices minor).map fun d => d.adopt c.2
            .ok ({ r.1 with devices := Function.update r.1.devices minor dev }, amRetGood, some minor)
          else .ok (r.1, c.1, none) := by
  rw [buildFunction, if_pos hm, hb]
  rfl

/-- A device whose function cannot be built stays in the list. -/
theorem buildFunction_fails (hm : ke.env.alloc .memFunction = true)
    (hb : createBranch pCap.amType = some (name, create)) (hn : ke.deviceCreate = true)
    (hd : ke.env.alloc .kdevice = true) (ho : ke.env.alloc .pfnOps = true)
    (hmem : ¬ HasMemory ke.env pCap.amType) :
    ∃ k' e, buildFunction ke k pCap = .ok (k', e, none) ∧ e ≠ amRetGood ∧
      k'.functionDevices = k.minor :: k.functionDevices := by
  obtain ⟨k₁, d, hcreate, hlist, -, -⟩ :=
    appmemDeviceFuncCreate_of_memory k name pCap.amType hn hd ho
  have hbad : (create ke.env { ke.fresh with pfnOps := fun _ => none } pCap).1 ≠ amRetGood :=
    fun hg => hmem ((creator_good_iff hb).mp hg)
  refine ⟨k₁, _, ?_, hbad, hlist⟩
  rw [buildFunction_branch hm hb, hcreate, ok_bind]
  dsimp only
  rw [if_neg hbad]

theorem buildFunction_succeeds (hm : ke.env.alloc .memFunction = true)
    (hb : createBranch pCap.amType = some (name, create)) (hn : ke.deviceCreate = true)
    (hd : ke.env.alloc .kdevice = true) (ho : ke.env.alloc .pfnOps = true)
    (hmem : HasMemory ke.env pCap.amType) :
    ∃ k' d g, buildFunction ke k pCap = .ok (k', amRetGood, some k.minor) ∧
      k'.functionDevices = k.minor :: k.functionDevices ∧ k'.devices k.minor = some d ∧
      d.pFunc = some g ∧ ∃ i, (d.pfnOps i).isSome := by
  obtain ⟨k₁, d, hcreate, hlist, hdev, -⟩ :=
    appmemDeviceFuncCreate_of_memory k name pCap.amType hn hd ho
  obtain ⟨i, hi⟩ := creator_ops (g := { ke.fresh with pfnOps := fun _ => none }) hb hmem
  have hadopt : ∀ (d : KDevice) (g : MemFunction), (d.adopt g).pFunc = some g ∧
      ∀ i, (d.adopt g).pfnOps i = (g.pfnOps i).map .device := by
    intro d g
    unfold KDevice.adopt
    dsimp only
    split
    · exact ⟨rfl, fun _ => rfl⟩
    · exact ⟨rfl, fun _ => rfl⟩
  let c := create ke.env { ke.fresh with pfnOps := fun _ => none } pCap
  refine ⟨{ k₁ with devices := Function.update k₁.devices k.minor (some (d.adopt c.2)) },
    d.adopt c.2, c.2, ?_, hlist, ?_, (hadopt d _).1, i, ?_⟩
  · rw [buildFunction_branch hm hb, hcreate, ok_bind]
    dsimp only
    rw [if_pos ((creator_good_iff hb).mpr hmem), hdev]
    rfl
  · exact Function.update_self _ _ _
  · rw [(hadopt d _).2 i, Option.isSome_map]
    exact hi

end Build

theorem reportFunction_eq (ke : KEnv) {minor : ℕ} {d : KDevice} {g : MemFunction} (dataOut : UInt64)
    (hd : k.devices minor = some d) (hg : d.pFunc = some g) :
    (reportFunction ke k minor dataOut).1 = k.setFunc minor (announce d g) ∧
      ((reportFunction ke k minor dataOut).2.error = amRetGood ↔
        sizeofCrResp ≤ (ke.user dataOut).length) := by
  have hne : negEnomem ≠ amRetGood := by decide
  unfold reportFunction
  rw [hd]
  dsimp only
  rw [hg]
  dsimp only
  by_cases hroom : sizeofCrResp ≤ (ke.user dataOut).length
  · rw [if_pos hroom]
    exact ⟨rfl, iff_of_true rfl hroom⟩
  · rw [if_neg hroom]
    exact ⟨rfl, iff_of_false hne hroom⟩

end Lemmas

section Undoing
variable {ke : KEnv} {k : Kernel} {f : MemFunction} {h : Heap}

theorem allOrNothing_of_nothingToUndo (hc : NothingToUndo ke k.tempKcmd f) :
    AllOrNothing ke k f h := by
  by_cases he : EarlyRefusal ke k.tempKcmd f
  · exact ⟨k, { error := negEnotty }, h, appmemCreateFunction_early he, if_pos he,
      .inr ⟨by decide, rfl, rfl, rfl⟩⟩
  have hcreate := appmemCreateFunction_late (k := k) he
  have hblocks : createBlocks ke k.tempKcmd f h =
      buildBlocks ke (commandCap ke k.tempKcmd).amType h := if_neg he
  rcases hc.resolve_left he with hm | A
  · refine ⟨k, { error := amRetAllocErr }, h, ?_, ?_, .inr ⟨by decide, rfl, rfl, rfl⟩⟩
    · rw [hcreate, buildFunction_noMemory hm, ok_bind]
    · rw [hblocks, buildBlocks, hm]
      rfl
  · cases hm : ke.env.alloc .memFunction with
    | false =>
      refine ⟨k, { error := amRetAllocErr }, h, ?_, ?_, .inr ⟨by decide, rfl, rfl, rfl⟩⟩
      · rw [hcreate, buildFunction_noMemory hm, ok_bind]
      · rw [hblocks, buildBlocks, hm]
        rfl
    | true =>
      obtain ⟨⟨name, create⟩, hb⟩ := Option.isSome_iff_exists.mp A.type
      obtain ⟨k₁, d, g, hbuild, hlist, hd, hg, i, hi⟩ :=
        buildFunction_succeeds (k := k) hm hb A.node A.device A.ops A.memory
      obtain ⟨hkernel, herror⟩ := reportFunction_eq ke k.tempKcmd.dataOut hd hg
      obtain ⟨h', hok⟩ := creatorBlocks_ok ke.env (commandCap ke k.tempKcmd).amType
        (funcCreateBlocks ke h.alloc)
      let rep := reportFunction ke k₁ k.minor k.tempKcmd.dataOut
      refine ⟨rep.1, rep.2, h', ?_, ?_, .inl ⟨herror.mpr A.answer, k.minor, { d with
        pFunc := some (announce d g) }, ?_, ?_, rfl, i, hi⟩⟩
      · rw [hcreate, hbuild, ok_bind]
      · rw [hblocks, buildBlocks, hm, Heap.malloc_true]
        dsimp only
        rw [if_pos A.type, if_pos A.node, hok]
      · rw [hkernel]
        exact hlist
      · rw [hkernel, Kernel.setFunc, hd]
        exact Function.update_self _ _ _

theorem AllOrNothing.of_error {k' : Kernel} {r : KServed} {h' : Heap} (ha : AllOrNothing ke k f h)
    (hcall : appmemCreateFunction ke k f = .ok (k', r))
    (hheap : createBlocks ke k.tempKcmd f h = .ok h') (hne : r.error ≠ amRetGood) :
    k'.functionDevices = k.functionDevices ∧ h'.live = h.live := by
  obtain ⟨k₁, r₁, h₁, hcall₁, hheap₁, hres⟩ := ha
  rw [hcall] at hcall₁
  rw [hheap] at hheap₁
  cases hcall₁
  cases hheap₁
  rcases hres with ⟨hgood, -⟩ | ⟨-, hlist, -, hlive⟩
  · exact absurd hgood hne
  · exact ⟨hlist, hlive⟩

/-- The function has memory by then, so its block stays when the type or the node fails. -/
theorem AllOrNothing.has_node (ha : AllOrNothing ke k f h) (he : ¬ EarlyRefusal ke k.tempKcmd f)
    (hm : ke.env.alloc .memFunction = true) :
    (createBranch (commandCap ke k.tempKcmd).amType).isSome ∧ ke.deviceCreate = true := by
  have halloc : h.alloc.live ≠ h.live := by
    rw [Heap.live_alloc, ne_eq, Finset.insert_eq_self]
    exact h.next_notMem_live
  have hnotty : negEnotty ≠ amRetGood := by decide
  have herr : amRetAllocErr ≠ amRetGood := by decide
  cases hb : createBranch (commandCap ke k.tempKcmd).amType with
  | none =>
    have hcall : appmemCreateFunction ke k f = .ok (k, { error := negEnotty }) := by
      rw [appmemCreateFunction_late he, buildFunction_noBranch hm hb, ok_bind]
    have hheap : createBlocks ke k.tempKcmd f h = .ok h.alloc := by
      rw [createBlocks, if_neg he, buildBlocks, hm, Heap.malloc_true]
      dsimp only
      rw [hb]
      rfl
    exact absurd (ha.of_error hcall hheap hnotty).2 halloc
  | some branch =>
    refine ⟨rfl, ?_⟩
    by_contra hn
    rw [Bool.not_eq_true] at hn
    have hcall : appmemCreateFunction ke k f =
        .ok ({ k with minor := k.minor + 1 }, { error := amRetAllocErr }) := by
      obtain ⟨name, create⟩ := branch
      rw [appmemCreateFunction_late he, buildFunction_branch hm hb, appmemDeviceFuncCreate, hn]
      rfl
    have hheap : createBlocks ke k.tempKcmd f h = .ok h.alloc := by
      rw [createBlocks, if_neg he, buildBlocks, hm, Heap.malloc_true]
      dsimp only
      rw [hb, hn, funcCreateBlocks, hn]
      rfl
    exact absurd (ha.of_error hcall hheap herr).2 halloc

/-- What an error leaves behind decides: nothing may have been allocated, and no device entered. -/
theorem nothingToUndo_of_allOrNothing (ha : AllOrNothing ke k f h) :
    NothingToUndo ke k.tempKcmd f := by
  by_cases he : EarlyRefusal ke k.tempKcmd f
  · exact .inl he
  cases hm : ke.env.alloc .memFunction with
  | false => exact .inr (.inl hm)
  | true =>
    obtain ⟨htype, hn⟩ := ha.has_node he hm
    obtain ⟨⟨name, create⟩, hb⟩ := Option.isSome_iff_exists.mp htype
    obtain ⟨k', r, h', hcall, hheap, -⟩ := id ha
    have hsame : r.error ≠ amRetGood → k'.functionDevices = k.functionDevices :=
      fun hne => (ha.of_error hcall hheap hne).1
    rw [appmemCreateFunction_late he] at hcall
    by_cases hops : ke.env.alloc .kdevice = true ∧ ke.env.alloc .pfnOps = true
    · by_cases hmem : HasMemory ke.env (commandCap ke k.tempKcmd).amType
      · refine .inr (.inr ⟨htype, hn, hops.1, hops.2, hmem, ?_⟩)
        by_contra hroom
        obtain ⟨k₁, d, g, hbuild, hlist, hd, hg, -⟩ :=
          buildFunction_succeeds (k := k) hm hb hn hops.1 hops.2 hmem
        obtain ⟨hkernel, herror⟩ :=
          reportFunction_eq ke k.tempKcmd.dataOut hd hg
        rw [hbuild, ok_bind, Except.ok.injEq] at hcall
        have hk' : k' = k₁.setFunc k.minor (announce d g) :=
          (congrArg Prod.fst hcall).symm.trans hkernel
        have hne : r.error ≠ amRetGood := by
          intro hgood
          have hr : (reportFunction ke k₁ k.minor k.tempKcmd.dataOut).2 = r :=
            congrArg Prod.snd hcall
          exact hroom (herror.mp (hr ▸ hgood))
        have hgrown := hsame hne
        rw [hk', Kernel.setFunc, hlist] at hgrown
        exact List.cons_ne_self _ _ hgrown
      · obtain ⟨k₁, e, hbuild, hne, hlist⟩ :=
          buildFunction_fails (k := k) hm hb hn hops.1 hops.2 hmem
        rw [hbuild, ok_bind] at hcall
        cases hcall
        rw [hsame hne] at hlist
        exact absurd hlist.symm (List.cons_ne_self _ _)
    · rw [buildFunction_branch hm hb, appmemDeviceFuncCreate_of_not_memory hn hops] at hcall
      cases hcall

/-- For every list of devices, command and outcome of the steps: creating is all or nothing, and
without a fault, just when nothing was allocated before the first failure, or nothing fails. -/
theorem createAllOrNothing_iff (ke : KEnv) (k : Kernel) (pBaseFunc : MemFunction) (h : Heap) :
    AllOrNothing ke k pBaseFunc h ↔ NothingToUndo ke k.tempKcmd pBaseFunc :=
  ⟨nothingToUndo_of_allOrNothing, allOrNothing_of_nothingToUndo⟩

end Undoing

section Instances

def createCommand : KamCmd :=
  ⟨leBytes 4 4 ++ leBytes 4 sizeofMemCap ++ List.replicate 248 0, by
    rw [List.length_append, List.length_append, length_leBytes, length_leBytes,
      List.length_replicate, sizeofKamCmd]⟩

/-- The advertised flat memory is asked for, and `vmalloc` of its storage fails. -/
def noStorage : KEnv where
  env := { Env.zeroed with alloc := fun site => site ≠ .storage }
  deviceCreate := true
  user := fun _ => flatCaps.bytes
  fresh := .blank 0

def createKernel : Kernel :=
  { Kernel.start (.blank 0) 240 targetRegistry with tempKcmd := createCommand }

/-- Without storage the device stays in the list, with its node, its operations and the function. -/
theorem not_createAllOrNothing :
    ¬ ∀ f, f.amType = amTypeBaseAppmem → AllOrNothing noStorage createKernel f .empty := by
  intro hall
  rcases nothingToUndo_of_allOrNothing (hall (.blank 0) rfl) with he | hm | hs
  · have hpassed : ¬ EarlyRefusal noStorage createCommand (.blank 0) := by decide +kernel
    exact hpassed he
  · exact Bool.noConfusion hm
  · have htype : (commandCap noStorage createCommand).amType ≠ amTypeAssocArray := by
      decide +kernel
    have hmemory : HasMemory noStorage.env (commandCap noStorage createCommand).amType := hs.memory
    rw [HasMemory, if_neg htype] at hmemory
    exact Bool.noConfusion hmemory.2

end Instances

end AppMem.Driver
