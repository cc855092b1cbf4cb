import AppMem.Driver.CreateBlocks

/-! # Loading and unloading the driver

The driver with the blocks that it has allocated, from `appmemd_init` to `appmemd_exit`. A device
comes with a block for itself, one for its operations and, once its function is built, one for the
function; the private data of the function and its storage are not reached by `appmemd_exit`. The
node of a device and the class of the driver count as a block each. Left out are mapped pages with
their threads (`isMapped`), and the items and the hash tables that writes allocate for associative
arrays: calls other than creations leave the heap as it is here.
-/
namespace AppMem.Driver
open Library.Bytes Library.Checked Library.Blocks Abi Memory Pack Device

section Modules

/-- The blocks of a device, the first of them its node. -/
structure DeviceRecords where
  node : ℕ
  device : ℕ
  pfnOps : ℕ
  pFunc : Option ℕ

/-- The blocks in the order in which `appmemd_release_device` frees them. -/
def DeviceRecords.blocks (d : DeviceRecords) : List ℕ := d.pFunc.toList ++ [d.pfnOps, d.device]

/-- The driver with its blocks: the class, those of the base device, of the devices behind
`pFunctionDevicesHead`, the private data of functions, and the functions that no device leads
to. -/
structure Module where
  kernel : Kernel
  cl : ℕ
  base : DeviceRecords
  devices : List DeviceRecords
  data : List ℕ
  lost : List ℕ
  heap : Heap

/-- What `appmemd_init` finds: the answer of `alloc_chrdev_region`, whether the class and the node
are created, and the memory for the devices, the operations and the function. -/
structure LoadEnv where
  region : AmReturn
  major : ℕ
  classCreate : Bool
  deviceCreate : Bool
  devices : Bool
  pfnOps : Bool
  func : Bool
  fresh : MemFunction

/-- `AM_CAP_AC_FLAG_PACK_MMAP` in the capability of an entry. -/
def advertiseMmap (e : FunctionEntry) : Exec FunctionEntry :=
  match e.pCap with
  | none => .error .nullPointer
  | some cap => .ok { e with
      pCap := some { cap with accessFlags := cap.accessFlags ||| amCapAcFlagPackMmap } }

def advertiseAll (entries : Registry) : List ℕ → Exec Registry
  | [] => .ok entries
  | i :: is =>
    if h : i < maxDeviceFunctions then
      match entries ⟨i, h⟩ with
      | none => .error .nullPointer
      | some e => do
        let e ← advertiseMmap e
        advertiseAll (Function.update entries ⟨i, h⟩ (some e)) is
    else .error .bounds

def mappedTypes : List ℕ := (List.range virtdBaseCap.subType.toNat).tail

/-- `appmemd_init` behind the class: the node, the devices, the operations and the function. Without
memory for the last two it writes through a null pointer. -/
def initDevices (le : LoadEnv) (entries : Registry) (cl : ℕ) (h : Heap) :
    Exec (AmReturn × Option Module × Heap) :=
  match h.malloc le.deviceCreate with
  | (none, h) => .ok (-1, none, h)
  | (some node, h) =>
    match h.malloc le.devices with
    | (none, h) => .ok (negEnomem, none, h)
    | (some device, h) => do
      require (le.pfnOps ∧ le.func) Fault.nullPointer
      return (le.region, some {
        kernel := .start le.fresh le.major entries
        cl := cl
        base := ⟨node, device, h.next, some (h.next + 1)⟩
        devices := []
        data := []
        lost := []
        heap := h.alloc.alloc }, h.alloc.alloc)

/-- `appmemd_init`: what it returns, the driver if it is loaded, and the heap. -/
def appmemdInit (le : LoadEnv) (entries : Registry) (h : Heap) :
    Exec (AmReturn × Option Module × Heap) := do
  let entries ← advertiseAll entries mappedTypes
  if le.region < 0 then return (le.region, none, h)
  else
    match h.malloc le.classCreate with
    | (none, h) => return (-1, none, h)
    | (some cl, h) => initDevices le entries cl h

def appmemdReleaseDevice (h : Heap) (d : DeviceRecords) : Exec Heap :=
  h.freeAll Fault.useAfterFree d.blocks

/-- One round of the loop of `appmemd_exit`: the next device, the number and the operations are read
before the device is released. The handler for `AM_OP_CODE_RELEASE_FUNC` is called as `config`, also
where an `op_only` handler is stored; every one that is stored looks at no argument and does
nothing. -/
def exitDevice (h : Heap) (d : DeviceRecords) : Exec Heap := do
  require (d.device ∈ h.live ∧ d.pfnOps ∈ h.live) Fault.useAfterFree
  let h ← h.free Fault.useAfterFree d.node
  appmemdReleaseDevice h d

/-- `appmemd_exit`; it walks through the list from its head. -/
def appmemdExit (m : Module) : Exec Heap := do
  let h ← m.devices.foldlM exitDevice m.heap
  let h ← appmemdReleaseDevice h m.base
  h.freeAll Fault.useAfterFree [m.base.node, m.cl]

end Modules

section Creating

def creatorData (env : Env) (amType : UInt32) (h : Heap) : Exec (Heap × Option (ℕ × ℕ)) :=
  match h.malloc (env.alloc .funcData) with
  | (none, h) => .ok (h, none)
  | (some pVdF, h) =>
    match h.malloc (env.alloc (dataSite amType)) with
    | (none, h) => do
      let h ← h.free .useAfterFree pVdF
      return (h, none)
    | (some data, h) => .ok (h, some (pVdF, data))

/-- The blocks of `appmem_create_function`. The device goes to the head of the list; a function
that could not be built is not freed. -/
def createRecords (ke : KEnv) (c : KamCmd) (pBaseFunc : MemFunction) (m : Module) : Exec Module :=
  if EarlyRefusal ke c pBaseFunc then .ok m
  else
    let amType := (commandCap ke c).amType
    match m.heap.malloc (ke.env.alloc .memFunction) with
    | (none, _) => .ok m
    | (some pFunc, h) =>
      if (createBranch amType).isSome ∧ ke.deviceCreate then do
        require (ke.env.alloc .kdevice ∧ ke.env.alloc .pfnOps) Fault.nullPointer
        let r ← creatorData ke.env amType h.alloc.alloc.alloc
        match r.2 with
        | none => return { m with
            devices := ⟨h.next, h.next + 1, h.next + 2, none⟩ :: m.devices
            lost := pFunc :: m.lost
            heap := r.1 }
        | some (pVdF, data) => return { m with
            devices := ⟨h.next, h.next + 1, h.next + 2, some pFunc⟩ :: m.devices
            data := pVdF :: data :: m.data
            heap := r.1 }
      else .ok { m with
        lost := pFunc :: m.lost
        heap := h }

/-- The command and the function that `appmem_create_function` is called with, if the dispatcher
calls it. -/
def createCall (ke : KEnv) (k : Kernel) (minor : ℕ) (cmd : UInt32) (arg : Option (List UInt8)) :
    Option (KamCmd × MemFunction) :=
  if iocType cmd ≠ appmemdIocMagic ∨ appmemdIocMaxnr < iocNr cmd then none
  else
    match arg, k.devices minor with
    | some block, some d =>
      match d.pFunc, k.tempKcmd.copyIn block (cmdBytes cmd) with
      | some f, .ok c =>
        if block.length < cmdBytes cmd then none
        else
          match ioctlSelect ke d f c (cmdBytes cmd) with
          | .ok (.call .appmemCreateFunction .config _) => some (c, f)
          | _ => none
      | _, _ => none
    | _, _ => none

/-- A call of `appmem_create_function` that gets memory for a function. -/
def GetsFunction (ke : KEnv) (call : KamCmd × MemFunction) : Prop :=
  ¬ EarlyRefusal ke call.1 call.2 ∧ ke.env.alloc .memFunction = true

instance (ke : KEnv) (call : KamCmd × MemFunction) : Decidable (GetsFunction ke call) :=
  inferInstanceAs (Decidable (_ ∧ _))

/-- An `ioctl` of a client. -/
structure ModuleCall where
  ke : KEnv
  minor : ℕ
  cmd : UInt32
  arg : Option (List UInt8)

/-- `appmemd_ioctl` with the blocks of its creations; noted is what it returns, and whether it got
memory for a function. -/
def moduleIoctl (m : Module) (i : ModuleCall) : Exec (Module × AmReturn × Bool) := do
  let r ← appmemdIoctl i.ke m.kernel i.minor i.cmd i.arg
  match createCall i.ke m.kernel i.minor i.cmd i.arg with
  | none => return ({ m with kernel := r.kernel }, r.ret, false)
  | some call =>
    let m ← createRecords i.ke call.1 call.2 m
    return ({ m with kernel := r.kernel }, r.ret, decide (GetsFunction i.ke call))

end Creating

section Lemmas
variable {ke : KEnv} {k k' : Kernel} {m m' : Module} {h h₀ h' : Heap} {c : KamCmd}
  {f : MemFunction} {r : KServed}

theorem creatorData_fst (env : Env) (amType : UInt32) (h : Heap) :
    (creatorData env amType h).map Prod.fst = creatorBlocks env amType h := by
  unfold creatorData creatorBlocks
  cases env.alloc .funcData with
  | false => rfl
  | true =>
    simp only [Heap.malloc_true]
    cases env.alloc (dataSite amType) with
    | true => rfl
    | false =>
      simp only [Heap.malloc_false]
      cases Heap.free Fault.useAfterFree h.alloc h.next with
      | error e => rfl
      | ok h' => rfl

/-- The heap is the one from before; here the blocks have owners. -/
theorem createRecords_heap (hc : createRecords ke c f m = .ok m') :
    createBlocks ke c f m.heap = .ok m'.heap := by
  unfold createRecords at hc
  unfold createBlocks
  by_cases he : EarlyRefusal ke c f
  · rw [if_pos he] at hc ⊢
    cases hc
    rfl
  rw [if_neg he] at hc ⊢
  unfold buildBlocks
  dsimp only at hc
  cases hm : ke.env.alloc .memFunction with
  | false =>
    rw [hm] at hc
    cases hc
    rfl
  | true =>
    rw [hm, Heap.malloc_true] at hc
    rw [Heap.malloc_true]
    dsimp only at hc ⊢
    by_cases hb : (createBranch (commandCap ke c).amType).isSome
    · rw [if_pos hb]
      cases hn : ke.deviceCreate with
      | false =>
        rw [if_neg (by simp [hn])] at hc
        cases hc
        rw [if_neg Bool.false_ne_true, funcCreateBlocks, hn]
        rfl
      | true =>
        rw [if_pos ⟨hb, hn⟩, bind_eq_ok] at hc
        obtain ⟨u, hr, hc⟩ := hc
        obtain ⟨hd, ho⟩ := require_eq_ok.mp hr
        rw [if_pos rfl, funcCreateBlocks, hn, hd, ho]
        simp only [Heap.malloc_true, Option.isSome_some, if_true]
        rw [bind_eq_ok] at hc
        obtain ⟨⟨h₁, o⟩, hdata, hc⟩ := hc
        have hsame : m'.heap = h₁ := by
          cases o with
          | none =>
            cases hc
            rfl
          | some p =>
            cases hc
            rfl
        rw [hsame, ← creatorData_fst, hdata]
        rfl
    · rw [if_neg (fun hp => hb hp.1)] at hc
      cases hc
      rw [if_neg hb]

end Lemmas

section Ledger

/-- What `appmemd_exit` frees, in this order. -/
def Module.exitBlocks (m : Module) : List ℕ :=
  m.devices.flatMap (fun d => d.node :: d.blocks) ++ (m.base.blocks ++ [m.base.node, m.cl])

def Module.built (m : Module) : ℕ := m.devices.countP fun d => d.pFunc.isSome

def Kernel.Leads (k : Kernel) (minor : ℕ) (r : DeviceRecords) : Prop :=
  ∃ d, k.devices minor = some d ∧ d.pFunc.isSome = r.pFunc.isSome

/-- Where the blocks are that were allocated since the heap was `h₀`; memory for a function was
found `made` times. -/
structure Ledger (h₀ : Heap) (m : Module) (made : ℕ) : Prop where
  owned : h₀.Since m.heap (m.exitBlocks ++ (m.data ++ m.lost))
  listed : List.Forall₂ m.kernel.Leads m.kernel.functionDevices m.devices
  below : ∀ minor ∈ m.kernel.functionDevices, minor < m.kernel.minor
  data : m.data.length = 2 * m.built
  made : m.built + m.lost.length = made

variable {ke : KEnv} {env : Env} {k k' : Kernel} {m m' : Module} {h h₀ h' : Heap} {c : KamCmd}
  {f : MemFunction} {r : KServed} {amType : UInt32} {l : List ℕ} {made : ℕ}

theorem exitDevice_eq {d : DeviceRecords} {rest : List ℕ}
    (S : h₀.Since h (d.node :: d.blocks ++ rest)) :
    exitDevice h d = h.freeAll Fault.useAfterFree (d.node :: d.blocks) := by
  have hlive : d.device ∈ h.live ∧ d.pfnOps ∈ h.live := by
    constructor
    · exact S.mem_live (by simp [DeviceRecords.blocks])
    · exact S.mem_live (by simp [DeviceRecords.blocks])
  rw [exitDevice, require_of_true _ hlive, ok_bind]
  rfl

theorem exitDevices_eq {ds : List DeviceRecords} {rest : List ℕ}
    (S : h₀.Since h (ds.flatMap (fun d => d.node :: d.blocks) ++ rest)) :
    ds.foldlM exitDevice h =
      h.freeAll Fault.useAfterFree (ds.flatMap fun d => d.node :: d.blocks) := by
  induction ds generalizing h with
  | nil => rfl
  | cons d ds ih =>
    rw [List.flatMap_cons, List.append_assoc] at S
    obtain ⟨h₁, hfree, S₁⟩ := S.freeAll Fault.useAfterFree
    rw [List.foldlM_cons, exitDevice_eq S, List.flatMap_cons, Heap.freeAll_append, hfree, ok_bind,
      ok_bind]
    exact ih S₁

/-- As long as the books are right, `appmemd_exit` frees its blocks one after the other. -/
theorem appmemdExit_eq {rest : List ℕ} (S : h₀.Since m.heap (m.exitBlocks ++ rest)) :
    appmemdExit m = m.heap.freeAll Fault.useAfterFree m.exitBlocks := by
  rw [Module.exitBlocks, List.append_assoc] at S
  rw [appmemdExit, exitDevices_eq S, Module.exitBlocks, Heap.freeAll_append]
  congr 1
  funext h
  rw [Heap.freeAll_append]
  rfl

theorem creatorData_since (S : h₀.Since h l) {o : Option (ℕ × ℕ)}
    (hc : creatorData env amType h = .ok (h', o)) :
    (o.isSome ↔ HasMemory env amType) ∧
      h₀.Since h' ((o.elim [] fun p => [p.1, p.2]) ++ l) := by
  have hsite : HasMemory env amType ↔
      env.alloc .funcData = true ∧ env.alloc (dataSite amType) = true := Iff.rfl
  unfold creatorData at hc
  cases hfd : env.alloc .funcData with
  | false =>
    rw [hfd] at hc
    cases hc
    exact ⟨iff_of_false Bool.false_ne_true fun hm => by simp [hsite, hfd] at hm, S⟩
  | true =>
    rw [hfd, Heap.malloc_true] at hc
    dsimp only at hc
    cases hst : env.alloc (dataSite amType) with
    | true =>
      rw [hst, Heap.malloc_true] at hc
      cases hc
      refine ⟨iff_of_true rfl (hsite.mpr ⟨hfd, hst⟩), S.alloc.alloc.perm ?_⟩
      exact List.Perm.swap _ _ _
    | false =>
      rw [hst, Heap.malloc_false] at hc
      dsimp only at hc
      obtain ⟨h₁, hfree, S₁⟩ := S.alloc.free Fault.useAfterFree
      rw [hfree, ok_bind] at hc
      cases hc
      exact ⟨iff_of_false Bool.false_ne_true fun hm => by simp [hsite, hst] at hm, S₁⟩

section Lists

/-- The list of devices stays, and which of them have a function. -/
structure SameList (k k' : Kernel) : Prop where
  list : k'.functionDevices = k.functionDevices
  minor : k.minor ≤ k'.minor
  funcs : ∀ n < k.minor, (k'.devices n).map (fun d => d.pFunc.isSome) =
    (k.devices n).map fun d => d.pFunc.isSome

/-- A device enters the list; `built` says whether it has a function. -/
structure Entered (k k' : Kernel) (built : Bool) : Prop where
  list : k'.functionDevices = k.minor :: k.functionDevices
  minor : k'.minor = k.minor + 1
  new : (k'.devices k.minor).map (fun d => d.pFunc.isSome) = some built
  funcs : ∀ n < k.minor, (k'.devices n).map (fun d => d.pFunc.isSome) =
    (k.devices n).map fun d => d.pFunc.isSome

theorem SameList.of_eq (hlist : k'.functionDevices = k.functionDevices)
    (hminor : k.minor ≤ k'.minor) (hdevices : k'.devices = k.devices) : SameList k k' :=
  ⟨hlist, hminor, fun _ _ => by rw [hdevices]⟩

theorem SameList.trans {k'' : Kernel} (h₁ : SameList k k') (h₂ : SameList k' k'') :
    SameList k k'' :=
  ⟨h₂.list.trans h₁.list, h₁.minor.trans h₂.minor,
    fun n hn => (h₂.funcs n (hn.trans_le h₁.minor)).trans (h₁.funcs n hn)⟩

theorem sameList_setFunc {minor : ℕ} {d : KDevice} (hd : k.devices minor = some d)
    (hf : d.pFunc.isSome) (g : MemFunction) : SameList k (k.setFunc minor g) := by
  refine ⟨rfl, le_rfl, fun n _ => ?_⟩
  by_cases hn : n = minor
  · subst hn
    rw [Kernel.setFunc, hd]
    simp [hf]
  · rw [Kernel.setFunc]
    exact congrArg _ (Function.update_of_ne hn _ _)

theorem leads_iff {minor : ℕ} {d : DeviceRecords} :
    k.Leads minor d ↔ (k.devices minor).map (fun d => d.pFunc.isSome) = some d.pFunc.isSome := by
  rw [Option.map_eq_some_iff]
  rfl

theorem Entered.then {k'' : Kernel} {built : Bool} (h : Entered k k' built)
    (hs : SameList k' k'') (hm : k''.minor = k'.minor) : Entered k k'' built := by
  have hlt : ∀ n ≤ k.minor, n < k'.minor := by
    intro n hn
    rw [h.minor]
    exact Nat.lt_succ_of_le hn
  refine ⟨hs.list.trans h.list, hm.trans h.minor, ?_, fun n hn => ?_⟩
  · exact (hs.funcs _ (hlt _ le_rfl)).trans h.new
  · exact (hs.funcs n (hlt n hn.le)).trans (h.funcs n hn)

end Lists

section Creations

def CanEnter (ke : KEnv) (c : KamCmd) : Prop :=
  (createBranch (commandCap ke c).amType).isSome ∧ ke.deviceCreate = true

theorem creation_nothing (hg : ¬ GetsFunction ke (k.tempKcmd, f))
    (hc : appmemCreateFunction ke k f = .ok (k', r)) : k' = k := by
  by_cases he : EarlyRefusal ke k.tempKcmd f
  · rw [appmemCreateFunction_early he] at hc
    cases hc
    rfl
  · have hm : ke.env.alloc .memFunction = false := by
      by_contra hm
      exact hg ⟨he, by simpa using hm⟩
    rw [appmemCreateFunction_late he, buildFunction_noMemory hm] at hc
    cases hc
    rfl

theorem creation_lost (hg : GetsFunction ke (k.tempKcmd, f)) (hn : ¬ CanEnter ke k.tempKcmd)
    (hc : appmemCreateFunction ke k f = .ok (k', r)) : SameList k k' := by
  rw [appmemCreateFunction_late hg.1] at hc
  cases hb : createBranch (commandCap ke k.tempKcmd).amType with
  | none =>
    rw [buildFunction_noBranch hg.2 hb] at hc
    cases hc
    exact .of_eq rfl le_rfl rfl
  | some branch =>
    have hnode : ke.deviceCreate = false := by
      by_contra hnode
      exact hn ⟨by rw [hb]; rfl, by simpa using hnode⟩
    obtain ⟨name, create⟩ := branch
    rw [buildFunction_branch hg.2 hb, appmemDeviceFuncCreate, hnode] at hc
    cases hc
    exact .of_eq rfl (Nat.le_succ _) rfl

theorem adopt_pFunc (d : KDevice) (g : MemFunction) : (d.adopt g).pFunc = some g := by
  unfold KDevice.adopt
  dsimp only
  split
  · rfl
  · rfl

theorem sameList_report (ke : KEnv) (k : Kernel) (minor : ℕ) (dataOut : UInt64) :
    SameList k (reportFunction ke k minor dataOut).1 ∧
      (reportFunction ke k minor dataOut).1.minor = k.minor := by
  cases hd : k.devices minor with
  | none =>
    rw [reportFunction, hd]
    exact ⟨.of_eq rfl le_rfl rfl, rfl⟩
  | some d =>
    cases hf : d.pFunc with
    | none =>
      rw [reportFunction, hd]
      dsimp only
      rw [hf]
      exact ⟨.of_eq rfl le_rfl rfl, rfl⟩
    | some g =>
      have hfunc : d.pFunc.isSome := by rw [hf]; rfl
      rw [(reportFunction_eq ke dataOut hd hf).1]
      exact ⟨sameList_setFunc hd hfunc _, rfl⟩

/-- The device enters the list before its function is built. -/
theorem creation_enters (hg : GetsFunction ke (k.tempKcmd, f)) (hn : CanEnter ke k.tempKcmd)
    (hc : appmemCreateFunction ke k f = .ok (k', r)) : ∃ built,
      Entered k k' built ∧ (built ↔ HasMemory ke.env (commandCap ke k.tempKcmd).amType) := by
  rw [appmemCreateFunction_late hg.1, bind_eq_ok] at hc
  obtain ⟨⟨k₁, e, o⟩, hbuild, hc⟩ := hc
  obtain ⟨⟨name, create⟩, hb⟩ := Option.isSome_iff_exists.mp hn.1
  rw [buildFunction_branch hg.2 hb, bind_eq_ok] at hbuild
  obtain ⟨⟨k₂, minor⟩, hdev, hbuild⟩ := hbuild
  unfold appmemDeviceFuncCreate at hdev
  rw [hn.2] at hdev
  simp only [if_true, bind_eq_ok, pure_eq_ok, Except.ok.injEq] at hdev
  obtain ⟨-, -, hdev⟩ := hdev
  obtain ⟨rfl, rfl⟩ := Prod.mk.inj hdev
  dsimp only at hbuild
  have hold : ∀ (v : Option KDevice), ∀ n < k.minor, Function.update k.devices k.minor v n =
      k.devices n := fun v n hn => Function.update_of_ne hn.ne _ _
  split at hbuild
  · rename_i hgood
    cases hbuild
    have hk := congrArg Prod.fst (Except.ok.inj hc)
    rw [← show _ = k' from hk]
    obtain ⟨hsame, hminor⟩ := sameList_report ke _ k.minor k.tempKcmd.dataOut
    refine ⟨true, Entered.then ?_ hsame hminor, iff_of_true rfl ((creator_good_iff hb).mp hgood)⟩
    refine ⟨rfl, rfl, ?_, fun n hn => ?_⟩
    · dsimp only
      rw [Function.update_self, Function.update_self, Option.map_some, Option.map_some, adopt_pFunc]
      rfl
    · dsimp only
      rw [Function.update_of_ne hn.ne, hold _ n hn]
  · rename_i hbad
    cases hbuild
    cases hc
    refine ⟨false, ⟨rfl, rfl, ?_, fun n hn => ?_⟩, ?_⟩
    · dsimp only
      rw [Function.update_self]
      rfl
    · dsimp only
      rw [hold _ n hn]
    · exact iff_of_false Bool.false_ne_true fun hm => hbad ((creator_good_iff hb).mpr hm)

theorem createRecords_nothing (hg : ¬ GetsFunction ke (c, f)) : createRecords ke c f m = .ok m := by
  unfold createRecords
  by_cases he : EarlyRefusal ke c f
  · rw [if_pos he]
  · have hm : ke.env.alloc .memFunction = false := by
      by_contra hm
      exact hg ⟨he, by simpa using hm⟩
    rw [if_neg he, hm]
    rfl

theorem createRecords_lost (hg : GetsFunction ke (c, f)) (hn : ¬ CanEnter ke c) :
    createRecords ke c f m = .ok { m with
      lost := m.heap.next :: m.lost
      heap := m.heap.alloc } := by
  unfold createRecords
  rw [if_neg hg.1, hg.2, Heap.malloc_true]
  exact if_neg hn

theorem createRecords_enters (hg : GetsFunction ke (c, f)) (hn : CanEnter ke c)
    (hc : createRecords ke c f m = .ok m') : ∃ h o,
    creatorData ke.env (commandCap ke c).amType m.heap.alloc.alloc.alloc.alloc = .ok (h, o) ∧
      m' = match o with
        | none => { m with
            devices := ⟨m.heap.next + 1, m.heap.next + 2, m.heap.next + 3, none⟩ :: m.devices
            lost := m.heap.next :: m.lost
            heap := h }
        | some (pVdF, data) => { m with
            devices := ⟨m.heap.next + 1, m.heap.next + 2, m.heap.next + 3, some m.heap.next⟩ ::
              m.devices
            data := pVdF :: data :: m.data
            heap := h } := by
  unfold createRecords at hc
  rw [if_neg hg.1, hg.2, Heap.malloc_true] at hc
  dsimp only at hc
  have hboth : (createBranch (commandCap ke c).amType).isSome ∧ ke.deviceCreate = true := hn
  rw [if_pos hboth, bind_eq_ok] at hc
  obtain ⟨-, -, hc⟩ := hc
  rw [bind_eq_ok] at hc
  obtain ⟨⟨h, o⟩, hdata, hc⟩ := hc
  refine ⟨h, o, hdata, ?_⟩
  cases o with
  | none =>
    cases hc
    rfl
  | some p =>
    cases hc
    rfl

end Creations

section Steps

theorem Ledger.same (L : Ledger h₀ m made) (hs : SameList m.kernel k') :
    Ledger h₀ { m with kernel := k' } made where
  owned := L.owned
  listed := by
    have hall : ∀ n d, n ∈ m.kernel.functionDevices → m.kernel.Leads n d → k'.Leads n d := by
      intro n d hn hd
      rw [leads_iff, hs.funcs n (L.below n hn)]
      exact leads_iff.mp hd
    have hlist := L.listed
    change List.Forall₂ k'.Leads k'.functionDevices m.devices
    rw [hs.list]
    exact List.forall₂_iff_get.mpr ⟨(List.forall₂_iff_get.mp hlist).1, fun i h₁ h₂ =>
      hall _ _ (List.get_mem _ _) ((List.forall₂_iff_get.mp hlist).2 i h₁ h₂)⟩
  below n hn := by
    change n ∈ k'.functionDevices at hn
    rw [hs.list] at hn
    exact (L.below n hn).trans_le hs.minor
  data := L.data
  made := L.made

theorem Ledger.cons_listed (L : Ledger h₀ m made) {d : DeviceRecords}
    (E : Entered m.kernel k' d.pFunc.isSome) :
    List.Forall₂ k'.Leads k'.functionDevices (d :: m.devices) ∧
      ∀ n ∈ k'.functionDevices, n < k'.minor := by
  rw [E.list, E.minor]
  have hold : ∀ n ∈ m.kernel.functionDevices, n < m.kernel.minor := L.below
  constructor
  · refine .cons (leads_iff.mpr E.new) ?_
    have hlist := L.listed
    exact List.forall₂_iff_get.mpr ⟨(List.forall₂_iff_get.mp hlist).1, fun i h₁ h₂ => by
      rw [leads_iff, E.funcs _ (hold _ (List.get_mem _ _))]
      exact leads_iff.mp ((List.forall₂_iff_get.mp hlist).2 i h₁ h₂)⟩
  · intro n hn
    rcases List.mem_cons.mp hn with rfl | hn
    · exact Nat.lt_succ_self _
    · exact (hold n hn).trans (Nat.lt_succ_self _)

/-- A call of `appmem_create_function` keeps the books. -/
theorem Ledger.create (L : Ledger h₀ m made)
    (hcall : appmemCreateFunction ke { m.kernel with tempKcmd := c } f = .ok (k', r))
    (hrec : createRecords ke c f m = .ok m') :
    Ledger h₀ { m' with kernel := k' } (made + if GetsFunction ke (c, f) then 1 else 0) := by
  let k : Kernel := { m.kernel with tempKcmd := c }
  have hk : SameList m.kernel k := .of_eq rfl le_rfl rfl
  by_cases hg : GetsFunction ke (c, f)
  · rw [if_pos hg]
    by_cases hn : CanEnter ke c
    · obtain ⟨built, E, hbuilt⟩ := creation_enters (k := k) hg hn hcall
      have E' : Entered m.kernel k' built := ⟨E.list, E.minor, E.new, E.funcs⟩
      obtain ⟨h, o, hdata, rfl⟩ := createRecords_enters hg hn hrec
      obtain ⟨hsome, S⟩ := creatorData_since L.owned.alloc.alloc.alloc.alloc hdata
      have hsame : o.isSome = built := Bool.eq_iff_iff.mpr (hsome.trans hbuilt.symm)
      cases o with
      | none =>
        obtain ⟨hlist, hbelow⟩ := L.cons_listed
          (d := ⟨m.heap.next + 1, m.heap.next + 2, m.heap.next + 3, none⟩) (hsame ▸ E')
        refine ⟨S.perm ?_, hlist, hbelow, ?_, ?_⟩
        · rw [List.perm_iff_count]
          intro a
          simp only [Module.exitBlocks, DeviceRecords.blocks, List.flatMap_cons, List.count_append,
            List.count_cons, Option.elim, Option.toList, List.count_nil, Heap.alloc, Nat.add_assoc,
            Nat.reduceAdd]
          omega
        · exact L.data
        · have hmade := L.made
          simp only [Module.built, List.countP_cons, List.length_cons] at hmade ⊢
          simp
          omega
      | some p =>
        obtain ⟨hlist, hbelow⟩ := L.cons_listed
          (d := ⟨m.heap.next + 1, m.heap.next + 2, m.heap.next + 3, some m.heap.next⟩) (hsame ▸ E')
        refine ⟨S.perm ?_, hlist, hbelow, ?_, ?_⟩
        · rw [List.perm_iff_count]
          intro a
          simp only [Module.exitBlocks, DeviceRecords.blocks, List.flatMap_cons, List.count_append,
            List.count_cons, Option.elim, Option.toList, List.count_nil, Heap.alloc, Nat.add_assoc,
            Nat.reduceAdd]
          omega
        · have hlen := L.data
          simp only [Module.built, List.countP_cons, List.length_cons] at hlen ⊢
          simp
          omega
        · have hmade := L.made
          simp only [Module.built, List.countP_cons] at hmade ⊢
          simp
          omega
    · rw [createRecords_lost hg hn] at hrec
      cases hrec
      have L' := L.same (hk.trans (creation_lost (k := k) hg hn hcall))
      refine ⟨L.owned.alloc.perm ?_, L'.listed, L'.below, L'.data, ?_⟩
      · rw [List.perm_iff_count]
        intro a
        simp only [Module.exitBlocks, List.count_append, List.count_cons]
        omega
      · have hmade := L.made
        simp only [Module.built, List.length_cons] at hmade ⊢
        omega
  · rw [if_neg hg]
    rw [createRecords_nothing hg] at hrec
    cases hrec
    have hsame : k' = k := creation_nothing (k := k) hg hcall
    rw [hsame]
    exact L.same hk

theorem sameList_storeOut {dst : Dest} {out : List UInt8} {s : Kernel × List UserWrite}
    (hs : storeOut ke k dst out = .ok s) : SameList k s.1 ∧ s.1.minor = k.minor := by
  cases dst with
  | user addr =>
    rw [storeOut, bind_eq_ok] at hs
    obtain ⟨-, -, hs⟩ := hs
    cases hs
    exact ⟨.of_eq rfl le_rfl rfl, rfl⟩
  | command off =>
    rw [storeOut] at hs
    split at hs
    · cases hs
      exact ⟨.of_eq rfl le_rfl rfl, rfl⟩
    · cases hs

theorem sameList_invoke {minor : ℕ} {d : KDevice} {g : DriverHandler} {p : PackCall}
    {s : Kernel × KServed} (hd : k.devices minor = some d) (hf : d.pFunc.isSome)
    (hne : g ≠ .appmemCreateFunction) (hs : invokeDriver ke minor f k g p = .ok s) :
    SameList k s.1 := by
  have hsame : SameList k k := .of_eq rfl le_rfl rfl
  unfold invokeDriver at hs
  split at hs
  · rw [bind_eq_ok] at hs
    obtain ⟨q, -, hs⟩ := hs
    cases hs
    exact sameList_setFunc hd hf _
  · cases hs
    exact hsame
  · rw [bind_eq_ok] at hs
    obtain ⟨q, -, hs⟩ := hs
    cases hs
    exact hsame
  · rw [bind_eq_ok] at hs
    obtain ⟨q, -, hs⟩ := hs
    cases hs
    exact hsame
  · exact absurd rfl hne
  · cases hs

variable {minor : ℕ} {cmd : UInt32} {arg : Option (List UInt8)} {q : IoctlResult}

/-- What an `ioctl` does to the list: what `appmem_create_function` does, if it is called. -/
theorem ioctl_list (hr : appmemdIoctl ke k minor cmd arg = .ok q) :
    match createCall ke k minor cmd arg with
    | none => SameList k q.kernel
    | some call => ∃ k' s, appmemCreateFunction ke { k with tempKcmd := call.1 } call.2 =
        .ok (k', s) ∧ SameList k' q.kernel ∧ q.kernel.minor = k'.minor := by
  have hsame : SameList k k := .of_eq rfl le_rfl rfl
  unfold appmemdIoctl at hr
  unfold createCall
  by_cases hmagic : iocType cmd ≠ appmemdIocMagic
  · rw [if_pos hmagic] at hr
    rw [if_pos (.inl hmagic)]
    cases hr
    exact hsame
  rw [if_neg hmagic] at hr
  by_cases hnr : appmemdIocMaxnr < iocNr cmd
  · rw [if_pos hnr] at hr
    rw [if_pos (.inr hnr)]
    cases hr
    exact hsame
  rw [if_neg hnr] at hr
  rw [if_neg (not_or.mpr ⟨hmagic, hnr⟩)]
  cases arg with
  | none =>
    cases hr
    exact hsame
  | some block =>
    cases hd : k.devices minor with
    | none =>
      rw [hd] at hr
      cases hr
      exact hsame
    | some d =>
      rw [hd] at hr
      dsimp only at hr ⊢
      cases hf : d.pFunc with
      | none =>
        rw [hf] at hr
        cases hr
        exact hsame
      | some f =>
        rw [hf] at hr
        dsimp only at hr ⊢
        rw [bind_eq_ok] at hr
        obtain ⟨c, hc, hr⟩ := hr
        rw [hc]
        dsimp only
        by_cases hlen : block.length < cmdBytes cmd
        · rw [if_pos hlen] at hr ⊢
          cases hr
          exact .of_eq rfl le_rfl rfl
        rw [if_neg hlen] at hr ⊢
        rw [ioctlRun, bind_eq_ok] at hr
        obtain ⟨chosen, hsel, hr⟩ := hr
        have hsel' : ioctlSelect ke d f c (cmdBytes cmd) = .ok chosen := hsel
        rw [hsel']
        cases chosen with
        | ret code =>
          cases hr
          exact .of_eq rfl le_rfl rfl
        | call g p dst =>
          dsimp only at hr
          rw [bind_eq_ok] at hr
          obtain ⟨s, hinvoke, hr⟩ := hr
          rw [bind_eq_ok] at hr
          obtain ⟨s', hstore, hr⟩ := hr
          cases hr
          obtain ⟨hstored, hminor⟩ := sameList_storeOut hstore
          have hother : g ≠ .appmemCreateFunction → SameList k s'.1 := by
            intro hne
            have hfunc : d.pFunc.isSome := by rw [hf]; rfl
            have hcopied : SameList k { k with tempKcmd := c } := .of_eq rfl le_rfl rfl
            have hd' : ({ k with tempKcmd := c } : Kernel).devices minor = some d := hd
            exact hcopied.trans ((sameList_invoke hd' hfunc hne hinvoke).trans hstored)
          cases g with
          | appmemCreateFunction =>
            cases p with
            | config => exact ⟨_, _, hinvoke, hstored, hminor⟩
            | _ => cases hinvoke
          | _ => exact hother (by intro h; cases h)

end Steps

section Runs

def functionsMade (rets : List (AmReturn × Bool)) : ℕ := rets.countP Prod.snd

theorem Ledger.ioctl (L : Ledger h₀ m made) {i : ModuleCall} {ret : AmReturn × Bool}
    (hi : moduleIoctl m i = .ok (m', ret)) :
    Ledger h₀ m' (made + if ret.2 then 1 else 0) := by
  unfold moduleIoctl at hi
  rw [bind_eq_ok] at hi
  obtain ⟨q, hq, hi⟩ := hi
  have hlist := ioctl_list hq
  cases hcall : createCall i.ke m.kernel i.minor i.cmd i.arg with
  | none =>
    rw [hcall] at hi hlist
    cases hi
    exact L.same hlist
  | some call =>
    rw [hcall] at hi hlist
    dsimp only at hi hlist
    rw [bind_eq_ok] at hi
    obtain ⟨m₁, hrec, hi⟩ := hi
    cases hi
    obtain ⟨k', s, hcreate, hsame, -⟩ := hlist
    have L₁ := (L.create hcreate hrec).same hsame
    simpa using L₁

theorem Ledger.run (L : Ledger h₀ m made) {is : List ModuleCall} {rets : List (AmReturn × Bool)}
    (hrun : trace moduleIoctl m is = .ok (m', rets)) :
    Ledger h₀ m' (made + functionsMade rets) := by
  induction is generalizing m made rets with
  | nil =>
    cases hrun
    exact L
  | cons i is ih =>
    rw [trace_cons, bind_eq_ok] at hrun
    obtain ⟨⟨m₁, ret⟩, hi, hrun⟩ := hrun
    rw [bind_eq_ok] at hrun
    obtain ⟨⟨m₂, rest⟩, hrest, hrun⟩ := hrun
    cases hrun
    have L₂ := ih (L.ioctl hi) hrest
    have hcount : functionsMade (ret :: rest) =
        (if ret.2 then 1 else 0) + functionsMade rest := by
      rw [functionsMade, List.countP_cons, Nat.add_comm]
      rfl
    rw [hcount, ← Nat.add_assoc]
    exact L₂

theorem Ledger.init {le : LoadEnv} {entries : Registry} {ret : AmReturn}
    (hi : appmemdInit le entries h₀ = .ok (ret, some m, h)) : Ledger h₀ m 0 ∧ h = m.heap := by
  unfold appmemdInit at hi
  rw [bind_eq_ok] at hi
  obtain ⟨entries', -, hi⟩ := hi
  split at hi
  · cases hi
  cases hcl : le.classCreate with
  | false =>
    rw [hcl] at hi
    cases hi
  | true =>
    rw [hcl, Heap.malloc_true] at hi
    dsimp only at hi
    unfold initDevices at hi
    cases hn : le.deviceCreate with
    | false =>
      rw [hn] at hi
      cases hi
    | true =>
      rw [hn, Heap.malloc_true] at hi
      dsimp only at hi
      cases hd : le.devices with
      | false =>
        rw [hd] at hi
        cases hi
      | true =>
        rw [hd, Heap.malloc_true] at hi
        dsimp only at hi
        rw [bind_eq_ok] at hi
        obtain ⟨-, -, hi⟩ := hi
        cases hi
        have S := (Heap.Since.refl h₀).alloc.alloc.alloc.alloc.alloc
        refine ⟨⟨S.perm ?_, .nil, ?_, rfl, rfl⟩, rfl⟩
        · rw [List.perm_iff_count]
          intro a
          simp only [Module.exitBlocks, DeviceRecords.blocks, List.flatMap_nil, List.count_append,
            List.count_cons, Option.toList, List.count_nil, Heap.alloc]
          omega
        · intro n hn
          cases hn

def Kernel.withFunction (k : Kernel) : ℕ :=
  k.functionDevices.countP fun n => (k.devices n).any fun d => d.pFunc.isSome

theorem Ledger.withFunction_eq (L : Ledger h₀ m made) : m.kernel.withFunction = m.built := by
  have hlist := L.listed
  have hall : ∀ {ns : List ℕ} {ds : List DeviceRecords}, List.Forall₂ m.kernel.Leads ns ds →
      ns.countP (fun n => (m.kernel.devices n).any fun d => d.pFunc.isSome) =
        ds.countP fun d => d.pFunc.isSome := by
    intro ns ds hf
    induction hf with
    | nil => rfl
    | cons h _ ih =>
      obtain ⟨d, hd, hsame⟩ := h
      rw [List.countP_cons, List.countP_cons, ih, hd, Option.any_some, hsame]
  exact hall hlist

/-- In every run of the driver that does not fault, unloading comes back without a fault and frees
each device, its node, its operations and its function once. Of what loading and creations allocate
there stay two blocks for each device with a function, and a function for each creation that failed
behind the first allocation; so nothing of it stays just when no command ever got memory for a
function. -/
theorem unload_leaves {le : LoadEnv} {entries : Registry} {ret : AmReturn} {m₀ : Module}
    {is : List ModuleCall} {rets : List (AmReturn × Bool)}
    (hload : appmemdInit le entries h₀ = .ok (ret, some m₀, h))
    (hrun : trace moduleIoctl m₀ is = .ok (m, rets)) :
    ∃ h', appmemdExit m = .ok h' ∧ h'.freed = m.heap.freed ++ m.exitBlocks ∧
      h₀.Since h' (m.data ++ m.lost) ∧ m.data.length = 2 * m.kernel.withFunction ∧
      m.lost.length + m.kernel.withFunction = functionsMade rets ∧
      (h'.live = h₀.live ↔ functionsMade rets = 0) := by
  have L : Ledger h₀ m (0 + functionsMade rets) := (Ledger.init hload).1.run hrun
  rw [Nat.zero_add] at L
  obtain ⟨h', hfree, S⟩ := L.owned.freeAll Fault.useAfterFree
  have hmade := L.made
  have hdata := L.data
  rw [← L.withFunction_eq] at hmade hdata
  refine ⟨h', (appmemdExit_eq L.owned).trans hfree, (Heap.freeAll_eq_ok hfree).1, S, hdata,
    by omega, ?_⟩
  have hlength : (m.data ++ m.lost).length = 0 ↔ functionsMade rets = 0 := by
    rw [List.length_append]
    omega
  rw [← hlength, List.length_eq_zero_iff, S.live]
  constructor
  · intro hlive
    by_contra hne
    obtain ⟨b, hb⟩ := List.exists_mem_of_ne_nil _ hne
    have hold : b ∈ h₀.live := by
      rw [← hlive, Finset.mem_union, List.mem_toFinset]
      exact .inr hb
    exact absurd (Heap.lt_next hold) (Nat.not_lt.mpr (S.fresh b hb))
  · intro hnil
    rw [hnil, List.toFinset_nil, Finset.union_empty]

end Runs

end Ledger

section Instances

/-- The capability of lists, and their entry; the driver never asks it for its creator. -/
def listCaps : AmMemCap where
  amType := amTypeList
  maxSize := 1024 * 1024
  subType := 3
  functionCount := 7
  accessFlags := 0
  typeSpecific := typeSpecifics [1024 * 1024, 3]
  acOps := fun _ => 0

def listCapDetails (subType : UInt32) (subTypeSz : String) : AmCapDetails where
  amType := amTypeList
  amTypeSz := "Linked List"
  subType := subType
  subTypeSz := subTypeSz
  typeSpecificCount := 2
  typeSpecificSz := ["Max Data Size", "Data Type : 1 = Fixed Width, 2 = Variable Width"]

def listFunctionEntry : FunctionEntry :=
  ⟨amTypeList, none, some listCaps, some [
    listCapDetails 0 "Singly Linked List - ut-list",
    listCapDetails 1 "Doubly Linked List - ut-list",
    listCapDetails 2 "circular Linked List - ut-list"]⟩

/-- `gAppmemkDeviceFunctionEntry` when the driver is loaded. -/
def driverRegistry : Registry := amRegisterAmFunction targetRegistry listFunctionEntry

def plainLoad : LoadEnv := ⟨0, 240, true, true, true, true, true, .blank 0⟩

def flatCall (env : Env) : ModuleCall where
  ke := { noStorage with
    env := env
    user := fun _ => flatCaps.bytes ++ List.replicate 192 0 }
  minor := 0
  cmd := 0x4B1F
  arg := some createCommand.bytes

def loadAndRun (le : LoadEnv) (is : List ModuleCall) :
    Exec (Option (Module × List (AmReturn × Bool))) := do
  match ← appmemdInit le driverRegistry .empty with
  | (_, none, _) => return none
  | (_, some m, _) => do
    let r ← trace moduleIoctl m is
    return some r

/-- Of a flat memory that is made the private data stays, of one that gets no storage the
function. -/
theorem unload_leaves_flat : ∃ m rets h', loadAndRun plainLoad [flatCall .zeroed,
      flatCall noStorage.env] = .ok (some (m, rets)) ∧ appmemdExit m = .ok h' ∧
    m.data.length = 2 ∧ m.lost.length = 1 := by
  have hruns : (loadAndRun plainLoad [flatCall .zeroed, flatCall noStorage.env]).map
      (Option.map fun q => (q.2, q.1.kernel.withFunction)) =
        .ok (some ([(amRetGood, true), (amRetAllocErr, true)], 1)) := by decide +kernel
  obtain ⟨o, hrun, ho⟩ := except_map_eq_ok.mp hruns
  obtain ⟨⟨m, rets⟩, rfl, hq⟩ := Option.map_eq_some_iff.mp ho
  obtain ⟨hrets, hcount⟩ := Prod.mk.inj hq
  unfold loadAndRun at hrun
  rw [bind_eq_ok] at hrun
  obtain ⟨⟨ret, o, h⟩, hload, hrun⟩ := hrun
  cases o with
  | none => cases hrun
  | some m₀ =>
    dsimp only at hrun
    rw [bind_eq_ok] at hrun
    obtain ⟨r, htrace, hrun⟩ := hrun
    cases hrun
    obtain ⟨h', hexit, -, -, hdata, hlost, -⟩ := unload_leaves hload htrace
    have hmade : functionsMade rets = 2 := by
      have hrets' : rets = [(amRetGood, true), (amRetAllocErr, true)] := hrets
      rw [hrets']
      rfl
    have hwith : m.kernel.withFunction = 1 := hcount
    refine ⟨m, rets, h', ?_, hexit, by omega, by omega⟩
    unfold loadAndRun
    rw [hload, ok_bind]
    dsimp only
    rw [htrace]
    rfl

end Instances

end AppMem.Driver
