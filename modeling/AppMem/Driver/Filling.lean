import AppMem.Driver.OwnCommand

/-! # Values that are being filled

A read of an associative array that is not mapped fills the value that it finds with bytes of its
process. The rest of the filling and what other calls do may change places, unless a read finds the
same value.
-/
namespace AppMem.Driver
open Library.Bytes Library.Checked Library.Overlay Abi Memory Pack Device Hash

section Items
variable {env : Env} {f : MemFunction} {fd : AsscaData} {elt off : ℕ} {src p1 p2 : List UInt8}

def itemCount (f : MemFunction) : ℕ :=
  match f.pVdF with
  | some (.assca fd) => fd.data.items.length
  | _ => 0

def fillValue (off : ℕ) (src : List UInt8) (pAI : AsscaItem) : AsscaItem :=
  { pAI with data := overlay pAI.data off src }

def fillArray (a : AmlibAssca) (elt off : ℕ) (src : List UInt8) : AmlibAssca :=
  { a with items := a.items.modify elt (fillValue off src) }

theorem fillItem_assca (hfd : f.pVdF = some (.assca fd)) (elt off : ℕ) (src : List UInt8) :
    fillItem f elt off src = f.setAssca fd (fillArray fd.data elt off src) := by
  rw [fillItem, hfd]
  rfl

theorem fillItem_pVdF (hfd : f.pVdF = some (.assca fd)) (elt off : ℕ) (src : List UInt8) :
    (fillItem f elt off src).pVdF =
      some (.assca { fd with data := fillArray fd.data elt off src }) := by
  rw [fillItem_assca hfd]
  rfl

theorem fillItem_setAssca (a : AmlibAssca) (elt off : ℕ) (src : List UInt8) :
    fillItem (f.setAssca fd a) elt off src = f.setAssca fd (fillArray a elt off src) := rfl

theorem fillItem_other (h : ∀ fd, f.pVdF ≠ some (.assca fd)) (elt off : ℕ) (src : List UInt8) :
    fillItem f elt off src = f := by
  unfold fillItem
  split
  · rename_i fd hfd
    exact absurd hfd (h fd)
  · rfl

theorem fillItem_rest (f : MemFunction) (elt off : ℕ) (src : List UInt8) :
    fillItem f elt off src = { f with pVdF := (fillItem f elt off src).pVdF } := by
  unfold fillItem
  split
  · rfl
  · rfl

theorem itemCount_fillItem (f : MemFunction) (elt off : ℕ) (src : List UInt8) :
    itemCount (fillItem f elt off src) = itemCount f := by
  by_cases h : ∃ fd, f.pVdF = some (.assca fd)
  · obtain ⟨fd, hfd⟩ := h
    rw [itemCount, fillItem_pVdF hfd, itemCount, hfd]
    exact List.length_modify _ _ _
  · rw [fillItem_other (not_exists.mp h)]

theorem exists_assca_of_lt_itemCount (h : elt < itemCount f) :
    ∃ fd, f.pVdF = some (.assca fd) ∧ elt < fd.data.items.length := by
  unfold itemCount at h
  split at h
  · rename_i fd hfd
    exact ⟨fd, hfd, h⟩
  · exact absurd h (Nat.not_lt_zero _)

theorem asscaFound_fillItem (f : MemFunction) (elt off : ℕ) (src p1 : List UInt8) :
    asscaFound (fillItem f elt off src) p1 = asscaFound f p1 := by
  by_cases h : ∃ fd, f.pVdF = some (.assca fd)
  · obtain ⟨fd, hfd⟩ := h
    rw [asscaFound, fillItem_pVdF hfd, asscaFound, hfd]
    rfl
  · rw [fillItem_other (not_exists.mp h)]

/-- A read looks at the length of the value that it finds. -/
theorem asscaFilling_fillItem (minor : ℕ) (f : MemFunction) (elt off : ℕ) (src p1 p2 : List UInt8) :
    asscaFilling minor (fillItem f elt off src) p1 p2 = asscaFilling minor f p1 p2 := by
  by_cases h : ∃ fd, f.pVdF = some (.assca fd)
  · obtain ⟨fd, hfd⟩ := h
    rw [asscaFilling, asscaFound_fillItem, fillItem_pVdF hfd, asscaFilling, hfd]
    dsimp only
    cases asscaFound f p1 with
    | error e => rfl
    | ok found =>
      cases found with
      | none => rfl
      | some i =>
        rw [ok_bind, ok_bind]
        dsimp only [fillArray]
        rw [List.getElem?_modify]
        cases fd.data.items[i]? with
        | none => rfl
        | some pAI =>
          dsimp only [Option.map_eq_map, Option.map_some]
          split
          · rw [fillValue, length_overlay]
          · rfl
  · rw [fillItem_other (not_exists.mp h)]

theorem amAsscaWrite32Align_fillItem (hfd : f.pVdF = some (.assca fd))
    (hin : elt < fd.data.items.length) :
    amAsscaWrite32Align env (fillItem f elt off src) p1 p2 =
      (amAsscaWrite32Align env f p1 p2).map fun r => (fillItem r.1 elt off src, r.2) := by
  have hlen : (fd.data.items.modify elt (fillValue off src)).length = fd.data.items.length :=
    List.length_modify _ _ _
  rw [amAsscaWrite32Align, amAsscaWrite32Align, asscaAccess, asscaAccess, fillItem_pVdF hfd, hfd]
  dsimp only [fillArray]
  rw [amlibAsscaAddKeyFixfix, amlibAsscaAddKeyFixfix]
  dsimp only
  cases (require (fd.data.bFixedKey = true ∧ fd.data.bFixedData = true) Fault.assertion :
    Exec Unit) with
  | error e => rfl
  | ok u =>
    rw [ok_bind, ok_bind]
    by_cases hm : env.alloc .asscaItem = true
    · rw [if_pos hm, if_pos hm, hlen]
      cases readBytes p2 fd.data.dataLen.toNat with
      | error e => rfl
      | ok data =>
        cases readBytes p1 fd.data.keyLen.toNat with
        | error e => rfl
        | ok key =>
          simp only [ok_bind]
          cases hashAddKeyptr env fd.data.table key fd.data.items.length with
          | error e => rfl
          | ok t =>
            simp only [ok_bind, pure_eq_ok, Except.map, ← modify_append_left hin]
            rw [fillItem_assca hfd]
            rfl
    · rw [if_neg hm, if_neg hm]
      simp only [ok_bind, pure_eq_ok, Except.map]
      rw [fillItem_assca hfd]
      rfl

theorem amAsscaRead32Align_fillItem (b : Build) (hfd : f.pVdF = some (.assca fd))
    (hne : asscaFound f p1 ≠ .ok (some elt)) :
    amAsscaRead32Align b (fillItem f elt off src) p1 p2 =
      (amAsscaRead32Align b f p1 p2).map fun r => (fillItem r.1 elt off src, r.2) := by
  rw [amAsscaRead32Align_eq (fillItem_pVdF hfd elt off src), amAsscaRead32Align_eq hfd,
    asscaFound_fillItem]
  cases hfound : asscaFound f p1 with
  | error e => rfl
  | ok found =>
    rw [ok_bind, ok_bind]
    cases found with
    | none => rfl
    | some i =>
      have hi : elt ≠ i := by
        rintro rfl
        exact hne hfound
      dsimp only [fillArray]
      rw [List.getElem?_modify_ne _ _ hi]
      cases fd.data.items[i]? with
      | none => rfl
      | some pAI =>
        dsimp only
        cases copyToUser b fd.flags p2 pAI.data fd.data.dataLen.toNat with
        | error e => rfl
        | ok r =>
          simp only [ok_bind, pure_eq_ok, Except.map, set_modify_of_ne hi]
          rw [fillItem_assca hfd]
          rfl

theorem invokeDevice_fillItem {h : DeviceHandler} {c : PackCall} (hin : elt < itemCount f)
    (hne : ∀ p1 p2, h = .amAsscaRead32Align → c = .align p1 p2 →
      asscaFound f p1 ≠ .ok (some elt)) :
    invokeDevice .kernel env h c (fillItem f elt off src) =
      (invokeDevice .kernel env h c f).map fun r => (fillItem r.1 elt off src, r.2) := by
  obtain ⟨fd, hfd, hlt⟩ := exists_assca_of_lt_itemCount hin
  cases c with
  | align p1 p2 =>
    cases h with
    | amAsscaRead32Align => exact amAsscaRead32Align_fillItem .kernel hfd (hne p1 p2 rfl rfl)
    | amAsscaWrite32Align => exact amAsscaWrite32Align_fillItem hfd hlt
    | amFlatRead32Align =>
      rw [invokeDevice, invokeDevice, amFlatRead32Align, amFlatRead32Align, flatAccess, flatAccess,
        fillItem_pVdF hfd, hfd]
      rfl
    | amFlatWrite32Align =>
      rw [invokeDevice, invokeDevice, amFlatWrite32Align, amFlatWrite32Align, flatAccess,
        flatAccess, fillItem_pVdF hfd, hfd]
      rfl
    | amStataReadIdx32 =>
      rw [invokeDevice, invokeDevice, amStataReadIdx32, amStataReadIdx32, stataAccess, stataAccess,
        fillItem_pVdF hfd, hfd]
      rfl
    | amStataWriteIdx32 =>
      rw [invokeDevice, invokeDevice, amStataWriteIdx32, amStataWriteIdx32, stataAccess,
        stataAccess, fillItem_pVdF hfd, hfd]
      rfl
    | _ => rfl
  | action p1 l1 =>
    cases h with
    | amStataSort =>
      rw [invokeDevice, invokeDevice, amStataSort, amStataSort, fillItem_pVdF hfd, hfd]
      rfl
    | _ => rfl
  | opOnly => cases h <;> rfl
  | fivo p1 l1 => cases h <;> rfl
  | config => cases h <;> rfl

theorem itemCount_setAssca (f : MemFunction) (fd : AsscaData) (a : AmlibAssca) :
    itemCount (f.setAssca fd a) = a.items.length := rfl

/-- Items are never lost. -/
theorem itemCount_le_invokeDevice {h : DeviceHandler} {c : PackCall} {g : MemFunction} {r : Served}
    (hr : invokeDevice .kernel env h c f = .ok (g, r)) : itemCount f ≤ itemCount g := by
  have hconv := invokeDevice_convention hr
  have hother (hno : ∀ fd, f.pVdF ≠ some (.assca fd)) : itemCount f ≤ itemCount g := by
    have hzero : itemCount f = 0 := by
      unfold itemCount
      split
      · rename_i fd hfd
        exact absurd hfd (hno fd)
      · rfl
    rw [hzero]
    exact Nat.zero_le _
  have hflat {op : FlatData → Exec (FlatData × Served)} (hrun : flatAccess f op = .ok (g, r)) :
      itemCount f ≤ itemCount g := by
    obtain ⟨fd, -, hfd, -⟩ := flatAccess_eq_ok.mp hrun
    exact hother fun fd' hfd' => nomatch hfd.symm.trans hfd'
  have hstata {op : StataData → Exec (StataData × Served)} (hrun : stataAccess f op = .ok (g, r)) :
      itemCount f ≤ itemCount g := by
    obtain ⟨fd, -, hfd, -⟩ := stataAccess_eq_ok.mp hrun
    exact hother fun fd' hfd' => nomatch hfd.symm.trans hfd'
  have hassca {op : AsscaData → Exec (AmlibAssca × Served)}
      (hop : ∀ fd a r, op fd = .ok (a, r) → fd.data.items.length ≤ a.items.length)
      (hrun : asscaAccess f op = .ok (g, r)) : itemCount f ≤ itemCount g := by
    rcases asscaAccess_eq_ok.mp hrun with ⟨-, rfl, -⟩ | ⟨fd, a, hfd, hok, rfl⟩
    · exact le_rfl
    · rw [itemCount_setAssca, itemCount, hfd]
      exact hop fd a r hok
  cases c with
  | align p1 p2 =>
    cases h with
    | amFlatRead32Align => exact hflat hr
    | amFlatWrite32Align => exact hflat hr
    | amStataReadIdx32 => exact hstata hr
    | amStataWriteIdx32 => exact hstata hr
    | amAsscaRead32Align =>
      apply hassca _ hr
      intro fd a r hok
      rcases amlibAsscaGetKeyVal_eq_ok.mp hok with ⟨-, rfl, -⟩ | ⟨t, key, found, -, -, -, hcase⟩
      · exact le_rfl
      · rcases hcase with ⟨-, rfl, -⟩ | ⟨h, item, v, -, -, -, rfl, -⟩
        · exact le_rfl
        · exact (List.length_set).ge
    | amAsscaWrite32Align =>
      apply hassca _ hr
      intro fd a r hok
      obtain ⟨-, -, ⟨-, rfl⟩ | ⟨data, key, t, -, -, -, -, rfl⟩⟩ :=
        amlibAsscaAddKeyFixfix_eq_ok.mp hok
      · exact le_rfl
      · dsimp only
        rw [List.length_append]
        exact Nat.le_add_right _ _
    | _ => cases hconv
  | opOnly =>
    cases h with
    | amTargRelease | amTargOpen | amTargClose =>
      cases hr
      exact le_rfl
    | _ => cases hconv
  | action p1 l1 =>
    cases h with
    | amStataSort =>
      rcases amStataSort_cases hr with ⟨rfl, -⟩ | ⟨fd, fd', s, hfd, -, -, rfl⟩
      · exact le_rfl
      · exact hother fun fd' hfd' => nomatch hfd.symm.trans hfd'
    | _ => cases hconv
  | fivo p1 l1 => cases h <;> cases hconv
  | config => cases h <;> cases hconv

end Items

section Kernels
variable {ke : KEnv} {k : Kernel} {minor n off elt : ℕ} {d : KDevice} {f : MemFunction}
  {src : List UInt8} {v : Filling} {F : Kernel → Kernel} {g : MemFunction → MemFunction}

theorem setFunc_mapFunc_self (k : Kernel) (minor : ℕ) (g : MemFunction → MemFunction)
    (f : MemFunction) :
    (k.mapFunc minor g).setFunc minor (g f) = (k.setFunc minor f).mapFunc minor g := by
  simp only [Kernel.setFunc, Kernel.mapFunc, Function.update_self, Function.update_idem,
    Option.map_map]
  rfl

theorem setFunc_mapFunc_of_ne {m : ℕ} (h : m ≠ minor) (k : Kernel) (g : MemFunction → MemFunction)
    (f : MemFunction) :
    (k.mapFunc m g).setFunc minor f = (k.setFunc minor f).mapFunc m g := by
  simp only [Kernel.setFunc, Kernel.mapFunc, Function.update_of_ne h, Function.update_of_ne h.symm,
    Function.update_comm h]

theorem storeOut_command (ke : KEnv) (k : Kernel) (p : ℕ) (out : List UInt8) :
    storeOut ke k (.command p) out = (k.tempKcmd.put p out).map fun b => (k.withBlock b, []) := by
  rw [storeOut, KamCmd.put]
  split
  · rfl
  · rfl

/-- A change of the driver, and of the function that a call uses, that keeps out of the way of what
the call does to the driver. -/
structure Carries (F : Kernel → Kernel) (g : MemFunction → MemFunction) (minor : ℕ) : Prop where
  block : ∀ k, (F k).tempKcmd = k.tempKcmd
  entries : ∀ k, (F k).entries = k.entries
  withBlock : ∀ k b, F (k.withBlock b) = (F k).withBlock b
  setFunc : ∀ k f, (F k).setFunc minor (g f) = F (k.setFunc minor f)
  amType : ∀ f, (g f).amType = f.amType
  crResp : ∀ f, (g f).crResp = f.crResp
  filling : ∀ f p1 p2, asscaFilling minor (g f) p1 p2 = asscaFilling minor f p1 p2

def Filling.change (v : Filling) (minor off : ℕ) (src : List UInt8) (f : MemFunction) :
    MemFunction :=
  if minor = v.minor then fillItem f v.elt off src else f

theorem carries_fill (v : Filling) (minor off : ℕ) (src : List UInt8) :
    Carries (fun k => k.fill v off src) (v.change minor off src) minor where
  block _ := rfl
  entries _ := rfl
  withBlock _ _ := rfl
  setFunc k f := by
    unfold Filling.change
    by_cases h : minor = v.minor
    · subst h
      rw [if_pos rfl]
      exact setFunc_mapFunc_self k v.minor (fun f => fillItem f v.elt off src) f
    · rw [if_neg h]
      exact setFunc_mapFunc_of_ne (Ne.symm h) k _ f
  amType f := by
    unfold Filling.change
    split
    · rw [fillItem_rest]
    · rfl
  crResp f := by
    unfold Filling.change
    split
    · rw [fillItem_rest]
    · rfl
  filling f p1 p2 := by
    unfold Filling.change
    split
    · exact asscaFilling_fillItem minor f v.elt off src p1 p2
    · rfl

def changed (F : Kernel → Kernel) (r : Kernel × Point) : Kernel × Point := (F r.1, r.2)

theorem Carries.storeOut (C : Carries F g minor) (k : Kernel) (dst : Dest) (out : List UInt8) :
    storeOut ke (F k) dst out = (storeOut ke k dst out).map fun s => (F s.1, s.2) := by
  cases dst with
  | user addr =>
    rw [Driver.storeOut, Driver.storeOut]
    cases (require (out.length ≤ (ke.user addr).length) Fault.bounds : Exec Unit) with
    | error e => rfl
    | ok u => rfl
  | command p =>
    rw [storeOut_command, storeOut_command, C.block]
    cases k.tempKcmd.put p out with
    | error e => rfl
    | ok b => exact congrArg (fun k => Except.ok (k, _)) (C.withBlock k b).symm

theorem Carries.runHandler (C : Carries F g minor) {h : DeviceHandler} {c : PackCall} (dst : Dest)
    (hinv : invokeDevice .kernel ke.env h c (g f) =
      (invokeDevice .kernel ke.env h c f).map fun r => (g r.1, r.2)) :
    runHandler ke (F k) minor (g f) (.device h) c dst =
      (runHandler ke k minor f (.device h) c dst).map (changed F) := by
  rw [Driver.runHandler, Driver.runHandler, invokeDriver, invokeDriver, hinv]
  cases invokeDevice .kernel ke.env h c f with
  | error e => rfl
  | ok r =>
    simp only [Except.map, ok_bind, pure_eq_ok, C.setFunc, C.storeOut]
    cases Driver.storeOut ke (k.setFunc minor r.1) dst r.2.out with
    | error e => rfl
    | ok s => rfl

theorem Carries.startHandler (C : Carries F g minor) {h : DriverHandler} {c : PackCall} (dst : Dest)
    (hinv : ∀ h', h = .device h' → invokeDevice .kernel ke.env h' c (g f) =
      (invokeDevice .kernel ke.env h' c f).map fun r => (g r.1, r.2)) :
    startHandler ke (F k) minor (g f) h c dst =
      (startHandler ke k minor f h c dst).map (changed F) := by
  cases h with
  | device h =>
    have hrun := C.runHandler (k := k) dst (hinv h rfl)
    cases h with
    | amAsscaRead32Align =>
      cases c with
      | align p1 p2 =>
        rw [Driver.startHandler, Driver.startHandler, C.filling]
        cases asscaFilling minor f p1 p2 with
        | error e => rfl
        | ok x =>
          cases x with
          | none => exact hrun
          | some v =>
            simp only [ok_bind, C.storeOut]
            cases Driver.storeOut ke k dst [] with
            | error e => rfl
            | ok s => rfl
      | _ => exact hrun
    | _ => exact hrun
  | appmemGetCapCount =>
    cases c with
    | config =>
      simp only [Driver.startHandler, countSending, C.amType, C.block]
      rfl
    | _ => rfl
  | appmemGetCapabilites =>
    cases c with
    | config =>
      simp only [Driver.startHandler, capabilitySendings, C.amType, C.block, C.entries]
      rfl
    | _ => rfl
  | appmemGetCapDetails =>
    cases c with
    | config =>
      have hsend : detailsSending (F k).entries (F k).tempKcmd (g f) =
          detailsSending k.entries k.tempKcmd f := by
        simp only [detailsSending, C.amType, C.block, C.entries]
      rw [Driver.startHandler, Driver.startHandler, hsend]
      cases detailsSending k.entries k.tempKcmd f with
      | error e => rfl
      | ok x =>
        cases x with
        | none => rfl
        | some x => rfl
    | _ => rfl
  | appmemCreateFunction =>
    cases c with
    | config =>
      rw [Driver.startHandler, Driver.startHandler, C.amType, C.block]
      split
      · rfl
      · rfl
    | _ => rfl

def readItem (ke : KEnv) (k : Kernel) (d : KDevice) (f : MemFunction) (n : ℕ) : Option ℕ :=
  match ioctlSelect ke d f k.tempKcmd n with
  | .ok (.call (.device .amAsscaRead32Align) (.align p1 _) _) => ((asscaFound f p1).toOption).join
  | _ => none

theorem ioctlSelect_congr {d d' : KDevice} {f f' : MemFunction} {c : KamCmd}
    (hd : d' = { d with pFunc := d'.pFunc }) (hf : f'.crResp = f.crResp) :
    ioctlSelect ke d' f' c n = ioctlSelect ke d f c n := by
  rw [hd]
  simp only [ioctlSelect, packetCall, hf]
  rfl

/-- A command goes on the same way while a value is filled that it does not read. -/
theorem dispatch_fill {d' : KDevice} (hd : d' = { d with pFunc := d'.pFunc })
    (hin : minor = v.minor → v.elt < itemCount f)
    (hne : minor = v.minor → readItem ke k d f n ≠ some v.elt) :
    dispatch ke (k.fill v off src) minor d' (v.change minor off src f) n =
      (dispatch ke k minor d f n).map (changed fun k => k.fill v off src) := by
  have C := carries_fill v minor off src
  rw [dispatch, dispatch, C.block, ioctlSelect_congr hd (C.crResp f)]
  cases hsel : ioctlSelect ke d f k.tempKcmd n with
  | error e => rfl
  | ok chosen =>
    cases chosen with
    | ret code => rfl
    | call h c dst =>
      apply C.startHandler dst
      rintro h' rfl
      unfold Filling.change
      by_cases hm : minor = v.minor
      · simp only [if_pos hm]
        apply invokeDevice_fillItem (hin hm)
        rintro p1 p2 rfl rfl hfound
        apply hne hm
        rw [readItem, hsel]
        dsimp only
        rw [hfound]
        rfl
      · simp only [if_neg hm]
        cases invokeDevice .kernel ke.env h' c f with
        | error e => rfl
        | ok r => rfl

end Kernels

section Create
variable {ke : KEnv} {k : Kernel} {off : ℕ} {src : List UInt8} {v : Filling} {dataIn : UInt64}

/-- What a creation adds to the driver: nothing, a number that is used up, or a device that gets
it. -/
inductive Growth
  | nothing
  | number
  | device (d : KDevice)

def Kernel.grow (k : Kernel) : Growth → Kernel
  | .nothing => k
  | .number => { k with minor := k.minor + 1 }
  | .device d =>
    { k with
      minor := k.minor + 1
      devices := Function.update k.devices k.minor (some d)
      functionDevices := k.minor :: k.functionDevices }

/-- The device that `appmem_device_func_create` makes. -/
def newKDevice (major minor : ℕ) (name : String) (amType : UInt32) : KDevice where
  pFunc := none
  pfnOps := fun _ => none
  amType := amType
  devt := mkdev major minor
  amName := ascii (name ++ toString minor)
  packDataOffset := 0
  wrPackSize := 0
  rdPackSize := 0

/-- What `buildFunction` adds and returns, and the function when there is one. -/
def buildEffect (ke : KEnv) (major minor : ℕ) (pCap : AmMemCap) :
    Exec (Growth × AmReturn × Option (KDevice × MemFunction)) :=
  if ke.env.alloc .memFunction then
    match createBranch pCap.amType with
    | none => .ok (.nothing, negEnotty, none)
    | some (name, create) =>
      if ke.deviceCreate then do
        require (ke.env.alloc .kdevice ∧ ke.env.alloc .pfnOps) Fault.nullPointer
        let dev := newKDevice major minor name pCap.amType
        let c := create ke.env { ke.fresh with pfnOps := fun _ => none } pCap
        if c.1 = amRetGood then
          return (.device (dev.adopt c.2), amRetGood, some (dev.adopt c.2, c.2))
        else return (.device dev, c.1, none)
      else .ok (.number, amRetAllocErr, none)
  else .ok (.nothing, amRetAllocErr, none)

theorem buildFunction_eq (ke : KEnv) (k : Kernel) (pCap : AmMemCap) :
    buildFunction ke k pCap = (buildEffect ke k.major k.minor pCap).map fun r =>
      (k.grow r.1, r.2.1, r.2.2.map fun _ => k.minor) := by
  rw [buildFunction, buildEffect]
  split
  · cases createBranch pCap.amType with
    | none => rfl
    | some b =>
      obtain ⟨name, create⟩ := b
      dsimp only
      rw [appmemDeviceFuncCreate]
      dsimp only
      split
      · cases (require (ke.env.alloc .kdevice ∧ ke.env.alloc .pfnOps) Fault.nullPointer :
          Exec Unit) with
        | error e => rfl
        | ok u =>
          simp only [ok_bind, pure_eq_ok]
          split
          · simp only [Function.update_self, Function.update_idem, Option.map_some]
            rfl
          · rfl
      · rfl
  · rfl

theorem buildEffect_pFunc {major minor : ℕ} {pCap : AmMemCap} {x : Growth} {e : AmReturn}
    {d : KDevice} {f : MemFunction}
    (h : buildEffect ke major minor pCap = .ok (x, e, some (d, f))) :
    x = .device d ∧ d.pFunc = some f ∧ e = amRetGood := by
  unfold buildEffect at h
  split at h
  · split at h
    · cases h
    · split at h
      · obtain ⟨-, -, h⟩ := bind_eq_ok.mp h
        dsimp only at h
        split at h
        · cases h
          refine ⟨rfl, ?_, rfl⟩
          unfold KDevice.adopt
          dsimp only
          split <;> rfl
        · cases h
      · cases h
  · cases h

def createEffect (ke : KEnv) (major minor : ℕ) (dataIn dataOut : UInt64) : Exec (Growth × Point) :=
  if (ke.user dataIn).length < sizeofMemCap then .ok (.nothing, .returned (.handler negEnotty []))
  else do
    let r ← buildEffect ke major minor (.ofBytes ((ke.user dataIn).take sizeofMemCap))
    match r.2.2 with
    | none => return (r.1, .returned (.handler r.2.1 []))
    | some (d, f) =>
      return (.device { d with pFunc := some (announce d f) },
        .sending [⟨dataOut, (announce d f).crResp.bytes, sizeofCrResp, false, negEnomem⟩] [])

theorem continueCreate_eq (ke : KEnv) (k : Kernel) (dataIn : UInt64) :
    continueCreate ke k dataIn =
      (createEffect ke k.major k.minor dataIn k.tempKcmd.dataOut).map fun r =>
        (k.grow r.1, r.2) := by
  rw [continueCreate, createEffect]
  split
  · rfl
  · rw [buildFunction_eq]
    cases hb : buildEffect ke k.major k.minor (.ofBytes ((ke.user dataIn).take sizeofMemCap)) with
    | error e => rfl
    | ok r =>
      obtain ⟨x, e, o⟩ := r
      cases o with
      | none => rfl
      | some df =>
        obtain ⟨d, f⟩ := df
        obtain ⟨rfl, hf, rfl⟩ := buildEffect_pFunc hb
        have hdev : (k.grow (.device d)).devices k.minor = some d := Function.update_self _ _ _
        simp only [Except.map, ok_bind, Option.map_some, pure_eq_ok, startReport, hdev, hf]
        congr 2
        simp only [Kernel.setFunc, Kernel.grow, Function.update_self,
          Function.update_idem, Option.map_some]

def Announces (ke : KEnv) (k : Kernel) (dataIn : UInt64) : Prop :=
  sizeofMemCap ≤ (ke.user dataIn).length ∧
    ((buildFunction ke k (.ofBytes ((ke.user dataIn).take sizeofMemCap))).toOption.bind
      fun r => r.2.2).isSome

instance : Decidable (Announces ke k dataIn) := inferInstanceAs (Decidable (_ ∧ _))

/-- Only the announcement uses the second pointer of the command. -/
theorem createEffect_congr {dataOut dataOut' : UInt64}
    (h : Announces ke k dataIn → dataOut = dataOut') :
    createEffect ke k.major k.minor dataIn dataOut =
      createEffect ke k.major k.minor dataIn dataOut' := by
  rw [createEffect, createEffect]
  split
  · rfl
  · rename_i hlen
    cases hb : buildEffect ke k.major k.minor (.ofBytes ((ke.user dataIn).take sizeofMemCap)) with
    | error e => rfl
    | ok r =>
      obtain ⟨x, e, o⟩ := r
      cases o with
      | none => rfl
      | some df =>
        obtain ⟨d, f⟩ := df
        have hout : dataOut = dataOut' := by
          apply h
          refine ⟨Nat.not_lt.mp hlen, ?_⟩
          rw [buildFunction_eq, hb]
          rfl
        rw [hout]

theorem grow_fill (h : v.minor ≠ k.minor) (x : Growth) :
    (k.fill v off src).grow x = (k.grow x).fill v off src := by
  cases x with
  | nothing => rfl
  | number => rfl
  | device d =>
    simp only [Kernel.grow, Kernel.fill, Kernel.mapFunc, Function.update_of_ne h,
      Function.update_comm h]

end Create

end AppMem.Driver
