import AppMem.Assca.Transports
import AppMem.Cells.Agreement
import AppMem.Target.Isolation

/-! # A client of a target that others use

A client has functions on a target; between its accesses the target serves the requests of other
clients, which may create functions and work on theirs. As long as they name none of the client's
functions, and do not bring the target down, the client works as with functions of a virtual device
of its own.
-/
namespace AppMem.Cells
open Library.Bytes Library.Checked Library.Cells Library.TwoRuns Abi Memory Hash Pack Device Assca
  Target

section Sharing

/-- What happens at the target: an access of the client to its function in slot `i`, with what the
buffers on the way held, or a request of somebody else. -/
inductive SharedAct
  | own (i : Fin amTargetMaxFunctions) (env : Env) (stale : UInt32) (tx slot : PackAll)
    (rx : PackResp) (op : AsscaOp)
  | foreign (env : Env) (rxBuf : PackAll) (stale : UInt32)

structure SharedTarget where
  resp : PackResp
  table : FuncTable

def SharedTarget.request (s : SharedTarget) (env : Env) (rxBuf : PackAll) (stale : UInt32) : Request :=
  ⟨env, rxBuf, s.resp, stale⟩

/-- The client has the functions `funcs`. -/
def sharedStep (funcs : Fin amTargetMaxFunctions → ClientFunc) (s : SharedTarget) :
    SharedAct → Exec (SharedTarget × Option AlignResult)
  | .own i env stale tx slot rx op => do
    let serve rxBuf resp t := amTargProcess env t rxBuf resp stale
    let r ← packetStep (netPackAc serve) (funcs i) ⟨tx, slot, s.resp, rx, s.table⟩ op
    return (⟨r.1.resp, r.1.target⟩, some r.2)
  | .foreign env rxBuf stale => do
    let r ← targStep s.table (s.request env rxBuf stale)
    return (⟨r.2.resp, r.1⟩, none)

def localStep (v : Fin amTargetMaxFunctions → VirtdFunction) :
    SharedAct → Exec ((Fin amTargetMaxFunctions → VirtdFunction) × Option AlignResult)
  | .own i env _ _ _ _ op => do
    let r ← virtdStep env (v i) op
    return (Function.update v i r.1, some r.2)
  | .foreign _ _ _ => return (v, none)

def accessesTo (i : Fin amTargetMaxFunctions) : List SharedAct → List AsscaOp
  | [] => []
  | .own j _ _ _ _ _ op :: acts => if j = i then op :: accessesTo i acts else accessesTo i acts
  | .foreign _ _ _ :: acts => accessesTo i acts

def Respects (mine : Set (Fin amTargetMaxFunctions)) : SharedAct → Prop
  | .own i _ _ _ _ _ _ => i ∈ mine
  | .foreign _ rxBuf _ => ∀ i ∈ mine, amValidateFunctionId rxBuf.wrap.funcId ≠ some i

def ComesBack (s : SharedTarget) : SharedAct → Prop
  | .own _ _ _ _ _ _ _ => True
  | .foreign env rxBuf stale => ∃ r, targStep s.table (s.request env rxBuf stale) = .ok r

/-- A function of the target and one of the virtual device, made from one capability, and proper
accesses to them. -/
inductive MadeAlike (f : MemFunction) (v : VirtdFunction) (ops : List AsscaOp) : Prop
  | cells (t : CellType) (pCap : AmMemCap) (env₀ env₁ : Env) (f₀ f₁ : MemFunction) (calls : FuncCalls)
      (entries : Registry) (n : ℕ) (advertised : Advertised t pCap) (served : SizesServed t pCap)
      (target : t.create env₀ f₀ pCap = (amRetGood, f))
      (virtd : amVirtdCreateFunction env₁ entries n pCap ⟨f₁, some calls⟩ = .ok (amRetGood, v))
      (proper : ProperFor t pCap ops)
  | assca (pCap : AmMemCap) (env₀ env₁ : Env) (f₀ f₁ : MemFunction) (calls : FuncCalls)
      (entries : Registry) (n : ℕ) (target : amCreateAsscaDevice env₀ f₀ pCap = (amRetGood, f))
      (memory : env₁.alloc .assca = true)
      (virtd : amVirtdCreateFunction env₁ entries n pCap ⟨f₁, some calls⟩ = .ok (amRetGood, v))
      (fits : sizeofWrapper + (pCap.typeSpecific tsAsscaKeyMaxSize).toNat +
        (pCap.typeSpecific tsAsscaDataMaxSize).toNat ≤ maxBasicPackUnionSize)
      (room : ∀ op ∈ ops, op.Fits (pCap.typeSpecific tsAsscaKeyMaxSize).toNat
        (pCap.typeSpecific tsAsscaDataMaxSize).toNat)

end Sharing

section Widening
variable {t : FuncTable} {i : Fin amTargetMaxFunctions} {env : Env} {stale : UInt32}

/-- The link to one function, as a link to the target that has it in slot `i`. -/
def widen (t : FuncTable) (i : Fin amTargetMaxFunctions) (l : NetLink MemFunction) :
    NetLink FuncTable :=
  ⟨l.tx, l.slot, l.resp, l.rx, t.set i (.device l.target)⟩

theorem set_set (s s' : Slot) : (t.set i s).set i s' = t.set i s' := by
  rw [FuncTable.set, FuncTable.set, FuncTable.set, Function.update_idem]

/-- Requests to slot `i` are served by its function. -/
theorem sameExchange_widen (t : FuncTable) (i : Fin amTargetMaxFunctions) (env : Env)
    (stale : UInt32) : SameExchange (fun l k => l = widen t i k) (slotHandle i).toUInt16
      (netPackAc fun rxBuf resp t => amTargProcess env t rxBuf resp stale)
      (netPackAc (serveDevice .user env stale)) where
  free := by
    rintro _ l rfl
    exact ⟨rfl, rfl⟩
  exchange := by
    rintro _ l pTx n rfl hid hlo hhi
    unfold netPackAc
    dsimp only
    unfold amNetSendAndWait
    apply Lockstep.bind_same
    intro d hd
    have hdata : d = pTx.datagram n.toNat := by
      rw [sendTo, require_of_true _ hhi] at hd
      exact (Except.ok.inj hd).symm
    have hwrap : (l.slot.receive d).wrap.funcId = (slotHandle i).toUInt16 := by
      rw [hdata, (Frame.agreeUpTo_receive l.slot pTx hlo hhi).1, hid]
    have hserve : amTargProcess env (widen t i l).target ((widen t i l).slot.receive d)
        (widen t i l).resp stale = processDevice .user env l.target (l.slot.receive d) l.resp stale >>=
          fun r => .ok ((t.set i (.device l.target)).set i (.device r.1), r.2) := by
      apply amTargProcess_device
      · exact hwrap ▸ amValidateFunctionId_slotHandle i
      · exact FuncTable.set_self
    dsimp only
    rw [hserve, bind_assoc]
    apply Lockstep.bind_same
    intro r _
    rw [ok_bind]
    apply Lockstep.bind_same
    intro d' _
    apply Lockstep.bind_same
    intro _ _
    exact ⟨congrArg (NetLink.mk pTx (l.slot.receive d) r.2.resp (l.rx.receive d')) (set_set _ _), rfl⟩

end Widening

section Twins
variable {f : MemFunction} {v : VirtdFunction} {op : AsscaOp} {ops : List AsscaOp} {env : Env}
  {stale : UInt32} {pFunc : ClientFunc} {l : NetLink MemFunction}

/-- A function of the target and one of the virtual device that answer the rest of the accesses
alike: cells that remember the same writes, or one array in both. -/
inductive Twin (f : MemFunction) (v : VirtdFunction) (ops : List AsscaOp) : Prop
  | cells (t : CellType) (pCap : AmMemCap) (past : List Written) (mem mem' : List UInt8)
      (advertised : Advertised t pCap) (served : SizesServed t pCap)
      (target : PathHolds t pCap id f.crResp f mem) (virtd : VirtdHolds t pCap v mem')
      (written : ∀ w ∈ past, w.2.length = (t.dataSize pCap).toNat)
      (kept : Remembers (place (t.valueAt (t.dataSize pCap).toNat)) past mem)
      (kept' : Remembers (place (t.valueAt (t.dataSize pCap).toNat)) past mem')
      (proper : Proper (t.idxSize pCap).toNat (t.dataSize pCap).toNat (t.InRange pCap) past ops)
  | assca (fd fd' : AsscaData) (ready : Ready .user f.crResp f)
      (acWrite : amNetGetPacktype (f.crResp.acOps acopWrite) = 5)
      (acRead : amNetGetPacktype (f.crResp.acOps acopRead) = 5)
      (fits : sizeofWrapper + f.crResp.idxSize.toNat + f.crResp.dataSize.toNat ≤
        maxBasicPackUnionSize)
      (stored : f.pVdF = some (.assca fd)) (stored' : v.func.pVdF = some (.assca fd'))
      (same : fd'.data = fd.data)
      (writeAl : v.fn.bind FuncCalls.writeAl = some .amAsscaWrite32Align)
      (readAl : v.fn.bind FuncCalls.readAl = some .amAsscaRead32Align)
      (room : ∀ op ∈ ops, op.Fits f.crResp.idxSize.toNat f.crResp.dataSize.toNat)

theorem asscaAccess_stored {g : MemFunction} {fd : AsscaData} (hg : g.pVdF = some (.assca fd))
    (act : AsscaData → Exec (AmlibAssca × Served)) :
    asscaAccess g act = act fd >>= fun r => .ok (g.setAssca fd r.1, r.2) := by
  rw [asscaAccess, hg]
  rfl

/-- The accessors of two functions with one array. -/
theorem asscaAccess_lockstep {g g' : MemFunction} {fd fd' : AsscaData}
    {act act' : AsscaData → Exec (AmlibAssca × Served)} (hg : g.pVdF = some (.assca fd))
    (hg' : g'.pVdF = some (.assca fd')) (hact : act fd = act' fd') :
    Lockstep (fun r r' => (∃ pAA, r.1 = g.setAssca fd pAA ∧ r'.1 = g'.setAssca fd' pAA) ∧ r.2 = r'.2)
      (asscaAccess g act) (asscaAccess g' act') := by
  rw [asscaAccess_stored hg, asscaAccess_stored hg', hact]
  apply Lockstep.bind_same
  intro r _
  exact ⟨⟨r.1, rfl, rfl⟩, rfl⟩

theorem directStep_lockstep {fd fd' : AsscaData} (stored : f.pVdF = some (.assca fd))
    (stored' : v.func.pVdF = some (.assca fd')) (same : fd'.data = fd.data)
    (writeAl : v.fn.bind FuncCalls.writeAl = some .amAsscaWrite32Align)
    (readAl : v.fn.bind FuncCalls.readAl = some .amAsscaRead32Align) :
    Lockstep (fun r r' => (∃ pAA, r.1 = f.setAssca fd pAA ∧ r'.1 = ⟨v.func.setAssca fd' pAA, v.fn⟩) ∧
      r.2 = r'.2) (directStep .user env f op) (virtdStep env v op) := by
  cases op with
  | write p1 p2 =>
    rw [directStep, virtdStep, writeAl]
    have hact : amlibAsscaAddKeyFixfix env fd.data p1 p2 =
        amlibAsscaAddKeyFixfix env fd'.data p1 p2 := by rw [same]
    apply (asscaAccess_lockstep stored stored' hact).bind
    rintro r r' ⟨⟨pAA, h, h'⟩, hr⟩
    exact ⟨⟨pAA, h, by rw [h']⟩, by rw [hr]⟩
  | read p1 p2 =>
    rw [directStep, virtdStep, readAl]
    have hact : amlibAsscaGetKeyVal .user fd.flags fd.data p1 p2 =
        amlibAsscaGetKeyVal .user fd'.flags fd'.data p1 p2 := by
      simp only [amlibAsscaGetKeyVal, copyToUser_direct (Build.direct_user _), same]
    apply (asscaAccess_lockstep stored stored' hact).bind
    rintro r r' ⟨⟨pAA, h, h'⟩, hr⟩
    rw [hr]
    apply Lockstep.bind_same
    intro p2' _
    exact ⟨⟨pAA, h, by rw [h']⟩, rfl⟩

theorem Twin.step (T : Twin f v (op :: ops)) (hl : l.target = f) (hp : pFunc.crResp = f.crResp) :
    Lockstep (fun r r' => (Twin r.1.target r'.1 ops ∧ r.1.target.crResp = pFunc.crResp) ∧
        r.2 = r'.2)
      (packetStep (netPackAc (serveDevice .user env stale)) pFunc l op) (virtdStep env v op) := by
  have D := netPackAc_delivers (serveDevice .user env stale)
  subst hl
  cases T with
  | cells t pCap past mem mem' hadv served hf hv hpast hmem hmem' hproper =>
    rw [← hp] at hf
    obtain ⟨⟨hfit, hin, hread⟩, hops⟩ := hproper
    have hpast' := length_note hpast hfit
    have W : WorksOn (packetStep (netPackAc (serveDevice .user env stale)) pFunc)
        (t.idxSize pCap).toNat (t.dataSize pCap).toNat (t.valueAt (t.dataSize pCap).toNat)
        (t.InRange pCap) (PathHolds t pCap NetLink.target pFunc.crResp) :=
      anyPath_works pFunc.handle D hadv served
    have W' : WorksOn (virtdStep env) (t.idxSize pCap).toNat (t.dataSize pCap).toNat
        (t.valueAt (t.dataSize pCap).toNat) (t.InRange pCap) (VirtdHolds t pCap) :=
      virtdStep_works hadv served
    have hl : PathHolds t pCap NetLink.target pFunc.crResp l mem := hf
    cases op with
    | write p1 p2 =>
      rw [keyOf] at hin
      obtain ⟨s, hstep, hs⟩ := W.write l mem p1 p2 hl hfit hin
      obtain ⟨s', hstep', hs'⟩ := W'.write v mem' p1 p2 hv hfit hin
      have hval : (p2.take (t.dataSize pCap).toNat).length = (t.dataSize pCap).toNat :=
        List.length_take_of_le hfit.2
      have hkeeps : ∀ m : List UInt8,
          t.valueAt (t.dataSize pCap).toNat (leVal (p1.take (t.idxSize pCap).toNat)) +
            (t.dataSize pCap).toNat ≤ m.length →
          Remembers (place (t.valueAt (t.dataSize pCap).toNat)) past m →
          Remembers (place (t.valueAt (t.dataSize pCap).toNat))
            (past ++ [(p1.take (t.idxSize pCap).toNat, p2.take (t.dataSize pCap).toNat)])
            (splice m (place (t.valueAt (t.dataSize pCap).toNat) (p1.take (t.idxSize pCap).toNat))
              (p2.take (t.dataSize pCap).toNat)) := by
        intro m hroom hm
        apply hm.write (w := (p1.take (t.idxSize pCap).toNat, p2.take (t.dataSize pCap).toNat))
        dsimp only
        rw [hval]
        exact hroom
      rw [hstep, hstep']
      exact ⟨⟨.cells t pCap _ _ _ hadv served ⟨hs.1, rfl, hs.2.2⟩ hs' hpast'
        (hkeeps mem (W.room l mem _ hl hin) hmem) (hkeeps mem' (W'.room v mem' _ hv hin) hmem') hops,
        hs.2.1⟩, rfl⟩
    | read p1 p2 =>
      rw [keyOf] at hin
      obtain ⟨value, hvalue⟩ := hread
      obtain ⟨s, hstep, hs⟩ := W.read l mem p1 p2 hl hfit hin
      obtain ⟨s', hstep', hs'⟩ := W'.read v mem' p1 p2 hv hfit hin
      have hcov : ∀ k < (t.dataSize pCap).toNat, (lastAt (place (t.valueAt (t.dataSize pCap).toNat))
          past (place (t.valueAt (t.dataSize pCap).toNat) (p1.take (t.idxSize pCap).toNat) +
            k)).isSome := isSome_of_lastOf hpast hvalue
      have hwindow := hmem.window_eq hcov (W.room l mem _ hl hin)
      have hwindow' := hmem'.window_eq hcov (W'.room v mem' _ hv hin)
      rw [hstep, hstep', hwindow, hwindow']
      exact ⟨⟨.cells t pCap _ _ _ hadv served ⟨hs.1, rfl, hs.2.2⟩ hs' hpast hmem hmem' hops, hs.2.1⟩,
        rfl⟩
  | assca fd fd' ready acWrite acRead fits stored stored' same writeAl readAl room =>
    rw [← hp] at ready acWrite acRead fits room
    have hview := packetStep_view D acWrite acRead fits l op ready (room op List.mem_cons_self)
    have hdirect : Lockstep (fun r r' => (∃ pAA, r.1 = l.target.setAssca fd pAA ∧
        r'.1 = ⟨v.func.setAssca fd' pAA, v.fn⟩) ∧ r.2 = r'.2) (directStep .user env l.target op)
        (virtdStep env v op) := directStep_lockstep stored stored' same writeAl readAl
    apply ((Lockstep.of_map_eq hview).trans hdirect.ran).mono
    rintro r r' ⟨d, hr, hran, ⟨pAA, hd, hv⟩, ho⟩
    obtain ⟨htarget, hout⟩ := Prod.mk.inj hr
    have ht : r.1.target = l.target.setAssca fd pAA := htarget.trans hd
    have hready := ready.directStep hran
    have hcr : (l.target.setAssca fd pAA).crResp = pFunc.crResp := hp.symm
    rw [hd, ← hcr] at hready
    rw [← hcr] at acWrite acRead fits room
    rw [ht, hv]
    exact ⟨⟨.assca { fd with data := pAA } { fd' with data := pAA } hready acWrite acRead fits rfl rfl
      rfl writeAl readAl fun op hop => room op (List.mem_cons_of_mem _ hop), hcr⟩, hout.trans ho⟩

theorem MadeAlike.twin (A : MadeAlike f v ops) : Twin f v ops := by
  cases A with
  | cells t pCap env₀ env₁ f₀ f₁ calls entries n hadv served target virtd proper =>
    have O := onTarget_of_create target
    have O' := onVirtd_of_create hadv.type virtd
    obtain ⟨mem, hmem⟩ := O.room
    obtain ⟨mem', hmem'⟩ := O'.room
    exact .cells t pCap [] mem mem' hadv served ⟨O, rfl, hmem⟩ ⟨O', hmem'⟩
      (fun w hw => absurd hw List.not_mem_nil) (remembers_nil _ _) (remembers_nil _ _) proper
  | assca pCap env₀ env₁ f₀ f₁ calls entries n target memory virtd fits room =>
    have ht : pCap.amType = amTypeAssocArray := by
      unfold amCreateAsscaDevice at target
      split at target
      · next h => exact h.2
      · exact absurd (Prod.mk.inj target).1 (by decide)
    have hty : ¬ amTypeAssocArray < pCap.amType := by
      rw [ht]
      decide
    have hflat : amTypeAssocArray ≠ amTypeFlatMem := by decide
    have hstata : amTypeAssocArray ≠ amTypeStaticArray := by decide
    obtain rfl := asscaDevice_of_create target
    obtain ⟨acWrite, acRead⟩ := asscaDevice_acOps env₀ f₀ pCap
    rw [amVirtdCreateFunction, if_neg hty] at virtd
    split at virtd
    · rw [virtdSwitch, ht, if_neg hflat, if_neg hstata, if_pos rfl, amVirtdInitAssca] at virtd
      dsimp only at virtd
      rw [if_pos memory] at virtd
      obtain rfl := (Prod.mk.inj (Except.ok.inj virtd)).2
      exact .assca _ _ (ready_asscaDevice (Build.direct_user _)) acWrite acRead fits rfl rfl rfl rfl rfl
        room
    · exact absurd (Prod.mk.inj (Except.ok.inj virtd)).1 (by decide)

theorem Twin.fits (T : Twin f v ops) : sizeofWrapper + f.crResp.idxSize.toNat +
    f.crResp.dataSize.toNat ≤ maxBasicPackUnionSize := by
  cases T with
  | cells t pCap past mem mem' hadv served target virtd written kept kept' proper =>
    have O : OnTarget t pCap f := target.1
    rw [O.idxSize, O.dataSize]
    exact served_fits served
  | assca fd fd' ready acWrite acRead fits stored stored' same writeAl readAl room => exact fits

end Twins

section Sessions
variable {funcs : Fin amTargetMaxFunctions → ClientFunc} {mine : Set (Fin amTargetMaxFunctions)}
  {s : SharedTarget} {v : Fin amTargetMaxFunctions → VirtdFunction} {acts : List SharedAct}
  {i : Fin amTargetMaxFunctions} {a : SharedAct} {op : AsscaOp} {env : Env} {stale : UInt32}
  {tx slot rxBuf : PackAll} {rx : PackResp}

/-- The slots of the client, which knows their functions, and what it has on the virtual device. -/
def Mirrors (funcs : Fin amTargetMaxFunctions → ClientFunc) (mine : Set (Fin amTargetMaxFunctions))
    (acts : List SharedAct) (s : SharedTarget) (v : Fin amTargetMaxFunctions → VirtdFunction) : Prop :=
  ∀ i ∈ mine, ∃ f, s.table.slots i = .device f ∧ (funcs i).handle = slotHandle i ∧
    (funcs i).crResp = f.crResp ∧ Twin f (v i) (accessesTo i acts)

theorem widen_self {t : FuncTable} {l : NetLink MemFunction} (h : t.slots i = .device l.target) :
    widen t i l = ⟨l.tx, l.slot, l.resp, l.rx, t⟩ := by
  rw [widen, FuncTable.set, ← h, Function.update_eq_self]

theorem Mirrors.own (M : Mirrors funcs mine (.own i env stale tx slot rx op :: acts) s v)
    (hi : i ∈ mine) :
    Lockstep (fun r r' => Mirrors funcs mine acts r.1 r'.1 ∧ r.2 = r'.2)
      (sharedStep funcs s (.own i env stale tx slot rx op))
      (localStep v (.own i env stale tx slot rx op)) := by
  obtain ⟨f, hslot, hhandle, hp, T⟩ := M i hi
  rw [accessesTo, if_pos rfl] at T
  have hfit := T.fits
  rw [← hp] at hfit
  have E := sameExchange_widen s.table i env stale
  rw [← hhandle] at E
  have hwide : widen s.table i ⟨tx, slot, s.resp, rx, f⟩ = ⟨tx, slot, s.resp, rx, s.table⟩ :=
    widen_self hslot
  have hexchange := packetStep_lockstep E hwide.symm hfit op
  have htwin : Lockstep _ (packetStep (netPackAc (serveDevice .user env stale)) (funcs i)
      ⟨tx, slot, s.resp, rx, f⟩ op) (virtdStep env (v i) op) := T.step rfl hp
  rw [sharedStep, localStep]
  apply (hexchange.trans htwin).bind
  rintro r r' ⟨d, ⟨hd, ho⟩, ⟨T', hp'⟩, ho'⟩
  refine ⟨fun j hj => ?_, by rw [ho, ho']⟩
  rw [hd]
  by_cases hji : j = i
  · subst hji
    refine ⟨d.1.target, FuncTable.set_self, hhandle, hp'.symm, ?_⟩
    dsimp only
    rw [Function.update_self]
    exact T'
  · obtain ⟨g, hg, hhandle', hcr, T''⟩ := M j hj
    rw [accessesTo, if_neg (Ne.symm hji)] at T''
    refine ⟨g, (FuncTable.set_of_ne hji).trans hg, hhandle', hcr, ?_⟩
    dsimp only
    rw [Function.update_of_ne hji]
    exact T''

theorem Mirrors.foreign (M : Mirrors funcs mine (.foreign env rxBuf stale :: acts) s v)
    (hr : Respects mine (.foreign env rxBuf stale)) (hc : ComesBack s (.foreign env rxBuf stale)) :
    Lockstep (fun r r' => Mirrors funcs mine acts r.1 r'.1 ∧ r.2 = r'.2)
      (sharedStep funcs s (.foreign env rxBuf stale)) (localStep v (.foreign env rxBuf stale)) := by
  obtain ⟨r, hstep⟩ := hc
  rw [sharedStep, hstep]
  refine ⟨fun i hi => ?_, rfl⟩
  obtain ⟨f, hslot, hrest⟩ := M i hi
  have hother : (s.request env rxBuf stale).names i = false := decide_eq_false (hr i hi)
  rcases targStep_other hother hstep with heq | ⟨hnull, -⟩
  · exact ⟨f, heq.trans hslot, hrest⟩
  · rw [hslot] at hnull
    cases hnull

theorem outputs_of_mirrors (hrespects : ∀ a ∈ acts, Respects mine a)
    (hback : Along (sharedStep funcs) ComesBack s acts) (M : Mirrors funcs mine acts s v) :
    (trace (sharedStep funcs) s acts).map Prod.snd = (trace localStep v acts).map Prod.snd := by
  have hboth : Lockstep (fun r r' => True ∧ r.2 = r'.2) (trace (sharedStep funcs) s acts)
      (trace localStep v acts) := by
    induction acts generalizing s v with
    | nil => exact ⟨trivial, rfl⟩
    | cons a acts ih =>
      have hra := hrespects a List.mem_cons_self
      have hstep : Lockstep (fun r r' => Mirrors funcs mine acts r.1 r'.1 ∧ r.2 = r'.2)
          (sharedStep funcs s a) (localStep v a) := by
        cases a with
        | own i env stale tx slot rx op => exact M.own hra
        | foreign env rxBuf stale => exact M.foreign hra hback.1
      rw [trace_cons, trace_cons]
      apply hstep.ran.bind
      rintro r r' ⟨hran, M', ho⟩
      apply (ih (fun a ha => hrespects a (List.mem_cons_of_mem _ ha)) (hback.2 r.1 r.2 hran) M').bind
      rintro q q' ⟨-, hos⟩
      exact ⟨trivial, by rw [ho, hos]⟩
  exact hboth.outputs

theorem comesBack_of_null (h : amValidateFunctionId rxBuf.wrap.funcId = none) :
    ComesBack s (.foreign env rxBuf stale) := by
  have hnull : s.table.validate rxBuf.wrap.funcId = .null := by
    rw [FuncTable.validate, h]
  refine ⟨(s.table, errorResp amRetInvalidFunc (echoWrap rxBuf s.resp)), ?_⟩
  rw [targStep, SharedTarget.request]
  dsimp only
  rw [amTargProcess_null hnull, amPackProcessCmd_fail (e := amRetInvalidFunc) rfl]

/-- An array of sixteen values, an associative array, and where the target has them. -/
def sharedArray : MemFunction := (newLink .stata (arrayCap 4 4)).target

def sharedKeys : MemFunction := asscaDevice .zeroed (.blank 0xAA02) (asscaCap 4)

def arraySlot : Fin amTargetMaxFunctions := 1

def keysSlot : Fin amTargetMaxFunctions := 2

def twoFunctions : SharedTarget :=
  ⟨.zero, ((FuncTable.start targetRegistry).set arraySlot (.device sharedArray)).set keysSlot
    (.device sharedKeys)⟩

def askMemory : PackAll := Frame.zero.receive
  ((PackWrapper.mk amPackFuncIdBaseappmem amPackTypeFivo amOpCreateFunc 1 184).bytes ++
    List.replicate 8 0 ++ (memoryCap 4).bytes)

/-- Somebody creates a memory, the client writes to both, and reads after a stray request. -/
def mixedSession : List SharedAct :=
  [.foreign .zeroed askMemory 0,
    .own arraySlot .zeroed 0 .zero .zero .zero (.write [3, 0, 0, 0] [1, 2, 3, 4]),
    .own keysSlot .zeroed 0 .zero .zero .zero (.write [7, 7, 7, 7] [5, 6, 7, 8]),
    .foreign .zeroed .zero 0,
    .own arraySlot .zeroed 0 .zero .zero .zero (.read [3, 0, 0, 0] [0, 0, 0, 0]),
    .own keysSlot .zeroed 0 .zero .zero .zero (.read [7, 7, 7, 7] [0, 0, 0, 0])]

end Sessions

end AppMem.Cells
