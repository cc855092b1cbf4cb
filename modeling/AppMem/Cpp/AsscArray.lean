import AppMem.Assca.LastWrite
import AppMem.Cpp.Container

/-! # Associative arrays of the C++ library

A container that is ready has the sizes it was constructed with when these are on offer, and the
largest ones otherwise. What it returns of a key is the value that the table shows after all the
inserts that got memory for their item.
-/
namespace AppMem.Cpp
open Library.Bytes Library.Checked Abi Memory Hash Pack Device Assca

section Sizes

def AsscAllowed (keySize dataSize : UInt32) : Prop :=
  keySize ≤ asscaCaps.typeSpecific tsAsscaKeyMaxSize ∧
    dataSize ≤ asscaCaps.typeSpecific tsAsscaDataMaxSize

instance (keySize dataSize : UInt32) : Decidable (AsscAllowed keySize dataSize) :=
  inferInstanceAs (Decidable (_ ∧ _))

/-- The table has exactly these sizes, and nothing behind them in the buffers of the caller makes a
difference. -/
structure AsscExact (keySize dataSize : UInt32) (c : CAppMem) : Prop where
  sizes : ∃ fd, c.amFunc.func.pVdF = some (.assca fd) ∧ fd.data.keyLen = keySize ∧
    fd.data.dataLen = dataSize
  insert : ∀ env pKey pVal, asscInsert true true env c pKey pVal =
    asscInsert true true env c (pKey.take keySize.toNat) (pVal.take dataSize.toNat)
  get : ∀ env pKey pVal, asscGet true true env c pKey pVal =
    asscGet true true env c (pKey.take keySize.toNat) pVal

/-- The constructor comes back, and a container that is ready has allowed sizes, and those. -/
def AsscBuilt (keySize dataSize : UInt32) (env : Env) (minor : ℕ) (amFunc : MemFunction) : Prop :=
  ∃ c, newAsscArray keySize dataSize true true env minor amFunc = .ok c ∧
    (c.bReady = true → AsscAllowed keySize dataSize ∧ AsscExact keySize dataSize c)

/-- The function of a ready container with sizes `kl` and `dl`. -/
def asscFunction (kl dl : UInt32) (env : Env) (minor : ℕ) (amFunc : MemFunction) : VirtdFunction :=
  ⟨{ amFunc with
    pVdF := some (.assca ⟨amlibAsscaInit kl dl true true, env.flags, asscaCaps.maxSize, 0⟩)
    crResp := { amFunc.crResp with amName := ascii ("virtd_assca" ++ toString minor) } },
    some (virtdAsscaCalls newCalls)⟩

theorem find_asscaCaps : (allCaps.find? fun c => c.amType = amTypeAssocArray) = some asscaCaps :=
  rfl

theorem create_assca (env : Env) (minor : ℕ) (amFunc : MemFunction) {pCap : AmMemCap}
    (ht : pCap.amType = amTypeAssocArray) (hmax : pCap.maxSize = asscaCaps.maxSize) : ∃ g,
    amVirtdCreateFunction env targetRegistry minor pCap ⟨amFunc, some newCalls⟩ =
      .ok (if env.alloc .funcData then
        if env.alloc .assca then
          (amRetGood, asscFunction (pCap.typeSpecific tsAsscaKeyMaxSize)
            (pCap.typeSpecific tsAsscaDataMaxSize) env minor amFunc)
        else (amRetGood, ⟨g, some newCalls⟩)
      else (amRetParamErr, ⟨amFunc, some newCalls⟩)) := by
  have hty : ¬ amTypeAssocArray < pCap.amType := by
    rw [ht]
    decide
  have hflat : amTypeAssocArray ≠ amTypeFlatMem := by decide
  have hstata : amTypeAssocArray ≠ amTypeStaticArray := by decide
  rw [amVirtdCreateFunction, if_neg hty]
  cases env.alloc .funcData with
  | false => exact ⟨amFunc, rfl⟩
  | true =>
    rw [virtdSwitch, ht, if_neg hflat, if_neg hstata, if_pos rfl, amVirtdInitAssca, virtdStem,
      if_neg hflat, if_neg hstata, if_pos rfl]
    cases env.alloc .assca with
    | false => exact ⟨_, rfl⟩
    | true =>
      refine ⟨amFunc, ?_⟩
      rw [asscFunction, ← hmax]
      rfl

/-- The edited capability: it has the sizes asked for when both are allowed, and is the one on offer
otherwise. -/
theorem asscConfigCaps_eq (keySize dataSize : UInt32) :
    (asscConfigCaps keySize dataSize true true asscaCaps).1 = amRetGood ∧
      ∃ pCap, (asscConfigCaps keySize dataSize true true asscaCaps).2 = pCap ∧
        pCap.amType = amTypeAssocArray ∧ pCap.maxSize = asscaCaps.maxSize ∧
        pCap.typeSpecific tsAsscaKeyMaxSize =
          (if AsscAllowed keySize dataSize then keySize else 512) ∧
        pCap.typeSpecific tsAsscaDataMaxSize =
          if AsscAllowed keySize dataSize then dataSize else 1024 * 1024 := by
  by_cases ha : AsscAllowed keySize dataSize
  · have hedit : keySize ≤ asscaCaps.typeSpecific tsAsscaKeyMaxSize ∧
        dataSize ≤ asscaCaps.typeSpecific tsAsscaDataMaxSize := ha
    rw [asscConfigCaps, if_pos hedit]
    exact ⟨rfl, _, rfl, rfl, rfl, (if_pos ha).symm, (if_pos ha).symm⟩
  · have hkeep : ¬ (keySize ≤ asscaCaps.typeSpecific tsAsscaKeyMaxSize ∧
        dataSize ≤ asscaCaps.typeSpecific tsAsscaDataMaxSize) := ha
    rw [asscConfigCaps, if_neg hkeep]
    exact ⟨rfl, _, rfl, rfl, rfl, (if_neg ha).symm, (if_neg ha).symm⟩

theorem newAsscArray_eq (keySize dataSize : UInt32) (env : Env) (minor : ℕ) (amFunc : MemFunction) :
    newAsscArray keySize dataSize true true env minor amFunc =
      if env.alloc .funcData then
        if env.alloc .assca then
          .ok ⟨true, asscFunction
            (if AsscAllowed keySize dataSize then keySize else 512)
            (if AsscAllowed keySize dataSize then dataSize else 1024 * 1024) env minor amFunc⟩
        else .error .uninitialised
      else .ok ⟨false, amFunc, some newCalls⟩ := by
  have hbad : ¬ amRetParamErr = amRetGood := by decide
  obtain ⟨hgood, pCap, hcap, ht, hmax, hkey, hdata⟩ := asscConfigCaps_eq keySize dataSize
  obtain ⟨g, hcreate⟩ := create_assca env minor amFunc ht hmax
  rw [newAsscArray, initBase, find_asscaCaps]
  dsimp only
  rw [if_pos hgood, hcap, hcreate, ok_bind, hkey, hdata]
  cases env.alloc .funcData with
  | false =>
    simp only [Bool.false_eq_true, if_false]
    rw [if_neg hbad]
    rfl
  | true =>
    cases env.alloc .assca with
    | false => rfl
    | true => rfl

section Calls
variable {c : CAppMem} {fd : AsscaData}

theorem asscInsert_eq (hfn : c.amFunc.fn = some (virtdAsscaCalls newCalls)) (env : Env)
    (pKey pVal : List UInt8) : asscInsert true true env c pKey pVal =
      amAsscaWrite32Align env c.amFunc.func pKey pVal >>= fun r =>
        .ok (⟨c.bReady, r.1, c.amFunc.fn⟩, r.2.error) := by
  rw [asscInsert, Bool.and_self, if_pos rfl, CAppMem.writeAl, hfn]
  rfl

theorem asscGet_eq (hfn : c.amFunc.fn = some (virtdAsscaCalls newCalls)) (env : Env)
    (pKey pVal : List UInt8) : asscGet true true env c pKey pVal =
      directStep .user env c.amFunc.func (.read pKey pVal) >>= fun r =>
        .ok (⟨c.bReady, r.1, c.amFunc.fn⟩, r.2) := by
  rw [asscGet, Bool.and_self, if_pos rfl, CAppMem.readAl, hfn, directStep]
  change (amAsscaRead32Align .user c.amFunc.func pKey pVal >>= _) = _
  cases amAsscaRead32Align .user c.amFunc.func pKey pVal with
  | error e => rfl
  | ok r =>
    simp only [ok_bind]
    cases writeBytes pVal r.2.out with
    | error e => rfl
    | ok p2 => rfl

theorem asscExact_of_sizes {keySize dataSize : UInt32}
    (hfn : c.amFunc.fn = some (virtdAsscaCalls newCalls))
    (hf : c.amFunc.func.pVdF = some (.assca fd)) (hkey : fd.data.keyLen = keySize)
    (hdata : fd.data.dataLen = dataSize) : AsscExact keySize dataSize c := by
  subst hkey hdata
  constructor
  · exact ⟨fd, hf, rfl, rfl⟩
  · intro env pKey pVal
    have hadd : amlibAsscaAddKeyFixfix env fd.data pKey pVal = amlibAsscaAddKeyFixfix env fd.data
        (pKey.take fd.data.keyLen.toNat) (pVal.take fd.data.dataLen.toNat) :=
      amlibAsscaAddKeyFixfix_congr (readBytes_take _ _).symm (readBytes_take _ _).symm
    rw [asscInsert_eq hfn, asscInsert_eq hfn, amAsscaWrite32Align, amAsscaWrite32Align,
      asscaAccess, asscaAccess, hf]
    dsimp only
    rw [hadd]
  · intro env pKey pVal
    have hget : amlibAsscaGetKeyVal .user fd.flags fd.data pKey pVal =
        amlibAsscaGetKeyVal .user fd.flags fd.data (pKey.take fd.data.keyLen.toNat) pVal :=
      amlibAsscaGetKeyVal_congr pVal pVal rfl (readBytes_take _ _).symm
    rw [asscGet_eq hfn, asscGet_eq hfn, directStep, directStep, amAsscaRead32Align,
      amAsscaRead32Align, asscaAccess, asscaAccess, hf]
    dsimp only
    rw [hget]

end Calls

/-- The constructor keeps to the sizes just when the private data has no memory, or the table has
and the sizes are on offer. -/
theorem asscBuilt_iff {keySize dataSize : UInt32} {env : Env} {minor : ℕ} {amFunc : MemFunction} :
    AsscBuilt keySize dataSize env minor amFunc ↔ env.alloc .funcData = false ∨
      (env.alloc .assca = true ∧ AsscAllowed keySize dataSize) := by
  unfold AsscBuilt
  rw [newAsscArray_eq]
  cases env.alloc .funcData with
  | false =>
    rw [if_neg Bool.false_ne_true]
    exact iff_of_true ⟨_, rfl, fun hr => absurd hr Bool.false_ne_true⟩ (.inl rfl)
  | true =>
    cases env.alloc .assca with
    | false => simp
    | true =>
      simp only [if_true, Except.ok.injEq, exists_eq_left', forall_const, Bool.true_eq_false,
        false_or, true_and, and_iff_left_iff_imp]
      intro ha
      rw [if_pos ha, if_pos ha]
      exact asscExact_of_sizes rfl rfl rfl rfl

end Sizes

section History

/-- A call of a ready container, with what the environment does during it. -/
inductive AsscCall
  | insert (env : Env) (pKey pVal : List UInt8)
  | get (env : Env) (pKey pVal : List UInt8)

def asscCall (c : CAppMem) : AsscCall → Exec (CAppMem × AlignResult)
  | .insert env pKey pVal =>
    (asscInsert true true env c pKey pVal).map fun r => (r.1, ⟨r.2, pVal⟩)
  | .get env pKey pVal => asscGet true true env c pKey pVal

/-- There is memory for the table if this is its first key, and for the new buckets if the key makes
it double. -/
def HashRoom (env : Env) (s : Growth × List (Pair × ℕ)) (key : List UInt8) : Prop :=
  (s.2 = [] → env.alloc .hashTable = true ∧ env.alloc .hashBuckets = true) ∧
    (s.1.Doubles (hashJen key) → env.alloc .hashExpand = true)

instance (env : Env) (s : Growth × List (Pair × ℕ)) (key : List UInt8) :
    Decidable (HashRoom env s key) := inferInstanceAs (Decidable (_ ∧ _))

/-- What a call makes of the growth and the log; `none` when it does not come back. An insert
without memory for its item is lost. Another one reads a key and a value, needs memory for the
table, and goes on the log. A get in a table reads a key, and writes a value if it finds one. -/
def AsscCall.logged (kl dl : ℕ) (s : Growth × List (Pair × ℕ)) :
    AsscCall → Option (Growth × List (Pair × ℕ))
  | .insert env pKey pVal =>
    if env.alloc .asscaItem then
      if kl ≤ pKey.length ∧ dl ≤ pVal.length ∧ HashRoom env s (pKey.take kl) then
        stamp s (pKey.take kl, pVal.take dl)
      else none
    else some s
  | .get _ pKey pVal =>
    if s.2 = [] ∨ kl ≤ pKey.length ∧
        (visible s.1.doublings s.2 (pKey.take kl) = none ∨ dl ≤ pVal.length) then some s
    else none

structure AsscStored (kl dl : ℕ) (c : CAppMem) (s : Growth × List (Pair × ℕ)) : Prop where
  calls : c.amFunc.fn = some (virtdAsscaCalls newCalls)
  stored : ∃ fd, c.amFunc.func.pVdF = some (.assca fd) ∧ Stored kl dl fd.flags fd s.1 s.2 ∧
    (s.2 = [] → fd.data.table = none)

variable {kl dl : ℕ} {c c' : CAppMem} {s : Growth × List (Pair × ℕ)}

theorem asscStored_new {keySize dataSize : UInt32} (env : Env) (minor : ℕ) (amFunc : MemFunction) :
    AsscStored keySize.toNat dataSize.toNat
      ⟨true, asscFunction keySize dataSize env minor amFunc⟩ (Growth.start, []) where
  calls := rfl
  stored := ⟨_, rfl, ⟨rfl, rfl, ⟨rfl, rfl⟩, rfl, rfl, fun _ h => absurd h List.not_mem_nil,
    .inl ⟨rfl, rfl, rfl⟩⟩, fun _ => rfl⟩

section Accesses
variable {env : Env} {f g : MemFunction} {fd : AsscaData} {flags : UInt32} {p1 p2 : List UInt8}

/-- The table takes a key just when there is the memory it needs. -/
theorem hashAddKeyptr_room (S : Stored kl dl flags fd s.1 s.2)
    (hempty : s.2 = [] → fd.data.table = none) (env : Env) (key : List UInt8) (n : ℕ) :
    hashAddKeyptr env fd.data.table key n =
      if HashRoom env s key then hashAddKeyptr .zeroed fd.data.table key n
      else .error .assertion := by
  rcases S.table with ⟨htable, hstart, hlog⟩ | ⟨t, htable, H⟩
  · obtain ⟨t₀, hmake, H⟩ := holds_hashMakeTable (α := ℕ) Env.zeroed_ample
    have hone : ¬ (0 + 1) * hashBktCapacityThresh ≤ 0 + 1 := by decide
    have hsmall : ¬ Growth.start.Doubles (hashJen key) := fun h => hone h.1
    have hroom : HashRoom env s key ↔
        env.alloc .hashTable = true ∧ env.alloc .hashBuckets = true := by
      simp only [HashRoom, hlog, hstart, hsmall, forall_const, false_implies, and_true]
    have hadd := H.add_memory env Env.zeroed_ample key n
    rw [if_pos fun h => absurd h hsmall] at hadd
    simp only [hroom, htable, hashAddKeyptr, hashMakeTable_memory env Env.zeroed_ample,
      hmake]
    by_cases hm : env.alloc .hashTable = true ∧ env.alloc .hashBuckets = true
    · rw [if_pos hm, if_pos hm]
      exact hadd
    · rw [if_neg hm, if_neg hm]
      rfl
  · have hne : s.2 ≠ [] := by
      intro h
      cases htable.symm.trans (hempty h)
    have hroom : HashRoom env s key ↔
        (s.1.Doubles (hashJen key) → env.alloc .hashExpand = true) := by
      simp only [HashRoom, hne, false_implies, true_and]
    rw [htable, H.add_memory env Env.zeroed_ample]
    simp only [hroom]

/-- A write whose item has memory comes back as it would with plenty of memory, or not at all. -/
theorem write_room (p1 p2 : List UInt8) (hf : f.pVdF = some (.assca fd))
    (S : Stored kl dl flags fd s.1 s.2)
    (hempty : s.2 = [] → fd.data.table = none) (hm : env.alloc .asscaItem = true) :
    if kl ≤ p1.length ∧ dl ≤ p2.length ∧ HashRoom env s (p1.take kl) then
      amAsscaWrite32Align env f p1 p2 = amAsscaWrite32Align .zeroed f p1 p2
    else ∃ e, amAsscaWrite32Align env f p1 p2 = .error e := by
  have hample : Env.zeroed.alloc .asscaItem = true := rfl
  simp only [amAsscaWrite32Align, asscaAccess, hf, amlibAsscaAddKeyFixfix, require_of_true _ S.fixed,
    ok_bind, if_pos hm, if_pos hample, S.keyLen, S.dataLen]
  by_cases hval : dl ≤ p2.length
  · by_cases hkey : kl ≤ p1.length
    · rw [readBytes_of_le hval, readBytes_of_le hkey, ok_bind, ok_bind, ok_bind, ok_bind,
        hashAddKeyptr_room S hempty env]
      by_cases hroom : HashRoom env s (p1.take kl)
      · rw [if_pos ⟨hkey, hval, hroom⟩, if_pos hroom]
      · rw [if_neg fun h => hroom h.2.2, if_neg hroom]
        exact ⟨_, rfl⟩
    · rw [if_neg fun h => hkey h.1, readBytes_of_le hval, readBytes_of_lt (Nat.not_le.mp hkey)]
      exact ⟨_, rfl⟩
  · rw [if_neg fun h => hval h.2.1, readBytes_of_lt (Nat.not_le.mp hval)]
    exact ⟨_, rfl⟩

theorem write_lost (p1 p2 : List UInt8) (hf : f.pVdF = some (.assca fd))
    (S : Stored kl dl flags fd s.1 s.2)
    (hm : env.alloc .asscaItem = false) :
    amAsscaWrite32Align env f p1 p2 = .ok (f, { error := amRetGood }) :=
  asscaAccess_eq_ok.mpr (.inr ⟨fd, fd.data, hf,
    amlibAsscaAddKeyFixfix_eq_ok.mpr ⟨S.fixed, rfl, .inl ⟨hm, rfl⟩⟩, (setAssca_self hf).symm⟩)

theorem read_missing (hf : f.pVdF = some (.assca fd)) (S : Stored kl dl flags fd s.1 s.2)
    (h : fd.data.table = none ∨ kl ≤ p1.length ∧
      visible s.1.doublings s.2 (p1.take kl) = none) :
    directStep .user env f (.read p1 p2) = .ok (f, ⟨amRetKeyNotFound, p2⟩) := by
  have hget : amlibAsscaGetKeyVal .user fd.flags fd.data p1 p2 =
      .ok (fd.data, { error := amRetKeyNotFound }) := by
    rcases h with htable | ⟨hkey, hnone⟩
    · exact amlibAsscaGetKeyVal_eq_ok.mpr (.inl ⟨htable, rfl, rfl⟩)
    · obtain ⟨o, ho, hvis⟩ := S.find (p1.take kl)
      rw [hnone] at hvis
      cases Option.map_eq_none_iff.mp hvis
      exact amlibAsscaGetKeyVal_of_find .user fd.flags p2 (S.keyLen.trans_le hkey)
        (S.keyLen.symm ▸ ho)
  rw [directStep_read hf hget (Nat.zero_le _), setAssca_self hf, splice_nil]

theorem read_fails (env : Env) (hf : f.pVdF = some (.assca fd)) (S : Stored kl dl flags fd s.1 s.2)
    (htable : fd.data.table ≠ none)
    (h : ¬ (kl ≤ p1.length ∧
      (visible s.1.doublings s.2 (p1.take kl) = none ∨ dl ≤ p2.length))) :
    ∃ e, directStep .user env f (.read p1 p2) = .error e := by
  cases hread : directStep .user env f (.read p1 p2) with
  | error e => exact ⟨e, rfl⟩
  | ok r =>
    rw [directStep, bind_eq_ok] at hread
    obtain ⟨⟨g, v⟩, hread, hwrite⟩ := hread
    rw [bind_eq_ok] at hwrite
    obtain ⟨p2', hwrite, -⟩ := hwrite
    rcases asscaAccess_eq_ok.mp hread with ⟨hnone, -⟩ | ⟨fd', pAA, hf', hop, -⟩
    · cases hf.symm.trans hnone
    · cases hf.symm.trans hf'
      rcases amlibAsscaGetKeyVal_eq_ok.mp hop with
        ⟨hnone, -⟩ | ⟨t, key, found, ht, hkey, hfind, hrest⟩
      · exact absurd hnone htable
      · rw [S.keyLen, readBytes_eq_ok] at hkey
        obtain ⟨hkl, rfl⟩ := hkey
        refine absurd ⟨hkl, ?_⟩ h
        obtain ⟨o, ho, hvis⟩ := S.find (p1.take kl)
        rw [ht, hfind] at ho
        cases ho
        rcases hrest with ⟨rfl, -⟩ | ⟨hd, item, w, rfl, hitem, hw, -, rfl⟩
        · exact .inl (Option.map_eq_none_iff.mp hvis.symm)
        · have hlen := S.value_length hitem
          rw [copyToUser_direct (Build.direct_user fd.flags), S.dataLen,
            readBytes_of_le hlen.ge, ok_bind] at hw
          cases hw
          have hroom := (writeBytes_eq_ok.mp hwrite).1
          rw [List.length_take_of_le hlen.ge] at hroom
          exact .inr hroom

end Accesses

/-- One call: it comes back just when the log goes on, and then the table holds the new log. -/
theorem AsscStored.call (S : AsscStored kl dl c s) (call : AsscCall) :
    match call.logged kl dl s with
    | none => ∃ e, asscCall c call = .error e
    | some s' => ∃ c' o, asscCall c call = .ok (c', o) ∧ AsscStored kl dl c' s' := by
  obtain ⟨hfn, fd, hf, hstored, hempty⟩ := S
  cases call with
  | get env pKey pVal =>
    rw [AsscCall.logged, asscCall, asscGet_eq hfn]
    have hkeep : ∀ r, directStep .user env c.amFunc.func (.read pKey pVal) =
        .ok (c.amFunc.func, r) → ∃ c' o,
          (directStep .user env c.amFunc.func (.read pKey pVal) >>= fun r =>
            .ok (⟨c.bReady, r.1, c.amFunc.fn⟩, r.2)) = .ok (c', o) ∧ AsscStored kl dl c' s := by
      intro r hr
      exact ⟨_, r, by rw [hr, ok_bind], hfn, fd, hf, hstored, hempty⟩
    by_cases hlog : s.2 = []
    · rw [if_pos (.inl hlog)]
      exact hkeep _ (read_missing hf hstored (.inl (hempty hlog)))
    · by_cases hfits : kl ≤ pKey.length ∧
          (visible s.1.doublings s.2 (pKey.take kl) = none ∨ dl ≤ pVal.length)
      · rw [if_pos (.inr hfits)]
        obtain ⟨hkey, hnone | hval⟩ := hfits
        · exact hkeep _ (read_missing hf hstored (.inr ⟨hkey, hnone⟩))
        · have hread : ∃ g, directStep .user env c.amFunc.func (.read pKey pVal) =
              .ok (g, answer true (visible s.1.doublings s.2 (pKey.take kl)) pVal) :=
            hstored.read hf hkey hval
          obtain ⟨g, hread⟩ := hread
          have hg : g = c.amFunc.func := directStep_read_same hf (Build.direct_user _) hread
          exact hkeep _ (hg ▸ hread)
      · rw [if_neg (not_or.mpr ⟨hlog, hfits⟩)]
        have htable : fd.data.table ≠ none := by
          intro hnone
          rcases hstored.table with ⟨-, -, h⟩ | ⟨t, ht, -⟩
          · exact hlog h
          · cases hnone.symm.trans ht
        obtain ⟨e, he⟩ := read_fails env hf hstored htable hfits
        exact ⟨e, by rw [he]; rfl⟩
  | insert env pKey pVal =>
    rw [AsscCall.logged, asscCall, asscInsert_eq hfn]
    by_cases hm : env.alloc .asscaItem = true
    · have hroom := write_room pKey pVal hf hstored hempty hm
      rw [if_pos hm]
      by_cases hfits : kl ≤ pKey.length ∧ dl ≤ pVal.length ∧ HashRoom env s (pKey.take kl)
      · rw [if_pos hfits] at hroom ⊢
        have hstep := hstored.write Env.zeroed_ample hf (w := (pKey, pVal)) hfits.1 hfits.2.1
        rw [hroom]
        cases hs : stamp s (pKey.take kl, pVal.take dl) with
        | none =>
          rw [hs] at hstep
          obtain ⟨e, he⟩ := hstep
          exact ⟨e, by rw [he]; rfl⟩
        | some s' =>
          rw [hs] at hstep
          obtain ⟨fd', hw, S'⟩ := hstep
          obtain ⟨g', -, rfl⟩ := Option.map_eq_some_iff.mp hs
          refine ⟨⟨c.bReady, { c.amFunc.func with pVdF := some (.assca fd') }, c.amFunc.fn⟩,
            ⟨amRetGood, pVal⟩, by rw [hw]; rfl, hfn, fd', rfl, ?_, ?_⟩
          · rw [S'.flags]
            exact S'
          · intro h
            exact absurd h (List.append_ne_nil_of_right_ne_nil _ (List.cons_ne_nil _ _))
      · rw [if_neg hfits] at hroom ⊢
        obtain ⟨e, he⟩ := hroom
        exact ⟨e, by rw [he]; rfl⟩
    · rw [if_neg hm]
      have hlost := write_lost pKey pVal hf hstored (Bool.eq_false_iff.mpr hm)
      exact ⟨_, ⟨amRetGood, pVal⟩, by rw [hlost]; rfl, hfn, fd, hf, hstored, hempty⟩

theorem AsscStored.run (S : AsscStored kl dl c s) (calls : List AsscCall) :
    match calls.foldlM (AsscCall.logged kl dl) s with
    | none => ∃ e, trace asscCall c calls = .error e
    | some s' => ∃ c' os, trace asscCall c calls = .ok (c', os) ∧ AsscStored kl dl c' s' := by
  induction calls generalizing c s with
  | nil => exact ⟨c, [], rfl, S⟩
  | cons call calls ih =>
    have hstep := S.call call
    rw [List.foldlM_cons, trace_cons]
    cases hs : call.logged kl dl s with
    | none =>
      rw [hs] at hstep
      obtain ⟨e, he⟩ := hstep
      exact ⟨e, by rw [he]; rfl⟩
    | some s₁ =>
      rw [hs] at hstep
      obtain ⟨c₁, o, hcall, S₁⟩ := hstep
      have hrest := ih S₁
      rw [hcall, ok_bind]
      change match calls.foldlM (AsscCall.logged kl dl) s₁ with
        | none => _
        | some s' => _
      cases hs' : calls.foldlM (AsscCall.logged kl dl) s₁ with
      | none =>
        rw [hs'] at hrest
        obtain ⟨e, he⟩ := hrest
        exact ⟨e, by rw [he]; rfl⟩
      | some s₂ =>
        rw [hs'] at hrest
        obtain ⟨c₂, os, htrace, S₂⟩ := hrest
        exact ⟨c₂, o :: os, by rw [htrace]; rfl, S₂⟩

theorem AsscStored.get (S : AsscStored kl dl c s) (env : Env) {pKey pVal : List UInt8}
    (hkey : kl ≤ pKey.length) (hval : dl ≤ pVal.length) :
    ∃ c', asscGet true true env c pKey pVal =
      .ok (c', answer true (visible s.1.doublings s.2 (pKey.take kl)) pVal) := by
  obtain ⟨hfn, fd, hf, hstored, -⟩ := S
  have hread : ∃ g, directStep .user env c.amFunc.func (.read pKey pVal) =
      .ok (g, answer true (visible s.1.doublings s.2 (pKey.take kl)) pVal) :=
    hstored.read hf hkey hval
  obtain ⟨g, hread⟩ := hread
  exact ⟨_, by rw [asscGet_eq hfn, hread, ok_bind]⟩

end History

section InsertGet

/-- Every get of the key returns good, and the value in every buffer. -/
def GetsBack (dl : ℕ) (c : CAppMem) (pKey pVal : List UInt8) : Prop :=
  ∀ env p2, dl ≤ p2.length → ∃ c', asscGet true true env c pKey p2 =
    .ok (c', ⟨amRetGood, splice p2 0 (pVal.take dl)⟩)

variable {kl dl : ℕ} {c : CAppMem} {s : Growth × List (Pair × ℕ)}

theorem AsscStored.getsBack_iff (S : AsscStored kl dl c s) {pKey pVal : List UInt8}
    (hkey : kl ≤ pKey.length) (hval : dl ≤ pVal.length) :
    GetsBack dl c pKey pVal ↔
      visible s.1.doublings s.2 (pKey.take kl) = some (pVal.take dl) := by
  constructor
  · intro h
    have hbuf : dl ≤ (List.replicate dl (0 : UInt8)).length := List.length_replicate.ge
    obtain ⟨c₁, h₁⟩ := h .zeroed _ hbuf
    obtain ⟨c₂, h₂⟩ := S.get .zeroed hkey hbuf
    rw [h₁] at h₂
    have hans := (Prod.mk.inj (Except.ok.inj h₂)).2
    cases hv : visible s.1.doublings s.2 (pKey.take kl) with
    | none =>
      rw [hv] at hans
      have herr : amRetGood = amRetKeyNotFound := congrArg AlignResult.error hans
      exact absurd herr (by decide)
    | some v =>
      obtain ⟨-, fd, -, hstored, -⟩ := S
      have hlen : v.length = (List.replicate dl (0 : UInt8)).length := by
        rw [hstored.visible_length _ v hv, List.length_replicate]
      have hlen' : (pVal.take dl).length = (List.replicate dl (0 : UInt8)).length := by
        rw [List.length_take_of_le hval, List.length_replicate]
      rw [hv, answer] at hans
      have hsplice := congrArg AlignResult.p2 hans
      dsimp only at hsplice
      rw [if_pos rfl, splice_whole hlen, splice_whole hlen'] at hsplice
      exact congrArg some hsplice.symm
  · intro hv env p2 hp2
    obtain ⟨c', hget⟩ := S.get env hkey hp2
    rw [hv] at hget
    exact ⟨c', hget⟩

/-- An insert after the log comes back, and the table then shows its value for its key. -/
def InsertShows (kl dl : ℕ) (s : Growth × List (Pair × ℕ)) (env : Env) (pKey pVal : List UInt8) :
    Prop :=
  ∃ s', AsscCall.logged kl dl s (.insert env pKey pVal) = some s' ∧
    visible s'.1.doublings s'.2 (pKey.take kl) = some (pVal.take dl)

/-- An insert comes back and its value is got back just when the log says so. -/
theorem AsscStored.insert_iff (S : AsscStored kl dl c s) (env : Env) {pKey pVal : List UInt8}
    (hkey : kl ≤ pKey.length) (hval : dl ≤ pVal.length) :
    (∃ c' e, asscInsert true true env c pKey pVal = .ok (c', e) ∧ GetsBack dl c' pKey pVal) ↔
      InsertShows kl dl s env pKey pVal := by
  have hcall := S.call (.insert env pKey pVal)
  rw [asscCall] at hcall
  unfold InsertShows
  cases hs : AsscCall.logged kl dl s (.insert env pKey pVal) with
  | none =>
    rw [hs] at hcall
    obtain ⟨e, he⟩ := hcall
    constructor
    · rintro ⟨c', e', hinsert, -⟩
      rw [hinsert] at he
      cases he
    · rintro ⟨s', h, -⟩
      cases h
  | some s' =>
    rw [hs] at hcall
    obtain ⟨c', o, hc', S'⟩ := hcall
    obtain ⟨⟨c₁, e⟩, hinsert, h⟩ := except_map_eq_ok.mp hc'
    cases h
    rw [hinsert]
    constructor
    · rintro ⟨c₂, e₂, h, hback⟩
      cases h
      exact ⟨s', rfl, (S'.getsBack_iff hkey hval).mp hback⟩
    · rintro ⟨s₂, h, hvis⟩
      cases h
      exact ⟨_, e, rfl, (S'.getsBack_iff hkey hval).mpr hvis⟩

end InsertGet

end AppMem.Cpp
