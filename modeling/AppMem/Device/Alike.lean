import AppMem.Device.Refusal
import AppMem.Device.SortAgreement

/-! # Functions that differ in what was never stored

Of two functions in two runs the storages agree where the runs have stored something; the flags and
the rest of the storages are what `malloc` left there. A call that looks only at bytes that are known
ends the same way in both, and what it stores is known afterwards.
-/
namespace AppMem.Device
open Library.Bytes Library.Checked Library.TwoRuns Abi Memory Hash Pack

/-- The same successes of `malloc` and the same addresses; what is in the memory may differ. -/
structure SameMemory (env env' : Env) : Prop where
  alloc : env'.alloc = env.alloc
  addr : env'.addr = env.addr

/-- Private data whose storages agree on `K`. -/
def FuncData.Alike (K : Set ℕ) : FuncData → FuncData → Prop
  | .raw, .raw => True
  | .flat fd, .flat fd' =>
    fd' = { fd with data := fd'.data, flags := fd'.flags } ∧ AgreeOn K fd.data fd'.data
  | .stata fd, .stata fd' =>
    fd' = { fd with data := fd'.data, flags := fd'.flags } ∧ AgreeOn K fd.data fd'.data
  | .assca fd, .assca fd' => fd' = { fd with flags := fd'.flags }
  | _, _ => False

/-- Functions that differ in their private data, and there only as `FuncData.Alike` allows. -/
structure MemFunction.Alike (K : Set ℕ) (f g : MemFunction) : Prop where
  rest : g = { f with pVdF := g.pVdF }
  data : Option.Rel (FuncData.Alike K) f.pVdF g.pVdF

def DeviceHandler.looksAt (f : MemFunction) : DeviceHandler → PackCall → Set ℕ
  | .amFlatRead32Align, .align p1 _ => cell (u32OfBytes p1).toNat
  | .amStataReadIdx32, .align p1 _ => cell (4 * (u32OfBytes p1).toNat)
  | .amStataSort, .action p1 l1 =>
    let s := SortParam.ofBytes (p1.take sizeofSortParam)
    match f.pVdF with
    | some (.stata fd) =>
      if sizeofSortParam ≤ l1.toNat ∧ s.accepted fd = true ∧ s.startAddr fd < s.endAddr fd then
        Set.Ico (s.startAddr fd - fd.addr).toNat ((s.startAddr fd - fd.addr).toNat +
          4 * runLength (s.startAddr fd - fd.addr).toNat (s.endAddr fd - fd.addr).toNat 4)
      else ∅
    | _ => ∅
  | _, _ => ∅

def DeviceHandler.stores : DeviceHandler → PackCall → Set ℕ
  | .amFlatWrite32Align, .align p1 _ => cell (u32OfBytes p1).toNat
  | .amStataWriteIdx32, .align p1 _ => cell (4 * (u32OfBytes p1).toNat)
  | _, _ => ∅

section Alike
variable {K K' : Set ℕ} {env env' : Env} {f f' : MemFunction}

def SameServed (K : Set ℕ) (r r' : MemFunction × Served) : Prop := r.1.Alike K r'.1 ∧ r.2 = r'.2

theorem MemFunction.Alike.hdr (h : f.Alike K f') : f'.hdr = f.hdr := by
  rw [h.rest]
  rfl

theorem MemFunction.Alike.cases (h : f.Alike K f') : (f.pVdF = none ∧ f'.pVdF = none) ∨
    ∃ d d', f.pVdF = some d ∧ f'.pVdF = some d' ∧ d.Alike K d' := by
  have hdata := h.data
  generalize f.pVdF = x at hdata
  generalize f'.pVdF = y at hdata
  cases hdata with
  | none => exact .inl ⟨rfl, rfl⟩
  | some hd => exact .inr ⟨_, _, rfl, rfl, hd⟩

theorem MemFunction.Alike.set (h : f.Alike K f') {d d' : FuncData} (hd : d.Alike K' d') :
    MemFunction.Alike K' { f with pVdF := some d } { f' with pVdF := some d' } where
  rest := by rw [h.rest]
  data := .some hd

theorem flatAccess_lockstep {op op' : FlatData → Exec (FlatData × Served)} (h : f.Alike K f')
    (hop : ∀ fd fd', FuncData.Alike K (.flat fd) (.flat fd') →
      Lockstep (fun a b => FuncData.Alike K' (.flat a.1) (.flat b.1) ∧ a.2 = b.2) (op fd) (op' fd')) :
    Lockstep (SameServed K') (flatAccess f op) (flatAccess f' op') := by
  unfold flatAccess
  rcases h.cases with ⟨hf, hf'⟩ | ⟨d, d', hf, hf', hd⟩
  · rw [hf, hf']
    rfl
  · rw [hf, hf']
    cases d with
    | flat fd =>
      cases d' with
      | flat fd' =>
        apply (hop fd fd' hd).bind
        rintro a b ⟨hab, hr⟩
        exact ⟨h.set hab, hr⟩
      | raw | stata _ | assca _ => exact hd.elim
    | raw => cases d' <;> first | rfl | exact hd.elim
    | stata _ => cases d' <;> first | rfl | exact hd.elim
    | assca _ => cases d' <;> first | rfl | exact hd.elim

theorem stataAccess_lockstep {op op' : StataData → Exec (StataData × Served)} (h : f.Alike K f')
    (hop : ∀ fd fd', FuncData.Alike K (.stata fd) (.stata fd') →
      Lockstep (fun a b => FuncData.Alike K' (.stata a.1) (.stata b.1) ∧ a.2 = b.2) (op fd)
        (op' fd')) :
    Lockstep (SameServed K') (stataAccess f op) (stataAccess f' op') := by
  unfold stataAccess
  rcases h.cases with ⟨hf, hf'⟩ | ⟨d, d', hf, hf', hd⟩
  · rw [hf, hf']
    rfl
  · rw [hf, hf']
    cases d with
    | stata fd =>
      cases d' with
      | stata fd' =>
        apply (hop fd fd' hd).bind
        rintro a b ⟨hab, hr⟩
        exact ⟨h.set hab, hr⟩
      | raw | flat _ | assca _ => exact hd.elim
    | raw => cases d' <;> first | rfl | exact hd.elim
    | flat _ => cases d' <;> first | rfl | exact hd.elim
    | assca _ => cases d' <;> first | rfl | exact hd.elim

theorem asscaAccess_lockstep {op op' : AsscaData → Exec (AmlibAssca × Served)} (h : f.Alike K f')
    (hop : ∀ fd fd', fd'.data = fd.data → Lockstep Eq (op fd) (op' fd')) :
    Lockstep (SameServed K) (asscaAccess f op) (asscaAccess f' op') := by
  unfold asscaAccess
  rcases h.cases with ⟨hf, hf'⟩ | ⟨d, d', hf, hf', hd⟩
  · rw [hf, hf']
    exact ⟨h, rfl⟩
  · rw [hf, hf']
    cases d with
    | assca fd =>
      cases d' with
      | assca fd' =>
        have hfd : fd' = { fd with flags := fd'.flags } := hd
        apply (hop fd fd' (by rw [hfd])).bind
        rintro a b rfl
        refine ⟨h.set (?_ : FuncData.Alike K (.assca _) (.assca _)), rfl⟩
        change ({ fd' with data := a.1 } : AsscaData) = _
        rw [hfd]
      | raw | flat _ | stata _ => exact hd.elim
    | raw => cases d' <;> first | rfl | exact hd.elim
    | flat _ => cases d' <;> first | rfl | exact hd.elim
    | stata _ => cases d' <;> first | rfl | exact hd.elim

/-- A cell that is known is read alike, in the user's build whatever the flags. -/
theorem cellToUser_lockstep {data data' uaddr : List UInt8} {flags flags' : UInt32} {off : ℕ}
    (h : AgreeOn K data data') (hK : cell off ⊆ K) :
    cellToUser .user flags data off uaddr = cellToUser .user flags' data' off uaddr := by
  simp only [cellToUser, put32ToUser, readBytes_lockstep h hK, Build.direct_user]
  rfl

theorem cellFromUser_lockstep {data data' uaddr : List UInt8} {flags flags' : UInt32} {off : ℕ}
    (h : AgreeOn K data data') :
    Lockstep (AgreeOn (K ∪ cell off)) (cellFromUser .user flags data off uaddr)
      (cellFromUser .user flags' data' off uaddr) := by
  simp only [cellFromUser, get32FromUser, Build.direct_user, if_true, h.length]
  apply Lockstep.bind_same
  intro v hv
  apply Lockstep.bind_same
  intro _ hin
  have hlen : v.length = 4 := by
    obtain ⟨hle, rfl⟩ := readBytes_eq_ok.mp hv
    exact List.length_take_of_le hle
  have hroom : off + v.length ≤ data.length := by
    rw [hlen, h.length]
    exact require_eq_ok.mp hin
  have hsplice := h.splice hroom
  rw [hlen] at hsplice
  exact hsplice

/-- Whether memory is found decides about the table of keys, and nothing else of the memory does. -/
theorem hashAddKeyptr_alloc {α : Type} (henv : SameMemory env env') (head : Option (Table α))
    (key : List UInt8) (elt : α) : hashAddKeyptr env head key elt = hashAddKeyptr env' head key elt := by
  simp only [hashAddKeyptr, hashMakeTable, hashAddToBkt, hashExpandBuckets, henv.alloc]

theorem amlibAsscaAddKeyFixfix_alloc (henv : SameMemory env env') (pAA : AmlibAssca)
    (p1 p2 : List UInt8) :
    amlibAsscaAddKeyFixfix env pAA p1 p2 = amlibAsscaAddKeyFixfix env' pAA p1 p2 := by
  simp only [amlibAsscaAddKeyFixfix, hashAddKeyptr_alloc henv, henv.alloc]

theorem elements_of_run {s e : ℕ} (hK : Set.Ico s (s + 4 * runLength s e 4) ⊆ K) :
    Elements K s e := by
  intro p hs he hdvd k hk
  apply hK
  have hrun : runLength s e 4 = (e - s) / 4 + 1 := if_pos (hs.trans he)
  rw [hrun]
  obtain ⟨hlo, hhi⟩ := hk
  exact ⟨hs.trans hlo, by omega⟩

theorem sortRange_lockstep {fd fd' : StataData} {s e : UInt64}
    (h : FuncData.Alike K (.stata fd) (.stata fd')) (henv : SameMemory env env')
    (h4 : fd.dataSize = 4)
    (hK : s < e → Elements K (s - fd.addr).toNat (e - fd.addr).toNat) :
    Lockstep (fun a b => FuncData.Alike K (.stata a.1) (.stata b.1) ∧ a.2 = b.2)
      (sortRange env fd s e) (sortRange env' fd' s e) := by
  obtain ⟨hfd, hdata⟩ := h
  have haddr : fd'.addr = fd.addr := by rw [hfd]
  have hsize : fd'.dataSize = fd.dataSize := by rw [hfd]
  have hset (l l' : List UInt8) (hl : AgreeOn K l l') :
      FuncData.Alike K (.stata { fd with data := l }) (.stata { fd' with data := l' }) :=
    ⟨by rw [hfd], hl⟩
  unfold sortRange
  have h4 : fd.dataSize.toNat = 4 := by
    rw [h4]
    rfl
  rw [haddr, hsize, h4]
  apply Lockstep.bind_same
  intro _ _
  apply Lockstep.ite
  · intro hlt
    apply Lockstep.bind_same
    intro _ _
    have hm : env.alloc .mergeBuffer = env'.alloc .mergeBuffer := by rw [henv.alloc]
    apply (amStataMergeSortBegin_lockstep hdata hm (hK hlt)).bind
    rintro r r' ⟨hd, he⟩
    refine ⟨?_, ?_⟩
    · have hrun := hset r.1 r'.1 hd
      rwa [haddr, hsize] at hrun
    · dsimp only
      rw [he]
  · intro _
    exact ⟨⟨hfd, hdata⟩, rfl⟩

theorem amStataSort_lockstep {p1 : List UInt8} {l1 : UInt64} (h : f.Alike K f')
    (henv : SameMemory env env') (hK : DeviceHandler.looksAt f .amStataSort (.action p1 l1) ⊆ K) :
    Lockstep (SameServed K) (amStataSort env f p1 l1) (amStataSort env' f' p1 l1) := by
  have hsame : Lockstep (SameServed K) (.ok (f, { error := amRetParamErr }) : Exec _)
      (.ok (f', { error := amRetParamErr })) := ⟨h, rfl⟩
  unfold amStataSort
  rcases h.cases with ⟨hf, hf'⟩ | ⟨d, d', hf, hf', hd⟩
  · rw [hf, hf']
    exact hsame
  · rw [hf, hf']
    cases d with
    | stata fd =>
      cases d' with
      | stata fd' =>
        have hacc (s : SortParam) : s.accepted fd' = s.accepted fd := by
          rw [hd.1]
          rfl
        have hstart (s : SortParam) : s.startAddr fd' = s.startAddr fd := by
          rw [hd.1]
          rfl
        have hend (s : SortParam) : s.endAddr fd' = s.endAddr fd := by
          rw [hd.1]
          rfl
        apply Lockstep.ite
        · intro _
          exact hsame
        · intro hl
          apply Lockstep.bind_same
          intro s hs
          rw [hacc, hstart, hend]
          apply Lockstep.ite
          · intro haccepted
            have hsize : fd.dataSize = 4 := by
              simp only [SortParam.accepted, Bool.and_eq_true, beq_iff_eq] at haccepted
              exact haccepted.2
            have hparam : s = SortParam.ofBytes (p1.take sizeofSortParam) := by
              by_cases hp : sizeofSortParam ≤ p1.length
              · rw [readBytes_of_le hp] at hs
                cases hs
                rfl
              · rw [readBytes_of_lt (Nat.not_le.mp hp)] at hs
                cases hs
            have helements : s.startAddr fd < s.endAddr fd →
                Elements K (s.startAddr fd - fd.addr).toNat (s.endAddr fd - fd.addr).toNat := by
              intro hlt
              subst hparam
              rw [DeviceHandler.looksAt, hf] at hK
              dsimp only at hK
              rw [if_pos ⟨Nat.not_lt.mp hl, haccepted, hlt⟩] at hK
              exact elements_of_run hK
            apply (sortRange_lockstep hd henv hsize helements).bind
            rintro a b ⟨hab, hr⟩
            exact ⟨h.set hab, hr⟩
          · intro _
            exact hsame
      | raw | flat _ | assca _ => exact hd.elim
    | raw => cases d' <;> first | rfl | exact hd.elim
    | flat _ => cases d' <;> first | rfl | exact hd.elim
    | assca _ => cases d' <;> first | rfl | exact hd.elim

theorem invokeDevice_lockstep {h : DeviceHandler} {c : PackCall} (hA : f.Alike K f')
    (henv : SameMemory env env') (hK : h.looksAt f c ⊆ K) :
    Lockstep (SameServed (K ∪ h.stores c)) (invokeDevice .user env h c f)
      (invokeDevice .user env' h c f') := by
  have hnone {l l' : List UInt8} (hl : AgreeOn K l l') : AgreeOn (K ∪ ∅) l l' := by
    rwa [Set.union_empty]
  have hsame {g g' : MemFunction} (hg : g.Alike K g') : g.Alike (K ∪ ∅) g' := by
    rwa [Set.union_empty]
  have hserved (r r' : MemFunction × Served) (hr : SameServed K r r') : SameServed (K ∪ ∅) r r' :=
    ⟨hsame hr.1, hr.2⟩
  cases c with
  | align p1 p2 =>
    cases h with
    | amFlatRead32Align =>
      apply flatAccess_lockstep hA
      rintro fd fd' ⟨hfd, hdata⟩
      apply Lockstep.bind_same
      intro offset hoff
      obtain ⟨-, rfl⟩ := readU32_eq_ok.mp hoff
      rw [cellToUser_lockstep hdata hK]
      apply Lockstep.bind_same
      intro out _
      exact ⟨⟨hfd, hnone hdata⟩, rfl⟩
    | amFlatWrite32Align =>
      apply flatAccess_lockstep hA
      rintro fd fd' ⟨hfd, hdata⟩
      apply Lockstep.bind_same
      intro offset hoff
      obtain ⟨-, rfl⟩ := readU32_eq_ok.mp hoff
      apply (cellFromUser_lockstep hdata).bind
      intro d d' hd
      exact ⟨⟨by rw [hfd], hd⟩, rfl⟩
    | amStataReadIdx32 =>
      apply stataAccess_lockstep hA
      rintro fd fd' ⟨hfd, hdata⟩
      apply Lockstep.bind_same
      intro idx hidx
      obtain ⟨-, rfl⟩ := readU32_eq_ok.mp hidx
      rw [cellToUser_lockstep hdata hK]
      apply Lockstep.bind_same
      intro out _
      exact ⟨⟨hfd, hnone hdata⟩, rfl⟩
    | amStataWriteIdx32 =>
      apply stataAccess_lockstep hA
      rintro fd fd' ⟨hfd, hdata⟩
      apply Lockstep.bind_same
      intro idx hidx
      obtain ⟨-, rfl⟩ := readU32_eq_ok.mp hidx
      apply (cellFromUser_lockstep hdata).bind
      intro d d' hd
      exact ⟨⟨by rw [hfd], hd⟩, rfl⟩
    | amAsscaRead32Align =>
      apply Lockstep.mono hserved
      apply asscaAccess_lockstep hA
      intro fd fd' hdata
      have hread (flags : UInt32) : amlibAsscaGetKeyVal .user flags fd.data p1 p2 =
          amlibAsscaGetKeyVal .user 0 fd.data p1 p2 := rfl
      rw [hdata, hread, hread fd'.flags]
      exact .refl _
    | amAsscaWrite32Align =>
      apply Lockstep.mono hserved
      apply asscaAccess_lockstep hA
      intro fd fd' hdata
      rw [hdata, amlibAsscaAddKeyFixfix_alloc henv]
      exact .refl _
    | _ => rfl
  | opOnly =>
    cases h with
    | amTargRelease | amTargOpen | amTargClose => exact ⟨hsame hA, rfl⟩
    | _ => rfl
  | action p1 l1 =>
    cases h with
    | amStataSort =>
      apply Lockstep.mono hserved
      exact amStataSort_lockstep hA henv hK
    | _ => rfl
  | fivo p1 l1 => cases h <;> rfl
  | config => cases h <;> rfl

end Alike

end AppMem.Device
