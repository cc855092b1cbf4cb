import AppMem.Device.Handlers

/-! # What handlers refuse, and what they read

Handlers never compare a request with its length. They refuse a request for what it asks:
a key that is not stored, parameters of a sort that are not accepted. Otherwise a handler
sees a fixed number of bytes behind each of its pointers.
-/
namespace AppMem.Device
open Library.Bytes Library.Checked Abi Memory Hash Pack

section Refusal
variable {env : Env} {f g : MemFunction} {h : DeviceHandler} {c : PackCall} {e : AmReturn}
  {r : Served}

def KeyMissing (pAA : AmlibAssca) (p1 : List UInt8) : Prop :=
  pAA.table = none ∨ ∃ t key, pAA.table = some t ∧ readBytes p1 pAA.keyLen.toNat = .ok key ∧
    hashFind (some t) key = .ok none

/-- Why a sort is refused: its parameters are short or not accepted, its range is empty, or
there is no memory for the merge buffer. -/
inductive SortRefuses (env : Env) (fd : StataData) (p1 : List UInt8) (l1 : UInt64) :
    AmReturn → Prop
  | short (hl : l1.toNat < sizeofSortParam) : SortRefuses env fd p1 l1 amRetParamErr
  | params (hl : sizeofSortParam ≤ l1.toNat) (hp : sizeofSortParam ≤ p1.length)
    (hs : (SortParam.ofBytes (p1.take sizeofSortParam)).accepted fd = false) :
    SortRefuses env fd p1 l1 amRetParamErr
  | empty (s : SortParam) (hl : sizeofSortParam ≤ l1.toNat) (hp : sizeofSortParam ≤ p1.length)
    (hs : SortParam.ofBytes (p1.take sizeofSortParam) = s) (hacc : s.accepted fd = true)
    (hnull : s.startAddr fd ≠ 0 ∧ s.endAddr fd ≠ 0) (hlt : ¬ s.startAddr fd < s.endAddr fd) :
    SortRefuses env fd p1 l1 amRetParamErr
  | noMemory (s : SortParam) (hl : sizeofSortParam ≤ l1.toNat) (hp : sizeofSortParam ≤ p1.length)
    (hs : SortParam.ofBytes (p1.take sizeofSortParam) = s) (hacc : s.accepted fd = true)
    (hnull : s.startAddr fd ≠ 0 ∧ s.endAddr fd ≠ 0) (hlt : s.startAddr fd < s.endAddr fd)
    (haddr : fd.addr ≤ s.startAddr fd) (hm : env.alloc .mergeBuffer = false) :
    SortRefuses env fd p1 l1 amRetAllocErr

inductive DeviceRefuses (env : Env) (f : MemFunction) :
    DeviceHandler → PackCall → AmReturn → Prop
  | noTable (h : DeviceHandler) (p1 p2 : List UInt8)
    (hh : h = .amAsscaRead32Align ∨ h = .amAsscaWrite32Align) (hf : f.pVdF = none) :
    DeviceRefuses env f h (.align p1 p2) amRetInvalidHdl
  | keyMissing (fd : AsscaData) (p1 p2 : List UInt8) (hf : f.pVdF = some (.assca fd))
    (hk : KeyMissing fd.data p1) :
    DeviceRefuses env f .amAsscaRead32Align (.align p1 p2) amRetKeyNotFound
  | noArray (p1 : List UInt8) (l1 : UInt64) (hf : f.pVdF = none) :
    DeviceRefuses env f .amStataSort (.action p1 l1) amRetParamErr
  | sort (fd : StataData) (p1 : List UInt8) (l1 : UInt64) (e : AmReturn)
    (hf : f.pVdF = some (.stata fd)) (hs : SortRefuses env fd p1 l1 e) :
    DeviceRefuses env f .amStataSort (.action p1 l1) e

theorem setPVdF_self {d : FuncData} (hf : f.pVdF = some d) : { f with pVdF := some d } = f := by
  rw [← hf]

theorem SortParam.accepted_dataSize {s : SortParam} {fd : StataData}
    (hacc : s.accepted fd = true) : fd.dataSize ≠ 0 := by
  simp only [SortParam.accepted, Bool.and_eq_true, beq_iff_eq] at hacc
  rw [hacc.2]
  decide

theorem amStataSort_of_params {p1 : List UInt8} {l1 : UInt64} {fd : StataData}
    (hf : f.pVdF = some (.stata fd)) (hl : sizeofSortParam ≤ l1.toNat)
    (hp : sizeofSortParam ≤ p1.length) :
    amStataSort env f p1 l1 =
      if (SortParam.ofBytes (p1.take sizeofSortParam)).accepted fd then
        sortRange env fd ((SortParam.ofBytes (p1.take sizeofSortParam)).startAddr fd)
          ((SortParam.ofBytes (p1.take sizeofSortParam)).endAddr fd) >>= fun r =>
            .ok ({ f with pVdF := some (.stata r.1) }, r.2)
      else .ok (f, { error := amRetParamErr }) := by
  simp only [amStataSort, hf, Nat.not_lt.mpr hl, if_false, readBytes_of_le hp]
  rfl

/-- Only the parameters in front are looked at. -/
theorem SortRefuses.congr {fd : StataData} {p1 p1' : List UInt8} {l1 : UInt64}
    (h : SortRefuses env fd p1 l1 e) (hp' : sizeofSortParam ≤ p1'.length)
    (htake : p1.take sizeofSortParam = p1'.take sizeofSortParam) :
    SortRefuses env fd p1' l1 e := by
  cases h with
  | short hl => exact .short hl
  | params hl hp hs => exact .params hl hp' (htake ▸ hs)
  | empty s hl hp hs hacc hnull hlt => exact .empty s hl hp' (htake ▸ hs) hacc hnull hlt
  | noMemory s hl hp hs hacc hnull hlt haddr hm =>
    exact .noMemory s hl hp' (htake ▸ hs) hacc hnull hlt haddr hm

theorem SortRefuses.served {fd : StataData} {p1 : List UInt8} {l1 : UInt64}
    (hf : f.pVdF = some (.stata fd)) (h : SortRefuses env fd p1 l1 e) :
    amStataSort env f p1 l1 = .ok (f, { error := e }) ∧ e ≠ amRetGood := by
  have hparam : amRetParamErr ≠ amRetGood := by decide
  have halloc : amRetAllocErr ≠ amRetGood := by decide
  cases h with
  | short hl =>
    refine ⟨?_, hparam⟩
    simp only [amStataSort, hf, hl, if_true]
  | params hl hp hs =>
    refine ⟨?_, hparam⟩
    rw [amStataSort_of_params hf hl hp, hs]
    rfl
  | empty s hl hp hs hacc hnull hlt =>
    refine ⟨?_, hparam⟩
    have hrange : sortRange env fd (s.startAddr fd) (s.endAddr fd) =
        .ok (fd, { error := amRetParamErr }) :=
      sortRange_eq_ok.mpr ⟨⟨hnull.1, hnull.2, s.accepted_dataSize hacc⟩, .inl ⟨hlt, rfl, rfl⟩⟩
    rw [amStataSort_of_params hf hl hp, hs, if_pos hacc, hrange, ok_bind, setPVdF_self hf]
  | noMemory s hl hp hs hacc hnull hlt haddr hm =>
    refine ⟨?_, halloc⟩
    have hrange : sortRange env fd (s.startAddr fd) (s.endAddr fd) =
        .ok (fd, { error := amRetAllocErr }) := by
      refine sortRange_eq_ok.mpr ⟨⟨hnull.1, hnull.2, s.accepted_dataSize hacc⟩,
        .inr ⟨hlt, haddr, fd.data, amRetAllocErr, ?_, rfl, rfl⟩⟩
      rw [amStataMergeSortBegin, hm]
      rfl
    rw [amStataSort_of_params hf hl hp, hs, if_pos hacc, hrange, ok_bind, setPVdF_self hf]

theorem sortRefuses_of_error {fd : StataData} {p1 : List UInt8} {l1 : UInt64}
    (hf : f.pVdF = some (.stata fd)) (h : amStataSort env f p1 l1 = .ok (g, r))
    (hr : r.error ≠ amRetGood) : SortRefuses env fd p1 l1 r.error := by
  by_cases hl : sizeofSortParam ≤ l1.toNat
  · by_cases hp : sizeofSortParam ≤ p1.length
    · rw [amStataSort_of_params hf hl hp] at h
      split at h
      · rename_i hacc
        rw [bind_eq_ok] at h
        rcases h with ⟨⟨fd', r'⟩, hrange, h⟩
        cases h
        obtain ⟨hnull, ⟨hlt, -, rfl⟩ | ⟨hlt, haddr, data, error, hsort, -, rfl⟩⟩ :=
          sortRange_eq_ok.mp hrange
        · exact .empty _ hl hp rfl hacc ⟨hnull.1, hnull.2.1⟩ hlt
        · unfold amStataMergeSortBegin at hsort
          split at hsort
          · rw [bind_eq_ok] at hsort
            rcases hsort with ⟨_, -, hsort⟩
            cases hsort
            exact absurd rfl hr
          · rename_i hm
            cases hsort
            exact .noMemory _ hl hp rfl hacc ⟨hnull.1, hnull.2.1⟩ hlt haddr (by simpa using hm)
      · rename_i hacc
        cases h
        exact .params hl hp (by simpa using hacc)
    · simp only [amStataSort, hf, Nat.not_lt.mpr hl, if_false,
        readBytes_of_lt (Nat.not_le.mp hp)] at h
      cases h
  · simp only [amStataSort, hf, Nat.not_le.mp hl, if_true] at h
    cases h
    exact .short (Nat.not_le.mp hl)

/-- A handler that refuses leaves its function alone and writes nothing. -/
theorem DeviceRefuses.served (hr : DeviceRefuses env f h c e) :
    invokeDevice .user env h c f = .ok (f, { error := e }) ∧ e ≠ amRetGood := by
  have hhdl : amRetInvalidHdl ≠ amRetGood := by decide
  have hkey : amRetKeyNotFound ≠ amRetGood := by decide
  have hparam : amRetParamErr ≠ amRetGood := by decide
  cases hr with
  | noTable h p1 p2 hh hf =>
    refine ⟨?_, hhdl⟩
    rcases hh with rfl | rfl
    · exact asscaAccess_eq_ok.mpr (.inl ⟨hf, rfl, rfl⟩)
    · exact asscaAccess_eq_ok.mpr (.inl ⟨hf, rfl, rfl⟩)
  | keyMissing fd p1 p2 hf hk =>
    refine ⟨asscaAccess_eq_ok.mpr (.inr ⟨fd, fd.data, hf, ?_, ?_⟩), hkey⟩
    · rw [amlibAsscaGetKeyVal_eq_ok]
      rcases hk with ht | ⟨t, key, ht, hkey, hfind⟩
      · exact .inl ⟨ht, rfl, rfl⟩
      · exact .inr ⟨t, key, none, ht, hkey, hfind, .inl ⟨rfl, rfl, rfl⟩⟩
    · exact (setPVdF_self hf).symm
  | noArray p1 l1 hf =>
    refine ⟨?_, hparam⟩
    simp only [invokeDevice, amStataSort, hf]
  | sort fd p1 l1 e hf hs => exact hs.served hf

/-- An error comes from a refusal. -/
theorem deviceRefuses_of_error (hi : invokeDevice .user env h c f = .ok (g, r))
    (hr : r.error ≠ amRetGood) : DeviceRefuses env f h c r.error := by
  have hc := invokeDevice_convention hi
  cases c with
  | align p1 p2 =>
    cases h with
    | amFlatRead32Align =>
      rcases flatAccess_eq_ok.mp hi with ⟨fd, fd', -, hop, -⟩
      simp only [bind_eq_ok, pure_eq_ok] at hop
      rcases hop with ⟨_, -, _, -, hop⟩
      cases hop
      exact absurd rfl hr
    | amFlatWrite32Align =>
      rcases flatAccess_eq_ok.mp hi with ⟨fd, fd', -, hop, -⟩
      simp only [bind_eq_ok, pure_eq_ok] at hop
      rcases hop with ⟨_, -, _, -, hop⟩
      cases hop
      exact absurd rfl hr
    | amStataReadIdx32 =>
      rcases stataAccess_eq_ok.mp hi with ⟨fd, fd', -, hop, -⟩
      simp only [bind_eq_ok, pure_eq_ok] at hop
      rcases hop with ⟨_, -, _, -, hop⟩
      cases hop
      exact absurd rfl hr
    | amStataWriteIdx32 =>
      rcases stataAccess_eq_ok.mp hi with ⟨fd, fd', -, hop, -⟩
      simp only [bind_eq_ok, pure_eq_ok] at hop
      rcases hop with ⟨_, -, _, -, hop⟩
      cases hop
      exact absurd rfl hr
    | amAsscaRead32Align =>
      rcases asscaAccess_eq_ok.mp hi with ⟨hf, -, rfl⟩ | ⟨fd, pAA, hf, hop, -⟩
      · exact .noTable _ p1 p2 (.inl rfl) hf
      · rcases amlibAsscaGetKeyVal_eq_ok.mp hop with
          ⟨ht, -, rfl⟩ | ⟨t, key, found, ht, hkey, hfind, ⟨rfl, -, rfl⟩ | ⟨_, _, _, -, -, -, -, rfl⟩⟩
        · exact .keyMissing fd p1 p2 hf (.inl ht)
        · exact .keyMissing fd p1 p2 hf (.inr ⟨t, key, ht, hkey, hfind⟩)
        · exact absurd rfl hr
    | amAsscaWrite32Align =>
      rcases asscaAccess_eq_ok.mp hi with ⟨hf, -, rfl⟩ | ⟨fd, pAA, hf, hop, -⟩
      · exact .noTable _ p1 p2 (.inr rfl) hf
      · obtain ⟨-, rfl, -⟩ := amlibAsscaAddKeyFixfix_eq_ok.mp hop
        exact absurd rfl hr
    | _ => cases hc
  | opOnly =>
    cases h with
    | amTargRelease | amTargOpen | amTargClose =>
      cases hi
      exact absurd rfl hr
    | _ => cases hc
  | action p1 l1 =>
    cases h with
    | amStataSort =>
      cases hf : f.pVdF with
      | none =>
        simp only [invokeDevice, amStataSort, hf] at hi
        cases hi
        exact .noArray p1 l1 hf
      | some d =>
        cases d with
        | stata fd => exact .sort fd p1 l1 _ hf (sortRefuses_of_error hf hi hr)
        | _ =>
          simp only [invokeDevice, amStataSort, hf] at hi
          cases hi
    | _ => cases hc
  | fivo p1 l1 => cases h <;> cases hc
  | config => cases h <;> cases hc

end Refusal

section Reads

/-- Two pointers to objects of one size that agree on their first `k` bytes. -/
def SamePrefix (k : ℕ) (p q : List UInt8) : Prop := p.length = q.length ∧ p.take k = q.take k

theorem SamePrefix.mono {k m : ℕ} {p q : List UInt8} (h : SamePrefix k p q) (hm : m ≤ k) :
    SamePrefix m p q := by
  refine ⟨h.1, ?_⟩
  have ht := congrArg (List.take m) h.2
  rwa [List.take_take, List.take_take, Nat.min_eq_left hm] at ht

theorem SamePrefix.drop {i k : ℕ} {p q : List UInt8} (h : SamePrefix (i + k) p q) :
    SamePrefix k (p.drop i) (q.drop i) := by
  refine ⟨by rw [List.length_drop, List.length_drop, h.1], ?_⟩
  have hd := congrArg (List.drop i) h.2
  rwa [List.drop_take, List.drop_take, Nat.add_sub_cancel_left] at hd

theorem SamePrefix.readBytes {k m : ℕ} {p q : List UInt8} (h : SamePrefix k p q) (hm : m ≤ k) :
    readBytes p m = readBytes q m := by
  simp only [Memory.readBytes, h.1, (h.mono hm).2]

theorem SamePrefix.readU64 {k : ℕ} {p q : List UInt8} (h : SamePrefix k p q) (hm : 8 ≤ k) :
    readU64 p = readU64 q := by
  simp only [Memory.readU64, h.readBytes hm]

def MemFunction.keyLen (f : MemFunction) : ℕ :=
  match f.pVdF with
  | some (.assca fd) => fd.data.keyLen.toNat
  | _ => 0

def MemFunction.dataLen (f : MemFunction) : ℕ :=
  match f.pVdF with
  | some (.assca fd) => fd.data.dataLen.toNat
  | _ => 0

/-- How many bytes a handler takes from behind its first pointer. -/
def DeviceHandler.indexBytes (f : MemFunction) : DeviceHandler → ℕ
  | .amTargRelease | .amTargOpen | .amTargClose => 0
  | .amFlatRead32Align | .amFlatWrite32Align | .amStataReadIdx32 | .amStataWriteIdx32 => 4
  | .amStataSort => sizeofSortParam
  | .amAsscaRead32Align | .amAsscaWrite32Align => f.keyLen

def DeviceHandler.dataBytes (f : MemFunction) : DeviceHandler → ℕ
  | .amFlatWrite32Align | .amStataWriteIdx32 => 4
  | .amAsscaWrite32Align => f.dataLen
  | _ => 0

theorem invokeDevice_align_reads {env : Env} {f : MemFunction} {h : DeviceHandler}
    {p1 p1' p2 p2' : List UInt8}
    (h1 : readBytes p1 (h.indexBytes f) = readBytes p1' (h.indexBytes f))
    (h2 : readBytes p2 (h.dataBytes f) = readBytes p2' (h.dataBytes f)) :
    invokeDevice .user env h (.align p1 p2) f = invokeDevice .user env h (.align p1' p2') f := by
  cases h with
  | amFlatRead32Align =>
    have h4 : readBytes p1 4 = readBytes p1' 4 := h1
    simp only [invokeDevice, amFlatRead32Align, readU32, h4, cellToUser, put32ToUser,
      Build.direct_user, Bool.true_or]
  | amFlatWrite32Align =>
    have h4 : readBytes p1 4 = readBytes p1' 4 := h1
    have hv : readBytes p2 4 = readBytes p2' 4 := h2
    simp only [invokeDevice, amFlatWrite32Align, readU32, h4, cellFromUser, get32FromUser,
      Build.direct_user, if_true, hv]
  | amStataReadIdx32 =>
    have h4 : readBytes p1 4 = readBytes p1' 4 := h1
    simp only [invokeDevice, amStataReadIdx32, readU32, h4, cellToUser, put32ToUser,
      Build.direct_user, Bool.true_or]
  | amStataWriteIdx32 =>
    have h4 : readBytes p1 4 = readBytes p1' 4 := h1
    have hv : readBytes p2 4 = readBytes p2' 4 := h2
    simp only [invokeDevice, amStataWriteIdx32, readU32, h4, cellFromUser, get32FromUser,
      Build.direct_user, if_true, hv]
  | amAsscaRead32Align =>
    simp only [invokeDevice, amAsscaRead32Align, asscaAccess]
    split
    · rfl
    · rename_i fd hfd
      simp only [DeviceHandler.indexBytes, MemFunction.keyLen, hfd] at h1
      rw [amlibAsscaGetKeyVal_congr p2 p2' rfl h1]
    · rfl
  | amAsscaWrite32Align =>
    simp only [invokeDevice, amAsscaWrite32Align, asscaAccess]
    split
    · rfl
    · rename_i fd hfd
      simp only [DeviceHandler.indexBytes, MemFunction.keyLen, hfd] at h1
      simp only [DeviceHandler.dataBytes, MemFunction.dataLen, hfd] at h2
      rw [amlibAsscaAddKeyFixfix_congr h1 h2]
    · rfl
  | _ => rfl

theorem invokeDevice_align_congr {env : Env} {f : MemFunction} {h : DeviceHandler}
    {p1 p1' p2 p2' : List UInt8} (h1 : SamePrefix (h.indexBytes f) p1 p1')
    (h2 : SamePrefix (h.dataBytes f) p2 p2') :
    invokeDevice .user env h (.align p1 p2) f = invokeDevice .user env h (.align p1' p2') f :=
  invokeDevice_align_reads (h1.readBytes (Nat.le_refl _)) (h2.readBytes (Nat.le_refl _))

/-- Memory behind the objects that its pointers lead to is not looked at. -/
theorem invokeDevice_align_append {env : Env} {f : MemFunction} {h : DeviceHandler}
    {p1 p2 : List UInt8} (h1 : h.indexBytes f ≤ p1.length) (h2 : h.dataBytes f ≤ p2.length)
    (b1 b2 : List UInt8) :
    invokeDevice .user env h (.align (p1 ++ b1) (p2 ++ b2)) f =
      invokeDevice .user env h (.align p1 p2) f :=
  invokeDevice_align_reads (readBytes_append h1 b1) (readBytes_append h2 b2)

theorem invokeDevice_action_congr {b : Build} {env : Env} {f : MemFunction} {h : DeviceHandler}
    {p1 p1' : List UInt8} {l1 : UInt64} (h1 : SamePrefix (h.indexBytes f) p1 p1') :
    invokeDevice b env h (.action p1 l1) f = invokeDevice b env h (.action p1' l1) f := by
  cases h with
  | amStataSort =>
    simp only [invokeDevice, amStataSort, h1.readBytes (Nat.le_refl sizeofSortParam)]
  | _ => rfl

end Reads

end AppMem.Device
