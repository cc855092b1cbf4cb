import AppMem.Device.Refusal
import AppMem.Device.SortBounds

/-! # What good handlers have written

When a handler comes back good, and how many bytes it has then stored through its output pointer.
Only opening a function sets a length.
-/
namespace AppMem.Device
open Library.Bytes Library.Checked Abi Memory Hash Pack

section Written
variable {env : Env} {f g : MemFunction} {h : DeviceHandler} {c : PackCall} {n : ℕ} {r : Served}

/-- The sort comes back good: its parameters are accepted, there is memory for the merge buffer, and
the range, of less than 4 GiB, lies inside the storage. -/
structure SortRuns (env : Env) (fd : StataData) (p1 : List UInt8) (l1 : UInt64) (s : SortParam) :
    Prop where
  long : sizeofSortParam ≤ l1.toNat
  present : sizeofSortParam ≤ p1.length
  param : SortParam.ofBytes (p1.take sizeofSortParam) = s
  accepted : s.accepted fd = true
  start : s.startAddr fd ≠ 0
  order : s.startAddr fd < s.endAddr fd
  above : fd.addr ≤ s.startAddr fd
  memory : env.alloc .mergeBuffer = true
  inside : (s.startAddr fd - fd.addr).toNat +
    4 * runLength (s.startAddr fd - fd.addr).toNat (s.endAddr fd - fd.addr).toNat 4 ≤ fd.data.length
  unwrapped : (s.endAddr fd - fd.addr).toNat - (s.startAddr fd - fd.addr).toNat + 4 < 2 ^ 32

/-- The handler comes back good and has written `n` bytes. -/
inductive DeviceWrites (env : Env) (f : MemFunction) : DeviceHandler → PackCall → ℕ → Prop
  | released : DeviceWrites env f .amTargRelease .opOnly 0
  | opened : DeviceWrites env f .amTargOpen .opOnly 0
  | closed : DeviceWrites env f .amTargClose .opOnly 0
  | flatRead (fd : FlatData) (p1 p2 : List UInt8) (hf : f.pVdF = some (.flat fd))
    (h1 : 4 ≤ p1.length) (hin : (u32OfBytes p1).toNat + 4 ≤ fd.data.length) :
    DeviceWrites env f .amFlatRead32Align (.align p1 p2) 4
  | flatWrite (fd : FlatData) (p1 p2 : List UInt8) (hf : f.pVdF = some (.flat fd))
    (h1 : 4 ≤ p1.length) (h2 : 4 ≤ p2.length)
    (hin : (u32OfBytes p1).toNat + 4 ≤ fd.data.length) :
    DeviceWrites env f .amFlatWrite32Align (.align p1 p2) 0
  | stataRead (fd : StataData) (p1 p2 : List UInt8) (hf : f.pVdF = some (.stata fd))
    (h1 : 4 ≤ p1.length) (hin : 4 * (u32OfBytes p1).toNat + 4 ≤ fd.data.length) :
    DeviceWrites env f .amStataReadIdx32 (.align p1 p2) 4
  | stataWrite (fd : StataData) (p1 p2 : List UInt8) (hf : f.pVdF = some (.stata fd))
    (h1 : 4 ≤ p1.length) (h2 : 4 ≤ p2.length)
    (hin : 4 * (u32OfBytes p1).toNat + 4 ≤ fd.data.length) :
    DeviceWrites env f .amStataWriteIdx32 (.align p1 p2) 0
  | sorted (fd : StataData) (p1 : List UInt8) (l1 : UInt64) (s : SortParam)
    (hf : f.pVdF = some (.stata fd)) (hs : SortRuns env fd p1 l1 s) :
    DeviceWrites env f .amStataSort (.action p1 l1) 0
  | asscaRead (fd : AsscaData) (p1 p2 key : List UInt8) (t : Table ℕ) (hd : Handle ℕ)
    (item : AsscaItem) (hf : f.pVdF = some (.assca fd)) (ht : fd.data.table = some t)
    (hkey : readBytes p1 fd.data.keyLen.toNat = .ok key)
    (hfind : hashFind (some t) key = .ok (some hd)) (hitem : fd.data.items[hd.elt]? = some item)
    (hlen : fd.data.dataLen.toNat ≤ item.data.length) :
    DeviceWrites env f .amAsscaRead32Align (.align p1 p2) fd.data.dataLen.toNat
  | asscaLost (fd : AsscaData) (p1 p2 : List UInt8) (hf : f.pVdF = some (.assca fd))
    (hfix : fd.data.bFixedKey = true ∧ fd.data.bFixedData = true)
    (hm : env.alloc .asscaItem = false) :
    DeviceWrites env f .amAsscaWrite32Align (.align p1 p2) 0
  | asscaWrite (fd : AsscaData) (p1 p2 key data : List UInt8) (t : Table ℕ)
    (hf : f.pVdF = some (.assca fd))
    (hfix : fd.data.bFixedKey = true ∧ fd.data.bFixedData = true)
    (hm : env.alloc .asscaItem = true) (hdata : readBytes p2 fd.data.dataLen.toNat = .ok data)
    (hkey : readBytes p1 fd.data.keyLen.toNat = .ok key)
    (ht : hashAddKeyptr env fd.data.table key fd.data.items.length = .ok t) :
    DeviceWrites env f .amAsscaWrite32Align (.align p1 p2) 0

def DeviceHandler.ownLength : DeviceHandler → Option UInt32
  | .amTargOpen => some 8
  | _ => none

theorem sortRange_good_iff {fd : StataData} {s : SortParam} (hacc : s.accepted fd = true) :
    (∃ fd' r, sortRange env fd (s.startAddr fd) (s.endAddr fd) = .ok (fd', r) ∧
      r.error = amRetGood) ↔
    s.startAddr fd ≠ 0 ∧ s.startAddr fd < s.endAddr fd ∧ fd.addr ≤ s.startAddr fd ∧
      ∃ d, amStataMergeSortBegin env fd.data (s.startAddr fd - fd.addr).toNat
        (s.endAddr fd - fd.addr).toNat 4 = .ok (d, amRetGood) := by
  have hsize : fd.dataSize = 4 := by
    simp only [SortParam.accepted, Bool.and_eq_true, beq_iff_eq] at hacc
    exact hacc.2
  have h4 : fd.dataSize.toNat = 4 := by
    rw [hsize]
    rfl
  constructor
  · rintro ⟨fd', r, hrange, hgood⟩
    obtain ⟨⟨hstart, -, -⟩, ⟨-, -, rfl⟩ | ⟨hlt, habove, d, e, hsort, -, rfl⟩⟩ :=
      sortRange_eq_ok.mp hrange
    · cases hgood
    · rw [h4] at hsort
      cases hgood
      exact ⟨hstart, hlt, habove, d, hsort⟩
  · rintro ⟨hstart, hlt, habove, d, hsort⟩
    have hend : s.endAddr fd ≠ 0 := by
      intro h0
      rw [h0] at hlt
      exact absurd hlt (UInt64.not_lt.mpr (UInt64.le_iff_toNat_le.mpr (Nat.zero_le _)))
    refine ⟨_, _, sortRange_eq_ok.mpr ⟨⟨hstart, hend, s.accepted_dataSize hacc⟩,
      .inr ⟨hlt, habove, d, amRetGood, ?_, rfl, rfl⟩⟩, rfl⟩
    rw [h4]
    exact hsort

theorem toNat_sub_lt {a s e : UInt64} (has : a ≤ s) (hse : s < e) :
    (s - a).toNat < (e - a).toNat := by
  have hae : a ≤ e := UInt64.le_trans has (UInt64.le_of_lt hse)
  rw [UInt64.toNat_sub_of_le _ _ has, UInt64.toNat_sub_of_le _ _ hae]
  have h1 := UInt64.le_iff_toNat_le.mp has
  have h2 := UInt64.lt_iff_toNat_lt.mp hse
  omega

theorem amStataSort_good_iff {fd : StataData} {p1 : List UInt8} {l1 : UInt64}
    (hf : f.pVdF = some (.stata fd)) :
    (∃ g r, amStataSort env f p1 l1 = .ok (g, r) ∧ r.error = amRetGood) ↔
      ∃ s, SortRuns env fd p1 l1 s := by
  have hparam : amRetParamErr ≠ amRetGood := by decide
  constructor
  · rintro ⟨g, r, h, hgood⟩
    by_cases hl : sizeofSortParam ≤ l1.toNat
    · by_cases hp : sizeofSortParam ≤ p1.length
      · rw [amStataSort_of_params hf hl hp] at h
        split at h
        · rename_i hacc
          rw [bind_eq_ok] at h
          rcases h with ⟨⟨fd', r'⟩, hrange, h⟩
          cases h
          obtain ⟨hstart, hlt, habove, hsort⟩ := (sortRange_good_iff hacc).mp ⟨_, _, hrange, hgood⟩
          obtain ⟨hm, hin, hwrap⟩ :=
            (amStataMergeSortBegin_good_iff (toNat_sub_lt habove hlt)).mp hsort
          exact ⟨_, hl, hp, rfl, hacc, hstart, hlt, habove, hm, hin, hwrap⟩
        · cases h
          exact absurd hgood hparam
      · simp only [amStataSort, hf, Nat.not_lt.mpr hl, if_false,
          readBytes_of_lt (Nat.not_le.mp hp)] at h
        cases h
    · simp only [amStataSort, hf, Nat.not_le.mp hl, if_true] at h
      cases h
      exact absurd hgood hparam
  · rintro ⟨s, R⟩
    have hsort := (amStataMergeSortBegin_good_iff (toNat_sub_lt R.above R.order)).mpr
      ⟨R.memory, R.inside, R.unwrapped⟩
    obtain ⟨fd', r, hrange, hgood⟩ :=
      (sortRange_good_iff R.accepted).mpr ⟨R.start, R.order, R.above, hsort⟩
    refine ⟨{ f with pVdF := some (.stata fd') }, r, ?_, hgood⟩
    rw [amStataSort_of_params hf R.long R.present, R.param, if_pos R.accepted, hrange, ok_bind]

theorem amStataSort_out {p1 : List UInt8} {l1 : UInt64}
    (h : amStataSort env f p1 l1 = .ok (g, r)) : r.out = [] ∧ r.txBytes = none := by
  rcases amStataSort_cases h with ⟨-, rfl⟩ | ⟨fd, fd', s, -, -, hrange, -⟩
  · exact ⟨rfl, rfl⟩
  · obtain ⟨-, ⟨-, -, rfl⟩ | ⟨-, -, d, e, -, -, rfl⟩⟩ := sortRange_eq_ok.mp hrange
    · exact ⟨rfl, rfl⟩
    · exact ⟨rfl, rfl⟩

section Cells
variable {σ : Type} {fd fd' : σ} {flags : UInt32} {data p1 p2 : List UInt8} (cell : UInt32 → ℕ)

/-- A cell is sent when its index is there and the cell lies inside the storage. -/
theorem cellRead_eq_ok :
    (readU32 p1 >>= fun i => cellToUser .user flags data (cell i) p2 >>= fun out =>
        (.ok (fd, { error := amRetGood, out := out }) : Exec (σ × Served))) = .ok (fd', r) ↔
      4 ≤ p1.length ∧ cell (u32OfBytes p1) + 4 ≤ data.length ∧ fd' = fd ∧
        r = { error := amRetGood, out := window data (cell (u32OfBytes p1)) 4 } := by
  simp only [bind_eq_ok, readU32_eq_ok, cellToUser_eq_ok (Build.direct_user flags)]
  constructor
  · rintro ⟨_, ⟨h1, rfl⟩, _, ⟨hin, rfl⟩, h⟩
    cases h
    exact ⟨h1, hin, rfl, rfl⟩
  · rintro ⟨h1, hin, rfl, rfl⟩
    exact ⟨_, ⟨h1, rfl⟩, _, ⟨hin, rfl⟩, rfl⟩

theorem cellWrite_eq_ok {k : List UInt8 → σ} :
    (readU32 p1 >>= fun i => cellFromUser .user flags data (cell i) p2 >>= fun data =>
        (.ok (k data, { error := amRetGood }) : Exec (σ × Served))) = .ok (fd', r) ↔
      4 ≤ p1.length ∧ 4 ≤ p2.length ∧ cell (u32OfBytes p1) + 4 ≤ data.length ∧
        fd' = k (splice data (cell (u32OfBytes p1)) (p2.take 4)) ∧ r = { error := amRetGood } := by
  simp only [bind_eq_ok, readU32_eq_ok, cellFromUser_eq_ok (Build.direct_user flags)]
  constructor
  · rintro ⟨_, ⟨h1, rfl⟩, _, ⟨h2, hin, rfl⟩, h⟩
    cases h
    exact ⟨h1, h2, hin, rfl, rfl⟩
  · rintro ⟨h1, h2, hin, rfl, rfl⟩
    exact ⟨_, ⟨h1, rfl⟩, _, ⟨h2, hin, rfl⟩, rfl⟩

end Cells

theorem DeviceWrites.served (hw : DeviceWrites env f h c n) :
    ∃ g r, invokeDevice .user env h c f = .ok (g, r) ∧ r.error = amRetGood ∧ r.out.length = n ∧
      r.txBytes = h.ownLength := by
  cases hw with
  | released => exact ⟨f, _, rfl, rfl, rfl, rfl⟩
  | opened => exact ⟨f, _, rfl, rfl, rfl, rfl⟩
  | closed => exact ⟨f, _, rfl, rfl, rfl, rfl⟩
  | flatRead fd p1 p2 hf h1 hin =>
    exact ⟨_, _, flatAccess_eq_ok.mpr ⟨fd, fd, hf,
      (cellRead_eq_ok UInt32.toNat).mpr ⟨h1, hin, rfl, rfl⟩, rfl⟩, rfl, length_window hin, rfl⟩
  | flatWrite fd p1 p2 hf h1 h2 hin =>
    exact ⟨_, _, flatAccess_eq_ok.mpr ⟨fd, _, hf,
      (cellWrite_eq_ok UInt32.toNat).mpr ⟨h1, h2, hin, rfl, rfl⟩, rfl⟩, rfl, rfl, rfl⟩
  | stataRead fd p1 p2 hf h1 hin =>
    exact ⟨_, _, stataAccess_eq_ok.mpr ⟨fd, fd, hf,
      (cellRead_eq_ok fun i => 4 * i.toNat).mpr ⟨h1, hin, rfl, rfl⟩, rfl⟩,
      rfl, length_window hin, rfl⟩
  | stataWrite fd p1 p2 hf h1 h2 hin =>
    exact ⟨_, _, stataAccess_eq_ok.mpr ⟨fd, _, hf,
      (cellWrite_eq_ok fun i => 4 * i.toNat).mpr ⟨h1, h2, hin, rfl, rfl⟩, rfl⟩,
      rfl, rfl, rfl⟩
  | sorted fd p1 l1 s hf hs =>
    obtain ⟨g, r, hsort, hgood⟩ := (amStataSort_good_iff hf).mpr ⟨s, hs⟩
    obtain ⟨hout, htx⟩ := amStataSort_out hsort
    exact ⟨g, r, hsort, hgood, by rw [hout]; rfl, htx⟩
  | asscaRead fd p1 p2 key t hd item hf ht hkey hfind hitem hlen =>
    have hcopy : copyToUser .user fd.flags p2 item.data fd.data.dataLen.toNat =
        .ok (item.data.take fd.data.dataLen.toNat, item.data) := by
      rw [copyToUser_direct (Build.direct_user fd.flags), readBytes_of_le hlen, ok_bind]
    exact ⟨_, _, asscaAccess_eq_ok.mpr (.inr ⟨fd, _, hf, amlibAsscaGetKeyVal_eq_ok.mpr
      (.inr ⟨t, key, some hd, ht, hkey, hfind, .inr ⟨hd, item, _, rfl, hitem, hcopy, rfl, rfl⟩⟩),
      rfl⟩), rfl, List.length_take_of_le hlen, rfl⟩
  | asscaLost fd p1 p2 hf hfix hm =>
    exact ⟨_, _, asscaAccess_eq_ok.mpr (.inr ⟨fd, _, hf, amlibAsscaAddKeyFixfix_eq_ok.mpr
      ⟨hfix, rfl, .inl ⟨hm, rfl⟩⟩, rfl⟩), rfl, rfl, rfl⟩
  | asscaWrite fd p1 p2 key data t hf hfix hm hdata hkey ht =>
    exact ⟨_, _, asscaAccess_eq_ok.mpr (.inr ⟨fd, _, hf, amlibAsscaAddKeyFixfix_eq_ok.mpr
      ⟨hfix, rfl, .inr ⟨data, key, t, hm, hdata, hkey, ht, rfl⟩⟩, rfl⟩), rfl, rfl, rfl⟩

section Good

theorem deviceWrites_of_asscaRead {p1 p2 : List UInt8}
    (hi : amAsscaRead32Align .user f p1 p2 = .ok (g, r)) (hr : r.error = amRetGood) :
    DeviceWrites env f .amAsscaRead32Align (.align p1 p2) r.out.length ∧ r.txBytes = none := by
  rcases asscaAccess_eq_ok.mp hi with ⟨-, -, rfl⟩ | ⟨fd, pAA, hf, hop, -⟩
  · cases hr
  · rcases amlibAsscaGetKeyVal_eq_ok.mp hop with ⟨-, -, rfl⟩ |
      ⟨t, key, found, ht, hkey, hfind, ⟨-, -, rfl⟩ | ⟨hd, item, v, rfl, hitem, hv, -, rfl⟩⟩
    · cases hr
    · cases hr
    · rw [copyToUser_direct (Build.direct_user fd.flags), bind_eq_ok] at hv
      rcases hv with ⟨w, hw, hv⟩
      cases hv
      obtain ⟨hlen, rfl⟩ := readBytes_eq_ok.mp hw
      refine ⟨?_, rfl⟩
      dsimp only
      rw [List.length_take_of_le hlen]
      exact .asscaRead fd p1 p2 key t hd item hf ht hkey hfind hitem hlen

theorem deviceWrites_of_asscaWrite {p1 p2 : List UInt8}
    (hi : amAsscaWrite32Align env f p1 p2 = .ok (g, r)) (hr : r.error = amRetGood) :
    DeviceWrites env f .amAsscaWrite32Align (.align p1 p2) r.out.length ∧ r.txBytes = none := by
  rcases asscaAccess_eq_ok.mp hi with ⟨-, -, rfl⟩ | ⟨fd, pAA, hf, hop, -⟩
  · cases hr
  · rcases amlibAsscaAddKeyFixfix_eq_ok.mp hop with
      ⟨hfix, rfl, ⟨hm, -⟩ | ⟨data, key, t, hm, hdata, hkey, ht, -⟩⟩
    · exact ⟨.asscaLost fd p1 p2 hf hfix hm, rfl⟩
    · exact ⟨.asscaWrite fd p1 p2 key data t hf hfix hm hdata hkey ht, rfl⟩

theorem deviceWrites_of_sort {p1 : List UInt8} {l1 : UInt64}
    (hi : amStataSort env f p1 l1 = .ok (g, r)) (hr : r.error = amRetGood) :
    DeviceWrites env f .amStataSort (.action p1 l1) r.out.length ∧ r.txBytes = none := by
  obtain ⟨hout, htx⟩ := amStataSort_out hi
  cases hf : f.pVdF with
  | none =>
    simp only [amStataSort, hf] at hi
    cases hi
    cases hr
  | some d =>
    cases d with
    | stata fd =>
      obtain ⟨s, R⟩ := (amStataSort_good_iff hf).mp ⟨g, r, hi, hr⟩
      rw [hout]
      exact ⟨.sorted fd p1 l1 s hf R, htx⟩
    | raw | flat fd | assca fd =>
      simp only [amStataSort, hf] at hi
      cases hi

/-- A good handler has written what `DeviceWrites` says. -/
theorem deviceWrites_of_good (hi : invokeDevice .user env h c f = .ok (g, r))
    (hr : r.error = amRetGood) :
    DeviceWrites env f h c r.out.length ∧ r.txBytes = h.ownLength := by
  have hc := invokeDevice_convention hi
  cases c with
  | align p1 p2 =>
    cases h with
    | amFlatRead32Align =>
      rcases flatAccess_eq_ok.mp hi with ⟨fd, fd', hf, hop, -⟩
      obtain ⟨h1, hin, -, rfl⟩ := (cellRead_eq_ok UInt32.toNat).mp hop
      refine ⟨?_, rfl⟩
      dsimp only
      rw [length_window hin]
      exact .flatRead fd p1 p2 hf h1 hin
    | amFlatWrite32Align =>
      rcases flatAccess_eq_ok.mp hi with ⟨fd, fd', hf, hop, -⟩
      obtain ⟨h1, h2, hin, -, rfl⟩ := (cellWrite_eq_ok UInt32.toNat).mp hop
      exact ⟨.flatWrite fd p1 p2 hf h1 h2 hin, rfl⟩
    | amStataReadIdx32 =>
      rcases stataAccess_eq_ok.mp hi with ⟨fd, fd', hf, hop, -⟩
      obtain ⟨h1, hin, -, rfl⟩ := (cellRead_eq_ok fun i => 4 * i.toNat).mp hop
      refine ⟨?_, rfl⟩
      dsimp only
      rw [length_window hin]
      exact .stataRead fd p1 p2 hf h1 hin
    | amStataWriteIdx32 =>
      rcases stataAccess_eq_ok.mp hi with ⟨fd, fd', hf, hop, -⟩
      obtain ⟨h1, h2, hin, -, rfl⟩ := (cellWrite_eq_ok fun i => 4 * i.toNat).mp hop
      exact ⟨.stataWrite fd p1 p2 hf h1 h2 hin, rfl⟩
    | amAsscaRead32Align => exact deviceWrites_of_asscaRead hi hr
    | amAsscaWrite32Align => exact deviceWrites_of_asscaWrite hi hr
    | _ => cases hc
  | opOnly =>
    cases h with
    | amTargRelease =>
      cases hi
      exact ⟨.released, rfl⟩
    | amTargOpen =>
      cases hi
      exact ⟨.opened, rfl⟩
    | amTargClose =>
      cases hi
      exact ⟨.closed, rfl⟩
    | _ => cases hc
  | action p1 l1 =>
    cases h with
    | amStataSort => exact deviceWrites_of_sort hi hr
    | _ => cases hc
  | fivo p1 l1 => cases h <;> cases hc
  | config => cases h <;> cases hc

end Good

end Written

end AppMem.Device
