import AppMem.Assca.DriverReads

/-! # One iterator alone

The table is built by any uses of the array in the library. Then one caller asks for a new
iterator and calls with the handle it was given, and nobody else does anything. Call `k` is
given entry `k`, and from the end on every call says that it is done.
-/
namespace AppMem.Assca
open Library.Checked Abi Memory Device Pack

section Building
variable {pAA pAA' : AmlibAssca} {f g : MemFunction} {fd : AsscaData} {use : AsscaUse}

abbrev Entry := List UInt8 × List UInt8

/-- The entry that a use adds to an array of these widths: a write for which there is memory adds
the key and the value. -/
def AsscaUse.adds (kl dl : ℕ) : AsscaUse → Option Entry
  | .write env p1 p2 => if env.alloc .asscaItem then some (p1.take kl, p2.take dl) else none
  | _ => none

def inserted (kl dl : ℕ) (uses : List AsscaUse) : List Entry := uses.filterMap (AsscaUse.adds kl dl)

theorem access_read_eq (S : Sized pAA) (K : Keyed pAA) (hread : use.isRead = true) {r : UseResult}
    (h : access .user 0 pAA use = .ok (pAA', r)) :
    ∃ cursors, pAA' = { pAA with pIterArray := cursors } := by
  cases ho : handed pAA use with
  | none =>
    rcases access_of_not_handed hread ho with ⟨e, he⟩ | ⟨cursors, err, hdl, -, hok⟩
    · rw [he] at h
      cases h
    · rw [hok] at h
      cases h
      exact ⟨cursors, rfl⟩
  | some o =>
    obtain ⟨cursors, hdl, hok⟩ := access_mapped S K (Build.direct_user 0) ho
    rw [hok, bind_eq_ok] at h
    rcases h with ⟨buf1, -, h⟩
    rw [bind_eq_ok] at h
    rcases h with ⟨buf2, -, h⟩
    cases h
    exact ⟨cursors, rfl⟩

/-- In the library one use keeps the widths and appends what it adds. -/
theorem access_entries (S : Sized pAA) (K : Keyed pAA) {r : UseResult}
    (h : access .user 0 pAA use = .ok (pAA', r)) :
    (pAA'.keyLen = pAA.keyLen ∧ pAA'.dataLen = pAA.dataLen) ∧ entries pAA' =
      entries pAA ++ (use.adds pAA.keyLen.toNat pAA.dataLen.toNat).toList := by
  cases hread : use.isRead with
  | true =>
    obtain ⟨cursors, rfl⟩ := access_read_eq S K hread h
    have hadds : use.adds pAA.keyLen.toNat pAA.dataLen.toNat = none := by
      cases use with
      | write env p1 p2 => cases hread
      | read p1 p2 => rfl
      | iter p1 l1 p2 l2 h => rfl
    rw [hadds, Option.toList_none, List.append_nil]
    exact ⟨⟨rfl, rfl⟩, rfl⟩
  | false =>
    cases use with
    | read p1 p2 => cases hread
    | iter p1 l1 p2 l2 h => cases hread
    | write env p1 p2 =>
      rw [access, bind_eq_ok] at h
      rcases h with ⟨⟨pAA₁, r₁⟩, hadd, h⟩
      cases h
      rcases (amlibAsscaAddKeyFixfix_eq_ok.mp hadd).2.2 with
        ⟨hno, rfl⟩ | ⟨data, key, t, hyes, hdata, hkey, -, rfl⟩
      · rw [AsscaUse.adds, hno, if_neg Bool.false_ne_true, Option.toList_none, List.append_nil]
        exact ⟨⟨rfl, rfl⟩, rfl⟩
      · rw [AsscaUse.adds, hyes, if_pos rfl, Option.toList_some, ← (readBytes_eq_ok.mp hkey).2,
          ← (readBytes_eq_ok.mp hdata).2]
        exact ⟨⟨rfl, rfl⟩, by rw [entries, entries, List.map_append, List.map_singleton]⟩

structure HasEntries (f : MemFunction) (keyLen dataLen : UInt32) (es : List Entry) : Prop where
  intact : Intact f
  data : ∃ fd, f.pVdF = some (.assca fd) ∧ fd.data.keyLen = keyLen ∧ fd.data.dataLen = dataLen ∧
    entries fd.data = es

variable {keyLen dataLen : UInt32} {es : List Entry}

theorem HasEntries.of_data (H : HasEntries f keyLen dataLen es) (hf : f.pVdF = some (.assca fd)) :
    Sized fd.data ∧ fd.data.keyLen = keyLen ∧ fd.data.dataLen = dataLen ∧
      entries fd.data = es := by
  rcases H.intact with ⟨fd', hf', S, -⟩
  cases hf.symm.trans hf'
  rcases H.data with ⟨fd', hf', hdata⟩
  cases hf.symm.trans hf'
  exact ⟨S, hdata⟩

theorem hasEntries_init {bFixedKey bFixedData : Bool} (hf : f.pVdF = some (.assca fd))
    (hinit : fd.data = amlibAsscaInit keyLen dataLen bFixedKey bFixedData) :
    HasEntries f keyLen dataLen [] := by
  constructor
  · exact ⟨fd, hf, hinit ▸ sized_init _ _ _ _, hinit ▸ keyed_init _ _ _ _⟩
  · exact ⟨fd, hf, hinit ▸ rfl, hinit ▸ rfl, hinit ▸ rfl⟩

theorem HasEntries.step (H : HasEntries f keyLen dataLen es) {r : UseResult}
    (h : useStep .user f use = .ok (g, r)) :
    HasEntries g keyLen dataLen (es ++ (use.adds keyLen.toNat dataLen.toNat).toList) := by
  constructor
  · exact H.intact.step h
  · rcases H.intact with ⟨fd, hf, S, K⟩
    obtain ⟨-, rfl, rfl, rfl⟩ := H.of_data hf
    rw [useStep_eq hf, access_direct (Build.direct_user fd.flags), bind_eq_ok] at h
    rcases h with ⟨⟨pAA, r'⟩, haccess, h⟩
    cases h
    obtain ⟨⟨hk, hd⟩, hentries⟩ := access_entries S K haccess
    exact ⟨_, rfl, hk, hd, hentries⟩

/-- After any uses in the library the entries are those that were inserted, in this order. -/
theorem HasEntries.run {uses : List AsscaUse} (H : HasEntries f keyLen dataLen es)
    {os : List UseResult} (h : trace (useStep .user) f uses = .ok (g, os)) :
    HasEntries g keyLen dataLen (es ++ inserted keyLen.toNat dataLen.toNat uses) := by
  induction uses generalizing f es os with
  | nil =>
    cases h
    rwa [inserted, List.filterMap_nil, List.append_nil]
  | cons use uses ih =>
    rw [trace_cons, bind_eq_ok] at h
    rcases h with ⟨⟨f₁, o⟩, hstep, h⟩
    rw [bind_eq_ok] at h
    rcases h with ⟨⟨g', os'⟩, hrest, h⟩
    cases h
    have hrun := ih (H.step hstep) hrest
    rw [List.append_assoc] at hrun
    have hcons : inserted keyLen.toNat dataLen.toNat (use :: uses) =
        (use.adds keyLen.toNat dataLen.toNat).toList ++
          inserted keyLen.toNat dataLen.toNat uses := by
      rw [inserted, inserted, List.filterMap_cons]
      cases use.adds keyLen.toNat dataLen.toNat with
      | none => rfl
      | some e => rfl
    rwa [hcons]

end Building

section Iterating
variable {f : MemFunction} {fd : AsscaData} {i : Fin maxAsscaIters}

/-- One call of the caller: its buffers vary, its handle is the one it was given last. -/
def iterCall (l1 l2 : UInt64) (s : MemFunction × UInt32) (bufs : List UInt8 × List UInt8) :
    Exec ((MemFunction × UInt32) × IterResult) := do
  let r ← amAsscaIter .user s.1 bufs.1 l1 bufs.2 l2 s.2
  return ((r.1, r.2.handle), r.2)

/-- What call `k` is given: entry `k` as long as there is one. -/
def delivery (i : Fin maxAsscaIters) (es : List Entry) (k : ℕ) : IterResult :=
  match es[k]? with
  | some e => ⟨amRetGood, iterHandle i, e.1, e.2⟩
  | none => ⟨amRetIterDone, iterHandle i, [], []⟩

/-- The function and the caller's handle after `k` calls: only cursor `i` has moved. -/
def afterCalls (f : MemFunction) (fd : AsscaData) (i : Fin maxAsscaIters) (k : ℕ) :
    MemFunction × UInt32 :=
  if k = 0 then (f, asscaIterFlagNew)
  else (f.setAssca fd (fd.data.setCursor i (cursorAt fd.data k)), iterHandle i)

theorem setCursor_setCursor (pAA : AmlibAssca) (c c' : Option ℕ) :
    (pAA.setCursor i c).setCursor i c' = pAA.setCursor i c' := by
  simp [AmlibAssca.setCursor]

theorem setCursor_eq_self {pAA : AmlibAssca} {c : Option ℕ} (h : pAA.pIterArray i = c) :
    pAA.setCursor i c = pAA := by
  rw [AmlibAssca.setCursor, ← h, Function.update_eq_self]

theorem getElem?_entries (pAA : AmlibAssca) (k : ℕ) :
    (entries pAA)[k]? = pAA.items[k]?.map fun pAI => (pAI.key, pAI.data) := List.getElem?_map

theorem amAsscaIter_eq (hf : f.pVdF = some (.assca fd)) (p1 p2 : List UInt8) (l1 l2 : UInt64)
    (h : UInt32) : amAsscaIter .user f p1 l1 p2 l2 h =
      asscaIter .user fd.flags fd.data p1 l1 p2 l2 h >>= fun r => .ok (f.setAssca fd r.1, r.2) := by
  simp only [amAsscaIter, hf]
  rfl

theorem iterCall_first (hf : f.pVdF = some (.assca fd)) (S : Sized fd.data)
    (hfree : freeCursor fd.data = some i) (bufs : List UInt8 × List UInt8) :
    iterCall fd.data.keyLen.toUInt64 fd.data.dataLen.toUInt64 (f, asscaIterFlagNew) bufs =
      .ok (afterCalls f fd i 1, delivery i (entries fd.data) 0) := by
  have hget : amAsscaGetIter fd.data asscaIterFlagNew = iterHandle i := by
    rw [amAsscaGetIter_new, hfree]
  have hvalid : amAsscaGetIter fd.data asscaIterFlagNew ≠ asscaIterInvalid := by
    rw [hget]
    exact iterHandle_ne_invalid i
  have hhead : asscaIterFlagNew &&& (asscaIterFlagReset ||| asscaIterFlagNew) ≠ 0 := by decide
  rw [iterCall, amAsscaIter_eq hf, afterCalls, if_neg Nat.one_ne_zero, delivery, getElem?_entries]
  by_cases hitems : fd.data.items = []
  · have hcur : cursorAt fd.data 1 = none := if_neg (by simp [hitems])
    rw [asscaIter_end hvalid (by rw [if_pos hhead, if_pos hitems]), hget, hcur,
      setCursor_eq_self (freeCursor_eq_some hfree), hitems]
    rfl
  · have hpos := List.length_pos_iff.mpr hitems
    have hitem := List.getElem?_eq_getElem hpos
    rw [asscaIter_item (Build.direct_user _) S hvalid (by rw [if_pos hhead, if_neg hitems]) hitem,
      hget, getIterIdx_iterHandle, next_eq_cursorAt, hitem]
    rfl

theorem iterCall_next (f : MemFunction) (S : Sized fd.data) {k : ℕ} (hk : k ≠ 0)
    (bufs : List UInt8 × List UInt8) :
    iterCall fd.data.keyLen.toUInt64 fd.data.dataLen.toUInt64 (afterCalls f fd i k) bufs =
      .ok (afterCalls f fd i (k + 1), delivery i (entries fd.data) k) := by
  rw [afterCalls, if_neg hk, afterCalls, if_neg (Nat.succ_ne_zero k), delivery, getElem?_entries]
  generalize hAA : fd.data.setCursor i (cursorAt fd.data k) = pAA
  have hitems : pAA.items = fd.data.items := by rw [← hAA, setCursor_items]
  have hwidths : pAA.keyLen = fd.data.keyLen ∧ pAA.dataLen = fd.data.dataLen := by
    rw [← hAA]
    exact ⟨rfl, rfl⟩
  have S' : Sized pAA := by
    rw [← hAA]
    exact S
  have hcursor : (if iterHandle i &&& (asscaIterFlagReset ||| asscaIterFlagNew) ≠ 0 then
      (if pAA.items = [] then none else some 0)
      else pAA.pIterArray (getIterIdx (amAsscaGetIter pAA (iterHandle i)))) =
        cursorAt fd.data k := by
    rw [if_neg (iterHandle_not_head i), amAsscaGetIter_iterHandle, getIterIdx_iterHandle, ← hAA,
      setCursor_self]
  have hvalid : amAsscaGetIter pAA (iterHandle i) ≠ asscaIterInvalid := by
    rw [amAsscaGetIter_iterHandle]
    exact iterHandle_ne_invalid i
  have hdata : (f.setAssca fd pAA).pVdF = some (.assca { fd with data := pAA }) := rfl
  rw [iterCall, amAsscaIter_eq hdata, ← hwidths.1, ← hwidths.2]
  dsimp only
  by_cases hlt : k < fd.data.items.length
  · have hitem := List.getElem?_eq_getElem hlt
    have hitem' : pAA.items[k]? = some fd.data.items[k] := by rw [hitems, hitem]
    rw [cursorAt, if_pos hlt] at hcursor
    rw [asscaIter_item (Build.direct_user _) S' hvalid hcursor hitem',
      amAsscaGetIter_iterHandle, getIterIdx_iterHandle, next_eq_cursorAt, hitem, ← hAA,
      setCursor_setCursor]
    rfl
  · have hend : ∀ m, k ≤ m → cursorAt fd.data m = none := fun m hm => if_neg (by omega)
    rw [hend k (Nat.le_refl k)] at hcursor hAA
    rw [asscaIter_end hvalid hcursor, amAsscaGetIter_iterHandle, hend (k + 1) (Nat.le_succ k), hAA,
      List.getElem?_eq_none (Nat.not_lt.mp hlt)]
    rfl

theorem iterCall_after (hf : f.pVdF = some (.assca fd)) (S : Sized fd.data)
    (hfree : freeCursor fd.data = some i) (k : ℕ) (bufs : List UInt8 × List UInt8) :
    iterCall fd.data.keyLen.toUInt64 fd.data.dataLen.toUInt64 (afterCalls f fd i k) bufs =
      .ok (afterCalls f fd i (k + 1), delivery i (entries fd.data) k) := by
  cases k with
  | zero => exact iterCall_first hf S hfree bufs
  | succ k => exact iterCall_next f S (Nat.succ_ne_zero k) bufs

theorem trace_iterCall (hf : f.pVdF = some (.assca fd)) (S : Sized fd.data)
    (hfree : freeCursor fd.data = some i) (k : ℕ) (bufs : List (List UInt8 × List UInt8)) :
    trace (iterCall fd.data.keyLen.toUInt64 fd.data.dataLen.toUInt64) (afterCalls f fd i k) bufs =
      .ok (afterCalls f fd i (k + bufs.length),
        (List.range' k bufs.length).map (delivery i (entries fd.data))) := by
  induction bufs generalizing k with
  | nil => rfl
  | cons buf bufs ih =>
    rw [trace_cons, iterCall_after hf S hfree, ok_bind, ih (k + 1), ok_bind, List.length_cons,
      List.range'_succ, List.map_cons, Nat.add_right_comm, Nat.add_assoc]

theorem HasEntries.trace_iterCall {keyLen dataLen : UInt32} {es : List Entry}
    (H : HasEntries f keyLen dataLen es) (hf : f.pVdF = some (.assca fd))
    (hfree : freeCursor fd.data = some i) (bufs : List (List UInt8 × List UInt8)) :
    trace (iterCall keyLen.toUInt64 dataLen.toUInt64) (f, asscaIterFlagNew) bufs =
      .ok (afterCalls f fd i bufs.length, (List.range bufs.length).map (delivery i es)) := by
  obtain ⟨S, rfl, rfl, rfl⟩ := H.of_data hf
  have htrace := Assca.trace_iterCall hf S hfree 0 bufs
  rwa [afterCalls, if_pos rfl, Nat.zero_add, ← List.range_eq_range'] at htrace

/-- All entries are given out before the first end. -/
theorem delivery_range (i : Fin maxAsscaIters) (es : List Entry) (n : ℕ) :
    (List.range (es.length + n)).map (delivery i es) =
      es.map (fun e => ⟨amRetGood, iterHandle i, e.1, e.2⟩) ++
        List.replicate n ⟨amRetIterDone, iterHandle i, [], []⟩ := by
  rw [List.range_add, List.map_append, List.map_map]
  congr 1
  · apply List.ext_getElem
    · simp
    · intro k hk hk'
      have hlt : k < es.length := by simpa using hk
      simp [delivery, List.getElem?_eq_getElem hlt]
  · rw [List.eq_replicate_iff]
    constructor
    · simp
    · intro r hr
      obtain ⟨k, -, rfl⟩ := List.mem_map.mp hr
      simp [delivery]

/-- On a table built by any uses, a new iterator that has a cursor is given every entry once, in the
order in which they were inserted, and then the end, for as long as it calls. Nothing but its cursor
moves, its handle stays, and its cursor is free again after the last entry. -/
theorem loneIterator_complete {f₀ : MemFunction} {fd₀ : AsscaData} {keyLength dataLength : UInt32}
    {bFixedKey bFixedData : Bool} (hf₀ : f₀.pVdF = some (.assca fd₀))
    (hinit : fd₀.data = amlibAsscaInit keyLength dataLength bFixedKey bFixedData)
    {uses : List AsscaUse} {os : List UseResult} (hrun : trace (useStep .user) f₀ uses = .ok (f, os))
    (hf : f.pVdF = some (.assca fd)) (hfree : ∃ i, fd.data.pIterArray i = none) :
    ∃ i, fd.data.pIterArray i = none ∧ ∀ bufs : List (List UInt8 × List UInt8), ∃ c,
      trace (iterCall keyLength.toUInt64 dataLength.toUInt64) (f, asscaIterFlagNew) bufs =
        .ok ((f.setAssca fd (fd.data.setCursor i c),
            if bufs.length = 0 then asscaIterFlagNew else iterHandle i),
          (List.range bufs.length).map
            (delivery i (inserted keyLength.toNat dataLength.toNat uses))) ∧
      ((inserted keyLength.toNat dataLength.toNat uses).length ≤ bufs.length → c = none) := by
  have H := (hasEntries_init hf₀ hinit).run hrun
  rw [List.nil_append] at H
  obtain ⟨-, -, -, hentries⟩ := H.of_data hf
  have hsome : freeCursor fd.data ≠ none := fun hnone =>
    hfree.elim fun i hi => freeCursor_eq_none.mp hnone i hi
  obtain ⟨i, hi⟩ := Option.ne_none_iff_exists'.mp hsome
  have hlen : (inserted keyLength.toNat dataLength.toNat uses).length = fd.data.items.length := by
    rw [← hentries, entries, List.length_map]
  refine ⟨i, freeCursor_eq_some hi, fun bufs => ?_⟩
  have htrace := H.trace_iterCall hf hi bufs
  by_cases hnil : bufs.length = 0
  · refine ⟨none, ?_, fun _ => rfl⟩
    rw [htrace, afterCalls, if_pos hnil, if_pos hnil, setCursor_eq_self (freeCursor_eq_some hi),
      setAssca_self hf]
  · refine ⟨cursorAt fd.data bufs.length, ?_, fun hle => if_neg (by omega)⟩
    rw [htrace, afterCalls, if_neg hnil, if_neg hnil]

end Iterating

section Instances

def cursors (f : MemFunction) : Option (List (Option ℕ)) :=
  match f.pVdF with
  | some (.assca fd) => some (List.ofFn fd.data.pIterArray)
  | _ => none

theorem of_cursors {f : MemFunction} {l : List (Option ℕ)} (h : cursors f = some l) :
    ∃ fd, f.pVdF = some (.assca fd) ∧ l = List.ofFn fd.data.pIterArray := by
  unfold cursors at h
  split at h
  · rename_i fd hf
    exact ⟨fd, hf, (Option.some.inj h).symm⟩
  · cases h

def twoWrites : List AsscaUse :=
  [.write .zeroed [1, 1, 1, 1] [10, 0, 0, 0], .write .zeroed [2, 2, 2, 2] [20, 0, 0, 0]]

/-- Four calls on two entries. -/
theorem loneIterator_complete_twoWrites : ∃ (f : MemFunction) (os : List UseResult),
    trace (useStep .user) (asscaFour 0) twoWrites = .ok (f, os) ∧ ∃ (g : MemFunction) (h : UInt32),
      trace (iterCall 4 4) (f, asscaIterFlagNew) (List.replicate 4 ([], [])) = .ok ((g, h),
        [⟨amRetGood, h, [1, 1, 1, 1], [10, 0, 0, 0]⟩, ⟨amRetGood, h, [2, 2, 2, 2], [20, 0, 0, 0]⟩,
          ⟨amRetIterDone, h, [], []⟩, ⟨amRetIterDone, h, [], []⟩]) := by
  have hbuilt : (trace (useStep .user) (asscaFour 0) twoWrites).map (fun r => cursors r.1) =
      .ok (some [none, none, none, none]) := by decide +kernel
  cases hrun : trace (useStep .user) (asscaFour 0) twoWrites with
  | error e =>
    rw [hrun] at hbuilt
    cases hbuilt
  | ok r =>
    rw [hrun] at hbuilt
    obtain ⟨fd, hf, hfree⟩ := of_cursors (Except.ok.inj hbuilt)
    have hcursor : fd.data.pIterArray (getIterIdx 0) = none := by
      have hmem : fd.data.pIterArray (getIterIdx 0) ∈ [none, none, none, none] := by
        rw [hfree]
        exact List.mem_ofFn.mpr ⟨getIterIdx 0, rfl⟩
      simpa using hmem
    obtain ⟨i, -, hcalls⟩ := loneIterator_complete rfl rfl hrun hf ⟨getIterIdx 0, hcursor⟩
    obtain ⟨c, htrace, -⟩ := hcalls (List.replicate 4 ([], []))
    exact ⟨r.1, r.2, rfl, _, iterHandle i, htrace⟩

end Instances

end AppMem.Assca
