import AppMem.Assca.PacketPath
import AppMem.Device.SortRange

/-! # Sorting through a packet

`am_pack_sort` adds the size of the basic request to the length of the parameters, with its byte of
data and its padding; the target takes the wrapper off again. Two bytes more arrive than were
sent, and a size that is smaller than the wrapper turns into a very large length.
-/
namespace AppMem.Device
open Library.Bytes Library.Checked Abi Memory Pack Assca

section Parameters
variable {env : Env} {f : MemFunction} {fd : StataData} {p p' p1 : List UInt8} {l1 : UInt64}
  {s : SortParam}

/-- The parameters without the padding behind the last of them. -/
theorem SortParam.ofBytes_congr (h : p.take 17 = p'.take 17) :
    SortParam.ofBytes p = SortParam.ofBytes p' := by
  have hword (k : ℕ) (hk : k + 4 ≤ 17) : u32OfBytes (p.drop k) = u32OfBytes (p'.drop k) := by
    have hwin (l : List UInt8) : (l.drop k).take 4 = ((l.take 17).drop k).take 4 := by
      rw [List.drop_take, List.take_take, Nat.min_eq_left (by omega)]
    rw [u32OfBytes, u32OfBytes, hwin p, hwin p', h]
  have hsigned : p.getD 16 0 = p'.getD 16 0 := by
    have hget (l : List UInt8) : l.getD 16 0 = (l.take 17).getD 16 0 := by
      rw [List.getD_eq_getElem?_getD, List.getD_eq_getElem?_getD, List.getElem?_take_of_lt]
      decide
    rw [hget p, hget p', h]
  have htype := hword 0 (by decide)
  rw [List.drop_zero, List.drop_zero] at htype
  simp only [SortParam.ofBytes, htype, hword 4 (by decide), hword 8 (by decide),
    hword 12 (by decide), hsigned]

theorem SortParam.ofBytes_take {n : ℕ} (hn : 17 ≤ n) :
    SortParam.ofBytes (p.take n) = SortParam.ofBytes p := by
  apply SortParam.ofBytes_congr
  rw [List.take_take, Nat.min_eq_left hn]

/-- The checks let the parameters pass, and the range they stand for is not empty. -/
def SortParam.GoesOn (s : SortParam) (fd : StataData) : Prop :=
  s.accepted fd = true ∧
    (s.startAddr fd = 0 ∨ s.endAddr fd = 0 ∨ s.startAddr fd < s.endAddr fd)

instance (s : SortParam) (fd : StataData) : Decidable (s.GoesOn fd) :=
  inferInstanceAs (Decidable (_ ∧ _))

theorem amStataSort_short (hf : f.pVdF = some (.stata fd)) (hl : l1.toNat < sizeofSortParam) :
    amStataSort env f p1 l1 = .ok (f, { error := amRetParamErr }) :=
  ((SortRefuses.short hl).served hf).1

theorem amStataSort_paramErr_iff (hf : f.pVdF = some (.stata fd)) (hl : sizeofSortParam ≤ l1.toNat)
    (hp : sizeofSortParam ≤ p1.length) :
    amStataSort env f p1 l1 = .ok (f, { error := amRetParamErr }) ↔
      ¬ (SortParam.ofBytes p1).GoesOn fd := by
  have hparam : SortParam.ofBytes (p1.take sizeofSortParam) = SortParam.ofBytes p1 :=
    SortParam.ofBytes_take (by decide)
  constructor
  · intro hsort
    have hne : amRetParamErr ≠ amRetGood := by decide
    have hrefuses : SortRefuses env fd p1 l1 amRetParamErr := sortRefuses_of_error hf hsort hne
    rintro ⟨hacc, hrange⟩
    generalize he : amRetParamErr = e at hrefuses
    cases hrefuses with
    | short hl' => omega
    | params _ _ hs =>
      rw [hparam, hacc] at hs
      cases hs
    | empty s _ _ hs _ hnull hlt =>
      rw [hparam] at hs
      rw [hs] at hrange
      exact hrange.elim hnull.1 fun h => h.elim hnull.2 hlt
    | noMemory => exact absurd he (by decide)
  · intro hgo
    rw [SortParam.GoesOn, not_and, not_or, not_or] at hgo
    by_cases hacc : (SortParam.ofBytes p1).accepted fd = true
    · obtain ⟨hs, he, hlt⟩ := hgo hacc
      exact ((SortRefuses.empty _ hl hp hparam hacc ⟨hs, he⟩ hlt).served hf).1
    · rw [← hparam, Bool.not_eq_true] at hacc
      exact ((SortRefuses.params hl hp hacc).served hf).1

/-- Behind long parameters nothing makes a difference. -/
theorem amStataSort_congr {l1' : UInt64} (hf : f.pVdF = some (.stata fd))
    (hl : sizeofSortParam ≤ l1.toNat) (hl' : sizeofSortParam ≤ l1'.toNat)
    (hp : sizeofSortParam ≤ p.length) (hp' : sizeofSortParam ≤ p'.length)
    (h : p.take 17 = p'.take 17) : amStataSort env f p l1 = amStataSort env f p' l1' := by
  have hparam : SortParam.ofBytes (p.take sizeofSortParam) =
      SortParam.ofBytes (p'.take sizeofSortParam) := by
    rw [SortParam.ofBytes_take (by decide), SortParam.ofBytes_take (by decide),
      SortParam.ofBytes_congr h]
  rw [amStataSort_of_params hf hl hp, amStataSort_of_params hf hl' hp', hparam]

theorem amStataSort_served {g : MemFunction} {r : Served}
    (h : amStataSort env f p1 l1 = .ok (g, r)) : r = { error := r.error } := by
  rcases amStataSort_cases h with ⟨-, rfl⟩ | ⟨fd, fd', s, -, -, hs, -⟩
  · rfl
  · obtain ⟨-, ⟨-, -, rfl⟩ | ⟨-, -, data, error, -, -, rfl⟩⟩ := sortRange_eq_ok.mp hs
    · rfl
    · rfl

end Parameters

section Packets
variable {req : PackAll} {f : MemFunction} {fd : StataData}

structure SortArray (f : MemFunction) (fd : StataData) : Prop where
  data : f.pVdF = some (.stata fd)
  sortOp : f.pfnOps ⟨amOpSort.toNat, by decide⟩ = some .amStataSort

structure SortPacket (req : PackAll) : Prop where
  packType : req.wrap.packType = amPackAction
  op : req.wrap.op = amOpSort

theorem select_sort (hf : SortArray f fd) (hreq : SortPacket req) (resp : PackResp) :
    amPackSelect (some f.hdr) req resp =
      .ok (.call .amStataSort (.action req.body req.actionLen) (some 8)) := by
  have hlt : req.wrap.op.toNat < amOpMaxOps := by
    rw [hreq.op]
    decide
  have hslot : f.hdr.pfnOps ⟨req.wrap.op.toNat, hlt⟩ = some .amStataSort := by
    rw [← hf.sortOp]
    simp only [MemFunction.hdr, hreq.op]
  have hcall : f.hdr.packCall req resp = some (.action req.body req.actionLen, some 8) := by
    rw [FuncHdr.packCall, hreq.packType]
    rfl
  simp only [amPackSelect, f.hdr.slot_of_lt hlt, ok_bind, hslot, hcall]
  rfl

theorem serve_sort (b : Build) (env : Env) (stale : UInt32) (resp : PackResp)
    (hf : SortArray f fd) (hreq : SortPacket req) :
    (∃ e, amStataSort env f req.body req.actionLen = .error e ∧
      serveDevice b env stale req resp f = .error e) ∨
    ∃ g r p, amStataSort env f req.body req.actionLen = .ok (g, r) ∧
      serveDevice b env stale req resp f = .ok (g, p) ∧ p.error = r.error ∧ WellSized p := by
  rw [serveDevice, processDevice, amPackProcessCmd_call (select_sort hf hreq _), invokeDevice]
  cases hsort : amStataSort env f req.body req.actionLen with
  | error e => exact .inl ⟨e, rfl, rfl⟩
  | ok q =>
    obtain ⟨g, r⟩ := q
    obtain ⟨resp', hresp, -, -⟩ := (echoWrap req resp).write_of_le 0 [] (by decide)
    right
    have hout : r.out = [] := congrArg Served.out (amStataSort_served hsort)
    simp only [ok_bind, hout, hresp]
    by_cases he : r.error = amRetGood
    · have hlo : sizeofWrapper ≤ (8 : UInt32).toNat := by decide
      have hhi : (8 : UInt32).toNat ≤ maxBasicPackUnionSize := by decide
      refine ⟨g, r, ⟨amRetGood, { resp' with wrap := { resp'.wrap with size := 8 } }, 8⟩, rfl, ?_,
        he.symm, ⟨rfl, hlo, hhi⟩⟩
      rw [if_neg (not_not.mpr he)]
      rfl
    · refine ⟨g, r, errorResp r.error resp', rfl, ?_, rfl, wellSized_errorResp _ _⟩
      rw [if_pos he]

end Packets

section Agreement
variable {σ : Type} {ac : PackAc σ} {pFunc : ClientFunc} {s : σ} {b : Build} {env : Env}
  {stale : UInt32} {view : σ → MemFunction} {f : MemFunction} {fd fd' : StataData}
  {p1 : List UInt8} {l1 : UInt64} {req : PackAll} {resp : PackResp}

/-- A size that is smaller than the wrapper wraps around. -/
theorem toNat_actionLen : req.actionLen.toNat =
    if 8 ≤ req.wrap.size.toNat then req.wrap.size.toNat - 8
    else 2 ^ 64 + req.wrap.size.toNat - 8 := by
  have hlt : req.wrap.size.toNat < 2 ^ 16 := req.wrap.size.toNat_lt
  rw [Frame.actionLen, UInt64.toNat_sub, UInt16.toNat_toUInt64]
  simp only [UInt64.reduceToNat]
  split <;> omega

/-- What arrives of the parameters, through a transport that delivers: the bytes that were sent, two
more that were not, and a length that counts both. -/
theorem amPackSort_view (pFunc : ClientFunc) (D : Delivers ac (serveDevice b env stale) view)
    (hf : SortArray (view s) fd) (hl : l1.toNat ≤ 500) (hp : l1.toNat ≤ p1.length) :
    ∃ (body : List UInt8) (l : UInt64), body.length = bodySize ∧
      body.take l1.toNat = p1.take l1.toNat ∧ l.toNat = l1.toNat + 2 ∧
      (amPackSort ac pFunc s p1 l1).map (Prod.map view id) =
        (amStataSort env (view s) body l).map fun r => (r.1, r.2.error) := by
  obtain ⟨s', tx, hfree, hview⟩ := D.free s
  have hlen : l1.toUInt32.toNat = l1.toNat := by
    rw [UInt64.toNat_toUInt32]
    omega
  have htx : (10 + l1.toUInt32).toNat = 10 + l1.toNat := by
    rw [UInt32.toNat_add, hlen]
    simp only [UInt32.reduceToNat]
    omega
  have hparam : (p1.take l1.toNat).length = l1.toNat := List.length_take_of_le hp
  obtain ⟨g, hg, hw, hb⟩ :=
    (fillWrap pFunc tx amPackAction amOpSort (10 + l1.toUInt32)).write_of_le 0 (p1.take l1.toNat)
      (by rw [hparam]; simp only [bodySize]; omega)
  have htag : g.wrap.appTag = tx.wrap.appTag := by
    rw [hw]
    rfl
  obtain ⟨req, resp, ⟨hwrap, hbody⟩, herr, hok⟩ := D.exchange s s' tx s' g (10 + l1.toUInt32) hfree
    htag (by rw [htx]; simp only [sizeofWrapper]; omega)
    (by rw [htx]; simp only [maxBasicPackUnionSize]; omega)
  rw [hview] at herr hok
  have hreq : SortPacket req := by
    constructor
    · rw [hwrap, hw]
      rfl
    · rw [hwrap, hw]
      rfl
  have hsize : req.wrap.size.toNat = 10 + l1.toNat := by
    have hs : req.wrap.size = (10 + l1.toUInt32).toUInt16 := by
      rw [hwrap, hw]
      rfl
    rw [hs, UInt32.toNat_toUInt16, htx]
    omega
  have hfront : req.body.take l1.toNat = p1.take l1.toNat := by
    have h := congrArg (List.take l1.toNat) hbody
    rwa [List.take_take, List.take_take, htx, Nat.min_eq_left (by simp only [sizeofWrapper]; omega),
      hb, take_splice_front hparam.ge, List.take_take, Nat.min_self] at h
  refine ⟨req.body, req.actionLen, req.length_body, hfront, ?_, ?_⟩
  · rw [toNat_actionLen, hsize, if_pos (by omega)]
    omega
  · simp only [amPackSort, hfree, ok_bind, hlen, readBytes_of_le hp, hg]
    rcases serve_sort b env stale resp hf hreq with
      ⟨e, hsort, hserve⟩ | ⟨t, r, p, hsort, hserve, hcode, hws⟩
    · rw [herr e hserve, hsort]
      rfl
    · obtain ⟨s'', c, hsend, hv, hc, -, -⟩ := hok t p hserve (transparent_of_ok hserve) hws
      rw [hsend, hsort]
      simp only [ok_bind, Except.map, Prod.map, hv, hc, hcode, id_eq, pure_eq_ok]

/-- The remote sort answers and leaves what the local one does. -/
def SortsAlike (ac : PackAc σ) (view : σ → MemFunction) (env : Env) (pFunc : ClientFunc) (s : σ)
    (p1 : List UInt8) (l1 : UInt64) : Prop :=
  (amPackSort ac pFunc s p1 l1).map (Prod.map view id) =
    (amStataSort env (view s) p1 l1).map fun r => (r.1, r.2.error)

/-- The target refuses the parameters of a request and leaves its function alone. -/
def RefusesSort (b : Build) (env : Env) (stale : UInt32) (req : PackAll) (resp : PackResp)
    (f : MemFunction) : Prop :=
  ∃ p, serveDevice b env stale req resp f = .ok (f, p) ∧ p.error = amRetParamErr

theorem sortsAlike_iff (D : Delivers ac (serveDevice b env stale) view)
    (hf : SortArray (view s) fd) (hl : l1.toNat ≤ 500) (hp : l1.toNat ≤ p1.length) :
    SortsAlike ac view env pFunc s p1 l1 ↔
      (l1 ≠ 18 ∧ l1 ≠ 19) ∨ ¬ (SortParam.ofBytes p1).GoesOn fd := by
  obtain ⟨body, l, hbody, hfront, hlen, hremote⟩ := amPackSort_view pFunc D hf hl hp
  have hlong : sizeofSortParam ≤ body.length := by
    rw [hbody]
    decide
  have hne : (l1 ≠ 18 ∧ l1 ≠ 19) ↔ l1.toNat ≠ 18 ∧ l1.toNat ≠ 19 := by
    rw [ne_eq, ne_eq, ← UInt64.toNat_inj, ← UInt64.toNat_inj]
    rfl
  rw [SortsAlike, hremote, hne]
  simp only [sizeofSortParam] at hlong
  by_cases hshort : l1.toNat < 18
  · -- too short on both sides
    refine iff_of_true ?_ (.inl (by omega))
    rw [amStataSort_short hf.data (by rw [hlen]; simp only [sizeofSortParam]; omega),
      amStataSort_short hf.data (by simp only [sizeofSortParam]; omega)]
  · have hparam : body.take 17 = p1.take 17 := by
      have h := congrArg (List.take 17) hfront
      rwa [List.take_take, List.take_take, Nat.min_eq_left (by omega)] at h
    by_cases hlong' : 20 ≤ l1.toNat
    · -- long enough on both sides
      refine iff_of_true ?_ (.inl (by omega))
      rw [amStataSort_congr hf.data (by rw [hlen]; simp only [sizeofSortParam]; omega)
        (by simpa only [sizeofSortParam] using hlong') hlong
        (by simp only [sizeofSortParam]; omega) hparam]
    · -- two bytes short here, long enough there
      have hlocal : amStataSort env (view s) p1 l1 = .ok (view s, { error := amRetParamErr }) :=
        amStataSort_short hf.data (by simp only [sizeofSortParam]; omega)
      have hiff : amStataSort env (view s) body l = .ok (view s, { error := amRetParamErr }) ↔
          ¬ (SortParam.ofBytes body).GoesOn fd :=
        amStataSort_paramErr_iff hf.data (by rw [hlen]; simp only [sizeofSortParam]; omega) hlong
      rw [SortParam.ofBytes_congr hparam] at hiff
      rw [hlocal, ← hiff, or_iff_right (by omega)]
      constructor
      · intro h
        cases hsort : amStataSort env (view s) body l with
        | error e =>
          rw [hsort] at h
          cases h
        | ok q =>
          obtain ⟨g, r⟩ := q
          rw [hsort] at h
          simp only [Except.map, Except.ok.injEq, Prod.mk.injEq] at h
          obtain ⟨rfl, he⟩ := h
          rw [amStataSort_served hsort, he]
      · intro h
        rw [h]

theorem refusesSort_iff (hf : SortArray f fd) (hreq : SortPacket req)
    (hshort : req.wrap.size.toNat < sizeofWrapper + sizeofSortParam) :
    RefusesSort b env stale req resp f ↔
      sizeofWrapper ≤ req.wrap.size.toNat ∨ ¬ (SortParam.ofBytes req.body).GoesOn fd := by
  have hserve : RefusesSort b env stale req resp f ↔
      amStataSort env f req.body req.actionLen = .ok (f, { error := amRetParamErr }) := by
    rcases serve_sort b env stale resp hf hreq with
      ⟨e, hsort, hserve⟩ | ⟨g, r, p, hsort, hserve, hcode, -⟩
    · refine iff_of_false ?_ (by rw [hsort]; nofun)
      rintro ⟨p, hp, -⟩
      cases hserve.symm.trans hp
    · constructor
      · rintro ⟨p', hp', he⟩
        cases hserve.symm.trans hp'
        rw [hsort, amStataSort_served hsort, ← hcode, he]
      · intro h
        cases hsort.symm.trans h
        exact ⟨p, hserve, hcode⟩
  have hbody : sizeofSortParam ≤ req.body.length := by
    rw [req.length_body]
    decide
  rw [hserve]
  simp only [sizeofWrapper, sizeofSortParam] at hshort ⊢
  by_cases hsize : 8 ≤ req.wrap.size.toNat
  · refine iff_of_true (amStataSort_short hf.data ?_) (.inl hsize)
    rw [toNat_actionLen, if_pos hsize, sizeofSortParam]
    omega
  · rw [or_iff_right hsize]
    apply amStataSort_paramErr_iff hf.data _ hbody
    rw [toNat_actionLen, if_neg hsize, sizeofSortParam]
    omega

/-- A sort through a packet is the local sort, and requests that are too short are refused, except
where the parameters go on and the length is one of the two that come out two bytes longer, or
smaller than the wrapper. -/
theorem remoteSort_iff (D : Delivers ac (serveDevice b env stale) view)
    (hf : SortArray (view s) fd) (hl : l1.toNat ≤ 500) (hp : l1.toNat ≤ p1.length)
    (hf' : SortArray f fd') (hreq : SortPacket req)
    (hshort : req.wrap.size.toNat < sizeofWrapper + sizeofSortParam) :
    (SortsAlike ac view env pFunc s p1 l1 ↔
      (l1 ≠ 18 ∧ l1 ≠ 19) ∨ ¬ (SortParam.ofBytes p1).GoesOn fd) ∧
    (RefusesSort b env stale req resp f ↔
      sizeofWrapper ≤ req.wrap.size.toNat ∨ ¬ (SortParam.ofBytes req.body).GoesOn fd') :=
  ⟨sortsAlike_iff D hf hl hp, refusesSort_iff hf' hreq hshort⟩

def twoWordsFunc : MemFunction :=
  { MemFunction.blank 0 with
    pVdF := some (.stata twoWords)
    pfnOps := setOp (fun _ => none) amOpSort (some .amStataSort) }

theorem sortArray_twoWords : SortArray twoWordsFunc twoWords := ⟨rfl, rfl⟩

/-- A sort of the whole array, in the first `n` bytes of its parameters. -/
def wholeSort (n : ℕ) : List UInt8 := (u32Bytes amSortTypeStataIntegralMerge ++
  List.replicate 16 0).take n

/-- A request of the size of a wrapper without parameters, whose body asks for a sort. -/
def emptySort : PackAll :=
  { Frame.zero with wrap := ⟨0, amPackAction, amOpSort, 0, 8⟩ }

theorem remoteSort_iff_twoWords :
    (SortsAlike (netPackAc (serveDevice .user .zeroed 0)) NetLink.target .zeroed
        ⟨0, CrResp.zero⟩ ⟨Frame.zero, Frame.zero, Frame.zero, Frame.zero, twoWordsFunc⟩
        (wholeSort 18) 18 ↔
      ((18 : UInt64) ≠ 18 ∧ (18 : UInt64) ≠ 19) ∨
        ¬ (SortParam.ofBytes (wholeSort 18)).GoesOn twoWords) ∧
    (RefusesSort .user .zeroed 0 emptySort Frame.zero twoWordsFunc ↔
      sizeofWrapper ≤ emptySort.wrap.size.toNat ∨
        ¬ (SortParam.ofBytes emptySort.body).GoesOn twoWords) :=
  remoteSort_iff (netPackAc_delivers _) sortArray_twoWords (by decide) (by decide)
    sortArray_twoWords ⟨rfl, rfl⟩ (by decide)

/-- The target sorts for parameters that are two bytes short. -/
theorem not_remoteSort : ¬ ∀ (σ : Type) (ac : PackAc σ) (pFunc : ClientFunc) (s : σ) (b : Build)
    (env : Env) (stale : UInt32) (view : σ → MemFunction) (fd : StataData) (p1 : List UInt8)
    (l1 : UInt64), Delivers ac (serveDevice b env stale) view → SortArray (view s) fd →
    l1.toNat ≤ 500 → l1.toNat ≤ p1.length → SortsAlike ac view env pFunc s p1 l1 := by
  intro h
  have hdelivers := netPackAc_delivers (serveDevice .user .zeroed 0)
  let s : NetLink MemFunction :=
    ⟨Frame.zero, Frame.zero, Frame.zero, Frame.zero, twoWordsFunc⟩
  have hs : SortArray s.target twoWords := sortArray_twoWords
  have hsame := h _ _ ⟨0, CrResp.zero⟩ s .user .zeroed 0 _ twoWords (wholeSort 18) 18 hdelivers hs
    (by decide) (by decide)
  rcases (sortsAlike_iff hdelivers hs (by decide) (by decide)).mp hsame with ⟨hne, -⟩ | hgo
  · exact hne rfl
  · exact hgo (by decide +kernel)

end Agreement

end AppMem.Device
