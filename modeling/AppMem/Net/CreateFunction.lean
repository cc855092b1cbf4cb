import AppMem.Net.Capabilities
import AppMem.Target.CreateAtomic

/-! # The announcement of a new function

The target counts its announcement without the wrapper in front of it, so the end of it is not
sent; the client copies as many bytes as it received, wrapper included, over its own record.
-/
namespace AppMem.Net
open Library.Bytes Library.Checked Abi Memory Pack Device Target

section Record

/-- How many bytes of `AM_MEM_FUNCTION_T` follow `crResp`. -/
def sizeofBehind : ℕ := 112

/-- `crResp` of `AM_MEM_FUNCTION_T` and the fields that follow it, the pointer `fn` first. -/
structure FuncRecord where
  crResp : List UInt8
  behind : List UInt8
  length_crResp : crResp.length = sizeofCrResp
  length_behind : behind.length = sizeofBehind

/-- `memcpy(&pFunc->crResp, ...)`. -/
def FuncRecord.copy (m : FuncRecord) (src : List UInt8) : Exec FuncRecord :=
  if h : src.length ≤ sizeofCrResp + sizeofBehind then
    have hlen : (splice (m.crResp ++ m.behind) 0 src).length = sizeofCrResp + sizeofBehind := by
      have hboth : (m.crResp ++ m.behind).length = sizeofCrResp + sizeofBehind := by
        rw [List.length_append, m.length_crResp, m.length_behind]
      rw [length_splice, hboth]
      rw [hboth, Nat.zero_add]
      exact h
    .ok {
      crResp := (splice (m.crResp ++ m.behind) 0 src).take sizeofCrResp
      behind := (splice (m.crResp ++ m.behind) 0 src).drop sizeofCrResp
      length_crResp := by
        rw [List.length_take, hlen]
        exact Nat.min_eq_left (Nat.le_add_right _ _)
      length_behind := by rw [List.length_drop, hlen, Nat.add_sub_cancel_left] }
  else .error .bounds

/-- The members of `AM_FUNC_CALLS_T` that `am_net_create_function` sets. -/
structure NetCalls where
  openFn : Bool
  closeFn : Bool
  sortFn : Bool
  access : PackFn

structure NetFunc where
  handle : UInt32
  record : FuncRecord
  fn : NetCalls

def CrResp.ofBytes (l : List UInt8) : CrResp where
  amName := (l.take 64).takeWhile (· ≠ 0)
  devt := u32OfBytes (l.drop 64)
  flags := u32OfBytes (l.drop 68)
  globalId := UInt64.ofNat (leVal (window l 72 8))
  ops i := u32OfBytes (l.drop (80 + 4 * i))
  acOps i := u32OfBytes (l.drop (336 + 4 * i))
  dataSize := u32OfBytes (l.drop 344)
  idxSize := u32OfBytes (l.drop 348)
  packDataOffset := l.getD 352 0
  wrPackQwordSize := l.getD 353 0
  rdPackQwordSize := l.getD 354 0

end Record

section Client
variable {S : Type}

/-- The request of `am_net_create_function`; as many bytes are copied from the capability as will
be sent, which is more than it has. -/
def createRequest (tx : PackAll) (pCap : List UInt8) : Exec PackAll := do
  let pTx ← Frame.write
    { tx with wrap := ⟨amPackFuncIdBaseappmem, amPackTypeFivo, amOpCreateFunc, 1, 188⟩ } 0
      (leBytes 8 sizeofMemCap)
  pTx.write 8 (← readBytes pCap 188)

def copyCrResp (c : RowCompletion) (m : FuncRecord) : Exec FuncRecord := do
  m.copy (← readBytes c.pRx.rest c.respBytes.toNat)

/-- What is stored through `fn`; `got` is the announcement in the receive buffer, the accesses
are chosen by the copy of it. -/
def NetCalls.store (fn : NetCalls) (got copied : CrResp) : NetCalls where
  openFn := fn.openFn || got.ops ⟨amOpOpenFunc.toNat, by decide⟩ != 0
  closeFn := fn.closeFn || got.ops ⟨amOpCloseFunc.toNat, by decide⟩ != 0
  sortFn := fn.sortFn || got.ops ⟨amOpSort.toNat, by decide⟩ != 0
  access :=
    { writeAl := (amSetPackAccess copied).writeAl <|> fn.access.writeAl
      readAl := (amSetPackAccess copied).readAl <|> fn.access.readAl }

/-- Is anything stored through `fn`? -/
def storesCalls (got copied : CrResp) : Prop :=
  got.ops ⟨amOpOpenFunc.toNat, by decide⟩ ≠ 0 ∨ got.ops ⟨amOpCloseFunc.toNat, by decide⟩ ≠ 0 ∨
    got.ops ⟨amOpSort.toNat, by decide⟩ ≠ 0 ∨ (amSetPackAccess copied).writeAl ≠ none ∨
    (amSetPackAccess copied).readAl ≠ none

instance (got copied : CrResp) : Decidable (storesCalls got copied) :=
  inferInstanceAs (Decidable (_ ∨ _ ∨ _ ∨ _ ∨ _))

/-- `am_net_create_function`; the record is left as the copy makes it, the pointers `pEntry` and
`pkAc` that are set behind `crResp` afterwards are not followed. -/
def amNetCreateFunction (serve : List UInt8 → S → Exec (S × List UInt8)) (sent : AmReturn)
    (l : RowLink S) (pCap : List UInt8) (pFunc : NetFunc) :
    Exec (RowLink S × AmReturn × NetFunc) := do
  let pTx ← createRequest l.tx pCap
  let r ← amNetExchange serve sent l pTx 188
  if r.2.error = amRetGood then
    let record ← copyCrResp r.2 pFunc.record
    let got := CrResp.ofBytes r.2.pRx.rest
    let copied := CrResp.ofBytes record.crResp
    -- a pointer that was copied over leads anywhere
    require (storesCalls got copied →
      record.behind.take 8 = pFunc.record.behind.take 8) Fault.bounds
    return (r.1, r.2.error, ⟨got.devt, record, pFunc.fn.store got copied⟩)
  else return (r.1, r.2.error, pFunc)

end Client

section Announcement
variable {n : ℕ} {env : Env} {stale : UInt32} {t t' : FuncTable} {r : Served} {pCap : List UInt8}
  {tx pTx : PackAll} {s : RowTarget n}

/-- The last eight bytes of an announcement: where a packet has its value, and the lengths of the
packets of an associative array. -/
def announcedTail (c : AmMemCap) : List UInt8 :=
  (if c.amType = amTypeStaticArray then [(c.typeSpecific tsStatArrayIdxByteSize).toUInt8, 0, 0]
    else if c.amType = amTypeFlatMem then [(c.typeSpecific tsFlatAddressByteSize).toUInt8, 0, 0]
    else [packDataOffset (c.typeSpecific tsAsscaKeyMaxSize),
      wrPackQwordSize (c.typeSpecific tsAsscaKeyMaxSize) (c.typeSpecific tsAsscaDataMaxSize),
      rdPackQwordSize (c.typeSpecific tsAsscaKeyMaxSize)]) ++ [0, 0, 0, 0, 0]

def announcedFront (r : CrResp) : List UInt8 :=
  nameBytes r.amName ++ u32Bytes r.devt ++ u32Bytes r.flags ++ leBytes 8 r.globalId.toNat ++
    (List.ofFn r.ops).flatMap u32Bytes ++ (List.ofFn r.acOps).flatMap u32Bytes ++
    u32Bytes r.dataSize ++ u32Bytes r.idxSize

theorem length_announcedFront (r : CrResp) : (announcedFront r).length = 352 := by
  have hops : (List.ofFn r.ops).length = 64 := List.length_ofFn
  simp only [announcedFront, List.length_append, length_nameBytes, length_u32Bytes,
    length_leBytes, length_words, hops, List.length_ofFn]

theorem bytes_eq_front_append (r : CrResp) : r.bytes = announcedFront r ++
    [r.packDataOffset, r.wrPackQwordSize, r.rdPackQwordSize, 0, 0, 0, 0, 0] := rfl

theorem newDevice_crResp (h : UInt32) (c : AmMemCap) :
    (newDevice env (.blank h) c).crResp.bytes =
      announcedFront (newDevice env (.blank h) c).crResp ++ announcedTail c := by
  rw [bytes_eq_front_append]
  unfold newDevice announcedTail
  split
  · rfl
  · split
    · rfl
    · rfl

theorem announcement_eq (h : amTargCreateFunction env t pCap = .ok (t', r))
    (hgood : r.error = amRetGood) : sizeofMemCap ≤ pCap.length ∧
      r.txBytes = some sizeofCrResp.toUInt32 ∧ r.out.length = sizeofCrResp ∧
      r.out.drop 352 = announcedTail (.ofBytes (pCap.take sizeofMemCap)) := by
  obtain ⟨hlen, i, -, rfl⟩ := amTargCreateFunction_slot h hgood
  refine ⟨hlen, rfl, ?_, ?_⟩
  · dsimp only
    rw [bytes_eq_front_append, List.length_append, length_announcedFront]
    rfl
  · dsimp only
    rw [newDevice_crResp, List.drop_left' (length_announcedFront _)]

/-- Only the bytes of the capability count. -/
theorem amTargCreateFunction_congr {p1 : List UInt8} (hlen : sizeofMemCap ≤ pCap.length)
    (h : p1.take sizeofMemCap = pCap.take sizeofMemCap) :
    amTargCreateFunction env t p1 = amTargCreateFunction env t pCap := by
  have hlen' : sizeofMemCap ≤ p1.length := by
    have htake := congrArg List.length h
    rw [List.length_take, List.length_take, Nat.min_eq_left hlen] at htake
    omega
  rw [amTargCreateFunction_of_le _ _ hlen, amTargCreateFunction_of_le _ _ hlen', h]

theorem createRequest_of_le (tx : PackAll) (h : 188 ≤ pCap.length) :
    ∃ pTx, createRequest tx pCap = .ok pTx ∧
    pTx.wrap = ⟨amPackFuncIdBaseappmem, amPackTypeFivo, amOpCreateFunc, 1, 188⟩ ∧
    pTx.body.take 180 = (leBytes 8 sizeofMemCap ++ pCap.take 188).take 180 := by
  obtain ⟨f, hf, hfw, hfb⟩ := Frame.write_of_le
    { tx with wrap := ⟨amPackFuncIdBaseappmem, amPackTypeFivo, amOpCreateFunc, 1, 188⟩ } 0
    (leBytes 8 sizeofMemCap) (by rw [length_leBytes]; decide)
  have hp : (pCap.take 188).length = 188 := by
    rw [List.length_take]
    exact Nat.min_eq_left h
  obtain ⟨g, hg, hgw, hgb⟩ := f.write_of_le 8 (pCap.take 188) (by rw [hp]; decide)
  refine ⟨g, ?_, hgw.trans hfw, ?_⟩
  · rw [createRequest, hf, ok_bind, readBytes_of_le h, ok_bind, hg]
  · have hsplice := take_splice_splice tx.body (leBytes 8 sizeofMemCap) (pCap.take 188)
    rw [length_leBytes, hp] at hsplice
    rw [hgb, hfb, ← hsplice, List.take_take]
    rfl

theorem createRequest_of_lt (h : pCap.length < 188) : createRequest tx pCap = .error .bounds := by
  obtain ⟨f, hf, -⟩ := Frame.write_of_le
    { tx with wrap := ⟨amPackFuncIdBaseappmem, amPackTypeFivo, amOpCreateFunc, 1, 188⟩ } 0
    (leBytes 8 sizeofMemCap) (by rw [length_leBytes]; decide)
  rw [createRequest, hf, ok_bind, readBytes_of_lt h]
  rfl

theorem createRequest_payload {rxBuf : PackAll} (h : rxBuf.body.take 180 = pTx.body.take 180)
    (hb : pTx.body.take 180 = (leBytes 8 sizeofMemCap ++ pCap.take 188).take 180) :
    (rxBuf.body.drop 8).take sizeofMemCap = pCap.take sizeofMemCap := by
  have hfront := congrArg (List.take 176) (h.trans hb)
  rw [List.take_take, List.take_take] at hfront
  have hdrop := congrArg (List.drop 8) hfront
  rw [List.drop_take, List.drop_take, List.drop_left' (length_leBytes 8 _), List.take_take] at hdrop
  exact hdrop

/-- The target's answer to the request: the wrapper and the front of the announcement. -/
theorem serveRow_create (stale : UInt32) (hbase : s.table.slots 0 = .base)
    (hw : pTx.wrap = ⟨amPackFuncIdBaseappmem, amPackTypeFivo, amOpCreateFunc, 1, 188⟩)
    (hb : pTx.body.take 180 = (leBytes 8 sizeofMemCap ++ pCap.take 188).take 180)
    (h : amTargCreateFunction env s.table pCap = .ok (t', r)) (hgood : r.error = amRetGood) :
    ∃ (s' : RowTarget n) (w : PackWrapper), serveRow env stale (pTx.datagram 188) s =
        .ok (s', w.bytes ++ r.out.take 352) ∧ w.appTag = 1 ∧
        amFuncPackTypeFlagErr &&& w.packType = 0 := by
  obtain ⟨hlen, htx, hout, -⟩ := announcement_eq h hgood
  have hdlen : sizeofWrapper ≤ (pTx.datagram 188).length := by
    rw [Frame.datagram, List.length_take, Frame.length_raw]
    decide
  obtain ⟨hsw, hsb⟩ := Frame.agreeUpTo_receive s.slot pTx (n := 188) (by decide) (by decide)
  have hcreate := (amTargCreateFunction_congr hlen (createRequest_payload hsb hb)).trans h
  have hproc := amTargProcessRow_fivo env s.resp stale (h := .amTargCreateFunction) hbase (by decide)
    rfl (hsw.trans hw)
  rw [invokeBase, hcreate, ok_bind, htx, Option.getD_some] at hproc
  have hroom : r.out.length ≤ bodySize + n * maxBasicPackUnionSize := by
    rw [hout]
    simp only [sizeofCrResp, bodySize]
    omega
  obtain ⟨row, hrow, hrw, hrr⟩ := Row.write_of_le { s.resp with
    wrap := (echoWrap (s.slot.receive (pTx.datagram 188)) s.resp.head).wrap } hroom
  rw [hrow, ok_bind, if_neg (not_not.mpr hgood)] at hproc
  have hfits : sizeofCrResp.toUInt32.toNat ≤ (n + 1) * maxBasicPackUnionSize := by
    change 360 ≤ (n + 1) * 512
    omega
  have hsent : sizeofCrResp.toUInt32.toNat ≤ maxDatagram := by decide
  have hraw : ({ row with wrap := { row.wrap with
      size := sizeofCrResp.toUInt32.toUInt16 } } : Row n).raw.take sizeofCrResp.toUInt32.toNat =
        PackWrapper.bytes { row.wrap with size := sizeofCrResp.toUInt32.toUInt16 } ++
          r.out.take 352 := by
    have htake : row.rest.take 352 = r.out.take 352 := by
      rw [hrr]
      apply take_splice_front
      rw [hout]
      decide
    rw [Row.take_raw _ (by decide), ← htake]
    rfl
  unfold serveRow
  rw [require_of_true _ hdlen, ok_bind]
  dsimp only
  rw [hproc, ok_bind, require_of_true _ hfits, ok_bind, require_of_true _ hsent, ok_bind, hraw]
  refine ⟨_, _, rfl, ?_, ?_⟩
  · dsimp only
    rw [hrw, echoWrap, hsw, hw]
  · dsimp only
    rw [hrw, echoWrap, hsw, hw]
    change amFuncPackTypeFlagErr &&& (amPackTypeFivo ||| amFuncPackTypeFlagResp) = 0
    decide

end Announcement

section Copy
variable {S : Type} {n : ℕ} {env : Env} {stale : UInt32} {sent : AmReturn}
  {l : RowLink (RowTarget n)} {t' : FuncTable} {r : Served} {pCap : List UInt8} {pFunc : NetFunc}

/-- The client ends up with the announcement that the target built. -/
def WholeResponse (env : Env) (stale : UInt32) (sent : AmReturn) (l : RowLink (RowTarget n))
    (pCap : List UInt8) (pFunc : NetFunc) (announced : List UInt8) : Prop :=
  ∃ x, amNetCreateFunction (serveRow env stale) sent l pCap pFunc = .ok x ∧
    (x.2.1 = amRetGood → x.2.2.record.crResp = announced)

/-- Whatever the record holds behind `crResp` survives the copy of a response that arrives as `d`. -/
def CopyInside (l : RowLink S) (d : List UInt8) : Prop :=
  ∀ x, amNetExchange (fun _ s => .ok (s, d)) amRetGood l l.tx 188 = .ok x →
    x.2.error = amRetGood → ∀ m, ∃ m', copyCrResp x.2 m = .ok m' ∧ m'.behind = m.behind

theorem FuncRecord.copy_of_le (m : FuncRecord) {src : List UInt8} (h : src.length ≤ sizeofCrResp) :
    ∃ m', m.copy src = .ok m' ∧ m'.crResp = splice m.crResp 0 src ∧ m'.behind = m.behind := by
  have hdrop : (m.crResp ++ m.behind).drop src.length = m.crResp.drop src.length ++ m.behind := by
    apply List.drop_append_of_le_length
    rw [m.length_crResp]
    exact h
  have hfront : (src ++ m.crResp.drop src.length).length = sizeofCrResp := by
    rw [List.length_append, List.length_drop, m.length_crResp]
    omega
  rw [FuncRecord.copy, dif_pos (Nat.le_add_right_of_le h)]
  refine ⟨_, rfl, ?_, ?_⟩
  · dsimp only
    rw [splice_zero, splice_zero, hdrop, ← List.append_assoc, List.take_left' hfront]
  · dsimp only
    rw [splice_zero, hdrop, ← List.append_assoc, List.drop_left' hfront]

/-- A longer copy reaches the byte behind `crResp`. -/
theorem FuncRecord.copy_of_lt {m m' : FuncRecord} {src : List UInt8} (h : m.copy src = .ok m')
    (hlt : sizeofCrResp < src.length) : m'.behind[0]? = src[sizeofCrResp]? := by
  unfold FuncRecord.copy at h
  split at h
  · cases h
    dsimp only
    rw [List.getElem?_drop, splice_zero, Nat.add_zero, List.getElem?_append_left hlt]
  · cases h

theorem copyInside_iff {l : RowLink S} {d : List UInt8} : CopyInside l d ↔
    ((l.rx.receive d).wrap.appTag = 1 → amNetWaitResult (l.rx.receive d).head = amRetGood →
      d.length ≤ sizeofCrResp) := by
  have hsend : sendTo l.tx (188 : UInt32).toNat = .ok (l.tx.datagram 188) := rfl
  have hsize : (rxBehind + 1) * maxBasicPackUnionSize = 8192 := rfl
  have hcr : sizeofCrResp = 360 := rfl
  have hbytes : (min d.length 8192).toUInt32.toNat = min d.length 8192 := by
    simp only [Nat.toUInt32, UInt32.toNat_ofNat']
    omega
  constructor
  · intro h htag hgood
    by_contra hlong
    have hx : amNetExchange (fun _ s => .ok (s, d)) amRetGood l l.tx 188 =
        .ok (⟨l.tx, l.rx.receive d, l.target⟩, ⟨amNetWaitResult (l.rx.receive d).head,
          l.rx.receive d, (min d.length 8192).toUInt32⟩) := by
      unfold amNetExchange
      rw [hsend, ok_bind, if_neg (not_not.mpr rfl), ok_bind]
      dsimp only
      rw [require_of_true _ htag, ok_bind, hsize, pure_eq_ok]
    have hrest : sizeofCrResp < (l.rx.receive d).rest.length := by
      rw [(l.rx.receive d).length_rest]
      decide
    -- a byte behind `crResp` that differs from the one that is copied over it
    let b : UInt8 := (l.rx.receive d).rest[sizeofCrResp] + 1
    have hb : b ≠ (l.rx.receive d).rest[sizeofCrResp] := by
      have hall : ∀ c : UInt8, c + 1 ≠ c := forall_byte (by decide +kernel)
      exact hall _
    obtain ⟨m', hcopy, hkept⟩ := h _ hx hgood ⟨List.replicate sizeofCrResp 0,
      List.replicate sizeofBehind b, List.length_replicate, List.length_replicate⟩
    rw [copyCrResp, bind_eq_ok] at hcopy
    rcases hcopy with ⟨src, hsrc, hcopy⟩
    rcases readBytes_eq_ok.mp hsrc with ⟨hle, hsrc⟩
    dsimp only at hle hsrc
    rw [hbytes] at hle hsrc
    have hlen : sizeofCrResp < src.length := by
      rw [hsrc, List.length_take, Nat.min_eq_left hle]
      omega
    have hcell := FuncRecord.copy_of_lt hcopy hlen
    rw [hkept, hsrc, List.getElem?_take, if_pos (by omega), List.getElem?_eq_getElem hrest] at hcell
    exact hb (Option.some.inj hcell)
  · intro h x hx hgood m
    unfold amNetExchange at hx
    rw [hsend, ok_bind, if_neg (not_not.mpr rfl), ok_bind] at hx
    dsimp only at hx
    rw [bind_eq_ok] at hx
    rcases hx with ⟨_, htag, hx⟩
    cases hx
    have hle := h (require_eq_ok.mp htag) hgood
    rw [copyCrResp]
    dsimp only
    rw [hsize, hbytes, Nat.min_eq_left (by omega), readBytes_of_le, ok_bind]
    · have hshort : ((l.rx.receive d).rest.take d.length).length ≤ sizeofCrResp := by
        rw [List.length_take]
        omega
      obtain ⟨m', hm', -, hbehind⟩ := m.copy_of_le hshort
      exact ⟨m', hm', hbehind⟩
    · rw [(l.rx.receive d).length_rest]
      simp only [bodySize, rxBehind, maxBasicPackUnionSize]
      omega

theorem amNetCreateFunction_unsent (env : Env) (stale : UInt32) (l : RowLink (RowTarget n))
    (pFunc : NetFunc) (hlen : 188 ≤ pCap.length) (hsent : sent ≠ amRetGood) :
    ∃ x, amNetCreateFunction (serveRow env stale) sent l pCap pFunc = .ok x ∧ x.2.1 = sent := by
  obtain ⟨pTx, hreq, -⟩ := createRequest_of_le l.tx hlen
  have hx : amNetExchange (serveRow env stale) sent l pTx 188 =
      .ok ({ l with tx := pTx }, ⟨sent, l.rx, 0⟩) := by
    have hsend : sendTo pTx (188 : UInt32).toNat = .ok (pTx.datagram 188) := rfl
    unfold amNetExchange
    rw [hsend, ok_bind, if_pos hsent, pure_eq_ok]
  unfold amNetCreateFunction
  rw [hreq, ok_bind, hx, ok_bind]
  dsimp only
  rw [if_neg hsent]
  exact ⟨_, rfl, rfl⟩

/-- What the client has after an exchange: the front of the announcement, and behind it what the
receive buffer held. -/
theorem amNetCreateFunction_crResp (stale : UInt32) (pFunc : NetFunc)
    (hbase : l.target.table.slots 0 = .base)
    (hcreate : amTargCreateFunction env l.target.table pCap = .ok (t', r))
    (hgood : r.error = amRetGood) (hlen : 188 ≤ pCap.length) :
    ∃ x, amNetCreateFunction (serveRow env stale) amRetGood l pCap pFunc = .ok x ∧
      x.2.1 = amRetGood ∧ x.2.2.record.crResp = r.out.take 352 ++ window l.rx.rest 352 8 := by
  obtain ⟨-, -, hout, -⟩ := announcement_eq hcreate hgood
  obtain ⟨pTx, hreq, hw, hb⟩ := createRequest_of_le l.tx hlen
  obtain ⟨s', w, hserve, htag, hflag⟩ := serveRow_create stale hbase hw hb hcreate hgood
  have hfront : (r.out.take 352).length = 352 := by
    rw [List.length_take, hout]
    rfl
  obtain ⟨hrw, hrr⟩ := l.rx.receive_append w (r.out.take 352)
  have hcut : (r.out.take 352).take (bodySize + rxBehind * maxBasicPackUnionSize) =
      r.out.take 352 := by
    apply List.take_of_length_le
    rw [hfront]
    decide
  rw [hcut, splice_zero, hfront] at hrr
  have hwait : amNetWaitResult (l.rx.receive (w.bytes ++ r.out.take 352)).head = amRetGood := by
    rw [amNetWaitResult, Row.head, hrw, if_neg (not_not.mpr hflag)]
  have hrest : (l.rx.receive (w.bytes ++ r.out.take 352)).rest.take sizeofCrResp =
      r.out.take 352 ++ window l.rx.rest 352 8 := by
    have hsplit : (r.out.take 352 ++ l.rx.rest.drop 352).take ((r.out.take 352).length + 8) =
        r.out.take 352 ++ (l.rx.rest.drop 352).take 8 := List.take_length_add_append 8
    rw [hfront] at hsplit
    rw [hrr]
    exact hsplit
  have hx : amNetExchange (serveRow env stale) amRetGood l pTx 188 =
      .ok (⟨pTx, l.rx.receive (w.bytes ++ r.out.take 352), s'⟩,
        ⟨amRetGood, l.rx.receive (w.bytes ++ r.out.take 352), sizeofCrResp.toUInt32⟩) := by
    have hsend : sendTo pTx (188 : UInt32).toNat = .ok (pTx.datagram 188) := rfl
    have htag' : (l.rx.receive (w.bytes ++ r.out.take 352)).wrap.appTag = 1 := by
      rw [hrw]
      exact htag
    unfold amNetExchange
    rw [hsend, ok_bind, if_neg (not_not.mpr rfl), hserve, ok_bind]
    dsimp only
    rw [require_of_true _ htag', ok_bind, hwait, List.length_append, PackWrapper.length_bytes, hfront]
    rfl
  have hle : sizeofCrResp.toUInt32.toNat ≤
      (l.rx.receive (w.bytes ++ r.out.take 352)).rest.length := by
    rw [Row.length_rest]
    decide
  have hlist : ((l.rx.receive (w.bytes ++ r.out.take 352)).rest.take sizeofCrResp).length =
      sizeofCrResp := by
    rw [List.length_take]
    exact Nat.min_eq_left hle
  obtain ⟨m', hm', hcr, hbehind⟩ := pFunc.record.copy_of_le hlist.le
  have hcopy : copyCrResp ⟨amRetGood, l.rx.receive (w.bytes ++ r.out.take 352),
      sizeofCrResp.toUInt32⟩ pFunc.record = .ok m' := by
    rw [copyCrResp, readBytes_of_le hle, ok_bind]
    exact hm'
  rw [splice_zero, hlist, List.drop_of_length_le pFunc.record.length_crResp.le, List.append_nil,
    hrest] at hcr
  unfold amNetCreateFunction
  rw [hreq, ok_bind, hx, ok_bind]
  dsimp only
  rw [if_pos rfl, hcopy, ok_bind, require_of_true _ (fun _ => by rw [hbehind]), ok_bind]
  exact ⟨_, rfl, rfl, hcr⟩

theorem wholeResponse_iff (hbase : l.target.table.slots 0 = .base)
    (hcreate : amTargCreateFunction env l.target.table pCap = .ok (t', r))
    (hgood : r.error = amRetGood) : WholeResponse env stale sent l pCap pFunc r.out ↔
      188 ≤ pCap.length ∧ (sent = amRetGood →
        window l.rx.rest 352 8 = announcedTail (.ofBytes (pCap.take sizeofMemCap))) := by
  obtain ⟨-, -, hout, htail⟩ := announcement_eq hcreate hgood
  have hwhole : r.out.take 352 ++ window l.rx.rest 352 8 = r.out ↔
      window l.rx.rest 352 8 = announcedTail (.ofBytes (pCap.take sizeofMemCap)) := by
    conv_lhs => rw [← List.take_append_drop 352 r.out, List.take_append_drop]
    rw [← htail]
    constructor
    · intro h
      have hdrop := congrArg (List.drop 352) h
      rwa [List.drop_left' (by rw [List.length_take, hout]; rfl)] at hdrop
    · intro h
      rw [h, List.take_append_drop]
  constructor
  · rintro ⟨x, hx, hcr⟩
    have hlen : 188 ≤ pCap.length := by
      by_contra hshort
      rw [amNetCreateFunction, createRequest_of_lt (Nat.not_le.mp hshort)] at hx
      cases hx
    refine ⟨hlen, ?_⟩
    rintro rfl
    obtain ⟨x', hx', hret, hcr'⟩ := amNetCreateFunction_crResp stale pFunc hbase hcreate hgood hlen
    rw [hx] at hx'
    cases hx'
    exact hwhole.mp (hcr'.symm.trans (hcr hret))
  · rintro ⟨hlen, htl⟩
    by_cases hsent : sent = amRetGood
    · subst hsent
      obtain ⟨x, hx, -, hcr⟩ := amNetCreateFunction_crResp stale pFunc hbase hcreate hgood hlen
      exact ⟨x, hx, fun _ => hcr.trans (hwhole.mpr (htl rfl))⟩
    · obtain ⟨x, hx, hret⟩ := amNetCreateFunction_unsent env stale l pFunc hlen hsent
      exact ⟨x, hx, fun h => absurd (hret.symm.trans h) hsent⟩

/-- For every capability that the target accepts, and every datagram as a response. -/
theorem createResponse_iff (hbase : l.target.table.slots 0 = .base)
    (hcreate : amTargCreateFunction env l.target.table pCap = .ok (t', r))
    (hgood : r.error = amRetGood) (d : List UInt8) :
    (WholeResponse env stale sent l pCap pFunc r.out ∧ CopyInside l d) ↔
      (188 ≤ pCap.length ∧ (sent = amRetGood →
        window l.rx.rest 352 8 = announcedTail (.ofBytes (pCap.take sizeofMemCap)))) ∧
      ((l.rx.receive d).wrap.appTag = 1 → amNetWaitResult (l.rx.receive d).head = amRetGood →
        d.length ≤ sizeofCrResp) :=
  and_congr (wholeResponse_iff hbase hcreate hgood) copyInside_iff

def smallFlat : List UInt8 := AmMemCap.bytes { flatCaps with
  maxSize := 4
  typeSpecific := typeSpecifics [4] } ++ List.replicate 20 0

def newFunc : NetFunc :=
  ⟨0, ⟨List.replicate _ 0, List.replicate _ 0, List.length_replicate, List.length_replicate⟩,
    false, false, false, none, none⟩

theorem created_smallFlat : ∃ t' r,
    amTargCreateFunction .zeroed freshLink.target.table smallFlat = .ok (t', r) ∧
      r.error = amRetGood := by
  have hret : (amTargCreateFunction .zeroed freshLink.target.table smallFlat).map
      (fun q => q.2.error) = .ok amRetGood := by decide +kernel
  cases h : amTargCreateFunction .zeroed freshLink.target.table smallFlat with
  | error e =>
    rw [h] at hret
    cases hret
  | ok q =>
    rw [h] at hret
    exact ⟨q.1, q.2, rfl, Except.ok.inj hret⟩

theorem createResponse_iff_smallFlat : ∃ r : Served,
    ((WholeResponse .zeroed 0 amRetGood freshLink smallFlat newFunc r.out ∧ CopyInside freshLink []) ↔
      (188 ≤ smallFlat.length ∧ (amRetGood = amRetGood → window freshLink.rx.rest 352 8 =
        announcedTail (.ofBytes (smallFlat.take sizeofMemCap)))) ∧
      ((freshLink.rx.receive []).wrap.appTag = 1 →
        amNetWaitResult (freshLink.rx.receive []).head = amRetGood →
          ([] : List UInt8).length ≤ sizeofCrResp)) := by
  rcases created_smallFlat with ⟨t', r, hcreate, hgood⟩
  exact ⟨r, createResponse_iff rfl hcreate hgood []⟩

/-- The place of a value in a packet of the flat memory does not arrive. -/
theorem not_createResponse : ¬ ∀ (n : ℕ) (env : Env) (stale : UInt32) (sent : AmReturn)
    (l : RowLink (RowTarget n)) (t' : FuncTable) (r : Served) (pCap : List UInt8) (pFunc : NetFunc),
    l.target.table.slots 0 = .base →
      amTargCreateFunction env l.target.table pCap = .ok (t', r) → r.error = amRetGood →
        ∀ d, WholeResponse env stale sent l pCap pFunc r.out ∧ CopyInside l d := by
  intro h
  rcases created_smallFlat with ⟨t', r, hcreate, hgood⟩
  have hall := h 1 .zeroed 0 amRetGood freshLink t' r smallFlat newFunc rfl hcreate hgood []
  have htail := ((wholeResponse_iff rfl hcreate hgood).mp hall.1).2 rfl
  revert htail
  decide +kernel

end Copy

end AppMem.Net
