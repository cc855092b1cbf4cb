import AppMem.Device.Virtd
import AppMem.Net.Reply

/-! # The capabilities over the network

The target counts the records of a reply without the wrapper in front of them, and the client
takes the wrapper off again: the end of the last record does not arrive. What the target has not
filled, for types that are not registered, arrives as it lay in the response buffer.
-/
namespace AppMem.Net
open Library.Bytes Library.Checked Abi Memory Pack Device Target

section Client
variable {S : Type}

def sizeofFivo : ℕ := 24

/-- The request of `am_net_get_capabilities`. -/
def getCapRequest (tx : PackAll) (count : UInt32) : Exec PackAll := do
  let pTx ← Frame.write
    { tx with wrap := ⟨amPackFuncIdBaseappmem, amPackTypeFivo, amOpGetCap, 1, 24⟩ } 0 (leBytes 8 4)
  pTx.write 8 (u32Bytes count)

def capBytes (respBytes : UInt32) : Int32 := (respBytes.toUInt64 - 8).toUInt32.toInt32

def copyCaps (c : RowCompletion) (pAmCaps : List UInt8) (count : UInt32) : Exec (List UInt8) :=
  if c.error = amRetGood ∧ 0 < capBytes c.respBytes ∧
      capBytes c.respBytes ≤ (count.toUInt64 * sizeofMemCap.toUInt64).toUInt32.toInt32 then do
    let caps ← readBytes c.pRx.rest (capBytes c.respBytes).toInt.toNat
    writeBytes pAmCaps caps
  else .ok pAmCaps

def amNetGetCapabilities (serve : List UInt8 → S → Exec (S × List UInt8)) (sent : AmReturn)
    (l : RowLink S) (pAmCaps : List UInt8) (count : UInt32) : Exec (RowLink S × AlignResult) := do
  let pTx ← getCapRequest l.tx count
  let r ← amNetExchange serve sent l pTx sizeofFivo.toUInt32
  let pAmCaps ← copyCaps r.2 pAmCaps count
  return (r.1, ⟨amRetGood, pAmCaps⟩)

end Client

section Reply
variable {n : ℕ} {env : Env} {stale : UInt32} {s : RowTarget n} {tx pTx : PackAll} {count : UInt32}

def capRecords (entries : Registry) (count : UInt32) : List UInt8 :=
  (capsFor entries count.toNat).flatMap AmMemCap.bytes

def capReplyBytes (count : UInt32) : UInt32 := count * sizeofMemCap.toUInt32

theorem length_capRecords (entries : Registry) (count : UInt32) :
    (capRecords entries count).length ≤ count.toNat * sizeofMemCap := by
  have hcaps : (capsFor entries count.toNat).length ≤ count.toNat :=
    (List.length_filterMap_le _ _).trans (by simp)
  have hlen : (capRecords entries count).length =
      (capsFor entries count.toNat).length * sizeofMemCap := by
    simp only [capRecords, List.length_flatMap, AmMemCap.length_bytes, List.map_const',
      List.sum_replicate_nat]
  rw [hlen]
  exact Nat.mul_le_mul_right _ hcaps

theorem getCapRequest_spec (tx : PackAll) (count : UInt32) :
    ∃ pTx, getCapRequest tx count = .ok pTx ∧
      pTx.wrap = ⟨amPackFuncIdBaseappmem, amPackTypeFivo, amOpGetCap, 1, 24⟩ ∧
      pTx.body.take 12 = leBytes 8 4 ++ u32Bytes count := by
  obtain ⟨f, hf, hfw, hfb⟩ := Frame.write_of_le
    { tx with wrap := ⟨amPackFuncIdBaseappmem, amPackTypeFivo, amOpGetCap, 1, 24⟩ } 0 (leBytes 8 4)
    (by rw [length_leBytes]; decide)
  obtain ⟨g, hg, hgw, hgb⟩ := f.write_of_le 8 (u32Bytes count) (by rw [length_u32Bytes]; decide)
  refine ⟨g, ?_, hgw.trans hfw, ?_⟩
  · rw [getCapRequest, hf, ok_bind, hg]
  · have hsplice := take_splice_splice tx.body (leBytes 8 4) (u32Bytes count)
    rw [length_leBytes, length_u32Bytes] at hsplice
    rw [hgb, hfb]
    exact hsplice

theorem readU64_count {p : List UInt8} {v : UInt64} (h : readU64 p = .ok v)
    (hp : p.take 4 = u32Bytes count) : v.toUInt32 = count := by
  rw [readU64, bind_eq_ok] at h
  rcases h with ⟨b, hb, h⟩
  rcases readBytes_eq_ok.mp hb with ⟨hlen, rfl⟩
  cases h
  have hsplit : p.take 8 = u32Bytes count ++ (p.drop 4).take 4 := by
    rw [← hp]
    exact List.take_add (i := 4) (j := 4)
  have hlow : leVal (u32Bytes count) = count.toNat := leVal_leBytes_of_lt count.toNat_lt
  have hval : leVal (p.take 8) < 2 ^ 64 := by
    have hlt := leVal_lt (p.take 8)
    rwa [List.length_take, Nat.min_eq_left hlen] at hlt
  apply UInt32.toNat_inj.mp
  rw [UInt64.toNat_toUInt32, UInt64.toNat_ofNat_of_lt' hval, hsplit, leVal_append, hlow,
    length_u32Bytes]
  have hcount := count.toNat_lt
  omega

theorem amTargGetCap_count {t : FuncTable} {rxBuf : PackAll}
    (hb : rxBuf.body.take 12 = leBytes 8 4 ++ u32Bytes count) :
    amTargGetCap t (rxBuf.body.drop 8) = .ok {
      error := amRetGood
      out := capRecords t.entries count
      txBytes := some (capReplyBytes count) } := by
  have hlen : 8 ≤ (rxBuf.body.drop 8).length := by
    rw [List.length_drop, rxBuf.length_body]
    decide
  have hcount : (rxBuf.body.drop 8).take 4 = u32Bytes count := by
    have hdrop := congrArg (List.drop 8) hb
    rwa [List.drop_take, List.drop_left' (length_leBytes 8 4)] at hdrop
  obtain ⟨v, hv⟩ : ∃ v, readU64 (rxBuf.body.drop 8) = .ok v := by
    rw [readU64, readBytes_of_le hlen]
    exact ⟨_, rfl⟩
  rw [amTargGetCap, hv, ok_bind, readU64_count hv hcount]
  rfl

/-- The target answers with the records of the count that the request carries. -/
theorem amTargProcessRow_getCap (env : Env) (stale : UInt32) {t : FuncTable} {rxBuf : PackAll}
    (row : Row n) {tag size : UInt16}
    (hbase : t.slots 0 = .base)
    (hw : rxBuf.wrap = ⟨amPackFuncIdBaseappmem, amPackTypeFivo, amOpGetCap, tag, size⟩)
    (hb : rxBuf.body.take 12 = leBytes 8 4 ++ u32Bytes count) :
    amTargProcessRow env t rxBuf row stale =
      Row.write { row with wrap := (echoWrap rxBuf row.head).wrap } (capRecords t.entries count) >>=
        fun row => .ok (t, ⟨amRetGood,
          { row with wrap := { row.wrap with size := (capReplyBytes count).toUInt16 } },
          capReplyBytes count⟩) := by
  rw [amTargProcessRow_fivo env row stale (h := .amTargGetCap) hbase (by decide) rfl hw, invokeBase,
    amTargGetCap_count hb]
  rfl

/-- There is room for the records and the reply can be sent. -/
structure ReplyFits (entries : Registry) (n : ℕ) (count : UInt32) : Prop where
  room : (capRecords entries count).length ≤ bodySize + n * maxBasicPackUnionSize
  inside : (capReplyBytes count).toNat ≤ (n + 1) * maxBasicPackUnionSize
  sent : (capReplyBytes count).toNat ≤ maxDatagram

theorem serveRow_getCap (env : Env) (stale : UInt32) (hbase : s.table.slots 0 = .base)
    (hw : pTx.wrap = ⟨amPackFuncIdBaseappmem, amPackTypeFivo, amOpGetCap, 1, 24⟩)
    (hb : pTx.body.take 12 = leBytes 8 4 ++ u32Bytes count) :
    (ReplyFits s.table.entries n count → ∃ (s' : RowTarget n) (row : Row n),
      serveRow env stale (pTx.datagram sizeofFivo) s =
        .ok (s', row.raw.take (capReplyBytes count).toNat) ∧ row.wrap.appTag = 1 ∧
        amFuncPackTypeFlagErr &&& row.wrap.packType = 0 ∧
        row.rest = splice s.resp.rest 0 (capRecords s.table.entries count)) ∧
      ∀ r, serveRow env stale (pTx.datagram sizeofFivo) s = .ok r →
        ReplyFits s.table.entries n count := by
  have hlen : sizeofWrapper ≤ (pTx.datagram sizeofFivo).length := by
    rw [Frame.datagram, List.length_take, Frame.length_raw]
    decide
  obtain ⟨hsw, hsb⟩ := Frame.agreeUpTo_receive s.slot pTx (n := sizeofFivo) (by decide) (by decide)
  have hsb' : (s.slot.receive (pTx.datagram sizeofFivo)).body.take 12 =
      leBytes 8 4 ++ u32Bytes count := by
    have htake := congrArg (List.take 12) hsb
    simp only [List.take_take, sizeofFivo, sizeofWrapper, Nat.reduceSub, Nat.reduceLeDiff,
      Nat.min_eq_left] at htake
    exact htake.trans hb
  have hproc := amTargProcessRow_getCap env stale s.resp hbase (hsw.trans hw) hsb'
  unfold serveRow
  rw [require_of_true _ hlen, ok_bind]
  dsimp only
  rw [hproc]
  constructor
  · intro F
    obtain ⟨row, hrow, hrw, hrr⟩ := Row.write_of_le { s.resp with
      wrap := (echoWrap (s.slot.receive (pTx.datagram sizeofFivo)) s.resp.head).wrap } F.room
    rw [hrow, ok_bind, ok_bind, require_of_true _ F.inside, ok_bind, require_of_true _ F.sent,
      ok_bind]
    refine ⟨_, _, rfl, ?_, ?_, hrr⟩
    · dsimp only
      rw [hrw, echoWrap, hsw, hw]
    · dsimp only
      rw [hrw, echoWrap, hsw, hw]
      change amFuncPackTypeFlagErr &&& (amPackTypeFivo ||| amFuncPackTypeFlagResp) = 0
      decide
  · intro r hr
    simp only [bind_eq_ok] at hr
    rcases hr with ⟨q, ⟨row, hrow, hq⟩, _, hin, _, hsent, -⟩
    cases hq
    exact ⟨(Row.write_eq_ok.mp hrow).1, require_eq_ok.mp hin, require_eq_ok.mp hsent⟩

def capBytesGot (count : UInt32) : ℕ :=
  min (capReplyBytes count).toNat ((rxBehind + 1) * maxBasicPackUnionSize) - sizeofWrapper

theorem toInt_toInt32_of_lt {v : UInt32} (h : v.toNat < 2 ^ 31) : v.toInt32.toInt = v.toNat := by
  rw [UInt32.toInt32, Int32.toInt, BitVec.toInt_eq_toNat_of_lt]
  · rfl
  · change 2 * v.toNat < 2 ^ 32
    omega

theorem capBytes_toInt {m : ℕ} (hlo : 8 ≤ m) (hhi : m ≤ 8192) :
    (capBytes m.toUInt32).toInt = (m : ℤ) - 8 := by
  have hm : m.toUInt32.toUInt64.toNat = m := by
    simp only [Nat.toUInt32, UInt32.toNat_toUInt64, UInt32.toNat_ofNat']
    omega
  have hsub : (m.toUInt32.toUInt64 - 8).toUInt32.toNat = m - 8 := by
    have hle : (8 : UInt64) ≤ m.toUInt32.toUInt64 := by
      rw [UInt64.le_iff_toNat_le, hm]
      exact hlo
    rw [UInt64.toNat_toUInt32, UInt64.toNat_sub_of_le _ _ hle, hm]
    change (m - 8) % 2 ^ 32 = m - 8
    omega
  rw [capBytes, toInt_toInt32_of_lt, hsub]
  · omega
  · rw [hsub]
    omega

theorem capReplyBytes_toNat (count : UInt32) :
    (capReplyBytes count).toNat = count.toNat * 168 % 2 ^ 32 := by
  rw [capReplyBytes, UInt32.toNat_mul]
  rfl

/-- The bound of the client is the length the target computed. -/
theorem capBound_eq (count : UInt32) :
    (count.toUInt64 * sizeofMemCap.toUInt64).toUInt32 = capReplyBytes count := by
  apply UInt32.toNat_inj.mp
  have hcount := count.toNat_lt
  rw [capReplyBytes_toNat, UInt64.toNat_toUInt32, UInt64.toNat_mul, UInt32.toNat_toUInt64]
  change count.toNat * 168 % 2 ^ 64 % 2 ^ 32 = _
  omega

/-- The client copies what it counts. -/
theorem copyCaps_eq {c : RowCompletion} {pAmCaps : List UInt8} (hgood : c.error = amRetGood)
    (hsent : (capReplyBytes count).toNat ≤ maxDatagram)
    (hresp : c.respBytes = (min (capReplyBytes count).toNat
      ((rxBehind + 1) * maxBasicPackUnionSize)).toUInt32) :
    copyCaps c pAmCaps count = writeBytes pAmCaps (c.pRx.rest.take (capBytesGot count)) := by
  have hT := capReplyBytes_toNat count
  have hbound : (capReplyBytes count).toInt32.toInt = (capReplyBytes count).toNat :=
    toInt_toInt32_of_lt (Nat.lt_of_le_of_lt hsent (by decide))
  have hrx : (rxBehind + 1) * maxBasicPackUnionSize = 8192 := rfl
  have hwrap : sizeofWrapper = 8 := rfl
  have hrest := c.pRx.length_rest
  unfold copyCaps capBytesGot
  rw [capBound_eq, hresp, hrx]
  by_cases hlo : 16 ≤ (capReplyBytes count).toNat
  · have hcap := capBytes_toInt (m := min (capReplyBytes count).toNat 8192) (by omega) (by omega)
    have hpos : 0 < capBytes (min (capReplyBytes count).toNat 8192).toUInt32 := by
      rw [Int32.lt_iff_toInt_lt, hcap, Int32.toInt_zero]
      omega
    have hle : capBytes (min (capReplyBytes count).toNat 8192).toUInt32 ≤
        (capReplyBytes count).toInt32 := by
      rw [Int32.le_iff_toInt_le, hcap, hbound]
      omega
    have hnat : ((min (capReplyBytes count).toNat 8192 : ℕ) - 8 : ℤ).toNat =
        min (capReplyBytes count).toNat 8192 - 8 := by omega
    rw [if_pos ⟨hgood, hpos, hle⟩, hcap, hnat, hwrap, readBytes_of_le, ok_bind]
    rw [hrest]
    simp only [bodySize, rxBehind, maxBasicPackUnionSize]
    omega
  · -- no record: an empty reply, or nothing but its wrapper
    have hnone : min (capReplyBytes count).toNat 8192 - sizeofWrapper = 0 := by omega
    have hskip : ¬ 0 < capBytes (min (capReplyBytes count).toNat 8192).toUInt32 := by
      have hcases : (capReplyBytes count).toNat = 0 ∨ (capReplyBytes count).toNat = 8 := by omega
      rcases hcases with h | h
      · rw [h]
        decide
      · rw [h]
        decide
    rw [if_neg (fun h => hskip h.2.1), hnone, List.take_zero, writeBytes_of_le (Nat.zero_le _),
      splice_nil]

theorem receive_capReply (rx : Row rxBehind) (row : Row n)
    (hin : (capReplyBytes count).toNat ≤ (n + 1) * maxBasicPackUnionSize)
    (htag : row.wrap.appTag = 1) (hflag : amFuncPackTypeFlagErr &&& row.wrap.packType = 0) :
    ((capReplyBytes count = 0 ∧ rx.receive (row.raw.take (capReplyBytes count).toNat) = rx) ∨
      (capReplyBytes count ≠ 0 ∧
        (rx.receive (row.raw.take (capReplyBytes count).toNat)).wrap.appTag = 1 ∧
        amNetWaitResult (rx.receive (row.raw.take (capReplyBytes count).toNat)).head =
          amRetGood)) ∧
      (rx.receive (row.raw.take (capReplyBytes count).toNat)).rest.take (capBytesGot count) =
        row.rest.take (capBytesGot count) := by
  have hT := capReplyBytes_toNat count
  have hsize : (rxBehind + 1) * maxBasicPackUnionSize = 8192 := rfl
  by_cases h0 : capReplyBytes count = 0
  · have hgot : capBytesGot count = 0 := by
      rw [capBytesGot, h0]
      rfl
    rw [h0, UInt32.toNat_zero, List.take_zero, Row.receive_nil, hgot, List.take_zero, List.take_zero]
    exact ⟨.inl ⟨rfl, rfl⟩, rfl⟩
  · have hne : (capReplyBytes count).toNat ≠ 0 := fun h => h0 (UInt32.toNat_inj.mp h)
    have hlo : sizeofWrapper ≤ (capReplyBytes count).toNat := by
      simp only [sizeofWrapper]
      omega
    obtain ⟨hw, hr⟩ := rx.receive_append row.wrap
      (row.rest.take ((capReplyBytes count).toNat - sizeofWrapper))
    rw [row.take_raw hlo]
    refine ⟨.inr ⟨h0, by rw [hw, htag], ?_⟩, ?_⟩
    · rw [amNetWaitResult, Row.head, hw, if_neg (not_not.mpr hflag)]
    · have hrest := row.length_rest
      simp only [sizeofWrapper, maxBasicPackUnionSize, bodySize] at hlo hin hrest
      have hlen : capBytesGot count ≤
          ((row.rest.take ((capReplyBytes count).toNat - sizeofWrapper)).take
            (bodySize + rxBehind * maxBasicPackUnionSize)).length := by
        rw [List.length_take, List.length_take, hrest]
        simp only [capBytesGot, sizeofWrapper, bodySize, rxBehind, maxBasicPackUnionSize]
        omega
      rw [hr, take_splice_front hlen, List.take_take, List.take_take]
      congr 1
      simp only [capBytesGot, sizeofWrapper, bodySize, rxBehind, maxBasicPackUnionSize]
      omega

end Reply

section Agreement
variable {n : ℕ} {env : Env} {stale : UInt32} {sent : AmReturn} {l : RowLink (RowTarget n)}
  {pAmCaps : List UInt8} {count : UInt32}

def registeredCap (entries : Registry) (i : ℕ) : Option AmMemCap :=
  if i = 0 then some virtdBaseCap
  else if h : i < maxDeviceFunctions then (entries ⟨i, h⟩).bind FunctionEntry.pCap
  else none

/-- When the client is told that all is well the exchange succeeded, its buffer is what the virtual
device would make of it, no more than `count` records of it changed, and the records are those of
the registered types. -/
def CapsAgree (env : Env) (stale : UInt32) (sent : AmReturn) (l : RowLink (RowTarget n))
    (pAmCaps : List UInt8) (count : UInt32) : Prop :=
  ∃ pTx x r, getCapRequest l.tx count = .ok pTx ∧
    amNetExchange (serveRow env stale) sent l pTx sizeofFivo.toUInt32 = .ok x ∧
    amNetGetCapabilities (serveRow env stale) sent l pAmCaps count = .ok r ∧
    (r.2.error = amRetGood →
      x.2.error = amRetGood ∧
      amVirtdGetCapabilities l.target.table.entries pAmCaps count = .ok r.2.p2 ∧
      r.2.p2.drop (count.toNat * sizeofMemCap) = pAmCaps.drop (count.toNat * sizeofMemCap) ∧
      capsFor l.target.table.entries count.toNat =
        (List.range count.toNat).filterMap (registeredCap l.target.table.entries))

/-- The request is sent, the reply has room and can be sent, and what does not arrive as it should
is in the buffer already: the bytes of the records that are missing, and those left behind the
records in the response buffer. -/
structure CapsArrive (sent : AmReturn) (l : RowLink (RowTarget n)) (pAmCaps : List UInt8)
    (count : UInt32) : Prop where
  sent : sent = amRetGood
  fits : ReplyFits l.target.table.entries n count
  empty : capReplyBytes count = 0 → l.rx.wrap.appTag = 1 ∧ amNetWaitResult l.rx.head = amRetGood
  missing : ∀ i, capBytesGot count ≤ i → i < (capRecords l.target.table.entries count).length →
    pAmCaps[i]? = (capRecords l.target.table.entries count)[i]?
  leftover : ∀ i, (capRecords l.target.table.entries count).length ≤ i → i < capBytesGot count →
    pAmCaps[i]? = l.target.resp.rest[i]?
  known : ∀ i, virtdBaseCap.subType.toNat ≤ i → i < count.toNat →
    registeredCap l.target.table.entries i = none

theorem capAt_of_lt {entries : Registry} {i : ℕ} (h : i < virtdBaseCap.subType.toNat) :
    capAt entries i = registeredCap entries i := by
  rw [capAt, if_neg (Nat.not_le.mpr h), registeredCap]

/-- The loops see all types unless there is one behind those they know. -/
theorem capsFor_eq_registered {entries : Registry} {count : ℕ} :
    capsFor entries count = (List.range count).filterMap (registeredCap entries) ↔
      ∀ i, virtdBaseCap.subType.toNat ≤ i → i < count → registeredCap entries i = none := by
  have hknown : capsFor entries count =
      (List.range (min count virtdBaseCap.subType.toNat)).filterMap (registeredCap entries) := by
    apply List.filterMap_congr
    intro i hi
    exact capAt_of_lt ((List.mem_range.mp hi).trans_le (Nat.min_le_right _ _))
  have hsplit := List.range_add (n := min count virtdBaseCap.subType.toNat)
    (m := count - virtdBaseCap.subType.toNat)
  have hsum : min count virtdBaseCap.subType.toNat + (count - virtdBaseCap.subType.toNat) = count := by
    omega
  rw [hsum] at hsplit
  rw [hknown, hsplit, List.filterMap_append, List.self_eq_append_right, List.filterMap_eq_nil_iff]
  simp only [List.mem_map, List.mem_range, forall_exists_index, and_imp, forall_apply_eq_imp_iff₂]
  constructor
  · intro h i hlo hi
    have hrest := h (i - virtdBaseCap.subType.toNat) (by omega)
    rwa [Nat.min_eq_right (by omega), Nat.add_sub_cancel' hlo] at hrest
  · intro h i hi
    rw [Nat.min_eq_right (by omega)]
    exact h _ (Nat.le_add_right _ _) (by omega)

theorem amNetExchange_getCap (env : Env) (stale : UInt32) {pTx : PackAll}
    (hbase : l.target.table.slots 0 = .base)
    (hw : pTx.wrap = ⟨amPackFuncIdBaseappmem, amPackTypeFivo, amOpGetCap, 1, 24⟩)
    (hb : pTx.body.take 12 = leBytes 8 4 ++ u32Bytes count)
    (F : ReplyFits l.target.table.entries n count)
    (hempty : capReplyBytes count = 0 →
      l.rx.wrap.appTag = 1 ∧ amNetWaitResult l.rx.head = amRetGood) :
    ∃ x, amNetExchange (serveRow env stale) amRetGood l pTx sizeofFivo.toUInt32 = .ok x ∧
      x.2.error = amRetGood ∧
      x.2.respBytes = (min (capReplyBytes count).toNat
        ((rxBehind + 1) * maxBasicPackUnionSize)).toUInt32 ∧
      x.2.pRx.rest.take (capBytesGot count) =
        (splice l.target.resp.rest 0 (capRecords l.target.table.entries count)).take
          (capBytesGot count) := by
  obtain ⟨s', row, hserve, htag, hflag, hrest⟩ := (serveRow_getCap env stale hbase hw hb).1 F
  obtain ⟨hrx, htake⟩ := receive_capReply l.rx row F.inside htag hflag
  have hsend : sendTo pTx sizeofFivo.toUInt32.toNat = .ok (pTx.datagram sizeofFivo) := rfl
  have hlen : (row.raw.take (capReplyBytes count).toNat).length = (capReplyBytes count).toNat := by
    rw [List.length_take, row.length_raw]
    exact Nat.min_eq_left F.inside
  have hwait : (l.rx.receive (row.raw.take (capReplyBytes count).toNat)).wrap.appTag = 1 ∧
      amNetWaitResult (l.rx.receive (row.raw.take (capReplyBytes count).toNat)).head =
        amRetGood := by
    rcases hrx with ⟨h0, hsame⟩ | ⟨-, hrx⟩
    · rw [hsame]
      exact hempty h0
    · exact hrx
  unfold amNetExchange
  rw [hsend, ok_bind, if_neg (not_not.mpr rfl), hserve, ok_bind]
  dsimp only
  rw [require_of_true _ hwait.1, ok_bind, hlen]
  exact ⟨_, rfl, hwait.2, rfl, htake.trans (congrArg _ hrest)⟩

/-- An exchange that ends well had room for the reply. -/
theorem fits_of_amNetExchange {pTx : PackAll} {x : RowLink (RowTarget n) × RowCompletion}
    (hbase : l.target.table.slots 0 = .base)
    (hw : pTx.wrap = ⟨amPackFuncIdBaseappmem, amPackTypeFivo, amOpGetCap, 1, 24⟩)
    (hb : pTx.body.take 12 = leBytes 8 4 ++ u32Bytes count)
    (h : amNetExchange (serveRow env stale) sent l pTx sizeofFivo.toUInt32 = .ok x)
    (hgood : x.2.error = amRetGood) :
    sent = amRetGood ∧ ReplyFits l.target.table.entries n count ∧
      (capReplyBytes count = 0 →
        l.rx.wrap.appTag = 1 ∧ amNetWaitResult l.rx.head = amRetGood) := by
  have hsend : sendTo pTx sizeofFivo.toUInt32.toNat = .ok (pTx.datagram sizeofFivo) := rfl
  obtain ⟨hserve, hfits⟩ := serveRow_getCap env stale hbase hw hb
  unfold amNetExchange at h
  rw [hsend, ok_bind] at h
  split at h
  · rename_i hsent
    cases h
    exact absurd hgood hsent
  · rename_i hsent
    rw [bind_eq_ok] at h
    rcases h with ⟨q, hq, h⟩
    have F := hfits q hq
    refine ⟨not_not.mp hsent, F, fun h0 => ?_⟩
    obtain ⟨s', row, hrow, -⟩ := hserve F
    rw [hrow] at hq
    cases hq
    dsimp only at h
    rw [h0, UInt32.toNat_zero, List.take_zero, Row.receive_nil, bind_eq_ok] at h
    rcases h with ⟨_, htag, h⟩
    cases h
    exact ⟨require_eq_ok.mp htag, hgood⟩

/-- What arrives and what the virtual device writes make the same buffer if it holds already what
does not arrive. -/
theorem splice_arrived_iff (count : UInt32) {rest R : List UInt8}
    (hgot : capBytesGot count ≤ pAmCaps.length)
    (hR : R.length ≤ pAmCaps.length) (hroom : R.length ≤ rest.length)
    (hrest : capBytesGot count ≤ rest.length) :
    splice pAmCaps 0 ((splice rest 0 R).take (capBytesGot count)) = splice pAmCaps 0 R ↔
      (∀ i, capBytesGot count ≤ i → i < R.length → pAmCaps[i]? = R[i]?) ∧
        ∀ i, R.length ≤ i → i < capBytesGot count → pAmCaps[i]? = rest[i]? := by
  have hroom' : 0 + R.length ≤ rest.length := by rwa [Nat.zero_add]
  have hlen : ((splice rest 0 R).take (capBytesGot count)).length = capBytesGot count := by
    rw [List.length_take, length_splice hroom']
    exact Nat.min_eq_left hrest
  have hcell : ∀ i, i < capBytesGot count →
      ((splice rest 0 R).take (capBytesGot count))[i]? = if i < R.length then R[i]? else rest[i]? := by
    intro i hi
    rw [List.getElem?_take, if_pos hi, getElem?_splice hroom']
    simp only [Nat.zero_le, true_and, Nat.zero_add, Nat.sub_zero]
  rw [splice_front_eq_iff (by rwa [hlen]) hR]
  · rw [hlen]
    refine and_congr Iff.rfl ?_
    constructor
    · intro h i hi hlt
      rw [h i hi hlt, hcell i hlt, if_neg (Nat.not_lt.mpr hi)]
    · intro h i hi hlt
      rw [h i hi hlt, hcell i hlt, if_neg (Nat.not_lt.mpr hi)]
  · intro i hi hlt
    rw [hlen] at hi
    rw [hcell i hi, if_pos hlt]

/-- For every registry, every count and every client buffer that holds that many records. -/
theorem capsAgree_iff (hbase : l.target.table.slots 0 = .base) (hcount : 1 ≤ count.toNat)
    (hbuf : count.toNat * sizeofMemCap ≤ pAmCaps.length) :
    CapsAgree env stale sent l pAmCaps count ↔ CapsArrive sent l pAmCaps count := by
  obtain ⟨pTx, hreq, hw, hb⟩ := getCapRequest_spec l.tx count
  have hR := (length_capRecords l.target.table.entries count).trans hbuf
  have hT : (capReplyBytes count).toNat ≤ pAmCaps.length := by
    rw [capReplyBytes_toNat]
    exact (Nat.mod_le _ _).trans hbuf
  have hgotT : capBytesGot count ≤ (capReplyBytes count).toNat :=
    (Nat.sub_le _ _).trans (Nat.min_le_left _ _)
  have hne : count ≠ 0 := by
    rintro rfl
    exact absurd hcount (by decide)
  have hvirtd : amVirtdGetCapabilities l.target.table.entries pAmCaps count =
      .ok (splice pAmCaps 0 (capRecords l.target.table.entries count)) := by
    rw [amVirtdGetCapabilities, require_of_true _ hne, ok_bind]
    exact writeBytes_of_le hR
  have hrestgot : ReplyFits l.target.table.entries n count →
      capBytesGot count ≤ l.target.resp.rest.length := by
    intro F
    have hin := F.inside
    rw [l.target.resp.length_rest, capBytesGot]
    simp only [sizeofWrapper, bodySize, maxBasicPackUnionSize] at hin ⊢
    omega
  have hdata : ∀ F : ReplyFits l.target.table.entries n count, _ := fun F =>
    splice_arrived_iff count (hgotT.trans hT) hR
      (F.room.trans_eq l.target.resp.length_rest.symm) (hrestgot F)
  have hcall : ∀ x, amNetExchange (serveRow env stale) sent l pTx sizeofFivo.toUInt32 = .ok x →
      amNetGetCapabilities (serveRow env stale) sent l pAmCaps count =
        copyCaps x.2 pAmCaps count >>= fun p => .ok (x.1, ⟨amRetGood, p⟩) := by
    intro x hx
    rw [amNetGetCapabilities, hreq, ok_bind, hx, ok_bind]
    rfl
  have hwrite : ∀ l' : List UInt8, writeBytes pAmCaps (l'.take (capBytesGot count)) =
      .ok (splice pAmCaps 0 (l'.take (capBytesGot count))) := by
    intro l'
    apply writeBytes_of_le
    rw [List.length_take]
    exact (Nat.min_le_left _ _).trans (hgotT.trans hT)
  constructor
  · rintro ⟨pTx', x, r, hreq', hx, hr, hgood⟩
    rw [hreq] at hreq'
    cases hreq'
    rw [hcall x hx, bind_eq_ok] at hr
    rcases hr with ⟨p, hp, hr⟩
    cases hr
    obtain ⟨hxgood, hv, -, hknown⟩ := hgood rfl
    obtain ⟨rfl, F, hempty⟩ := fits_of_amNetExchange hbase hw hb hx hxgood
    obtain ⟨x', hx', -, hresp, htake⟩ := amNetExchange_getCap env stale hbase hw hb F hempty
    rw [hx] at hx'
    cases hx'
    rw [copyCaps_eq hxgood F.sent hresp, hwrite, htake] at hp
    cases hp
    rw [hvirtd] at hv
    obtain ⟨hmissing, hleft⟩ := (hdata F).mp (Except.ok.inj hv).symm
    exact ⟨rfl, F, hempty, hmissing, hleft, capsFor_eq_registered.mp hknown⟩
  · intro C
    obtain ⟨rfl⟩ := C.sent
    obtain ⟨x, hx, hxgood, hresp, htake⟩ :=
      amNetExchange_getCap env stale hbase hw hb C.fits C.empty
    have hsame := (hdata C.fits).mpr ⟨C.missing, C.leftover⟩
    have hr := hcall x hx
    rw [copyCaps_eq hxgood C.fits.sent hresp, hwrite, htake, hsame, ok_bind] at hr
    refine ⟨pTx, x, _, hreq, hx, hr, fun _ => ⟨hxgood, hvirtd, ?_, capsFor_eq_registered.mpr C.known⟩⟩
    apply drop_splice
    · rwa [Nat.zero_add]
    · rw [Nat.zero_add]
      exact length_capRecords _ _

def freshLink : RowLink (RowTarget 1) := ⟨.zero, .zero _, ⟨.zero, .zero _, .start targetRegistry⟩⟩

theorem capsAgree_iff_fresh :
    CapsAgree .zeroed 0 amRetGood freshLink (List.replicate 840 0) 5 ↔
      CapsArrive amRetGood freshLink (List.replicate 840 0) 5 :=
  capsAgree_iff rfl (by decide) (by rw [List.length_replicate]; decide)

/-- The last eight bytes of the only record do not arrive. -/
theorem not_capsAgree : ¬ ∀ (n : ℕ) (env : Env) (stale : UInt32) (sent : AmReturn)
    (l : RowLink (RowTarget n)) (pAmCaps : List UInt8) (count : UInt32),
    l.target.table.slots 0 = .base → 1 ≤ count.toNat →
      count.toNat * sizeofMemCap ≤ pAmCaps.length → CapsAgree env stale sent l pAmCaps count := by
  intro h
  have hlen : (1 : UInt32).toNat * sizeofMemCap ≤ (List.replicate 168 (255 : UInt8)).length := by
    rw [List.length_replicate]
    decide
  have hagree := h 1 .zeroed 0 amRetGood freshLink (List.replicate 168 255) 1 rfl (by decide) hlen
  rw [capsAgree_iff rfl (by decide) hlen] at hagree
  have hcell := hagree.missing 160 (by decide) (by decide +kernel)
  revert hcell
  decide +kernel

end Agreement

end AppMem.Net
