import AppMem.Pack.Transport
import AppMem.Target.Handlers

/-! # Replies longer than a packet buffer

The response buffer of the target and the receive buffer of the client are each the first of
several in a row, and neither side stops at the end of the first one: the target stores and
sends what a handler counted, and the client offers all of `gRxPacket` to `recvfrom`.
-/
namespace AppMem.Net
open Library.Bytes Library.Checked Abi Memory Pack Device Target

section Rows

/-- A packet buffer and the `n` that follow it; `rest` is all that lies behind the wrapper. -/
@[ext] structure Row (n : ℕ) where
  wrap : PackWrapper
  rest : List UInt8
  length_rest : rest.length = bodySize + n * maxBasicPackUnionSize

namespace Row
variable {n : ℕ}

def zero (n : ℕ) : Row n where
  wrap := ⟨0, 0, 0, 0, 0⟩
  rest := List.replicate (bodySize + n * maxBasicPackUnionSize) 0
  length_rest := List.length_replicate

def raw (r : Row n) : List UInt8 := r.wrap.bytes ++ r.rest

theorem length_raw (r : Row n) : r.raw.length = (n + 1) * maxBasicPackUnionSize := by
  rw [raw, List.length_append, PackWrapper.length_bytes, r.length_rest]
  simp only [bodySize, maxBasicPackUnionSize]
  omega

def head (r : Row n) : Frame where
  wrap := r.wrap
  body := r.rest.take bodySize
  length_body := by
    rw [List.length_take, r.length_rest]
    exact Nat.min_eq_left (Nat.le_add_right _ _)

def ofRaw (l : List UInt8) (h : l.length = (n + 1) * maxBasicPackUnionSize) : Row n where
  wrap := .ofBytes l
  rest := l.drop sizeofWrapper
  length_rest := by
    rw [List.length_drop, h]
    simp only [bodySize, maxBasicPackUnionSize, sizeofWrapper]
    omega

/-- `recvfrom` into the whole row. -/
def receive (r : Row n) (d : List UInt8) : Row n :=
  ofRaw (splice r.raw 0 (d.take ((n + 1) * maxBasicPackUnionSize))) (by
    rw [length_splice, length_raw]
    rw [length_raw, List.length_take]
    omega)

def write (r : Row n) (src : List UInt8) : Exec (Row n) :=
  if h : src.length ≤ bodySize + n * maxBasicPackUnionSize then
    .ok { r with
      rest := splice r.rest 0 src
      length_rest := by
        rw [length_splice, r.length_rest]
        rw [r.length_rest, Nat.zero_add]
        exact h }
  else .error .bounds

theorem write_of_le (r : Row n) {src : List UInt8}
    (h : src.length ≤ bodySize + n * maxBasicPackUnionSize) :
    ∃ g, r.write src = .ok g ∧ g.wrap = r.wrap ∧ g.rest = splice r.rest 0 src := by
  rw [write, dif_pos h]
  exact ⟨_, rfl, rfl, rfl⟩

theorem write_eq_ok {r g : Row n} {src : List UInt8} : r.write src = .ok g ↔
    src.length ≤ bodySize + n * maxBasicPackUnionSize ∧ g.wrap = r.wrap ∧
      g.rest = splice r.rest 0 src := by
  unfold write
  split
  · rename_i h
    simp only [Except.ok.injEq, h, true_and]
    constructor
    · rintro rfl
      exact ⟨rfl, rfl⟩
    · rintro ⟨hw, hr⟩
      exact Row.ext hw.symm hr.symm
  · rename_i h
    simp [h]

theorem take_raw (r : Row n) {k : ℕ} (h : sizeofWrapper ≤ k) :
    r.raw.take k = r.wrap.bytes ++ r.rest.take (k - sizeofWrapper) := by
  rw [raw, List.take_append, PackWrapper.length_bytes, List.take_of_length_le]
  · rfl
  · rw [PackWrapper.length_bytes]
    exact h

theorem receive_nil (r : Row n) : r.receive [] = r := by
  apply Row.ext
  · change PackWrapper.ofBytes (splice r.raw 0 (List.take _ [])) = r.wrap
    rw [List.take_nil, splice_nil]
    exact PackWrapper.ofBytes_bytes_append _ _
  · change (splice r.raw 0 (List.take _ [])).drop sizeofWrapper = r.rest
    rw [List.take_nil, splice_nil]
    exact List.drop_left' r.wrap.length_bytes

/-- A datagram that holds a wrapper replaces the wrapper and what follows it. -/
theorem receive_append (r : Row n) (w : PackWrapper) (l : List UInt8) :
    (r.receive (w.bytes ++ l)).wrap = w ∧
      (r.receive (w.bytes ++ l)).rest =
        splice r.rest 0 (l.take (bodySize + n * maxBasicPackUnionSize)) := by
  have hsize : (n + 1) * maxBasicPackUnionSize =
      w.bytes.length + (bodySize + n * maxBasicPackUnionSize) := by
    rw [PackWrapper.length_bytes]
    simp only [bodySize, maxBasicPackUnionSize]
    omega
  have htake : (w.bytes ++ l).take ((n + 1) * maxBasicPackUnionSize) =
      w.bytes ++ l.take (bodySize + n * maxBasicPackUnionSize) := by
    rw [hsize, List.take_length_add_append]
  have hdrop (k : ℕ) : r.raw.drop (8 + k) = r.rest.drop k := by
    rw [raw, ← List.drop_drop, List.drop_left' r.wrap.length_bytes]
  simp only [receive, ofRaw, htake, splice_zero, List.length_append, PackWrapper.length_bytes,
    hdrop, List.append_assoc]
  exact ⟨PackWrapper.ofBytes_bytes_append _ _, List.drop_left' w.length_bytes⟩

end Row

end Rows

section Target
variable {H S : Type} {n : ℕ}

/-- What `am_pack_process_cmd` leaves in a row. -/
structure Reply (n : ℕ) where
  error : AmReturn
  resp : Row n
  txBytes : UInt32

def errorReply (error : AmReturn) (row : Row n) : Reply n where
  error := error
  resp :=
    { wrap := { row.wrap with
        packType := row.wrap.packType ||| amFuncPackTypeFlagErr
        size := sizeofRespErr.toUInt16 }
      rest := splice row.rest 0 (statusBytes error)
      length_rest := by
        rw [length_splice, row.length_rest]
        rw [row.length_rest, length_statusBytes]
        simp only [bodySize]
        omega }
  txBytes := sizeofRespErr.toUInt32

/-- `am_pack_process_cmd` with the memory behind the response buffer. -/
def amPackProcessRow (invoke : Invoke H S) (pFunc : Option (FuncHdr H)) (rxBuf : PackAll)
    (row : Row n) (stale : UInt32) (s : S) : Exec (S × Reply n) := do
  let row := { row with wrap := (echoWrap rxBuf row.head).wrap }
  match ← amPackSelect pFunc rxBuf (echoWrap rxBuf row.head) with
  | .fail error => return (s, errorReply error row)
  | .call h c tx =>
    let r ← invoke h c s
    let row ← row.write r.2.out
    if r.2.error ≠ amRetGood then return (r.1, errorReply r.2.error row)
    else
      let txBytes := tx.getD (r.2.txBytes.getD stale)
      return (r.1, ⟨amRetGood, { row with wrap := { row.wrap with size := txBytes.toUInt16 } },
        txBytes⟩)

/-- `am_targ_process_cmd` of a datagram, with the memory behind the response buffer. -/
def amTargProcessRow (env : Env) (t : FuncTable) (rxBuf : PackAll) (row : Row n) (stale : UInt32) :
    Exec (FuncTable × Reply n) :=
  match amValidateFunctionId rxBuf.wrap.funcId with
  | none => amPackProcessRow (invokeBase env) none rxBuf row stale t
  | some i =>
    match t.slots i with
    | .null => amPackProcessRow (invokeBase env) none rxBuf row stale t
    | .base => amPackProcessRow (invokeBase env) (some baseHdr) rxBuf row stale t
    | .device f => do
      let r ← amPackProcessRow (invokeDevice .user env) (some f.hdr) rxBuf row stale f
      return (t.set i (.device r.1), r.2)
    | .freed => .error .useAfterFree

/-- The longest datagram `sendto` takes. -/
def maxDatagram : ℕ := 65507

/-- A target: the slot a request is received into, its response buffers and its functions. -/
structure RowTarget (n : ℕ) where
  slot : PackAll
  resp : Row n
  table : FuncTable

/-- The target receives a datagram and answers it. When `sendto` fails nobody learns of it, and
the client goes on waiting. -/
def serveRow (env : Env) (stale : UInt32) (d : List UInt8) (s : RowTarget n) :
    Exec (RowTarget n × List UInt8) := do
  require (sizeofWrapper ≤ d.length) Fault.assertion
  let slot := s.slot.receive d
  let r ← amTargProcessRow env s.table slot s.resp stale
  require (r.2.txBytes.toNat ≤ (n + 1) * maxBasicPackUnionSize) Fault.bounds
  require (r.2.txBytes.toNat ≤ maxDatagram) Fault.hang
  return (⟨slot, r.2.resp, r.1⟩, r.2.resp.raw.take r.2.txBytes.toNat)

end Target

section Client
variable {S : Type}

/-- How many buffers of `gRxPacket` follow the first. -/
def rxBehind : ℕ := 15

/-- What the exchanges of a client leave behind: `gTxPacket`, `gRxPacket` and the other side. -/
structure RowLink (S : Type) where
  tx : PackAll
  rx : Row rxBehind
  target : S

structure RowCompletion where
  error : AmReturn
  pRx : Row rxBehind
  respBytes : UInt32

/-- `am_net_send_and_wait`, when what is sent and what is answered arrive once each; `sent` is
the result of `am_int_send_msg`. -/
def amNetExchange (serve : List UInt8 → S → Exec (S × List UInt8)) (sent : AmReturn)
    (l : RowLink S) (pTx : PackAll) (txSize : UInt32) : Exec (RowLink S × RowCompletion) := do
  let d ← sendTo pTx txSize.toNat
  if sent ≠ amRetGood then return ({ l with tx := pTx }, ⟨sent, l.rx, 0⟩)
  else
    let r ← serve d l.target
    let rx := l.rx.receive r.2
    require (rx.wrap.appTag = 1) Fault.hang
    return (⟨pTx, rx, r.1⟩, ⟨amNetWaitResult rx.head, rx,
      (min r.2.length ((rxBehind + 1) * maxBasicPackUnionSize)).toUInt32⟩)

end Client

section Base
variable {n : ℕ} {env : Env} {t : FuncTable} {rxBuf : PackAll} {row : Row n} {stale : UInt32}

theorem amTargProcessRow_fivo (env : Env) (row : Row n) (stale : UInt32) {h : BaseHandler}
    {op : UInt8} {tag size : UInt16}
    (hbase : t.slots 0 = .base) (hop : op.toNat < amOpMaxOps)
    (hslot : baseHdr.pfnOps ⟨op.toNat, hop⟩ = some h)
    (hw : rxBuf.wrap = ⟨amPackFuncIdBaseappmem, amPackTypeFivo, op, tag, size⟩) :
    amTargProcessRow env t rxBuf row stale =
      invokeBase env h (.fivo (rxBuf.body.drop 8) rxBuf.l1) t >>= fun r =>
        Row.write { row with wrap := (echoWrap rxBuf row.head).wrap } r.2.out >>= fun row =>
          if r.2.error ≠ amRetGood then .ok (r.1, errorReply r.2.error row)
          else .ok (r.1, ⟨amRetGood,
            { row with wrap := { row.wrap with size := (r.2.txBytes.getD stale).toUInt16 } },
            r.2.txBytes.getD stale⟩) := by
  have hid : amValidateFunctionId rxBuf.wrap.funcId = some 0 := by
    rw [hw]
    rfl
  have hselect (resp : PackResp) : amPackSelect (some baseHdr) rxBuf resp =
      .ok (.call h (.fivo (rxBuf.body.drop 8) rxBuf.l1) none) := by
    have hlt : rxBuf.wrap.op.toNat < amOpMaxOps := by
      rw [hw]
      exact hop
    have hget : baseHdr.pfnOps ⟨rxBuf.wrap.op.toNat, hlt⟩ = some h := by
      rw [← hslot]
      congr 2
      rw [hw]
    have hcall : baseHdr.packCall rxBuf resp =
        some (.fivo (rxBuf.body.drop 8) rxBuf.l1, none) := by
      simp only [FuncHdr.packCall, hw]
      rfl
    simp only [amPackSelect, baseHdr.slot_of_lt hlt, hget, hcall, ok_bind, pure_eq_ok]
  simp only [amTargProcessRow, hid, hbase, amPackProcessRow, hselect, ok_bind]
  rfl

end Base

section Heads
variable {H S : Type} {n : ℕ} {invoke : Invoke H S} {pFunc : Option (FuncHdr H)} {rxBuf : PackAll}
  {row : Row n} {stale : UInt32} {s s' : S} {p : Processed}

def Row.withHead (row : Row n) (f : Frame) : Row n where
  wrap := f.wrap
  rest := splice row.rest 0 f.body
  length_rest := by
    rw [length_splice, row.length_rest]
    rw [row.length_rest, f.length_body]
    omega

theorem splice_front {α : Type*} (l b src : List α) (h : src.length ≤ b.length) :
    splice (splice l 0 b) 0 src = splice l 0 (splice b 0 src) := by
  have hlen : (src ++ b.drop src.length).length = b.length := by
    rw [List.length_append, List.length_drop]
    omega
  rw [splice_zero, splice_zero, splice_zero, splice_zero, hlen, List.drop_append_of_le_length h,
    List.append_assoc]

theorem Row.withHead_head (row : Row n) : row.withHead row.head = row := by
  apply Row.ext
  · rfl
  · change splice row.rest 0 (row.rest.take bodySize) = row.rest
    have hlen : (row.rest.take bodySize).length = bodySize := row.head.length_body
    rw [splice_zero, hlen, List.take_append_drop]

theorem errorReply_withHead (e : AmReturn) (row : Row n) (f : Frame) :
    errorReply e (row.withHead f) =
      ⟨e, row.withHead (errorResp e f).resp, sizeofRespErr.toUInt32⟩ := by
  have hle : (statusBytes e).length ≤ f.body.length := by
    rw [length_statusBytes, f.length_body]
    decide
  simp only [errorReply, Row.withHead, errorResp, splice_front _ _ _ hle]

theorem Row.write_withHead {f g : Frame} {src : List UInt8} (h : f.write 0 src = .ok g) :
    (row.withHead f).write src = .ok (row.withHead g) := by
  rcases Frame.write_eq_ok.mp h with ⟨hle, hw, hb⟩
  rw [Nat.zero_add] at hle
  rw [Row.write_eq_ok]
  refine ⟨Nat.le_add_right_of_le hle, hw, ?_⟩
  have hlen : src.length ≤ f.body.length := by
    rw [f.length_body]
    exact hle
  change splice row.rest 0 g.body = splice (splice row.rest 0 f.body) 0 src
  rw [hb, splice_front _ _ _ hlen]

/-- What fits the first buffer happens there. -/
theorem amPackProcessRow_of_cmd
    (h : amPackProcessCmd invoke pFunc rxBuf row.head stale s = .ok (s', p)) :
    amPackProcessRow invoke pFunc rxBuf row stale s =
      .ok (s', ⟨p.error, row.withHead p.resp, p.txBytes⟩) := by
  have hecho : ({ row with wrap := (echoWrap rxBuf row.head).wrap } : Row n) =
      row.withHead (echoWrap rxBuf row.head) := by
    apply Row.ext
    · rfl
    · exact (congrArg Row.rest row.withHead_head).symm
  unfold amPackProcessCmd at h
  rw [bind_eq_ok] at h
  rcases h with ⟨sel, hsel, h⟩
  unfold amPackProcessRow
  dsimp only
  rw [hecho]
  have hsel' : amPackSelect pFunc rxBuf
      (echoWrap rxBuf (row.withHead (echoWrap rxBuf row.head)).head) = .ok sel := by
    rw [← hecho]
    exact hsel
  rw [hsel', ok_bind]
  cases sel with
  | fail e =>
    cases h
    dsimp only
    rw [errorReply_withHead]
    rfl
  | call hd c tx =>
    dsimp only at h ⊢
    rw [bind_eq_ok] at h
    rcases h with ⟨r, hinv, h⟩
    rw [bind_eq_ok] at h
    rcases h with ⟨f, hwrite, h⟩
    rw [hinv, ok_bind, Row.write_withHead hwrite, ok_bind]
    split at h
    · rename_i hne
      cases h
      rw [if_pos hne, errorReply_withHead]
      rfl
    · rename_i hgood
      cases h
      rw [if_neg hgood]
      rfl

end Heads

end AppMem.Net
