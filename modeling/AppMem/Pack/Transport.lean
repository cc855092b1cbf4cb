import AppMem.Pack.Status

/-! # The two transports of packets

The network copies frames into buffers that keep their old contents; the mapped page is
shared. Both deliver: the server sees the bytes that were sent, and the client the bytes of
the response.
-/
namespace AppMem.Pack
open Library.Bytes Library.Checked Abi Memory

section Links
variable {S : Type} (serve : PackAll → PackResp → S → Exec (S × Processed))

/-- The buffers of the network path and the state of the target: `gTxPacket`, the slot the
request lands in, the buffer the target answers from, and `gRxPacket[0]`. -/
structure NetLink (S : Type) where
  tx : PackAll
  slot : PackAll
  resp : PackResp
  rx : PackResp
  target : S

def sendTo (f : Frame) (n : ℕ) : Exec (List UInt8) := do
  require (n ≤ maxBasicPackUnionSize) Fault.bounds
  return f.datagram n

/-- `am_net_get_free_req`: one transaction, whose tag is always 1. -/
def amNetGetFreeReq (l : NetLink S) : Exec (NetLink S × PackAll) :=
  .ok (l, { l.tx with wrap := { l.tx.wrap with appTag := 1 } })

/-- `am_net_send_and_wait` when the request and its response are each delivered once: the
target serves the request, and the response thread signals the transaction. -/
def amNetSendAndWait (l : NetLink S) (pTx : PackAll) (txSize : UInt32) :
    Exec (NetLink S × Completion) := do
  let slot := l.slot.receive (← sendTo pTx txSize.toNat)
  let r ← serve slot l.resp l.target
  let d ← sendTo r.2.resp r.2.txBytes.toNat
  let rx := l.rx.receive d
  require (rx.wrap.appTag = 1) Fault.hang
  return (⟨pTx, slot, r.2.resp, rx, r.1⟩, ⟨amNetWaitResult rx, rx, d.length.toUInt32⟩)

def netPackAc : PackAc (NetLink S) := ⟨amNetGetFreeReq, amNetSendAndWait serve⟩

/-- The two frames of the mapped page and the state of the device. -/
structure KpackLink (S : Type) where
  mapTx : PackAll
  mapRx : PackResp
  device : S

/-- `am_kpack_get_free_req` once the device has caught up. -/
def amKpackGetFreeReq (l : KpackLink S) : Exec (KpackLink S × PackAll) := .ok (l, l.mapTx)

/-- `am_kpack_send_and_wait` when the map thread serves the request. -/
def amKpackSendAndWait (l : KpackLink S) (pTx : PackAll) (_txSize : UInt32) :
    Exec (KpackLink S × Completion) := do
  let r ← serve pTx l.mapRx l.device
  return (⟨pTx, r.2.resp, r.1⟩,
    ⟨amKpackWaitResult r.2.resp, r.2.resp, r.2.resp.wrap.size.toUInt32⟩)

def kpackPackAc : PackAc (KpackLink S) := ⟨amKpackGetFreeReq, amKpackSendAndWait serve⟩

end Links

section Delivery
variable {σ S : Type}

/-- The first `n` bytes of two frames agree, wrappers included. -/
def Frame.AgreeUpTo (n : ℕ) (a b : Frame) : Prop :=
  a.wrap = b.wrap ∧ a.body.take (n - sizeofWrapper) = b.body.take (n - sizeofWrapper)

theorem Frame.AgreeUpTo.refl (n : ℕ) (a : Frame) : Frame.AgreeUpTo n a a := ⟨rfl, rfl⟩

theorem Frame.agreeUpTo_receive (slot f : Frame) {n : ℕ} (hlo : sizeofWrapper ≤ n)
    (hhi : n ≤ maxBasicPackUnionSize) : Frame.AgreeUpTo n (slot.receive (f.datagram n)) f := by
  obtain ⟨hw, hb⟩ := Frame.receive_datagram slot f hlo hhi
  refine ⟨hw, ?_⟩
  have hlen : n - sizeofWrapper ≤ (f.body.take (n - sizeofWrapper)).length := by
    rw [List.length_take, f.length_body]
    simp only [sizeofWrapper, bodySize, maxBasicPackUnionSize] at *
    omega
  rw [hb, take_splice_front hlen, List.take_take, Nat.min_self]

/-- A response whose length fields tell how much of the frame belongs to it. -/
structure WellSized (p : Processed) : Prop where
  size : p.resp.wrap.size = p.txBytes.toUInt16
  lo : sizeofWrapper ≤ p.txBytes.toNat
  hi : p.txBytes.toNat ≤ maxBasicPackUnionSize

theorem wellSized_errorResp (e : AmReturn) (resp : PackResp) : WellSized (errorResp e resp) := by
  have hlo : sizeofWrapper ≤ sizeofRespErr.toUInt32.toNat := by decide
  have hhi : sizeofRespErr.toUInt32.toNat ≤ maxBasicPackUnionSize := by decide
  exact ⟨rfl, hlo, hhi⟩

/-- The transport brings every request to `serve` and every response back; `view` is the
state of the server inside the state of the transport. -/
structure Delivers (ac : PackAc σ) (serve : PackAll → PackResp → S → Exec (S × Processed))
    (view : σ → S) : Prop where
  free : ∀ s, ∃ s' pTx, ac.getFreeIop s = .ok (s', pTx) ∧ view s' = view s
  exchange : ∀ s₀ s₁ pTx₀ s pTx (n : UInt32), ac.getFreeIop s₀ = .ok (s₁, pTx₀) →
    pTx.wrap.appTag = pTx₀.wrap.appTag → sizeofWrapper ≤ n.toNat →
    n.toNat ≤ maxBasicPackUnionSize →
    ∃ req resp, Frame.AgreeUpTo n.toNat req pTx ∧
      (∀ e, serve req resp (view s) = .error e → ac.sendAndWait s pTx n = .error e) ∧
      ∀ t p, serve req resp (view s) = .ok (t, p) → Transparent req p → WellSized p →
        ∃ s' c, ac.sendAndWait s pTx n = .ok (s', c) ∧ view s' = t ∧
          c.error = p.error ∧ c.respBytes = p.txBytes ∧
          Frame.AgreeUpTo p.txBytes.toNat c.pRx p.resp

private theorem sendTo_of_le (f : Frame) {n : ℕ} (h : n ≤ maxBasicPackUnionSize) :
    sendTo f n = .ok (f.datagram n) := by
  simp [sendTo, h]

theorem netPackAc_delivers (serve : PackAll → PackResp → S → Exec (S × Processed)) :
    Delivers (netPackAc serve) serve NetLink.target where
  free l := ⟨l, _, rfl, rfl⟩
  exchange l₀ l₁ pTx₀ l pTx n hfree htag hlo hhi := by
    have htag1 : pTx.wrap.appTag = 1 := by
      simp only [netPackAc, amNetGetFreeReq, Except.ok.injEq, Prod.mk.injEq] at hfree
      rw [htag, ← hfree.2]
    have hreq := Frame.agreeUpTo_receive l.slot pTx hlo hhi
    refine ⟨l.slot.receive (pTx.datagram n.toNat), l.resp, hreq, ?_, ?_⟩
    · intro e he
      simp [netPackAc, amNetSendAndWait, sendTo_of_le pTx hhi, he]
    · intro t p hp htrans hsize
      have hrx := Frame.agreeUpTo_receive l.rx p.resp hsize.lo hsize.hi
      have hwait : (l.rx.receive (p.resp.datagram p.txBytes.toNat)).wrap.appTag = 1 := by
        rw [hrx.1, htrans.appTag, hreq.1, htag1]
      have hlen : (p.resp.datagram p.txBytes.toNat).length.toUInt32 = p.txBytes := by
        rw [Frame.datagram, List.length_take, Frame.length_raw, Nat.min_eq_left hsize.hi]
        exact UInt32.ofNat_toNat
      let rx := l.rx.receive (p.resp.datagram p.txBytes.toNat)
      refine ⟨⟨pTx, l.slot.receive (pTx.datagram n.toNat), p.resp, rx, t⟩,
        ⟨amNetWaitResult rx, rx, (p.resp.datagram p.txBytes.toNat).length.toUInt32⟩, ?_, rfl,
        htrans.netBytes hsize.lo hsize.hi l.rx, hlen, hrx⟩
      simp only [netPackAc, amNetSendAndWait, sendTo_of_le pTx hhi, ok_bind, hp,
        sendTo_of_le p.resp hsize.hi, require_of_true Fault.hang hwait]
      rfl

theorem kpackPackAc_delivers (serve : PackAll → PackResp → S → Exec (S × Processed)) :
    Delivers (kpackPackAc serve) serve KpackLink.device where
  free l := ⟨l, _, rfl, rfl⟩
  exchange l₀ l₁ pTx₀ l pTx n hfree htag hlo hhi := by
    refine ⟨pTx, l.mapRx, Frame.AgreeUpTo.refl _ _, ?_, ?_⟩
    · intro e he
      simp [kpackPackAc, amKpackSendAndWait, he]
    · intro t p hp htrans hsize
      have hsz : p.resp.wrap.size.toUInt32 = p.txBytes := by
        have hhi' := hsize.hi
        rw [hsize.size]
        apply UInt32.toNat_inj.mp
        simp only [UInt16.toNat_toUInt32, UInt32.toNat_toUInt16]
        simp only [maxBasicPackUnionSize] at hhi'
        omega
      refine ⟨⟨pTx, p.resp, t⟩, ⟨amKpackWaitResult p.resp, p.resp, p.resp.wrap.size.toUInt32⟩, ?_,
        rfl, htrans.kpack, hsz, Frame.AgreeUpTo.refl _ _⟩
      simp only [kpackPackAc, amKpackSendAndWait, hp, ok_bind]
      rfl

end Delivery

end AppMem.Pack
