import AppMem.Device.Handlers
import AppMem.Library.Machine
import AppMem.Pack.Client

/-! # Transactions over the network

A client has one transaction record, one packet to send from and one buffer that the response
thread receives into. Datagrams are numbered by the request they carry or answer; the network
may delay, reorder, duplicate and lose them. Nothing but the tag of a response tells the
client which request it belongs to, and the tag is always 1.
-/
namespace AppMem.Net
open Library.Bytes Library.Checked Library.Machine Abi Memory Pack Device

/-- `AM_NET_PACK_TRANSACTION`; `pTx` is `gTxPacket`, and `pRx` is `NULL` or `gRxPacket`. -/
structure Transaction where
  done : Bool
  tag : UInt16
  pRx : Bool
  respBytes : UInt32
  deriving DecidableEq, Repr

/-- Where the client is: outside of an exchange, filling its request, or waiting. -/
inductive ClientPc
  | idle
  | filling
  | waiting
  deriving DecidableEq, Repr

/-- Where the response thread is: in the receive call, or about to signal. -/
inductive ThreadPc
  | recv
  | signal (bytesRcv : UInt32)
  deriving DecidableEq, Repr

abbrev InFlight := List (ℕ × List UInt8)

/-- The client, the network and the target. `current` counts the requests, `rxOf` is the number
of the request whose response lies in the buffer, and `returned` notes for each request the
number of the request it got the response of, and the code. -/
structure State (S : Type) where
  client : ClientPc
  current : ℕ
  trans : Transaction
  gTxPacket : PackAll
  gRxPacket : PackResp
  rxOf : ℕ
  thread : ThreadPc
  requests : InFlight
  responses : InFlight
  slot : PackAll
  resp : PackResp
  target : S
  returned : List (ℕ × ℕ × AmReturn)

/-- A datagram arrives; the network may keep a copy to deliver again. -/
def take (l : InFlight) (i : ℕ) (keep : Bool) : Option ((ℕ × List UInt8) × InFlight) :=
  l[i]?.map fun d => (d, if keep then l else l.eraseIdx i)

/-- The steps of the client, of its response thread, of the target and of the network. -/
inductive Act
  | getFree
  | fill (f : Frame)
  | send (txSize : UInt32)
  | sendFails
  | wait
  | recv (i : ℕ) (keep : Bool)
  | signal
  | serve (i : ℕ) (keep : Bool)
  | loseRequest (i : ℕ)
  | loseResponse (i : ℕ)

section Steps
variable {S : Type}

def amNetGetFreeReq (s : State S) : State S :=
  { s with
    client := .filling
    current := s.current + 1
    trans := { s.trans with done := false, tag := 1, pRx := false }
    gTxPacket := { s.gTxPacket with wrap := { s.gTxPacket.wrap with appTag := 1 } } }

def amNetSignalRespRecv (s : State S) (bytesRcv : UInt32) : State S :=
  if s.gRxPacket.wrap.appTag = 1 then
    { s with trans := { s.trans with pRx := true, respBytes := bytesRcv, done := true } }
  else s

/-- One step. `serve` is the target's handling of a datagram, with `am_pack_process_cmd` inside. -/
def step (serve : PackAll → PackResp → S → Exec (S × Processed)) (s : State S) :
    Act → Option (State S)
  | .getFree => if s.client = .idle then some (amNetGetFreeReq s) else none
  | .fill f =>
    if s.client = .filling then
      some { s with gTxPacket :=
        { f with wrap := { f.wrap with appTag := s.gTxPacket.wrap.appTag } } }
    else none
  | .send txSize =>
    if s.client = .filling then
      some { s with
        client := .waiting
        requests := s.requests ++ [(s.current, s.gTxPacket.datagram txSize.toNat)] }
    else none
  | .sendFails => if s.client = .filling then some { s with client := .idle } else none
  | .wait =>
    if s.client = .waiting then
      if s.trans.done then
        some { s with
          client := .idle
          returned := s.returned ++ [(s.current, s.rxOf, amNetWaitResult s.gRxPacket)] }
      else some s
    else none
  | .recv i keep =>
    if s.thread = .recv then
      (take s.responses i keep).map fun r =>
        { s with
          gRxPacket := s.gRxPacket.receive r.1.2
          rxOf := r.1.1
          thread := .signal r.1.2.length.toUInt32
          responses := r.2 }
    else none
  | .signal =>
    match s.thread with
    | .recv => none
    | .signal bytesRcv => some { amNetSignalRespRecv s bytesRcv with thread := .recv }
  | .serve i keep =>
    (take s.requests i keep).bind fun r =>
      let slot := s.slot.receive r.1.2
      match serve slot s.resp s.target with
      | .error _ => none
      | .ok (target, p) =>
        some { s with
          slot := slot
          resp := p.resp
          target := target
          requests := r.2
          responses := s.responses ++ [(r.1.1, p.resp.datagram p.txBytes.toNat)] }
  | .loseRequest i => (take s.requests i false).map fun r => { s with requests := r.2 }
  | .loseResponse i => (take s.responses i false).map fun r => { s with responses := r.2 }

def State.start (target : S) : State S :=
  ⟨.idle, 0, ⟨false, 0, false, 0⟩, .zero, .zero, 0, .recv, [], [], .zero, .zero, target, []⟩

/-- The response attached to the transaction, and every response returned, is one to the request
it was returned for. -/
def OwnResponse (s : State S) : Prop :=
  (s.trans.done = true → s.rxOf = s.current) ∧ ∀ r ∈ s.returned, r.2.1 = r.1

/-- When a request is issued, nothing of earlier exchanges is left: no datagram in flight and none
in the hands of the response thread. -/
def Settled (s : State S) (a : Act) : Prop :=
  match a with
  | .getFree => s.requests = [] ∧ s.responses = [] ∧ s.thread = .recv
  | _ => True

instance (s : State S) (a : Act) : Decidable (Settled s a) :=
  match a with
  | .getFree => inferInstanceAs (Decidable (s.requests = [] ∧ s.responses = [] ∧ s.thread = .recv))
  | .fill _ | .send _ | .sendFails | .wait | .recv _ _ | .signal | .serve _ _ | .loseRequest _
  | .loseResponse _ => .isTrue trivial

end Steps

section Matching
variable {S : Type} {serve : PackAll → PackResp → S → Exec (S × Processed)} {s s' : State S}

/-- All that is under way belongs to the current request. -/
structure Current (s : State S) : Prop where
  requests : ∀ d ∈ s.requests, d.1 = s.current
  responses : ∀ d ∈ s.responses, d.1 = s.current
  thread : s.thread ≠ .recv → s.rxOf = s.current
  own : OwnResponse s

theorem take_eq_some {l l' : InFlight} {i : ℕ} {keep : Bool} {d : ℕ × List UInt8}
    (h : take l i keep = some (d, l')) : d ∈ l ∧ ∀ x ∈ l', x ∈ l := by
  rcases Option.map_eq_some_iff.mp h with ⟨d', hd, he⟩
  cases he
  refine ⟨List.mem_of_getElem? hd, fun x hx => ?_⟩
  cases keep with
  | true => exact hx
  | false => exact List.mem_of_mem_eraseIdx hx

theorem current_start (target : S) : Current (.start target) where
  requests := fun _ h => absurd h List.not_mem_nil
  responses := fun _ h => absurd h List.not_mem_nil
  thread := fun h => absurd rfl h
  own := ⟨fun h => absurd h Bool.false_ne_true, fun _ h => absurd h List.not_mem_nil⟩

/-- Issuing a request starts afresh when nothing is left of the last one. -/
theorem Current.getFree (C : Current s) (h : Settled s .getFree) : Current (amNetGetFreeReq s) := by
  rcases h with ⟨hreq, hresp, hthread⟩
  constructor
  · intro d hd
    change d ∈ s.requests at hd
    rw [hreq] at hd
    exact absurd hd List.not_mem_nil
  · intro d hd
    change d ∈ s.responses at hd
    rw [hresp] at hd
    exact absurd hd List.not_mem_nil
  · exact fun h => absurd hthread h
  · exact ⟨fun h => absurd h Bool.false_ne_true, C.own.2⟩

theorem Current.recv (C : Current s) {i : ℕ} {keep : Bool}
    (h : step serve s (.recv i keep) = some s') : Current s' := by
  simp only [step] at h
  split at h
  · next hthread =>
    rcases Option.map_eq_some_iff.mp h with ⟨⟨d, l⟩, htake, rfl⟩
    have hd := take_eq_some htake
    have hcur := C.responses d hd.1
    exact ⟨C.requests, fun x hx => C.responses x (hd.2 x hx), fun _ => hcur, fun _ => hcur, C.own.2⟩
  · cases h

theorem Current.signal (C : Current s) (h : step serve s .signal = some s') : Current s' := by
  cases hthread : s.thread with
  | recv => simp [step, hthread] at h
  | signal bytesRcv =>
    simp only [step, hthread, Option.some.injEq] at h
    subst h
    have hrx := C.thread (by rw [hthread]; exact ThreadPc.noConfusion)
    unfold amNetSignalRespRecv
    split
    · exact ⟨C.requests, C.responses, fun h => absurd rfl h, fun _ => hrx, C.own.2⟩
    · exact ⟨C.requests, C.responses, fun h => absurd rfl h, C.own⟩

theorem Current.served (C : Current s) {i : ℕ} {keep : Bool}
    (h : step serve s (.serve i keep) = some s') : Current s' := by
  simp only [step] at h
  rcases Option.bind_eq_some_iff.mp h with ⟨⟨d, l⟩, htake, h⟩
  have hd := take_eq_some htake
  split at h
  · cases h
  · cases h
    refine ⟨fun x hx => C.requests x (hd.2 x hx), fun x hx => ?_, C.thread, C.own⟩
    rcases List.mem_append.mp hx with hx | hx
    · exact C.responses x hx
    · rw [List.mem_singleton.mp hx]
      exact C.requests d hd.1

theorem Current.step {a : Act} (C : Current s) (hok : Settled s a)
    (h : Net.step serve s a = some s') : Current s' := by
  cases a with
  | getFree =>
    simp only [Net.step] at h
    split at h
    · cases h
      exact C.getFree hok
    · cases h
  | fill f =>
    simp only [Net.step] at h
    split at h
    · cases h
      exact ⟨C.requests, C.responses, C.thread, C.own⟩
    · cases h
  | send n =>
    simp only [Net.step] at h
    split at h
    · cases h
      refine ⟨fun d hd => ?_, C.responses, C.thread, C.own⟩
      rcases List.mem_append.mp hd with hd | hd
      · exact C.requests d hd
      · rw [List.mem_singleton.mp hd]
    · cases h
  | sendFails =>
    simp only [Net.step] at h
    split at h
    · cases h
      exact ⟨C.requests, C.responses, C.thread, C.own⟩
    · cases h
  | wait =>
    simp only [Net.step] at h
    split at h
    · split at h
      · next hdone =>
        cases h
        refine ⟨C.requests, C.responses, C.thread, C.own.1, fun r hr => ?_⟩
        rcases List.mem_append.mp hr with hr | hr
        · exact C.own.2 r hr
        · rw [List.mem_singleton.mp hr]
          exact C.own.1 hdone
      · cases h
        exact C
    · cases h
  | recv i keep => exact C.recv h
  | signal => exact C.signal h
  | serve i keep => exact C.served h
  | loseRequest i =>
    rcases Option.map_eq_some_iff.mp h with ⟨⟨d, l⟩, htake, rfl⟩
    have hd := take_eq_some htake
    exact ⟨fun x hx => C.requests x (hd.2 x hx), C.responses, C.thread, C.own⟩
  | loseResponse i =>
    rcases Option.map_eq_some_iff.mp h with ⟨⟨d, l⟩, htake, rfl⟩
    have hd := take_eq_some htake
    exact ⟨C.requests, fun x hx => C.responses x (hd.2 x hx), C.thread, C.own⟩

/-- A client that issues requests only when nothing of earlier ones is under way gets its own
responses, however the network treats the datagrams. -/
theorem transaction_ownResponse (serve : PackAll → PackResp → S → Exec (S × Processed)) (target : S)
    {as : List Act} (hok : Throughout (step serve) Settled (.start target) as) :
    Always (step serve) OwnResponse (.start target) as :=
  always_of_throughout (I := Current) (fun _ C => C.own) (fun _ _ _ C hok h => C.step hok h)
    (current_start target) hok

/-- The condition cannot be dropped: any response to an earlier request that is still in flight
can complete the next one. -/
theorem stale_completes {i m : ℕ} {d : List UInt8} (hidle : s.client = .idle)
    (hthread : s.thread = .recv) (hd : s.responses[i]? = some (m, d)) (hm : m ≤ s.current)
    (htag : (s.gRxPacket.receive d).wrap.appTag = 1) :
    ∃ s', run (step serve) s [.getFree, .recv i false, .signal] = some s' ∧ ¬ OwnResponse s' := by
  have htake : take s.responses i false = some ((m, d), s.responses.eraseIdx i) := by
    rw [take, hd]
    rfl
  have hfree : step serve s .getFree = some (amNetGetFreeReq s) := if_pos hidle
  have hrecv : step serve (amNetGetFreeReq s) (.recv i false) = some { amNetGetFreeReq s with
      gRxPacket := s.gRxPacket.receive d
      rxOf := m
      thread := .signal d.length.toUInt32
      responses := s.responses.eraseIdx i } := by
    have ht : (amNetGetFreeReq s).thread = .recv := hthread
    rw [step, if_pos ht]
    change (take s.responses i false).map _ = _
    rw [htake]
    rfl
  rw [run_cons, hfree, Option.bind_some, run_cons, hrecv, Option.bind_some, run_cons]
  simp only [step, amNetSignalRespRecv, htag, if_true, Option.bind_some, run_nil, Option.some.injEq]
  refine ⟨_, rfl, fun h => ?_⟩
  have hown := h.1 rfl
  simp only [amNetGetFreeReq] at hown
  omega

end Matching

section Instances

/-- The target of the runs below: an associative array behind `am_pack_process_cmd`. -/
def serveArray (rxBuf : PackAll) (resp : PackResp) (f : MemFunction) :
    Exec (MemFunction × Processed) := processDevice .user .zeroed f rxBuf resp 0

def request (packType op : UInt8) : Frame := { Frame.zero with wrap := ⟨0xAA01, packType, op, 0, 16⟩ }

/-- A write, and then a read of another key; each response arrives once. -/
theorem transaction_ownResponse_ordered :
    Always (step serveArray) OwnResponse
      (.start (asscaDevice .zeroed (.blank 0xAA01) (asscaCap 4)))
      [.getFree, .fill (request 5 0x10), .send 16, .serve 0 false, .recv 0 false, .signal, .wait,
        .getFree, .fill (request 5 0x11), .send 12, .serve 0 false, .recv 0 false, .signal, .wait] := by
  apply transaction_ownResponse
  decide +kernel

/-- The network delivers the response to the first request twice; the second request, whose opcode
nobody registered, completes with it and is reported as good. -/
theorem not_transaction_ownResponse :
    ¬ Always (step serveArray) OwnResponse
      (.start (asscaDevice .zeroed (.blank 0xAA01) (asscaCap 4)))
      [.getFree, .fill (request 5 0x10), .send 16, .serve 0 false, .recv 0 true, .signal, .wait,
        .getFree, .fill (request 5 0x20), .send 12, .recv 0 false, .signal, .wait] := by
  intro h
  have hrun : (run (step serveArray) (.start (asscaDevice .zeroed (.blank 0xAA01) (asscaCap 4)))
      [.getFree, .fill (request 5 0x10), .send 16, .serve 0 false, .recv 0 true, .signal, .wait,
        .getFree, .fill (request 5 0x20), .send 12, .recv 0 false, .signal, .wait]).map
      State.returned = some [(1, 1, amRetGood), (2, 1, amRetGood)] := by decide +kernel
  rcases Option.map_eq_some_iff.mp hrun with ⟨s, hs, hret⟩
  have hown := (h.run hs).2 (2, 1, amRetGood) (by rw [hret]; decide)
  exact absurd hown (by decide)

end Instances

end AppMem.Net
