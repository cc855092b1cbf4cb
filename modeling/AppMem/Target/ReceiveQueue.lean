import AppMem.Library.Machine
import AppMem.Pack.Frame

/-! # The receive queue of a target

One thread receives datagrams into the slots of a ring, another hands them to
`am_targ_process_cmd`. The threads share the queue without a lock; the steps of the receive
thread are `am_get_pack_queue_buf`, the receive call and `am_update_pack_queue_rx_idx`, those of
the consumer the parts of the loop of `am_targ_check_cmd_queue`.
-/
namespace AppMem.Target
open Library.Bytes Library.Checked Library.Machine Abi Memory Pack

def rxCmdStateFree : UInt32 := 0
def rxCmdStateActive : UInt32 := 1

/-- `AM_REC_CMD_T`, with the frame behind `pRxBuf` and the address behind `pvClient`. `next` is
the place of the next slot. -/
structure RecCmd where
  rxBuf : PackAll
  pvClient : UInt64
  recvLen : UInt32
  state : UInt32
  idx : UInt32
  bufCount : UInt32
  next : Option ℕ
  deriving DecidableEq

/-- `AM_PACK_QUEUE_T`; the transmit side is not used here. -/
structure PackQueue where
  pRxCmd : List RecCmd
  size : UInt32
  rxCi : UInt32
  rxPi : UInt32
  deriving DecidableEq

def initRecCmd (packCount i : ℕ) : RecCmd :=
  ⟨.zero, 0, 0, rxCmdStateFree, i.toUInt32, 0, if i < packCount - 1 then some (i + 1) else none⟩

def PackQueue.fresh (packCount : UInt32) : PackQueue :=
  ⟨(List.range packCount.toNat).map (initRecCmd packCount.toNat), packCount, 0, 0⟩

/-- `am_init_pack_queue`; `alloc` says whether all its allocations succeed. -/
def amInitPackQueue (alloc : Bool) (packCount : UInt32) : Option PackQueue :=
  if alloc then some (.fresh packCount) else none

/-- `am_get_pack_queue_buf`: the place of the slot. -/
def amGetPackQueueBuf (q : PackQueue) : ℕ := q.rxPi.toNat

def incSize (recvLen : UInt32) : UInt32 :=
  let n := recvLen / 512
  if recvLen % 512 ≠ 0 then n + 1 else n

/-- `am_update_pack_queue_rx_idx` for the command in slot `j`. -/
def amUpdatePackQueueRxIdx (q : PackQueue) (j : ℕ) : Exec (PackQueue × AmReturn) :=
  match q.pRxCmd[j]? with
  | none => .error .bounds
  | some c => do
    require (c.idx = q.rxPi) Fault.assertion
    if c.recvLen ≠ 0 then
      let inc := incSize c.recvLen
      let q := { q with rxPi := q.rxPi + inc, pRxCmd := q.pRxCmd.set j { c with bufCount := inc } }
      if q.size < q.rxPi then
        return (q, amRetQOverflow)
      let q := { q with
        pRxCmd := q.pRxCmd.set j { c with bufCount := inc, state := rxCmdStateActive } }
      -- a longer datagram has its second slot marked as a continuation, and is given up
      require (inc ≤ 1) Fault.assertion
      return ({ q with rxPi := if q.rxPi = q.size then 0 else q.rxPi }, amRetGood)
    else throw .assertion

/-- What arrives from the network: the bytes and the address of the sender. -/
structure Datagram where
  bytes : List UInt8
  sender : UInt64
  deriving DecidableEq, Repr

theorem Datagram.toNat_length {d : Datagram} (h : d.bytes.length ≤ maxBasicPackUnionSize) :
    d.bytes.length.toUInt32.toNat = d.bytes.length := by
  simp only [maxBasicPackUnionSize] at h
  simp only [Nat.toUInt32, UInt32.toNat_ofNat']
  omega

def RecCmd.receive (c : RecCmd) (d : Datagram) : RecCmd :=
  { c with
    rxBuf := c.rxBuf.receive d.bytes
    pvClient := d.sender
    recvLen := d.bytes.length.toUInt32 }

/-- `am_net_recv_unsol_msg` into slot `j`. -/
def amNetRecvUnsolMsg (q : PackQueue) (j : ℕ) (d : Datagram) : PackQueue :=
  { q with pRxCmd := q.pRxCmd.modify j fun c => c.receive d }

/-- The command a slot holds, as `am_targ_process_cmd` reads it. -/
def RecCmd.datagram (c : RecCmd) : Datagram := ⟨c.rxBuf.datagram c.recvLen.toNat, c.pvClient⟩

/-- Where the receive thread is; between receiving and moving the index it has a datagram. -/
inductive ReceiverPc
  | get
  | receive (j : ℕ)
  | update (j : ℕ) (d : Datagram)
  deriving DecidableEq, Repr

/-- Where the consumer is; during a call it has handed over a command. -/
inductive ConsumerPc
  | test
  | call (j : ℕ)
  | called (j : ℕ) (d : Datagram)
  deriving DecidableEq, Repr

/-- The queue, both threads, the datagrams received so far and the commands handed to
`am_targ_process_cmd` so far. A datagram is received once the index has moved past it. -/
structure State where
  queue : PackQueue
  receiver : ReceiverPc
  consumer : ConsumerPc
  received : List Datagram
  processed : List Datagram
  deriving DecidableEq

inductive Act
  | get
  | receive (d : Datagram)
  | update
  | test
  | call
  | advance
  deriving DecidableEq, Repr

/-- One step; `none` when the thread is not there, or the program has stopped. -/
def step (s : State) : Act → Option State
  | .get =>
    match s.receiver with
    | .get => some { s with receiver := .receive (amGetPackQueueBuf s.queue) }
    | _ => none
  | .receive d =>
    match s.receiver with
    | .receive j =>
      if 1 ≤ d.bytes.length ∧ d.bytes.length ≤ maxBasicPackUnionSize then
        some { s with queue := amNetRecvUnsolMsg s.queue j d, receiver := .update j d }
      else none
    | _ => none
  | .update =>
    match s.receiver with
    | .update j d =>
      match amUpdatePackQueueRxIdx s.queue j with
      | .ok r => some { s with queue := r.1, receiver := .get, received := s.received ++ [d] }
      | .error _ => none
    | _ => none
  | .test =>
    match s.consumer with
    | .test =>
      some { s with
        consumer := if s.queue.rxCi ≠ s.queue.rxPi then .call s.queue.rxCi.toNat else .test }
    | _ => none
  | .call =>
    match s.consumer with
    | .call j =>
      match s.queue.pRxCmd[j]? with
      | some c =>
        some { s with
          consumer := .called j c.datagram
          processed := s.processed ++ [c.datagram] }
      | none => none
    | _ => none
  | .advance =>
    match s.consumer with
    | .called j _ =>
      match s.queue.pRxCmd[j]? with
      | some c =>
        some { s with
          queue := { s.queue with rxCi := (s.queue.rxCi + c.bufCount) % s.queue.size }
          consumer := .test }
      | none => none
    | _ => none

def State.start (q : PackQueue) : State := ⟨q, .get, .test, [], []⟩

end AppMem.Target
