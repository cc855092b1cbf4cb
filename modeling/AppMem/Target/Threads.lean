import AppMem.Target.ReceiveQueue
import AppMem.Target.Routing

/-! # The two threads of a target

The receive thread of `ReceiveQueue` and the consumer that hands each command to
`am_targ_process_cmd`. A fault of either stops the program. All responses are built in the
first slot of the transmit buffer, since `tx_pi` never moves.
-/
namespace AppMem.Target
open Library.Bytes Library.Checked Library.Machine Abi Memory Pack Device

/-- `am_targ_process_cmd` on a received command. -/
def amTargProcessCmd (env : Env) (t : FuncTable) (c : RecCmd) (resp : PackResp) (stale : UInt32) :
    Exec (FuncTable × Processed) := do
  require (sizeofWrapper ≤ c.recvLen.toNat) Fault.assertion
  amTargProcess env t c.rxBuf resp stale

/-- The queue, where the threads are, the functions and the response buffer. -/
structure TargetState where
  queue : PackQueue
  receiver : ReceiverPc
  consumer : ConsumerPc
  table : FuncTable
  resp : PackResp
  fault : Option Fault

/-- The steps of both threads; `process` carries what the environment decides during a call. -/
inductive TargetAct
  | get
  | receive (d : Datagram)
  | update
  | test
  | process (env : Env) (stale : UInt32)
  | advance

namespace TargetState

def fail (s : TargetState) (e : Fault) : TargetState := { s with fault := some e }

def get (s : TargetState) : Option TargetState :=
  match s.receiver with
  | .get => some { s with receiver := .receive (amGetPackQueueBuf s.queue) }
  | _ => none

/-- A datagram arrives; `recvfrom` is given the size of a slot. -/
def receive (s : TargetState) (d : Datagram) : Option TargetState :=
  match s.receiver with
  | .receive j =>
    if d.bytes.length ≤ maxBasicPackUnionSize then
      some { s with queue := amNetRecvUnsolMsg s.queue j d, receiver := .update j d }
    else none
  | _ => none

def update (s : TargetState) : Option TargetState :=
  match s.receiver with
  | .update j _ =>
    match amUpdatePackQueueRxIdx s.queue j with
    | .ok r => some { s with queue := r.1, receiver := .get }
    | .error e => some (s.fail e)
  | _ => none

def test (s : TargetState) : Option TargetState :=
  match s.consumer with
  | .test =>
    some { s with
      consumer := if s.queue.rxCi ≠ s.queue.rxPi then .call s.queue.rxCi.toNat else .test }
  | _ => none

def process (s : TargetState) (env : Env) (stale : UInt32) : Option TargetState :=
  match s.consumer with
  | .call j =>
    match s.queue.pRxCmd[j]? with
    | some c =>
      match amTargProcessCmd env s.table c s.resp stale with
      | .ok r => some { s with
          consumer := .called j c.datagram
          table := r.1
          resp := r.2.resp }
      | .error e => some (s.fail e)
    | none => some (s.fail .bounds)
  | _ => none

def advance (s : TargetState) : Option TargetState :=
  match s.consumer with
  | .called j _ =>
    match s.queue.pRxCmd[j]? with
    | some c =>
      some { s with
        queue := { s.queue with rxCi := (s.queue.rxCi + c.bufCount) % s.queue.size }
        consumer := .test }
    | none => some (s.fail .bounds)
  | _ => none

/-- One step; `none` when the thread is elsewhere or the program has stopped. -/
def step (s : TargetState) (a : TargetAct) : Option TargetState :=
  if s.fault.isSome then none
  else
    match a with
    | .get => s.get
    | .receive d => s.receive d
    | .update => s.update
    | .test => s.test
    | .process env stale => s.process env stale
    | .advance => s.advance

def start (q : PackQueue) (entries : Registry) : TargetState :=
  ⟨q, .get, .test, .start entries, .zero, none⟩

end TargetState

end AppMem.Target
