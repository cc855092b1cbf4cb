import AppMem.Library.Machine
import AppMem.Device.Handlers

/-! # The mapped page and its two parties

A client and the device thread share one page: two doorbell words, a state word and two
packet buffers. `am_kd_open` and the sync loop of `appmemd_map_thread` shake hands with magic
values; then the client rings by moving `mapPi` and waits until `mapCi` has followed. Each
access to a word of the page is one step. The page stays mapped, so the tests of `isMapped`
are left out, as are the accesses made only to print.
-/
namespace AppMem.Mmap
open Library.Machine Memory

def amKMapPiStart : UInt32 := 0xAA3EBB11
def amKMapCiStart : UInt32 := 0x74000001
def amMapStateSynced : UInt32 := 0xBABAD000

/-- The first three words after `strcpy(pMapped, "BRANDON TEST")`. -/
def freshPi : UInt32 := 0x4E415242
def freshCi : UInt32 := 0x204E4F44
def freshState : UInt32 := 0x54534554

def syncRetry : ℕ := 15

/-- A word of `mapTx` or `mapRx`. -/
inductive Cell
  | tx (w : Fin 128)
  | rx (w : Fin 128)
  deriving DecidableEq, Repr

abbrev Buffers := Cell → UInt32

/-- A computation that reads and writes the buffers word by word. It may leave defined
behaviour, and then nothing follows it. -/
inductive Prog (σ : Type)
  | done (f : σ)
  | read (c : Cell) (k : UInt32 → Prog σ)
  | write (c : Cell) (v : UInt32) (k : Prog σ)
  | fault

def Prog.eval {σ : Type} : Prog σ → Buffers → Option (σ × Buffers)
  | .done f, m => some (f, m)
  | .read c k, m => (k (m c)).eval m
  | .write c v k, m => k.eval (Function.update m c v)
  | .fault, _ => none

inductive ClientPc
  | sync (i : ℕ)
  | syncCi (i : ℕ)
  | gaveUp
  | loadCi
  | storePi (v : UInt32)
  | waitState
  | loadUPI
  | idle
  | getFree
  | fill
  | ring
  | wait
  | reading
  deriving DecidableEq, Repr

/-- Where the device thread is. `test` compares `mapPi` with `mapCi`; which of the two is read
first is for the compiler to decide, and the value read first is kept. -/
inductive DevicePc (σ : Type)
  | startPi
  | startCi
  | syncTest
  | syncTestCi (pi : UInt32)
  | syncTestPi (ci : UInt32)
  | setState
  | setFlag
  | test
  | testCi (pi : UInt32)
  | testPi (ci : UInt32)
  | processing (p : Prog σ)
  | ackLoad
  | ackStore (v : UInt32)

structure Page where
  mapPi : UInt32
  mapCi : UInt32
  mapState : UInt32
  buffers : Buffers

/-- Both parties, the page, and what an observer notes: the buffers at every ring, at every
start and at every end of a processing, and the words of responses the client read, each with
the number of its request. -/
structure State (σ : Type) where
  page : Page
  client : ClientPc
  uPI : UInt32
  device : DevicePc σ
  func : σ
  sent : List Buffers
  begun : List Buffers
  finished : List Buffers
  seen : List (ℕ × Fin 128 × UInt32)

/-- What the client does next. It decides what to write into `mapTx`, which words of `mapRx` to
read, and when to go on. -/
inductive ClientAct
  | next
  | write (w : Fin 128) (v : UInt32)
  | read (w : Fin 128)
  deriving DecidableEq, Repr

/-- One action; the device chooses which of two words it reads first. -/
inductive Act
  | client (a : ClientAct)
  | device (piFirst : Bool)
  deriving DecidableEq, Repr

section Steps
variable {σ : Type}

/-- The next round of the sync loop of `am_kd_open`. -/
def retry (i : ℕ) : ClientPc := if i + 1 < syncRetry then .sync (i + 1) else .gaveUp

/-- `am_kd_open`, `am_kpack_get_free_req`, the caller, and `am_kpack_send_and_wait`. -/
def clientStep (s : State σ) (a : ClientAct) : Option (State σ) :=
  match s.client, a with
  | .sync i, .next =>
    some { s with client := if s.page.mapPi = amKMapPiStart then .syncCi i else retry i }
  | .syncCi i, .next =>
    some { s with client := if s.page.mapCi = amKMapCiStart then .loadCi else retry i }
  | .loadCi, .next => some { s with client := .storePi s.page.mapCi }
  | .storePi v, .next => some { s with page := { s.page with mapPi := v }, client := .waitState }
  | .waitState, .next =>
    some { s with client := if s.page.mapState = amMapStateSynced then .loadUPI else .waitState }
  | .loadUPI, .next => some { s with uPI := s.page.mapCi, client := .idle }
  | .idle, .next => some { s with client := .getFree }
  | .getFree, .next =>
    some { s with client := if s.page.mapCi = s.uPI then .fill else .getFree }
  | .fill, .write w v =>
    some { s with page := { s.page with buffers := Function.update s.page.buffers (.tx w) v } }
  | .fill, .next => some { s with uPI := s.uPI + 1, client := .ring }
  | .ring, .next =>
    some { s with
      page := { s.page with mapPi := s.uPI }
      client := .wait
      sent := s.sent ++ [s.page.buffers] }
  | .wait, .next =>
    some { s with client := if s.page.mapCi = s.uPI then .reading else .wait }
  | .reading, .read w =>
    some { s with seen := s.seen ++ [(s.sent.length - 1, w, s.page.buffers (.rx w))] }
  | .reading, .next => some { s with client := .getFree }
  | _, _ => none

/-- `appmemd_map_thread`. `serve` is `am_pack_process_cmd` on the mapped function, and `setFlag`
sets `AM_FUNC_DATA_FLAG_MMAPPED`. -/
def deviceStep (serve : σ → Prog σ) (setFlag : σ → σ) (s : State σ) (piFirst : Bool) :
    Option (State σ) :=
  let changed := { s with
    device := .processing (serve s.func)
    begun := s.begun ++ [s.page.buffers] }
  match s.device with
  | .startPi =>
    some { s with page := { s.page with mapPi := amKMapPiStart }, device := .startCi }
  | .startCi =>
    some { s with page := { s.page with mapCi := amKMapCiStart }, device := .syncTest }
  | .syncTest =>
    some { s with
      device := if piFirst then .syncTestCi s.page.mapPi else .syncTestPi s.page.mapCi }
  | .syncTestCi pi =>
    some { s with device := if pi = s.page.mapCi then .setState else .syncTest }
  | .syncTestPi ci =>
    some { s with device := if s.page.mapPi = ci then .setState else .syncTest }
  | .setState =>
    some { s with page := { s.page with mapState := amMapStateSynced }, device := .setFlag }
  | .setFlag => some { s with func := setFlag s.func, device := .test }
  | .test =>
    some { s with device := if piFirst then .testCi s.page.mapPi else .testPi s.page.mapCi }
  | .testCi pi => some (if pi = s.page.mapCi then { s with device := .test } else changed)
  | .testPi ci => some (if s.page.mapPi = ci then { s with device := .test } else changed)
  | .processing (.done f) => some { s with func := f, device := .ackLoad }
  | .processing (.read c k) => some { s with device := .processing (k (s.page.buffers c)) }
  | .processing (.write c v k) =>
    some { s with
      page := { s.page with buffers := Function.update s.page.buffers c v }
      device := .processing k }
  | .processing .fault => none
  | .ackLoad => some { s with device := .ackStore s.page.mapPi }
  | .ackStore v =>
    some { s with
      page := { s.page with mapCi := v }
      device := .test
      finished := s.finished ++ [s.page.buffers] }

def step (serve : σ → Prog σ) (setFlag : σ → σ) (s : State σ) : Act → Option (State σ)
  | .client a => clientStep s a
  | .device piFirst => deviceStep serve setFlag s piFirst

/-- The page has just been faulted in: the thread exists, and the client tries to sync. -/
def start (f : σ) (m : Buffers) (uPI : UInt32) : State σ :=
  ⟨⟨freshPi, freshCi, freshState, m⟩, .sync 0, uPI, .startPi, f, [], [], [], []⟩

/-- The requests one after the other, each on buffers of its own: the function in the end, and
the buffers after each. -/
def serial (serve : σ → Prog σ) (f : σ) : List Buffers → Option (σ × List Buffers)
  | [] => some (f, [])
  | m :: ms => do
    let r ← (serve f).eval m
    let rest ← serial serve r.1 ms
    return (rest.1, r.2 :: rest.2)

theorem serial_append (serve : σ → Prog σ) (f : σ) (ms ns : List Buffers) :
    serial serve f (ms ++ ns) = (serial serve f ms).bind fun r =>
      (serial serve r.1 ns).bind fun q => some (q.1, r.2 ++ q.2) := by
  induction ms generalizing f with
  | nil =>
    cases h : serial serve f ns with
    | none => simp [serial, h]
    | some q => simp [serial, h]
  | cons m ms ih =>
    simp only [List.cons_append, serial, ih, Option.bind_eq_bind, Option.bind_assoc]
    rfl

end Steps

end AppMem.Mmap
