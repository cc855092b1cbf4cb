import AppMem.Assca.PacketPath
import AppMem.Library.Cells

/-! # Sequences of writes and reads of cells

Which sequences are proper, what their reads should return, and what they do return when every
operation works on a storage: at each place what was last written there.
-/
namespace AppMem.Cells
open Library.Bytes Library.Checked Library.Cells Abi Memory Pack Device Assca

abbrev Written := List UInt8 × List UInt8

section Sequences
variable (idx data : ℕ) (off : ℕ → ℕ)

def place (key : List UInt8) : ℕ := off (leVal key)

def keyOf : AsscaOp → List UInt8
  | .write p1 _ => p1.take idx
  | .read p1 _ => p1.take idx

def note (past : List Written) : AsscaOp → List Written
  | .write p1 p2 => past ++ [(p1.take idx, p2.take data)]
  | .read _ _ => past

def EachOp (P : List Written → AsscaOp → Prop) : List Written → List AsscaOp → Prop
  | _, [] => True
  | past, op :: ops => P past op ∧ EachOp P (note idx data past op) ops

/-- The buffers have room, the index is in range, and it was written before it is read. -/
def ProperOp (inRange : ℕ → Prop) (past : List Written) (op : AsscaOp) : Prop :=
  op.Fits idx data ∧ inRange (leVal (keyOf idx op)) ∧
    match op with
    | .write _ _ => True
    | .read p1 _ => ∃ v, lastOf past (p1.take idx) = some v

def Proper (inRange : ℕ → Prop) : List Written → List AsscaOp → Prop :=
  EachOp idx data (ProperOp idx data inRange)

/-- Where the last value of an index was written nothing else was written since. -/
def UndisturbedOp (past : List Written) : AsscaOp → Prop
  | .write _ _ => True
  | .read p1 _ => lastOf past (p1.take idx) =
      some (seenAt (place off) past (place off (p1.take idx)) data)

def Undisturbed : List Written → List AsscaOp → Prop :=
  EachOp idx data (UndisturbedOp idx data off)

/-- Every read is good and returns the last value written at its index. -/
def LastReturned : List Written → List AsscaOp → List AlignResult → Prop
  | _, [], outs => outs = []
  | past, .write p1 p2 :: ops, _ :: outs =>
    LastReturned (note idx data past (.write p1 p2)) ops outs
  | past, .read p1 _ :: ops, o :: outs =>
    (o.error = amRetGood ∧ lastOf past (p1.take idx) = some (o.p2.take data)) ∧
      LastReturned past ops outs
  | _, _ :: _, [] => False

def results : List Written → List AsscaOp → List AlignResult
  | _, [] => []
  | past, .write p1 p2 :: ops =>
    ⟨amRetGood, p2⟩ :: results (note idx data past (.write p1 p2)) ops
  | past, .read p1 p2 :: ops =>
    ⟨amRetGood, splice p2 0 (seenAt (place off) past (place off (p1.take idx)) data)⟩ ::
      results past ops

end Sequences

section Results
variable {idx data : ℕ} {off : ℕ → ℕ} {inRange : ℕ → Prop} {past : List Written}
  {ops : List AsscaOp}

theorem length_note (hpast : ∀ w ∈ past, w.2.length = data) {op : AsscaOp} (hop : op.Fits idx data) :
    ∀ w ∈ note idx data past op, w.2.length = data := by
  cases op with
  | read p1 p2 => exact hpast
  | write p1 p2 =>
    intro w hw
    rcases List.mem_append.mp hw with hw | hw
    · exact hpast w hw
    · rw [List.mem_singleton.mp hw]
      exact List.length_take_of_le hop.2

theorem isSome_of_lastOf (hpast : ∀ w ∈ past, w.2.length = data) {key v : List UInt8}
    (hv : lastOf past key = some v) :
    ∀ k < data, (lastAt (place off) past (place off key + k)).isSome := by
  intro k hk
  have hlen : v.length = data := hpast _ (mem_of_lastOf hv)
  exact isSome_lastAt_of_lastOf hv (hlen.symm ▸ hk)

/-- On a storage the reads return the last values just when these were not disturbed. -/
theorem lastReturned_results (hpast : ∀ w ∈ past, w.2.length = data)
    (hp : Proper idx data inRange past ops) :
    LastReturned idx data past ops (results idx data off past ops) ↔
      Undisturbed idx data off past ops := by
  induction ops generalizing past with
  | nil => exact iff_of_true rfl trivial
  | cons op ops ih =>
    have hrest := ih (length_note hpast hp.1.1) hp.2
    cases op with
    | write p1 p2 => exact hrest.trans (iff_of_eq (true_and _)).symm
    | read p1 p2 =>
      obtain ⟨v, hv⟩ := hp.1.2.2
      have hlen : (seenAt (place off) past (place off (p1.take idx)) data).length = data :=
        length_seenAt (isSome_of_lastOf hpast hv)
      have hbuf : (splice p2 0 (seenAt (place off) past (place off (p1.take idx)) data)).take data =
          seenAt (place off) past (place off (p1.take idx)) data := by
        rw [take_splice_front hlen.ge, List.take_of_length_le hlen.le]
      apply and_congr _ hrest
      rw [hbuf]
      exact and_iff_right rfl

end Results

section Runs
variable {σ : Type} {step : σ → AsscaOp → Exec (σ × AlignResult)} {idx data : ℕ} {off : ℕ → ℕ}
  {inRange : ℕ → Prop} {holds : σ → List UInt8 → Prop}

structure WorksOn (step : σ → AsscaOp → Exec (σ × AlignResult)) (idx data : ℕ) (off : ℕ → ℕ)
    (inRange : ℕ → Prop) (holds : σ → List UInt8 → Prop) : Prop where
  room : ∀ s mem i, holds s mem → inRange i → off i + data ≤ mem.length
  write : ∀ s mem p1 p2, holds s mem → (AsscaOp.write p1 p2).Fits idx data →
    inRange (leVal (p1.take idx)) → ∃ s', step s (.write p1 p2) = .ok (s', ⟨amRetGood, p2⟩) ∧
      holds s' (splice mem (place off (p1.take idx)) (p2.take data))
  read : ∀ s mem p1 p2, holds s mem → (AsscaOp.read p1 p2).Fits idx data →
    inRange (leVal (p1.take idx)) → ∃ s', step s (.read p1 p2) =
      .ok (s', ⟨amRetGood, splice p2 0 (window mem (place off (p1.take idx)) data)⟩) ∧
      holds s' mem

/-- Then a proper sequence has the results of a storage, by induction on the sequence: the storage
remembers the writes so far. -/
theorem WorksOn.run (W : WorksOn step idx data off inRange holds) {s : σ} {mem : List UInt8}
    {past : List Written} {ops : List AsscaOp} (hs : holds s mem)
    (hmem : Remembers (place off) past mem) (hpast : ∀ w ∈ past, w.2.length = data)
    (hp : Proper idx data inRange past ops) :
    ∃ s', trace step s ops = .ok (s', results idx data off past ops) := by
  induction ops generalizing s mem past with
  | nil => exact ⟨s, rfl⟩
  | cons op ops ih =>
    obtain ⟨⟨hfit, hin, hread⟩, hops⟩ := hp
    have hpast' := length_note hpast hfit
    have hroom := W.room s mem _ hs hin
    cases op with
    | write p1 p2 =>
      obtain ⟨s₁, hstep, hs₁⟩ := W.write s mem p1 p2 hs hfit hin
      have hval : (p2.take data).length = data := List.length_take_of_le hfit.2
      have hmem' : Remembers (place off) (past ++ [(p1.take idx, p2.take data)])
          (splice mem (place off (p1.take idx)) (p2.take data)) :=
        hmem.write (w := (p1.take idx, p2.take data)) (hval.symm ▸ hroom)
      obtain ⟨s', hrun⟩ := ih hs₁ hmem' hpast' hops
      refine ⟨s', ?_⟩
      rw [trace_cons, hstep, ok_bind, hrun]
      rfl
    | read p1 p2 =>
      obtain ⟨v, hv⟩ := hread
      obtain ⟨s₁, hstep, hs₁⟩ := W.read s mem p1 p2 hs hfit hin
      obtain ⟨s', hrun⟩ := ih hs₁ hmem hpast' hops
      refine ⟨s', ?_⟩
      rw [trace_cons, hstep, ok_bind, hrun, hmem.window_eq (isSome_of_lastOf hpast hv) hroom]
      rfl

end Runs

end AppMem.Cells
