import AppMem.Mmap.Doorbell

/-! # Packet processing on the mapped page

`am_pack_process_cmd` with `mapTx` and `mapRx` as its buffers, as a computation that touches
their words one at a time. On buffers nobody else touches it is the dispatcher on frames.
-/
namespace AppMem.Mmap
open Library.Bytes Library.Checked Memory Pack Device

section Words

/-- A frame whose memory holds the given words; missing words are zero. -/
def frameOfWords (ws : List UInt32) : Frame :=
  Frame.ofRaw ((ws.flatMap u32Bytes ++ List.replicate maxBasicPackUnionSize 0).take
    maxBasicPackUnionSize) (by simp)

def frameWord (f : Frame) (w : ℕ) : UInt32 := u32OfBytes (f.raw.drop (4 * w))

theorem u32Bytes_frameWord (f : Frame) {w : ℕ} (hw : w < 128) :
    u32Bytes (frameWord f w) = window f.raw (4 * w) 4 := by
  have hlen := f.length_raw
  have htake : u32OfBytes (f.raw.drop (4 * w)) = u32OfBytes (window f.raw (4 * w) 4) := by
    simp only [u32OfBytes, window, List.take_take, Nat.min_self]
  rw [frameWord, htake]
  apply u32Bytes_u32OfBytes
  apply length_window
  rw [hlen, maxBasicPackUnionSize]
  omega

theorem flatMap_frameWord (f : Frame) {n : ℕ} (hn : n ≤ 128) :
    (List.range n).flatMap (fun w => u32Bytes (frameWord f w)) = f.raw.take (4 * n) := by
  induction n with
  | zero => simp
  | succ n ih =>
    have hnext := window_append f.raw 0 (4 * n) 4
    rw [window_zero, window_zero, Nat.zero_add] at hnext
    rw [List.range_succ, List.flatMap_append, ih (by omega), List.flatMap_singleton,
      u32Bytes_frameWord f (by omega), hnext, Nat.mul_succ]

theorem frameOfWords_frameWord (f : Frame) :
    frameOfWords ((List.finRange 128).map fun w => frameWord f w.val) = f := by
  have hwords : (List.finRange 128).map (fun w => frameWord f w.val) =
      (List.range 128).map (frameWord f) := by
    rw [← List.map_coe_finRange_eq_range, List.map_map]
    rfl
  have hraw : ((List.range 128).map (frameWord f)).flatMap u32Bytes = f.raw := by
    rw [List.flatMap_map, flatMap_frameWord f (Nat.le_refl _)]
    apply List.take_of_length_le
    rw [f.length_raw]
    decide
  conv_rhs => rw [← Frame.ofRaw_raw f]
  simp only [frameOfWords, hwords, hraw]
  congr 1
  rw [List.take_append_of_le_length f.length_raw.ge, List.take_of_length_le f.length_raw.le]

end Words

section Programs
variable {σ : Type}

def Prog.readCells : List Cell → (List UInt32 → Prog σ) → Prog σ
  | [], k => k []
  | c :: cs, k => .read c fun v => readCells cs fun vs => k (v :: vs)

/-- Write some words of `mapRx` and go on. -/
def Prog.writeRx (v : Fin 128 → UInt32) (ws : List (Fin 128)) (k : Prog σ) : Prog σ :=
  ws.foldr (fun w k => .write (.rx w) (v w) k) k

theorem eval_readCells (cs : List Cell) (k : List UInt32 → Prog σ) (m : Buffers) :
    (Prog.readCells cs k).eval m = (k (cs.map m)).eval m := by
  induction cs generalizing k with
  | nil => rfl
  | cons c cs ih => exact ih _

theorem eval_writeRx (v : Fin 128 → UInt32) (ws : List (Fin 128)) (k : Prog σ) (m : Buffers) :
    (Prog.writeRx v ws k).eval m = k.eval fun
      | .tx w => m (.tx w)
      | .rx w => if w ∈ ws then v w else m (.rx w) := by
  induction ws generalizing m with
  | nil =>
    have hm : (fun
        | .tx w => m (.tx w)
        | .rx w => if w ∈ ([] : List (Fin 128)) then v w else m (.rx w)) = m := by
      funext c
      cases c with
      | tx w => rfl
      | rx w => exact if_neg List.not_mem_nil
    rw [hm]
    rfl
  | cons a ws ih =>
    have hstep : (Prog.writeRx v (a :: ws) k).eval m =
        (Prog.writeRx v ws k).eval (Function.update m (.rx a) (v a)) := rfl
    rw [hstep, ih]
    congr 1
    funext c
    cases c with
    | tx w => exact Function.update_of_ne (by simp) _ _
    | rx w =>
      by_cases hw : w ∈ ws
      · simp [hw]
      · by_cases ha : w = a
        · subst ha
          simp [hw]
        · simp [hw, ha]

end Programs

def Buffers.mapTx (m : Buffers) : PackAll :=
  frameOfWords ((List.finRange 128).map fun w => m (.tx w))

def Buffers.mapRx (m : Buffers) : PackResp :=
  frameOfWords ((List.finRange 128).map fun w => m (.rx w))

def Buffers.putRx (m : Buffers) (f : PackResp) : Buffers
  | .tx w => m (.tx w)
  | .rx w => frameWord f w

@[simp] theorem mapTx_putRx (m : Buffers) (f : PackResp) : (m.putRx f).mapTx = m.mapTx := rfl

@[simp] theorem mapRx_putRx (m : Buffers) (f : PackResp) : (m.putRx f).mapRx = f :=
  frameOfWords_frameWord f

/-- `am_pack_process_cmd(pFunc, &mapTx, &mapRx, &tx_bytes)`. -/
def mapServe (env : Env) (stale : UInt32) (f : MemFunction) : Prog MemFunction :=
  .readCells ((List.finRange 128).map .tx) fun tx =>
    .readCells ((List.finRange 128).map .rx) fun rx =>
      match processDevice .kernel env f (frameOfWords tx) (frameOfWords rx) stale with
      | .error _ => .fault
      | .ok r => .writeRx (fun w => frameWord r.2.resp w) (List.finRange 128) (.done r.1)

/-- Alone with the page, the map thread does what the dispatcher does on frames. -/
theorem eval_mapServe (env : Env) (stale : UInt32) (f : MemFunction) (m : Buffers) :
    (mapServe env stale f).eval m =
      match processDevice .kernel env f m.mapTx m.mapRx stale with
      | .error _ => none
      | .ok r => some (r.1, m.putRx r.2.resp) := by
  have htx : frameOfWords (((List.finRange 128).map Cell.tx).map m) = m.mapTx := by
    rw [Buffers.mapTx, List.map_map]
    rfl
  have hrx : frameOfWords (((List.finRange 128).map Cell.rx).map m) = m.mapRx := by
    rw [Buffers.mapRx, List.map_map]
    rfl
  rw [mapServe, eval_readCells, eval_readCells, htx, hrx]
  cases processDevice .kernel env f m.mapTx m.mapRx stale with
  | error e => rfl
  | ok r =>
    simp only [eval_writeRx, Prog.eval]
    congr 2
    funext c
    cases c with
    | tx w => rfl
    | rx w => exact if_pos (List.mem_finRange w)

end AppMem.Mmap
