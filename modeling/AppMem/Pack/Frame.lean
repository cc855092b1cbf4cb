import AppMem.Memory

/-! # Packets

`AM_PACK_ALL_U` and `AM_PACK_RESP_U` are both a wrapper of 8 bytes followed by 504
bytes whose meaning depends on the wrapper. A datagram is a prefix of such a frame and
lands in a buffer that keeps what it held beyond the datagram's end.
-/
namespace AppMem.Pack
open Library.Bytes Library.Checked Abi Memory

structure PackWrapper where
  funcId : UInt16
  packType : UInt8
  op : UInt8
  appTag : UInt16
  size : UInt16
  deriving DecidableEq, Repr

def sizeofWrapper : ℕ := 8

def maxBasicPackUnionSize : ℕ := 512

def bodySize : ℕ := 504

namespace PackWrapper

def bytes (w : PackWrapper) : List UInt8 :=
  leBytes 2 w.funcId.toNat ++ [w.packType, w.op] ++ leBytes 2 w.appTag.toNat ++
    leBytes 2 w.size.toNat

def ofBytes (l : List UInt8) : PackWrapper where
  funcId := UInt16.ofNat (leVal (window l 0 2))
  packType := l.getD 2 0
  op := l.getD 3 0
  appTag := UInt16.ofNat (leVal (window l 4 2))
  size := UInt16.ofNat (leVal (window l 6 2))

@[simp] theorem length_bytes (w : PackWrapper) : w.bytes.length = 8 := by
  simp [bytes]

private theorem ofNat_leVal_leBytes (v : UInt16) :
    UInt16.ofNat (leVal (leBytes 2 v.toNat)) = v := by
  have hv : v.toNat < 256 ^ 2 := v.toNat_lt
  rw [leVal_leBytes_of_lt hv, UInt16.ofNat_toNat]

/-- A wrapper in front of any payload is read back. -/
theorem ofBytes_bytes_append (w : PackWrapper) (rest : List UInt8) :
    ofBytes (w.bytes ++ rest) = w := by
  have hf := ofNat_leVal_leBytes w.funcId
  have ht := ofNat_leVal_leBytes w.appTag
  have hs := ofNat_leVal_leBytes w.size
  obtain ⟨a, b, hab⟩ := List.length_eq_two.mp (length_leBytes 2 w.funcId.toNat)
  obtain ⟨c, d, hcd⟩ := List.length_eq_two.mp (length_leBytes 2 w.appTag.toNat)
  obtain ⟨e, f, hef⟩ := List.length_eq_two.mp (length_leBytes 2 w.size.toNat)
  rw [hab] at hf
  rw [hcd] at ht
  rw [hef] at hs
  cases w
  simp_all [ofBytes, bytes, window]

private theorem leBytes_ofNat_leVal {l : List UInt8} (h : l.length = 2) :
    leBytes 2 (UInt16.ofNat (leVal l)).toNat = l := by
  have hlt : leVal l < 2 ^ 16 := by
    have := leVal_lt l
    rw [h] at this
    omega
  have hl := leBytes_leVal l
  rw [h] at hl
  rw [UInt16.toNat_ofNat_of_lt' hlt, hl]

theorem bytes_ofBytes {l : List UInt8} (h : 8 ≤ l.length) : (ofBytes l).bytes = l.take 8 := by
  match l, h with
  | a :: b :: c :: d :: e :: f :: g :: i :: rest, _ =>
    have h0 := leBytes_ofNat_leVal (l := [a, b]) rfl
    have h4 := leBytes_ofNat_leVal (l := [e, f]) rfl
    have h6 := leBytes_ofNat_leVal (l := [g, i]) rfl
    simp only [ofBytes, bytes, window, List.drop_zero, List.drop_succ_cons, List.take_succ_cons,
      List.take_zero, List.getD_cons_succ, List.getD_cons_zero, h0, h4, h6, List.cons_append,
      List.nil_append]

end PackWrapper

@[ext] structure Frame where
  wrap : PackWrapper
  body : List UInt8
  length_body : body.length = bodySize
  deriving DecidableEq

abbrev PackAll := Frame
abbrev PackResp := Frame

namespace Frame

def zero : Frame where
  wrap := ⟨0, 0, 0, 0, 0⟩
  body := List.replicate bodySize 0
  length_body := List.length_replicate

def raw (f : Frame) : List UInt8 := f.wrap.bytes ++ f.body

@[simp] theorem length_raw (f : Frame) : f.raw.length = maxBasicPackUnionSize := by
  simp [raw, f.length_body, bodySize, maxBasicPackUnionSize]

def ofRaw (l : List UInt8) (h : l.length = maxBasicPackUnionSize) : Frame where
  wrap := PackWrapper.ofBytes l
  body := l.drop sizeofWrapper
  length_body := by simp [h, maxBasicPackUnionSize, sizeofWrapper, bodySize]

theorem raw_ofRaw (l : List UInt8) (h : l.length = maxBasicPackUnionSize) :
    (ofRaw l h).raw = l := by
  have hle : 8 ≤ l.length := by
    rw [h]
    decide
  change (PackWrapper.ofBytes l).bytes ++ l.drop 8 = l
  rw [PackWrapper.bytes_ofBytes hle, List.take_append_drop]

theorem ofRaw_raw (f : Frame) : ofRaw f.raw f.length_raw = f := by
  apply Frame.ext
  · exact PackWrapper.ofBytes_bytes_append _ _
  · change (f.wrap.bytes ++ f.body).drop 8 = f.body
    rw [List.drop_append, PackWrapper.length_bytes, List.drop_of_length_le (by simp)]
    rfl

def datagram (f : Frame) (n : ℕ) : List UInt8 := f.raw.take n

/-- `recvfrom` into a buffer of 512 bytes: what is longer is cut off, what the datagram does
not reach stays as it was. -/
def receive (slot : Frame) (d : List UInt8) : Frame :=
  ofRaw (splice slot.raw 0 (d.take maxBasicPackUnionSize)) (by
    rw [length_splice, length_raw]
    simp only [List.length_take, length_raw]
    omega)

def write (f : Frame) (off : ℕ) (src : List UInt8) : Exec Frame :=
  if h : off + src.length ≤ bodySize then
    .ok { f with
      body := splice f.body off src
      length_body := by rw [length_splice (by rw [f.length_body]; exact h), f.length_body] }
  else .error .bounds

theorem write_eq_ok {f g : Frame} {off : ℕ} {src : List UInt8} :
    f.write off src = .ok g ↔
      off + src.length ≤ bodySize ∧ g.wrap = f.wrap ∧ g.body = splice f.body off src := by
  unfold write
  split
  · rename_i h
    simp only [Except.ok.injEq, h, true_and]
    constructor
    · rintro rfl
      exact ⟨rfl, rfl⟩
    · rintro ⟨hw, hb⟩
      exact Frame.ext hw.symm hb.symm
  · rename_i h
    simp [h]

theorem write_of_le (f : Frame) (off : ℕ) (src : List UInt8) (h : off + src.length ≤ bodySize) :
    ∃ g, f.write off src = .ok g ∧ g.wrap = f.wrap ∧ g.body = splice f.body off src := by
  unfold write
  rw [dif_pos h]
  exact ⟨_, rfl, rfl, rfl⟩

/-- What was received can be read back. -/
theorem datagram_receive (slot : Frame) {d : List UInt8} (h : d.length ≤ maxBasicPackUnionSize) :
    (slot.receive d).datagram d.length = d := by
  rw [receive, datagram, raw_ofRaw, List.take_of_length_le h, take_splice_front (Nat.le_refl _),
    List.take_length]

/-- A datagram that holds the wrapper replaces the wrapper and a prefix of the payload. -/
theorem receive_datagram (slot f : Frame) {n : ℕ} (hlo : sizeofWrapper ≤ n)
    (hhi : n ≤ maxBasicPackUnionSize) :
    (slot.receive (f.datagram n)).wrap = f.wrap ∧
      (slot.receive (f.datagram n)).body = splice slot.body 0 (f.body.take (n - sizeofWrapper)) := by
  have htake : (f.datagram n).take maxBasicPackUnionSize =
      f.wrap.bytes ++ f.body.take (n - sizeofWrapper) := by
    rw [datagram, List.take_take, Nat.min_eq_right hhi, raw, List.take_append,
      PackWrapper.length_bytes, List.take_of_length_le]
    · rfl
    · rw [PackWrapper.length_bytes]
      exact hlo
  have hdrop : slot.raw.drop (8 + (f.body.take (n - sizeofWrapper)).length) =
      slot.body.drop (f.body.take (n - sizeofWrapper)).length := by
    rw [raw, List.drop_append, List.drop_of_length_le, PackWrapper.length_bytes,
      Nat.add_sub_cancel_left, List.nil_append]
    rw [PackWrapper.length_bytes]
    omega
  simp only [receive, ofRaw, htake, splice_zero, List.length_append, PackWrapper.length_bytes,
    hdrop, List.append_assoc]
  refine ⟨PackWrapper.ofBytes_bytes_append _ _, ?_⟩
  rw [List.drop_append, List.drop_of_length_le, PackWrapper.length_bytes]
  · rfl
  · rw [PackWrapper.length_bytes]
    exact Nat.le_refl _

theorem receive_full (slot f : Frame) : slot.receive (f.datagram maxBasicPackUnionSize) = f := by
  obtain ⟨hw, hb⟩ := receive_datagram slot f (n := maxBasicPackUnionSize) (by decide) (Nat.le_refl _)
  have hlen : maxBasicPackUnionSize - sizeofWrapper = f.body.length := f.length_body.symm
  refine Frame.ext hw ?_
  rw [hb, hlen, List.take_length, splice_zero, f.length_body, ← slot.length_body,
    List.drop_length, List.append_nil]

end Frame

end AppMem.Pack
