import AppMem.Device.Function

/-! # Records and their bytes

A capability is read back from its bytes, whatever stands behind them.
-/
namespace AppMem.Device
open Library.Bytes Library.Checked Abi Memory

section Fields
variable {α : Type*}

theorem drop_field {l a b : List α} {p n : ℕ} (h : l.drop p = a ++ b) (ha : a.length = n) :
    l.drop (p + n) = b := by
  rw [← List.drop_drop, h, List.drop_left' ha]

theorem u32OfBytes_field (v : UInt32) (rest : List UInt8) :
    u32OfBytes (u32Bytes v ++ rest) = v := by
  have hfront : (u32Bytes v ++ rest).take 4 = u32Bytes v := List.take_left' (length_u32Bytes v)
  have hword := u32OfBytes_u32Bytes v
  rw [u32OfBytes, List.take_of_length_le (length_u32Bytes v).le] at hword
  rw [u32OfBytes, hfront, hword]

theorem u32OfBytes_word (ws : List UInt32) (rest : List UInt8) {i : ℕ} (h : i < ws.length) :
    u32OfBytes ((ws.flatMap u32Bytes ++ rest).drop (4 * i)) = ws[i] := by
  induction ws generalizing i with
  | nil => cases h
  | cons w ws ih =>
    rw [List.flatMap_cons, List.append_assoc]
    cases i with
    | zero => exact u32OfBytes_field w _
    | succ i =>
      have hnext : 4 * (i + 1) = 4 + 4 * i := by omega
      rw [hnext, ← List.drop_drop, List.drop_left' (length_u32Bytes w)]
      exact ih (Nat.lt_of_succ_lt_succ h)

theorem u32OfBytes_ofFn {n : ℕ} (g : Fin n → UInt32) (rest : List UInt8) (i : Fin n) :
    u32OfBytes (((List.ofFn g).flatMap u32Bytes ++ rest).drop (4 * i)) = g i := by
  have hi : (i : ℕ) < (List.ofFn g).length := by
    rw [List.length_ofFn]
    exact i.isLt
  rw [u32OfBytes_word _ _ hi, List.getElem_ofFn]

theorem leVal_field {n v : ℕ} (h : v < 256 ^ n) (rest : List UInt8) :
    leVal ((leBytes n v ++ rest).take n) = v := by
  rw [List.take_left' (length_leBytes n v), leVal_leBytes_of_lt h]

end Fields

/-- A capability survives being copied as bytes. -/
theorem AmMemCap.ofBytes_bytes (c : AmMemCap) (rest : List UInt8) :
    AmMemCap.ofBytes (c.bytes ++ rest) = c := by
  let ops := (List.ofFn c.acOps).flatMap u32Bytes ++ ([0, 0, 0, 0] ++ rest)
  let words := (List.ofFn c.typeSpecific).flatMap u32Bytes ++ ops
  have htype : (c.bytes ++ rest).drop 0 = u32Bytes c.amType ++ ([0, 0, 0, 0] ++
      (leBytes 8 c.maxSize.toNat ++ (u32Bytes c.subType ++ (u32Bytes c.functionCount ++
        (u32Bytes c.accessFlags ++ words))))) := by
    simp only [AmMemCap.bytes, words, ops, List.append_assoc, List.drop_zero]
  have hpad := drop_field htype (length_u32Bytes _)
  have hsize := drop_field (n := 4) hpad rfl
  have hsub := drop_field hsize (length_leBytes 8 _)
  have hcount := drop_field hsub (length_u32Bytes _)
  have hflags := drop_field hcount (length_u32Bytes _)
  have hwords := drop_field hflags (length_u32Bytes _)
  have hops : (c.bytes ++ rest).drop (28 + 128) = ops := by
    apply drop_field hwords
    rw [length_words, List.length_ofFn]
  have hmax : c.maxSize.toNat < 256 ^ 8 := c.maxSize.toNat_lt
  have hword : ∀ i : Fin 32, u32OfBytes ((c.bytes ++ rest).drop (28 + 4 * i)) = c.typeSpecific i := by
    intro i
    rw [← List.drop_drop, hwords]
    exact u32OfBytes_ofFn _ _ i
  have hop : ∀ i : Fin 2, u32OfBytes ((c.bytes ++ rest).drop (156 + 4 * i)) = c.acOps i := by
    intro i
    rw [← List.drop_drop, hops]
    exact u32OfBytes_ofFn _ _ i
  rw [List.drop_zero] at htype
  cases c with
  | mk amType maxSize subType functionCount accessFlags typeSpecific acOps =>
    simp only [AmMemCap.ofBytes, AmMemCap.mk.injEq]
    refine ⟨?_, ?_, ?_, ?_, ?_, funext hword, funext hop⟩
    · rw [htype]
      exact u32OfBytes_field _ _
    · rw [window, hsize, leVal_field hmax, UInt64.ofNat_toNat]
    · rw [hsub]
      exact u32OfBytes_field _ _
    · rw [hcount]
      exact u32OfBytes_field _ _
    · rw [hflags]
      exact u32OfBytes_field _ _

end AppMem.Device
