import AppMem.Device.Assca

/-! # Iterators of an associative array

`am_assca_iter`. An array has four cursors, each `NULL` or at the item that comes next. A
cursor that is `NULL` counts as free.
-/
namespace AppMem.Device
open Library.Bytes Library.Checked Abi Memory Hash

section Handles

def asscaIterFlagReset : UInt32 := 0x80000000
def asscaIterFlagNew : UInt32 := 0x40000000
def asscaIterFlagValid : UInt32 := 0x20000000
def asscaIterDone : UInt32 := 0x10000000
def asscaIterIdxMask : UInt32 := 3
def asscaIterInvalid : UInt32 := 0xF1FFFFFF

instance : NeZero maxAsscaIters := ⟨by decide⟩

def getIterIdx (x : UInt32) : Fin maxAsscaIters :=
  Fin.ofNat maxAsscaIters (x &&& asscaIterIdxMask).toNat

def freeCursor (pAA : AmlibAssca) : Option (Fin maxAsscaIters) :=
  (List.finRange maxAsscaIters).find? fun i => (pAA.pIterArray i).isNone

def iterHandle (i : Fin maxAsscaIters) : UInt32 := asscaIterFlagValid ||| i.val.toUInt32

/-- `am_assca_get_iter`; a reset is not implemented. -/
def amAsscaGetIter (pAA : AmlibAssca) (h : UInt32) : UInt32 :=
  if h &&& asscaIterFlagNew ≠ 0 then
    match freeCursor pAA with
    | some i => iterHandle i
    | none => asscaIterInvalid
  else if h &&& asscaIterFlagReset ≠ 0 ∧ (h &&& asscaIterIdxMask).toNat < maxAsscaIters then
    asscaIterInvalid
  else if h &&& asscaIterFlagValid ≠ 0 ∧ (h &&& asscaIterIdxMask).toNat < maxAsscaIters then h
  else asscaIterInvalid

end Handles

section Items

def rekey (i : ℕ) (key : List UInt8) (t : Table ℕ) : Table ℕ :=
  { t with buckets := t.buckets.map fun b => { b with
      chain := b.chain.map fun h => if h.elt = i then { h with key := key } else h } }

def AmlibAssca.setItem (pAA : AmlibAssca) (i : ℕ) (pAI : AsscaItem) : AmlibAssca :=
  { pAA with
    items := pAA.items.set i pAI
    table := pAA.table.map (rekey i pAI.key) }

/-- `COPY_TO_USER` from the key of an item, which the value follows in memory. -/
def copyKeyToUser (b : Build) (flags : UInt32) (p1 : List UInt8) (pAI : AsscaItem) (len : ℕ) :
    Exec (List UInt8 × AsscaItem) := do
  let r ← copyToUser b flags p1 (pAI.key ++ pAI.data) len
  return (r.1, ⟨r.2.take pAI.key.length, r.2.drop pAI.key.length⟩)

/-- What a call of `am_assca_iter` returns: the code, the handle, and the bytes stored through the
two pointers. -/
structure IterResult where
  error : AmReturn
  handle : UInt32
  out1 : List UInt8 := []
  out2 : List UInt8 := []
  deriving DecidableEq, Repr

def AmlibAssca.setCursor (pAA : AmlibAssca) (i : Fin maxAsscaIters) (c : Option ℕ) : AmlibAssca :=
  { pAA with pIterArray := Function.update pAA.pIterArray i c }

def AmlibAssca.next (pAA : AmlibAssca) (i : ℕ) : Option ℕ :=
  if i + 1 < pAA.items.length then some (i + 1) else none

/-- `am_assca_iter` on the array of a function. A call without a cursor to work on clears
the one that the mask leaves of the invalid handle. -/
def asscaIter (b : Build) (flags : UInt32) (pAA : AmlibAssca) (p1 : List UInt8) (l1 : UInt64)
    (p2 : List UInt8) (l2 : UInt64) (h : UInt32) : Exec (AmlibAssca × IterResult) :=
  let bHead := h &&& (asscaIterFlagReset ||| asscaIterFlagNew) ≠ 0
  let localIter := amAsscaGetIter pAA h
  if localIter ≠ asscaIterInvalid then
    let cursor := if bHead then (if pAA.items = [] then none else some 0)
      else pAA.pIterArray (getIterIdx localIter)
    match cursor with
    | none => .ok (pAA, ⟨amRetIterDone, localIter, [], []⟩)
    | some i =>
      match pAA.items[i]? with
      | none => .error .bounds
      | some pAI => do
        let pAA := pAA.setCursor (getIterIdx localIter) (pAA.next i)
        let key ← copyKeyToUser b flags p1 pAI l1.toUInt32.toNat
        let data ← copyToUser b flags p2 key.2.data l2.toUInt32.toNat
        return (if b.direct flags then pAA else pAA.setItem i { key.2 with data := data.2 },
          ⟨amRetGood, localIter, key.1, data.1⟩)
  else .ok (pAA.setCursor (getIterIdx localIter) none,
    ⟨amRetInvalidIter, (localIter &&& asscaIterIdxMask) ||| asscaIterDone, [], []⟩)

def amAsscaIter (b : Build) (f : MemFunction) (p1 : List UInt8) (l1 : UInt64) (p2 : List UInt8)
    (l2 : UInt64) (h : UInt32) : Exec (MemFunction × IterResult) :=
  match f.pVdF with
  | none => .ok (f, ⟨amRetGood, h, [], []⟩)
  | some (.assca fd) => do
    let r ← asscaIter b fd.flags fd.data p1 l1 p2 l2 h
    return (f.setAssca fd r.1, r.2)
  | some _ => .error .convention

end Items

section Lemmas
variable {pAA : AmlibAssca} {i : Fin maxAsscaIters}

theorem freeCursor_eq_some (h : freeCursor pAA = some i) : pAA.pIterArray i = none := by
  have hi := List.find?_some h
  simpa using hi

theorem freeCursor_eq_none : freeCursor pAA = none ↔ ∀ i, pAA.pIterArray i ≠ none := by
  simp [freeCursor, List.find?_eq_none]

theorem iterHandle_injective : Function.Injective iterHandle := by
  decide

@[simp] theorem getIterIdx_iterHandle (i : Fin maxAsscaIters) : getIterIdx (iterHandle i) = i := by
  revert i
  decide

theorem iterHandle_ne_invalid (i : Fin maxAsscaIters) : iterHandle i ≠ asscaIterInvalid := by
  revert i
  decide

/-- A handle that was given out does not start again. -/
theorem iterHandle_not_head (i : Fin maxAsscaIters) :
    ¬ iterHandle i &&& (asscaIterFlagReset ||| asscaIterFlagNew) ≠ 0 := by
  revert i
  decide

theorem amAsscaGetIter_iterHandle (pAA : AmlibAssca) (i : Fin maxAsscaIters) :
    amAsscaGetIter pAA (iterHandle i) = iterHandle i := by
  have hnew : ¬ iterHandle i &&& asscaIterFlagNew ≠ 0 := by
    revert i
    decide
  have hreset : ¬ (iterHandle i &&& asscaIterFlagReset ≠ 0 ∧
      (iterHandle i &&& asscaIterIdxMask).toNat < maxAsscaIters) := by
    revert i
    decide
  have hvalid : iterHandle i &&& asscaIterFlagValid ≠ 0 ∧
      (iterHandle i &&& asscaIterIdxMask).toNat < maxAsscaIters := by
    revert i
    decide
  rw [amAsscaGetIter, if_neg hnew, if_neg hreset, if_pos hvalid]

theorem amAsscaGetIter_new (pAA : AmlibAssca) : amAsscaGetIter pAA asscaIterFlagNew =
    match freeCursor pAA with
    | some i => iterHandle i
    | none => asscaIterInvalid := if_pos (by decide)

@[simp] theorem setCursor_self (pAA : AmlibAssca) (i : Fin maxAsscaIters) (c : Option ℕ) :
    (pAA.setCursor i c).pIterArray i = c := by
  simp [AmlibAssca.setCursor]

theorem setCursor_of_ne {j : Fin maxAsscaIters} (h : j ≠ i) (c : Option ℕ) :
    (pAA.setCursor i c).pIterArray j = pAA.pIterArray j := by
  simp [AmlibAssca.setCursor, h]

@[simp] theorem setCursor_items (pAA : AmlibAssca) (i : Fin maxAsscaIters) (c : Option ℕ) :
    (pAA.setCursor i c).items = pAA.items := rfl

end Lemmas

end AppMem.Device
