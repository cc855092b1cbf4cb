import AppMem.Assca.DriverReads
import AppMem.Hash.Pointers

/-! # An associative array in memory

`am_assca.c` with the items at their addresses. The handle of an item is linked by `uthash`, its
cursors are pointers to items, and a release walks along the links and frees one item after the
other.
-/
namespace AppMem.Assca
open Library.Bytes Library.Checked Abi Memory Hash Pack Device

/-- `AMLIB_ASSCA` and its items; a handle has the key of its item, `data` the value. -/
structure AsscaMem where
  keyLen : UInt32
  dataLen : UInt32
  bFixedKey : Bool
  bFixedData : Bool
  pIterArray : Fin maxAsscaIters → Option ℕ
  hash : HashMem
  data : ℕ → List UInt8

/-- A block of `AM_VALLOC`: its address, and what the handle in it happens to hold. -/
structure ItemBlock where
  addr : ℕ
  junk : HashHandle

/-- A use of an array in memory. A write may allocate. -/
inductive MemUse
  | write (env : Env) (block : ItemBlock) (p1 p2 : List UInt8)
  | read (p1 p2 : List UInt8)
  | iter (p1 : List UInt8) (l1 : UInt64) (p2 : List UInt8) (l2 : UInt64) (h : UInt32)

namespace MemUse

def use : MemUse → AsscaUse
  | write env _ p1 p2 => .write env p1 p2
  | read p1 p2 => .read p1 p2
  | iter p1 l1 p2 l2 h => .iter p1 l1 p2 l2 h

/-- The address that the allocator hands out in the use. -/
def block? : MemUse → Option ℕ
  | write env block _ _ => if env.alloc .asscaItem then some block.addr else none
  | _ => none

end MemUse

namespace AsscaMem

def init (keyLength dataLength : UInt32) (bFixedKey bFixedData : Bool) : AsscaMem where
  keyLen := keyLength
  dataLen := dataLength
  bFixedKey := bFixedKey
  bFixedData := bFixedData
  pIterArray := fun _ => none
  hash := ⟨fun _ => none, none, none⟩
  data := fun _ => []

variable (fuel : ℕ)

def getKeyVal (b : Build) (flags : UInt32) (s : AsscaMem) (pKey pData : List UInt8) :
    Exec (AsscaMem × Served) :=
  match s.hash.head with
  | none => .ok (s, { error := amRetKeyNotFound })
  | some _ => do
    let key ← readBytes pKey s.keyLen.toNat
    match ← find fuel s.hash key with
    | none => return (s, { error := amRetKeyNotFound })
    | some pAI => do
      let _ ← s.hash.get pAI
      let r ← copyToUser b flags pData (s.data pAI) s.dataLen.toNat
      return ({ s with data := Function.update s.data pAI r.2 },
        { error := amRetGood, out := r.1 })

def addKeyFixfix (env : Env) (block : ItemBlock) (s : AsscaMem) (pKey pData : List UInt8) :
    Exec (AsscaMem × Served) := do
  require (s.bFixedKey = true ∧ s.bFixedData = true) Fault.assertion
  if env.alloc .asscaItem then
    let data ← readBytes pData s.dataLen.toNat
    let key ← readBytes pKey s.keyLen.toNat
    let m := { s.hash with elems := Function.update s.hash.elems block.addr (some block.junk) }
    let m ← addKeyptr env fuel m key block.addr
    return ({ s with
      hash := m
      data := Function.update s.data block.addr data }, { error := amRetGood })
  else return (s, { error := amRetGood })

/-- The array as `am_assca_get_iter` looks at it: which cursors are `NULL`. -/
def cursors (s : AsscaMem) : AmlibAssca where
  keyLen := s.keyLen
  dataLen := s.dataLen
  bFixedKey := s.bFixedKey
  bFixedData := s.bFixedData
  pIterArray := s.pIterArray
  items := []
  table := none

def setCursor (s : AsscaMem) (i : Fin maxAsscaIters) (c : Option ℕ) : AsscaMem :=
  { s with pIterArray := Function.update s.pIterArray i c }

def setItem (s : AsscaMem) (pAI : ℕ) (item : AsscaItem) : AsscaMem :=
  { s with
    hash := s.hash.put pAI fun e => { e with key := item.key }
    data := Function.update s.data pAI item.data }

/-- `am_assca_iter` on the array of a function. -/
def iter (b : Build) (flags : UInt32) (s : AsscaMem) (p1 : List UInt8) (l1 : UInt64)
    (p2 : List UInt8) (l2 : UInt64) (h : UInt32) : Exec (AsscaMem × IterResult) :=
  let bHead := h &&& (asscaIterFlagReset ||| asscaIterFlagNew) ≠ 0
  let localIter := amAsscaGetIter s.cursors h
  if localIter ≠ asscaIterInvalid then
    match if bHead then s.hash.head else s.pIterArray (getIterIdx localIter) with
    | none => .ok (s, ⟨amRetIterDone, localIter, [], []⟩)
    | some pAI => do
      let e ← s.hash.get pAI
      let s := s.setCursor (getIterIdx localIter) e.next
      let key ← copyKeyToUser b flags p1 ⟨e.key, s.data pAI⟩ l1.toUInt32.toNat
      let data ← copyToUser b flags p2 key.2.data l2.toUInt32.toNat
      return (if b.direct flags then s else s.setItem pAI { key.2 with data := data.2 },
        ⟨amRetGood, localIter, key.1, data.1⟩)
  else .ok (s.setCursor (getIterIdx localIter) none,
    ⟨amRetInvalidIter, (localIter &&& asscaIterIdxMask) ||| asscaIterDone, [], []⟩)

def step (b : Build) (flags : UInt32) (s : AsscaMem) : MemUse → Exec (AsscaMem × UseResult)
  | .write env block p1 p2 => do
    let r ← s.addKeyFixfix fuel env block p1 p2
    return (r.1, ⟨r.2.error, 0, p1, p2⟩)
  | .read p1 p2 => do
    let r ← s.getKeyVal fuel b flags p1 p2
    let buf ← writeBytes p2 r.2.out
    return (r.1, ⟨r.2.error, 0, p1, buf⟩)
  | .iter p1 l1 p2 l2 h => do
    let r ← s.iter b flags p1 l1 p2 l2 h
    let buf1 ← writeBytes p1 r.2.out1
    let buf2 ← writeBytes p2 r.2.out2
    return (r.1, ⟨r.2.error, r.2.handle, buf1, buf2⟩)

/-- The items of `am_assca_release`. -/
def release (s : AsscaMem) : Exec AsscaMem := do
  let m ← releaseFrom fuel s.hash s.hash.head
  return { s with hash := m }

end AsscaMem

end AppMem.Assca
