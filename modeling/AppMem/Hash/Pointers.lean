import AppMem.Hash.Table
import AppMem.Library.Doubly

/-! # `uthash` in memory

The macros with the pointers they follow and turn. An element and the handle in it go by one
address; every handle has two pairs of links, one for the order in which the elements came and one
for the chain of its bucket. An address without an element has been freed, or was never allocated.
Loops along links have a bound, behind which they are taken not to end.
-/
namespace AppMem.Hash
open Library.Checked Library.Doubly Abi Memory

/-- `UT_hash_handle`; `key` has the bytes that its pointer and `keylen` stand for. -/
structure HashHandle where
  prev : Option ℕ
  next : Option ℕ
  hhPrev : Option ℕ
  hhNext : Option ℕ
  key : List UInt8
  hashv : UInt32

structure HashBucket where
  hhHead : Option ℕ
  count : UInt32
  expandMult : UInt32

structure HashTable where
  buckets : List HashBucket
  numBuckets : UInt32
  log2NumBuckets : UInt32
  numItems : UInt32
  tail : Option ℕ
  idealChainMaxlen : UInt32
  nonidealItems : UInt32
  ineffExpands : UInt32
  noexpand : UInt32

/-- The elements in memory, the head pointer, and the table that the handles of all elements
point to. -/
structure HashMem where
  elems : ℕ → Option HashHandle
  head : Option ℕ
  table : Option HashTable

namespace HashMem

def get (m : HashMem) (a : ℕ) : Exec HashHandle :=
  match m.elems a with
  | none => .error .useAfterFree
  | some e => .ok e

def put (m : HashMem) (a : ℕ) (f : HashHandle → HashHandle) : HashMem :=
  { m with elems := Function.update m.elems a ((m.elems a).map f) }

def modify (m : HashMem) (a : ℕ) (f : HashHandle → HashHandle) : Exec HashMem := do
  let _ ← m.get a
  return m.put a f

def modifyAt (m : HashMem) (p : Option ℕ) (f : HashHandle → HashHandle) : Exec HashMem :=
  match p with
  | none => .ok m
  | some a => m.modify a f

def tbl (m : HashMem) : Exec HashTable :=
  match m.head with
  | none => .error .nullPointer
  | some a => do
    let _ ← m.get a
    match m.table with
    | none => .error .useAfterFree
    | some t => .ok t

def freeElem (m : HashMem) (a : ℕ) : Exec HashMem := do
  let _ ← m.get a
  return { m with elems := Function.update m.elems a none }

end HashMem

section Expand

/-- The memory, the new buckets and `nonideal_items` while `HASH_EXPAND_BUCKETS` runs. -/
structure Moving where
  mem : HashMem
  buckets : List HashBucket
  nonidealItems : UInt32

/-- Move the handle at `thh` to the head of its new chain. -/
def moveHandle (ideal numBkts : UInt32) (s : Moving) (thh : ℕ) (h : HashHandle) : Exec Moving :=
  let bkt := (hashToBkt h.hashv numBkts).toNat
  match s.buckets[bkt]? with
  | none => .error .bounds
  | some b =>
    let count := b.count + 1
    let relink (mult nonideal : UInt32) : Exec Moving := do
      let m ← s.mem.modify thh fun e => { e with
        hhPrev := none
        hhNext := b.hhHead }
      let m ← m.modifyAt b.hhHead fun e => { e with hhPrev := some thh }
      return ⟨m, s.buckets.set bkt ⟨some thh, count, mult⟩, nonideal⟩
    if ideal < count then
      if ideal = 0 then .error .divisionByZero
      else relink (count / ideal) (s.nonidealItems + 1)
    else relink b.expandMult s.nonidealItems

def moveChain (ideal numBkts : UInt32) : ℕ → Moving → Option ℕ → Exec Moving
  | _, s, none => .ok s
  | 0, _, some _ => .error .hang
  | fuel + 1, s, some thh => do
    let h ← s.mem.get thh
    let s ← moveHandle ideal numBkts s thh h
    moveChain ideal numBkts fuel s h.hhNext

/-- `ideal_chain_maxlen` of the doubled table. -/
def HashTable.idealAfter (t : HashTable) : UInt32 :=
  (t.numItems >>> (t.log2NumBuckets + 1)) +
    (if t.numItems &&& (t.numBuckets * 2 - 1) ≠ 0 then 1 else 0)

def expandBuckets (env : Env) (fuel : ℕ) (m : HashMem) (t : HashTable) : Exec HashMem := do
  require (env.alloc .hashExpand) Fault.assertion
  let start : Moving := ⟨m, List.replicate (2 * t.numBuckets).toNat ⟨none, 0, 0⟩, 0⟩
  let s ← t.buckets.foldlM (fun s b => moveChain t.idealAfter (t.numBuckets * 2) fuel s b.hhHead) start
  let ineffExpands := if t.numItems >>> 1 < s.nonidealItems then t.ineffExpands + 1 else 0
  return { s.mem with table := some { t with
    buckets := s.buckets
    numBuckets := t.numBuckets * 2
    log2NumBuckets := t.log2NumBuckets + 1
    idealChainMaxlen := t.idealAfter
    nonidealItems := s.nonidealItems
    ineffExpands := ineffExpands
    noexpand := if 1 < ineffExpands then 1 else t.noexpand } }

end Expand

section Add

def addToBkt (env : Env) (fuel : ℕ) (m : HashMem) (t : HashTable) (bkt add : ℕ) : Exec HashMem :=
  match t.buckets[bkt]? with
  | none => .error .bounds
  | some b => do
    let m ← m.modify add fun e => { e with
      hhNext := b.hhHead
      hhPrev := none }
    let m ← m.modifyAt b.hhHead fun e => { e with hhPrev := some add }
    let t := { t with buckets := t.buckets.set bkt ⟨some add, b.count + 1, b.expandMult⟩ }
    if (b.expandMult + 1) * hashBktCapacityThresh ≤ b.count + 1 ∧ t.noexpand ≠ 1 then
      expandBuckets env fuel m t
    else return { m with table := some t }

def makeTable (env : Env) (add : ℕ) : Exec HashTable := do
  require (env.alloc .hashTable) Fault.assertion
  require (env.alloc .hashBuckets) Fault.assertion
  return {
    buckets := List.replicate hashInitialNumBuckets.toNat ⟨none, 0, 0⟩
    numBuckets := hashInitialNumBuckets
    log2NumBuckets := hashInitialNumBucketsLog2
    numItems := 0
    tail := some add
    idealChainMaxlen := 0
    nonidealItems := 0
    ineffExpands := 0
    noexpand := 0 }

/-- `HASH_ADD_KEYPTR` up to the counter: the element at `add` is linked behind the last one, or it
is the first and brings the table. -/
def appendElem (env : Env) (m : HashMem) (add : ℕ) : Exec HashMem :=
  match m.head with
  | none => do
    let m ← m.modify add fun e => { e with prev := none }
    let t ← makeTable env add
    return { m with
      head := some add
      table := some t }
  | some _ => do
    let t ← m.tbl
    match t.tail with
    | none => .error .nullPointer
    | some tail => do
      let m ← m.modify tail fun e => { e with next := some add }
      let m ← m.modify add fun e => { e with prev := some tail }
      return { m with table := some { t with tail := some add } }

def addKeyptr (env : Env) (fuel : ℕ) (m : HashMem) (key : List UInt8) (add : ℕ) :
    Exec HashMem := do
  let m ← m.modify add fun e => { e with
    next := none
    key := key }
  let m ← appendElem env m add
  let t ← m.tbl
  let t := { t with numItems := t.numItems + 1 }
  let hashv := hashJen key
  let m ← m.modify add fun e => { e with hashv := hashv }
  addToBkt env fuel m t (hashToBkt hashv t.numBuckets).toNat add

end Add

section Find

def findInBkt (m : HashMem) (key : List UInt8) : ℕ → Option ℕ → Exec (Option ℕ)
  | _, none => .ok none
  | 0, some _ => .error .hang
  | fuel + 1, some out => do
    let e ← m.get out
    if e.key.length == key.length && e.key == key then return some out
    else findInBkt m key fuel e.hhNext

def find (fuel : ℕ) (m : HashMem) (key : List UInt8) : Exec (Option ℕ) :=
  match m.head with
  | none => .ok none
  | some _ => do
    let t ← m.tbl
    match t.buckets[(hashToBkt (hashJen key) t.numBuckets).toNat]? with
    | none => .error .bounds
    | some b => findInBkt m key fuel b.hhHead

end Find

section Delete

def delInBkt (m : HashMem) (t : HashTable) (bkt del : ℕ) : Exec HashMem :=
  match t.buckets[bkt]? with
  | none => .error .bounds
  | some b => do
    let e ← m.get del
    let hhHead := if b.hhHead = some del then e.hhNext else b.hhHead
    let m ← m.modifyAt e.hhPrev fun p => { p with hhNext := e.hhNext }
    let m ← m.modifyAt e.hhNext fun n => { n with hhPrev := e.hhPrev }
    return { m with table := some { t with
      buckets := t.buckets.set bkt ⟨hhHead, b.count - 1, b.expandMult⟩
      numItems := t.numItems - 1 } }

/-- `HASH_DELETE`. The last element takes the buckets and the table with it. -/
def delete (m : HashMem) (del : ℕ) : Exec HashMem := do
  let e ← m.get del
  let t ← m.tbl
  if e.prev = none ∧ e.next = none then
    return { m with
      head := none
      table := none }
  else do
    let t := { t with tail := if t.tail = some del then e.prev else t.tail }
    let m ← m.modifyAt e.prev fun p => { p with next := e.next }
    let m := { m with head := if e.prev = none then e.next else m.head }
    let m ← m.modifyAt e.next fun n => { n with prev := e.prev }
    let _ ← m.tbl
    delInBkt m t (hashToBkt e.hashv t.numBuckets).toNat del

/-- The loop of `am_assca_release` from the element at `el` on: `HASH_ITER` has read the link of
the next one before the element is deleted and freed. -/
def releaseFrom : ℕ → HashMem → Option ℕ → Exec HashMem
  | _, m, none => .ok m
  | 0, _, some _ => .error .hang
  | fuel + 1, m, some el => do
    let e ← m.get el
    let m ← delete m el
    let m ← m.freeElem el
    releaseFrom fuel m e.next

end Delete

end AppMem.Hash
