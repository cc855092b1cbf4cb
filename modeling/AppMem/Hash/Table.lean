import AppMem.Library.Bytes
import AppMem.Memory

/-! # The `uthash` table

The part of `uthash.h` the associative array uses: Jenkins' hash, adding at the head of a
bucket chain, doubling the buckets, and finding the first match. Counters are 32 bits wide
as in the source. A handle stands for the element it is embedded in.
-/
namespace AppMem.Hash
open Library.Bytes Library.Checked Abi Memory

section Jenkins

/-- `_hj_i`, `_hj_j` and `hashv`. -/
structure Jen where
  i : UInt32
  j : UInt32
  hashv : UInt32

/-- One line of `HASH_JEN_MIX`, shifting right or left. -/
def mixR (a b c s : UInt32) : UInt32 := (a - b - c) ^^^ (c >>> s)
def mixL (a b c s : UInt32) : UInt32 := (a - b - c) ^^^ (c <<< s)

def hashJenMix (s : Jen) : Jen :=
  let a := mixR s.i s.j s.hashv 13
  let b := mixL s.j s.hashv a 8
  let c := mixR s.hashv a b 13
  let a := mixR a b c 12
  let b := mixL b c a 16
  let c := mixR c a b 5
  let a := mixR a b c 3
  let b := mixL b c a 10
  let c := mixR c a b 15
  ⟨a, b, c⟩

/-- Four bytes of the key from offset `off` on; bytes past the end count as zero. -/
def keyWord (key : List UInt8) (off : ℕ) : UInt32 :=
  (key.getD off 0).toUInt32 + ((key.getD (off + 1) 0).toUInt32 <<< 8) +
    ((key.getD (off + 2) 0).toUInt32 <<< 16) + ((key.getD (off + 3) 0).toUInt32 <<< 24)

def hashJenBlocks : ℕ → List UInt8 → Jen → Jen × List UInt8
  | 0, key, s => (s, key)
  | n + 1, key, s =>
    hashJenBlocks n (key.drop 12)
      (hashJenMix ⟨s.i + keyWord key 0, s.j + keyWord key 4, s.hashv + keyWord key 8⟩)

/-- `HASH_JEN`, the hash value. The last block leaves out the lowest byte of `hashv`, where
the length was added. -/
def hashJen (key : List UInt8) : UInt32 :=
  let r := hashJenBlocks (key.length / 12) key ⟨0x9e3779b9, 0x9e3779b9, 0xfeedbeef⟩
  let tail := (r.2.drop 8).take 3
  (hashJenMix ⟨r.1.i + keyWord r.2 0, r.1.j + keyWord r.2 4,
    r.1.hashv + key.length.toUInt32 + keyWord (0 :: tail) 0⟩).hashv

end Jenkins

/-- `UT_hash_handle`: the key, its hash value and the element that holds the handle. -/
structure Handle (α : Type) where
  key : List UInt8
  hashv : UInt32
  elt : α
  deriving DecidableEq, Repr

/-- `UT_hash_bucket`, with the chain from `hh_head` on. -/
structure Bucket (α : Type) where
  chain : List (Handle α)
  count : UInt32
  expandMult : UInt32
  deriving DecidableEq, Repr

structure Table (α : Type) where
  buckets : List (Bucket α)
  numBuckets : UInt32
  log2NumBuckets : UInt32
  numItems : UInt32
  idealChainMaxlen : UInt32
  nonidealItems : UInt32
  ineffExpands : UInt32
  noexpand : UInt32
  deriving DecidableEq, Repr

def hashInitialNumBuckets : UInt32 := 32
def hashInitialNumBucketsLog2 : UInt32 := 5
def hashBktCapacityThresh : UInt32 := 10

def hashToBkt (hashv numBkts : UInt32) : UInt32 := hashv &&& (numBkts - 1)

section Operations
variable {α : Type}

def Bucket.empty : Bucket α := ⟨[], 0, 0⟩

def hashMakeTable (env : Env) : Exec (Table α) := do
  require (env.alloc .hashTable) Fault.assertion
  require (env.alloc .hashBuckets) Fault.assertion
  return {
    buckets := List.replicate hashInitialNumBuckets.toNat Bucket.empty
    numBuckets := hashInitialNumBuckets
    log2NumBuckets := hashInitialNumBucketsLog2
    numItems := 0
    idealChainMaxlen := 0
    nonidealItems := 0
    ineffExpands := 0
    noexpand := 0 }

/-- The new buckets and `nonideal_items` while `HASH_EXPAND_BUCKETS` runs. -/
structure Rehash (α : Type) where
  buckets : List (Bucket α)
  nonidealItems : UInt32

def rehashHandle (ideal numBkts : UInt32) (r : Rehash α) (h : Handle α) : Exec (Rehash α) :=
  let bkt := (hashToBkt h.hashv numBkts).toNat
  match r.buckets[bkt]? with
  | none => .error .bounds
  | some b =>
    let count := b.count + 1
    if ideal < count then
      if ideal = 0 then .error .divisionByZero
      else .ok ⟨r.buckets.set bkt ⟨h :: b.chain, count, count / ideal⟩, r.nonidealItems + 1⟩
    else .ok ⟨r.buckets.set bkt ⟨h :: b.chain, count, b.expandMult⟩, r.nonidealItems⟩

/-- `ideal_chain_maxlen` of the doubled table. -/
def Table.idealAfter (t : Table α) : UInt32 :=
  (t.numItems >>> (t.log2NumBuckets + 1)) +
    (if t.numItems &&& (t.numBuckets * 2 - 1) ≠ 0 then 1 else 0)

def hashExpandBuckets (env : Env) (t : Table α) : Exec (Table α) := do
  require (env.alloc .hashExpand) Fault.assertion
  let start : Rehash α := ⟨List.replicate (2 * t.numBuckets).toNat Bucket.empty, 0⟩
  let r ← (t.buckets.flatMap Bucket.chain).foldlM
    (rehashHandle t.idealAfter (t.numBuckets * 2)) start
  let ineffExpands := if t.numItems >>> 1 < r.nonidealItems then t.ineffExpands + 1 else 0
  return { t with
    buckets := r.buckets
    numBuckets := t.numBuckets * 2
    log2NumBuckets := t.log2NumBuckets + 1
    idealChainMaxlen := t.idealAfter
    nonidealItems := r.nonidealItems
    ineffExpands := ineffExpands
    noexpand := if 1 < ineffExpands then 1 else t.noexpand }

def hashAddToBkt (env : Env) (t : Table α) (bkt : ℕ) (h : Handle α) : Exec (Table α) :=
  match t.buckets[bkt]? with
  | none => .error .bounds
  | some b =>
    let t := { t with buckets := t.buckets.set bkt ⟨h :: b.chain, b.count + 1, b.expandMult⟩ }
    if (b.expandMult + 1) * hashBktCapacityThresh ≤ b.count + 1 ∧ t.noexpand ≠ 1 then
      hashExpandBuckets env t
    else .ok t

/-- `HASH_ADD_KEYPTR`; the table is `none` as long as the head pointer is `NULL`. -/
def hashAddKeyptr (env : Env) (head : Option (Table α)) (key : List UInt8) (elt : α) :
    Exec (Table α) := do
  let t ← match head with
    | none => hashMakeTable env
    | some t => .ok t
  let t := { t with numItems := t.numItems + 1 }
  let hashv := hashJen key
  hashAddToBkt env t (hashToBkt hashv t.numBuckets).toNat ⟨key, hashv, elt⟩

/-- `HASH_FIND_IN_BKT`: the lengths are compared before the bytes. -/
def hashFindInBkt (chain : List (Handle α)) (key : List UInt8) : Option (Handle α) :=
  chain.find? fun h => h.key.length == key.length && h.key == key

def hashFind (head : Option (Table α)) (key : List UInt8) : Exec (Option (Handle α)) :=
  match head with
  | none => .ok none
  | some t =>
    match t.buckets[(hashToBkt (hashJen key) t.numBuckets).toNat]? with
    | none => .error .bounds
    | some b => .ok (hashFindInBkt b.chain key)

end Operations

end AppMem.Hash
