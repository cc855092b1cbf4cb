import AppMem.Hash.Table
import AppMem.Library.Chain

/-! # When a table doubles

How often the table doubles depends on the hash values alone: not on the order in which a
chain holds its handles, and not on keys or elements. `Growth` counts the handles of each
bucket and takes the decisions of `HASH_ADD_TO_BKT` and `HASH_EXPAND_BUCKETS` from the counts.
-/
namespace AppMem.Hash
open Library.Chain

structure Tally where
  count : ℕ → UInt32
  expandMult : ℕ → UInt32
  nonideal : UInt32

def Tally.empty : Tally := ⟨fun _ => 0, fun _ => 0, 0⟩

def bktOf (numBkts hashv : UInt32) : ℕ := (hashToBkt hashv numBkts).toNat

/-- Count one more handle in bucket `b` of a table that is being filled. -/
def Tally.count1 (ideal : UInt32) (t : Tally) (b : ℕ) : Tally :=
  let count := t.count b + 1
  if ideal < count then
    ⟨Function.update t.count b count, Function.update t.expandMult b (count / ideal),
      t.nonideal + 1⟩
  else ⟨Function.update t.count b count, t.expandMult, t.nonideal⟩

/-- The state of the growth decisions after some hash values. -/
structure Growth where
  numBuckets : UInt32
  log2NumBuckets : UInt32
  ineffExpands : UInt32
  noexpand : UInt32
  count : ℕ → UInt32
  expandMult : ℕ → UInt32
  hashes : List UInt32
  doublings : ℕ

def Growth.start : Growth :=
  ⟨hashInitialNumBuckets, hashInitialNumBucketsLog2, 0, 0, fun _ => 0, fun _ => 0, [], 0⟩

def Growth.idealAfter (g : Growth) : UInt32 :=
  let numItems := g.hashes.length.toUInt32
  (numItems >>> (g.log2NumBuckets + 1)) +
    (if numItems &&& (g.numBuckets * 2 - 1) ≠ 0 then 1 else 0)

def Growth.tallyAfter (g : Growth) : Tally :=
  g.hashes.foldl (fun t h => t.count1 g.idealAfter (bktOf (g.numBuckets * 2) h)) Tally.empty

def Growth.ineffAfter (g : Growth) : UInt32 :=
  if g.hashes.length.toUInt32 >>> 1 < g.tallyAfter.nonideal then g.ineffExpands + 1 else 0

/-- Double the table. With `2 ^ 31` buckets the new number of buckets is zero, and with a
multiple of `2 ^ 32` items the ideal length is; neither can be survived. -/
def Growth.double (g : Growth) : Option Growth :=
  if g.numBuckets * 2 = 0 ∨ g.idealAfter = 0 then none
  else some {
    numBuckets := g.numBuckets * 2
    log2NumBuckets := g.log2NumBuckets + 1
    ineffExpands := g.ineffAfter
    noexpand := if 1 < g.ineffAfter then 1 else g.noexpand
    count := g.tallyAfter.count
    expandMult := g.tallyAfter.expandMult
    hashes := g.hashes
    doublings := g.doublings + 1 }

/-- One more hash value; `none` when the table cannot take it. -/
def Growth.add (g : Growth) (hashv : UInt32) : Option Growth :=
  let b := bktOf g.numBuckets hashv
  let g' := { g with
    hashes := g.hashes ++ [hashv]
    count := Function.update g.count b (g.count b + 1) }
  if (g.expandMult b + 1) * hashBktCapacityThresh ≤ g.count b + 1 ∧ g.noexpand ≠ 1 then g'.double
  else some g'

def Growth.Doubles (g : Growth) (hashv : UInt32) : Prop :=
  (g.expandMult (bktOf g.numBuckets hashv) + 1) * hashBktCapacityThresh ≤
    g.count (bktOf g.numBuckets hashv) + 1 ∧ g.noexpand ≠ 1

instance (g : Growth) (hashv : UInt32) : Decidable (g.Doubles hashv) :=
  inferInstanceAs (Decidable (_ ∧ _))

section Tallies

theorem Tally.count1_comm (ideal : UInt32) (t : Tally) (a b : ℕ) :
    (t.count1 ideal a).count1 ideal b = (t.count1 ideal b).count1 ideal a := by
  by_cases hab : a = b
  · rw [hab]
  · have hba : b ≠ a := Ne.symm hab
    by_cases ha : ideal < t.count a + 1
    · by_cases hb : ideal < t.count b + 1
      · simp [Tally.count1, ha, hb, hab, hba, Function.update_comm hab]
      · simp [Tally.count1, ha, hb, hab, hba, Function.update_comm hab]
    · by_cases hb : ideal < t.count b + 1
      · simp [Tally.count1, ha, hb, hab, hba, Function.update_comm hab]
      · simp [Tally.count1, ha, hb, hab, hba, Function.update_comm hab]

/-- The counters do not depend on the order of the handles. -/
theorem foldl_count1_perm {l l' : List UInt32} (ideal nb : UInt32) (h : l.Perm l') (t : Tally) :
    l.foldl (fun t h => t.count1 ideal (bktOf nb h)) t =
      l'.foldl (fun t h => t.count1 ideal (bktOf nb h)) t := by
  have : RightCommutative fun (t : Tally) (h : UInt32) => t.count1 ideal (bktOf nb h) :=
    ⟨fun t a b => Tally.count1_comm ideal t _ _⟩
  exact h.foldl_eq t

end Tallies

end AppMem.Hash
