import AppMem.Assca.Iterators
import AppMem.Driver.Ioctl
import AppMem.Hash.Chains

/-! # Reads of the array in the driver

A read or a step of an iterator hands an item to its caller. In the driver, on a function that is
not mapped, the copy goes the wrong way: the caller's buffer ends up in the item, and the caller
gets nothing. It makes no difference only for a buffer that holds the item already.
-/
namespace AppMem.Assca
open Library.Bytes Library.Checked Abi Memory Hash Pack Device

/-- A use of an array; the buffers behind the caller's pointers come with it. -/
inductive AsscaUse
  | write (env : Env) (p1 p2 : List UInt8)
  | read (p1 p2 : List UInt8)
  | iter (p1 : List UInt8) (l1 : UInt64) (p2 : List UInt8) (l2 : UInt64) (h : UInt32)

/-- What the caller sees of a use: the code, the handle, and its buffers afterwards. -/
structure UseResult where
  error : AmReturn
  handle : UInt32
  buf1 : List UInt8
  buf2 : List UInt8
  deriving DecidableEq, Repr

section Uses

def useStep (b : Build) (f : MemFunction) : AsscaUse → Exec (MemFunction × UseResult)
  | .write env p1 p2 => do
    let r ← amAsscaWrite32Align env f p1 p2
    return (r.1, ⟨r.2.error, 0, p1, p2⟩)
  | .read p1 p2 => do
    let r ← amAsscaRead32Align b f p1 p2
    let buf ← writeBytes p2 r.2.out
    return (r.1, ⟨r.2.error, 0, p1, buf⟩)
  | .iter p1 l1 p2 l2 h => do
    let r ← amAsscaIter b f p1 l1 p2 l2 h
    let buf1 ← writeBytes p1 r.2.out1
    let buf2 ← writeBytes p2 r.2.out2
    return (r.1, ⟨r.2.error, r.2.handle, buf1, buf2⟩)

def stored (f : MemFunction) : Option (List AsscaItem × Option (Table ℕ)) :=
  match f.pVdF with
  | some (.assca fd) => some (fd.data.items, fd.data.table)
  | _ => none

/-- The item that the key at `p1` leads to. -/
def found (pAA : AmlibAssca) (p1 : List UInt8) : Option AsscaItem :=
  match readBytes p1 pAA.keyLen.toNat >>= hashFind pAA.table with
  | .ok (some h) => pAA.items[h.elt]?
  | _ => none

def cursorOf (pAA : AmlibAssca) (h : UInt32) : Option ℕ :=
  if h &&& (asscaIterFlagReset ||| asscaIterFlagNew) ≠ 0 then
    if pAA.items = [] then none else some 0
  else pAA.pIterArray (getIterIdx (amAsscaGetIter pAA h))

/-- The item that a handle comes to next, if the lengths asked for stay inside it. -/
def upcoming (pAA : AmlibAssca) (n1 n2 : ℕ) (h : UInt32) : Option AsscaItem :=
  if amAsscaGetIter pAA h = asscaIterInvalid then none
  else ((cursorOf pAA h).bind fun i => pAA.items[i]?).filter fun pAI =>
    n1 ≤ pAI.key.length + pAI.data.length ∧ n2 ≤ pAI.data.length

/-- What a use hands out: bytes from a key on, and bytes of a value. -/
structure Handed where
  pAI : AsscaItem
  n1 : ℕ
  n2 : ℕ

def handed (pAA : AmlibAssca) : AsscaUse → Option Handed
  | .write _ _ _ => none
  | .read p1 _ => (found pAA p1).map fun pAI => ⟨pAI, 0, pAA.dataLen.toNat⟩
  | .iter _ l1 _ l2 h => (upcoming pAA l1.toUInt32.toNat l2.toUInt32.toNat h).map fun pAI =>
      ⟨pAI, l1.toUInt32.toNat, l2.toUInt32.toNat⟩

def Handed.In (o : Handed) (buf1 buf2 : List UInt8) : Prop :=
  buf1.take o.n1 = (o.pAI.key ++ o.pAI.data).take o.n1 ∧ buf2.take o.n2 = o.pAI.data.take o.n2

def AsscaUse.buf1 : AsscaUse → List UInt8
  | .write _ p1 _ | .read p1 _ | .iter p1 _ _ _ _ => p1

def AsscaUse.buf2 : AsscaUse → List UInt8
  | .write _ _ p2 | .read _ p2 | .iter _ _ p2 _ _ => p2

def AsscaUse.isRead : AsscaUse → Bool
  | .write _ _ _ => false
  | _ => true

/-- In the driver the use leaves the stored keys and values alone and, when it is good, its caller
has the item. -/
def ReadKept (f : MemFunction) (use : AsscaUse) : Prop :=
  use.isRead → ∀ g r, useStep .kernel f use = .ok (g, r) → stored g = stored f ∧
    (r.error = amRetGood → ∃ fd o, f.pVdF = some (.assca fd) ∧ handed fd.data use = some o ∧
      o.In r.buf1 r.buf2)

/-- The function is mapped, or the buffers hold what is handed out before they get it. -/
def BufferHolds (f : MemFunction) (use : AsscaUse) : Prop :=
  ∀ fd, f.pVdF = some (.assca fd) → Build.kernel.direct fd.flags = true ∨
    ∀ o, handed fd.data use = some o → o.In use.buf1 use.buf2

/-- Reads change nothing, and the driver's answers are those of the library and those of the
driver on a mapped function. -/
structure ReadsKept (f : MemFunction) (uses : List AsscaUse) : Prop where
  kept : Along (useStep .kernel) ReadKept f uses
  library : (trace (useStep .kernel) f uses).map Prod.snd =
    (trace (useStep .user) f uses).map Prod.snd
  mapped : (trace (useStep .kernel) f uses).map Prod.snd =
    (trace (useStep .kernel) f.setMapped uses).map Prod.snd

end Uses

section Copies
variable {b : Build} {flags : UInt32} {p l : List UInt8} {pAI : AsscaItem} {n : ℕ}

theorem splice_take_self (l : List UInt8) (n : ℕ) : splice l 0 (l.take n) = l := by
  rw [splice_zero, List.length_take]
  by_cases h : n ≤ l.length
  · rw [Nat.min_eq_left h, List.take_append_drop]
  · rw [Nat.min_eq_right (by omega), List.drop_length, List.append_nil,
      List.take_of_length_le (by omega)]

/-- Without the flag nothing arrives, and the source keeps its length. -/
theorem copyToUser_unmapped (hb : b.direct flags = false) (p : List UInt8) (h : n ≤ l.length) :
    ∃ l', copyToUser b flags p l n = .ok ([], l') ∧ l'.length = l.length := by
  refine ⟨splice l 0 (p.take n ++ List.replicate (n - (p.take n).length) 0), ?_, ?_⟩
  · simp [copyToUser, hb, readBytes_of_le h]
  · apply length_splice
    simp only [List.length_append, List.length_replicate, List.length_take]
    omega

/-- A buffer that holds the bytes already leaves the source alone. -/
theorem copyToUser_same (hb : b.direct flags = false) (h : n ≤ l.length)
    (hp : p.take n = l.take n) : copyToUser b flags p l n = .ok ([], l) := by
  have hlen : (p.take n).length = n := by rw [hp, List.length_take_of_le h]
  have hcopy : copyToUser b flags p l n =
      .ok ([], splice l 0 (p.take n ++ List.replicate (n - (p.take n).length) 0)) := by
    simp [copyToUser, hb, readBytes_of_le h]
  rw [hcopy, hlen, Nat.sub_self, List.replicate_zero, List.append_nil, hp, splice_take_self]

theorem copyToUser_of_direct (hb : b.direct flags = true) (p : List UInt8) (h : n ≤ l.length) :
    copyToUser b flags p l n = .ok (l.take n, l) := by
  rw [copyToUser_direct hb, readBytes_of_le h, ok_bind]

theorem copyKeyToUser_unmapped (hb : b.direct flags = false) (p : List UInt8)
    (h : n ≤ pAI.key.length + pAI.data.length) :
    ∃ pAI', copyKeyToUser b flags p pAI n = .ok ([], pAI') ∧
      pAI'.key.length = pAI.key.length ∧ pAI'.data.length = pAI.data.length := by
  rw [← List.length_append] at h
  rcases copyToUser_unmapped hb p h with ⟨l', hl', hlen⟩
  rw [List.length_append] at hlen
  refine ⟨⟨l'.take pAI.key.length, l'.drop pAI.key.length⟩, ?_, ?_, ?_⟩
  · rw [copyKeyToUser, hl']
    rfl
  · simp [hlen]
  · simp [hlen]

theorem copyKeyToUser_same (hb : b.direct flags = false)
    (h : n ≤ pAI.key.length + pAI.data.length)
    (hp : p.take n = (pAI.key ++ pAI.data).take n) :
    copyKeyToUser b flags p pAI n = .ok ([], pAI) := by
  rw [← List.length_append] at h
  rw [copyKeyToUser, copyToUser_same hb h hp]
  simp

theorem copyKeyToUser_of_direct (hb : b.direct flags = true) (p : List UInt8)
    (h : n ≤ pAI.key.length + pAI.data.length) :
    copyKeyToUser b flags p pAI n = .ok ((pAI.key ++ pAI.data).take n, pAI) := by
  rw [← List.length_append] at h
  rw [copyKeyToUser, copyToUser_of_direct hb p h]
  simp

theorem copyToUser_of_lt (p : List UInt8) (h : l.length < n) :
    copyToUser b flags p l n = .error .bounds := by
  simp [copyToUser, readBytes_of_lt h]

theorem copyKeyToUser_of_lt (p : List UInt8) (h : pAI.key.length + pAI.data.length < n) :
    copyKeyToUser b flags p pAI n = .error .bounds := by
  rw [← List.length_append] at h
  rw [copyKeyToUser, copyToUser_of_lt p h, error_bind]

theorem writeBytes_same {src : List UInt8} (h : src = p.take n) :
    writeBytes p src = .ok p := by
  subst h
  rw [writeBytes_of_le (by simp), splice_take_self]

end Copies

section Keys
variable {pAA : AmlibAssca} {i : ℕ} {pAI : AsscaItem}

def Keyed (pAA : AmlibAssca) : Prop :=
  ∀ t, pAA.table = some t → ∀ h ∈ t.buckets.flatMap Bucket.chain,
    ∃ pAI, pAA.items[h.elt]? = some pAI ∧ h.key = pAI.key

theorem keyed_init (keyLength dataLength : UInt32) (bFixedKey bFixedData : Bool) :
    Keyed (amlibAsscaInit keyLength dataLength bFixedKey bFixedData) :=
  nofun

theorem Keyed.add {env : Env} {pAA' : AmlibAssca} {p1 p2 : List UInt8} {r : Served}
    (K : Keyed pAA) (h : amlibAsscaAddKeyFixfix env pAA p1 p2 = .ok (pAA', r)) : Keyed pAA' := by
  rw [amlibAsscaAddKeyFixfix_eq_ok] at h
  rcases h with ⟨-, -, ⟨-, rfl⟩ | ⟨data, key, t, -, -, -, ht, rfl⟩⟩
  · exact K
  · intro t' ht' hdl hmem
    cases ht'
    rcases mem_hashAddKeyptr ht hmem with rfl | ⟨t₀, ht₀, hmem⟩
    · exact ⟨⟨key, data⟩, List.getElem?_concat_length, rfl⟩
    · obtain ⟨pAI, hget, hkey⟩ := K t₀ ht₀ hdl hmem
      have hlt := (List.getElem?_eq_some_iff.mp hget).1
      exact ⟨pAI, by rw [List.getElem?_append_left hlt, hget], hkey⟩

theorem Keyed.rekey_table (K : Keyed pAA) (hi : pAA.items[i]? = some pAI) :
    pAA.table.map (rekey i pAI.key) = pAA.table := by
  cases ht : pAA.table with
  | none => rfl
  | some t =>
    have hb : (t.buckets.map fun b => { b with
        chain := b.chain.map fun h => if h.elt = i then { h with key := pAI.key } else h }) =
        t.buckets := by
      refine (List.map_congr_left (g := id) fun b hb => ?_).trans (List.map_id _)
      have hchain : (b.chain.map fun h => if h.elt = i then { h with key := pAI.key } else h) =
          b.chain := by
        refine (List.map_congr_left (g := id) fun h hh => ?_).trans (List.map_id _)
        obtain ⟨pAI', hget, hkey⟩ := K t ht h (List.mem_flatMap.mpr ⟨b, hb, hh⟩)
        by_cases he : h.elt = i
        · rw [he, hi] at hget
          cases hget
          rw [if_pos he, ← hkey]
          rfl
        · rw [if_neg he]
          rfl
      rw [hchain]
      rfl
    rw [Option.map_some, rekey, hb]

theorem items_set_self (hi : pAA.items[i]? = some pAI) : pAA.items.set i pAI = pAA.items := by
  obtain ⟨hlt, rfl⟩ := List.getElem?_eq_some_iff.mp hi
  exact List.set_getElem_self hlt

theorem Keyed.setItem_self (K : Keyed pAA) (hi : pAA.items[i]? = some pAI) :
    pAA.setItem i pAI = pAA := by
  rw [AmlibAssca.setItem, items_set_self hi, K.rekey_table hi]

theorem Keyed.setItem (K : Keyed pAA) (hi : pAA.items[i]? = some pAI) (pAI' : AsscaItem) :
    Keyed (pAA.setItem i pAI') := by
  have hlt := (List.getElem?_eq_some_iff.mp hi).1
  intro t' ht' h' hmem
  obtain ⟨t, ht, rfl⟩ := Option.map_eq_some_iff.mp ht'
  rcases List.mem_flatMap.mp hmem with ⟨b', hb', hh'⟩
  obtain ⟨b, hb, rfl⟩ := List.mem_map.mp hb'
  obtain ⟨h, hh, rfl⟩ := List.mem_map.mp hh'
  by_cases he : h.elt = i
  · rw [if_pos he]
    exact ⟨pAI', by simp [AmlibAssca.setItem, he, hlt], rfl⟩
  · obtain ⟨pAI₀, hget, hkey⟩ := K t ht h (List.mem_flatMap.mpr ⟨b, hb, hh⟩)
    rw [if_neg he]
    exact ⟨pAI₀, by simp [AmlibAssca.setItem, List.getElem?_set_ne (Ne.symm he), hget], hkey⟩

theorem Sized.setItem (S : Sized pAA) {pAI' : AsscaItem}
    (hk : pAI'.key.length = pAA.keyLen.toNat) (hd : pAI'.data.length = pAA.dataLen.toNat) :
    Sized (pAA.setItem i pAI') := by
  intro pAI hmem
  rcases List.mem_or_eq_of_mem_set hmem with hmem | rfl
  · exact S pAI hmem
  · exact ⟨hk, hd⟩

end Keys

section Accesses
variable {b : Build} {flags : UInt32} {pAA : AmlibAssca} {use : AsscaUse}

def access (b : Build) (flags : UInt32) (pAA : AmlibAssca) : AsscaUse → Exec (AmlibAssca × UseResult)
  | .write env p1 p2 => do
    let r ← amlibAsscaAddKeyFixfix env pAA p1 p2
    return (r.1, ⟨r.2.error, 0, p1, p2⟩)
  | .read p1 p2 => do
    let r ← amlibAsscaGetKeyVal b flags pAA p1 p2
    let buf ← writeBytes p2 r.2.out
    return (r.1, ⟨r.2.error, 0, p1, buf⟩)
  | .iter p1 l1 p2 l2 h => do
    let r ← asscaIter b flags pAA p1 l1 p2 l2 h
    let buf1 ← writeBytes p1 r.2.out1
    let buf2 ← writeBytes p2 r.2.out2
    return (r.1, ⟨r.2.error, r.2.handle, buf1, buf2⟩)

theorem useStep_eq {f : MemFunction} {fd : AsscaData} (hf : f.pVdF = some (.assca fd)) :
    useStep b f use = access b fd.flags fd.data use >>= fun r => .ok (f.setAssca fd r.1, r.2) := by
  cases use with
  | write env p1 p2 =>
    simp only [useStep, amAsscaWrite32Align, asscaAccess, hf, access]
    cases amlibAsscaAddKeyFixfix env fd.data p1 p2 <;> rfl
  | read p1 p2 =>
    simp only [useStep, amAsscaRead32Align, asscaAccess, hf, access]
    cases amlibAsscaGetKeyVal b fd.flags fd.data p1 p2 with
    | error e => rfl
    | ok r =>
      simp only [ok_bind, pure_eq_ok]
      cases writeBytes p2 r.2.out <;> rfl
  | iter p1 l1 p2 l2 h =>
    simp only [useStep, amAsscaIter, hf, access]
    cases asscaIter b fd.flags fd.data p1 l1 p2 l2 h with
    | error e => rfl
    | ok r =>
      simp only [ok_bind, pure_eq_ok]
      cases writeBytes p1 r.2.out1 with
      | error e => rfl
      | ok buf1 =>
        simp only [ok_bind]
        cases writeBytes p2 r.2.out2 <;> rfl

/-- Where the macros take the pointers as they are, build and flags make no difference. -/
theorem access_direct (hb : b.direct flags = true) (pAA : AmlibAssca) (use : AsscaUse) :
    access b flags pAA use = access .user 0 pAA use := by
  have hu : Build.user.direct 0 = true := rfl
  cases use with
  | write env p1 p2 => rfl
  | read p1 p2 => simp only [access, amlibAsscaGetKeyVal, copyToUser_direct hb, copyToUser_direct hu]
  | iter p1 l1 p2 l2 h =>
    simp only [access, asscaIter, copyKeyToUser, copyToUser_direct hb, copyToUser_direct hu, hb, hu]

theorem handed_le (S : Sized pAA) {o : Handed} (ho : handed pAA use = some o) :
    o.n1 ≤ o.pAI.key.length + o.pAI.data.length ∧ o.n2 ≤ o.pAI.data.length := by
  cases use with
  | write env p1 p2 => cases ho
  | read p1 p2 =>
    obtain ⟨pAI, hfound, rfl⟩ := Option.map_eq_some_iff.mp ho
    refine ⟨Nat.zero_le _, ?_⟩
    unfold found at hfound
    split at hfound
    · exact (S pAI (List.mem_of_getElem? hfound)).2.ge
    · cases hfound
  | iter p1 l1 p2 l2 h =>
    obtain ⟨pAI, hup, rfl⟩ := Option.map_eq_some_iff.mp ho
    unfold upcoming at hup
    split at hup
    · cases hup
    · simpa using (Option.filter_eq_some_iff.mp hup).2

theorem access_of_handed (K : Keyed pAA) {o : Handed} (ho : handed pAA use = some o) :
    ∃ i cursors hdl, pAA.items[i]? = some o.pAI ∧ ∀ b flags, access b flags pAA use =
      copyKeyToUser b flags use.buf1 o.pAI o.n1 >>= fun key =>
      copyToUser b flags use.buf2 key.2.data o.n2 >>= fun data =>
      writeBytes use.buf1 key.1 >>= fun buf1 =>
      writeBytes use.buf2 data.1 >>= fun buf2 =>
      .ok (if b.direct flags then { pAA with pIterArray := cursors }
        else { pAA with pIterArray := cursors }.setItem i ⟨key.2.key, data.2⟩,
        ⟨amRetGood, hdl, buf1, buf2⟩) := by
  cases use with
  | write env p1 p2 => cases ho
  | read p1 p2 =>
    obtain ⟨pAI, hfound, rfl⟩ := Option.map_eq_some_iff.mp ho
    unfold found at hfound
    split at hfound
    · rename_i h hfind
      rw [bind_eq_ok] at hfind
      rcases hfind with ⟨key, hkey, hfind⟩
      refine ⟨h.elt, pAA.pIterArray, 0, hfound, fun b flags => ?_⟩
      cases ht : pAA.table with
      | none =>
        rw [ht] at hfind
        cases hfind
      | some t =>
        rw [ht] at hfind
        have hnone : copyKeyToUser b flags p1 pAI 0 = .ok ([], pAI) := by
          cases hb : b.direct flags with
          | false => exact copyKeyToUser_same hb (Nat.zero_le _) rfl
          | true => exact copyKeyToUser_of_direct hb p1 (Nat.zero_le _)
        have hbuf : writeBytes p1 [] = .ok p1 := writeBytes_same (n := 0) rfl
        simp only [access, amlibAsscaGetKeyVal, AsscaUse.buf1, AsscaUse.buf2, ht, hkey, hfind, hfound,
          hnone, hbuf, ok_bind, pure_eq_ok]
        cases hb : b.direct flags with
        | false =>
          cases copyToUser b flags p2 pAI.data pAA.dataLen.toNat with
          | error e => rfl
          | ok v =>
            have hrekey := K.rekey_table hfound
            rw [ht] at hrekey
            simp only [ok_bind, AmlibAssca.setItem, hrekey, Bool.false_eq_true, if_false]
        | true =>
          rw [copyToUser_direct hb]
          cases readBytes pAI.data pAA.dataLen.toNat with
          | error e => rfl
          | ok v =>
            have hset := items_set_self hfound
            simp only [ok_bind, hset, if_true]
    · cases hfound
  | iter p1 l1 p2 l2 h =>
    obtain ⟨pAI, hup, rfl⟩ := Option.map_eq_some_iff.mp ho
    unfold upcoming at hup
    split at hup
    · cases hup
    · rename_i hvalid
      obtain ⟨hcursor, hle⟩ := Option.filter_eq_some_iff.mp hup
      obtain ⟨i, hi, hget⟩ := Option.bind_eq_some_iff.mp hcursor
      refine ⟨i, (pAA.setCursor (getIterIdx (amAsscaGetIter pAA h)) (pAA.next i)).pIterArray,
        amAsscaGetIter pAA h, hget, fun b flags => ?_⟩
      rw [cursorOf] at hi
      simp only [access, asscaIter, AsscaUse.buf1, AsscaUse.buf2, if_pos hvalid, hi, hget]
      cases copyKeyToUser b flags p1 pAI l1.toUInt32.toNat with
      | error e => rfl
      | ok key =>
        simp only [ok_bind]
        cases copyToUser b flags p2 key.2.data l2.toUInt32.toNat with
        | error e => rfl
        | ok data => rfl

theorem copies_fault {p1 p2 : List UInt8} {pAI : AsscaItem} {n1 n2 : ℕ}
    (h : ¬ (n1 ≤ pAI.key.length + pAI.data.length ∧ n2 ≤ pAI.data.length)) {α : Type}
    (k : List UInt8 × AsscaItem → List UInt8 × List UInt8 → Exec α) :
    (copyKeyToUser b flags p1 pAI n1 >>= fun key =>
      copyToUser b flags p2 key.2.data n2 >>= fun data => k key data) = .error .bounds := by
  by_cases h1 : n1 ≤ pAI.key.length + pAI.data.length
  · have h2 : pAI.data.length < n2 := Nat.not_le.mp fun h2 => h ⟨h1, h2⟩
    cases hb : b.direct flags with
    | false =>
      rcases copyKeyToUser_unmapped hb p1 h1 with ⟨pAI', hcopy, -, hdata⟩
      rw [hcopy, ok_bind, copyToUser_of_lt p2 (by rwa [hdata]), error_bind]
    | true =>
      rw [copyKeyToUser_of_direct hb p1 h1, ok_bind, copyToUser_of_lt p2 h2, error_bind]
  · rw [copyKeyToUser_of_lt p1 (Nat.not_le.mp h1), error_bind]

/-- A read that hands nothing out faults, or leaves everything but the cursors as it is. -/
theorem access_of_not_handed (hread : use.isRead = true) (ho : handed pAA use = none) :
    (∃ e, ∀ b flags, access b flags pAA use = .error e) ∨
    ∃ cursors err hdl, err ≠ amRetGood ∧ ∀ b flags, access b flags pAA use =
      .ok ({ pAA with pIterArray := cursors }, ⟨err, hdl, use.buf1, use.buf2⟩) := by
  cases use with
  | write env p1 p2 => cases hread
  | read p1 p2 =>
    have hlookup : (∃ e, ∀ b flags, amlibAsscaGetKeyVal b flags pAA p1 p2 = .error e) ∨
        ∀ b flags, amlibAsscaGetKeyVal b flags pAA p1 p2 =
          .ok (pAA, { error := amRetKeyNotFound }) := by
      have hfound := Option.map_eq_none_iff.mp ho
      unfold found at hfound
      cases ht : pAA.table with
      | none => exact .inr fun b flags => by simp [amlibAsscaGetKeyVal, ht]
      | some t =>
        rw [ht] at hfound
        cases hkey : readBytes p1 pAA.keyLen.toNat with
        | error e => exact .inl ⟨e, fun b flags => by simp [amlibAsscaGetKeyVal, ht, hkey]⟩
        | ok key =>
          rw [hkey, ok_bind] at hfound
          cases hfind : hashFind (some t) key with
          | error e => exact .inl ⟨e, fun b flags => by simp [amlibAsscaGetKeyVal, ht, hkey, hfind]⟩
          | ok hdl =>
            rw [hfind] at hfound
            cases hdl with
            | none => exact .inr fun b flags => by simp [amlibAsscaGetKeyVal, ht, hkey, hfind]
            | some hdl =>
              refine .inl ⟨.bounds, fun b flags => ?_⟩
              simp only at hfound
              simp [amlibAsscaGetKeyVal, ht, hkey, hfind, hfound]
    rcases hlookup with ⟨e, he⟩ | hnot
    · exact .inl ⟨e, fun b flags => by rw [access, he, error_bind]⟩
    · have hbuf : writeBytes p2 [] = .ok p2 := writeBytes_same (n := 0) rfl
      refine .inr ⟨pAA.pIterArray, amRetKeyNotFound, 0, by decide, fun b flags => ?_⟩
      simp only [access, hnot, ok_bind, hbuf, pure_eq_ok, AsscaUse.buf1, AsscaUse.buf2]
  | iter p1 l1 p2 l2 h =>
    have hbuf1 : writeBytes p1 [] = .ok p1 := writeBytes_same (n := 0) rfl
    have hbuf2 : writeBytes p2 [] = .ok p2 := writeBytes_same (n := 0) rfl
    have hup := Option.map_eq_none_iff.mp ho
    unfold upcoming at hup
    split at hup
    · rename_i hinvalid
      refine .inr ⟨(pAA.setCursor (getIterIdx (amAsscaGetIter pAA h)) none).pIterArray,
        amRetInvalidIter, (amAsscaGetIter pAA h &&& asscaIterIdxMask) ||| asscaIterDone,
        by decide, fun b flags => ?_⟩
      simp only [access, asscaIter, hinvalid, ne_eq, not_true_eq_false, if_false, ok_bind, hbuf1,
        hbuf2, pure_eq_ok]
      rfl
    · rename_i hvalid
      cases hcursor : cursorOf pAA h with
      | none =>
        refine .inr ⟨pAA.pIterArray, amRetIterDone, amAsscaGetIter pAA h, by decide,
          fun b flags => ?_⟩
        rw [cursorOf] at hcursor
        simp only [access, asscaIter, if_pos hvalid, hcursor, ok_bind, hbuf1, hbuf2, pure_eq_ok]
        rfl
      | some i =>
        refine .inl ⟨.bounds, fun b flags => ?_⟩
        have hcursor' := hcursor
        rw [cursorOf] at hcursor'
        simp only [access, asscaIter, if_pos hvalid, hcursor']
        cases hget : pAA.items[i]? with
        | none => rfl
        | some pAI =>
          rw [hcursor, Option.bind_some, hget, Option.filter_some] at hup
          have hlong : ¬ (l1.toUInt32.toNat ≤ pAI.key.length + pAI.data.length ∧
              l2.toUInt32.toNat ≤ pAI.data.length) := by
            intro hle
            rw [if_pos (decide_eq_true hle)] at hup
            cases hup
          dsimp only
          rw [copies_fault hlong, error_bind]

/-- Without the flag a use that hands out an item is good, and its caller's buffers stay. -/
theorem access_unmapped (S : Sized pAA) (K : Keyed pAA) (hb : b.direct flags = false) {o : Handed}
    (ho : handed pAA use = some o) :
    ∃ pAA' hdl, access b flags pAA use = .ok (pAA', ⟨amRetGood, hdl, use.buf1, use.buf2⟩) ∧
      Sized pAA' ∧ Keyed pAA' := by
  obtain ⟨h1, h2⟩ := handed_le S ho
  obtain ⟨i, cursors, hdl, hi, haccess⟩ := access_of_handed K ho
  obtain ⟨hk, hd⟩ := S o.pAI (List.mem_of_getElem? hi)
  rcases copyKeyToUser_unmapped hb use.buf1 h1 with ⟨key, hcopy1, hkeyk, hkeyd⟩
  rw [← hkeyd] at h2
  rcases copyToUser_unmapped hb use.buf2 h2 with ⟨data, hcopy2, hdata⟩
  have hbuf1 : writeBytes use.buf1 [] = .ok use.buf1 := writeBytes_same (n := 0) rfl
  have hbuf2 : writeBytes use.buf2 [] = .ok use.buf2 := writeBytes_same (n := 0) rfl
  refine ⟨{ pAA with pIterArray := cursors }.setItem i ⟨key.key, data⟩, hdl, ?_, ?_, ?_⟩
  · simp only [haccess, hcopy1, hcopy2, hbuf1, hbuf2, ok_bind, hb, Bool.false_eq_true, if_false]
  · have S' : Sized { pAA with pIterArray := cursors } := S
    exact S'.setItem (hkeyk.trans hk) (hdata.trans (hkeyd.trans hd))
  · have K' : Keyed { pAA with pIterArray := cursors } := K
    exact K'.setItem hi _

/-- Where the macros take the pointers as they are the caller gets the item. -/
theorem access_mapped (S : Sized pAA) (K : Keyed pAA) (hb : b.direct flags = true) {o : Handed}
    (ho : handed pAA use = some o) :
    ∃ cursors hdl, access b flags pAA use =
      (writeBytes use.buf1 ((o.pAI.key ++ o.pAI.data).take o.n1) >>= fun buf1 =>
        writeBytes use.buf2 (o.pAI.data.take o.n2) >>= fun buf2 =>
        .ok ({ pAA with pIterArray := cursors }, ⟨amRetGood, hdl, buf1, buf2⟩)) := by
  obtain ⟨h1, h2⟩ := handed_le S ho
  obtain ⟨i, cursors, hdl, hi, haccess⟩ := access_of_handed K ho
  refine ⟨cursors, hdl, ?_⟩
  rw [haccess, copyKeyToUser_of_direct hb use.buf1 h1, ok_bind, copyToUser_of_direct hb use.buf2 h2,
    ok_bind]
  simp only [hb, if_true]

theorem access_intact (S : Sized pAA) (K : Keyed pAA) {pAA' : AmlibAssca} {r : UseResult}
    (h : access b flags pAA use = .ok (pAA', r)) : Sized pAA' ∧ Keyed pAA' := by
  cases hread : use.isRead with
  | false =>
    cases use with
    | write env p1 p2 =>
      rw [access, bind_eq_ok] at h
      rcases h with ⟨r', hadd, h⟩
      cases h
      exact ⟨S.add hadd, K.add hadd⟩
    | read p1 p2 => cases hread
    | iter p1 l1 p2 l2 h => cases hread
  | true =>
    cases ho : handed pAA use with
    | none =>
      rcases access_of_not_handed hread ho with ⟨e, he⟩ | ⟨cursors, err, hdl, -, hok⟩
      · rw [he] at h
        cases h
      · rw [hok] at h
        cases h
        exact ⟨S, K⟩
    | some o =>
      cases hb : b.direct flags with
      | false =>
        obtain ⟨pAA₁, hdl, hok, S', K'⟩ := access_unmapped S K hb ho
        rw [hok] at h
        cases h
        exact ⟨S', K'⟩
      | true =>
        obtain ⟨cursors, hdl, hok⟩ := access_mapped S K hb ho
        rw [hok, bind_eq_ok] at h
        rcases h with ⟨buf1, -, h⟩
        rw [bind_eq_ok] at h
        rcases h with ⟨buf2, -, h⟩
        cases h
        exact ⟨S, K⟩

/-- Buffers that hold the item hide that nothing arrives. -/
theorem access_same (S : Sized pAA) (K : Keyed pAA)
    (hbuf : b.direct flags = true ∨ ∀ o, handed pAA use = some o → o.In use.buf1 use.buf2) :
    access b flags pAA use = access .user 0 pAA use := by
  cases hb : b.direct flags with
  | true => exact access_direct hb pAA use
  | false =>
    have hin := hbuf.resolve_left (by simp [hb])
    cases hread : use.isRead with
    | false =>
      cases use with
      | write env p1 p2 => rfl
      | read p1 p2 => cases hread
      | iter p1 l1 p2 l2 h => cases hread
    | true =>
      cases ho : handed pAA use with
      | none =>
        rcases access_of_not_handed hread ho with ⟨e, he⟩ | ⟨cursors, err, hdl, -, hok⟩
        · rw [he, he]
        · rw [hok, hok]
      | some o =>
        obtain ⟨h1, h2⟩ := handed_le S ho
        obtain ⟨i, cursors, hdl, hi, haccess⟩ := access_of_handed K ho
        obtain ⟨hin1, hin2⟩ := hin o ho
        have K' : Keyed { pAA with pIterArray := cursors } := K
        have hu : Build.user.direct 0 = true := rfl
        have hbuf1 : writeBytes use.buf1 [] = .ok use.buf1 := writeBytes_same (n := 0) rfl
        have hbuf2 : writeBytes use.buf2 [] = .ok use.buf2 := writeBytes_same (n := 0) rfl
        rw [haccess, haccess, copyKeyToUser_same hb h1 hin1, copyKeyToUser_of_direct hu _ h1]
        simp only [ok_bind]
        rw [copyToUser_same hb h2 hin2, copyToUser_of_direct hu _ h2]
        simp only [ok_bind, hbuf1, hbuf2, writeBytes_same hin1.symm, writeBytes_same hin2.symm, hb, hu,
          Bool.false_eq_true, if_false, if_true, K'.setItem_self hi]

/-- The library's reads leave the items alone and put what they hand out into the buffers. -/
theorem access_user_kept (S : Sized pAA) (K : Keyed pAA) (hread : use.isRead = true)
    {pAA' : AmlibAssca} {r : UseResult} (h : access .user 0 pAA use = .ok (pAA', r)) :
    (pAA'.items = pAA.items ∧ pAA'.table = pAA.table) ∧
      (r.error = amRetGood → ∃ o, handed pAA use = some o ∧ o.In r.buf1 r.buf2) := by
  cases ho : handed pAA use with
  | none =>
    rcases access_of_not_handed hread ho with ⟨e, he⟩ | ⟨cursors, err, hdl, hne, hok⟩
    · rw [he] at h
      cases h
    · rw [hok] at h
      cases h
      exact ⟨⟨rfl, rfl⟩, fun hgood => absurd hgood hne⟩
  | some o =>
    obtain ⟨h1, h2⟩ := handed_le S ho
    obtain ⟨cursors, hdl, hok⟩ := access_mapped S K (Build.direct_user 0) ho
    rw [hok, bind_eq_ok] at h
    rcases h with ⟨buf1, hw1, h⟩
    rw [bind_eq_ok] at h
    rcases h with ⟨buf2, hw2, h⟩
    cases h
    rw [← List.length_append] at h1
    refine ⟨⟨rfl, rfl⟩, fun _ => ⟨o, rfl, ?_, ?_⟩⟩
    · rw [(writeBytes_eq_ok.mp hw1).2, take_splice_front (List.length_take_of_le h1).ge,
        List.take_take, Nat.min_self]
    · rw [(writeBytes_eq_ok.mp hw2).2, take_splice_front (List.length_take_of_le h2).ge,
        List.take_take, Nat.min_self]

end Accesses

section Ioctl
open Driver

/-- A packet read through the dispatcher is a read of the array with the key in the command and the
buffer that the pointer in the command leads to. -/
theorem ioctlRun_read {ke : KEnv} {k : Kernel} {minor : ℕ} {d : KDevice} {f : MemFunction} {n : ℕ}
    {rdptr : UInt64}
    (hslot : d.slot k.tempKcmd.op = .ok (some (.device .amAsscaRead32Align)))
    (hpack : amNetGetPacktype k.tempKcmd.op = amKpack.toUInt32) (hodd : k.tempKcmd.op &&& 1 ≠ 0)
    (hn : d.rdPackSize.toNat ≤ n)
    (hptr : readU64 (k.tempKcmd.packetData f.crResp.packDataOffset) = .ok rdptr) :
    (ioctlRun ke k minor d f n).map (fun r =>
        (r.kernel, r.ret, r.writes.foldl (fun p w => splice p 0 w.2) (ke.user rdptr))) =
      (useStep .kernel f (.read (k.tempKcmd.bytes.drop 4) (ke.user rdptr))).map fun r =>
        (k.setFunc minor r.1, r.2.error, r.2.buf2) := by
  have halign : ¬ amNetGetPacktype k.tempKcmd.op = amPackAlign.toUInt32 := by
    rw [hpack]
    decide
  simp only [ioctlRun, ioctlSelect, hslot, ok_bind, if_neg halign, if_pos hpack, packetCall,
    if_pos hodd, if_pos hn, hptr, pure_eq_ok, invokeDriver, invokeDevice, useStep]
  cases amAsscaRead32Align .kernel f (k.tempKcmd.bytes.drop 4) (ke.user rdptr) with
  | error e => rfl
  | ok r =>
    simp only [ok_bind, storeOut, writeBytes, pure_eq_ok]
    by_cases hlen : r.2.out.length ≤ (ke.user rdptr).length
    · rw [require_of_true _ hlen]
      by_cases hout : r.2.out = []
      · simp [hout, Except.map]
      · simp [hout, Except.map]
    · rw [require_of_false _ hlen]
      rfl

end Ioctl

section Runs
variable {b : Build} {f g : MemFunction} {use : AsscaUse} {r : UseResult}

def Intact (f : MemFunction) : Prop :=
  ∃ fd, f.pVdF = some (.assca fd) ∧ Sized fd.data ∧ Keyed fd.data

theorem intact_create {env : Env} {pCap : AmMemCap}
    (h : amCreateAsscaDevice env f pCap = (amRetGood, g)) : Intact g := by
  unfold amCreateAsscaDevice at h
  split at h
  · split at h
    · cases h
      exact ⟨_, rfl, sized_init _ _ _ _, keyed_init _ _ _ _⟩
    · cases h
  · cases h

theorem Intact.step (I : Intact f) (h : useStep b f use = .ok (g, r)) : Intact g := by
  rcases I with ⟨fd, hf, S, K⟩
  rw [useStep_eq hf, bind_eq_ok] at h
  rcases h with ⟨⟨pAA, r'⟩, haccess, h⟩
  cases h
  exact ⟨_, rfl, access_intact S K haccess⟩

theorem useStep_same (I : Intact f) (h : BufferHolds f use) :
    useStep .kernel f use = useStep .user f use := by
  rcases I with ⟨fd, hf, S, K⟩
  rw [useStep_eq hf, useStep_eq hf, access_same S K (h fd hf),
    access_direct (Build.direct_user fd.flags)]

/-- Mapping the function makes the driver's step the library's. -/
theorem useStep_setMapped (I : Intact f) :
    (useStep .user f use).map (Prod.map MemFunction.setMapped id) =
      useStep .kernel f.setMapped use := by
  rcases I with ⟨fd, hf, S, K⟩
  have hf' : f.setMapped.pVdF =
      some (.assca { fd with flags := fd.flags ||| amFuncDataFlagMmapped }) := by
    rw [MemFunction.setMapped, hf]
    rfl
  rw [useStep_eq hf, useStep_eq hf', access_direct (Build.direct_user fd.flags),
    access_direct (Build.direct_mapped .kernel fd.flags)]
  cases access .user 0 fd.data use with
  | error e => rfl
  | ok r => rfl

theorem readKept_iff (I : Intact f) : ReadKept f use ↔ BufferHolds f use := by
  rcases I with ⟨fd, hf, S, K⟩
  have hstep : useStep .kernel f use = access .kernel fd.flags fd.data use >>= fun r =>
    .ok (f.setAssca fd r.1, r.2) := useStep_eq hf
  constructor
  · intro hkept fd' hf'
    cases hf.symm.trans hf'
    cases hb : Build.kernel.direct fd.flags with
    | true => exact .inl rfl
    | false =>
      refine .inr fun o ho => ?_
      obtain ⟨pAA, hdl, hok, -, -⟩ := access_unmapped S K hb ho
      rw [hok, ok_bind] at hstep
      have hread : use.isRead = true := by
        cases use with
        | write env p1 p2 => cases ho
        | read p1 p2 => rfl
        | iter p1 l1 p2 l2 h => rfl
      obtain ⟨-, hgood⟩ := hkept hread _ _ hstep
      obtain ⟨fd', o', hf', ho', hin⟩ := hgood rfl
      cases hf.symm.trans hf'
      rw [ho] at ho'
      cases ho'
      exact hin
  · intro hbuf hread g r h
    rw [hstep, access_same S K (hbuf fd hf), bind_eq_ok] at h
    rcases h with ⟨⟨pAA, r'⟩, haccess, h⟩
    cases h
    obtain ⟨⟨hitems, htable⟩, hgood⟩ := access_user_kept S K hread haccess
    refine ⟨?_, fun hr => ?_⟩
    · rw [stored, stored, hf]
      simp only [MemFunction.setAssca, hitems, htable]
    · obtain ⟨o, ho, hin⟩ := hgood hr
      exact ⟨fd, o, hf, ho, hin⟩

/-- Over any writes, reads and iterators: the array survives its reads in the driver and answers as
it does elsewhere just when each read is on a mapped function, hands nothing out, or finds what it
hands out in its caller's buffer already. -/
theorem readsKept_iff {env : Env} {f₀ : MemFunction} {pCap : AmMemCap}
    (h : amCreateAsscaDevice env f₀ pCap = (amRetGood, f)) (uses : List AsscaUse) :
    ReadsKept f uses ↔ Along (useStep .kernel) BufferHolds f uses := by
  have hinv : ∀ s i s' o, Intact s → useStep .kernel s i = .ok (s', o) → Intact s' :=
    fun s i s' o I hi => I.step hi
  have hkept : Along (useStep .kernel) ReadKept f uses ↔ Along (useStep .kernel) BufferHolds f uses :=
    along_congr hinv (fun _ _ I => readKept_iff I) (intact_create h) uses
  constructor
  · intro R
    exact hkept.mp R.kept
  · intro hal
    have hal' : Along (useStep .kernel) (fun s i => Intact s ∧ BufferHolds s i) f uses :=
      Along.mono hinv (fun s i I hi => ⟨I, hi⟩) (intact_create h) hal
    refine ⟨hkept.mpr hal, ?_, ?_⟩
    · have hlib : ∀ s i, Intact s ∧ BufferHolds s i →
          (useStep .kernel s i).map (Prod.map id id) = useStep .user (id s) i := by
        intro s i hs
        rw [useStep_same hs.1 hs.2, id_eq]
        cases useStep .user s i <;> rfl
      exact trace_outputs_along hlib hal'
    · have hmap : ∀ s i, Intact s ∧ BufferHolds s i →
          (useStep .kernel s i).map (Prod.map MemFunction.setMapped id) =
            useStep .kernel s.setMapped i := by
        intro s i hs
        rw [useStep_same hs.1 hs.2, useStep_setMapped hs.1]
      exact trace_outputs_along hmap hal'

end Runs

section Examples

def asscaFour (flags : UInt32) : MemFunction :=
  asscaDevice { Env.zeroed with flags := flags } (.blank 0) (asscaCap 4)

theorem create_asscaFour (flags : UInt32) :
    amCreateAsscaDevice { Env.zeroed with flags := flags } (.blank 0) (asscaCap 4) =
      (amRetGood, asscaFour flags) := rfl

def writeThenRead : List AsscaUse :=
  [.write .zeroed [1, 1, 1, 1] [2, 2, 2, 2], .read [1, 1, 1, 1] [0, 0, 0, 0]]

theorem readsKept_mapped : ReadsKept (asscaFour amFuncDataFlagMmapped) writeThenRead := by
  have hdirect : Build.kernel.direct amFuncDataFlagMmapped = true := by decide
  refine (readsKept_iff (create_asscaFour amFuncDataFlagMmapped) writeThenRead).mpr ?_
  refine ⟨?_, fun s o h => ⟨?_, fun _ _ _ => trivial⟩⟩
  · intro fd hf
    cases hf
    exact .inl hdirect
  · intro fd hf
    rw [useStep_eq (f := asscaFour amFuncDataFlagMmapped) rfl, bind_eq_ok] at h
    rcases h with ⟨r, -, h⟩
    cases h
    cases hf
    exact .inl hdirect

/-- Without the flag the value does not arrive. -/
theorem not_readsKept : ¬ ∀ (env : Env) (f₀ f : MemFunction) (pCap : AmMemCap)
    (uses : List AsscaUse), amCreateAsscaDevice env f₀ pCap = (amRetGood, f) →
      ReadsKept f uses := by
  intro h
  have hread := (h _ _ _ _ writeThenRead (create_asscaFour 0)).library
  have hdriver : (trace (useStep .kernel) (asscaFour 0) writeThenRead).map Prod.snd =
      .ok [⟨amRetGood, 0, [1, 1, 1, 1], [2, 2, 2, 2]⟩,
        ⟨amRetGood, 0, [1, 1, 1, 1], [0, 0, 0, 0]⟩] := by
    decide +kernel
  have hlibrary : (trace (useStep .user) (asscaFour 0) writeThenRead).map Prod.snd =
      .ok [⟨amRetGood, 0, [1, 1, 1, 1], [2, 2, 2, 2]⟩,
        ⟨amRetGood, 0, [1, 1, 1, 1], [2, 2, 2, 2]⟩] := by
    decide +kernel
  rw [hdriver, hlibrary] at hread
  revert hread
  decide

end Examples

end AppMem.Assca
