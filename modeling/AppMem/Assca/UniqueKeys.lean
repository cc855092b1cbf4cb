import AppMem.Assca.LoneIterator
import Mathlib.Data.List.Dedup
import Mathlib.Data.List.Perm.Subperm

/-! # How often a key is stored

A write appends its entry whatever the table holds. The keys of a table are therefore those of
the writes for which there was memory, as often as they were written.
-/
namespace AppMem.Assca
open Library.Checked Abi Memory Device

section Writes
variable {f g : MemFunction} {fd : AsscaData} {kl dl : ℕ}

/-- A write: what its environment decides, and the buffers of the key and the value. -/
abbrev WriteCall := Env × Entry

def writeUses (ws : List WriteCall) : List AsscaUse := ws.map fun w => .write w.1 w.2.1 w.2.2

def writtenKeys (kl : ℕ) (ws : List WriteCall) : List (List UInt8) := ws.map fun w => w.2.1.take kl

def remembered (ws : List WriteCall) : List WriteCall := ws.filter fun w => w.1.alloc .asscaItem

/-- No two entries have one key, and there are as many entries, for an iterator too, as different
keys were written. The iterator is called at least once for each write. -/
structure UniqueKeys (keyLen dataLen : UInt32) (f : MemFunction) (keys : List (List UInt8)) :
    Prop where
  nodup : ∀ fd, f.pVdF = some (.assca fd) → ((entries fd.data).map Prod.fst).Nodup
  count : ∀ fd, f.pVdF = some (.assca fd) → (entries fd.data).length = keys.dedup.length
  yields : ∀ bufs s rs, keys.length ≤ bufs.length →
    trace (iterCall keyLen.toUInt64 dataLen.toUInt64) (f, asscaIterFlagNew) bufs = .ok (s, rs) →
      (rs.filter fun r => r.error = amRetGood).length = keys.dedup.length

/-- Among the writes for which there is memory, each key that is written occurs exactly once. -/
def WrittenOnce (kl : ℕ) (ws : List WriteCall) : Prop :=
  (writtenKeys kl (remembered ws)).Nodup ∧
    ∀ key ∈ writtenKeys kl ws, key ∈ writtenKeys kl (remembered ws)

theorem inserted_writeUses (kl dl : ℕ) (ws : List WriteCall) :
    inserted kl dl (writeUses ws) =
      (remembered ws).map fun w => (w.2.1.take kl, w.2.2.take dl) := by
  induction ws with
  | nil => rfl
  | cons w ws ih =>
    have hcons : inserted kl dl (writeUses (w :: ws)) =
        (AsscaUse.adds kl dl (.write w.1 w.2.1 w.2.2)).toList ++ inserted kl dl (writeUses ws) := by
      rw [inserted, writeUses, List.map_cons, List.filterMap_cons]
      cases AsscaUse.adds kl dl (.write w.1 w.2.1 w.2.2) with
      | none => rfl
      | some e => rfl
    rw [hcons, ih, AsscaUse.adds, remembered, remembered, List.filter_cons]
    cases w.1.alloc .asscaItem with
    | false => rfl
    | true => rfl

theorem keys_inserted (kl dl : ℕ) (ws : List WriteCall) :
    (inserted kl dl (writeUses ws)).map Prod.fst = writtenKeys kl (remembered ws) := by
  rw [inserted_writeUses, List.map_map]
  rfl

theorem writtenKeys_remembered_subset (kl : ℕ) (ws : List WriteCall) :
    writtenKeys kl (remembered ws) ⊆ writtenKeys kl ws := by
  intro key hkey
  obtain ⟨w, hw, rfl⟩ := List.mem_map.mp hkey
  exact List.mem_map.mpr ⟨w, (List.mem_filter.mp hw).1, rfl⟩

theorem cursors_writes {ws : List WriteCall} {os : List UseResult} (hf : f.pVdF = some (.assca fd))
    (h : trace (useStep .user) f (writeUses ws) = .ok (g, os)) :
    ∃ fd', g.pVdF = some (.assca fd') ∧ fd'.data.pIterArray = fd.data.pIterArray := by
  induction ws generalizing f fd os with
  | nil =>
    cases h
    exact ⟨fd, hf, rfl⟩
  | cons w ws ih =>
    rw [writeUses, List.map_cons, trace_cons, bind_eq_ok] at h
    rcases h with ⟨⟨f₁, o⟩, hstep, h⟩
    rw [bind_eq_ok] at h
    rcases h with ⟨⟨g', os'⟩, hrest, h⟩
    cases h
    rw [useStep_eq hf, bind_eq_ok] at hstep
    rcases hstep with ⟨⟨pAA, r⟩, haccess, hstep⟩
    cases hstep
    rw [access, bind_eq_ok] at haccess
    rcases haccess with ⟨⟨pAA', r'⟩, hadd, haccess⟩
    cases haccess
    have hdata : (f.setAssca fd pAA').pVdF = some (.assca { fd with data := pAA' }) := rfl
    obtain ⟨fd', hg, hcursors⟩ := ih hdata hrest
    refine ⟨fd', hg, hcursors.trans ?_⟩
    rcases (amlibAsscaAddKeyFixfix_eq_ok.mp hadd).2.2 with
      ⟨-, rfl⟩ | ⟨data, key, t, -, -, -, -, rfl⟩
    · rfl
    · rfl

/-- Two lists of keys, one part of the other, without repetition and of one number of keys. -/
theorem nodup_subset_iff {α : Type*} [DecidableEq α] {l m : List α} (h : l ⊆ m) :
    (l.Nodup ∧ l.length = m.dedup.length) ↔ (l.Nodup ∧ ∀ a ∈ m, a ∈ l) := by
  constructor
  · rintro ⟨hl, hlen⟩
    have hsub : l ⊆ m.dedup := fun a ha => List.mem_dedup.mpr (h ha)
    have hperm : l.Perm m.dedup := (hl.subperm hsub).perm_of_length_le hlen.ge
    exact ⟨hl, fun a ha => hperm.mem_iff.mpr (List.mem_dedup.mpr ha)⟩
  · rintro ⟨hl, hm⟩
    have hperm : l.Perm m.dedup := by
      apply (List.perm_ext_iff_of_nodup hl m.nodup_dedup).mpr
      intro a
      rw [List.mem_dedup]
      exact ⟨fun ha => h ha, hm a⟩
    exact ⟨hl, hperm.length_eq⟩

/-- After any writes to a new table the keys are unique, and the entries as many as the different
keys, just when each key that was written found memory exactly once. -/
theorem uniqueKeys_iff {f₀ : MemFunction} {fd₀ : AsscaData} {keyLength dataLength : UInt32}
    {bFixedKey bFixedData : Bool} (hf₀ : f₀.pVdF = some (.assca fd₀))
    (hinit : fd₀.data = amlibAsscaInit keyLength dataLength bFixedKey bFixedData)
    {ws : List WriteCall} {os : List UseResult}
    (hrun : trace (useStep .user) f₀ (writeUses ws) = .ok (f, os)) :
    UniqueKeys keyLength dataLength f (writtenKeys keyLength.toNat ws) ↔
      WrittenOnce keyLength.toNat ws := by
  have H := (hasEntries_init hf₀ hinit).run hrun
  rw [List.nil_append] at H
  obtain ⟨fd, hf, hcursors⟩ := cursors_writes hf₀ hrun
  obtain ⟨-, -, -, hentries⟩ := H.of_data hf
  have hkeys : (entries fd.data).map Prod.fst = writtenKeys keyLength.toNat (remembered ws) := by
    rw [hentries, keys_inserted]
  have hlen : (entries fd.data).length = (writtenKeys keyLength.toNat (remembered ws)).length := by
    rw [← hkeys, List.length_map]
  have hiff := nodup_subset_iff (writtenKeys_remembered_subset keyLength.toNat ws)
  constructor
  · intro U
    apply hiff.mp
    rw [← hkeys, List.length_map]
    exact ⟨U.nodup fd hf, U.count fd hf⟩
  · intro hone
    obtain ⟨hnodup, hcount⟩ := hiff.mpr hone
    constructor
    · intro fd' hf'
      cases hf.symm.trans hf'
      rwa [hkeys]
    · intro fd' hf'
      cases hf.symm.trans hf'
      rwa [hlen]
    · intro bufs s rs hbufs htrace
      -- no cursor was given away, so the first is free
      have hsome : freeCursor fd.data ≠ none := fun hnone =>
        freeCursor_eq_none.mp hnone (getIterIdx 0) (by rw [hcursors, hinit]; rfl)
      obtain ⟨i, hi⟩ := Option.ne_none_iff_exists'.mp hsome
      rw [H.trace_iterCall hf hi bufs, ← hentries] at htrace
      have hle : (entries fd.data).length ≤ bufs.length := by
        rw [hlen]
        apply le_trans _ hbufs
        rw [writtenKeys, writtenKeys, List.length_map, List.length_map]
        exact List.length_filter_le _ _
      obtain ⟨n, hn⟩ := Nat.exists_eq_add_of_le hle
      rw [hn, delivery_range] at htrace
      have hgood := (Prod.mk.inj (Except.ok.inj htrace)).2
      have hdone : amRetIterDone ≠ amRetGood := by decide
      rw [← hgood, ← hcount, ← hlen]
      simp [List.filter_append, List.filter_map, hdone]

end Writes

section Instances

def differentKeys : List WriteCall :=
  [(.zeroed, [1, 1, 1, 1], [10, 0, 0, 0]), (.zeroed, [2, 2, 2, 2], [20, 0, 0, 0])]

def sameKey : List WriteCall :=
  [(.zeroed, [1, 1, 1, 1], [10, 0, 0, 0]), (.zeroed, [1, 1, 1, 1], [20, 0, 0, 0])]

theorem writes_return (ws : List WriteCall) (h : (trace (useStep .user) (asscaFour 0)
    (writeUses ws)).map (fun _ => ()) = .ok ()) :
    ∃ f os, trace (useStep .user) (asscaFour 0) (writeUses ws) = .ok (f, os) := by
  cases hrun : trace (useStep .user) (asscaFour 0) (writeUses ws) with
  | error e =>
    rw [hrun] at h
    cases h
  | ok r => exact ⟨r.1, r.2, rfl⟩

theorem uniqueKeys_differentKeys : ∃ f os,
    trace (useStep .user) (asscaFour 0) (writeUses differentKeys) = .ok (f, os) ∧
      UniqueKeys 4 4 f [[1, 1, 1, 1], [2, 2, 2, 2]] := by
  obtain ⟨f, os, hrun⟩ := writes_return differentKeys (by decide +kernel)
  refine ⟨f, os, hrun, (uniqueKeys_iff rfl rfl hrun).mpr ?_⟩
  constructor
  · decide
  · decide

/-- The second write of a key does not replace the first. -/
theorem not_uniqueKeys : ∃ f os,
    trace (useStep .user) (asscaFour 0) (writeUses sameKey) = .ok (f, os) ∧
      ¬ UniqueKeys 4 4 f [[1, 1, 1, 1], [1, 1, 1, 1]] := by
  obtain ⟨f, os, hrun⟩ := writes_return sameKey (by decide +kernel)
  refine ⟨f, os, hrun, fun U => ?_⟩
  obtain ⟨fd, hf, -⟩ := cursors_writes rfl hrun
  have H := (hasEntries_init rfl rfl).run hrun
  obtain ⟨-, -, -, hentries⟩ := H.of_data hf
  have hnodup := U.nodup fd hf
  rw [hentries] at hnodup
  revert hnodup
  decide

end Instances

end AppMem.Assca
