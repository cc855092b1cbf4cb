import AppMem.Library.Bytes

/-! # Writes that may overlap

A storage into which values are written at the places of their indices. Of two writes that cover a
place the later decides, and a value is read back just when none of its places was covered by a
write of something else.
-/
namespace AppMem.Library.Cells
open Library.Bytes

variable {κ α : Type*} {off : κ → ℕ} {ws : List (κ × List α)} {w : κ × List α} {mem : List α}
  {a i : ℕ}

def lastAt (off : κ → ℕ) (ws : List (κ × List α)) (a : ℕ) : Option α :=
  ws.foldl (fun b w =>
    if off w.1 ≤ a ∧ a < off w.1 + w.2.length then w.2[a - off w.1]? else b) none

def lastOf [DecidableEq κ] (ws : List (κ × List α)) (key : κ) : Option (List α) :=
  (ws.filter fun w => w.1 = key).getLast?.map Prod.snd

theorem lastAt_append_singleton : lastAt off (ws ++ [w]) a =
    if off w.1 ≤ a ∧ a < off w.1 + w.2.length then w.2[a - off w.1]? else lastAt off ws a := by
  rw [lastAt, List.foldl_append]
  rfl

theorem lastOf_append_singleton [DecidableEq κ] {key : κ} : lastOf (ws ++ [w]) key =
    if w.1 = key then some w.2 else lastOf ws key := by
  rw [lastOf, List.filter_append]
  by_cases hk : w.1 = key
  · rw [if_pos hk]
    simp [hk]
  · rw [if_neg hk]
    simp [hk, lastOf]

theorem isSome_lastAt_of_mem (hw : w ∈ ws) (ha : off w.1 ≤ a ∧ a < off w.1 + w.2.length) :
    (lastAt off ws a).isSome := by
  induction ws using List.reverseRecOn with
  | nil => exact absurd hw List.not_mem_nil
  | append_singleton ws u ih =>
    rw [lastAt_append_singleton]
    by_cases hu : off u.1 ≤ a ∧ a < off u.1 + u.2.length
    · rw [if_pos hu, List.getElem?_eq_getElem (by omega), Option.isSome_some]
    · rw [if_neg hu]
      rcases List.mem_append.mp hw with hw | hw
      · exact ih hw
      · rw [List.mem_singleton.mp hw] at ha
        exact absurd ha hu

theorem mem_of_lastOf [DecidableEq κ] {key : κ} {v : List α} (hv : lastOf ws key = some v) :
    (key, v) ∈ ws := by
  obtain ⟨w, hw, rfl⟩ := Option.map_eq_some_iff.mp hv
  obtain ⟨hmem, hkey⟩ := List.mem_filter.mp (List.mem_of_getLast? hw)
  rwa [← of_decide_eq_true hkey]

theorem isSome_lastAt_of_lastOf [DecidableEq κ] {key : κ} {v : List α}
    (hv : lastOf ws key = some v) {k : ℕ} (hk : k < v.length) :
    (lastAt off ws (off key + k)).isSome := by
  apply isSome_lastAt_of_mem (mem_of_lastOf hv)
  constructor
  · exact Nat.le_add_right _ _
  · exact Nat.add_lt_add_left hk _

/-- When no other index reaches into the places of this one, they hold its last value. -/
theorem lastAt_of_disjoint [DecidableEq κ] {key : κ} {n k : ℕ} (hk : k < n)
    (hown : ∀ w ∈ ws, w.1 = key → w.2.length = n)
    (hother : ∀ w ∈ ws, w.1 ≠ key →
      off w.1 + w.2.length ≤ off key ∨ off key + n ≤ off w.1) :
    lastAt off ws (off key + k) = (lastOf ws key).bind fun v => v[k]? := by
  induction ws using List.reverseRecOn with
  | nil => rfl
  | append_singleton ws u ih =>
    have hmem : ∀ w ∈ ws, w ∈ ws ++ [u] := fun w hw => List.mem_append_left _ hw
    have hu : u ∈ ws ++ [u] := List.mem_append_right _ List.mem_cons_self
    have hrest := ih (fun w hw => hown w (hmem w hw)) fun w hw => hother w (hmem w hw)
    rw [lastAt_append_singleton, lastOf_append_singleton]
    by_cases hkey : u.1 = key
    · have hlen := hown u hu hkey
      rw [if_pos hkey, if_pos (by rw [hkey]; omega), hkey, Nat.add_sub_cancel_left,
        Option.bind_some]
    · have hout : ¬ (off u.1 ≤ off key + k ∧ off key + k < off u.1 + u.2.length) := by
        rcases hother u hu hkey with h | h
        · omega
        · omega
      rw [if_neg hkey, if_neg hout, hrest]

/-- What the writes left at the `n` places from `i` on, as far as they were written. -/
def seenAt (off : κ → ℕ) (ws : List (κ × List α)) (i n : ℕ) : List α :=
  (List.range n).filterMap fun k => lastAt off ws (i + k)

theorem length_seenAt {n : ℕ} (hcov : ∀ k < n, (lastAt off ws (i + k)).isSome) :
    (seenAt off ws i n).length = n := by
  have hsome : ∀ k ∈ List.range n, (lastAt off ws (i + k)).isSome := by
    intro k hk
    exact hcov k (List.mem_range.mp hk)
  rw [seenAt, List.length_filterMap_eq_countP, List.countP_eq_length.mpr hsome, List.length_range]

theorem filterMap_range_getElem? (v : List α) :
    (List.range v.length).filterMap (fun k => v[k]?) = v := by
  induction v using List.reverseRecOn with
  | nil => rfl
  | append_singleton v b ih =>
    have hfront : (List.range v.length).filterMap (fun k => (v ++ [b])[k]?) =
        (List.range v.length).filterMap fun k => v[k]? := by
      apply List.filterMap_congr
      intro k hk
      rw [List.getElem?_append_left (List.mem_range.mp hk)]
    rw [List.length_append, List.length_singleton, List.range_succ, List.filterMap_append, hfront,
      ih]
    simp

theorem seenAt_eq_of_getElem? {v : List α}
    (h : ∀ k < v.length, lastAt off ws (i + k) = v[k]?) : seenAt off ws i v.length = v := by
  have hparts : seenAt off ws i v.length = (List.range v.length).filterMap fun k => v[k]? := by
    apply List.filterMap_congr
    intro k hk
    exact h k (List.mem_range.mp hk)
  rw [hparts, filterMap_range_getElem?]

theorem seenAt_of_disjoint [DecidableEq κ] {key : κ} {v : List α} (hv : lastOf ws key = some v)
    (hown : ∀ w ∈ ws, w.1 = key → w.2.length = v.length)
    (hother : ∀ w ∈ ws, w.1 ≠ key →
      off w.1 + w.2.length ≤ off key ∨ off key + v.length ≤ off w.1) :
    seenAt off ws (off key) v.length = v := by
  apply seenAt_eq_of_getElem?
  intro k hk
  rw [lastAt_of_disjoint hk hown hother, hv, Option.bind_some]

def Remembers (off : κ → ℕ) (ws : List (κ × List α)) (mem : List α) : Prop :=
  ∀ a b, lastAt off ws a = some b → mem[a]? = some b

theorem remembers_nil (off : κ → ℕ) (mem : List α) : Remembers off [] mem := by
  intro a b h
  cases h

theorem Remembers.write (h : Remembers off ws mem) (hin : off w.1 + w.2.length ≤ mem.length) :
    Remembers off (ws ++ [w]) (splice mem (off w.1) w.2) := by
  intro a b hb
  rw [lastAt_append_singleton] at hb
  rw [getElem?_splice hin]
  by_cases ha : off w.1 ≤ a ∧ a < off w.1 + w.2.length
  · rwa [if_pos ha] at hb ⊢
  · rw [if_neg ha] at hb ⊢
    exact h a b hb

/-- What is read at places that were all written is what the writes left there. -/
theorem Remembers.window_eq (h : Remembers off ws mem) {n : ℕ}
    (hcov : ∀ k < n, (lastAt off ws (i + k)).isSome) (hin : i + n ≤ mem.length) :
    window mem i n = seenAt off ws i n := by
  have hlen := length_window hin
  have hcell : ∀ k < (window mem i n).length,
      lastAt off ws (i + k) = (window mem i n)[k]? := by
    intro k hk
    rw [hlen] at hk
    obtain ⟨b, hb⟩ := Option.isSome_iff_exists.mp (hcov k hk)
    rw [getElem?_window, if_pos hk, h _ _ hb, hb]
  have hseen := seenAt_eq_of_getElem? hcell
  rw [hlen] at hseen
  exact hseen.symm

end AppMem.Library.Cells
