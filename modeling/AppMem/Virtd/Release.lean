import AppMem.Virtd.Create
import AppMem.Device.Iterator

/-! # What a release gives back

A function of the virtual device with every block that was allocated for it. The release
functions free them and leave `pVdF` as it is, so whatever looks at the private data after the
first release looks at freed memory.
-/
namespace AppMem.Virtd
open Library.Bytes Library.Checked Library.Blocks Abi Memory Hash Pack Device

inductive VirtdKind
  | flat
  | stata
  | assca
  deriving DecidableEq, Repr

namespace VirtdKind

def amType : VirtdKind → UInt32
  | flat => amTypeFlatMem
  | stata => amTypeStaticArray
  | assca => amTypeAssocArray

def writeAl (env : Env) (f : MemFunction) (p1 p2 : List UInt8) :
    VirtdKind → Exec (MemFunction × Served)
  | flat => amFlatWrite32Align .user f p1 p2
  | stata => amStataWriteIdx32 .user f p1 p2
  | assca => amAsscaWrite32Align env f p1 p2

def readAl (f : MemFunction) (p1 p2 : List UInt8) : VirtdKind → Exec (MemFunction × Served)
  | flat => amFlatRead32Align .user f p1 p2
  | stata => amStataReadIdx32 .user f p1 p2
  | assca => amAsscaRead32Align .user f p1 p2

end VirtdKind

inductive VirtdUse
  | create (env : Env) (pCap : AmMemCap)
  | write (env : Env) (p1 p2 : List UInt8)
  | read (p1 p2 : List UInt8)
  | iter (p1 : List UInt8) (l1 : UInt64) (p2 : List UInt8) (l2 : UInt64) (h : UInt32)
  | release

/-- A function, the blocks it points to, those of the items of an associative array, the table of
`uthash` with its buckets, and the heap. `minor` is `g_virtd_minor_count`. -/
structure Owned where
  func : MemFunction
  ptrs : VirtdPtrs
  items : List ℕ
  table : Option (ℕ × ℕ)
  heap : Heap
  minor : ℕ

namespace Owned

/-- A function that was never created, with the table of calls of its client. -/
def start (func : MemFunction) (fn : Option FnCalls) (h : Heap) (minor : ℕ) : Owned :=
  ⟨{ func with pVdF := none }, ⟨none, none, none, none, fn⟩, [], none, h, minor⟩

/-- `*pVdF` is looked at. -/
def touch (s : Owned) : Exec Unit :=
  match s.ptrs.pVdF with
  | none => .ok ()
  | some pVdF => require (pVdF ∈ s.heap.live) Fault.useAfterFree

end Owned

section Create

/-- `am_virtd_create_function`. The types of the switch do not look at the entries. -/
def createUse (kind : VirtdKind) (env : Env) (pCap : AmMemCap) (s : Owned) :
    Exec (Owned × AmReturn) := do
  let pCap := { pCap with amType := kind.amType }
  let r ← createFunction env pCap s.ptrs s.heap
  let g ← amVirtdCreateFunction env (fun _ => none) s.minor pCap
    ⟨s.func, s.ptrs.fn.map FnCalls.toFuncCalls⟩
  let fresh := env.alloc .funcData
  return (⟨g.2.func, r.2.1, if fresh then [] else s.items, if fresh then none else s.table, r.2.2,
    s.minor + 1⟩, r.1)

end Create

section Write

def bucketCount (t : Option (Table ℕ)) : UInt32 :=
  match t with
  | none => hashInitialNumBuckets
  | some t => t.numBuckets

def hashTable (f : MemFunction) : Option (Table ℕ) :=
  match f.pVdF with
  | some (.assca fd) => fd.data.table
  | _ => none

/-- `HASH_MAKE_TABLE`: the first item brings the table and its buckets. -/
def tableBlocks (table : Option (ℕ × ℕ)) (h : Heap) : (ℕ × ℕ) × Heap :=
  match table with
  | some table => (table, h)
  | none => ((h.next, h.next + 1), h.alloc.alloc)

/-- The blocks that a write allocates, and the buckets it frees when they are doubled; `g` is the
function after the write. -/
def writeBlocks (env : Env) (g : MemFunction) (s : Owned) : Exec Owned :=
  match s.heap.malloc (env.alloc .asscaItem) with
  | (none, _) => .ok { s with func := g }
  | (some pAI, h) =>
    let made := tableBlocks s.table h
    if bucketCount (hashTable s.func) = bucketCount (hashTable g) then
      .ok { s with
        func := g
        items := s.items ++ [pAI]
        table := some made.1
        heap := made.2 }
    else do
      let h ← made.2.alloc.free Fault.useAfterFree made.1.2
      return { s with
        func := g
        items := s.items ++ [pAI]
        table := some (made.1.1, made.2.next)
        heap := h }

/-- `fn->write_al`; only an associative array that is there allocates. -/
def writeUse (kind : VirtdKind) (env : Env) (p1 p2 : List UInt8) (s : Owned) :
    Exec (Owned × AmReturn) := do
  s.touch
  let r ← kind.writeAl env s.func p1 p2
  if kind = .assca ∧ s.ptrs.pVdF.isSome then
    let s ← writeBlocks env r.1 s
    return (s, r.2.error)
  else return ({ s with func := r.1 }, r.2.error)

end Write

section Release

/-- The loop of `am_assca_release`. `HASH_DEL` of the last item frees the buckets and the table
before the item itself is freed. -/
def releaseItems (table : Option (ℕ × ℕ)) : List ℕ → Heap → Exec Heap
  | [], h => .ok h
  | pAI :: rest, h => do
    let h ← match rest, table with
      | [], some (tbl, buckets) => h.freeAll Fault.useAfterFree [buckets, tbl]
      | [], none => .error .nullPointer
      | _ :: _, _ => .ok h
    let h ← h.free Fault.useAfterFree pAI
    releaseItems table rest h

/-- `am_flat_release`, and `am_stata_release`, which is the same. -/
def amFlatRelease (pVdF : ℕ) (s : Owned) : Exec Owned := do
  let h ← s.heap.freeAll Fault.useAfterFree (s.ptrs.data.toList ++ [pVdF])
  return { s with ptrs := { s.ptrs with data := none }, heap := h }

/-- `am_assca_release`. The private data of an array without a table was never filled in. -/
def amAsscaRelease (pVdF : ℕ) (s : Owned) : Exec Owned := do
  require s.ptrs.data.isSome Fault.uninitialised
  let h ← releaseItems s.table s.items s.heap
  let h ← h.free Fault.useAfterFree pVdF
  return { s with items := [], table := none, heap := h }

/-- The release function of a type. All of them ask whether there is private data. -/
def releaseUse (kind : VirtdKind) (s : Owned) : Exec (Owned × AmReturn) := do
  s.touch
  match s.ptrs.pVdF with
  | none => return (s, amRetGood)
  | some pVdF =>
    let s ← if kind = .assca then amAsscaRelease pVdF s else amFlatRelease pVdF s
    return (s, amRetGood)

end Release

/-- One use of a function. Only associative arrays have a call for iterators. -/
def virtdStep (kind : VirtdKind) (s : Owned) : VirtdUse → Exec (Owned × AmReturn)
  | .create env pCap => createUse kind env pCap s
  | .write env p1 p2 => writeUse kind env p1 p2 s
  | .read p1 p2 => do
    s.touch
    let r ← kind.readAl s.func p1 p2
    return ({ s with func := r.1 }, r.2.error)
  | .iter p1 l1 p2 l2 h => do
    require (kind = .assca) Fault.nullPointer
    s.touch
    let r ← amAsscaIter .user s.func p1 l1 p2 l2 h
    return ({ s with func := r.1 }, r.2.error)
  | .release => releaseUse kind s

section GivenBack

/-- After a release: what was allocated since the heap was `h` has been freed, each block once,
`pVdF` does not lead to freed memory, a second release does nothing, and an associative array
refuses to be read and written. -/
structure GivenBack (kind : VirtdKind) (h : Heap) (s : Owned) : Prop where
  once : ∀ b, h.next ≤ b → b < s.heap.next → b ∉ s.heap.live ∧ s.heap.freed.count b = 1
  pointer : ∀ b, s.ptrs.pVdF = some b → b ∉ s.heap.freed
  again : virtdStep kind s .release = .ok (s, amRetGood)
  refused : kind = .assca → ∀ env p1 p2,
    virtdStep kind s (.write env p1 p2) = .ok (s, amRetInvalidHdl) ∧
    virtdStep kind s (.read p1 p2) = .ok (s, amRetInvalidHdl)

/-- A release comes back and has given back everything. -/
def GivesBack (kind : VirtdKind) (h : Heap) (s : Owned) : VirtdUse → Prop
  | .release => ∃ s' e, virtdStep kind s .release = .ok (s', e) ∧ GivenBack kind h s'
  | _ => True

def NothingToRelease (s : Owned) : VirtdUse → Prop
  | .release => s.ptrs.pVdF = none
  | _ => True

end GivenBack

section Lemmas
variable {kind : VirtdKind} {env : Env} {pCap : AmMemCap} {s s' : Owned} {e : AmReturn} {b : ℕ}
  {h : Heap}

theorem kind_inSwitch (kind : VirtdKind) : ¬ amTypeAssocArray < kind.amType := by
  cases kind <;> decide

/-- The switch has one more block at most, and that is the storage. -/
theorem createSwitch_cases (env : Env) (pCap : AmMemCap) {p : VirtdPtrs} (h : Heap)
    (hd : p.data = none) : ∃ fn, (createSwitch env pCap p h).2 = ({ p with fn := fn }, h) ∨
      (createSwitch env pCap p h).2 = ({ p with data := some h.next, fn := fn }, h.alloc) := by
  have hsame : ({ p with data := none } : VirtdPtrs) = p := by
    rw [← hd]
  have hstorage : ∀ calls, ∃ fn, (createStorage env calls p h).2 = ({ p with fn := fn }, h) ∨
      (createStorage env calls p h).2 = ({ p with data := some h.next, fn := fn }, h.alloc) := by
    intro calls
    unfold createStorage
    cases env.alloc .storage with
    | false => exact ⟨p.fn, .inl (congrArg (fun q => (q, h)) hsame)⟩
    | true => exact ⟨p.fn.map calls, .inr rfl⟩
  unfold createSwitch
  by_cases hflat : pCap.amType = amTypeFlatMem
  · rw [if_pos hflat]
    exact hstorage _
  · rw [if_neg hflat]
    by_cases hstata : pCap.amType = amTypeStaticArray
    · rw [if_pos hstata]
      exact hstorage _
    · rw [if_neg hstata]
      by_cases hassca : pCap.amType = amTypeAssocArray
      · rw [if_pos hassca, initAssca]
        cases p.fn with
        | none => exact ⟨p.fn, .inl rfl⟩
        | some c =>
          cases env.alloc .assca with
          | false => exact ⟨p.fn, .inl rfl⟩
          | true => exact ⟨_, .inr rfl⟩
      · rw [if_neg hassca]
        exact ⟨p.fn, .inl rfl⟩

theorem createUse_noMemory (hm : env.alloc .funcData = false) :
    createUse kind env pCap s = .ok ({ s with minor := s.minor + 1 }, amRetParamErr) := by
  let pCap' : AmMemCap := { pCap with amType := kind.amType }
  have hty : ¬ amTypeAssocArray < pCap'.amType := kind_inSwitch kind
  have hptrs : createFunction env pCap' s.ptrs s.heap = .ok (amRetParamErr, s.ptrs, s.heap) := by
    rw [createFunction, if_neg hty, hm, Heap.malloc_false]
  have hfunc : amVirtdCreateFunction env (fun _ => none) s.minor pCap'
      ⟨s.func, s.ptrs.fn.map FnCalls.toFuncCalls⟩ =
        .ok (amRetParamErr, ⟨s.func, s.ptrs.fn.map FnCalls.toFuncCalls⟩) := by
    rw [amVirtdCreateFunction, if_neg hty, hm, if_neg Bool.false_ne_true]
  unfold createUse
  dsimp only
  rw [hptrs, ok_bind, hfunc, hm]
  rfl

theorem createUse_memory (kind : VirtdKind) (pCap : AmMemCap) (s : Owned)
    (hm : env.alloc .funcData = true) : ∃ func r,
    createUse kind env pCap s =
      .ok (⟨func, r.2.1, [], none, r.2.2, s.minor + 1⟩, r.1) ∧
    r = createSwitch env { pCap with amType := kind.amType } { s.ptrs with
      pVdF := some s.heap.next
      data := none } s.heap.alloc := by
  let pCap' : AmMemCap := { pCap with amType := kind.amType }
  have hty : ¬ amTypeAssocArray < pCap'.amType := kind_inSwitch kind
  have hptrs : createFunction env pCap' s.ptrs s.heap =
      .ok (createSwitch env pCap' { s.ptrs with
        pVdF := some s.heap.next
        data := none } s.heap.alloc) := by
    rw [createFunction, if_neg hty, hm, Heap.malloc_true]
  obtain ⟨g, hfunc⟩ : ∃ g, amVirtdCreateFunction env (fun _ => none) s.minor pCap'
      ⟨s.func, s.ptrs.fn.map FnCalls.toFuncCalls⟩ = .ok g := by
    rw [amVirtdCreateFunction, if_neg hty, hm, if_pos rfl]
    exact ⟨_, rfl⟩
  refine ⟨g.2.func, _, ?_, rfl⟩
  unfold createUse
  dsimp only
  rw [hptrs, ok_bind, hfunc, ok_bind, hm]
  rfl

theorem createUse_pVdF (hm : env.alloc .funcData = true)
    (hc : createUse kind env pCap s = .ok (s', e)) : s'.ptrs.pVdF = some s.heap.next := by
  obtain ⟨func, r, hok, hr⟩ := createUse_memory kind pCap s hm
  rw [hok] at hc
  cases hc
  have hd : ({ s.ptrs with pVdF := some s.heap.next, data := none } : VirtdPtrs).data = none := rfl
  obtain ⟨fn, hsame | hmore⟩ :=
    createSwitch_cases env { pCap with amType := kind.amType } s.heap.alloc hd
  · rw [hr, hsame]
  · rw [hr, hmore]

theorem writeBlocks_ptrs {g : MemFunction} (hw : writeBlocks env g s = .ok s') :
    s'.ptrs = s.ptrs := by
  unfold writeBlocks at hw
  cases hm : env.alloc .asscaItem with
  | false =>
    rw [hm] at hw
    cases hw
    rfl
  | true =>
    rw [hm, Heap.malloc_true] at hw
    dsimp only at hw
    split at hw
    · cases hw
      rfl
    · rw [bind_eq_ok] at hw
      obtain ⟨h, -, hw⟩ := hw
      cases hw
      rfl

theorem touch_none (hp : s.ptrs.pVdF = none) : s.touch = .ok () := by
  rw [Owned.touch, hp]

theorem releaseUse_none (hp : s.ptrs.pVdF = none) : releaseUse kind s = .ok (s, amRetGood) := by
  rw [releaseUse, touch_none hp, ok_bind, hp]
  rfl

/-- A release that comes back has freed the private data, and kept the pointer to it. -/
theorem releaseUse_some (hp : s.ptrs.pVdF = some b) (hr : releaseUse kind s = .ok (s', e)) :
    s'.ptrs.pVdF = some b ∧ b ∈ s'.heap.freed := by
  rw [releaseUse, bind_eq_ok] at hr
  obtain ⟨-, -, hr⟩ := hr
  rw [hp] at hr
  dsimp only at hr
  by_cases hk : kind = .assca
  · rw [if_pos hk, bind_eq_ok] at hr
    obtain ⟨s₁, ha, hr⟩ := hr
    cases hr
    rw [amAsscaRelease, bind_eq_ok] at ha
    obtain ⟨-, -, ha⟩ := ha
    rw [bind_eq_ok] at ha
    obtain ⟨h₁, -, ha⟩ := ha
    rw [bind_eq_ok] at ha
    obtain ⟨h₂, hfree, ha⟩ := ha
    cases ha
    obtain ⟨-, -, hfreed, -⟩ := Heap.free_eq_ok hfree
    refine ⟨hp, ?_⟩
    rw [hfreed]
    exact List.mem_append_right _ (List.mem_singleton_self b)
  · rw [if_neg hk, bind_eq_ok] at hr
    obtain ⟨s₁, hf, hr⟩ := hr
    cases hr
    rw [amFlatRelease, bind_eq_ok] at hf
    obtain ⟨h₁, hfree, hf⟩ := hf
    cases hf
    refine ⟨hp, ?_⟩
    rw [(Heap.freeAll_eq_ok hfree).1]
    exact List.mem_append_right _ (List.mem_append_right _ (List.mem_singleton_self b))

def Untouched (h : Heap) (s : Owned) : Prop :=
  s.ptrs.pVdF = none → s.func.pVdF = none ∧ s.heap = h

theorem writeAl_none {f : MemFunction} {p1 p2 : List UInt8} {r : MemFunction × Served}
    (hf : f.pVdF = none) (hw : kind.writeAl env f p1 p2 = .ok r) :
    kind = .assca ∧ r = (f, { error := amRetInvalidHdl }) := by
  cases kind with
  | flat =>
    rw [VirtdKind.writeAl, amFlatWrite32Align, flatAccess, hf] at hw
    cases hw
  | stata =>
    rw [VirtdKind.writeAl, amStataWriteIdx32, stataAccess, hf] at hw
    cases hw
  | assca =>
    rw [VirtdKind.writeAl, amAsscaWrite32Align, asscaAccess, hf] at hw
    cases hw
    exact ⟨rfl, rfl⟩

theorem readAl_none {f : MemFunction} {p1 p2 : List UInt8} {r : MemFunction × Served}
    (hf : f.pVdF = none) (hw : kind.readAl f p1 p2 = .ok r) :
    kind = .assca ∧ r = (f, { error := amRetInvalidHdl }) := by
  cases kind with
  | flat =>
    rw [VirtdKind.readAl, amFlatRead32Align, flatAccess, hf] at hw
    cases hw
  | stata =>
    rw [VirtdKind.readAl, amStataReadIdx32, stataAccess, hf] at hw
    cases hw
  | assca =>
    rw [VirtdKind.readAl, amAsscaRead32Align, asscaAccess, hf] at hw
    cases hw
    exact ⟨rfl, rfl⟩

theorem Untouched.step (U : Untouched h s) (use : VirtdUse)
    (hs : virtdStep kind s use = .ok (s', e)) : Untouched h s' := by
  intro hp'
  cases use with
  | create env pCap =>
    cases hm : env.alloc .funcData with
    | false =>
      rw [virtdStep, createUse_noMemory hm] at hs
      cases hs
      exact U hp'
    | true =>
      rw [createUse_pVdF hm hs] at hp'
      cases hp'
  | write env p1 p2 =>
    rw [virtdStep, writeUse, bind_eq_ok] at hs
    obtain ⟨-, -, hs⟩ := hs
    rw [bind_eq_ok] at hs
    obtain ⟨r, hr, hs⟩ := hs
    by_cases hk : kind = .assca ∧ s.ptrs.pVdF.isSome
    · rw [if_pos hk, bind_eq_ok] at hs
      obtain ⟨s₁, hw, hs⟩ := hs
      cases hs
      rw [← writeBlocks_ptrs hw, hp'] at hk
      exact absurd hk.2 Bool.false_ne_true
    · rw [if_neg hk] at hs
      cases hs
      obtain ⟨hf, hh⟩ := U hp'
      obtain ⟨-, rfl⟩ := writeAl_none hf hr
      exact ⟨hf, hh⟩
  | read p1 p2 =>
    rw [virtdStep, bind_eq_ok] at hs
    obtain ⟨-, -, hs⟩ := hs
    rw [bind_eq_ok] at hs
    obtain ⟨r, hr, hs⟩ := hs
    cases hs
    obtain ⟨hf, hh⟩ := U hp'
    obtain ⟨-, rfl⟩ := readAl_none hf hr
    exact ⟨hf, hh⟩
  | iter p1 l1 p2 l2 n =>
    rw [virtdStep, bind_eq_ok] at hs
    obtain ⟨-, -, hs⟩ := hs
    rw [bind_eq_ok] at hs
    obtain ⟨-, -, hs⟩ := hs
    rw [bind_eq_ok] at hs
    obtain ⟨r, hr, hs⟩ := hs
    cases hs
    obtain ⟨hf, hh⟩ := U hp'
    rw [amAsscaIter, hf] at hr
    cases hr
    exact ⟨hf, hh⟩
  | release =>
    cases hp : s.ptrs.pVdF with
    | none =>
      rw [virtdStep, releaseUse_none hp] at hs
      cases hs
      exact U hp
    | some b =>
      rw [(releaseUse_some hp hs).1] at hp'
      cases hp'

/-- Without private data there is nothing to give back. -/
theorem Untouched.givenBack (U : Untouched h s) (hp : s.ptrs.pVdF = none) :
    GivenBack kind h s where
  once b hle hlt := by
    rw [(U hp).2] at hlt
    exact absurd hlt (Nat.not_lt.mpr hle)
  pointer b hb := by
    rw [hp] at hb
    cases hb
  again := releaseUse_none hp
  refused hk env p1 p2 := by
    subst hk
    obtain ⟨hf, -⟩ := U hp
    constructor
    · rw [virtdStep, writeUse, touch_none hp, ok_bind, VirtdKind.writeAl, amAsscaWrite32Align,
        asscaAccess, hf, ok_bind, hp]
      rfl
    · rw [virtdStep, touch_none hp, ok_bind, VirtdKind.readAl, amAsscaRead32Align, asscaAccess, hf,
        ok_bind]
      rfl

theorem givesBack_iff (U : Untouched h s) (use : VirtdUse) :
    GivesBack kind h s use ↔ NothingToRelease s use := by
  cases use with
  | release =>
    constructor
    · rintro ⟨s', e, hs, G⟩
      by_contra hp
      obtain ⟨b, hb⟩ := Option.ne_none_iff_exists'.mp hp
      obtain ⟨hkept, hfreed⟩ := releaseUse_some hb hs
      exact G.pointer b hkept hfreed
    · exact fun hp => ⟨s, amRetGood, releaseUse_none hp, U.givenBack hp⟩
  | create env pCap => exact Iff.rfl
  | write env p1 p2 => exact Iff.rfl
  | read p1 p2 => exact Iff.rfl
  | iter p1 l1 p2 l2 n => exact Iff.rfl

end Lemmas

/-- For every function and every sequence of uses: each release gives back everything just when
each finds no private data, because no creation before it got memory for that. -/
theorem releasesGiveBack_iff (kind : VirtdKind) (func : MemFunction) (fn : Option FnCalls) (h : Heap)
    (minor : ℕ) (uses : List VirtdUse) :
    Along (virtdStep kind) (GivesBack kind h) (.start func fn h minor) uses ↔
      Along (virtdStep kind) NothingToRelease (.start func fn h minor) uses := by
  have hstep : ∀ s use s' e, Untouched h s → virtdStep kind s use = .ok (s', e) →
      Untouched h s' := fun _ use _ _ U hs => U.step use hs
  have hstart : Untouched h (.start func fn h minor) := fun _ => ⟨rfl, rfl⟩
  exact along_congr hstep (fun _ use U => givesBack_iff U use) hstart uses

/-- A flat memory that is created and released; its pointer leads to what was freed. -/
theorem not_releasesGiveBack : ¬ ∀ (kind : VirtdKind) (func : MemFunction) (fn : Option FnCalls)
    (h : Heap) (minor : ℕ) (uses : List VirtdUse),
    Along (virtdStep kind) (GivesBack kind h) (.start func fn h minor) uses := by
  intro hall
  let s : Owned := .start (.blank 0) (some noCalls) .empty 1
  have hstart : Untouched .empty s := fun _ => ⟨rfl, rfl⟩
  have hmem : Env.zeroed.alloc .funcData = true := rfl
  obtain ⟨func, r, hcreate, -⟩ := createUse_memory .flat flatCaps s hmem
  have hrun := hall .flat (.blank 0) (some noCalls) .empty 1 [.create .zeroed flatCaps, .release]
  have hrelease := (hrun.2 _ _ hcreate).1
  have hcreated : Untouched .empty ⟨func, r.2.1, [], none, r.2.2, s.minor + 1⟩ :=
    hstart.step (.create .zeroed flatCaps) hcreate
  have hnull := (givesBack_iff hcreated .release).mp hrelease
  rw [NothingToRelease, createUse_pVdF hmem hcreate] at hnull
  cases hnull

end AppMem.Virtd
