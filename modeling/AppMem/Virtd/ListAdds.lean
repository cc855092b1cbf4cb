import AppMem.Library.Linked
import AppMem.Virtd.Create

/-! # Adding to a list, again and again

`am_list_add_fix` once more, with the items as blocks of memory that are linked through their `next`
and reached from `head`. The number of elements is set when the list is created, and never again.
-/
namespace AppMem.Virtd
open Library.Bytes Library.Checked Library.Blocks Library.Linked Abi Memory Pack Device

structure ListHead where
  listType : UInt32
  elemCount : UInt32
  dataType : UInt32
  dataSize : UInt32
  head : Option ℕ

/-- A list, and the blocks of all items that were allocated. -/
structure ListMem where
  list : ListHead
  cells : List (Cell AmlibListItem)

/-- `AMLIB_LIST` as `am_create_list_device` sets it. -/
def newListMem (pCap : AmMemCap) : ListMem where
  list := {
    listType := pCap.subType
    elemCount := 0
    dataType := pCap.typeSpecific tsListDataType
    dataSize := pCap.typeSpecific tsListDataMaxSize
    head := none }
  cells := []

/-- `am_list_add_fix`; `pItem` is the block that it allocates, with what is left in it. -/
def amListAddFixLinked (pItem : Option (Cell AmlibListItem)) (m : ListMem) (p1 : List UInt8) :
    Exec (AmReturn × ListMem) :=
  match pItem with
  | none => .error .nullPointer
  | some pItem => do
    let data ← readBytes p1 m.list.dataSize.toNat
    let pItem := { pItem with value := ⟨data, m.list.dataSize⟩ }
    if m.list.listType = amListSll then
      return (amRetGood,
        { list := { m.list with head := some m.cells.length }
          cells := m.cells ++ [{ pItem with next := m.list.head }] })
    else return (amRetGood, { m with cells := m.cells ++ [pItem] })

section Adds
variable {m m' : ListMem} {pList : AmlibList} {pItem : Cell AmlibListItem} {p1 : List UInt8}
  {e : AmReturn} {adds : List (Cell AmlibListItem × List UInt8)}

/-- The list that is reached from `head`. -/
structure Represents (m : ListMem) (pList : AmlibList) : Prop where
  listType : m.list.listType = pList.listType
  elemCount : m.list.elemCount = pList.elemCount
  dataType : m.list.dataType = pList.dataType
  dataSize : m.list.dataSize = pList.dataSize
  items : Chained m.cells m.list.head pList.items

theorem represents_new (pCap : AmMemCap) : Represents (newListMem pCap) (newList pCap) :=
  ⟨rfl, rfl, rfl, rfl, .nil⟩

theorem Represents.add (R : Represents m pList)
    (h : amListAddFixLinked (some pItem) m p1 = .ok (e, m')) :
    ∃ pList', amListAddFix true pList p1 = .ok (e, pList') ∧ Represents m' pList' := by
  simp only [amListAddFixLinked, bind_eq_ok] at h
  obtain ⟨data, hread, h⟩ := h
  obtain ⟨hlen, rfl⟩ := readBytes_eq_ok.mp hread
  rw [R.dataSize] at hlen
  refine ⟨_, amListAddFix_eq_ok.mpr ⟨rfl, hlen, ?_, rfl⟩, ?_⟩
  · split at h <;> cases h <;> rfl
  · by_cases hsll : pList.listType = amListSll
    · rw [if_pos (R.listType.trans hsll)] at h
      cases h
      rw [if_pos hsll, R.dataSize]
      exact ⟨R.listType, R.elemCount, R.dataType, rfl, R.items.push _⟩
    · rw [if_neg fun hm => hsll (R.listType.symm.trans hm)] at h
      cases h
      rw [if_neg hsll]
      exact ⟨R.listType, R.elemCount, R.dataType, R.dataSize, R.items.append _⟩

/-- Calls that come back good, each with a block of its own. -/
inductive Adds : ListMem → List (Cell AmlibListItem × List UInt8) → ListMem → Prop
  | nil (m : ListMem) : Adds m [] m
  | cons {m m₁ m' : ListMem} {pItem : Cell AmlibListItem} {p1 : List UInt8}
    {adds : List (Cell AmlibListItem × List UInt8)}
    (hadd : amListAddFixLinked (some pItem) m p1 = .ok (amRetGood, m₁)) (hrest : Adds m₁ adds m') :
    Adds m ((pItem, p1) :: adds) m'

/-- The items of the elements that were added, most recent first. -/
def addedItems (dataSize : UInt32) (adds : List (Cell AmlibListItem × List UInt8)) :
    List AmlibListItem :=
  (adds.map fun a => ⟨a.2.take dataSize.toNat, dataSize⟩).reverse

@[simp] theorem length_addedItems (dataSize : UInt32)
    (adds : List (Cell AmlibListItem × List UInt8)) :
    (addedItems dataSize adds).length = adds.length := by
  simp [addedItems]

theorem Represents.run (R : Represents m pList) (h : Adds m adds m') :
    Represents m' (if pList.listType = amListSll then
      { pList with items := addedItems pList.dataSize adds ++ pList.items } else pList) := by
  induction h generalizing pList with
  | nil m =>
    simp only [addedItems, List.map_nil, List.reverse_nil, List.nil_append, ite_self]
    exact R
  | cons hadd _ ih =>
    obtain ⟨pList₁, hadd', R₁⟩ := R.add hadd
    obtain ⟨-, -, -, rfl⟩ := amListAddFix_eq_ok.mp hadd'
    have hrest := ih R₁
    by_cases hsll : pList.listType = amListSll
    · simp only [hsll, if_true] at hrest ⊢
      simpa only [addedItems, List.map_cons, List.reverse_cons, List.append_assoc,
        List.singleton_append] using hrest
    · simpa only [hsll, if_false] using hrest

variable {env : Env} {m₀ : ListMem} {pCap : AmMemCap} {pFunc : VirtdPtrs} {heap : Heap}

/-- `am_create_list_device` has come back good for items of a fixed size, and has made this list. -/
structure CreatesList (env : Env) (pCap : AmMemCap) (pFunc : VirtdPtrs) (heap : Heap)
    (m : ListMem) : Prop where
  good : ∃ pFunc' heap', amCreateListDevice env pCap pFunc heap = .ok (amRetGood, pFunc', heap')
  fixed : pCap.typeSpecific tsListDataType &&& tsListDataFixed ≠ 0
  made : m = newListMem pCap

/-- What is reached from `head` are the elements that were added. -/
def ReachesAdded (pCap : AmMemCap) (adds : List (Cell AmlibListItem × List UInt8)) (m : ListMem) :
    Prop :=
  Chained m.cells m.list.head (addedItems (pCap.typeSpecific tsListDataMaxSize) adds)

/-- The list holds the elements that were added, and their number. -/
structure HoldsAdded (pCap : AmMemCap) (adds : List (Cell AmlibListItem × List UInt8))
    (m : ListMem) : Prop where
  reaches : ReachesAdded pCap adds m
  count : m.list.elemCount.toNat = adds.length

/-- Only a singly linked list has the elements. -/
theorem reachesAdded_iff (h : Adds (newListMem pCap) adds m) :
    ReachesAdded pCap adds m ↔ adds = [] ∨ pCap.subType = amListSll := by
  have hitems := ((represents_new pCap).run h).items
  by_cases hsll : (newList pCap).listType = amListSll
  · rw [if_pos hsll] at hitems
    have hnil : (newList pCap).items = [] := rfl
    rw [hnil, List.append_nil] at hitems
    exact iff_of_true hitems (.inr hsll)
  · rw [if_neg hsll] at hitems
    constructor
    · intro hreach
      have hnil := congrArg List.length (hreach.unique hitems)
      rw [length_addedItems] at hnil
      exact .inl (List.eq_nil_of_length_eq_zero hnil)
    · rintro (rfl | hsub)
      · exact hitems
      · exact absurd hsub hsll

/-- No list has their number. -/
theorem elemCount_of_adds (h : Adds (newListMem pCap) adds m) : m.list.elemCount = 0 := by
  have hcount := ((represents_new pCap).run h).elemCount
  split at hcount
  · exact hcount
  · exact hcount

theorem holdsAdded_iff_nil (h : Adds (newListMem pCap) adds m) :
    HoldsAdded pCap adds m ↔ adds = [] := by
  constructor
  · intro H
    have hcount := H.count
    rw [elemCount_of_adds h] at hcount
    exact List.eq_nil_of_length_eq_zero hcount.symm
  · intro hnil
    refine ⟨(reachesAdded_iff h).mpr (.inl hnil), ?_⟩
    rw [elemCount_of_adds h, hnil]
    rfl

/-- For every list that is created and every sequence of additions to it. -/
theorem holdsAdded_iff (hc : CreatesList env pCap pFunc heap m₀) (h : Adds m₀ adds m) :
    (ReachesAdded pCap adds m ↔ adds = [] ∨ pCap.subType = amListSll) ∧
      (HoldsAdded pCap adds m ↔ adds = []) := by
  rw [hc.made] at h
  exact ⟨reachesAdded_iff h, holdsAdded_iff_nil h⟩

end Adds

section Example

def listCap (subType : UInt32) : AmMemCap where
  amType := amTypeList
  maxSize := 0
  subType := subType
  functionCount := 1
  accessFlags := 0
  typeSpecific := fun i => if i = tsListDataMaxSize then 4 else tsListDataFixed
  acOps := fun _ => 0

def noPtrs : VirtdPtrs := ⟨none, none, none, none, none⟩

theorem createsList (subType : UInt32) :
    CreatesList .zeroed (listCap subType) noPtrs .empty (newListMem (listCap subType)) where
  good := ⟨_, _, amCreateListDevice_eq rfl⟩
  fixed := by
    change tsListDataFixed &&& tsListDataFixed ≠ 0
    decide
  made := rfl

def oneAdd : List (Cell AmlibListItem × List UInt8) := [(⟨⟨[], 0⟩, none⟩, [1, 2, 3, 4])]

theorem exists_adds : ∃ m, Adds (newListMem (listCap amListDll)) oneAdd m :=
  ⟨_, .cons rfl (.nil _)⟩

theorem holdsAdded_iff_dll : ∃ m, Adds (newListMem (listCap amListDll)) oneAdd m ∧
    (ReachesAdded (listCap amListDll) oneAdd m ↔
      oneAdd = [] ∨ (listCap amListDll).subType = amListSll) ∧
    (HoldsAdded (listCap amListDll) oneAdd m ↔ oneAdd = []) := by
  obtain ⟨m, h⟩ := exists_adds
  exact ⟨m, h, holdsAdded_iff (createsList amListDll) h⟩

/-- One element is added to a doubly linked list, and is lost. -/
theorem not_holdsAdded : ¬ ∀ (env : Env) (pCap : AmMemCap) (pFunc : VirtdPtrs) (heap : Heap)
    (m₀ m : ListMem) (adds : List (Cell AmlibListItem × List UInt8)),
    CreatesList env pCap pFunc heap m₀ → Adds m₀ adds m → HoldsAdded pCap adds m := by
  intro hall
  obtain ⟨m, h⟩ := exists_adds
  have H := hall _ _ _ _ _ m _ (createsList amListDll) h
  rcases (reachesAdded_iff h).mp H.reaches with hnil | hsll
  · exact List.cons_ne_nil _ _ hnil
  · exact absurd hsll (by decide)

end Example

end AppMem.Virtd
