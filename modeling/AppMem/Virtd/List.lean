import AppMem.Device.Virtd
import AppMem.Library.Blocks

/-! # Linked lists

`am_list.c`: the only type that the virtual device creates through its registered entry. Items
of a fixed size are added at the head of a singly linked list; the other two kinds of list are
announced, and have no code.
-/
namespace AppMem.Virtd
open Library.Bytes Library.Checked Library.Blocks Abi Memory Pack Device

/-- `AM_LIST_SLL` and `AM_LIST_DLL`; `AM_LIST_CLL` is 2. -/
def amListSll : UInt32 := 0
def amListDll : UInt32 := 1

/-- The words of `typeSpecific`, and the bit of items with a fixed size. -/
def tsListDataMaxSize : Fin 32 := 0
def tsListDataType : Fin 32 := 1
def tsListDataFixed : UInt32 := 1

structure AmlibListItem where
  data : List UInt8
  dataSize : UInt32
  deriving DecidableEq

/-- `AMLIB_LIST`, with its items from `head` on. -/
structure AmlibList where
  listType : UInt32
  elemCount : UInt32
  dataType : UInt32
  dataSize : UInt32
  items : List AmlibListItem
  deriving DecidableEq

/-- The list that `am_create_list_device` makes of a capability. -/
def newList (pCap : AmMemCap) : AmlibList where
  listType := pCap.subType
  elemCount := 0
  dataType := pCap.typeSpecific tsListDataType
  dataSize := pCap.typeSpecific tsListDataMaxSize
  items := []

/-- `am_list_add_fix`; `mem` is the outcome of its allocation, which is not looked at. An item is
linked only into a singly linked list. -/
def amListAddFix (mem : Bool) (pList : AmlibList) (p1 : List UInt8) :
    Exec (AmReturn × AmlibList) := do
  require (mem = true) Fault.nullPointer
  let data ← readBytes p1 pList.dataSize.toNat
  let pItem : AmlibListItem := ⟨data, pList.dataSize⟩
  if pList.listType = amListSll then
    return (amRetGood, { pList with items := pItem :: pList.items })
  else return (amRetGood, pList)

/-- Good says that the item is at the head of the list; any other answer, that the list is as it
was. The call does not write through a null pointer. -/
def ListAddHonest (mem : Bool) (pList : AmlibList) (p1 : List UInt8) : Prop :=
  amListAddFix mem pList p1 ≠ .error .nullPointer ∧
    ∀ e pList', amListAddFix mem pList p1 = .ok (e, pList') →
      if e = amRetGood then
        pList' = { pList with
          items := ⟨p1.take pList.dataSize.toNat, pList.dataSize⟩ :: pList.items }
      else pList' = pList

section Lemmas
variable {mem : Bool} {pList pList' : AmlibList} {p1 : List UInt8} {e : AmReturn}

theorem amListAddFix_eq_ok : amListAddFix mem pList p1 = .ok (e, pList') ↔
    mem = true ∧ pList.dataSize.toNat ≤ p1.length ∧ e = amRetGood ∧
      pList' = if pList.listType = amListSll then { pList with
        items := ⟨p1.take pList.dataSize.toNat, pList.dataSize⟩ :: pList.items } else pList := by
  cases mem with
  | false => simp [amListAddFix, require_of_false]
  | true =>
    by_cases hlen : pList.dataSize.toNat ≤ p1.length
    · by_cases hsll : pList.listType = amListSll
      · simp [amListAddFix, readBytes_of_le hlen, hlen, hsll, eq_comm]
      · simp [amListAddFix, readBytes_of_le hlen, hlen, hsll, eq_comm]
    · simp [amListAddFix, readBytes_of_lt (Nat.not_le.mp hlen), hlen]

theorem amListAddFix_null : amListAddFix mem pList p1 = .error .nullPointer ↔ mem = false := by
  cases mem with
  | false => simp [amListAddFix, require_of_false]
  | true =>
    by_cases hlen : pList.dataSize.toNat ≤ p1.length
    · by_cases hsll : pList.listType = amListSll
      · simp [amListAddFix, readBytes_of_le hlen, hsll]
      · simp [amListAddFix, readBytes_of_le hlen, hsll]
    · simp [amListAddFix, readBytes_of_lt (Nat.not_le.mp hlen)]

/-- With memory, an item that was read is stored just when the list is singly linked. -/
theorem listAddHonest_iff : ListAddHonest mem pList p1 ↔
    mem = true ∧ (pList.dataSize.toNat ≤ p1.length → pList.listType = amListSll) := by
  rw [ListAddHonest, ne_eq, amListAddFix_null, Bool.not_eq_false]
  apply and_congr_right
  intro hm
  constructor
  · intro hcall hlen
    by_contra hsll
    have hgood := hcall amRetGood pList (amListAddFix_eq_ok.mpr ⟨hm, hlen, rfl, (if_neg hsll).symm⟩)
    rw [if_pos rfl] at hgood
    exact List.cons_ne_self _ _ (congrArg AmlibList.items hgood).symm
  · intro hsll e pList' hcall
    obtain ⟨-, hlen, rfl, rfl⟩ := amListAddFix_eq_ok.mp hcall
    rw [if_pos rfl, if_pos (hsll hlen)]

end Lemmas

end AppMem.Virtd
