import AppMem.Library.Checked
import AppMem.Library.Text
import AppMem.Memory

/-! # From a device name to its entry points

`am_get_ip_address` looks for an address in the name of a device. `am_get_entry_point` gives a name
with an address the entry points of the network target and any other name those of the driver.
-/
namespace AppMem.Entry
open Library.Text Library.Bytes Library.Checked Abi Memory

section Address

/-- What C leaves open: the local variables `byte[i]` before they are set, and what `sscanf` stores
for a number that is no `int`. -/
structure Indeterminate where
  byte : ℕ → ℤ
  overflow : ℤ → ℤ

def FitsInt (v : ℤ) : Prop := -2 ^ 31 ≤ v ∧ v < 2 ^ 31

instance : DecidablePred FitsInt := fun v =>
  inferInstanceAs (Decidable (-2 ^ 31 ≤ v ∧ v < 2 ^ 31))

def Indeterminate.stored (u : Indeterminate) (v : ℤ) : ℤ := if FitsInt v then v else u.overflow v

/-- The variable `byte[i]` when the conversions have read `vs`. -/
def Indeterminate.byteAfter (u : Indeterminate) (vs : List ℤ) (i : ℕ) : ℤ :=
  (vs[i]?).elim (u.byte i) u.stored

/-- `ipaddr_t.dw`, with `(UINT8) (0xFF & byte[i])` in its bytes. -/
def ipaddr (byte : ℕ → ℤ) : UInt32 :=
  u32OfBytes [UInt8.ofInt (byte 3), UInt8.ofInt (byte 2), UInt8.ofInt (byte 1),
    UInt8.ofInt (byte 0)]

/-- The numbers that `sscanf` reads with `"%d.%d.%d.%d"`. -/
def scanned (name : CString) : List ℤ := scanInts 46 4 name.chars

def nameLen (name : CString) : ℕ := name.length % 2 ^ 32

/-- `dcnt`, after the loop over `len` characters. -/
def dotCount (name : CString) : ℕ := (name.chars.take (nameLen name)).count 46

def amGetIpAddress (u : Indeterminate) (name : CString) : UInt32 :=
  if (ofText "1.1.1.1").length < nameLen name then
    if dotCount name = 3 then ipaddr (u.byteAfter (scanned name)) else 0
  else ipaddr (u.byteAfter [])

end Address

section EntryPoints

inductive EntryFn
  | amNetGetCapabilitesCount
  | amNetGetCapabilities
  | amNetCreateFunction
  | amNetEntryClose
  | amKdCreateFunction
  | amKdGetCapabilities
  | amKdGetCapabilitiesCount
  | amKdEntryClose
  | amKdGetCapDetails
  | amVirtdCreateFunction
  | amVirtdGetCapabilities
  | amVirtdGetCapabilitesCount
  | amVirtdEntryClose
  | amVirtGetCapDetails
  deriving DecidableEq, Repr

/-- `AMLIB_ENTRY_T`; a member that is not set is `none`. -/
structure AmlibEntry where
  amName : Option CString
  getCapCount : Option EntryFn
  getCapabilities : Option EntryFn
  getCapDetails : Option EntryFn
  createFunction : Option EntryFn
  close : Option EntryFn

/-- Is there memory for the name, and what `am_net_init_entry` returns for an address. -/
structure EntryEnv where
  alloc : Bool
  netInit : UInt32 → AmReturn

def appmemText : CString := ⟨ofText "appmem", by decide⟩
def virtdText : CString := ⟨ofText "virtd", by decide⟩

/-- The members set for the network target. `get_cap_details` is not among them. -/
def AmlibEntry.net (e : AmlibEntry) (name : CString) : AmlibEntry :=
  { e with
    amName := some (appmemText.append name)
    getCapCount := some .amNetGetCapabilitesCount
    getCapabilities := some .amNetGetCapabilities
    createFunction := some .amNetCreateFunction
    close := some .amNetEntryClose }

def AmlibEntry.kd (e : AmlibEntry) (name : CString) : AmlibEntry :=
  { e with
    amName := some name
    createFunction := some .amKdCreateFunction
    getCapabilities := some .amKdGetCapabilities
    getCapCount := some .amKdGetCapabilitiesCount
    close := some .amKdEntryClose
    getCapDetails := some .amKdGetCapDetails }

def AmlibEntry.virtd (e : AmlibEntry) : AmlibEntry :=
  { e with
    amName := some virtdText
    createFunction := some .amVirtdCreateFunction
    getCapabilities := some .amVirtdGetCapabilities
    getCapCount := some .amVirtdGetCapabilitesCount
    close := some .amVirtdEntryClose
    getCapDetails := some .amVirtGetCapDetails }

/-- What comes of an entry whose name has the address `ip`. -/
def AmlibEntry.init (e : AmlibEntry) (env : EntryEnv) (name : CString) (ip : UInt32) :
    AmReturn × Option AmlibEntry :=
  if env.netInit ip ≠ amRetGood then (amRetIoErr, some { e with amName := none })
  else (amRetGood, some (e.net name))

def amGetEntryPoint (u : Indeterminate) (env : EntryEnv) (amName : Option CString)
    (pEntry : Option AmlibEntry) : Exec (AmReturn × Option AmlibEntry) :=
  match pEntry, amName with
  | none, _ => .ok (amRetParamErr, none)
  | some e, none => .ok (amRetGood, some e.virtd)
  | some e, some name =>
    if amGetIpAddress u name ≠ 0 then do
      require (env.alloc = true) .nullPointer
      -- the name goes to a buffer of 64 bytes, with `sprintf`
      require ((appmemText.append name).length + 1 ≤ 64) .bounds
      return e.init env name (amGetIpAddress u name)
    else .ok (amRetGood, some (e.kd name))

end EntryPoints

end AppMem.Entry
