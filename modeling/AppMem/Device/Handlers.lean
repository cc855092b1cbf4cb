import AppMem.Device.Assca
import AppMem.Device.Stata

/-! # Calling a handler of a device function

The table of a device function, read through the calling conventions of the dispatchers. A
handler called with the arguments of another convention is undefined behaviour.
-/
namespace AppMem.Device
open Library.Bytes Library.Checked Abi Memory Pack

/-- The member of `AM_FN_U` a handler was stored in. -/
def DeviceHandler.convention : DeviceHandler → Convention
  | .amTargRelease | .amTargOpen | .amTargClose => .opOnly
  | .amStataSort => .action
  | _ => .align

/-- `am_targ_open` of the target sets the length of its response, that of the driver does not. -/
def openLength : Build → Option UInt32
  | .user => some 8
  | .kernel => none

def invokeDevice (b : Build) (env : Env) : Invoke DeviceHandler MemFunction
  | .amTargRelease, .opOnly, f => .ok (f, { error := amRetGood })
  | .amTargOpen, .opOnly, f => .ok (f, { error := amRetGood, txBytes := openLength b })
  | .amTargClose, .opOnly, f => .ok (f, { error := amRetGood })
  | .amFlatRead32Align, .align p1 p2, f => amFlatRead32Align b f p1 p2
  | .amFlatWrite32Align, .align p1 p2, f => amFlatWrite32Align b f p1 p2
  | .amStataReadIdx32, .align p1 p2, f => amStataReadIdx32 b f p1 p2
  | .amStataWriteIdx32, .align p1 p2, f => amStataWriteIdx32 b f p1 p2
  | .amStataSort, .action p1 l1, f => amStataSort env f p1 l1
  | .amAsscaRead32Align, .align p1 p2, f => amAsscaRead32Align b f p1 p2
  | .amAsscaWrite32Align, .align p1 p2, f => amAsscaWrite32Align env f p1 p2
  | _, _, _ => .error .convention

/-- A handler is called as it was stored, or the call is undefined. -/
theorem invokeDevice_convention {b : Build} {env : Env} {h : DeviceHandler} {c : PackCall}
    {f : MemFunction} {r : MemFunction × Served} (hr : invokeDevice b env h c f = .ok r) :
    c.convention = h.convention := by
  cases h <;> cases c <;> first | rfl | cases hr

/-- A call replaces the private data by private data of the same kind, and nothing else. -/
structure SameFunction (f g : MemFunction) : Prop where
  rest : g = { f with pVdF := g.pVdF }
  none : f.pVdF = .none → g.pVdF = .none
  flat : ∀ fd, f.pVdF = some (.flat fd) → ∃ fd', g.pVdF = some (.flat fd')
  stata : ∀ fd, f.pVdF = some (.stata fd) → ∃ fd', g.pVdF = some (.stata fd')
  assca : ∀ fd, f.pVdF = some (.assca fd) → ∃ fd', g.pVdF = some (.assca fd')

theorem SameFunction.refl (f : MemFunction) : SameFunction f f where
  rest := rfl
  none h := h
  flat fd h := ⟨fd, h⟩
  stata fd h := ⟨fd, h⟩
  assca fd h := ⟨fd, h⟩

theorem sameFunction_flat {f g : MemFunction} {op : FlatData → Exec (FlatData × Served)}
    {r : Served} (h : flatAccess f op = .ok (g, r)) : SameFunction f g := by
  rcases flatAccess_eq_ok.mp h with ⟨fd, fd', hfd, -, rfl⟩
  constructor <;> simp [hfd]

theorem sameFunction_stata {f g : MemFunction} {op : StataData → Exec (StataData × Served)}
    {r : Served} (h : stataAccess f op = .ok (g, r)) : SameFunction f g := by
  rcases stataAccess_eq_ok.mp h with ⟨fd, fd', hfd, -, rfl⟩
  constructor <;> simp [hfd]

theorem sameFunction_sort {env : Env} {f g : MemFunction} {p1 : List UInt8} {l1 : UInt64}
    {r : Served} (h : amStataSort env f p1 l1 = .ok (g, r)) : SameFunction f g := by
  rcases amStataSort_cases h with ⟨rfl, -⟩ | ⟨fd, fd', s, hfd, -, -, rfl⟩
  · exact .refl _
  · constructor <;> simp [hfd]

theorem sameFunction_assca {f g : MemFunction} {op : AsscaData → Exec (AmlibAssca × Served)}
    {r : Served} (h : asscaAccess f op = .ok (g, r)) : SameFunction f g := by
  unfold asscaAccess at h
  split at h
  · cases h
    exact .refl _
  · rename_i fd hfd
    rw [bind_eq_ok] at h
    rcases h with ⟨r', -, h⟩
    cases h
    constructor <;> simp [hfd, MemFunction.setAssca]
  · cases h

/-- Whatever a handler does, it does to the private data. -/
theorem invokeDevice_same {b : Build} {env : Env} {h : DeviceHandler} {c : PackCall}
    {f g : MemFunction} {r : Served} (hr : invokeDevice b env h c f = .ok (g, r)) :
    SameFunction f g := by
  have hc := invokeDevice_convention hr
  cases c with
  | align p1 p2 =>
    cases h with
    | amFlatRead32Align => exact sameFunction_flat hr
    | amFlatWrite32Align => exact sameFunction_flat hr
    | amStataReadIdx32 => exact sameFunction_stata hr
    | amStataWriteIdx32 => exact sameFunction_stata hr
    | amAsscaRead32Align => exact sameFunction_assca hr
    | amAsscaWrite32Align => exact sameFunction_assca hr
    | _ => cases hc
  | opOnly =>
    cases h with
    | amTargRelease | amTargOpen | amTargClose =>
      cases hr
      exact .refl _
    | _ => cases hc
  | action p1 l1 =>
    cases h with
    | amStataSort => exact sameFunction_sort hr
    | _ => cases hc
  | fivo p1 l1 => cases h <;> cases hc
  | config => cases h <;> cases hc

/-- `am_pack_process_cmd` on a device function. -/
def processDevice (b : Build) (env : Env) (f : MemFunction) (rxBuf : PackAll) (resp : PackResp)
    (stale : UInt32) : Exec (MemFunction × Processed) :=
  amPackProcessCmd (invokeDevice b env) (some f.hdr) rxBuf resp stale f

end AppMem.Device
