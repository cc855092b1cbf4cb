import AppMem.Driver.Started

/-! # The step that takes effect

A call that takes its steps while another call runs. One of its steps is the whole effect that the
call has on the driver, but for the block and for the values that are still being filled.
-/
namespace AppMem.Driver
open Library.Bytes Library.Checked Library.Machine Library.Overlay Abi Memory Pack Device Hash

section Fill
variable {k : Kernel} {minor off n : ℕ} {d : KDevice} {f : MemFunction} {v w : Filling}
  {src : List UInt8} {p q : Point} {b : KamCmd}

theorem mapFunc_mapFunc (k : Kernel) (minor : ℕ) (g h : MemFunction → MemFunction) :
    (k.mapFunc minor g).mapFunc minor h = k.mapFunc minor fun f => h (g f) := by
  simp only [Kernel.mapFunc, Function.update_self, Function.update_idem, Option.map_map,
    Function.comp_def]

theorem fillItem_append (f : MemFunction) (elt off : ℕ) (a b : List UInt8) :
    fillItem (fillItem f elt off a) elt (off + a.length) b = fillItem f elt off (a ++ b) := by
  by_cases h : ∃ fd, f.pVdF = some (.assca fd)
  · obtain ⟨fd, hfd⟩ := h
    have hitems : (fd.data.items.modify elt (fillValue off a)).modify elt
        (fillValue (off + a.length) b) = fd.data.items.modify elt (fillValue off (a ++ b)) := by
      rw [List.modify_modify_eq]
      congr 1
      funext pAI
      exact congrArg (fun data => { pAI with data := data }) (overlay_append pAI.data off a b)
    rw [fillItem_assca hfd, fillItem_setAssca, fillItem_assca hfd]
    exact congrArg (fun items => f.setAssca fd { fd.data with items := items }) hitems
  · rw [fillItem_other (not_exists.mp h), fillItem_other (not_exists.mp h),
      fillItem_other (not_exists.mp h)]

theorem fillItem_comm {elt elt' off' : ℕ} (h : elt ≠ elt') (f : MemFunction) (off : ℕ)
    (a b : List UInt8) :
    fillItem (fillItem f elt off a) elt' off' b = fillItem (fillItem f elt' off' b) elt off a := by
  by_cases hf : ∃ fd, f.pVdF = some (.assca fd)
  · obtain ⟨fd, hfd⟩ := hf
    have hitems : (fd.data.items.modify elt (fillValue off a)).modify elt' (fillValue off' b) =
        (fd.data.items.modify elt' (fillValue off' b)).modify elt (fillValue off a) := by
      rw [List.modify_modify_ne _ _ _ h]
    rw [fillItem_assca hfd, fillItem_setAssca, fillItem_assca hfd, fillItem_setAssca]
    exact congrArg (fun items => f.setAssca fd { fd.data with items := items }) hitems
  · rw [fillItem_other (not_exists.mp hf), fillItem_other (not_exists.mp hf),
      fillItem_other (not_exists.mp hf)]

theorem fill_append (k : Kernel) (v : Filling) (off : ℕ) (a b : List UInt8) :
    (k.fill v off a).fill v (off + a.length) b = k.fill v off (a ++ b) := by
  simp only [Kernel.fill, mapFunc_mapFunc, fillItem_append]

def Point.filling : Point → Option Filling
  | .value v _ => some v
  | _ => none

def Apart (p q : Point) : Prop :=
  ∀ v ∈ p.filling, ∀ w ∈ q.filling, v.minor = w.minor → v.elt ≠ w.elt

theorem Apart.symm (h : Apart p q) : Apart q p :=
  fun v hv w hw hm => (h w hw v hv hm.symm).symm

theorem apart_of_filling (h : p.filling = none) : Apart p q := by
  intro v hv
  rw [h] at hv
  cases hv

theorem fill_comm (h : v.minor = w.minor → v.elt ≠ w.elt) (k : Kernel) (off off' : ℕ)
    (a b : List UInt8) : (k.fill v off a).fill w off' b = (k.fill w off' b).fill v off a := by
  by_cases hm : v.minor = w.minor
  · simp only [Kernel.fill, hm, mapFunc_mapFunc, fillItem_comm (h hm)]
  · simp only [Kernel.fill, Kernel.mapFunc, Function.update_of_ne hm,
      Function.update_of_ne (Ne.symm hm), Function.update_comm hm]

/-- What a call fills may be filled before what the other fills. -/
theorem complete_fill (h : Apart (.value v n) q) (k : Kernel) (off : ℕ) (src : List UInt8) :
    q.complete (k.fill v off src) = (q.complete k).fill v off src := by
  cases q with
  | value w m => exact fill_comm (h v rfl w rfl) k off m src _
  | _ => rfl

theorem complete_comm (h : Apart p q) (k : Kernel) :
    p.complete (q.complete k) = q.complete (p.complete k) := by
  cases p with
  | value v n => exact (complete_fill h k n _).symm
  | _ => rfl

theorem complete_withBlock (p : Point) (k : Kernel) (b : KamCmd) :
    p.complete (k.withBlock b) = (p.complete k).withBlock b := by
  cases p <;> rfl

theorem complete_cleared (p : Point) (k : Kernel) : (p.complete k).cleared = p.complete k.cleared :=
  (complete_withBlock p k .zero).symm

theorem complete_minor (p : Point) (k : Kernel) : (p.complete k).minor = k.minor := by
  cases p <;> rfl

theorem complete_major (p : Point) (k : Kernel) : (p.complete k).major = k.major := by
  cases p <;> rfl

theorem complete_tempKcmd (p : Point) (k : Kernel) : (p.complete k).tempKcmd = k.tempKcmd := by
  cases p <;> rfl

theorem grows_complete (p : Point) (k : Kernel) : Grows k (p.complete k) := by
  cases p with
  | value v n => exact grows_fill
  | _ => exact .refl k

def Point.Fits (p : Point) (k : Kernel) : Prop := ∀ v ∈ p.filling, v.Fits k

theorem complete_grow (hp : p.Fits k) (hk : k.Sound) (x : Growth) :
    p.complete (k.grow x) = (p.complete k).grow x := by
  cases p with
  | value v n => exact (grow_fill ((hp v rfl).minor_ne hk) x).symm
  | _ => rfl

theorem grow_tempKcmd (k : Kernel) (x : Growth) : (k.grow x).tempKcmd = k.tempKcmd := by
  cases x <;> rfl

theorem grow_cleared (k : Kernel) (x : Growth) : (k.grow x).cleared = k.cleared.grow x := by
  cases x <;> rfl

theorem fill_window (k : Kernel) (v : Filling) (off n : ℕ) :
    (k.fill v off (window v.src off n)).fill v (off + (window v.src off n).length)
      (v.src.drop (off + (window v.src off n).length)) = k.fill v off (v.src.drop off) := by
  rw [fill_append, window_append_drop]

end Fill

section Command
variable {c : IoctlCall} {k k' : Kernel} {block : List UInt8} {b : KamCmd} {l src : List UInt8}
  {off n : ℕ}

theorem enter_command (h : c.enter k = .command block 0) :
    c.arg = some block ∧ ∃ d f, k.devices c.minor = some d ∧ d.pFunc = some f := by
  unfold IoctlCall.enter at h
  split at h
  · cases h
  · split at h
    · cases h
    · split at h
      · cases h
      · cases h
      · rename_i block' d harg hd
        split at h
        · cases h
        · rename_i f hf
          cases h
          exact ⟨harg, d, f, hd, hf⟩

theorem enter_cases (c : IoctlCall) (k : Kernel) :
    (∃ block, c.enter k = .command block 0) ∨ ∃ o, c.enter k = .returned o := by
  unfold IoctlCall.enter
  split
  · exact .inr ⟨_, rfl⟩
  · split
    · exact .inr ⟨_, rfl⟩
    · split
      · exact .inr ⟨_, rfl⟩
      · exact .inr ⟨_, rfl⟩
      · split
        · exact .inr ⟨_, rfl⟩
        · exact .inl ⟨_, rfl⟩

/-- The checks look for the device and its function. -/
theorem enter_congr
    (h : ((k.devices c.minor).map fun d => d.pFunc.isSome) =
      (k'.devices c.minor).map fun d => d.pFunc.isSome) : c.enter k = c.enter k' := by
  unfold IoctlCall.enter
  split
  · rfl
  · split
    · rfl
    · cases c.arg with
      | none => rfl
      | some block =>
        cases hd : k.devices c.minor with
        | none =>
          rw [hd, Option.map_none] at h
          rw [Option.map_eq_none_iff.mp h.symm]
        | some d =>
          rw [hd, Option.map_some] at h
          obtain ⟨d', hd', hf⟩ := Option.map_eq_some_iff.mp h.symm
          rw [hd']
          dsimp only
          cases hp : d.pFunc with
          | none =>
            rw [hp, Option.isSome_none] at hf
            rw [Option.isSome_eq_false_iff.mp hf |> Option.isNone_iff_eq_none.mp]
          | some f =>
            rw [hp, Option.isSome_some] at hf
            obtain ⟨f', hf'⟩ := Option.isSome_iff_exists.mp hf
            rw [hf']

theorem enter_mapFunc (c : IoctlCall) (k : Kernel) (minor : ℕ) (g : MemFunction → MemFunction) :
    c.enter (k.mapFunc minor g) = c.enter k := by
  apply enter_congr
  by_cases hm : c.minor = minor
  · subst hm
    simp only [Kernel.mapFunc, Function.update_self, Option.map_map, Function.comp_def,
      Option.isSome_map]
  · simp only [Kernel.mapFunc, Function.update_of_ne hm]

theorem enter_complete (c : IoctlCall) (p : Point) (k : Kernel) :
    c.enter (p.complete k) = c.enter k := by
  cases p with
  | value v n => exact enter_mapFunc c k _ _
  | _ => rfl

theorem enter_grows (h : c.enter k = .command block 0) (hk : Grows k k') :
    c.enter k' = .command block 0 := by
  obtain ⟨-, d, f, hd, hf⟩ := enter_command h
  obtain ⟨d', hd', hkept⟩ := hk _ _ hd
  obtain ⟨f', hf', -, -⟩ := hkept.pFunc f hf
  rw [← h]
  apply enter_congr
  rw [hd, hd', Option.map_some, Option.map_some, hf, hf']
  rfl

/-- The driver is the same but for the block and for a filling. -/
theorem enter_of_cleared {p : Point} (h : (p.complete k).cleared = k'.cleared) :
    c.enter k' = c.enter k := by
  have hk' : c.enter k'.cleared = c.enter (p.complete k).cleared := congrArg c.enter h.symm
  exact hk'.trans (enter_complete c p k)

theorem grows_of_cleared {p : Point} (h : (p.complete k).cleared = k'.cleared) : Grows k k' := by
  have hdev : k'.devices = (p.complete k).devices := (congrArg Kernel.devices h).symm
  exact (grows_complete p k).trans (.of_devices hdev)

theorem put_eq_ok : b.put off src = .ok b' ↔
    off + src.length ≤ sizeofKamCmd ∧ b'.bytes = splice b.bytes off src := by
  rw [KamCmd.put]
  split
  · rename_i h
    obtain ⟨bytes, hb⟩ := b'
    rw [Except.ok.injEq, KamCmd.mk.injEq]
    exact ⟨fun hb => ⟨h, hb.symm⟩, fun hb => hb.2.symm⟩
  · rename_i h
    refine ⟨fun hb => ?_, fun hb => absurd hb.1 h⟩
    cases hb

theorem put_eq_error {e : Fault} (h : b.put off src = .error e) :
    e = .bounds ∧ sizeofKamCmd < off + src.length := by
  rw [KamCmd.put] at h
  split at h
  · cases h
  · rename_i hle
    cases h
    exact ⟨rfl, Nat.not_le.mp hle⟩

theorem take_put {b' : KamCmd} (h : b.put off (window l off n) = .ok b')
    (hb : b.bytes.take off = l.take off) :
    b'.bytes.take (off + (window l off n).length) = l.take (off + (window l off n).length) := by
  obtain ⟨hle, hbytes⟩ := put_eq_ok.mp h
  have hroom : off + (window l off n).length ≤ b.bytes.length := b.length_bytes.symm ▸ hle
  rw [hbytes]
  apply List.ext_getElem?
  intro i
  rw [List.getElem?_take, List.getElem?_take]
  split
  · rename_i hi
    rw [getElem?_splice hroom]
    by_cases hoff : off ≤ i
    · have hlen : i - off < (window l off n).length := by omega
      have hn : i - off < n := hlen.trans_le (by
        rw [window, List.length_take]
        exact Nat.min_le_left _ _)
      rw [if_pos ⟨hoff, hi⟩, getElem?_window, if_pos hn, Nat.add_sub_cancel' hoff]
    · have hlt : i < off := Nat.not_le.mp hoff
      have htake : (b.bytes.take off)[i]? = (l.take off)[i]? := by rw [hb]
      rw [List.getElem?_take, List.getElem?_take, if_pos hlt, if_pos hlt] at htake
      rw [if_neg fun hin => hoff hin.1]
      exact htake
  · rfl

def Holds (c : IoctlCall) (block : List UInt8) (b : KamCmd) : Prop :=
  b.bytes.take c.bytes = fetched block c.bytes

theorem Holds.agree {b' : KamCmd} (h : Holds c block b) (h' : Holds c block b') :
    b.Agree c.bytes b' := Eq.trans h (Eq.symm h')

theorem Holds.le (h : Holds c block b) : c.bytes ≤ sizeofKamCmd := by
  have hlen : (b.bytes.take c.bytes).length = (fetched block c.bytes).length := by rw [h]
  rw [length_fetched, List.length_take, b.length_bytes] at hlen
  omega

theorem exists_put (b : KamCmd) (h : c.bytes ≤ sizeofKamCmd) (block : List UInt8) :
    ∃ b', b.put 0 (fetched block c.bytes) = .ok b' ∧ Holds c block b' := by
  have hin : 0 + (fetched block c.bytes).length ≤ sizeofKamCmd := by
    rwa [length_fetched, Nat.zero_add]
  refine ⟨_, dif_pos hin, ?_⟩
  change (splice b.bytes 0 (fetched block c.bytes)).take c.bytes = _
  rw [splice_zero, List.take_left' (length_fetched _ _)]

theorem eight_le_bytes (c : IoctlCall) : 8 ≤ c.bytes := Nat.le_add_left _ _

end Command

section Reading
variable {c : IoctlCall} {k k' : Kernel} {block : List UInt8} {p q : Point} {d : KDevice}
  {f : MemFunction} {v : Filling} {off n : ℕ} {src : List UInt8}

def IoctlCall.ReadsOwn (c : IoctlCall) (k : Kernel) : Prop :=
  ∀ d ∈ k.devices c.minor, ∀ f ∈ d.pFunc, commandReach d f k.tempKcmd c.bytes ≤ c.bytes

def IoctlCall.Avoids (c : IoctlCall) (k : Kernel) (q : Point) : Prop :=
  ∀ v ∈ q.filling, c.minor = v.minor → ∀ d ∈ k.devices c.minor, ∀ f ∈ d.pFunc,
    readItem c.ke k d f c.bytes ≠ some v.elt

theorem indexBytes_fillItem (f : MemFunction) (elt off : ℕ) (src : List UInt8)
    (h : DriverHandler) : indexBytes (fillItem f elt off src) h = indexBytes f h := by
  by_cases hf : ∃ fd, f.pVdF = some (.assca fd)
  · obtain ⟨fd, hfd⟩ := hf
    unfold indexBytes
    rw [fillItem_pVdF hfd, hfd]
    rfl
  · rw [fillItem_other (not_exists.mp hf)]

theorem valueBytes_fillItem (f : MemFunction) (elt off : ℕ) (src : List UInt8)
    (h : DriverHandler) : valueBytes (fillItem f elt off src) h = valueBytes f h := by
  by_cases hf : ∃ fd, f.pVdF = some (.assca fd)
  · obtain ⟨fd, hfd⟩ := hf
    unfold valueBytes
    rw [fillItem_pVdF hfd, hfd]
    rfl
  · rw [fillItem_other (not_exists.mp hf)]

theorem devices_fill (hd : k.devices c.minor = some d) (hf : d.pFunc = some f) :
    (k.fill v off src).devices c.minor =
      some { d with pFunc := some (v.change c.minor off src f) } := by
  unfold Filling.change
  by_cases hm : c.minor = v.minor
  · have hd' : k.devices v.minor = some d := hm ▸ hd
    simp only [hm, if_true, Kernel.fill, Kernel.mapFunc, Function.update_self, hd', hf,
      Option.map_some]
  · simp only [if_neg hm, Kernel.fill, Kernel.mapFunc, Function.update_of_ne hm, hd, ← hf]

theorem commandReach_change (d' : Option MemFunction) (b : KamCmd) :
    commandReach { d with pFunc := d' } (v.change c.minor off src f) b n =
      commandReach d f b n := by
  unfold Filling.change
  split
  · have ht : (fillItem f v.elt off src).amType = f.amType := by rw [fillItem_rest]
    have hr : (fillItem f v.elt off src).crResp = f.crResp := by rw [fillItem_rest]
    simp only [commandReach, configReach, indexBytes_fillItem, valueBytes_fillItem, ht, hr]
    rfl
  · rfl

theorem IoctlCall.ReadsOwn.complete (h : c.ReadsOwn k) (hfound : ∃ d f, k.devices c.minor = some d ∧
    d.pFunc = some f) (q : Point) : c.ReadsOwn (q.complete k) := by
  cases q with
  | value v n =>
    obtain ⟨d, f, hd, hf⟩ := hfound
    intro d' hd' f' hf'
    cases (devices_fill hd hf).symm.trans hd'
    cases hf'
    rw [commandReach_change]
    exact h d hd f hf
  | _ => exact h

/-- The step behind the transfer of the command, but for the block. -/
theorem continueCommand_congr (hk : k.cleared = k'.cleared)
    (hag : k.tempKcmd.Agree c.bytes k'.tempKcmd) (hown : c.bytes ≤ block.length → c.ReadsOwn k) :
    (c.continueCommand k block).map cleared = (c.continueCommand k' block).map cleared := by
  have hdev : k'.devices = k.devices := (congrArg Kernel.devices hk).symm
  rw [IoctlCall.continueCommand, IoctlCall.continueCommand, hdev]
  split
  · exact congrArg (fun k => Except.ok (k, _)) hk
  · rename_i hlen
    cases hd : k.devices c.minor with
    | none => rfl
    | some d =>
      dsimp only
      cases hf : d.pFunc with
      | none => rfl
      | some f =>
        exact dispatch_congr hk hag (eight_le_bytes c) (hown (Nat.le_of_not_lt hlen) d hd f hf)

theorem map_changed_id (x : Exec (Kernel × Point)) : x.map (changed fun k => k) = x := by
  cases x <;> rfl

theorem continueCommand_complete (hfound : ∃ d f, k.devices c.minor = some d ∧ d.pFunc = some f)
    (hfits : q.Fits k) (havoid : c.bytes ≤ block.length → c.Avoids k q) :
    c.continueCommand (q.complete k) block =
      (c.continueCommand k block).map (changed q.complete) := by
  cases q with
  | value v n =>
    obtain ⟨d, f, hd, hf⟩ := hfound
    change c.continueCommand (k.fill v n (v.src.drop n)) block =
      (c.continueCommand k block).map (changed fun k => k.fill v n (v.src.drop n))
    rw [IoctlCall.continueCommand, IoctlCall.continueCommand]
    split
    · rfl
    · rename_i hlen
      rw [devices_fill hd hf, hd]
      dsimp only
      rw [hf]
      apply dispatch_fill rfl
      · intro hm
        obtain ⟨d', f', hd', hf', hlt⟩ := hfits v rfl
        cases (hm ▸ hd).symm.trans hd'
        cases hf.symm.trans hf'
        exact hlt
      · intro hm
        exact havoid (Nat.le_of_not_lt hlen) v rfl hm d hd f hf
  | _ => exact (map_changed_id _).symm

end Reading

section Phases

/-- With its command in the block the call gets to the transfer of the capability, whatever lies
behind the command. -/
def AsksFor (c : IoctlCall) (block : List UInt8) (dataIn : UInt64) (k : Kernel) : Prop :=
  ∀ b, Holds c block b →
    c.continueCommand (k.withBlock b) block = .ok (k.withBlock b, .capability dataIn)

def Pending (c : IoctlCall) (k : Kernel) : Point → Prop
  | .entry => True
  | .command block done =>
    c.enter k = .command block 0 ∧ done ≤ c.bytes ∧
      k.tempKcmd.bytes.take done = (fetched block c.bytes).take done
  | .capability dataIn =>
    ∃ block, c.enter k = .command block 0 ∧ c.bytes ≤ sizeofKamCmd ∧ AsksFor c block dataIn k ∧
      ∀ b, Holds c block b → 32 ≤ c.bytes → k.tempKcmd.dataOut = b.dataOut
  | _ => False

/-- A call that has had its effect, and was at `p₀` then. -/
def Closing (c : IoctlCall) (k : Kernel) (p₀ : Point) : Point → Prop
  | .value v _ => v.Fits k ∧ finish c.ke p₀ = .ok (.handler amRetGood [])
  | .sending todo sent => finish c.ke (.sending todo sent) = finish c.ke p₀
  | .returned o => finish c.ke p₀ = .ok o
  | _ => False

/-- Of the two commands, what a call has moved into the block and has yet to read is the same. -/
def Point.Keeps (b b' : KamCmd) : Point → Prop
  | .command _ done => b.Agree done b'
  | .capability _ => b.dataOut = b'.dataOut
  | _ => True

theorem keeps_of_eq {b b' : KamCmd} (h : b' = b) (p : Point) : p.Keeps b b' := by
  subst h
  cases p <;> first | rfl | trivial

/-- The next step of a call, by `m + 1` bytes, keeps out of the way of the other call at `q`. What
it moves into the block leaves alone what the other has moved there and has yet to read. A handler
reads no further than its own command, and does not find the value that the other is filling. A
creation that gets to its announcement has passed the place of it. -/
def IoctlCall.KeepsOut (c : IoctlCall) (m : ℕ) (k : Kernel) (q : Point) : Point → Prop
  | .command block done =>
    if done < c.bytes then
      ∀ b ∈ (k.tempKcmd.put done (window (fetched block c.bytes) done (m + 1))).toOption,
        q.Keeps k.tempKcmd b
    else c.bytes ≤ block.length → c.ReadsOwn k ∧ c.Avoids k q
  | .capability dataIn => Announces c.ke k dataIn → 32 ≤ c.bytes
  | _ => True

/-- Where a call stands; with a point when it has had its effect. -/
def Stands (c : IoctlCall) (k : Kernel) : Option Point → Point → Prop
  | none, p => Pending c k p
  | some p₀, p => Closing c k p₀ p

/-- The driver between the steps of two calls: with all values full it is `a`. -/
structure Beside (k a : Kernel) (p q : Point) : Prop where
  sound : k.Sound
  apart : Apart p q
  fits : q.Fits k
  kernel : (p.complete (q.complete k)).cleared = a.cleared

structure Moved (c : IoctlCall) (k k' a : Kernel) (q p' : Point) (st : Option Point) : Prop where
  grows : Grows k k'
  sound : k'.Sound
  keeps : q.Keeps k.tempKcmd k'.tempKcmd
  apart : Apart p' q
  kernel : (p'.complete (q.complete k')).cleared = a.cleared
  stands : Stands c k' st p'

/-- A step of a call that has not had its effect: it goes on, it has its effect, or it faults, and
then it does so alone as well. -/
inductive Step (c : IoctlCall) (k a : Kernel) (q : Point) : Exec (Kernel × Point) → Prop
  | goes (k' : Kernel) (p' : Point) (h : Moved c k k' a q p' none) : Step c k a q (.ok (k', p'))
  | effect (k' : Kernel) (p' : Point) (a' : Kernel) (p₀ : Point)
    (ht : c.takeEffect a = .ok (a', p₀)) (h : Moved c k k' a' q p' (some p₀)) :
    Step c k a q (.ok (k', p'))
  | fails (e e' : Fault) (ht : c.takeEffect a = .error e') : Step c k a q (.error e)

variable {c : IoctlCall} {k k' a : Kernel} {block : List UInt8} {p q p₀ : Point} {b : KamCmd}
  {dataIn : UInt64} {done m : ℕ} {todo : List Sending} {sent : List UserWrite} {v : Filling}

theorem takeEffect_returned {o : Outcome} (h : c.enter k = .returned o) :
    c.takeEffect k = .ok (k, .returned o) := by
  rw [IoctlCall.takeEffect, h]

theorem takeEffect_command (h : c.enter k = .command block 0)
    (hb : k.tempKcmd.put 0 (fetched block c.bytes) = .ok b) :
    c.takeEffect k = do
      let r ← c.continueCommand (k.withBlock b) block
      let r ← throughCreate c.ke r
      return (r.2.complete r.1, r.2) := by
  rw [IoctlCall.takeEffect, h]
  dsimp only
  rw [hb]
  rfl

theorem takeEffect_error {e : Fault} (h : c.enter k = .command block 0)
    (hb : k.tempKcmd.put 0 (fetched block c.bytes) = .error e) : c.takeEffect k = .error e := by
  rw [IoctlCall.takeEffect, h]
  dsimp only
  rw [hb]
  rfl

theorem AsksFor.grows (h : AsksFor c block dataIn k) (henter : c.enter k = .command block 0)
    (hk : Grows k k') : AsksFor c block dataIn k' := by
  obtain ⟨-, d, f, hd, hf⟩ := enter_command henter
  obtain ⟨d', hd', hkept⟩ := hk _ _ hd
  obtain ⟨f', hf', ht, -⟩ := hkept.pFunc f hf
  intro b hb
  have hk := h b hb
  have hdb : (k.withBlock b).devices c.minor = some d := hd
  have hdb' : (k'.withBlock b).devices c.minor = some d' := hd'
  rw [IoctlCall.continueCommand, hdb] at hk
  rw [IoctlCall.continueCommand, hdb']
  split at hk
  · cases hk
  · rename_i hlen
    dsimp only at hk ⊢
    rw [hf] at hk
    rw [if_neg hlen, hf']
    dsimp only at hk ⊢
    obtain ⟨-, rfl, hasks⟩ := (dispatch_started hk).of_capability rfl
    have hasks' : Asks d' f' (k'.withBlock b).tempKcmd := hasks.kept hkept ht
    exact hasks'.dispatch

/-- Steps of the other call leave a call alone that has not had its effect. -/
theorem Pending.grows (h : Pending c k p) (hk : Grows k k')
    (hkeep : p.Keeps k.tempKcmd k'.tempKcmd) : Pending c k' p := by
  cases p with
  | entry => trivial
  | command block done =>
    obtain ⟨henter, hle, htake⟩ := h
    exact ⟨enter_grows henter hk, hle, Eq.trans (Eq.symm hkeep) htake⟩
  | capability dataIn =>
    obtain ⟨block, henter, hle, hasks, hout⟩ := h
    refine ⟨block, enter_grows henter hk, hle, hasks.grows henter hk, ?_⟩
    intro b hb h32
    exact (Eq.symm hkeep).trans (hout b hb h32)
  | _ => exact h

theorem Closing.grows (h : Closing c k p₀ p) (hk : Grows k k') : Closing c k' p₀ p := by
  cases p with
  | value v n => exact ⟨h.1.grows hk, h.2⟩
  | _ => exact h

theorem Stands.grows {st : Option Point} (h : Stands c k st p) (hk : Grows k k')
    (hkeep : p.Keeps k.tempKcmd k'.tempKcmd) : Stands c k' st p := by
  cases st with
  | none => exact Pending.grows h hk hkeep
  | some p₀ => exact Closing.grows h hk

theorem Stands.fits {st : Option Point} (h : Stands c k st p) : p.Fits k := by
  cases p with
  | value v n =>
    rintro _ ⟨⟩
    cases st with
    | none => exact h.elim
    | some p₀ => exact h.1
  | _ =>
    rintro _ ⟨⟩

theorem step_entry (hb : Beside k a .entry q) : Step c k a q (.ok (k, c.enter k)) := by
  have hkernel : (q.complete k).cleared = a.cleared := hb.kernel
  rcases enter_cases c k with ⟨block, henter⟩ | ⟨o, henter⟩
  · rw [henter]
    exact .goes k _ {
      grows := .refl k
      sound := hb.sound
      keeps := keeps_of_eq rfl q
      apart := apart_of_filling rfl
      kernel := hkernel
      stands := ⟨henter, Nat.zero_le _, rfl⟩ }
  · rw [henter]
    have ha : c.enter a = .returned o := (enter_of_cleared hkernel).trans henter
    exact .effect k _ a _ (takeEffect_returned ha) {
      grows := .refl k
      sound := hb.sound
      keeps := keeps_of_eq rfl q
      apart := apart_of_filling rfl
      kernel := hkernel
      stands := rfl }

theorem step_copy (hp : Pending c k (.command block done)) (hb : Beside k a (.command block done) q)
    (hlt : done < c.bytes)
    (hkeep : ∀ b ∈ (k.tempKcmd.put done (window (fetched block c.bytes) done (m + 1))).toOption,
      q.Keeps k.tempKcmd b) : Step c k a q (do
      let b ← k.tempKcmd.put done (window (fetched block c.bytes) done (m + 1))
      return (k.withBlock b,
        .command block (done + (window (fetched block c.bytes) done (m + 1)).length))) := by
  obtain ⟨henter, hle, htake⟩ := hp
  have hkernel : (q.complete k).cleared = a.cleared := hb.kernel
  have hlen : done + (window (fetched block c.bytes) done (m + 1)).length ≤ c.bytes := by
    rw [window, List.length_take, List.length_drop, length_fetched]
    omega
  cases hput : k.tempKcmd.put done (window (fetched block c.bytes) done (m + 1)) with
  | error e =>
    obtain ⟨-, hbig⟩ := put_eq_error hput
    have ha : c.enter a = .command block 0 := (enter_of_cleared hkernel).trans henter
    have hbig' : ¬ 0 + (fetched block c.bytes).length ≤ sizeofKamCmd := by
      rw [length_fetched]
      omega
    exact .fails e _ (takeEffect_error ha (dif_neg hbig'))
  | ok b =>
    exact .goes _ _ {
      grows := .of_devices rfl
      sound := hb.sound.withBlock b
      keeps := hkeep b (by
        rw [hput]
        rfl)
      apart := apart_of_filling rfl
      kernel := by
        rw [complete_withBlock]
        exact hkernel
      stands := ⟨henter, hlen, take_put hput htake⟩ }

end Phases

section Effects
variable {c : IoctlCall} {k k' a : Kernel} {block : List UInt8} {p p' q p₀ : Point} {b : KamCmd}
  {d : KDevice} {f : MemFunction} {dataIn : UInt64} {done m : ℕ} {todo : List Sending}
  {sent : List UserWrite} {v : Filling}

theorem continueCommand_started (hd : k.devices c.minor = some d) (hf : d.pFunc = some f)
    (hr : c.continueCommand k block = .ok (k', p')) :
    Started c.ke k c.minor d f c.bytes k' p' ∧
      (c.bytes ≤ block.length ∨ ∃ o, p' = .returned o) := by
  rw [IoctlCall.continueCommand, hd] at hr
  split at hr
  · cases hr
    exact ⟨.early _, .inr ⟨_, rfl⟩⟩
  · rename_i hlen
    dsimp only at hr
    rw [hf] at hr
    exact ⟨dispatch_started hr, .inl (Nat.le_of_not_lt hlen)⟩

/-- A handler that was started and does not ask has had its effect. -/
theorem Started.closing (hd : k.devices c.minor = some d) (hf : d.pFunc = some f)
    (h : Started c.ke k c.minor d f c.bytes k' p') (hp : ∀ dataIn, p' ≠ .capability dataIn) :
    Closing c k' p' p' := by
  cases h with
  | fills v hm hlt hfound =>
    have hfits : v.Fits k := ⟨d, f, hm ▸ hd, hf, hlt⟩
    exact ⟨hfits, rfl⟩
  | asks => exact absurd rfl (hp _)
  | _ => exact rfl

theorem Started.apart (hd : k.devices c.minor = some d) (hf : d.pFunc = some f)
    (h : Started c.ke k c.minor d f c.bytes k' p')
    (havoid : (∀ o, p' ≠ .returned o) → c.Avoids k q) : Apart p' q := by
  cases h with
  | fills v hm hlt hfound =>
    rintro _ ⟨⟩ w hw hvw helt
    have hno (o : Outcome) : Point.value v 0 ≠ .returned o := by
      intro ho
      cases ho
    exact havoid hno w hw (hm.symm.trans hvw) d hd f hf (hfound.trans (congrArg some helt))
  | _ => exact apart_of_filling rfl

theorem ok_of_map_cleared {x y : Exec (Kernel × Point)}
    (h : x.map cleared = y.map cleared) (hy : y = .ok (k, p)) :
    ∃ k₁, x = .ok (k₁, p) ∧ k₁.cleared = k.cleared := by
  rw [hy] at h
  obtain ⟨⟨k₁, p₁⟩, hx, hr⟩ := except_map_eq_ok.mp h
  cases congrArg Prod.snd hr
  exact ⟨k₁, hx, congrArg Prod.fst hr⟩

theorem error_of_map_cleared {x y : Exec (Kernel × Point)} {e : Fault}
    (h : x.map cleared = y.map cleared) (hy : y = .error e) : x = .error e := by
  rw [hy] at h
  cases x with
  | ok r => cases h
  | error e' => exact h

theorem holds_of_pending (h : Pending c k (.command block c.bytes)) :
    Holds c block k.tempKcmd := by
  have htake := h.2.2
  rwa [List.take_of_length_le (length_fetched block c.bytes).le] at htake

/-- With its command in the block the call asks whatever lies behind. -/
theorem asksFor_of_continueCommand (henter : c.enter k = .command block 0)
    (hfull : Holds c block k.tempKcmd) (hown : c.bytes ≤ block.length → c.ReadsOwn k)
    (hr : c.continueCommand k block = .ok (k', .capability dataIn)) :
    AsksFor c block dataIn k := by
  obtain ⟨-, d, f, hd, hf⟩ := enter_command henter
  intro b hb
  have hclear : k.cleared = (k.withBlock b).cleared := rfl
  have hcongr := continueCommand_congr hclear (hfull.agree hb) hown
  obtain ⟨k₁, hk₁, -⟩ := ok_of_map_cleared hcongr.symm hr
  have hd' : (k.withBlock b).devices c.minor = some d := hd
  obtain ⟨rfl, -, -⟩ := (continueCommand_started hd' hf hk₁).1.of_capability rfl
  exact hk₁

theorem step_start (hp : Pending c k (.command block c.bytes))
    (hb : Beside k a (.command block c.bytes) q)
    (hown : c.bytes ≤ block.length → c.ReadsOwn k ∧ c.Avoids k q) :
    Step c k a q (c.continueCommand k block) := by
  have hfull := holds_of_pending hp
  have henter := hp.1
  have hkernel : (q.complete k).cleared = a.cleared := hb.kernel
  have hentera : c.enter a = .command block 0 := (enter_of_cleared hkernel).trans henter
  obtain ⟨-, d, f, hd, hf⟩ := enter_command henter
  obtain ⟨b, hput, hholds⟩ := exists_put a.tempKcmd hfull.le block
  have hagree : (c.continueCommand (a.withBlock b) block).map cleared =
      ((c.continueCommand k block).map (changed q.complete)).map cleared := by
    rw [← continueCommand_complete ⟨d, f, hd, hf⟩ hb.fits fun hlen => (hown hlen).2]
    have hclear : (q.complete k).cleared = (a.withBlock b).cleared := hkernel
    refine (continueCommand_congr hclear ?_ fun hlen => ?_).symm
    · rw [complete_tempKcmd]
      exact hfull.agree hholds
    · exact (hown hlen).1.complete ⟨d, f, hd, hf⟩ q
  have htake := takeEffect_command hentera hput
  cases hr : c.continueCommand k block with
  | error e =>
    rw [hr] at hagree
    rw [error_of_map_cleared hagree rfl] at htake
    exact .fails e e htake
  | ok r =>
    obtain ⟨k', p'⟩ := r
    rw [hr] at hagree
    obtain ⟨a₁, ha₁, hclear⟩ := ok_of_map_cleared hagree rfl
    dsimp only at ha₁ hclear
    obtain ⟨hstarted, hlen⟩ := continueCommand_started hd hf hr
    rw [ha₁, ok_bind] at htake
    by_cases hask : ∃ dataIn, p' = .capability dataIn
    · obtain ⟨dataIn, rfl⟩ := hask
      obtain ⟨rfl, -, -⟩ := hstarted.of_capability rfl
      exact .goes _ _ {
        grows := .refl _
        sound := hb.sound
        keeps := keeps_of_eq rfl q
        apart := apart_of_filling rfl
        kernel := hkernel
        stands := by
          refine ⟨block, henter, hfull.le, ?_, fun b hb h32 => (hfull.agree hb).u64 h32⟩
          exact asksFor_of_continueCommand henter hfull (fun hlen => (hown hlen).1) hr }
    · have hno : ∀ dataIn, p' ≠ .capability dataIn := fun dataIn h => hask ⟨dataIn, h⟩
      have hthrough : throughCreate c.ke (a₁, p') = .ok (a₁, p') := by
        cases p' with
        | capability dataIn => exact absurd rfl (hno dataIn)
        | _ => rfl
      rw [hthrough, ok_bind] at htake
      exact .effect k' p' _ _ htake {
        grows := hstarted.grows hd hf
        sound := hstarted.sound hb.sound
        keeps := keeps_of_eq (hstarted.block (hb.sound.filed _ d hd)) q
        apart := hstarted.apart hd hf fun ho => (hown (hlen.resolve_right (not_exists.mpr ho))).2
        kernel := by
          rw [complete_cleared, ← hclear, complete_cleared]
        stands := hstarted.closing hd hf hno }

theorem createEffect_point {ke : KEnv} {major minor : ℕ} {dataOut : UInt64} {x : Growth}
    (h : createEffect ke major minor dataIn dataOut = .ok (x, p)) :
    (∃ o, p = .returned o) ∨ ∃ todo, p = .sending todo [] := by
  unfold createEffect at h
  split at h
  · cases h
    exact .inl ⟨_, rfl⟩
  · obtain ⟨r, -, h⟩ := bind_eq_ok.mp h
    split at h
    · cases h
      exact .inl ⟨_, rfl⟩
    · cases h
      exact .inr ⟨_, rfl⟩

theorem step_create (hp : Pending c k (.capability dataIn))
    (hb : Beside k a (.capability dataIn) q)
    (hout : Announces c.ke k dataIn → 32 ≤ c.bytes) :
    Step c k a q (continueCreate c.ke k dataIn) := by
  obtain ⟨block, henter, hle, hasks, hdata⟩ := hp
  have hkernel : (q.complete k).cleared = a.cleared := hb.kernel
  have hentera : c.enter a = .command block 0 := (enter_of_cleared hkernel).trans henter
  obtain ⟨b, hput, hholds⟩ := exists_put a.tempKcmd hle block
  have haska : AsksFor c block dataIn a := hasks.grows henter (grows_of_cleared hkernel)
  have hmajor : a.major = k.major :=
    (congrArg Kernel.major hkernel).symm.trans (complete_major q k)
  have hminor : a.minor = k.minor :=
    (congrArg Kernel.minor hkernel).symm.trans (complete_minor q k)
  have hcreate : createEffect c.ke a.major a.minor dataIn b.dataOut =
      createEffect c.ke k.major k.minor dataIn k.tempKcmd.dataOut := by
    rw [hmajor, hminor]
    exact (createEffect_congr fun h => hdata b hholds (hout h)).symm
  have hthrough : throughCreate c.ke (a.withBlock b, .capability dataIn) =
      (createEffect c.ke k.major k.minor dataIn k.tempKcmd.dataOut).map fun r =>
        ((a.withBlock b).grow r.1, r.2) := by
    rw [← hcreate]
    exact continueCreate_eq c.ke (a.withBlock b) dataIn
  have htake := takeEffect_command hentera hput
  rw [haska b hholds, ok_bind, hthrough] at htake
  rw [continueCreate_eq]
  cases hc : createEffect c.ke k.major k.minor dataIn k.tempKcmd.dataOut with
  | error e =>
    rw [hc] at htake
    exact .fails e e htake
  | ok r =>
    obtain ⟨x, p'⟩ := r
    rw [hc] at htake
    have hpoint := createEffect_point hc
    have hcomplete (k : Kernel) : p'.complete k = k := by
      rcases hpoint with ⟨o, rfl⟩ | ⟨todo, rfl⟩ <;> rfl
    exact .effect (k.grow x) p' _ _ htake {
      grows := hb.sound.grows_grow x
      sound := hb.sound.grow x fun d hd => createEffect_filed hc hd
      keeps := keeps_of_eq (grow_tempKcmd k x) q
      apart := by
        rcases hpoint with ⟨o, rfl⟩ | ⟨todo, rfl⟩ <;> exact apart_of_filling rfl
      kernel := by
        rw [hcomplete, hcomplete, complete_grow hb.fits hb.sound, grow_cleared, hkernel,
          grow_cleared]
        rfl
      stands := by
        rcases hpoint with ⟨o, rfl⟩ | ⟨todo, rfl⟩ <;> exact rfl }

theorem step_value (hp : Closing c k p₀ (.value v done)) (hb : Beside k a (.value v done) q) :
    Moved c k (k.fill v done (window v.src done (m + 1))) a q
      (if done + (window v.src done (m + 1)).length < v.src.length then
        .value v (done + (window v.src done (m + 1)).length)
      else .returned (.handler amRetGood [])) (some p₀) := by
  have hkernel : ((q.complete k).fill v done (v.src.drop done)).cleared = a.cleared := hb.kernel
  have hmove : q.complete (k.fill v done (window v.src done (m + 1))) =
      (q.complete k).fill v done (window v.src done (m + 1)) := complete_fill hb.apart k _ _
  split
  · exact {
      grows := grows_fill
      sound := hb.sound.fill _ _ _
      keeps := keeps_of_eq rfl q
      apart := hb.apart
      kernel := by
        rw [hmove, Point.complete, fill_window]
        exact hkernel
      stands := ⟨hp.1.grows grows_fill, hp.2⟩ }
  · rename_i hend
    have hlast : v.src.drop (done + (window v.src done (m + 1)).length) = [] :=
      List.drop_eq_nil_of_le (Nat.not_lt.mp hend)
    have hchunk : window v.src done (m + 1) = v.src.drop done := by
      have hrest := window_append_drop v.src done (m + 1)
      rwa [hlast, List.append_nil] at hrest
    exact {
      grows := grows_fill
      sound := hb.sound.fill _ _ _
      keeps := keeps_of_eq rfl q
      apart := apart_of_filling rfl
      kernel := by
        change (q.complete (k.fill v done (window v.src done (m + 1)))).cleared = a.cleared
        rw [hmove, hchunk]
        exact hkernel
      stands := hp.2 }

/-- The step in front of a transfer to the process. -/
theorem step_send {x : Sending} (hp : Closing c k p₀ (.sending (x :: todo) sent))
    (hb : Beside k a (.sending (x :: todo) sent) q) {r : Exec (Kernel × Point)}
    (hr : advance c m k (.sending (x :: todo) sent) = some r) :
    (∃ p', r = .ok (k, p') ∧ Moved c k k a q p' (some p₀)) ∨
      ∃ e, r = .error e ∧ finish c.ke p₀ = .error e := by
  have hkernel : (q.complete k).cleared = a.cleared := hb.kernel
  have hmoved {p' : Point} (happart : Apart p' q) (hcomplete : ∀ k, p'.complete k = k)
      (hclose : Closing c k p₀ p') : Moved c k k a q p' (some p₀) := {
    grows := .refl k
    sound := hb.sound
    keeps := keeps_of_eq rfl q
    apart := happart
    kernel := by
      rw [hcomplete]
      exact hkernel
    stands := hclose }
  have hfinish : finish c.ke (.sending (x :: todo) sent) = finish c.ke p₀ := hp
  rw [finish, sendAll] at hfinish
  rw [advance] at hr
  obtain rfl := Option.some.inj hr
  cases hs : x.send c.ke with
  | error e =>
    rw [hs] at hfinish
    exact .inr ⟨e, rfl, hfinish.symm⟩
  | ok w =>
    rw [hs] at hfinish
    cases w with
    | none =>
      refine .inl ⟨_, rfl, hmoved (apart_of_filling rfl) (fun _ => rfl) ?_⟩
      rw [Closing, ← hfinish]
      simp only [ok_bind, pure_eq_ok, List.append_nil]
    | some w =>
      refine .inl ⟨_, rfl, hmoved (apart_of_filling rfl) (fun _ => rfl) ?_⟩
      rw [Closing, ← hfinish, finish]
      simp only [ok_bind]
      cases sendAll c.ke todo with
      | error e => rfl
      | ok r => simp only [ok_bind, pure_eq_ok, List.append_assoc, List.singleton_append]

end Effects

end AppMem.Driver
