import AppMem.Assca.PacketPath
import AppMem.Hash.Chains

/-! # What a read returns after any number of writes

A write never looks for an older item with the same key, so the items of a key pile up in
one chain, and every doubling of the table reverses it. A read returns the head of that
pile. The growth of the table is a function of the hash values, and with it the write that
is visible in the end.
-/
namespace AppMem.Assca
open Library.Bytes Library.Checked Library.Chain Abi Memory Hash Pack Device

abbrev Pair := List UInt8 × List UInt8

/-- Call `am_assca_write32_align` for each pair of buffers. -/
def asscaWrites (env : Env) (f : MemFunction) (ws : List Pair) : Exec MemFunction :=
  ws.foldlM (fun f w => (amAsscaWrite32Align env f w.1 w.2).map Prod.fst) f

def lastValue (pairs : List Pair) (key : List UInt8) : Option (List UInt8) :=
  (pairs.filter fun p => p.1 = key).getLast?.map Prod.snd

/-- What a read reports and leaves in the value buffer when it finds `v`, or nothing. -/
def answer (direct : Bool) (v : Option (List UInt8)) (p2 : List UInt8) : AlignResult :=
  match v with
  | none => ⟨amRetKeyNotFound, p2⟩
  | some v => ⟨amRetGood, if direct then splice p2 0 v else p2⟩

section Growth

/-- One write: the growth goes on, and the log keeps the number of doublings before it. -/
def stamp (s : Growth × List (Pair × ℕ)) (p : Pair) : Option (Growth × List (Pair × ℕ)) :=
  (s.1.add (hashJen p.1)).map fun g => (g, s.2 ++ [(p, s.1.doublings)])

/-- The growth and the log of a list of writes; `none` when the table breaks down on the way. -/
def stamped (pairs : List Pair) : Option (Growth × List (Pair × ℕ)) :=
  pairs.foldlM stamp (Growth.start, [])

/-- The value a key shows after `e` doublings: that of the latest write before which the number
of doublings was of the parity of `e`, and of the first write of the key if there is none. -/
def visible (e : ℕ) (log : List (Pair × ℕ)) (key : List UInt8) : Option (List UInt8) :=
  let mine := log.filter fun p => p.1.1 = key
  ((mine.filter fun p => p.2 % 2 = e % 2).getLast?.or mine.head?).map fun p => p.1.2

theorem foldlM_stamp_log {ps : List Pair} {s s' : Growth × List (Pair × ℕ)}
    (h : ps.foldlM stamp s = some s') : s'.2.map Prod.fst = s.2.map Prod.fst ++ ps := by
  induction ps generalizing s with
  | nil =>
    cases h
    simp
  | cons p ps ih =>
    rw [List.foldlM_cons] at h
    rcases Option.bind_eq_some_iff.mp h with ⟨s₁, hs₁, hrest⟩
    rcases Option.map_eq_some_iff.mp hs₁ with ⟨g, _, rfl⟩
    rw [ih hrest]
    simp

/-- A key shows no value exactly when it was never written. -/
theorem visible_eq_none {e : ℕ} {log : List (Pair × ℕ)} {key : List UInt8} :
    visible e log key = none ↔ lastValue (log.map Prod.fst) key = none := by
  simp only [visible, lastValue, List.filter_map, Option.map_eq_none_iff, Option.or_eq_none_iff,
    List.getLast?_eq_none_iff, List.head?_eq_none_iff, List.map_eq_nil_iff]
  constructor
  · exact And.right
  · intro h
    have hmine : (log.filter fun p => p.1.1 = key) = [] := h
    exact ⟨by rw [hmine, List.filter_nil], hmine⟩

theorem visible_eq_head? (e : ℕ) (log : List (Pair × ℕ)) (key : List UInt8) :
    visible e log key =
      (layout e ((log.filter fun p => p.1.1 = key).map fun p => (p.1.2, p.2))).head? := by
  rw [← layout_map Prod.snd e (log.filter fun p => p.1.1 = key), List.head?_map, head?_layout,
    Option.map_map]
  rfl

end Growth

section Table
variable {b : Build} {env : Env} {kl dl : ℕ} {flags : UInt32}

def handles (log : List (Pair × ℕ)) : List (Handle ℕ × ℕ) :=
  log.zipIdx.map fun q => (⟨q.1.1.1, hashJen q.1.1.1, q.2⟩, q.1.2)

/-- The array holds exactly the writes of `log`. -/
structure Stored (kl dl : ℕ) (flags : UInt32) (fd : AsscaData) (g : Growth)
    (log : List (Pair × ℕ)) : Prop where
  keyLen : fd.data.keyLen.toNat = kl
  dataLen : fd.data.dataLen.toNat = dl
  fixed : fd.data.bFixedKey = true ∧ fd.data.bFixedData = true
  flags : fd.flags = flags
  items : fd.data.items = log.map fun p => ⟨p.1.1, p.1.2⟩
  values : ∀ p ∈ log, p.1.2.length = dl
  table : (fd.data.table = none ∧ g = Growth.start ∧ log = []) ∨
    ∃ t, fd.data.table = some t ∧ Holds t g (handles log)

theorem stored_asscaDevice (env₀ : Env) (f₀ : MemFunction) (pCap : AmMemCap) :
    ∃ fd, (asscaDevice env₀ f₀ pCap).pVdF = some (.assca fd) ∧
      Stored (pCap.typeSpecific tsAsscaKeyMaxSize).toNat
        (pCap.typeSpecific tsAsscaDataMaxSize).toNat env₀.flags fd Growth.start [] :=
  ⟨_, rfl, rfl, rfl, ⟨rfl, rfl⟩, rfl, rfl, fun _ h => absurd h List.not_mem_nil,
    .inl ⟨rfl, rfl, rfl⟩⟩

theorem handles_append (log : List (Pair × ℕ)) (p : Pair × ℕ) :
    handles (log ++ [p]) = handles log ++ [(⟨p.1.1, hashJen p.1.1, log.length⟩, p.2)] := by
  simp [handles, List.zipIdx_append]

theorem handles_values (log : List (Pair × ℕ)) (key : List UInt8) :
    ((handles log).filter fun p => p.1.key = key).map
        (fun p => ((log.map fun q => (⟨q.1.1, q.1.2⟩ : AsscaItem))[p.1.elt]?, p.2)) =
      (log.filter fun p => p.1.1 = key).map fun p => (some ⟨p.1.1, p.1.2⟩, p.2) := by
  have hlog : log.filter (fun p => p.1.1 = key) =
      (log.zipIdx.filter fun q => q.1.1.1 = key).map Prod.fst := by
    conv_lhs => rw [← List.zipIdx_map_fst 0 log, List.filter_map]
    rfl
  rw [hlog, handles, List.filter_map, List.map_map, List.map_map]
  apply List.map_congr_left
  intro q hq
  have hmem := List.mem_zipIdx_iff_getElem?.mp (List.mem_filter.mp hq).1
  simp only [Function.comp_apply, List.getElem?_map, hmem, Option.map_some]

theorem Stored.find {fd : AsscaData} {g : Growth} {log : List (Pair × ℕ)}
    (S : Stored kl dl flags fd g log) (key : List UInt8) :
    ∃ o, hashFind fd.data.table key = .ok o ∧
      o.map (fun h => (fd.data.items[h.elt]?.map AsscaItem.data)) =
        (visible g.doublings log key).map some := by
  rcases S.table with ⟨htable, _, rfl⟩ | ⟨t, htable, H⟩
  · exact ⟨none, by rw [htable]; rfl, rfl⟩
  · have hhash : ∀ p ∈ handles log, p.1.hashv = hashJen p.1.key := by
      intro p hp
      rcases List.mem_map.mp hp with ⟨q, _, rfl⟩
      rfl
    refine ⟨_, by rw [htable, H.find hhash], ?_⟩
    have hv := congrArg (List.map fun p => (Option.map AsscaItem.data p.1, p.2))
      (handles_values log key)
    rw [List.map_map, List.map_map] at hv
    have hl := congrArg (fun l => (layout g.doublings l).head?) hv
    rw [S.items, visible_eq_head?, ← List.head?_map, ← List.head?_map, layout_map, layout_map,
      List.map_map]
    exact hl

/-- One write: the log grows by the pair, unless the table breaks down. -/
theorem Stored.write (henv : env.Ample) {f : MemFunction} {fd : AsscaData} {g : Growth}
    {log : List (Pair × ℕ)} (hf : f.pVdF = some (.assca fd)) (S : Stored kl dl flags fd g log)
    {w : Pair} (hkey : kl ≤ w.1.length) (hval : dl ≤ w.2.length) :
    match stamp (g, log) (w.1.take kl, w.2.take dl) with
    | none => ∃ e, amAsscaWrite32Align env f w.1 w.2 = .error e
    | some s => ∃ fd', amAsscaWrite32Align env f w.1 w.2 =
        .ok ({ f with pVdF := some (.assca fd') }, { error := amRetGood }) ∧
          Stored kl dl flags fd' s.1 s.2 := by
  have hstart : ∃ t, hashAddKeyptr env fd.data.table (w.1.take kl) log.length =
      hashAddKeyptr env (some t) (w.1.take kl) log.length ∧ Holds t g (handles log) := by
    rcases S.table with ⟨htable, rfl, rfl⟩ | ⟨t, htable, H⟩
    · rcases holds_hashMakeTable (α := ℕ) henv with ⟨t, hmake, H⟩
      refine ⟨t, ?_, H⟩
      rw [htable, hashAddKeyptr, hmake]
      rfl
    · exact ⟨t, by rw [htable], H⟩
  rcases hstart with ⟨t, hadd, H⟩
  have hstep := H.add henv (w.1.take kl) log.length
  have hwrite : amAsscaWrite32Align env f w.1 w.2 =
      hashAddKeyptr env (some t) (w.1.take kl) log.length >>= fun t' => .ok
        ({ f with pVdF := some (.assca { fd with data := { fd.data with
            items := fd.data.items ++ [⟨w.1.take kl, w.2.take dl⟩]
            table := some t' } }) }, { error := amRetGood }) := by
    rw [← hadd]
    simp only [amAsscaWrite32Align, asscaAccess, hf, amlibAsscaAddKeyFixfix,
      require_of_true _ S.fixed, ok_bind, if_pos (henv _), S.keyLen, S.dataLen,
      readBytes_of_le hkey, readBytes_of_le hval, S.items, List.length_map]
    cases hashAddKeyptr env fd.data.table (w.1.take kl) log.length with
    | error e => rfl
    | ok t' => rfl
  rw [hwrite]
  cases hg : g.add (hashJen (w.1.take kl)) with
  | none =>
    rw [hg] at hstep
    rcases hstep with ⟨e, he⟩
    simp only [stamp, hg, Option.map_none]
    exact ⟨e, by rw [he, error_bind]⟩
  | some g' =>
    rw [hg] at hstep
    rcases hstep with ⟨t', ht', H'⟩
    simp only [stamp, hg, Option.map_some]
    refine ⟨_, by rw [ht', ok_bind], ?_⟩
    constructor
    · exact S.keyLen
    · exact S.dataLen
    · exact S.fixed
    · exact S.flags
    · simp only [S.items, List.map_append, List.map_cons, List.map_nil]
    · intro p hp
      rcases List.mem_append.mp hp with hp | hp
      · exact S.values p hp
      · rw [List.mem_singleton.mp hp, List.length_take, Nat.min_eq_left hval]
    · rw [handles_append]
      exact .inr ⟨t', rfl, H'⟩

/-- All writes: the array holds them, unless the table broke down. -/
theorem Stored.writes (henv : env.Ample) {ws : List Pair} {f : MemFunction} {fd : AsscaData}
    {s : Growth × List (Pair × ℕ)} (hf : f.pVdF = some (.assca fd))
    (S : Stored kl dl flags fd s.1 s.2)
    (hws : ∀ w ∈ ws, kl ≤ w.1.length ∧ dl ≤ w.2.length) :
    match (ws.map fun w => (w.1.take kl, w.2.take dl)).foldlM stamp s with
    | none => ∃ e, asscaWrites env f ws = .error e
    | some s' => ∃ f' fd', asscaWrites env f ws = .ok f' ∧ f'.pVdF = some (.assca fd') ∧
        Stored kl dl flags fd' s'.1 s'.2 := by
  induction ws generalizing f fd s with
  | nil => exact ⟨f, fd, rfl, hf, S⟩
  | cons w ws ih =>
    have hw := hws w List.mem_cons_self
    have hstep := S.write henv hf hw.1 hw.2
    rw [List.map_cons, List.foldlM_cons]
    cases hs : stamp s (w.1.take kl, w.2.take dl) with
    | none =>
      rw [hs] at hstep
      rcases hstep with ⟨e, he⟩
      exact ⟨e, by rw [asscaWrites, List.foldlM_cons, he]; rfl⟩
    | some s₁ =>
      rw [hs] at hstep
      rcases hstep with ⟨fd₁, hw₁, S₁⟩
      have hrest := ih (f := { f with pVdF := some (.assca fd₁) }) rfl S₁
        fun w' hw' => hws w' (List.mem_cons_of_mem _ hw')
      have hcons : asscaWrites env f (w :: ws) =
          asscaWrites env { f with pVdF := some (.assca fd₁) } ws := by
        rw [asscaWrites, List.foldlM_cons, hw₁]
        rfl
      rw [hcons]
      exact hrest

theorem Stored.value_length {fd : AsscaData} {g : Growth} {log : List (Pair × ℕ)}
    (S : Stored kl dl flags fd g log) {i : ℕ} {pAI : AsscaItem}
    (h : fd.data.items[i]? = some pAI) : pAI.data.length = dl := by
  rw [S.items, List.getElem?_map, Option.map_eq_some_iff] at h
  rcases h with ⟨p, hp, rfl⟩
  exact S.values p (List.mem_of_getElem? hp)

theorem Stored.visible_length {fd : AsscaData} {g : Growth} {log : List (Pair × ℕ)}
    (S : Stored kl dl flags fd g log) (key : List UInt8) {e : ℕ} :
    ∀ v ∈ visible e log key, v.length = dl := by
  intro v hv
  rcases Option.map_eq_some_iff.mp hv with ⟨p, hp, rfl⟩
  apply S.values
  rcases Option.or_eq_some_iff.mp hp with hp | ⟨_, hp⟩
  · exact List.mem_of_mem_filter (List.mem_of_mem_filter (List.mem_of_getLast? hp))
  · exact List.mem_of_mem_filter (List.mem_of_mem_head? hp)

theorem Stored.lastValue_length {fd : AsscaData} {g : Growth} {log : List (Pair × ℕ)}
    (S : Stored kl dl flags fd g log) (key : List UInt8) :
    ∀ v ∈ lastValue (log.map Prod.fst) key, v.length = dl := by
  intro v hv
  rcases Option.map_eq_some_iff.mp hv with ⟨p, hp, rfl⟩
  rcases List.mem_map.mp (List.mem_of_mem_filter (List.mem_of_getLast? hp)) with ⟨q, hq, rfl⟩
  exact S.values q hq

theorem directStep_read {f : MemFunction} {fd : AsscaData} (hf : f.pVdF = some (.assca fd))
    {p1 p2 : List UInt8} {pAA : AmlibAssca} {r : Served}
    (h : amlibAsscaGetKeyVal b fd.flags fd.data p1 p2 = .ok (pAA, r))
    (hout : r.out.length ≤ p2.length) :
    directStep b env f (.read p1 p2) = .ok (f.setAssca fd pAA, ⟨r.error, splice p2 0 r.out⟩) := by
  simp only [directStep, amAsscaRead32Align, asscaAccess, hf, h, ok_bind, pure_eq_ok,
    writeBytes_of_le hout]

theorem amlibAsscaGetKeyVal_of_find (b : Build) (flags : UInt32) {pAA : AmlibAssca}
    {p1 : List UInt8} (p2 : List UInt8)
    {o : Option (Handle ℕ)} (hkey : pAA.keyLen.toNat ≤ p1.length)
    (h : hashFind pAA.table (p1.take pAA.keyLen.toNat) = .ok o) :
    amlibAsscaGetKeyVal b flags pAA p1 p2 =
      match o with
      | none => .ok (pAA, { error := amRetKeyNotFound })
      | some h =>
        match pAA.items[h.elt]? with
        | none => .error .bounds
        | some pAI => copyToUser b flags p2 pAI.data pAA.dataLen.toNat >>= fun r => .ok
            ({ pAA with items := pAA.items.set h.elt { pAI with data := r.2 } },
              { error := amRetGood, out := r.1 }) := by
  unfold amlibAsscaGetKeyVal
  split
  · next htable =>
    rw [htable] at h
    cases h
    rfl
  · next t htable =>
    rw [htable] at h
    rw [readBytes_of_le hkey, ok_bind, h, ok_bind]
    cases o with
    | none => rfl
    | some h => rfl

/-- A read returns the visible value; an unmapped function of the driver hands out none. -/
theorem Stored.read {f : MemFunction} {fd : AsscaData} {g : Growth} {log : List (Pair × ℕ)}
    (hf : f.pVdF = some (.assca fd)) (S : Stored kl dl flags fd g log) {p1 p2 : List UInt8}
    (hkey : kl ≤ p1.length) (hval : dl ≤ p2.length) :
    ∃ f', directStep b env f (.read p1 p2) =
      .ok (f', answer (b.direct flags) (visible g.doublings log (p1.take kl)) p2) := by
  rcases S.find (p1.take kl) with ⟨o, ho, hvis⟩
  have hget := amlibAsscaGetKeyVal_of_find b fd.flags p2 (S.keyLen.trans_le hkey)
    (S.keyLen.symm ▸ ho)
  cases o with
  | none =>
    have hnone : visible g.doublings log (p1.take kl) = none := Option.map_eq_none_iff.mp hvis.symm
    rw [hnone, directStep_read hf hget (Nat.zero_le _), splice_nil]
    exact ⟨_, rfl⟩
  | some h =>
    rcases Option.map_eq_some_iff.mp hvis.symm with ⟨v, hv, hitem⟩
    rcases Option.map_eq_some_iff.mp hitem.symm with ⟨pAI, hpAI, rfl⟩
    have hlen := S.value_length hpAI
    simp only [hpAI, S.dataLen, S.flags] at hget
    rw [hv]
    by_cases hb : b.direct flags = true
    · rw [copyToUser_direct hb, readBytes_of_le hlen.ge, ok_bind, ok_bind, ← hlen,
        List.take_length, ← S.flags] at hget
      have hans : answer (b.direct flags) (some pAI.data) p2 =
          ⟨amRetGood, splice p2 0 pAI.data⟩ := by simp only [answer, hb, if_true]
      rw [hans]
      exact ⟨_, directStep_read hf hget (hlen.trans_le hval)⟩
    · rw [copyToUser, readBytes_of_le hlen.ge, ok_bind, if_neg hb, pure_eq_ok, ok_bind,
        ← S.flags] at hget
      have hans : answer (b.direct flags) (some pAI.data) p2 = ⟨amRetGood, splice p2 0 []⟩ := by
        simp only [answer, if_neg hb, splice_nil]
      rw [hans]
      exact ⟨_, directStep_read hf hget (Nat.zero_le _)⟩

theorem directStep_read_same {f g : MemFunction} {fd : AsscaData} {p1 p2 : List UInt8}
    {r : AlignResult} (hf : f.pVdF = some (.assca fd)) (hb : b.direct fd.flags = true)
    (h : directStep b env f (.read p1 p2) = .ok (g, r)) : g = f := by
  rw [directStep, bind_eq_ok] at h
  rcases h with ⟨⟨g', v⟩, hread, h⟩
  rw [bind_eq_ok] at h
  rcases h with ⟨_, -, h⟩
  cases h
  rcases asscaAccess_eq_ok.mp hread with ⟨-, hg, -⟩ | ⟨fd', pAA, hf', hop, rfl⟩
  · exact hg
  · rw [hf] at hf'
    cases hf'
    have hsame : pAA = fd.data := by
      rcases amlibAsscaGetKeyVal_eq_ok.mp hop with ⟨-, hpAA, -⟩ |
        ⟨t, key, found, -, -, -, ⟨-, hpAA, -⟩ | ⟨hd, item, w, -, hitem, hw, rfl, -⟩⟩
      · exact hpAA
      · exact hpAA
      · rw [copyToUser_direct hb, bind_eq_ok] at hw
        rcases hw with ⟨_, -, hw⟩
        cases hw
        have hset : fd.data.items.set hd.elt item = fd.data.items := by
          rw [← (List.getElem?_eq_some_iff.mp hitem).2, List.set_getElem_self]
        exact congrArg (fun l => { fd.data with items := l }) hset
    rw [hsame, setAssca_self hf]

end Table

section Sequences

/-- After the writes `ws`, a read of the key in `k` returns the value of the most recent write
with that key, and no value exactly when there was none. -/
def LastWriteWins (b : Build) (env : Env) (kl dl : ℕ) (f : MemFunction) (ws : List Pair)
    (k : List UInt8) : Prop :=
  ∃ f', asscaWrites env f ws = .ok f' ∧ ∀ p2, dl ≤ p2.length →
    ∃ f'', directStep b env f' (.read k p2) = .ok (f'',
      answer true (lastValue (ws.map fun w => (w.1.take kl, w.2.take dl)) (k.take kl)) p2)

/-- The table survives its growth; and if the key was written, the write that is visible in the
end has the value of the last one, and the function hands out values at all. -/
def LastWriteVisible (direct : Bool) (dl : ℕ) (pairs : List Pair) (key : List UInt8) : Prop :=
  match stamped pairs with
  | none => False
  | some (g, log) => visible g.doublings log key = lastValue pairs key ∧
      (lastValue pairs key = none ∨ direct = true ∨ dl = 0)

instance (direct : Bool) (dl : ℕ) (pairs : List Pair) (key : List UInt8) :
    Decidable (LastWriteVisible direct dl pairs key) :=
  match h : stamped pairs with
  | none => .isFalse (by simp only [LastWriteVisible, h, not_false_eq_true])
  | some (g, log) =>
    decidable_of_iff (visible g.doublings log key = lastValue pairs key ∧
      (lastValue pairs key = none ∨ direct = true ∨ dl = 0)) (by simp only [LastWriteVisible, h])

theorem splice_whole {p v : List UInt8} (h : v.length = p.length) : splice p 0 v = v := by
  rw [splice_zero, h, List.drop_length, List.append_nil]

/-- Two values give the same answers in every buffer only if they are the same. -/
theorem answer_eq_iff (direct : Bool) {dl : ℕ} {v w : Option (List UInt8)}
    (hnone : v = none ↔ w = none) (hv : ∀ x ∈ v, x.length = dl) (hw : ∀ x ∈ w, x.length = dl) :
    (∀ p2, dl ≤ p2.length → answer direct v p2 = answer true w p2) ↔
      v = w ∧ (w = none ∨ direct = true ∨ dl = 0) := by
  cases w with
  | none =>
    rw [hnone.mpr rfl]
    exact ⟨fun _ => ⟨rfl, .inl rfl⟩, fun _ _ _ => rfl⟩
  | some y =>
    cases v with
    | none => exact absurd (hnone.mp rfl) (Option.some_ne_none y)
    | some x =>
      have hx : x.length = dl := hv x rfl
      have hy : y.length = dl := hw y rfl
      constructor
      · intro h
        have hbuf : ∀ c : UInt8, (if direct then x else List.replicate dl c) = y := by
          intro c
          have hc := congrArg AlignResult.p2 (h (List.replicate dl c) (List.length_replicate).ge)
          simp only [answer, if_true] at hc
          rwa [splice_whole (by rw [hx, List.length_replicate]),
            splice_whole (by rw [hy, List.length_replicate])] at hc
        cases direct with
        | true => exact ⟨congrArg some (hbuf 0), .inr (.inl rfl)⟩
        | false =>
          have h01 : List.replicate dl (0 : UInt8) = List.replicate dl 1 :=
            (hbuf 0).trans (hbuf 1).symm
          have hdl : dl = 0 := by
            by_contra hne
            rcases Nat.exists_eq_succ_of_ne_zero hne with ⟨n, rfl⟩
            exact absurd (List.cons.inj h01).1 (by decide)
          subst hdl
          rw [List.length_eq_zero_iff.mp hx, List.length_eq_zero_iff.mp hy]
          exact ⟨rfl, .inr (.inr rfl)⟩
      · rintro ⟨hxy, hor⟩ p2 _
        cases hxy
        rcases hor with hsome | rfl | rfl
        · cases hsome
        · rfl
        · rw [List.length_eq_zero_iff.mp hx]
          simp [answer]

/-- The last write wins exactly when it is the visible one. -/
theorem lastWriteWins_iff {b : Build} {env env₀ : Env} {f₀ f : MemFunction} {pCap : AmMemCap}
    {kl dl : ℕ} {ws : List Pair} {k : List UInt8} (henv : env.Ample)
    (hcreate : amCreateAsscaDevice env₀ f₀ pCap = (amRetGood, f))
    (hkl : kl = (pCap.typeSpecific tsAsscaKeyMaxSize).toNat)
    (hdl : dl = (pCap.typeSpecific tsAsscaDataMaxSize).toNat)
    (hws : ∀ w ∈ ws, kl ≤ w.1.length ∧ dl ≤ w.2.length) (hk : kl ≤ k.length) :
    LastWriteWins b env kl dl f ws k ↔
      LastWriteVisible (b.direct env₀.flags) dl (ws.map fun w => (w.1.take kl, w.2.take dl))
        (k.take kl) := by
  have hstored : ∃ fd, f.pVdF = some (.assca fd) ∧ Stored kl dl env₀.flags fd Growth.start [] := by
    rw [asscaDevice_of_create hcreate, hkl, hdl]
    exact stored_asscaDevice env₀ f₀ pCap
  rcases hstored with ⟨fd, hf, S⟩
  have hrun := S.writes henv (s := (Growth.start, [])) hf hws
  rw [LastWriteVisible, stamped]
  cases hst : (ws.map fun w => (w.1.take kl, w.2.take dl)).foldlM stamp (Growth.start, []) with
  | none =>
    rw [hst] at hrun
    rcases hrun with ⟨e, he⟩
    constructor
    · rintro ⟨f', hf', _⟩
      rw [he] at hf'
      cases hf'
    · exact False.elim
  | some s =>
    rw [hst] at hrun
    rcases hrun with ⟨f', fd', hok, hf', S'⟩
    have hlog : s.2.map Prod.fst = ws.map fun w => (w.1.take kl, w.2.take dl) :=
      foldlM_stamp_log hst
    have hread : ∀ p2 : List UInt8, dl ≤ p2.length → ∃ f'', directStep b env f' (.read k p2) =
        .ok (f'', answer (b.direct env₀.flags) (visible s.1.doublings s.2 (k.take kl)) p2) :=
      fun p2 hp2 => S'.read hf' hk hp2
    have hnone : visible s.1.doublings s.2 (k.take kl) = none ↔
        lastValue (s.2.map Prod.fst) (k.take kl) = none := visible_eq_none
    have hans := answer_eq_iff (b.direct env₀.flags) hnone (S'.visible_length _)
      (S'.lastValue_length _)
    rw [hlog] at hans
    refine Iff.trans ?_ hans
    constructor
    · rintro ⟨f₁, hf₁, hwins⟩ p2 hp2
      rw [hok] at hf₁
      cases hf₁
      rcases hread p2 hp2 with ⟨f₂, hf₂⟩
      rcases hwins p2 hp2 with ⟨f₃, hf₃⟩
      rw [hf₂] at hf₃
      exact (Prod.mk.inj (Except.ok.inj hf₃)).2
    · intro hall
      refine ⟨f', hok, fun p2 hp2 => ?_⟩
      rcases hread p2 hp2 with ⟨f₂, hf₂⟩
      rw [hall p2 hp2] at hf₂
      exact ⟨f₂, hf₂⟩

/-- A key written twice and no doubling: the second value is read back. -/
theorem lastWriteWins_two : LastWriteWins .user .zeroed 4 4
    (asscaDevice .zeroed (.blank 0xAA01) (asscaCap 4))
    [([1, 2, 3, 4], [5, 6, 7, 8]), ([1, 2, 3, 4], [9, 9, 9, 9])] [1, 2, 3, 4] := by
  have hcreate : amCreateAsscaDevice .zeroed (.blank 0xAA01) (asscaCap 4) =
      (amRetGood, asscaDevice .zeroed (.blank 0xAA01) (asscaCap 4)) := rfl
  apply (lastWriteWins_iff Env.zeroed_ample hcreate rfl rfl ?_ ?_).mpr
  · decide
  · decide
  · decide

/-- Ten values for one key double the table, and the first of them is read back. -/
theorem not_lastWriteWins : ¬ LastWriteWins .user .zeroed 4 4
    (asscaDevice .zeroed (.blank 0xAA01) (asscaCap 4))
    ((List.range 10).map fun i => ([1, 2, 3, 4], [i.toUInt8, 0, 0, 0])) [1, 2, 3, 4] := by
  rintro ⟨f', hf', hwins⟩
  rcases hwins [0, 0, 0, 0] (by decide) with ⟨f'', hread⟩
  have hrun : (asscaWrites .zeroed (asscaDevice .zeroed (.blank 0xAA01) (asscaCap 4))
      ((List.range 10).map fun i => ([1, 2, 3, 4], [i.toUInt8, 0, 0, 0])) >>= fun f =>
        (directStep .user .zeroed f (.read [1, 2, 3, 4] [0, 0, 0, 0])).map Prod.snd) =
      .ok ⟨amRetGood, [0, 0, 0, 0]⟩ := by decide +kernel
  have hlast : lastValue (((List.range 10).map fun i => ([1, 2, 3, 4], [i.toUInt8, 0, 0, 0])).map
      fun w => (w.1.take 4, w.2.take 4)) [1, 2, 3, 4] = some [9, 0, 0, 0] := by decide
  rw [hf', ok_bind, hread, List.take_of_length_le (by decide), hlast] at hrun
  have hne : answer true (some [9, 0, 0, 0]) [0, 0, 0, 0] ≠ ⟨amRetGood, [0, 0, 0, 0]⟩ := by decide
  exact hne (Except.ok.inj hrun)

end Sequences

end AppMem.Assca
