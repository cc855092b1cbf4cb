import AppMem.Cells.AnyPath

/-! # Which sizes behave the same on both paths

When both paths return the last values written. A storage of static arrays keeps the values of
different indices apart; in a flat memory a write at another offset may reach into a value.
-/
namespace AppMem.Cells
open Library.Bytes Library.Checked Library.Cells Abi Memory Pack Device Assca

section Apart
variable {idx data : ℕ} {past : List Written} {ops : List AsscaOp} {inRange : ℕ → Prop}

theorem leVal_inj {a b : List UInt8} (hlen : a.length = b.length) (h : leVal a = leVal b) :
    a = b := by
  rw [← leBytes_leVal a, ← leBytes_leVal b, hlen, h]

theorem stata_apart (data : ℕ) {i j : ℕ} (h : i ≠ j) :
    data * i + data ≤ data * j ∨ data * j + data ≤ data * i := by
  rcases Nat.lt_or_gt_of_ne h with hlt | hlt
  · exact .inl (Nat.mul_le_mul_left data hlt)
  · exact .inr (Nat.mul_le_mul_left data hlt)

/-- In a static array no value is disturbed, by induction on the sequence. -/
theorem undisturbed_stata (hpast : ∀ w ∈ past, w.1.length = idx ∧ w.2.length = data)
    (hp : Proper idx data inRange past ops) :
    Undisturbed idx data (CellType.stata.valueAt data) past ops := by
  induction ops generalizing past with
  | nil => trivial
  | cons op ops ih =>
    obtain ⟨⟨hfit, -, hread⟩, hops⟩ := hp
    have hpast' : ∀ w ∈ note idx data past op, w.1.length = idx ∧ w.2.length = data := by
      cases op with
      | read p1 p2 => exact hpast
      | write p1 p2 =>
        intro w hw
        rcases List.mem_append.mp hw with hw | hw
        · exact hpast w hw
        · rw [List.mem_singleton.mp hw]
          exact ⟨List.length_take_of_le hfit.1, List.length_take_of_le hfit.2⟩
    refine ⟨?_, ih hpast' hops⟩
    cases op with
    | write p1 p2 => trivial
    | read p1 p2 =>
      obtain ⟨v, hv⟩ := hread
      have hlen : v.length = data := (hpast _ (mem_of_lastOf hv)).2
      have hkey : (p1.take idx).length = idx := List.length_take_of_le hfit.1
      have hseen : seenAt (place (CellType.stata.valueAt data)) past
          (place (CellType.stata.valueAt data) (p1.take idx)) v.length = v := by
        apply seenAt_of_disjoint hv
        · intro w hw _
          rw [(hpast w hw).2, hlen]
        · intro w hw hne
          rw [(hpast w hw).2, hlen]
          apply stata_apart
          intro hval
          exact hne (leVal_inj ((hpast w hw).1.trans hkey.symm) hval)
      rw [hlen] at hseen
      rw [UndisturbedOp, hv, hseen]

end Apart

section Agreement
variable (t : CellType) (pCap : AmMemCap) (env : Env) (stale handle : UInt32)
  (link : NetLink MemFunction) (v : VirtdFunction)

/-- Proper sequences: buffers with room, indices in range, and read only after they were
written. -/
def ProperFor (ops : List AsscaOp) : Prop :=
  Proper (t.idxSize pCap).toNat (t.dataSize pCap).toNat (t.InRange pCap) [] ops

def UndisturbedFor (ops : List AsscaOp) : Prop :=
  Undisturbed (t.idxSize pCap).toNat (t.dataSize pCap).toNat
    (t.valueAt (t.dataSize pCap).toNat) [] ops

def overPackets (ops : List AsscaOp) : Exec (List AlignResult) :=
  (trace (packetStep (netPackAc (serveDevice .user env stale)) ⟨handle, link.target.crResp⟩) link
    ops).map Prod.snd

def direct (ops : List AsscaOp) : Exec (List AlignResult) :=
  (trace (virtdStep env) v ops).map Prod.snd

/-- Both come back, and their reads return all bytes of the last values. -/
def ValuesAgree (ops : List AsscaOp) : Prop :=
  ∃ outs outs', overPackets env stale handle link ops = .ok outs ∧ direct env v ops = .ok outs' ∧
    LastReturned (t.idxSize pCap).toNat (t.dataSize pCap).toNat [] ops outs ∧
    LastReturned (t.idxSize pCap).toNat (t.dataSize pCap).toNat [] ops outs'

variable {t pCap env stale handle link v} {ops : List AsscaOp}

theorem results_of_served (hadv : Advertised t pCap) (hs : SizesServed t pCap)
    (hf : OnTarget t pCap link.target) (hv : OnVirtd t pCap v) (hp : ProperFor t pCap ops) :
    ∃ outs, overPackets env stale handle link ops = .ok outs ∧ direct env v ops = .ok outs ∧
      (LastReturned (t.idxSize pCap).toNat (t.dataSize pCap).toNat [] ops outs ↔
        UndisturbedFor t pCap ops) := by
  have hnone : ∀ w ∈ ([] : List Written), w.2.length = (t.dataSize pCap).toNat :=
    fun w hw => absurd hw List.not_mem_nil
  obtain ⟨mem, hmem, hlen⟩ := hf.room
  obtain ⟨mem', hmem', hlen'⟩ := hv.room
  have hholds : TargetHolds t pCap link.target.crResp link mem := ⟨hf, rfl, hmem, hlen⟩
  have hholds' : VirtdHolds t pCap v mem' := ⟨hv, hmem', hlen'⟩
  obtain ⟨link', hpackets⟩ := (packetStep_works hadv hs).run hholds (remembers_nil _ _) hnone hp
  obtain ⟨v', hdirect⟩ := (virtdStep_works hadv hs).run hholds' (remembers_nil _ _) hnone hp
  refine ⟨_, ?_, ?_, lastReturned_results hnone hp⟩
  · exact congrArg (Except.map Prod.snd) hpackets
  · exact congrArg (Except.map Prod.snd) hdirect

theorem valuesAgree_of_served (hadv : Advertised t pCap) (hs : SizesServed t pCap)
    (hf : OnTarget t pCap link.target) (hv : OnVirtd t pCap v) (hp : ProperFor t pCap ops) :
    ValuesAgree t pCap env stale handle link v ops ↔ UndisturbedFor t pCap ops := by
  obtain ⟨outs, hpackets, hdirect, hlast⟩ := results_of_served hadv hs hf hv hp
  rw [← hlast]
  constructor
  · rintro ⟨outs₁, outs₂, h₁, h₂, hl₁, -⟩
    rw [hpackets] at h₁
    cases h₁
    exact hl₁
  · exact fun hl => ⟨outs, outs, hpackets, hdirect, hl, hl⟩

section Unserved

/-- A write of an index, or of a value, that is too short for the accessors does not come back. -/
theorem not_direct_of_short {p1 p2 : List UInt8} (hv : OnVirtd t pCap v)
    (hshort : p1.length < 4 ∨ p2.length < 4) (outs : List AlignResult) :
    direct env v (.write p1 p2 :: ops) ≠ .ok outs := by
  intro h
  obtain ⟨r, hrun, -⟩ := except_map_eq_ok.mp h
  rw [trace_cons, bind_eq_ok] at hrun
  obtain ⟨q, hstep, -⟩ := hrun
  rw [virtdStep, hv.writeAl, bind_eq_ok] at hstep
  obtain ⟨w, hw, -⟩ := hstep
  rcases hshort with h1 | h2
  · exact writeAl_short h1 w hw
  · exact writeAl_shortValue h2 w hw

theorem direct_read_keeps {p1 p2 q1 q2 : List UInt8} {outs : List AlignResult}
    (hv : OnVirtd t pCap v) (h : direct env v [.write q1 q2, .read p1 p2] = .ok outs) :
    ∃ o₁ o₂, outs = [o₁, o₂] ∧ o₂.p2[4]? = p2[4]? := by
  obtain ⟨r, hrun, rfl⟩ := except_map_eq_ok.mp h
  rw [trace_cons, bind_eq_ok] at hrun
  obtain ⟨⟨v₁, o₁⟩, hwrite, hrun⟩ := hrun
  have hfn : v₁.fn = v.fn := by
    rw [virtdStep, bind_eq_ok] at hwrite
    obtain ⟨w, -, hwrite⟩ := hwrite
    cases hwrite
    rfl
  rw [trace_cons, bind_eq_ok] at hrun
  obtain ⟨_, hrun, hend⟩ := hrun
  cases hend
  rw [bind_eq_ok] at hrun
  obtain ⟨⟨v₂, o₂⟩, hread, hrun⟩ := hrun
  cases hrun
  refine ⟨o₁, o₂, rfl, ?_⟩
  dsimp only at hread
  rw [virtdStep, hfn, hv.readAl, bind_eq_ok] at hread
  obtain ⟨⟨g, w⟩, hcall, hread⟩ := hread
  rw [bind_eq_ok] at hread
  obtain ⟨buf, hbuf, hread⟩ := hread
  cases hread
  obtain ⟨hlen, rfl⟩ := writeBytes_eq_ok.mp hbuf
  have hfour : w.out.length = 4 := readAl_length hcall
  dsimp only at hlen ⊢
  rw [getElem?_splice (by rw [Nat.zero_add]; exact hlen), if_neg (by omega)]

theorem leVal_zeros (n : ℕ) : leVal (List.replicate n 0) = 0 := by
  induction n with
  | zero => rfl
  | succ n ih =>
    rw [List.replicate_succ, leVal_cons, ih]
    rfl

/-- Sizes that are not served are too short for the accessors, or too long. -/
theorem short_or_long (hadv : Advertised t pCap) (hs : ¬ SizesServed t pCap) :
    ((t.idxSize pCap).toNat < 4 ∨ (t.dataSize pCap).toNat < 4) ∨ 4 < (t.dataSize pCap).toNat := by
  by_contra hall
  have hdata : t.dataSize pCap = 4 := by
    apply UInt32.toNat_inj.mp
    change (t.dataSize pCap).toNat = 4
    omega
  apply hs
  refine ⟨?_, hdata⟩
  rcases hadv.idxSize with h | h | h | h
  · exact absurd (.inl (.inl (by rw [h]; decide))) hall
  · exact absurd (.inl (.inl (by rw [h]; decide))) hall
  · exact .inl h
  · exact .inr h

/-- Where an index is in range, sizes that are not served fail on a sequence of one index. -/
theorem exists_not_valuesAgree (hadv : Advertised t pCap) (hs : ¬ SizesServed t pCap)
    (hv : OnVirtd t pCap v) {i : ℕ} (hin : t.InRange pCap i) :
    ∃ ops, ProperFor t pCap ops ∧ UndisturbedFor t pCap ops ∧
      ¬ ValuesAgree t pCap env stale handle link v ops := by
  let key : List UInt8 := List.replicate (t.idxSize pCap).toNat 0
  let val : List UInt8 := List.replicate (t.dataSize pCap).toNat 0
  let buf : List UInt8 := List.replicate (t.dataSize pCap).toNat 1
  have hkey : key.length = (t.idxSize pCap).toNat := List.length_replicate
  have hval : val.length = (t.dataSize pCap).toNat := List.length_replicate
  have hbuf : buf.length = (t.dataSize pCap).toNat := List.length_replicate
  have hkeyTake : key.take (t.idxSize pCap).toNat = key := List.take_of_length_le hkey.le
  have hvalTake : val.take (t.dataSize pCap).toNat = val := List.take_of_length_le hval.le
  have hzero : t.InRange pCap (leVal (key.take (t.idxSize pCap).toNat)) := by
    rw [hkeyTake, leVal_zeros]
    exact inRange_zero hin
  have hfit : (AsscaOp.write key val).Fits (t.idxSize pCap).toNat (t.dataSize pCap).toNat :=
    ⟨hkey.ge, hval.ge⟩
  rcases short_or_long hadv hs with hshort | hlong
  · refine ⟨[.write key val], ⟨⟨hfit, hzero, trivial⟩, trivial⟩, ⟨trivial, trivial⟩, ?_⟩
    rintro ⟨_, outs, -, hdirect, -⟩
    rw [← hkey, ← hval] at hshort
    exact not_direct_of_short hv hshort outs hdirect
  · have hlast : lastOf (note (t.idxSize pCap).toNat (t.dataSize pCap).toNat []
        (.write key val)) (key.take (t.idxSize pCap).toNat) = some val := by
      rw [note, lastOf_append_singleton, if_pos rfl, hvalTake]
    have hseen : seenAt (place (t.valueAt (t.dataSize pCap).toNat))
        (note (t.idxSize pCap).toNat (t.dataSize pCap).toNat [] (.write key val))
        (place (t.valueAt (t.dataSize pCap).toNat) (key.take (t.idxSize pCap).toNat))
        val.length = val := by
      apply seenAt_of_disjoint hlast
      · intro w hw _
        rw [List.mem_singleton.mp hw, hvalTake]
      · intro w hw hne
        exact absurd (congrArg Prod.fst (List.mem_singleton.mp hw)) hne
    rw [hval] at hseen
    have hfit' : (AsscaOp.read key buf).Fits (t.idxSize pCap).toNat (t.dataSize pCap).toNat :=
      ⟨hkey.ge, hbuf.ge⟩
    refine ⟨[.write key val, .read key buf],
      ⟨⟨hfit, hzero, trivial⟩, ⟨hfit', hzero, val, hlast⟩, trivial⟩,
      ⟨trivial, ?_, trivial⟩, ?_⟩
    · rw [UndisturbedOp, hlast, hseen]
    · rintro ⟨_, outs, -, hdirect, -, hreturned⟩
      obtain ⟨o₁, o₂, rfl, hkeeps⟩ := direct_read_keeps hv hdirect
      have hsame : some val = some (o₂.p2.take (t.dataSize pCap).toNat) :=
        hlast.symm.trans hreturned.1.2
      have hfourth := congrArg (fun l => l[4]?) (Option.some.inj hsame)
      rw [List.getElem?_take, if_pos hlong, hkeeps, List.getElem?_replicate, List.getElem?_replicate,
        if_pos hlong, if_pos hlong] at hfourth
      exact absurd (Option.some.inj hfourth) (by decide)

end Unserved

/-- Nothing is in range, or the sizes are served: then every sequence in which no value is disturbed
has the same values on both paths, and otherwise not every one has. Where the sizes are served the
results of both paths are the same for every sequence, and the last values just when these are not
disturbed; in a static array they never are. -/
theorem valuesAgree_iff {env₀ env₁ : Env} {f₀ f f₁ : MemFunction} {calls : FuncCalls}
    {entries : Registry} {minor : ℕ} (hadv : Advertised t pCap)
    (hcreate : t.create env₀ f₀ pCap = (amRetGood, f)) (hlink : link.target = f)
    (hvirtd : amVirtdCreateFunction env₁ entries minor pCap ⟨f₁, some calls⟩ = .ok (amRetGood, v)) :
    ((∀ ops, ProperFor t pCap ops → UndisturbedFor t pCap ops →
        ValuesAgree t pCap env stale handle link v ops) ↔
      (∀ i, ¬ t.InRange pCap i) ∨ SizesServed t pCap) ∧
    (SizesServed t pCap → ∀ ops, ProperFor t pCap ops →
      (∃ outs, overPackets env stale handle link ops = .ok outs ∧ direct env v ops = .ok outs) ∧
      (ValuesAgree t pCap env stale handle link v ops ↔ UndisturbedFor t pCap ops)) ∧
    (t = .stata → ∀ ops, ProperFor t pCap ops → UndisturbedFor t pCap ops) := by
  have hf : OnTarget t pCap link.target := hlink ▸ onTarget_of_create hcreate
  have hv : OnVirtd t pCap v := onVirtd_of_create hadv.type hvirtd
  refine ⟨⟨?_, ?_⟩, ?_, ?_⟩
  · intro hall
    by_contra hnot
    obtain ⟨hsome, hs⟩ := not_or.mp hnot
    obtain ⟨i, hin⟩ := not_forall_not.mp hsome
    obtain ⟨ops, hp, hu, hfail⟩ := exists_not_valuesAgree hadv hs hv hin
    exact hfail (hall ops hp hu)
  · rintro (hnone | hs) ops hp hu
    · cases ops with
      | nil => exact ⟨[], [], rfl, rfl, rfl, rfl⟩
      | cons op ops => exact absurd hp.1.2.1 (hnone _)
    · exact (valuesAgree_of_served hadv hs hf hv hp).mpr hu
  · intro hs ops hp
    obtain ⟨outs, hpackets, hdirect, -⟩ := results_of_served hadv hs hf hv hp
    exact ⟨⟨outs, hpackets, hdirect⟩, valuesAgree_of_served hadv hs hf hv hp⟩
  · rintro rfl ops hp
    exact undisturbed_stata (fun w hw => absurd hw List.not_mem_nil) hp

def arrayCap (idxSize dataSize : UInt32) : AmMemCap :=
  { stataCaps with maxSize := 16, typeSpecific := typeSpecifics [idxSize, 1, dataSize, 1] }

def memoryCap (addSize : UInt32) : AmMemCap :=
  { flatCaps with maxSize := 16, typeSpecific := typeSpecifics [addSize] }

def newLink (t : CellType) (pCap : AmMemCap) : NetLink MemFunction :=
  ⟨.zero, .zero, .zero, .zero, (t.create .zeroed (.blank 0xAA01) pCap).2⟩

/-- An array of values of four bytes, with an element that is written twice and read. -/
theorem valuesAgree_four : ∃ v,
    amVirtdCreateFunction .zeroed targetRegistry 0 (arrayCap 4 4)
        ⟨.blank 0, some ⟨none, none, none, none, none⟩⟩ = .ok (amRetGood, v) ∧
      ValuesAgree .stata (arrayCap 4 4) .zeroed 0 0xAA01 (newLink .stata (arrayCap 4 4)) v
        [.write [3, 0, 0, 0] [1, 2, 3, 4], .write [3, 0, 0, 0] [5, 6, 7, 8],
          .read [3, 0, 0, 0] [0, 0, 0, 0]] := by
  have hadv : Advertised .stata (arrayCap 4 4) :=
    ⟨by decide, by decide, by decide, by decide⟩
  have hcreate : CellType.stata.create .zeroed (.blank 0xAA01) (arrayCap 4 4) =
      (amRetGood, (newLink .stata (arrayCap 4 4)).target) := rfl
  have hvirtd : ∃ v, amVirtdCreateFunction .zeroed targetRegistry 0 (arrayCap 4 4)
      ⟨.blank 0, some ⟨none, none, none, none, none⟩⟩ = .ok (amRetGood, v) := ⟨_, rfl⟩
  have hserved : SizesServed .stata (arrayCap 4 4) := ⟨.inl (by decide), by decide⟩
  have hin : CellType.stata.InRange (arrayCap 4 4) (leVal [3, 0, 0, 0]) := by
    change leVal [3, 0, 0, 0] < 16
    decide
  have hproper : ProperFor .stata (arrayCap 4 4) [.write [3, 0, 0, 0] [1, 2, 3, 4],
      .write [3, 0, 0, 0] [5, 6, 7, 8], .read [3, 0, 0, 0] [0, 0, 0, 0]] :=
    ⟨⟨⟨by decide, by decide⟩, hin, trivial⟩, ⟨⟨by decide, by decide⟩, hin, trivial⟩,
      ⟨⟨by decide, by decide⟩, hin, _, rfl⟩, trivial⟩
  have hapart := undisturbed_stata (fun w hw => absurd hw List.not_mem_nil) hproper
  obtain ⟨v, hv⟩ := hvirtd
  exact ⟨v, hv, (valuesAgree_iff hadv hcreate rfl hv).1.mpr (.inr hserved) _ hproper hapart⟩

/-- An array of values of eight bytes returns four of them; and in a flat memory a write two bytes
further on reaches into the value. -/
theorem not_valuesAgree :
    (∃ ops, ProperFor .stata (arrayCap 4 8) ops ∧ ∀ v,
      amVirtdCreateFunction .zeroed targetRegistry 0 (arrayCap 4 8)
        ⟨.blank 0, some ⟨none, none, none, none, none⟩⟩ = .ok (amRetGood, v) →
      ¬ ValuesAgree .stata (arrayCap 4 8) .zeroed 0 0xAA01 (newLink .stata (arrayCap 4 8)) v ops) ∧
    ∃ ops, ProperFor .flat (memoryCap 4) ops ∧ ∀ v,
      amVirtdCreateFunction .zeroed targetRegistry 0 (memoryCap 4)
        ⟨.blank 0, some ⟨none, none, none, none, none⟩⟩ = .ok (amRetGood, v) →
      ¬ ValuesAgree .flat (memoryCap 4) .zeroed 0 0xAA01 (newLink .flat (memoryCap 4)) v ops := by
  constructor
  · have hin : CellType.stata.InRange (arrayCap 4 8) (leVal [3, 0, 0, 0]) := by
      change leVal [3, 0, 0, 0] < 16
      decide
    refine ⟨[.write [3, 0, 0, 0] [1, 2, 3, 4, 5, 6, 7, 8],
      .read [3, 0, 0, 0] [0, 0, 0, 0, 0, 0, 0, 0]],
      ⟨⟨⟨by decide, by decide⟩, hin, trivial⟩, ⟨⟨by decide, by decide⟩, hin, _, rfl⟩, trivial⟩, ?_⟩
    rintro v hv ⟨_, outs, -, hdirect, -, hlast⟩
    have hon : OnVirtd .stata (arrayCap 4 8) v := onVirtd_of_create rfl hv
    obtain ⟨o₁, o₂, rfl, hkeeps⟩ := direct_read_keeps hon hdirect
    have hvalue : some [1, 2, 3, 4, 5, 6, 7, 8] = some (o₂.p2.take 8) := hlast.1.2
    have hfourth := congrArg (fun l => l[4]?) (Option.some.inj hvalue)
    rw [List.getElem?_take, if_pos (by decide), hkeeps] at hfourth
    exact absurd (Option.some.inj hfourth) (by decide)
  · have hin : ∀ key : List UInt8, leVal key ≤ 12 →
        CellType.flat.InRange (memoryCap 4) (leVal key) :=
      fun key hle => Nat.add_le_add_right hle 4
    have hadv : Advertised .flat (memoryCap 4) :=
      ⟨by decide, by decide, by decide, by decide⟩
    have hcreate : CellType.flat.create .zeroed (.blank 0xAA01) (memoryCap 4) =
        (amRetGood, (newLink .flat (memoryCap 4)).target) := rfl
    have hserved : SizesServed .flat (memoryCap 4) := ⟨.inl (by decide), by decide⟩
    have hproper : ProperFor .flat (memoryCap 4) [.write [0, 0, 0, 0] [1, 2, 3, 4],
        .write [2, 0, 0, 0] [5, 6, 7, 8], .read [0, 0, 0, 0] [0, 0, 0, 0]] :=
      ⟨⟨⟨by decide, by decide⟩, hin _ (by decide), trivial⟩,
        ⟨⟨by decide, by decide⟩, hin _ (by decide), trivial⟩,
        ⟨⟨by decide, by decide⟩, hin _ (by decide), _, rfl⟩, trivial⟩
    refine ⟨_, hproper, fun v hv hagree => ?_⟩
    have hundisturbed := (valuesAgree_of_served hadv hserved (onTarget_of_create hcreate)
      (onVirtd_of_create rfl hv) hproper).mp hagree
    have hseen : some ([1, 2, 3, 4] : List UInt8) = some [1, 2, 5, 6] := hundisturbed.2.2.1
    exact absurd hseen (by decide)

end Agreement

end AppMem.Cells
