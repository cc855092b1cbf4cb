import AppMem.Cells.Paths

/-! # Cells over any path

In either build, and over every transport that delivers, the accessors of a flat memory or a
static array work on its storage, as long as there are four bytes to copy. This covers the driver
before and after a function is mapped, packets to the target, and packets on the mapped page.
-/
namespace AppMem.Cells
open Library.Bytes Library.Checked Library.Cells Abi Memory Pack Device Assca

section Copies
variable {b : Build} {flags : UInt32} {data uaddr : List UInt8} {off : ℕ}

theorem cellToUser_of_room (h : 4 ≤ uaddr.length) (hin : off + 4 ≤ data.length) :
    cellToUser b flags data off uaddr = .ok (window data off 4) := by
  have hcell : 4 ≤ (data.drop off).length := by
    rw [List.length_drop]
    omega
  have hroom : (b.direct flags || decide (4 ≤ uaddr.length)) = true := by
    rw [decide_eq_true h, Bool.or_true]
  rw [cellToUser, put32ToUser, readBytes_of_le hcell, ok_bind, if_pos hroom]
  rfl

theorem cellFromUser_of_room (h : 4 ≤ uaddr.length) (hin : off + 4 ≤ data.length) :
    cellFromUser b flags data off uaddr = .ok (splice data off (uaddr.take 4)) := by
  have hget : get32FromUser b flags uaddr = .ok (uaddr.take 4) := by
    rw [get32FromUser, readBytes_of_le h, if_pos h]
    split
    · rfl
    · rfl
  rw [cellFromUser, hget, ok_bind, require_of_true _ hin]
  rfl

end Copies

section Accessors
variable {b : Build} {env : Env} {t : CellType} {f : MemFunction} {mem p1 p2 : List UInt8}

theorem readAl_of_room (hf : t.storage f = some mem) (h1 : 4 ≤ p1.length) (h2 : 4 ≤ p2.length)
    (hin : t.cell (u32OfBytes p1).toNat + 4 ≤ mem.length) :
    invokeDevice b env t.readAl (.align p1 p2) f = .ok (f, {
      error := amRetGood
      out := window mem (t.cell (u32OfBytes p1).toNat) 4 }) := by
  cases t with
  | flat =>
    obtain ⟨fd, hfd, rfl⟩ := storage_flat.mp hf
    refine flatAccess_eq_ok.mpr ⟨fd, fd, hfd, ?_, by rw [← hfd]⟩
    have hcell : cellToUser b fd.flags fd.data (CellType.flat.cell (u32OfBytes p1).toNat) p2 = _ :=
      cellToUser_of_room h2 hin
    rw [readU32_of_le h1, ok_bind]
    exact congrArg (· >>= _) hcell
  | stata =>
    obtain ⟨fd, hfd, rfl⟩ := storage_stata.mp hf
    refine stataAccess_eq_ok.mpr ⟨fd, fd, hfd, ?_, by rw [← hfd]⟩
    have hcell : cellToUser b fd.flags fd.data (CellType.stata.cell (u32OfBytes p1).toNat) p2 = _ :=
      cellToUser_of_room h2 hin
    rw [readU32_of_le h1, ok_bind]
    exact congrArg (· >>= _) hcell

theorem writeAl_of_room (hf : t.storage f = some mem) (h1 : 4 ≤ p1.length) (h2 : 4 ≤ p2.length)
    (hin : t.cell (u32OfBytes p1).toNat + 4 ≤ mem.length) :
    invokeDevice b env t.writeAl (.align p1 p2) f =
      .ok (t.setStorage f (splice mem (t.cell (u32OfBytes p1).toNat) (p2.take 4)),
        { error := amRetGood }) := by
  cases t with
  | flat =>
    obtain ⟨fd, hfd, rfl⟩ := storage_flat.mp hf
    have hcell : cellFromUser b fd.flags fd.data (CellType.flat.cell (u32OfBytes p1).toNat) p2 = _ :=
      cellFromUser_of_room h2 hin
    refine flatAccess_eq_ok.mpr ⟨fd, _, hfd, ?_, setStorage_flat hfd⟩
    rw [readU32_of_le h1, ok_bind]
    exact congrArg (· >>= _) hcell
  | stata =>
    obtain ⟨fd, hfd, rfl⟩ := storage_stata.mp hf
    have hcell : cellFromUser b fd.flags fd.data (CellType.stata.cell (u32OfBytes p1).toNat) p2 = _ :=
      cellFromUser_of_room h2 hin
    refine stataAccess_eq_ok.mpr ⟨fd, _, hfd, ?_, setStorage_stata hfd⟩
    rw [readU32_of_le h1, ok_bind]
    exact congrArg (· >>= _) hcell

end Accessors

section Packets
variable {b : Build} {env : Env} {stale : UInt32} {t : CellType} {pCap : AmMemCap} {σ : Type}
  {ac : PackAc σ} {view : σ → MemFunction} {s : σ} {r : CrResp} {mem p1 p2 : List UInt8}

/-- A client with a function at the other end of a transport, and the storage of the function. -/
def PathHolds (t : CellType) (pCap : AmMemCap) (view : σ → MemFunction) (r : CrResp) (s : σ)
    (mem : List UInt8) : Prop :=
  OnTarget t pCap (view s) ∧ (view s).crResp = r ∧ t.storage (view s) = some mem ∧
    mem.length = (t.size pCap).toNat

theorem anyStep_write (handle : UInt32) (D : Delivers ac (serveDevice b env stale) view)
    (hadv : Advertised t pCap) (hs : SizesServed t pCap) (hl : PathHolds t pCap view r s mem)
    (hop : (AsscaOp.write p1 p2).Fits (t.idxSize pCap).toNat (t.dataSize pCap).toNat)
    (hin : t.InRange pCap (leVal (p1.take (t.idxSize pCap).toNat))) :
    (packetStep ac ⟨handle, r⟩ s (.write p1 p2)).map (Prod.map view id) =
      .ok (t.setStorage (view s) (splice mem (t.cell (u32OfBytes p1).toNat) (p2.take 4)),
        ⟨amRetGood, p2⟩) := by
  obtain ⟨hf, rfl, hmem, hlen⟩ := hl
  obtain ⟨hidx, hidx8, hdata⟩ := served_toNat hs
  obtain ⟨-, hroom⟩ := cell_place hadv hs hop.1 hin hlen
  have hbody : 12 ≤ bodySize := by decide
  have hpack := served_fits hs
  rw [← hf.idxSize, ← hf.dataSize] at hpack hop
  obtain ⟨txSize, hlo, hhi, hstep⟩ := packetStep_write_eq ac ⟨handle, (view s).crResp⟩ hf.acWrite
    hpack s p1 p2
  have hserved : ∀ body : List UInt8, body.length = bodySize →
      body.take (view s).crResp.idxSize.toNat = p1.take (view s).crResp.idxSize.toNat →
      (body.drop (view s).crResp.idxSize.toNat).take (view s).crResp.dataSize.toNat =
        p2.take (view s).crResp.dataSize.toNat →
      invokeDevice b env t.writeAl (.align body (body.drop (view s).crResp.idxSize.toNat))
          (view s) =
        (Except.ok (t.setStorage (view s)
          (splice mem (t.cell (u32OfBytes p1).toNat) (p2.take 4)))).map
          fun g => (g, { error := amRetGood }) := by
    intro body hb hkey hval
    rw [hf.idxSize] at hkey hval ⊢
    rw [hf.dataSize, hdata] at hval
    have hsame : u32OfBytes body = u32OfBytes p1 := u32OfBytes_congr hidx hkey
    have h1 : 4 ≤ body.length := by omega
    have h2 : 4 ≤ (body.drop (t.idxSize pCap).toNat).length := by
      rw [List.length_drop]
      omega
    rw [← hsame] at hroom
    rw [writeAl_of_room hmem h1 h2 hroom, hsame, hval]
    rfl
  rw [hstep, packWriteWith_of_handler D hf.writeOp rfl txSize hlo hhi hop.1 hop.2 hserved]
  rfl

theorem anyStep_read (handle : UInt32) (D : Delivers ac (serveDevice b env stale) view)
    (hadv : Advertised t pCap) (hs : SizesServed t pCap) (hl : PathHolds t pCap view r s mem)
    (hop : (AsscaOp.read p1 p2).Fits (t.idxSize pCap).toNat (t.dataSize pCap).toNat)
    (hin : t.InRange pCap (leVal (p1.take (t.idxSize pCap).toNat))) :
    (packetStep ac ⟨handle, r⟩ s (.read p1 p2)).map (Prod.map view id) =
      .ok (view s, ⟨amRetGood, splice p2 0 (window mem (t.cell (u32OfBytes p1).toNat) 4)⟩) := by
  obtain ⟨hf, rfl, hmem, hlen⟩ := hl
  obtain ⟨hidx, hidx8, hdata⟩ := served_toNat hs
  obtain ⟨-, hroom⟩ := cell_place hadv hs hop.1 hin hlen
  have hbody : 12 ≤ bodySize := by decide
  have hpack := served_fits hs
  have hout : (window mem (t.cell (u32OfBytes p1).toNat) 4).length ≤ p2.length := by
    rw [length_window hroom, ← hdata]
    exact hop.2
  rw [← hf.idxSize, ← hf.dataSize] at hpack hop
  obtain ⟨txSize, short, hlo, hhi, hstep⟩ := packetStep_read_eq ac ⟨handle, (view s).crResp⟩
    hf.acRead hpack s p1 p2
  have hserved : ∀ body answer : List UInt8, body.length = bodySize → answer.length = bodySize →
      body.take (view s).crResp.idxSize.toNat = p1.take (view s).crResp.idxSize.toNat →
      invokeDevice b env t.readAl (.align body answer) (view s) = .ok (view s, {
        error := amRetGood
        out := window mem (t.cell (u32OfBytes p1).toNat) 4 }) := by
    intro body answer hb ha hkey
    rw [hf.idxSize] at hkey
    have hsame : u32OfBytes body = u32OfBytes p1 := u32OfBytes_congr hidx hkey
    rw [← hsame] at hroom ⊢
    exact readAl_of_room hmem (by omega) (by omega) hroom
  have hwhole : ∀ g v, (Except.ok (view s, ({
        error := amRetGood
        out := window mem (t.cell (u32OfBytes p1).toNat) 4 } : Served)) : Exec _) = .ok (g, v) →
      (v.error ≠ amRetGood ∧ v.out = []) ∨
        (v.error = amRetGood ∧ v.out.length = (view s).crResp.dataSize.toNat) := by
    intro g v h
    cases h
    rw [hf.dataSize, hdata]
    exact .inr ⟨rfl, length_window hroom⟩
  have hfit : sizeofWrapper + (view s).crResp.dataSize.toNat ≤ maxBasicPackUnionSize := by omega
  rw [hstep, packReadWith_of_handler D hf.readOp rfl txSize short p2 hlo hhi hfit hop.1 hserved
    hwhole, ok_bind, writeBytes_of_le hout]
  rfl

/-- Over every transport that delivers. -/
theorem anyPath_works (handle : UInt32) (D : Delivers ac (serveDevice b env stale) view)
    (hadv : Advertised t pCap) (hs : SizesServed t pCap) :
    WorksOn (packetStep ac ⟨handle, r⟩) (t.idxSize pCap).toNat (t.dataSize pCap).toNat
      (t.valueAt (t.dataSize pCap).toNat) (t.InRange pCap) (PathHolds t pCap view r) := by
  obtain ⟨-, -, hdata⟩ := served_toNat hs
  constructor
  · intro s mem i hl hin
    rw [hl.2.2.2]
    exact valueAt_le hadv hin
  · intro s mem p1 p2 hl hop hin
    obtain ⟨hcell, hroom⟩ := cell_place hadv hs hop.1 hin hl.2.2.2
    have hval : (p2.take 4).length = 4 := List.length_take_of_le (hdata ▸ hop.2)
    obtain ⟨⟨s', o⟩, hstep, hview⟩ := except_map_eq_ok.mp (anyStep_write handle D hadv hs hl hop hin)
    obtain ⟨hf, hr, hmem, hlen⟩ := hl
    have hlen' : (splice mem (t.cell (u32OfBytes p1).toNat) (p2.take 4)).length =
        (t.size pCap).toNat := by
      rw [length_splice (by rw [hval]; exact hroom), hlen]
    rw [hcell, ← hdata] at hview hlen'
    obtain ⟨ht, rfl⟩ := Prod.mk.inj hview
    have ht' : view s' = _ := ht
    refine ⟨s', hstep, ?_⟩
    rw [PathHolds, ht']
    exact ⟨hf.setStorage hlen', (setStorage_same t _ _).1.trans hr, storage_setStorage hmem, hlen'⟩
  · intro s mem p1 p2 hl hop hin
    obtain ⟨hcell, hroom⟩ := cell_place hadv hs hop.1 hin hl.2.2.2
    obtain ⟨⟨s', o⟩, hstep, hview⟩ := except_map_eq_ok.mp (anyStep_read handle D hadv hs hl hop hin)
    rw [hcell, ← hdata] at hview
    obtain ⟨ht, rfl⟩ := Prod.mk.inj hview
    have ht' : view s' = view s := ht
    refine ⟨s', hstep, ?_⟩
    rw [PathHolds, ht']
    exact hl

end Packets

section Network
variable {env : Env} {stale handle : UInt32} {t : CellType} {pCap : AmMemCap} {r : CrResp}

def TargetHolds (t : CellType) (pCap : AmMemCap) (r : CrResp) (link : NetLink MemFunction)
    (mem : List UInt8) : Prop :=
  OnTarget t pCap link.target ∧ link.target.crResp = r ∧ t.storage link.target = some mem ∧
    mem.length = (t.size pCap).toNat

theorem packetStep_works (hadv : Advertised t pCap) (hs : SizesServed t pCap) :
    WorksOn (packetStep (netPackAc (serveDevice .user env stale)) ⟨handle, r⟩)
      (t.idxSize pCap).toNat (t.dataSize pCap).toNat (t.valueAt (t.dataSize pCap).toNat)
      (t.InRange pCap) (TargetHolds t pCap r) :=
  anyPath_works handle (netPackAc_delivers _) hadv hs

end Network

end AppMem.Cells
