import AppMem.Device.Registry

/-! # The sizes of kernel packets

`am_create_assca_device` counts the words of a packet in fields of eight bits: the words of the key,
of the value and of the operation, then quadwords. The capability it is registered with lets
values of a mebibyte through.
-/
namespace AppMem.Device
open Library.Bytes Abi Memory

section Words
variable (keySize dataSize : UInt32)

def wordsOf (n : ℕ) : ℕ := (n + 3) / 4

def packetWords (keySize dataSize : UInt32) : ℕ :=
  1 + wordsOf keySize.toNat + wordsOf dataSize.toNat

def sizeSteps (keySize dataSize : UInt32) : List ℕ :=
  [keySize.toNat / 4, wordsOf keySize.toNat, wordsOf keySize.toNat + dataSize.toNat / 4,
    wordsOf keySize.toNat + wordsOf dataSize.toNat, packetWords keySize dataSize,
    1 + packetWords keySize dataSize / 2, 3 + wordsOf keySize.toNat,
    1 + (3 + wordsOf keySize.toNat) / 2]

theorem toNat_packDataOffset : (packDataOffset keySize).toNat = wordsOf keySize.toNat % 256 := by
  have hmod : keySize % 4 ≠ 0 ↔ keySize.toNat % 4 ≠ 0 := by
    rw [ne_eq, ← UInt32.toNat_inj, UInt32.toNat_mod]
    rfl
  have hdiv : (keySize / 4).toUInt8.toNat = keySize.toNat / 4 % 256 := by
    rw [UInt32.toNat_toUInt8, UInt32.toNat_div]
    rfl
  unfold packDataOffset wordsOf
  dsimp only
  by_cases h : keySize % 4 ≠ 0
  · have hrem := hmod.mp h
    rw [if_pos h, UInt8.toNat_add, hdiv]
    simp only [UInt8.reduceToNat]
    omega
  · have hrem := mt hmod.mpr h
    rw [if_neg h, hdiv]
    omega

theorem toNat_qwords (words : UInt8) : (qwords words).toNat = (words.toNat + 1) / 2 := by
  have hlt : words.toNat < 256 := words.toNat_lt
  have hmod : words % 2 ≠ 0 ↔ words.toNat % 2 ≠ 0 := by
    rw [ne_eq, ← UInt8.toNat_inj, UInt8.toNat_mod]
    rfl
  unfold qwords
  by_cases h : words % 2 ≠ 0
  · have hrem := hmod.mp h
    rw [if_pos h, UInt8.toNat_add, UInt8.toNat_div]
    simp only [UInt8.reduceToNat]
    omega
  · have hrem := mt hmod.mpr h
    rw [if_neg h, UInt8.toNat_div]
    simp only [UInt8.reduceToNat]
    omega

theorem toNat_wrPackQwordSize : (wrPackQwordSize keySize dataSize).toNat =
    (packetWords keySize dataSize % 256 + 1) / 2 := by
  have hoff := toNat_packDataOffset keySize
  have hmod : dataSize % 4 ≠ 0 ↔ dataSize.toNat % 4 ≠ 0 := by
    rw [ne_eq, ← UInt32.toNat_inj, UInt32.toNat_mod]
    rfl
  have hdiv : (dataSize / 4).toUInt8.toNat = dataSize.toNat / 4 % 256 := by
    rw [UInt32.toNat_toUInt8, UInt32.toNat_div]
    rfl
  unfold wrPackQwordSize packetWords
  dsimp only
  rw [toNat_qwords, UInt8.toNat_add]
  unfold wordsOf at hoff ⊢
  by_cases h : dataSize % 4 ≠ 0
  · have hrem := hmod.mp h
    rw [if_pos h, UInt8.toNat_add, UInt8.toNat_add, hdiv, hoff]
    simp only [UInt8.reduceToNat]
    omega
  · have hrem := mt hmod.mpr h
    rw [if_neg h, UInt8.toNat_add, hdiv, hoff]
    simp only [UInt8.reduceToNat]
    omega

theorem toNat_rdPackQwordSize : (rdPackQwordSize keySize).toNat =
    ((3 + wordsOf keySize.toNat) % 256 + 1) / 2 := by
  have hoff := toNat_packDataOffset keySize
  rw [rdPackQwordSize, toNat_qwords, UInt8.toNat_add, UInt8.toNat_add, UInt8.toNat_add, hoff]
  simp only [UInt8.reduceToNat]
  omega

/-- Where the number of words wraps around, the field does not count them. -/
theorem wrPackQwordSize_exact_iff : (wrPackQwordSize keySize dataSize).toNat =
    (packetWords keySize dataSize + 1) / 2 ↔ packetWords keySize dataSize < 256 := by
  rw [toNat_wrPackQwordSize]
  omega

end Words

section Announcement

theorem u32OfBytes_append (v : UInt32) (rest : List UInt8) :
    u32OfBytes (u32Bytes v ++ rest) = v := by
  have htake : (u32Bytes v ++ rest).take 4 = (u32Bytes v).take 4 := by
    rw [List.take_append_of_le_length (length_u32Bytes v).ge]
  rw [u32OfBytes, htake]
  exact u32OfBytes_u32Bytes v

theorem announced_sizes (r : CrResp) (tail : List UInt8) {l : List UInt8}
    (hl : l = nameBytes r.amName ++ u32Bytes r.devt ++ u32Bytes r.flags ++
      leBytes 8 r.globalId.toNat ++ (List.ofFn r.ops).flatMap u32Bytes ++
      (List.ofFn r.acOps).flatMap u32Bytes ++ u32Bytes r.dataSize ++ u32Bytes r.idxSize ++ tail) :
    u32OfBytes (l.drop 344) = r.dataSize ∧ u32OfBytes (l.drop 348) = r.idxSize ∧
      l.drop 352 = tail := by
  let front := nameBytes r.amName ++ u32Bytes r.devt ++ u32Bytes r.flags ++
    leBytes 8 r.globalId.toNat ++ (List.ofFn r.ops).flatMap u32Bytes ++
    (List.ofFn r.acOps).flatMap u32Bytes
  have hfront : front.length = 344 := by
    have hops : (List.ofFn r.ops).length = 64 := List.length_ofFn
    simp only [front, List.length_append, length_nameBytes, length_u32Bytes, length_leBytes,
      length_words, hops, List.length_ofFn]
  have hsplit : l = front ++ (u32Bytes r.dataSize ++ (u32Bytes r.idxSize ++ tail)) := by
    rw [hl]
    simp only [front, List.append_assoc]
  have hdata : l.drop 344 = u32Bytes r.dataSize ++ (u32Bytes r.idxSize ++ tail) := by
    rw [hsplit, List.drop_left' hfront]
  have hidx : l.drop 348 = u32Bytes r.idxSize ++ tail := by
    have hdrop : l.drop 348 = (l.drop 344).drop 4 := by rw [List.drop_drop]
    rw [hdrop, hdata, List.drop_left' (length_u32Bytes _)]
  have htail : l.drop 352 = tail := by
    have hdrop : l.drop 352 = (l.drop 348).drop 4 := by rw [List.drop_drop]
    rw [hdrop, hidx, List.drop_left' (length_u32Bytes _)]
  refine ⟨?_, ?_, htail⟩
  · rw [hdata, u32OfBytes_append]
  · rw [hidx, u32OfBytes_append]

end Announcement

section Creation
variable {env : Env} {f : MemFunction} {pCap : AmMemCap} {keySize dataSize : UInt32}

/-- The sizes lie in the range that `assca_caps` advertises. -/
def Advertised (keySize dataSize : UInt32) : Prop :=
  1 ≤ keySize.toNat ∧ keySize.toNat ≤ (asscaCaps.typeSpecific tsAsscaKeyMaxSize).toNat ∧
    1 ≤ dataSize.toNat ∧ dataSize.toNat ≤ (asscaCaps.typeSpecific tsAsscaDataMaxSize).toNat

instance (keySize dataSize : UInt32) : Decidable (Advertised keySize dataSize) :=
  inferInstanceAs (Decidable (_ ∧ _ ∧ _ ∧ _))

/-- The fields of the announcement count the words and quadwords of packets, and nothing wraps
around on the way. -/
structure SizesExact (r : CrResp) (keySize dataSize : UInt32) : Prop where
  packDataOffset : r.packDataOffset.toNat = wordsOf keySize.toNat
  wrPackQwordSize : r.wrPackQwordSize.toNat = (packetWords keySize dataSize + 1) / 2
  rdPackQwordSize : r.rdPackQwordSize.toNat = (3 + wordsOf keySize.toNat + 1) / 2
  steps : ∀ n ∈ sizeSteps keySize dataSize, n < 256

/-- An array that is created announces exact sizes. -/
def CreatesExact (env : Env) (f : MemFunction) (pCap : AmMemCap) (keySize dataSize : UInt32) :
    Prop :=
  ∀ g, amCreateAsscaDevice env f pCap = (amRetGood, g) → SizesExact g.crResp keySize dataSize

theorem amCreateAsscaDevice_good_iff (ht : pCap.amType = amTypeAssocArray) {g : MemFunction} :
    amCreateAsscaDevice env f pCap = (amRetGood, g) ↔
      (env.alloc .funcData = true ∧ env.alloc .assca = true) ∧ g = asscaDevice env f pCap := by
  have hne : amRetAllocErr ≠ amRetGood := by decide
  unfold amCreateAsscaDevice
  by_cases hfd : env.alloc .funcData = true
  · rw [if_pos ⟨hfd, ht⟩]
    by_cases ha : env.alloc .assca = true
    · simp [ha, hfd, eq_comm]
    · simp [ha, hne]
  · rw [if_neg (fun h => hfd h.1)]
    simp [hfd, hne]

/-- The fields are exact as long as a write packet has fewer than 256 words. -/
theorem sizesExact_iff (env : Env) (f : MemFunction) (hk : pCap.typeSpecific tsAsscaKeyMaxSize = keySize)
    (hd : pCap.typeSpecific tsAsscaDataMaxSize = dataSize) (hadv : Advertised keySize dataSize) :
    SizesExact (asscaDevice env f pCap).crResp keySize dataSize ↔
      packetWords keySize dataSize < 256 := by
  have hoff : (asscaDevice env f pCap).crResp.packDataOffset = packDataOffset keySize := by
    rw [← hk]
    rfl
  have hwr : (asscaDevice env f pCap).crResp.wrPackQwordSize = wrPackQwordSize keySize dataSize := by
    rw [← hk, ← hd]
    rfl
  have hrd : (asscaDevice env f pCap).crResp.rdPackQwordSize = rdPackQwordSize keySize := by
    rw [← hk]
    rfl
  have hmax : (asscaCaps.typeSpecific tsAsscaKeyMaxSize).toNat = 512 := by decide
  have hkey : keySize.toNat ≤ 512 := hmax ▸ hadv.2.1
  have hwords : wordsOf keySize.toNat ≤ 128 := by
    unfold wordsOf
    omega
  constructor
  · intro h
    rw [← wrPackQwordSize_exact_iff, ← hwr]
    exact h.wrPackQwordSize
  · intro h
    constructor
    · rw [hoff, toNat_packDataOffset]
      omega
    · rw [hwr, toNat_wrPackQwordSize, Nat.mod_eq_of_lt h]
    · rw [hrd, toNat_rdPackQwordSize]
      omega
    · intro n hn
      have hdata : dataSize.toNat / 4 ≤ wordsOf dataSize.toNat := by
        unfold wordsOf
        omega
      have hkdiv : keySize.toNat / 4 ≤ 128 := by omega
      simp only [sizeSteps, List.mem_cons, List.not_mem_nil, or_false] at hn
      unfold packetWords at h hn
      omega

/-- Creation is refused, or the sizes it announces are exact, just when a write packet has fewer
than 256 words or there is no memory. -/
theorem createsExact_iff (env : Env) (f : MemFunction) (ht : pCap.amType = amTypeAssocArray)
    (hk : pCap.typeSpecific tsAsscaKeyMaxSize = keySize)
    (hd : pCap.typeSpecific tsAsscaDataMaxSize = dataSize) (hadv : Advertised keySize dataSize) :
    CreatesExact env f pCap keySize dataSize ↔
      ¬ (env.alloc .funcData = true ∧ env.alloc .assca = true) ∨
        packetWords keySize dataSize < 256 := by
  rw [← sizesExact_iff env f hk hd hadv]
  by_cases hm : env.alloc .funcData = true ∧ env.alloc .assca = true
  · rw [or_iff_right (not_not.mpr hm)]
    constructor
    · intro h
      exact h _ ((amCreateAsscaDevice_good_iff ht).mpr ⟨hm, rfl⟩)
    · intro h g hg
      rw [((amCreateAsscaDevice_good_iff ht).mp hg).2]
      exact h
  · refine iff_of_true ?_ (.inl hm)
    intro g hg
    exact absurd ((amCreateAsscaDevice_good_iff ht).mp hg).1 hm

def largestCap : AmMemCap where
  amType := amTypeAssocArray
  maxSize := 1024
  subType := 0
  functionCount := 0
  accessFlags := 0
  typeSpecific := typeSpecifics [512, 1048576, 1, 1]
  acOps := fun _ => 0

theorem createsExact_iff_largest :
    CreatesExact .zeroed (.blank 0) largestCap 512 1048576 ↔
      ¬ (Env.zeroed.alloc .funcData = true ∧ Env.zeroed.alloc .assca = true) ∨
        packetWords 512 1048576 < 256 :=
  createsExact_iff .zeroed (.blank 0) rfl (by decide) (by decide) (by decide)

/-- A key of four bytes and a value of 1016 need 256 words, which the field takes for none. -/
theorem not_createsExact : ¬ ∀ (env : Env) (f : MemFunction) (pCap : AmMemCap)
    (keySize dataSize : UInt32), pCap.amType = amTypeAssocArray →
    pCap.typeSpecific tsAsscaKeyMaxSize = keySize →
    pCap.typeSpecific tsAsscaDataMaxSize = dataSize → Advertised keySize dataSize →
    CreatesExact env f pCap keySize dataSize := by
  intro h
  let pCap : AmMemCap := { largestCap with typeSpecific := typeSpecifics [4, 1016, 1, 1] }
  have hexact := h .zeroed (.blank 0) pCap 4 1016 rfl (by decide) (by decide)
    (by decide)
  have hgood : amCreateAsscaDevice .zeroed (.blank 0) pCap =
      (amRetGood, asscaDevice .zeroed (.blank 0) pCap) :=
    (amCreateAsscaDevice_good_iff rfl).mpr ⟨⟨rfl, rfl⟩, rfl⟩
  have hwr := (hexact _ hgood).wrPackQwordSize
  have hzero : (asscaDevice .zeroed (.blank 0) pCap).crResp.wrPackQwordSize.toNat = 0 := by
    decide
  have hwords : (packetWords 4 1016 + 1) / 2 = 128 := by decide
  omega

end Creation

end AppMem.Device
