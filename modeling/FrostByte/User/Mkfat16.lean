import FrostByte.Fat16.Volume

/-!
# Formatting a FAT16 volume

`mkfat16` looks for the size of the file allocation table by iteration, which stops when the size
does not change any more, or after 16 rounds. From the fifth round on a size can only change by one
sector, back and forth.

## Main definitions

* `geometry` — the size of the table and the clusters that the iteration ends with.
* `format` — what is written to the disk.
* `Mountable` — the driver mounts the volume with these clusters.

## Main results

* `fatLoop_ends` — where the iteration ends.
* `mountable_iff` — when a formatted volume can be used.
* `format_small_table` — a table that is too small.
-/

namespace FrostByte.Mkfat16

open Word
open Fat16 (writeSector BootSector)

/-! ## The model -/

/-- The sectors of the volume. -/
def totalSectors (sizeMb : ℕ) : ℕ := w32 (sizeMb * 1024 * 1024) / 512

/-- `cluster_sectors`, which depends on the size when it is not given. -/
def clusterSectors (sizeMb arg : ℕ) : ℕ :=
  if arg = 0 then
    if sizeMb ≤ 16 then 1
    else if sizeMb ≤ 128 then 4
    else if sizeMb ≤ 256 then 8
    else if sizeMb ≤ 512 then 16
    else 32
  else arg

/-- A quotient rounded up. -/
def ceilDiv (a b : ℕ) : ℕ := (a + b - 1) / b

/-- The clusters that a table of some sectors leaves room for. -/
def dataClusters (total cluster sectorsPerFat : ℕ) : ℕ :=
  (if 1 + 2 * sectorsPerFat + 32 < total then total - (1 + 2 * sectorsPerFat + 32) else 0) / cluster

/-- The sectors of the table that these clusters need. -/
def fatSectors (total cluster sectorsPerFat : ℕ) : ℕ :=
  ceilDiv ((dataClusters total cluster sectorsPerFat + 2) * 2) 512

/-- The iteration: the sectors of a table and the number of clusters. -/
def fatLoop (total cluster : ℕ) : ℕ → ℕ → ℕ → ℕ × ℕ
  | 0, sectorsPerFat, clusters => (sectorsPerFat, clusters)
  | n + 1, sectorsPerFat, _ =>
    let clusters := dataClusters total cluster sectorsPerFat
    let new := fatSectors total cluster sectorsPerFat
    if new = sectorsPerFat then (sectorsPerFat, clusters)
    else fatLoop total cluster n (if new = 0 then 1 else new) clusters

/-- `sectors_per_fat` and `data_clusters`. -/
def geometry (sizeMb arg : ℕ) : ℕ × ℕ :=
  fatLoop (totalSectors sizeMb) (clusterSectors sizeMb arg) 16 1 0

/-- The bytes of a 16-bit and of a 32-bit field. -/
def bytes16 (n : ℕ) : List ℕ := [n, n / 256]

/-- A word as four bytes, each still to be cut. -/
@[inherit_doc bytes16]
def bytes32 (n : ℕ) : List ℕ := [n, n / 256, n / 65536, n / 16777216]

/-- The boot sector up to the label. -/
def bootFields (total cluster sectorsPerFat : ℕ) : List ℕ :=
  -- `FROSTBYT`
  [0xEB, 0x3C, 0x90] ++ [70, 82, 79, 83, 84, 66, 89, 84] ++ bytes16 512 ++ [cluster] ++ bytes16 1 ++
    [2] ++ bytes16 512 ++ bytes16 (if total < 65536 then total else 0) ++ [0xF8] ++
    bytes16 sectorsPerFat ++ bytes16 63 ++ bytes16 255 ++ bytes32 0 ++
    bytes32 (if total < 65536 then 0 else total) ++ [0x80, 0, 0x29] ++ bytes32 0x12345678

/-- The boot sector. A label is cut or filled to eleven characters. -/
def bootSector (total cluster sectorsPerFat : ℕ) (label : List ℕ) : Buffer := fun i =>
  if i < 43 then UInt8.ofNat ((bootFields total cluster sectorsPerFat).getD i 0)
  else if i < 54 then UInt8.ofNat (label.getD (i - 43) 32)
  -- `FAT16` and three blanks
  else if i < 62 then UInt8.ofNat ([70, 65, 84, 49, 54, 32, 32, 32].getD (i - 54) 0)
  else if i = 510 then 0x55
  else if i = 511 then 0xAA
  else 0

/-- The first sector of a table. -/
def firstFatSector : Buffer := (Buffer.setHalf (fun _ => 0) 0 0xFFF8).setHalf 2 0xFFFF

/-- Some sectors are cleared. -/
def zeroSectors (disk : Buffer) (start count : ℕ) : Buffer :=
  (List.range count).foldl (fun disk i => writeSector disk (start + i) fun _ => 0) disk

/-- One copy of the table. -/
def writeFat (sectorsPerFat : ℕ) (disk : Buffer) (fatNum : ℕ) : Buffer :=
  let fatSector := 1 + fatNum * sectorsPerFat
  zeroSectors (writeSector disk fatSector firstFatSector) (fatSector + 1) (sectorsPerFat - 1)

/-- `format_fat16`: the device afterwards, or `none` for -1. -/
def format (disk : Buffer) (sizeMb : ℕ) (label : List ℕ) (arg : ℕ) (memory : Bool) :
    Option Buffer :=
  let total := totalSectors sizeMb
  let cluster := clusterSectors sizeMb arg
  let sectorsPerFat := (geometry sizeMb arg).1
  let clusters := (geometry sizeMb arg).2
  if clusters < 4085 ∨ 65525 ≤ clusters ∨ memory = false then none
  else
    let disk := writeSector disk 0 (bootSector total cluster sectorsPerFat label)
    let disk := (List.range 2).foldl (writeFat sectorsPerFat) disk
    some (zeroSectors disk (1 + 2 * sectorsPerFat) 32)

/-- The driver accepts the volume with the formatter's clusters, and its table has an entry for
each. -/
def Mountable (disk : Buffer) (clusters : ℕ) : Prop :=
  ∃ b, Fat16.init disk = some b ∧ b.totalClusters = clusters ∧
    b.totalClusters + 2 ≤ 256 * b.sectorsPerFat.toNat

/-! ## The iteration -/

section

variable {total cluster s t : ℕ}

lemma fatSectors_anti (total cluster : ℕ) (h : s ≤ t) :
    fatSectors total cluster t ≤ fatSectors total cluster s := by
  have hdata : dataClusters total cluster t ≤ dataClusters total cluster s := by
    refine Nat.div_le_div_right ?_
    split_ifs <;> omega
  unfold fatSectors ceilDiv
  omega

lemma fatSectors_le (hc : 0 < cluster) (h : s ≤ t) :
    fatSectors total cluster s ≤ fatSectors total cluster t + (t - s) / 128 + 1 := by
  have hdata : dataClusters total cluster s ≤ dataClusters total cluster t + 2 * (t - s) := by
    have hsub : (if 1 + 2 * s + 32 < total then total - (1 + 2 * s + 32) else 0) ≤
        (if 1 + 2 * t + 32 < total then total - (1 + 2 * t + 32) else 0) + 2 * (t - s) *
        cluster := by
      have := Nat.le_mul_of_pos_right (2 * (t - s)) hc
      split_ifs <;> omega
    calc _ ≤ _ := Nat.div_le_div_right hsub
      _ = _ := Nat.add_mul_div_right _ _ hc
  unfold fatSectors ceilDiv
  omega

lemma fatSectors_pos : 0 < fatSectors total cluster s := by
  unfold fatSectors ceilDiv
  omega

lemma fatSectors_le_total (h : total ≤ 2 ^ 22) : fatSectors total cluster s ≤ 16385 := by
  have hdata : dataClusters total cluster s ≤ total := by
    refine (Nat.div_le_self ..).trans ?_
    split_ifs <;> omega
  unfold fatSectors ceilDiv
  omega

lemma fatLoop_succ (n clusters : ℕ) : fatLoop total cluster (n + 1) s clusters =
    if fatSectors total cluster s = s then (s, dataClusters total cluster s)
    else fatLoop total cluster n (fatSectors total cluster s) (dataClusters total cluster s) := by
  rw [fatLoop, if_neg (Nat.ne_of_gt fatSectors_pos)]

lemma fatLoop_cycle (h1 : fatSectors total cluster s = s + 1)
    (h2 : fatSectors total cluster (s + 1) = s) (k clusters : ℕ) :
    fatLoop total cluster (2 * (k + 1)) s clusters = (s, dataClusters total cluster (s + 1)) := by
  induction k generalizing clusters with
  | zero =>
    rw [fatLoop_succ, h1, if_neg (by omega), fatLoop_succ, h2, if_neg (by omega)]
    rfl
  | succ k ih =>
    rw [Nat.mul_succ, fatLoop_succ, h1, if_neg (by omega), fatLoop_succ, h2, if_neg (by omega)]
    exact ih _

/-- The iteration ends with the table that the clusters need, or one a sector too small. -/
def Ends (total cluster : ℕ) (r : ℕ × ℕ) : Prop :=
  fatSectors total cluster r.1 = r.1 ∧ r.2 = dataClusters total cluster r.1 ∨
    fatSectors total cluster r.1 = r.1 + 1 ∧ fatSectors total cluster (r.1 + 1) = r.1 ∧
      r.2 = dataClusters total cluster (r.1 + 1)

lemma fatLoop_low (hc : 0 < cluster) (h1 : s ≤ fatSectors total cluster s)
    (h2 : fatSectors total cluster s ≤ s + 1) (k clusters : ℕ) :
    Ends total cluster (fatLoop total cluster (2 * (k + 1)) s clusters) := by
  rcases Nat.eq_or_lt_of_le h1 with heq | hlt
  · rw [Nat.mul_succ, fatLoop_succ, if_pos heq.symm]
    exact .inl ⟨heq.symm, rfl⟩
  have hup : fatSectors total cluster s = s + 1 := by omega
  have hanti : fatSectors total cluster (s + 1) ≤ fatSectors total cluster s :=
    fatSectors_anti total cluster (Nat.le_succ s)
  have hnear : fatSectors total cluster s ≤ fatSectors total cluster (s + 1) + (s + 1 - s) / 128 +
    1 :=
    fatSectors_le hc (Nat.le_succ s)
  rcases Nat.lt_or_ge (fatSectors total cluster (s + 1)) (s + 1) with hdown | hstay
  · have hdown : fatSectors total cluster (s + 1) = s := by omega
    rw [fatLoop_cycle hup hdown]
    exact .inr ⟨hup, hdown, rfl⟩
  · have hstay : fatSectors total cluster (s + 1) = s + 1 := by omega
    rw [Nat.mul_succ, fatLoop_succ, hup, if_neg (by omega), fatLoop_succ, if_pos hstay]
    exact .inl ⟨hstay, rfl⟩

lemma ends_of_eq (h : fatSectors total cluster s = s) (n clusters : ℕ) :
    Ends total cluster (fatLoop total cluster (n + 1) s clusters) := by
  rw [fatLoop_succ, if_pos h]
  exact .inl ⟨h, rfl⟩

/-- **How the iteration ends.** Each round brings the sizes closer; after four they differ by one at
most. -/
lemma fatLoop_ends (ht : total ≤ 2 ^ 22) (hc : 0 < cluster) :
    Ends total cluster (fatLoop total cluster 16 1 0) := by
  generalize hf : fatSectors total cluster = f
  have anti : ∀ {a b}, a ≤ b → f b ≤ f a :=
    fun h => by rw [← hf]; exact fatSectors_anti total cluster h
  have near : ∀ {a b}, a ≤ b → f a ≤ f b + (b - a) / 128 + 1 := fun h => by
    rw [← hf]
    exact fatSectors_le hc h
  have hpos : 0 < f 1 := by rw [← hf]; exact fatSectors_pos
  have hmax : f 1 ≤ 16385 := by rw [← hf]; exact fatSectors_le_total ht
  have step : ∀ {n a clusters}, f a ≠ a → fatLoop total cluster (n + 1) a clusters =
      fatLoop total cluster n (f a) (dataClusters total cluster a) := by
    intro n a clusters hne
    rw [← hf] at hne ⊢
    rw [fatLoop_succ, if_neg hne]
  -- the sizes after one, two, three and four rounds
  by_cases h1 : f 1 = 1
  · exact ends_of_eq (by rw [hf]; exact h1) _ _
  rw [step h1]
  by_cases h2 : f (f 1) = f 1
  · exact ends_of_eq (by rw [hf]; exact h2) _ _
  rw [step h2]
  by_cases h3 : f (f (f 1)) = f (f 1)
  · exact ends_of_eq (by rw [hf]; exact h3) _ _
  rw [step h3]
  by_cases h4 : f (f (f (f 1))) = f (f (f 1))
  · exact ends_of_eq (by rw [hf]; exact h4) _ _
  rw [step h4]
  have a1 : f (f 1) ≤ f 1 := anti hpos
  have n1 := near (show 1 ≤ f 1 from hpos)
  have a2 : f (f 1) ≤ f (f (f 1)) := anti a1
  have n2 := near a1
  have a3 : f (f (f (f 1))) ≤ f (f (f 1)) := anti a2
  have n3 := near a2
  have a4 : f (f (f (f 1))) ≤ f (f (f (f (f 1)))) := anti a3
  have n4 := near a3
  refine fatLoop_low hc ?_ ?_ 5 _
  · rw [hf]
    exact a4
  · rw [hf]
    omega

lemma fixed_iff (total cluster : ℕ) (ht : total ≤ 2 ^ 22) (hc : 0 < cluster) :
    (∃ s, fatSectors total cluster s = s) ↔
      fatSectors total cluster (fatLoop total cluster 16 1 0).1 =
      (fatLoop total cluster 16 1 0).1 := by
  refine ⟨fun ⟨s, hs⟩ => ?_, fun h => ⟨_, h⟩⟩
  rcases fatLoop_ends ht hc with ⟨h, -⟩ | ⟨hup, hdown, -⟩
  · exact h
  · rcases Nat.lt_or_ge (fatLoop total cluster 16 1 0).1 s with hlt | hge
    · have hle := fatSectors_anti total cluster (Nat.succ_le_of_lt hlt)
      rw [hdown, hs] at hle
      omega
    · have hle := fatSectors_anti total cluster hge
      omega

end

/-! ## What the driver reads -/

section

variable {disk disk' : Buffer} {total cluster sectorsPerFat : ℕ} {label : List ℕ}

variable {a i n : ℕ}

lemma writeSector_low {lba : ℕ} (data : Buffer) (h1 : 1 ≤ lba) (h2 : lba < 2 ^ 23) (hi : i < 512) :
    writeSector disk lba data i = disk i := by
  rw [writeSector, w32_of_lt (by omega)]
  exact Buffer.copy_of_notMem _ _ (by omega)

lemma zeroSectors_low {start count : ℕ} (h1 : 1 ≤ start) (h2 : start + count ≤ 2 ^ 23)
    (hi : i < 512) : zeroSectors disk start count i = disk i := by
  unfold zeroSectors
  induction count with
  | zero => rfl
  | succ count ih =>
    rw [List.range_succ, List.foldl_append, List.foldl_cons, List.foldl_nil,
      writeSector_low _ (by omega) (by omega) hi]
    exact ih (by omega)

lemma writeFat_low {fatNum : ℕ} (hnum : fatNum < 2) (hspf : sectorsPerFat < 65536) (hi : i < 512) :
    writeFat sectorsPerFat disk fatNum i = disk i := by
  have hle : fatNum * sectorsPerFat ≤ 1 * sectorsPerFat := Nat.mul_le_mul_right _ (by omega)
  unfold writeFat
  rw [zeroSectors_low (by omega) (by omega) hi, writeSector_low _ (by omega) (by omega) hi]

/-- **The boot sector is there after formatting.** -/
lemma format_low (hspf : sectorsPerFat < 65536) (hi : i < 512) :
    zeroSectors ((List.range 2).foldl (writeFat sectorsPerFat)
      (writeSector disk 0 (bootSector total cluster sectorsPerFat label)))
      (1 + 2 * sectorsPerFat) 32 i = bootSector total cluster sectorsPerFat label i := by
  have hrange : List.range 2 = [0, 1] := rfl
  rw [zeroSectors_low (by omega) (by omega) hi, hrange, List.foldl_cons, List.foldl_cons,
    List.foldl_nil, writeFat_low (by decide) hspf hi, writeFat_low (by decide) hspf hi, writeSector,
    w32_of_lt (by decide), Buffer.copy_of_mem _ _ (Nat.zero_le i) (by omega), Nat.zero_add,
    Nat.sub_zero]

lemma half_of_bytes {b : Buffer} (h0 : b a = UInt8.ofNat n)
    (h1 : b (a + 1) = UInt8.ofNat (n / 256)) : b.half a = n % 65536 := by
  rw [Buffer.half, h0, h1, UInt8.toNat_ofNat', UInt8.toNat_ofNat']
  omega

lemma word_of_bytes {b : Buffer} (h0 : b a = UInt8.ofNat n)
    (h1 : b (a + 1) = UInt8.ofNat (n / 256)) (h2 : b (a + 2) = UInt8.ofNat (n / 65536))
    (h3 : b (a + 3) = UInt8.ofNat (n / 16777216)) : b.word a = n % 4294967296 := by
  rw [Buffer.word, h0, h1, h2, h3, UInt8.toNat_ofNat', UInt8.toNat_ofNat', UInt8.toNat_ofNat',
    UInt8.toNat_ofNat']
  omega

/-- What the driver reads from the boot sector. -/
structure BootIs (b : BootSector) (total cluster sectorsPerFat : ℕ) : Prop where
  sectorsPerCluster : b.sectorsPerCluster.toNat = cluster % 256
  reserved : b.reservedSectors.toNat = 1
  fats : b.numFats.toNat = 2
  root : b.rootEntries.toNat = 512
  sectorsPerFat : b.sectorsPerFat.toNat = sectorsPerFat
  total : b.totalSectors = total

lemma bootSector_field (hi : i < 43) : bootSector total cluster sectorsPerFat label i =
    UInt8.ofNat ((bootFields total cluster sectorsPerFat).getD i 0) :=
  if_pos hi

section

variable (h : ∀ i < 512, disk i = bootSector total cluster sectorsPerFat label i)

include h

lemma half_of_fields (ha : a + 1 < 43) (h0 : (bootFields total cluster sectorsPerFat).getD a 0 = n)
    (h1 : (bootFields total cluster sectorsPerFat).getD (a + 1) 0 = n / 256) :
    disk.half a = n % 65536 := by
  refine half_of_bytes ?_ ?_
  · rw [h a (by omega), bootSector_field (by omega), h0]
  · rw [h (a + 1) (by omega), bootSector_field ha, h1]

lemma ofDisk_boot (hspf : sectorsPerFat < 65536) (ht : total < 4294967296) :
    BootIs (BootSector.ofDisk disk) total cluster sectorsPerFat := by
  have hbyte : ∀ {i}, i < 43 →
    disk i = UInt8.ofNat ((bootFields total cluster sectorsPerFat).getD i 0) :=
    fun hi => by rw [h _ (by omega), bootSector_field hi]
  have h14 : disk.half 14 = 1 :=
    half_of_fields h (n := 1) (by decide) (by simp [bootFields, bytes16])
      (by simp [bootFields, bytes16])
  have h17 : disk.half 17 = 512 :=
    half_of_fields h (n := 512) (by decide) (by simp [bootFields, bytes16])
      (by simp [bootFields, bytes16])
  have h19 : disk.half 19 = (if total < 65536 then total else 0) % 65536 :=
    half_of_fields h (by decide) (by simp [bootFields, bytes16]) (by simp [bootFields, bytes16])
  have h22 : disk.half 22 = sectorsPerFat % 65536 :=
    half_of_fields h (by decide) (by simp [bootFields, bytes16]) (by simp [bootFields, bytes16])
  have h32 : disk.word 32 = (if total < 65536 then 0 else total) % 4294967296 := by
    refine word_of_bytes ?_ ?_ ?_ ?_ <;> rw [hbyte (by decide)] <;> simp [bootFields, bytes16,
      bytes32]
  constructor
  · show (disk 13).toNat = _
    rw [hbyte (by decide)]
    simp [bootFields, bytes16]
  · show (UInt16.ofNat (disk.half 14)).toNat = 1
    rw [h14]
    rfl
  · show (disk 16).toNat = 2
    rw [hbyte (by decide)]
    simp [bootFields, bytes16]
  · show (UInt16.ofNat (disk.half 17)).toNat = 512
    rw [h17]
    rfl
  · show (UInt16.ofNat (disk.half 22)).toNat = _
    rw [UInt16.toNat_ofNat']
    omega
  · show (if UInt16.ofNat (disk.half 19) = 0 then (UInt32.ofNat (disk.word 32)).toNat
      else (UInt16.ofNat (disk.half 19)).toNat) = total
    simp only [h19, h32, ← UInt16.toNat_inj, UInt16.toNat_ofNat', UInt32.toNat_ofNat',
      UInt16.toNat_zero]
    split_ifs <;> omega

lemma init_boot : disk.half 510 = 0xAA55 ∧ disk.half 11 = 512 := by
  refine ⟨?_, half_of_fields h (n := 512) (by decide) (by simp [bootFields, bytes16])
    (by simp [bootFields, bytes16])⟩
  rw [Buffer.half, h 510 (by decide), h 511 (by decide)]
  simp [bootSector]

end

variable {sizeMb arg : ℕ} {memory : Bool}

lemma clusterSectors_pos : 0 < clusterSectors sizeMb arg := by
  unfold clusterSectors
  split_ifs <;> omega

lemma totalSectors_eq (h : sizeMb ≤ 2048) : totalSectors sizeMb = 2048 * sizeMb := by
  rw [totalSectors, w32_of_lt (by omega)]
  omega

lemma geometry_ends (arg : ℕ) (h : sizeMb ≤ 2048) :
    Ends (totalSectors sizeMb) (clusterSectors sizeMb arg) (geometry sizeMb arg) :=
  fatLoop_ends (by rw [totalSectors_eq h]; omega) clusterSectors_pos

lemma geometry_bounds (arg : ℕ) (h : sizeMb ≤ 2048) :
    0 < (geometry sizeMb arg).1 ∧ (geometry sizeMb arg).1 ≤ 16385 := by
  have hmax : ∀ s, fatSectors (totalSectors sizeMb) (clusterSectors sizeMb arg) s ≤ 16385 :=
    fun s => fatSectors_le_total (by rw [totalSectors_eq h]; omega)
  have hpos : ∀ s, 0 < fatSectors (totalSectors sizeMb) (clusterSectors sizeMb arg) s :=
    fun s => fatSectors_pos
  rcases geometry_ends arg h with ⟨hfix, -⟩ | ⟨hup, hdown, -⟩
  · exact ⟨hfix ▸ hpos _, hfix ▸ hmax _⟩
  · have := hmax (geometry sizeMb arg).1
    exact ⟨hdown ▸ hpos _, by omega⟩

lemma lt_of_dataClusters (h : 0 < dataClusters total cluster sectorsPerFat) :
    1 + 2 * sectorsPerFat + 32 < total := by
  by_contra hle
  rw [dataClusters, if_neg hle, Nat.zero_div] at h
  exact Nat.lt_irrefl 0 h

lemma geometry_lt (arg : ℕ) (h : sizeMb ≤ 2048) (hpos : 0 < (geometry sizeMb arg).2) :
    1 + 2 * (geometry sizeMb arg).1 + 32 < totalSectors sizeMb := by
  rcases geometry_ends arg h with ⟨-, hdata⟩ | ⟨-, -, hdata⟩
  · rw [hdata] at hpos
    exact lt_of_dataClusters hpos
  · rw [hdata] at hpos
    have := lt_of_dataClusters hpos
    omega

lemma format_eq_some (hs : sizeMb ≤ 2048) (h : format disk sizeMb label arg memory = some disk') :
    (4085 ≤ (geometry sizeMb arg).2 ∧ (geometry sizeMb arg).2 < 65525) ∧
      ∀ i < 512, disk' i = bootSector (totalSectors sizeMb) (clusterSectors sizeMb arg)
        (geometry sizeMb arg).1 label i := by
  have hspf := (geometry_bounds arg hs).2
  unfold format at h
  dsimp only at h
  split_ifs at h with hbad
  cases h
  exact ⟨by omega, fun i hi => format_low (by omega) hi⟩

lemma exists_format (sizeMb arg : ℕ) (disk : Buffer) (label : List ℕ)
    (hlo : 4085 ≤ (geometry sizeMb arg).2)
    (hhi : (geometry sizeMb arg).2 < 65525) :
    ∃ disk', format disk sizeMb label arg true = some disk' := by
  unfold format
  rw [if_neg (by simp; omega)]
  exact ⟨_, rfl⟩

/-- **What the driver makes of the volume**, from the byte for the sectors of a cluster. -/
lemma mountable_format (hs : sizeMb ≤ 2048) (h : format disk sizeMb label arg memory = some disk') :
    Mountable disk' (geometry sizeMb arg).2 ↔ clusterSectors sizeMb arg % 256 ≠ 0 ∧
      (totalSectors sizeMb - (1 + 2 * (geometry sizeMb arg).1 + 32)) /
      (clusterSectors sizeMb arg % 256) =
        (geometry sizeMb arg).2 ∧ (geometry sizeMb arg).2 + 2 ≤ 256 * (geometry sizeMb arg).1 := by
  obtain ⟨⟨hlo, hhi⟩, hboot⟩ := format_eq_some hs h
  obtain ⟨hpos, hmax⟩ := geometry_bounds arg hs
  have hlt := geometry_lt arg hs (by omega)
  have htotal : totalSectors sizeMb < 4294967296 := by rw [totalSectors_eq hs]; omega
  have hb := ofDisk_boot hboot (by omega) htotal
  obtain ⟨h510, h11⟩ := init_boot hboot
  have hdata : (BootSector.ofDisk disk').dataStart = 1 + 2 * (geometry sizeMb arg).1 + 32 := by
    rw [BootSector.dataStart, BootSector.rootDirStart, BootSector.fatStart,
      BootSector.rootDirSectors,
      hb.reserved, hb.fats, hb.root, hb.sectorsPerFat]
  have hclusters : (BootSector.ofDisk disk').totalClusters =
      (totalSectors sizeMb - (1 + 2 * (geometry sizeMb arg).1 + 32)) /
        (clusterSectors sizeMb arg % 256) := by
    rw [BootSector.totalClusters, hdata, hb.total, hb.sectorsPerCluster,
      sub32_of_le (by omega) htotal]
  have hroot : (BootSector.ofDisk disk').rootEntries ≠ 0 := fun h0 => by
    have := hb.root
    rw [h0] at this
    cases this
  have hspf : (BootSector.ofDisk disk').sectorsPerFat ≠ 0 := fun h0 => by
    have := hb.sectorsPerFat
    rw [h0, UInt16.toNat_zero] at this
    omega
  have hzero : (BootSector.ofDisk disk').sectorsPerCluster = 0 ↔
    clusterSectors sizeMb arg % 256 = 0 := by
    simp [← UInt8.toNat_inj, hb.sectorsPerCluster]
  have hinit : Fat16.init disk' = if clusterSectors sizeMb arg % 256 = 0 then none
      else if (BootSector.ofDisk disk').totalClusters < 4085 ∨
        65525 ≤ (BootSector.ofDisk disk').totalClusters then none
      else some (BootSector.ofDisk disk') := by
    unfold Fat16.init
    dsimp only
    rw [if_neg (by simp [h510, h11, hroot, hspf])]
    simp [hzero]
  unfold Mountable
  rw [hinit, ← hclusters]
  constructor
  · rintro ⟨b, hb', hcount, hroom⟩
    split_ifs at hb' with h0 hrange
    cases hb'
    exact ⟨h0, hcount, by rw [← hcount, ← hb.sectorsPerFat]; exact hroom⟩
  · rintro ⟨h0, hcount, hroom⟩
    refine ⟨_, ?_, hcount, by rw [hcount, hb.sectorsPerFat]; exact hroom⟩
    rw [if_neg h0, if_neg (by omega)]

lemma div_ne_of_large {d q : ℕ} (hq : 4085 ≤ q) (hc : 256 ≤ cluster) (hle : q * cluster ≤ n)
    (hd : d < 256) : n / d ≠ q := by
  intro heq
  have hlarge : q * 256 ≤ q * cluster := Nat.mul_le_mul_left q hc
  rcases Nat.eq_zero_or_pos d with rfl | hpos
  · omega
  · have hlt : n < (n / d + 1) * d := by
      rw [Nat.mul_comm]
      exact Nat.lt_mul_div_succ n hpos
    have hsmall : (n / d + 1) * d ≤ (n / d + 1) * 255 := Nat.mul_le_mul_left _ (by omega)
    omega

/-- **A formatted volume can be used exactly when** the sectors of a cluster fit in a byte and the
iteration has a fixed point. -/
theorem mountable_iff (hmax : sizeMb ≤ 2048)
    (h : format disk sizeMb label arg memory = some disk') :
    Mountable disk' (geometry sizeMb arg).2 ↔ clusterSectors sizeMb arg < 256 ∧
      ∃ s, fatSectors (totalSectors sizeMb) (clusterSectors sizeMb arg) s = s := by
  obtain ⟨⟨hlo, hhi⟩, -⟩ := format_eq_some hmax h
  have hpos : 0 < clusterSectors sizeMb arg := clusterSectors_pos
  have hlt := geometry_lt arg hmax (by omega)
  have hfix := fixed_iff (totalSectors sizeMb) (clusterSectors sizeMb arg)
    (by rw [totalSectors_eq hmax]; omega) hpos
  rw [mountable_format hmax h]
  rcases Nat.lt_or_ge (clusterSectors sizeMb arg) 256 with hsmall | hlarge
  · have hcount : (totalSectors sizeMb - (1 + 2 * (geometry sizeMb arg).1 + 32)) /
        clusterSectors sizeMb arg =
        dataClusters (totalSectors sizeMb) (clusterSectors sizeMb arg) (geometry sizeMb arg).1 := by
      rw [dataClusters, if_pos hlt]
    rw [Nat.mod_eq_of_lt hsmall, hcount, hfix]
    rcases geometry_ends arg hmax with ⟨hend, hdata⟩ | ⟨hup, -, -⟩
    · refine ⟨fun _ => ⟨hsmall, hend⟩, fun _ => ⟨by omega, hdata.symm, ?_⟩⟩
      rw [fatSectors, ceilDiv] at hend
      omega
    · -- the table has no entry for the last cluster
      refine ⟨fun ⟨_, hdata, hroom⟩ => ?_, fun ⟨_, hend⟩ => ?_⟩
      · rw [fatSectors, ceilDiv] at hup
        omega
      · have : (geometry sizeMb arg).1 + 1 = (geometry sizeMb arg).1 := hup.symm.trans hend
        omega
  · refine ⟨fun ⟨_, hdata, _⟩ => ?_, fun ⟨hsmall, _⟩ => absurd hsmall (by omega)⟩
    refine absurd hdata (div_ne_of_large hlo hlarge ?_ (Nat.mod_lt _ (by decide)))
    have hmul : ∀ {s}, (geometry sizeMb arg).1 ≤ s →
        (geometry sizeMb arg).2 = dataClusters (totalSectors sizeMb) (clusterSectors sizeMb arg) s →
        (geometry sizeMb arg).2 * clusterSectors sizeMb arg ≤
          totalSectors sizeMb - (1 + 2 * (geometry sizeMb arg).1 + 32) := by
      intro s hs heq
      have hdata : 0 < dataClusters (totalSectors sizeMb) (clusterSectors sizeMb arg) s := by omega
      rw [heq, dataClusters, if_pos (lt_of_dataClusters hdata)]
      exact (Nat.div_mul_le_self _ _).trans (by omega)
    rcases geometry_ends arg hmax with ⟨-, heq⟩ | ⟨-, -, heq⟩
    · exact hmul (Nat.le_refl _) heq
    · exact hmul (Nat.le_succ _) heq

/-- A volume of 16 MiB. -/
theorem mountable_sixteen : ∃ disk', format (fun _ => 0) 16 [] 0 true = some disk' ∧
    Mountable disk' (geometry 16 0).2 := by
  have hgeo : geometry 16 0 = (127, 32481) := by decide +kernel
  obtain ⟨disk', hformat⟩ := exists_format 16 0 (fun _ => 0) []
    (by rw [hgeo]; decide) (by rw [hgeo]; decide)
  exact ⟨disk', hformat, (mountable_iff (by decide) hformat).2 ⟨by decide, 127, by decide +kernel⟩⟩

/-- With 130 megabytes and clusters of 65 sectors the table goes up and down. -/
theorem format_small_table : ∃ disk', format (fun _ => 0) 130 [] 65 true = some disk' ∧
    ¬ Mountable disk' (geometry 130 65).2 := by
  have hgeo : geometry 130 65 = (16, 4094) := by decide +kernel
  obtain ⟨disk', hformat⟩ := exists_format 130 65 (fun _ => 0) []
    (by rw [hgeo]; decide) (by rw [hgeo]; decide)
  refine ⟨disk', hformat, fun hmount => ?_⟩
  obtain ⟨-, hcount, -⟩ := (mountable_format (by decide) hformat).1 hmount
  exact absurd hcount (by decide +kernel)

end

end FrostByte.Mkfat16
