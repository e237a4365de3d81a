import FrostByte.Fat.Volume

/-!
# What a FAT32 boot sector promises

`fat32_mount` computes where the table and the clusters are from fields that it does not check. Here
is what the fields must satisfy for the functions behind it to be safe.

## Main definitions

* `mountDisk` — `fat32_mount`, as far as it checks the boot sector.
* `Bpb.Safe` — no index, offset or divisor of the functions behind it is wrong.
* `Bpb.Consistent` — the same, by the fields alone.

## Main results

* `Bpb.safe_iff` — the two are equivalent for a boot sector that is mounted.
* `mountDisk_divides_by_zero` — boot sectors that are mounted and not safe.
-/

namespace FrostByte.Fat32

open Word

/-- The fields of `fat32_bpb_t` at their places in the first sector. -/
def Bpb.ofDisk (disk : Buffer) : Bpb where
  bytesPerSector := UInt16.ofNat (disk.half 11)
  sectorsPerCluster := disk 13
  reservedSectors := UInt16.ofNat (disk.half 14)
  numFats := disk 16
  totalSectors16 := UInt16.ofNat (disk.half 19)
  totalSectors32 := UInt32.ofNat (disk.word 32)
  fatSize32 := UInt32.ofNat (disk.word 36)

/-- `fat32_mount`: the boot sector, if it is accepted. -/
def mountDisk (disk : Buffer) : Option Bpb :=
  if disk 510 ≠ 0x55 ∨ disk 511 ≠ 0xAA ∨ disk.half 17 ≠ 0 ∨ disk.half 22 ≠ 0 then none
  -- the division by the sectors of a cluster faults
  else if disk 13 = 0 then none
  else some (Bpb.ofDisk disk)

namespace Bpb

variable (b : Bpb)

/-- The device offset of a cluster. -/
def clusterOffset (c : ℕ) : ℕ :=
  w32 (w32 (b.clusterBeginLba + w32 ((c - 2) * b.sectorsPerCluster.toNat)) * b.bytesPerSector.toNat)

/-- The indices of `sector` that the accessors of the table use. -/
def UsesIndex (c i : ℕ) : Prop :=
  i < b.bytesPerSector.toNat ∨
    w32 (c * 4) % b.bytesPerSector.toNat ≤ i ∧ i < w32 (c * 4) % b.bytesPerSector.toNat + 4

/-- No divisor is zero, the accessors stay in their buffer, and the clusters are apart and
inside. -/
structure Safe : Prop where
  divisors : b.bytesPerSector.toNat ≠ 0 ∧ b.bytesPerCluster ≠ 0
  index : ∀ c i, 2 ≤ c → c < w32 (b.totalClusters + 2) → b.UsesIndex c i → i < 512
  inside : ∀ c, 2 ≤ c → c < b.totalClusters + 2 →
    b.clusterBeginLba * b.bytesPerSector.toNat ≤ b.clusterOffset c ∧
      b.clusterOffset c + b.bytesPerCluster ≤ b.totalSectors * b.bytesPerSector.toNat
  disjoint : ∀ c d, 2 ≤ c → c < d → d < b.totalClusters + 2 →
    b.clusterOffset c + b.bytesPerCluster ≤ b.clusterOffset d ∨
      b.clusterOffset d + b.bytesPerCluster ≤ b.clusterOffset c

/-- The fields fit together. Of the sizes up to 512 only 511 has an entry across the end of the
buffer. -/
def Consistent : Prop :=
  b.bytesPerSector.toNat ≠ 0 ∧ (b.totalClusters ≠ 0 →
    b.bytesPerSector.toNat ≤ 512 ∧ (b.bytesPerSector.toNat = 511 → b.totalClusters < 254) ∧
    b.clusterBeginLba ≤ b.totalSectors ∧
    (b.clusterBeginLba + (b.totalClusters - 1) * b.sectorsPerCluster.toNat) *
    b.bytesPerSector.toNat <
      2 ^ 32)

variable {b}

lemma bytesPerCluster_eq :
    b.bytesPerCluster = b.bytesPerSector.toNat * b.sectorsPerCluster.toNat := by
  have h := Nat.mul_le_mul (Nat.le_of_lt b.bytesPerSector.toNat_lt)
    (Nat.le_of_lt b.sectorsPerCluster.toNat_lt)
  exact w32_of_lt (h.trans_lt (by decide))

lemma cluster_le (hbegin : b.clusterBeginLba ≤ b.totalSectors) {k : ℕ} (hk : k < b.totalClusters) :
    b.clusterBeginLba + k * b.sectorsPerCluster.toNat + b.sectorsPerCluster.toNat ≤
    b.totalSectors := by
  have h1 := Nat.div_mul_le_self (b.totalSectors - b.clusterBeginLba) b.sectorsPerCluster.toNat
  have h2 := Nat.mul_le_mul_right b.sectorsPerCluster.toNat (Nat.succ_le_of_lt hk)
  unfold totalClusters at h2
  rw [sub32_of_le hbegin b.totalSectors_lt, Nat.succ_mul] at h2
  omega

lemma clusterOffset_eq (hbegin : b.clusterBeginLba ≤ b.totalSectors) {k : ℕ}
    (hk : k < b.totalClusters) : b.clusterOffset (k + 2) =
      w32 ((b.clusterBeginLba + k * b.sectorsPerCluster.toNat) * b.bytesPerSector.toNat) := by
  have hle := cluster_le hbegin hk
  have hlt := b.totalSectors_lt
  rw [clusterOffset, Nat.add_sub_cancel, w32_of_lt (n := k * _) (by omega),
    w32_of_lt (n := _ + k * _)
    (by omega)]

lemma entry_lt {c n : ℕ} (hpos : n ≠ 0) (hn : n ≤ 512) (hc : n = 511 → c < 255) :
    w32 (c * 4) % n + 4 ≤ 512 := by
  have hlt := Nat.mod_lt (w32 (c * 4)) (Nat.pos_of_ne_zero hpos)
  obtain ⟨m, hm⟩ : ∃ m, w32 (c * 4) = m * 4 := ⟨c % 2 ^ 30, by unfold w32; omega⟩
  rcases Nat.lt_or_ge n 510 with hsmall | hlarge
  · omega
  obtain rfl | rfl | rfl : n = 510 ∨ n = 511 ∨ n = 512 := by omega
  · rw [hm]
    omega
  · have hc := hc rfl
    rw [w32_of_lt (by omega)]
    rcases Nat.lt_or_ge (c * 4) 511 with hlt | hge
    · rw [Nat.mod_eq_of_lt hlt]
      omega
    · rw [Nat.mod_eq_sub_mod hge, Nat.mod_eq_of_lt (by omega)]
      omega
  · rw [hm]
    omega

lemma Consistent.safe (hspc : b.sectorsPerCluster.toNat ≠ 0) (h : b.Consistent) : b.Safe := by
  obtain ⟨hbps, h⟩ := h
  have hoffset : ∀ k < b.totalClusters, b.clusterOffset (k + 2) =
      (b.clusterBeginLba + k * b.sectorsPerCluster.toNat) * b.bytesPerSector.toNat := by
    intro k hk
    obtain ⟨-, -, hbegin, hlast⟩ := h (by omega)
    have hle :=
      Nat.mul_le_mul_right b.sectorsPerCluster.toNat (show k ≤ b.totalClusters - 1 by omega)
    have hle :=
      Nat.mul_le_mul_right b.bytesPerSector.toNat (Nat.add_le_add_left hle b.clusterBeginLba)
    rw [clusterOffset_eq hbegin hk, w32_of_lt (hle.trans_lt hlast)]
  refine ⟨⟨hbps, ?_⟩, fun c i h2 hc hi => ?_, fun c h2 hc => ?_, fun c d h2 hcd hd => .inl ?_⟩
  · rw [bytesPerCluster_eq]
    exact Nat.mul_ne_zero hbps hspc
  · have hc : c < b.totalClusters + 2 := hc.trans_le (Nat.mod_le _ _)
    obtain ⟨hle, h511, -⟩ := h (by omega)
    have := entry_lt (c := c) hbps hle fun heq => by have := h511 heq; omega
    rcases hi with hi | hi <;> omega
  · obtain ⟨k, rfl⟩ : ∃ k, c = k + 2 := ⟨c - 2, by omega⟩
    have hbegin := (h (by omega)).2.2.1
    have hle := Nat.mul_le_mul_right b.bytesPerSector.toNat (cluster_le hbegin (k := k) (by omega))
    rw [hoffset k (by omega), bytesPerCluster_eq, Nat.mul_comm b.bytesPerSector.toNat,
      ← Nat.add_mul]
    exact ⟨Nat.mul_le_mul_right _ (Nat.le_add_right ..), hle⟩
  · obtain ⟨k, rfl⟩ : ∃ k, c = k + 2 := ⟨c - 2, by omega⟩
    obtain ⟨j, rfl⟩ : ∃ j, d = j + 2 := ⟨d - 2, by omega⟩
    have hle := Nat.mul_le_mul_right b.sectorsPerCluster.toNat (show k + 1 ≤ j by omega)
    rw [Nat.add_mul, Nat.one_mul] at hle
    rw [hoffset k (by omega), hoffset j (by omega), bytesPerCluster_eq,
      Nat.mul_comm b.bytesPerSector.toNat, ← Nat.add_mul]
    exact Nat.mul_le_mul_right _ (by omega)

lemma Safe.last_lt (h : b.Safe) (hbegin : b.clusterBeginLba ≤ b.totalSectors) {k : ℕ}
    (hk : k < b.totalClusters) :
    (b.clusterBeginLba + k * b.sectorsPerCluster.toNat) * b.bytesPerSector.toNat < 2 ^ 32 := by
  induction k with
  | zero =>
    have hin := (h.inside 2 le_rfl (by omega)).1
    rw [clusterOffset_eq (k := 0) hbegin hk, Nat.zero_mul, Nat.add_zero] at hin
    simpa using hin.trans_lt (w32_lt _)
  | succ k ih =>
    have ih := ih (by omega)
    by_contra hge
    have hsize : (b.clusterBeginLba + (k + 1) * b.sectorsPerCluster.toNat) *
      b.bytesPerSector.toNat =
        (b.clusterBeginLba + k * b.sectorsPerCluster.toNat) * b.bytesPerSector.toNat +
          b.bytesPerCluster := by
      rw [bytesPerCluster_eq, Nat.succ_mul, ← Nat.add_assoc,
        Nat.add_mul _ b.sectorsPerCluster.toNat,
        Nat.mul_comm b.bytesPerSector.toNat]
    have hpos := h.divisors.2
    have hlt : b.bytesPerCluster < 2 ^ 32 := w32_lt _
    have hfirst := (h.inside 2 le_rfl (by omega)).1
    have hin := (h.inside (k + 3) (by omega) (by omega)).1
    have hdisj := h.disjoint 2 (k + 3) le_rfl (by omega) (by omega)
    have heq : b.clusterOffset (k + 3) = _ := clusterOffset_eq hbegin hk
    have hzero := clusterOffset_eq (k := 0) hbegin (by omega)
    rw [hsize] at heq hge
    unfold w32 at heq hzero
    simp only [Nat.zero_mul, Nat.add_zero, Nat.zero_add] at hzero
    omega

/-- **A boot sector is safe** exactly if its fields are consistent. -/
theorem safe_iff {disk : Buffer} (h : mountDisk disk = some b) : b.Safe ↔ b.Consistent := by
  have hspc : b.sectorsPerCluster.toNat ≠ 0 := by
    unfold mountDisk at h
    split_ifs at h with h1 h2
    cases h
    exact fun hzero => h2 (UInt8.toNat_inj.1 hzero)
  refine ⟨fun hsafe => ⟨hsafe.divisors.1, fun hne => ?_⟩, fun hcons => hcons.safe hspc⟩
  have hbegin : b.clusterBeginLba ≤ b.totalSectors := by
    have hin := hsafe.inside 2 le_rfl (by omega)
    by_contra hlt
    have := Nat.mul_le_mul_right b.bytesPerSector.toNat (Nat.le_of_not_le hlt)
    have := hsafe.divisors.2
    omega
  have hlast := hsafe.last_lt hbegin (k := b.totalClusters - 1) (by omega)
  rcases Nat.lt_or_ge (b.totalClusters + 2) (2 ^ 32) with hlt | hge
  · have hindex := hsafe.index
    rw [w32_of_lt hlt] at hindex
    have hle : b.bytesPerSector.toNat ≤ 512 := by
      have := hindex 2 (b.bytesPerSector.toNat - 1) le_rfl (by omega)
        (.inl (by have := hsafe.divisors.1; omega))
      omega
    refine ⟨hle, fun h511 => ?_, hbegin, hlast⟩
    by_contra hge
    have := hindex 255 512 (by decide) (by omega) (.inr (by rw [h511]; decide))
    omega
  · have hle : (2 ^ 32 - 3) * b.bytesPerSector.toNat < 2 ^ 32 := by
      refine Nat.lt_of_le_of_lt (Nat.mul_le_mul_right _ ?_) hlast
      have := Nat.mul_le_mul_left (b.totalClusters - 1) (Nat.pos_of_ne_zero hspc)
      omega
    exact ⟨by omega, by omega, hbegin, hlast⟩

end Bpb

/-- A boot sector of seven sectors with one cluster for each; `high` is the upper byte of the
sector's size. -/
def bootSector (high : UInt8) : Buffer := fun i =>
  ([(12, high), (13, 1), (14, 1), (16, 2), (32, 7), (36, 1), (510, 0x55), (511, 0xAA)].lookup
    i).getD 0

/-- A small volume with sectors of 512 bytes is safe. -/
theorem safe_small : (Bpb.ofDisk (bootSector 2)).Safe := by
  have hmount : mountDisk (bootSector 2) = some (Bpb.ofDisk (bootSector 2)) := by
    rw [mountDisk, if_neg (by decide +kernel), if_neg (by decide +kernel)]
  refine (Bpb.safe_iff hmount).2 ?_
  unfold Bpb.Consistent
  decide +kernel

/-- A volume whose sectors have no bytes is mounted, and the accessors divide by that. So is one
with sectors of 1024 bytes, and the last entry of a sector of its table is not in the buffer. -/
theorem mountDisk_divides_by_zero :
    (∃ b, mountDisk (bootSector 0) = some b ∧ b.bytesPerSector = 0 ∧ ¬ b.Safe) ∧
    ∃ b, mountDisk (bootSector 4) = some b ∧ b.bytesPerSector = 1024 ∧ ¬ b.Safe := by
  refine ⟨⟨.ofDisk (bootSector 0), ?_, by decide +kernel, fun h => ?_⟩,
    ⟨.ofDisk (bootSector 4), ?_, by decide +kernel, fun h => ?_⟩⟩
  · rw [mountDisk, if_neg (by decide +kernel), if_neg (by decide +kernel)]
  · exact h.divisors.1 (by decide +kernel)
  · rw [mountDisk, if_neg (by decide +kernel), if_neg (by decide +kernel)]
  · have := h.index 2 1023 le_rfl (by decide +kernel) (.inl (by decide +kernel))
    omega

end FrostByte.Fat32
