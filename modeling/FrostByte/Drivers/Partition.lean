import FrostByte.Lib.Buffer
import Mathlib.Order.Interval.Set.Basic

/-!
# Partitions of a disk

A partition device passes its requests on to the device of the whole disk, which is any device. The
test of the bounds is made in 64 bits, and the offset for the base device is cut to 32.

## Main definitions

* `Device`, `Access` — a device, and the bytes that a request reaches.
* `ataPartRead`, `ahciPartRead` — the partition devices of the two drivers.
* `Access.Confined` — the bytes are in the partition.

## Main results

* `partition_confined_iff` — when requests stay in the partition.
* `high_partition_reads_mbr` — one that reaches the start of the disk.
-/

namespace FrostByte.Block

open Set

/-! ## Devices -/

/-- The value that a request returns, and the bytes of the disk that it touches. -/
structure Access where
  result : ℤ
  touched : Set ℕ

/-- A request that reaches no bytes. -/
def Access.refused (code : ℤ) : Access := ⟨code, ∅⟩

/-- An operation of a device, on an offset and a size. -/
abbrev DeviceOp := UInt32 → UInt32 → Access

/-- A device: whether it is ready, its operations and its sector size. -/
structure Device where
  ready : Bool
  read : Option DeviceOp
  write : Option DeviceOp
  sectorSize : Option UInt32

/-- The body of `device_read` and `device_write`. -/
def deviceCall (ready : Bool) (op : Option DeviceOp) : DeviceOp := fun offset size =>
  match op with
  | none => .refused (-1)
  | some op => if ready then op offset size else .refused (-2)

/-- `device_read`. -/
def deviceRead (d : Device) : DeviceOp := deviceCall d.ready d.read

/-- `device_write`. -/
def deviceWrite (d : Device) : DeviceOp := deviceCall d.ready d.write

/-! ## Partitions -/

/-- `ata_part_priv_t` and `ahci_part_priv_t`. -/
structure Partition where
  base : Option Device
  startLba : UInt32
  sectors : UInt32

/-- An entry of the partition table; without a type or sectors it is none. -/
def mbrEntry (base : Device) (mbr : Buffer) (e : ℕ) : Option Partition :=
  let sectors := UInt32.ofNat (mbr.word (e + 12))
  if mbr (e + 4) = 0 ∨ sectors = 0 then none
  else some ⟨some base, UInt32.ofNat (mbr.word (e + 8)), sectors⟩

/-- The partitions that a driver registers from a boot sector, `room` of them at most. -/
def mbrPartitions (base : Device) (mbr : Buffer) (room : ℕ) : List Partition :=
  if mbr 510 = 0x55 ∧ mbr 511 = 0xAA then
    ((List.range 4).filterMap fun i => mbrEntry base mbr (446 + i * 16)).take room
  else []

/-- The body of the four operations. -/
def partAccess (sectorSize : UInt32) (op : DeviceOp) (pp : Partition) : DeviceOp :=
  fun offset size =>
    let partBytes := pp.sectors.toNat * sectorSize.toNat
    if partBytes < offset.toNat + size.toNat then .refused (-1)
    else op (UInt32.ofNat (pp.startLba.toNat * sectorSize.toNat + offset.toNat)) size

/-- The tests for a base device and its private data, before the body. -/
def ataPart (op : Device → DeviceOp) (pp : Partition) : DeviceOp := fun offset size =>
  match pp.base with
  | none => .refused (-1)
  | some base =>
    match base.sectorSize with
    | none => .refused (-1)
    | some sectorSize => partAccess sectorSize (op base) pp offset size

/-- The test for a base device, before the body. -/
def ahciPart (op : Device → DeviceOp) (pp : Partition) : DeviceOp := fun offset size =>
  match pp.base with
  | none => .refused (-1)
  | some base => partAccess 512 (op base) pp offset size

/-- `ata_part_read`. -/
def ataPartRead (pp : Partition) : DeviceOp := ataPart deviceRead pp

/-- `ata_part_write`. -/
def ataPartWrite (pp : Partition) : DeviceOp := ataPart deviceWrite pp

/-- `ahci_part_read`. -/
def ahciPartRead (pp : Partition) : DeviceOp := ahciPart deviceRead pp

/-- `ahci_part_write`. -/
def ahciPartWrite (pp : Partition) : DeviceOp := ahciPart deviceWrite pp

/-! ## Requests that stay in the partition -/

/-- The bytes of a request. -/
def range (start : ℕ) (size : UInt32) : Set ℕ := Ico start (start + size.toNat)

/-- The operation touches the bytes of the request only, and all of them if it succeeds. -/
def Exact (op : DeviceOp) : Prop :=
  ∀ offset size, (op offset size).touched ⊆ range offset.toNat size ∧
    (0 ≤ (op offset size).result → (op offset size).touched = range offset.toNat size)

/-- Both operations reach the bytes asked for. -/
structure Device.Exact (d : Device) : Prop where
  read : ∀ op, d.read = some op → Block.Exact op
  write : ∀ op, d.write = some op → Block.Exact op

/-- The bytes of the partition on the disk. -/
def Partition.bytes (pp : Partition) (sectorSize : ℕ) : Set ℕ :=
  Ico (pp.startLba.toNat * sectorSize) ((pp.startLba.toNat + pp.sectors.toNat) * sectorSize)

/-- The access fails or touches exactly the bytes asked for, and never bytes outside of the
partition. -/
def Access.Confined (a : Access) (pp : Partition) (sectorSize : ℕ) (offset size : UInt32) : Prop :=
  (a.result < 0 ∨ a.touched = range (pp.startLba.toNat * sectorSize + offset.toNat) size) ∧
    a.touched ⊆ pp.bytes sectorSize

/-- The request is rejected or empty, or begins below 4 GiB. -/
def Partition.Low (pp : Partition) (sectorSize : ℕ) (offset size : UInt32) : Prop :=
  pp.sectors.toNat * sectorSize < offset.toNat + size.toNat ∨ size = 0 ∨
    pp.startLba.toNat * sectorSize + offset.toNat < 2 ^ 32

instance (pp : Partition) (sectorSize : ℕ) (offset size : UInt32) :
    Decidable (pp.Low sectorSize offset size) := inferInstanceAs (Decidable (_ ∨ _ ∨ _))

lemma confined_refused (pp : Partition) {code : ℤ} (h : code < 0) (s : ℕ) (offset size : UInt32) :
    (Access.refused code).Confined pp s offset size :=
  ⟨.inl h, empty_subset _⟩

lemma exact_refused {code : ℤ} (h : code < 0) : Exact fun _ _ => .refused code :=
  fun _ _ => ⟨empty_subset _, (not_le.mpr h).elim⟩

lemma exact_deviceCall {ready : Bool} {op : Option DeviceOp} (h : ∀ o, op = some o → Exact o) :
    Exact (deviceCall ready op) := by
  cases op with
  | none => exact exact_refused (by decide)
  | some op =>
    cases ready with
    | false => exact exact_refused (by decide)
    | true => exact h op rfl

lemma Device.Exact.deviceRead {d : Device} (h : d.Exact) : Block.Exact (deviceRead d) :=
  exact_deviceCall h.read

lemma Device.Exact.deviceWrite {d : Device} (h : d.Exact) : Block.Exact (deviceWrite d) :=
  exact_deviceCall h.write

lemma range_zero (a : ℕ) : range a 0 = ∅ := Ico_self a

lemma range_inj {a b : ℕ} {size : UInt32} (hs : size ≠ 0) (h : range a size = range b size) :
    a = b := by
  have pos : 0 < size.toNat := by
    rw [Nat.pos_iff_ne_zero]
    exact fun h0 => hs (UInt32.toNat_inj.mp h0)
  have ha : a ∈ range b size := h ▸ ⟨le_rfl, by omega⟩
  have hb : b ∈ range a size := h ▸ ⟨le_rfl, by omega⟩
  exact le_antisymm hb.1 ha.1

lemma range_subset_bytes (pp : Partition) {s : ℕ} {offset size : UInt32}
    (h : offset.toNat + size.toNat ≤ pp.sectors.toNat * s) :
    range (pp.startLba.toNat * s + offset.toNat) size ⊆ pp.bytes s := by
  intro x hx
  have h1 : pp.startLba.toNat * s + offset.toNat ≤ x := hx.1
  have h2 : x < pp.startLba.toNat * s + offset.toNat + size.toNat := hx.2
  refine ⟨by omega, ?_⟩
  rw [Nat.add_mul]
  omega

lemma confined_of_low {op : DeviceOp} (hop : Exact op) (pp : Partition) {s offset size : UInt32}
    (h : pp.Low s.toNat offset size) :
    (partAccess s op pp offset size).Confined pp s.toNat offset size := by
  unfold partAccess
  by_cases hb : pp.sectors.toNat * s.toNat < offset.toNat + size.toNat
  · rw [if_pos hb]
    exact confined_refused pp (by decide) _ _ _
  rw [if_neg hb]
  obtain ⟨hsub, heq⟩ := hop (UInt32.ofNat (pp.startLba.toNat * s.toNat + offset.toNat)) size
  rcases h with h | rfl | h
  · exact absurd h hb
  · -- an empty request touches nothing, wherever it goes
    rw [range_zero, subset_empty_iff] at hsub
    exact ⟨.inr (hsub.trans (range_zero _).symm), hsub ▸ empty_subset _⟩
  · rw [UInt32.toNat_ofNat_of_lt' h] at hsub heq
    refine ⟨?_, hsub.trans (range_subset_bytes pp (not_lt.mp hb))⟩
    rcases lt_or_ge (op _ size).result 0 with hr | hr
    · exact .inl hr
    · exact .inr (heq hr)

/-- An operation of a disk that has all bytes. -/
def wholeDisk : DeviceOp := fun offset size => ⟨0, range offset.toNat size⟩

/-- The device of such a disk. -/
def wholeDevice (sectorSize : UInt32) : Device :=
  ⟨true, some wholeDisk, some wholeDisk, some sectorSize⟩

lemma exact_wholeDisk : Exact wholeDisk := fun _ _ => ⟨subset_rfl, fun _ => rfl⟩

lemma exact_wholeDevice (s : UInt32) : (wholeDevice s).Exact :=
  ⟨fun _ h => Option.some.inj h ▸ exact_wholeDisk, fun _ h => Option.some.inj h ▸ exact_wholeDisk⟩

lemma low_of_confined (pp : Partition) {s offset size : UInt32}
    (h : (partAccess s wholeDisk pp offset size).Confined pp s.toNat offset size) :
    pp.Low s.toNat offset size := by
  unfold partAccess at h
  by_cases hb : pp.sectors.toNat * s.toNat < offset.toNat + size.toNat
  · exact .inl hb
  rw [if_neg hb] at h
  by_cases hs : size = 0
  · exact .inr (.inl hs)
  have never : ¬(0 : ℤ) < 0 := by decide
  have heq := range_inj hs (h.1.resolve_left never)
  refine .inr (.inr ?_)
  rw [← heq]
  exact UInt32.toNat_lt _

section

variable {op : Device → DeviceOp} (hop : ∀ d, d.Exact → Exact (op d))
  (hwhole : ∀ s, op (wholeDevice s) = wholeDisk) (startLba sectors offset size : UInt32)

include hop hwhole

lemma ataPart_confined_iff (s : UInt32) : (∀ base : Device, base.Exact → base.sectorSize = some s →
      (ataPart op ⟨base, startLba, sectors⟩ offset size).Confined ⟨base, startLba, sectors⟩ s.toNat
        offset size) ↔ Partition.Low ⟨none, startLba, sectors⟩ s.toNat offset size := by
  constructor
  · intro h
    have hw := h (wholeDevice s) (exact_wholeDevice s) rfl
    dsimp only [ataPart, wholeDevice] at hw
    rw [← wholeDevice, hwhole s] at hw
    exact low_of_confined _ hw
  · intro h base hbase hs
    dsimp only [ataPart]
    rw [hs]
    exact confined_of_low (hop base hbase) _ h

lemma ahciPart_confined_iff : (∀ base : Device, base.Exact →
      (ahciPart op ⟨base, startLba, sectors⟩ offset size).Confined ⟨base, startLba, sectors⟩ 512
        offset size) ↔ Partition.Low ⟨none, startLba, sectors⟩ 512 offset size := by
  constructor
  · intro h
    have hw := h (wholeDevice 512) (exact_wholeDevice 512)
    dsimp only [ahciPart] at hw
    rw [hwhole 512] at hw
    exact low_of_confined _ hw
  · intro h base hbase
    exact confined_of_low (hop base hbase) _ h

end

/-- A request stays in its partition exactly when it is rejected, empty, or starts below 4 GiB. -/
theorem partition_confined_iff (startLba sectors offset size : UInt32) : (∀ s : UInt32,
      ((∀ base : Device, base.Exact → base.sectorSize = some s →
        (ataPartRead ⟨base, startLba, sectors⟩ offset size).Confined ⟨base, startLba, sectors⟩
          s.toNat offset size) ↔ Partition.Low ⟨none, startLba, sectors⟩ s.toNat offset size) ∧
      ((∀ base : Device, base.Exact → base.sectorSize = some s →
        (ataPartWrite ⟨base, startLba, sectors⟩ offset size).Confined ⟨base, startLba, sectors⟩
          s.toNat offset size) ↔ Partition.Low ⟨none, startLba, sectors⟩ s.toNat offset size)) ∧
    ((∀ base : Device, base.Exact →
      (ahciPartRead ⟨base, startLba, sectors⟩ offset size).Confined ⟨base, startLba, sectors⟩ 512
        offset size) ↔ Partition.Low ⟨none, startLba, sectors⟩ 512 offset size) ∧
    ((∀ base : Device, base.Exact →
      (ahciPartWrite ⟨base, startLba, sectors⟩ offset size).Confined ⟨base, startLba, sectors⟩ 512
        offset size) ↔ Partition.Low ⟨none, startLba, sectors⟩ 512 offset size) := by
  have hread : ∀ d : Device, d.Exact → Exact (deviceRead d) := fun _ h => h.deviceRead
  have hwrite : ∀ d : Device, d.Exact → Exact (deviceWrite d) := fun _ h => h.deviceWrite
  refine ⟨fun s => ⟨?_, ?_⟩, ?_, ?_⟩
  · exact ataPart_confined_iff hread (fun _ => rfl) startLba sectors offset size s
  · exact ataPart_confined_iff hwrite (fun _ => rfl) startLba sectors offset size s
  · exact ahciPart_confined_iff hread (fun _ => rfl) startLba sectors offset size
  · exact ahciPart_confined_iff hwrite (fun _ => rfl) startLba sectors offset size

/-- A disk with one partition of 2048 sectors from 4 GiB on. -/
def highMbr : Buffer :=
  (Buffer.setWord (Function.update (fun _ => 0) 450 0x0C) 454 0x800000).setWord 458 2048 |>.setWord
    508 0xAA550000

/-- The first sector of a partition at 4 GiB is that of the disk. -/
theorem high_partition_reads_mbr : ∃ pp ∈ mbrPartitions (wholeDevice 512) highMbr 16,
      (ataPartRead pp 0 512).result = 0 ∧ (ahciPartRead pp 0 512).result = 0 ∧
      0 ∈ (ataPartRead pp 0 512).touched ∧ 0 ∈ (ahciPartRead pp 0 512).touched ∧
      0 ∉ pp.bytes 512 := by
  refine ⟨⟨wholeDevice 512, 0x800000, 2048⟩, ?_, rfl, rfl, ?_, ?_, ?_⟩
  · exact List.mem_of_mem_head? rfl
  · exact ⟨le_rfl, by decide⟩
  · exact ⟨le_rfl, by decide⟩
  · exact fun h => absurd h.1 (by decide)

end FrostByte.Block
