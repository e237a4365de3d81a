import FrostByte.Lib.Buffer
import FrostByte.Lib.Word
import Mathlib.Data.Finset.Card

/-!
# Reading and writing a disk

The read and write operations of the ATA and AHCI drivers, from a byte range to a command for the
drive, which delivers or stores the sectors that the command names, or fails.

## Main definitions

* `ataDeviceRead`, `ataDeviceWrite` — the ATA driver, with its loop over sectors.
* `ahciReadSectors`, `ahciWriteSectors` — the AHCI driver, with its buffer for DMA.
* `Transfer.Exact` — the bytes of the request are moved, and no others.

## Main results

* `ataReadExact_iff`, `ataWriteExact_iff` — when the ATA driver is exact.
* `ahciReadExact_iff`, `ahciWriteExact_iff` — when the AHCI driver is.
* `transfer_exact_iff` — when both are, for reads and writes.
* `short_transfer_inexact` — one byte that is not moved as asked.
-/

namespace FrostByte.Block

open Word Buffer

/-- What a call of a driver has done. -/
structure Transfer where
  /-- The size that is returned at the end, or nothing if the call fails before. -/
  result : Option UInt32
  /-- The caller's buffer after a read, the disk after a write. -/
  target : Buffer
  /-- How many bytes of the caller's buffer are accessed. -/
  used : ℕ

/-! ## ATA -/

/-- A drive reports a sector size only above 256 words. -/
structure SectorSize where
  bytes : UInt32
  le : 512 ≤ bytes.toNat

/-- The sectors, and the blocks for which the drive is busy or has an error. -/
structure AtaDrive where
  sectorSize : SectorSize
  disk : Buffer
  busy : Bool
  fails : ℕ → Bool
  flushFails : ℕ → Bool

/-- The loop of `ata_read_sectors`, with `n` blocks to go after `s`. -/
def AtaDrive.readLoop (d : AtaDrive) (start : ℕ) : ℕ → ℕ → Buffer → Bool × ℕ × Buffer
  | 0, s, buffer => (true, s, buffer)
  | n + 1, s, buffer =>
    if d.fails s then (false, s, buffer)
    else d.readLoop start n (s + 1) (buffer.copy (s * 512) d.disk (start + s * 512) 512)

/-- The loop of `ata_write_sectors`. A sector is stored when all its bytes have come. -/
def AtaDrive.writeLoop (d : AtaDrive) (start : ℕ) (buffer : Buffer) :
    ℕ → ℕ → Buffer → Bool × ℕ × Buffer
  | 0, s, disk => (true, s, disk)
  | n + 1, s, disk =>
    if d.fails s then (false, s, disk)
    else
      let stored := (s + 1) * 512 / d.sectorSize.bytes.toNat * d.sectorSize.bytes.toNat
      let disk := disk.copy start buffer 0 stored
      if d.flushFails s then (false, s + 1, disk) else d.writeLoop start buffer n (s + 1) disk

/-- The address of a sector, of whose number 28 bits reach the drive. -/
def AtaDrive.address (d : AtaDrive) (lba : ℕ) : ℕ := lba % 2 ^ 28 * d.sectorSize.bytes.toNat

/-- `ata_read_sectors`. -/
def ataReadSectors (d : AtaDrive) (lba sectorCount : ℕ) (buffer : Buffer) : Bool × ℕ × Buffer :=
  if d.busy then (false, 0, buffer) else d.readLoop (d.address lba) sectorCount 0 buffer

/-- `ata_write_sectors`. -/
def ataWriteSectors (d : AtaDrive) (lba sectorCount : ℕ) (buffer : Buffer) : Bool × ℕ × Buffer :=
  if d.busy then (false, 0, d.disk) else d.writeLoop (d.address lba) buffer sectorCount 0 d.disk

/-- The number of sectors of a request, as a `uint8_t`. -/
def ataSectorCount (sectorSize size : ℕ) : ℕ := w32 (size + sectorSize - 1) / sectorSize % 256

/-- `ata_device_read`: the offset is rounded down to a sector. -/
def ataDeviceRead (d : AtaDrive) (offset size : UInt32) (buffer : Buffer) : Transfer :=
  let sectorSize := d.sectorSize.bytes.toNat
  let r :=
    ataReadSectors d (offset.toNat / sectorSize) (ataSectorCount sectorSize size.toNat) buffer
  ⟨if r.1 then some size else none, r.2.2, r.2.1 * 512⟩

/-- `ata_device_write`: the offset is rounded down to a sector. -/
def ataDeviceWrite (d : AtaDrive) (offset size : UInt32) (buffer : Buffer) : Transfer :=
  let sectorSize := d.sectorSize.bytes.toNat
  let r :=
    ataWriteSectors d (offset.toNat / sectorSize) (ataSectorCount sectorSize size.toNat) buffer
  ⟨if r.1 then some size else none, r.2.2, r.2.1 * 512⟩

/-! ## AHCI -/

/-- How a command of the drive ends. -/
inductive Outcome
  /-- There is no free slot for it. -/
  | noSlot
  /-- There is an error or a timeout after some bytes. -/
  | error (moved : ℕ)
  | done

/-- The size of the buffer for DMA. -/
def dmaBufferSize : ℕ := 128 * 1024

/-- The drive, physical memory, the addresses behind `dma_buffer`, and how the command ends. -/
structure AhciPort where
  disk : Buffer
  memory : Buffer
  phys : ℕ → ℕ
  outcome : Outcome

/-- With the bytes of `dma_buffer` that the driver and the controller access. -/
structure AhciTransfer extends Transfer where
  copied : ℕ
  dma : ℕ

/-- The sectors of a request, rounded up. -/
def ahciCount (size : ℕ) : ℕ := w32 (size + 511) / 512

/-- The sectors that `countl` and `counth` name; zero names 65536. -/
def sectorsNamed (count : ℕ) : ℕ := if count % 65536 = 0 then 65536 else count % 65536

/-- The bytes that the descriptor names; `dbc` is one less, in 22 bits. -/
def prdtBytes (count : ℕ) : ℕ := sub32 (count * 512) 1 % 2 ^ 22 + 1

/-- What the drive moves: the command and the descriptor both set a limit. -/
def dmaLength (count : ℕ) : ℕ := min (sectorsNamed count * 512) (prdtBytes count)

/-- `memcpy(dma_buffer, src, n)` in physical memory. -/
def scatter (memory : Buffer) (phys : ℕ → ℕ) (src : Buffer) : ℕ → Buffer
  | 0 => memory
  | n + 1 => Function.update (scatter memory phys src n) (phys n) (src n)

/-- `ahci_read_sectors`. -/
def ahciReadSectors (p : AhciPort) (offset size : UInt32) (buffer : Buffer) : AhciTransfer :=
  let lba := offset.toNat / 512
  let length := dmaLength (ahciCount size.toNat)
  match p.outcome with
  | .noSlot => ⟨⟨none, buffer, 0⟩, 0, 0⟩
  | .error moved => ⟨⟨none, buffer, 0⟩, 0, min moved length⟩
  | .done =>
    let memory := p.memory.copy (p.phys 0) p.disk (lba * 512) length
    ⟨⟨some size, buffer.copy 0 (fun i => memory (p.phys i)) 0 size.toNat, size.toNat⟩, size.toNat,
      length⟩

/-- `ahci_write_sectors`. -/
def ahciWriteSectors (p : AhciPort) (offset size : UInt32) (buffer : Buffer) : AhciTransfer :=
  let lba := offset.toNat / 512
  let length := dmaLength (ahciCount size.toNat)
  let memory := scatter p.memory p.phys buffer size.toNat
  match p.outcome with
  | .noSlot => ⟨⟨none, p.disk, 0⟩, 0, 0⟩
  | .error moved =>
    ⟨⟨none, p.disk.copy (lba * 512) memory (p.phys 0) (min moved length), size.toNat⟩, size.toNat,
      min moved length⟩
  | .done =>
    ⟨⟨some size, p.disk.copy (lba * 512) memory (p.phys 0) length, size.toNat⟩, size.toNat, length⟩

/-! ## Exact transfers -/

/-- A success moves `size` bytes and nothing else; only these bytes of the caller's buffer are
accessed. -/
def Transfer.Exact (t : Transfer) (dst : Buffer) (d : ℕ) (src : Buffer) (s : ℕ) (size : UInt32) :
    Prop :=
  (t.result.isSome → t.target = dst.copy d src s size.toNat) ∧ t.used ≤ size.toNat

/-- The driver and the controller access the bounce buffer only. -/
def AhciTransfer.InBuffer (t : AhciTransfer) (phys : ℕ → ℕ) : Prop :=
  t.copied ≤ dmaBufferSize ∧ ∀ i < t.dma, ∃ j < dmaBufferSize, phys j = phys 0 + i

/-- Reads of this range are exact on every ATA drive. -/
def AtaReadExact (s : SectorSize) (offset size : UInt32) : Prop :=
  ∀ (d : AtaDrive) (buffer : Buffer), d.sectorSize = s →
    (ataDeviceRead d offset size buffer).Exact buffer 0 d.disk offset.toNat size

/-- Writes of this range are exact on every ATA drive. -/
def AtaWriteExact (s : SectorSize) (offset size : UInt32) : Prop :=
  ∀ (d : AtaDrive) (buffer : Buffer), d.sectorSize = s →
    (ataDeviceWrite d offset size buffer).Exact d.disk offset.toNat buffer 0 size

/-- Reads of this range are exact on every AHCI port. -/
def AhciReadExact (phys : ℕ → ℕ) (offset size : UInt32) : Prop :=
  ∀ (p : AhciPort) (buffer : Buffer), p.phys = phys →
    (ahciReadSectors p offset size buffer).Exact buffer 0 p.disk offset.toNat size ∧
      (ahciReadSectors p offset size buffer).InBuffer phys

/-- Writes of this range are exact on every AHCI port. -/
def AhciWriteExact (phys : ℕ → ℕ) (offset size : UInt32) : Prop :=
  ∀ (p : AhciPort) (buffer : Buffer), p.phys = phys →
    (ahciWriteSectors p offset size buffer).Exact p.disk offset.toNat buffer 0 size ∧
      (ahciWriteSectors p offset size buffer).InBuffer phys

/-! ## ATA transfers -/

section

variable (d : AtaDrive) (start : ℕ)

lemma readLoop_spec (n : ℕ) : ∀ (s : ℕ) (buffer : Buffer),
    (d.readLoop start n s buffer).2.1 ≤ s + n ∧ ((d.readLoop start n s buffer).1 = true →
      (d.readLoop start n s buffer).2.2 = buffer.copy (s * 512) d.disk (start + s * 512)
      (n * 512)) := by
  induction n with
  | zero =>
    intro s buffer
    exact ⟨le_rfl, fun _ => by rw [Nat.zero_mul, copy_zero]; rfl⟩
  | succ n ih =>
    intro s buffer
    rw [AtaDrive.readLoop]
    by_cases hf : d.fails s = true
    · rw [if_pos hf]
      exact ⟨Nat.le_add_right _ _, by simp⟩
    rw [if_neg hf]
    obtain ⟨h1, h2⟩ := ih (s + 1) (buffer.copy (s * 512) d.disk (start + s * 512) 512)
    refine ⟨by omega, fun hok => ?_⟩
    rw [h2 hok, show (s + 1) * 512 = s * 512 + 512 by omega, ← Nat.add_assoc, copy_append,
      show 512 + n * 512 = (n + 1) * 512 by omega]

lemma writeLoop_spec (buffer : Buffer) (n : ℕ) : ∀ (s : ℕ) (disk : Buffer),
    (d.writeLoop start buffer n s disk).2.1 ≤ s + n ∧
    ((d.writeLoop start buffer n s disk).1 = true →
        (d.writeLoop start buffer n s disk).2.2 = if n = 0 then disk else disk.copy start buffer 0
          ((s + n) * 512 / d.sectorSize.bytes.toNat * d.sectorSize.bytes.toNat)) := by
  induction n with
  | zero =>
    intro s disk
    exact ⟨le_rfl, fun _ => rfl⟩
  | succ n ih =>
    intro s disk
    rw [AtaDrive.writeLoop]
    by_cases hf : d.fails s = true
    · rw [if_pos hf]
      exact ⟨Nat.le_add_right _ _, by simp⟩
    rw [if_neg hf]
    by_cases hl : d.flushFails s = true
    · rw [if_pos hl]
      exact ⟨by dsimp only; omega, by simp⟩
    rw [if_neg hl]
    obtain ⟨h1, h2⟩ := ih (s + 1) (disk.copy start buffer 0
      ((s + 1) * 512 / d.sectorSize.bytes.toNat * d.sectorSize.bytes.toNat))
    refine ⟨by omega, fun hok => ?_⟩
    rw [h2 hok, if_neg (Nat.succ_ne_zero n), show s + (n + 1) = s + 1 + n by omega]
    split_ifs with hn
    · rw [hn]
    · rw [copy_of_le]
      exact Nat.mul_le_mul_right _ (Nat.div_le_div_right (by omega))

end

lemma ataReadSectors_spec (d : AtaDrive) (lba n : ℕ) (buffer : Buffer) :
    (ataReadSectors d lba n buffer).2.1 ≤ n ∧ ((ataReadSectors d lba n buffer).1 = true →
      (ataReadSectors d lba n buffer).2.2 = buffer.copy 0 d.disk (d.address lba) (n * 512)) := by
  unfold ataReadSectors
  by_cases hb : d.busy = true
  · rw [if_pos hb]
    exact ⟨Nat.zero_le _, by simp⟩
  rw [if_neg hb]
  obtain ⟨h1, h2⟩ := readLoop_spec d (d.address lba) n 0 buffer
  exact ⟨by omega, h2⟩

lemma ataWriteSectors_spec (d : AtaDrive) (lba n : ℕ) (buffer : Buffer) :
    (ataWriteSectors d lba n buffer).2.1 ≤ n ∧ ((ataWriteSectors d lba n buffer).1 = true →
      (ataWriteSectors d lba n buffer).2.2 = d.disk.copy (d.address lba) buffer 0
        (n * 512 / d.sectorSize.bytes.toNat * d.sectorSize.bytes.toNat)) := by
  unfold ataWriteSectors
  by_cases hb : d.busy = true
  · rw [if_pos hb]
    exact ⟨Nat.zero_le _, by simp⟩
  rw [if_neg hb]
  obtain ⟨h1, h2⟩ := writeLoop_spec d (d.address lba) buffer n 0 d.disk
  refine ⟨by omega, fun hok => ?_⟩
  rw [h2 hok, Nat.zero_add]
  split_ifs with h0
  · simp [h0, copy_zero]
  · rfl

/-- A drive without errors. -/
def goodDrive (s : SectorSize) (disk : Buffer) : AtaDrive :=
  ⟨s, disk, false, fun _ => false, fun _ => false⟩

lemma ataDeviceRead_spec (d : AtaDrive) (offset size : UInt32) (buffer : Buffer) :
    (ataDeviceRead d offset size buffer).used ≤ ataSectorCount d.sectorSize.bytes.toNat size.toNat *
    512 ∧
      ((ataDeviceRead d offset size buffer).result.isSome →
        (ataDeviceRead d offset size buffer).target =
        buffer.copy 0 d.disk (d.address (offset.toNat / d.sectorSize.bytes.toNat))
          (ataSectorCount d.sectorSize.bytes.toNat size.toNat * 512)) := by
  obtain ⟨h1, h2⟩ := ataReadSectors_spec d (offset.toNat / d.sectorSize.bytes.toNat)
    (ataSectorCount d.sectorSize.bytes.toNat size.toNat) buffer
  exact ⟨Nat.mul_le_mul_right 512 h1, fun hr => h2 (Option.isSome_ite.mp hr)⟩

lemma ataDeviceWrite_spec (d : AtaDrive) (offset size : UInt32) (buffer : Buffer) :
    (ataDeviceWrite d offset size buffer).used ≤ ataSectorCount d.sectorSize.bytes.toNat
    size.toNat * 512 ∧
      ((ataDeviceWrite d offset size buffer).result.isSome →
        (ataDeviceWrite d offset size buffer).target =
          d.disk.copy (d.address (offset.toNat / d.sectorSize.bytes.toNat)) buffer 0
            (ataSectorCount d.sectorSize.bytes.toNat size.toNat * 512 / d.sectorSize.bytes.toNat *
              d.sectorSize.bytes.toNat)) := by
  obtain ⟨h1, h2⟩ := ataWriteSectors_spec d (offset.toNat / d.sectorSize.bytes.toNat)
    (ataSectorCount d.sectorSize.bytes.toNat size.toNat) buffer
  exact ⟨Nat.mul_le_mul_right 512 h1, fun hr => h2 (Option.isSome_ite.mp hr)⟩

lemma readLoop_good (s : SectorSize) (disk : Buffer) (start n : ℕ) : ∀ (k : ℕ) (buffer : Buffer),
    ((goodDrive s disk).readLoop start n k buffer).1 = true ∧
      ((goodDrive s disk).readLoop start n k buffer).2.1 = k + n := by
  induction n with
  | zero => exact fun k buffer => ⟨rfl, rfl⟩
  | succ n ih =>
    intro k buffer
    obtain ⟨h1, h2⟩ := ih (k + 1) (buffer.copy (k * 512) disk (start + k * 512) 512)
    exact ⟨h1, h2.trans (by omega)⟩

lemma writeLoop_good (s : SectorSize) (disk buffer : Buffer) (start n : ℕ) :
    ∀ (k : ℕ) (disk' : Buffer), ((goodDrive s disk).writeLoop start buffer n k disk').1 = true ∧
      ((goodDrive s disk).writeLoop start buffer n k disk').2.1 = k + n := by
  induction n with
  | zero => exact fun k disk' => ⟨rfl, rfl⟩
  | succ n ih =>
    intro k disk'
    obtain ⟨h1, h2⟩ := ih (k + 1)
      (disk'.copy start buffer 0 ((k + 1) * 512 / s.bytes.toNat * s.bytes.toNat))
    exact ⟨h1, h2.trans (by omega)⟩

lemma ataDeviceRead_good (s : SectorSize) (disk buffer : Buffer) (offset size : UInt32) :
    (ataDeviceRead (goodDrive s disk) offset size buffer).result.isSome ∧
      (ataDeviceRead (goodDrive s disk) offset size buffer).used =
        ataSectorCount s.bytes.toNat size.toNat * 512 := by
  obtain ⟨h1, h2⟩ := readLoop_good s disk
    ((goodDrive s disk).address (offset.toNat / s.bytes.toNat))
    (ataSectorCount s.bytes.toNat size.toNat)
    0 buffer
  rw [Nat.zero_add] at h2
  refine ⟨?_, congrArg (· * 512) h2⟩
  exact congrArg Option.isSome (if_pos h1)

lemma ataDeviceWrite_good (s : SectorSize) (disk buffer : Buffer) (offset size : UInt32) :
    (ataDeviceWrite (goodDrive s disk) offset size buffer).result.isSome ∧
      (ataDeviceWrite (goodDrive s disk) offset size buffer).used =
        ataSectorCount s.bytes.toNat size.toNat * 512 := by
  obtain ⟨h1, h2⟩ := writeLoop_good s disk buffer
    ((goodDrive s disk).address (offset.toNat / s.bytes.toNat))
    (ataSectorCount s.bytes.toNat size.toNat)
    0 disk
  rw [Nat.zero_add] at h2
  refine ⟨?_, congrArg (· * 512) h2⟩
  exact congrArg Option.isSome (if_pos h1)

/-- The loop moves the bytes of the request, block by block. -/
def WholeBlocks (sectorSize size : ℕ) : Prop :=
  512 ∣ size ∧ size ≤ 255 * 512 ∧ (size / 512 - 1) * sectorSize < size ∧ size + sectorSize ≤ 2 ^ 32

lemma ataSectorCount_le (s size : ℕ) : ataSectorCount s size ≤ 255 :=
  Nat.le_of_lt_succ (Nat.mod_lt _ (by decide))

variable {offset : UInt32} {s size : ℕ}

lemma ataSectorCount_eq {k : ℕ} (h : size + s ≤ 2 ^ 32) (hk : k ≤ 255)
    (h1 : k * s ≤ size + s - 1) (h2 : size + s - 1 < (k + 1) * s) : ataSectorCount s size = k := by
  unfold ataSectorCount
  rw [w32_of_lt (by omega), Nat.div_eq_of_lt_le h1 h2]
  exact Nat.mod_eq_of_lt (by omega)

lemma ataSectorCount_mul_iff (hs : 512 ≤ s) (hs32 : s < 2 ^ 32) (h0 : 0 < size) :
    ataSectorCount s size * 512 = size ↔ WholeBlocks s size := by
  constructor
  · intro h
    have hk := ataSectorCount_le s size
    have hdef : ataSectorCount s size = w32 (size + s - 1) / s % 256 := rfl
    generalize ataSectorCount s size = k at h hk hdef
    have hfit : size + s ≤ 2 ^ 32 := by
      by_contra hwrap
      -- after a wrap the sum is less than a sector
      have hw : w32 (size + s - 1) < s := by
        unfold w32
        omega
      rw [Nat.div_eq_of_lt hw] at hdef
      omega
    rw [w32_of_lt (by omega)] at hdef
    have hle : k * 512 ≤ k * s := Nat.mul_le_mul_left k hs
    have hq : (size + s - 1) / s < k + 1 := by
      rw [Nat.div_lt_iff_lt_mul (by omega), Nat.add_mul]
      omega
    rw [Nat.mod_eq_of_lt (by omega)] at hdef
    have hks : k * s ≤ size + s - 1 := by
      rw [hdef]
      exact Nat.div_mul_le_self _ _
    refine ⟨⟨k, by omega⟩, by omega, ?_, hfit⟩
    rw [show size / 512 = k by omega, Nat.sub_mul]
    omega
  · rintro ⟨⟨k, rfl⟩, h255, hlast, hfit⟩
    rw [Nat.mul_div_cancel_left k (by decide), Nat.sub_mul] at hlast
    have hle : k * 512 ≤ k * s := Nat.mul_le_mul_left k hs
    have hup : 512 * k + s - 1 < (k + 1) * s := by
      rw [Nat.add_mul]
      omega
    rw [ataSectorCount_eq hfit (by omega) (by omega) hup, Nat.mul_comm]

lemma AtaReadExact.copies {s : SectorSize} {size : UInt32} (h : AtaReadExact s offset size)
    (buffer disk : Buffer) :
    buffer.copy 0 disk (offset.toNat / s.bytes.toNat % 2 ^ 28 * s.bytes.toNat)
        (ataSectorCount s.bytes.toNat size.toNat * 512) =
      buffer.copy 0 disk offset.toNat size.toNat := by
  have hok := (ataDeviceRead_good s disk buffer offset size).1
  exact ((ataDeviceRead_spec _ offset size buffer).2 hok).symm.trans ((h _ buffer rfl).1 hok)

lemma AtaWriteExact.copies {s : SectorSize} {size : UInt32} (h : AtaWriteExact s offset size)
    (disk buffer : Buffer) :
    disk.copy (offset.toNat / s.bytes.toNat % 2 ^ 28 * s.bytes.toNat) buffer 0
        (ataSectorCount s.bytes.toNat size.toNat * 512 / s.bytes.toNat * s.bytes.toNat) =
      disk.copy offset.toNat buffer 0 size.toNat := by
  have hok := (ataDeviceWrite_good s disk buffer offset size).1
  exact ((ataDeviceWrite_spec _ offset size buffer).2 hok).symm.trans ((h _ buffer rfl).1 hok)

lemma address_of_dvd (s : SectorSize) (h : s.bytes.toNat ∣ offset.toNat) :
    offset.toNat / s.bytes.toNat % 2 ^ 28 * s.bytes.toNat = offset.toNat := by
  have hle : offset.toNat / s.bytes.toNat ≤ offset.toNat / 512 :=
    Nat.div_le_div_left s.le (by decide)
  have := offset.toNat_lt
  rw [Nat.mod_eq_of_lt (by omega), Nat.div_mul_cancel h]

lemma ataSectorCount_zero (s : SectorSize) : ataSectorCount s.bytes.toNat 0 = 0 := by
  have := s.bytes.toNat_lt
  have := s.le
  exact ataSectorCount_eq (by omega) (by omega) (by omega) (by omega)

/-- A read is exact when it starts at a sector and consists of whole blocks; a drive without errors
shows that nothing less is enough. -/
lemma ataReadExact_iff (s : SectorSize) (offset size : UInt32) :
    AtaReadExact s offset size ↔ size.toNat = 0 ∨
      s.bytes.toNat ∣ offset.toNat ∧ WholeBlocks s.bytes.toNat size.toNat := by
  have hs32 := s.bytes.toNat_lt
  constructor
  · intro h
    rcases Nat.eq_zero_or_pos size.toNat with h0 | h0
    · exact .inl h0
    obtain ⟨-, hsize, haddr⟩ := copy_inj h0 h.copies
    exact .inr ⟨Dvd.intro_left _ haddr, (ataSectorCount_mul_iff s.le hs32 h0).mp hsize⟩
  · rintro h d buffer rfl
    obtain ⟨hused, htarget⟩ := ataDeviceRead_spec d offset size buffer
    rcases h with h0 | ⟨hoff, hblocks⟩
    · rw [h0, ataSectorCount_zero, Nat.zero_mul] at hused htarget
      exact ⟨fun hr => by rw [htarget hr, h0, copy_zero, copy_zero], by omega⟩
    · have hpos : 0 < size.toNat := lt_of_le_of_lt (Nat.zero_le _) hblocks.2.2.1
      rw [(ataSectorCount_mul_iff d.sectorSize.le hs32 hpos).mpr hblocks] at hused htarget
      refine ⟨fun hr => ?_, hused⟩
      rw [htarget hr, AtaDrive.address, address_of_dvd d.sectorSize hoff]

lemma eq_512_of_dvd (hs : 512 ≤ s) (h : WholeBlocks s size) (hd : s ∣ size) : s = 512 := by
  obtain ⟨⟨k, rfl⟩, -, hlast, -⟩ := h
  obtain ⟨q, hq⟩ := hd
  rw [Nat.mul_div_cancel_left k (by decide), hq, Nat.mul_comm s q] at hlast
  have hkq : k ≤ q := Nat.le_of_pred_lt (Nat.lt_of_mul_lt_mul_right hlast)
  have hq0 : 0 < q := Nat.pos_of_lt_mul_right (lt_of_le_of_lt (Nat.zero_le _) hlast)
  refine le_antisymm ?_ hs
  refine Nat.le_of_mul_le_mul_right ?_ hq0
  rw [← hq]
  exact Nat.mul_le_mul_left 512 hkq

lemma wholeBlocks_512 (h0 : 0 < size) : WholeBlocks 512 size ↔ 512 ∣ size ∧ size ≤ 255 * 512 := by
  unfold WholeBlocks
  omega

/-- Writes go in blocks of 512 bytes, whatever the sector size is. -/
lemma ataWriteExact_iff (s : SectorSize) (offset size : UInt32) :
    AtaWriteExact s offset size ↔ size.toNat = 0 ∨
      s.bytes.toNat = 512 ∧ 512 ∣ offset.toNat ∧ 512 ∣ size.toNat ∧ size.toNat ≤ 255 * 512 := by
  have hs32 := s.bytes.toNat_lt
  have hs := s.le
  constructor
  · intro h
    rcases Nat.eq_zero_or_pos size.toNat with h0 | h0
    · exact .inl h0
    obtain ⟨haddr, hsize, -⟩ := copy_inj h0 h.copies
    -- the driver sends at most `size` bytes, and the drive stores at most what it gets
    have hused := (h (goodDrive s fun _ => 0) (fun _ => 0) rfl).2
    rw [(ataDeviceWrite_good ..).2] at hused
    have hstored :=
      Nat.div_mul_le_self (ataSectorCount s.bytes.toNat size.toNat * 512) s.bytes.toNat
    have hall : ataSectorCount s.bytes.toNat size.toNat * 512 = size.toNat := by omega
    have hblocks := (ataSectorCount_mul_iff hs hs32 h0).mp hall
    have h512 := eq_512_of_dvd hs hblocks (Dvd.intro_left _ hsize)
    rw [h512] at hblocks haddr
    exact .inr ⟨h512, Dvd.intro_left _ haddr, (wholeBlocks_512 h0).mp hblocks⟩
  · rintro h d buffer rfl
    obtain ⟨hused, htarget⟩ := ataDeviceWrite_spec d offset size buffer
    rcases Nat.eq_zero_or_pos size.toNat with h0 | h0
    · rw [h0, ataSectorCount_zero, Nat.zero_mul] at hused htarget
      refine ⟨fun hr => ?_, by omega⟩
      rw [htarget hr, h0, Nat.zero_div, Nat.zero_mul, copy_zero, copy_zero]
    · obtain ⟨h512, hoff, hblocks⟩ := h.resolve_left (by omega)
      rw [← h512] at hoff
      have hb := (wholeBlocks_512 h0).mpr hblocks
      rw [← h512] at hb
      rw [(ataSectorCount_mul_iff hs hs32 h0).mpr hb] at hused htarget
      refine ⟨fun hr => ?_, hused⟩
      rw [htarget hr, AtaDrive.address, address_of_dvd d.sectorSize hoff, h512,
        Nat.div_mul_cancel hblocks.1]

/-! ## AHCI transfers -/

section

variable (memory src : Buffer) (phys : ℕ → ℕ)

lemma scatter_cases (n a : ℕ) : scatter memory phys src n a = memory a ∨
    ∃ j < n, phys j = a ∧ scatter memory phys src n a = src j := by
  induction n with
  | zero => exact .inl rfl
  | succ n ih =>
    by_cases ha : a = phys n
    · subst ha
      exact .inr ⟨n, Nat.lt_succ_self n, rfl, Function.update_self ..⟩
    · have keep : scatter memory phys src (n + 1) a = scatter memory phys src n a :=
        Function.update_of_ne ha ..
      rw [keep]
      refine ih.imp_right ?_
      rintro ⟨j, hj, hp⟩
      exact ⟨j, by omega, hp⟩

lemma scatter_ones (n : ℕ) : scatter (fun _ => 1) phys (fun _ => 1) n = fun _ => 1 := by
  funext a
  obtain h | ⟨j, -, -, h⟩ := scatter_cases (fun _ => 1) (fun _ => 1) phys n a
  · exact h
  · exact h

variable {memory src} {phys}

lemma scatter_of_contiguous {n : ℕ} (h : ∀ i < n, phys i = phys 0 + i) {i : ℕ} (hi : i < n) :
    scatter memory phys src n (phys 0 + i) = src i := by
  induction n with
  | zero => exact absurd hi (Nat.not_lt_zero i)
  | succ n ih =>
    rw [scatter, h n (Nat.lt_succ_self n)]
    rcases Nat.lt_succ_iff_lt_or_eq.mp hi with hlt | rfl
    · rw [Function.update_of_ne (by omega)]
      exact ih (fun j hj => h j (by omega)) hlt
    · exact Function.update_self ..

lemma le_of_covered {n m : ℕ} (h : ∀ i < n, ∃ j < m, phys j = phys 0 + i) : n ≤ m := by
  have hsub : (Finset.range n).image (phys 0 + ·) ⊆ (Finset.range m).image phys := by
    intro a ha
    obtain ⟨i, hi, rfl⟩ := Finset.mem_image.mp ha
    obtain ⟨j, hj, hp⟩ := h i (Finset.mem_range.mp hi)
    exact Finset.mem_image.mpr ⟨j, Finset.mem_range.mpr hj, hp⟩
  calc n = ((Finset.range n).image (phys 0 + ·)).card := by
        rw [Finset.card_image_of_injective _ (add_right_injective _), Finset.card_range]
    _ ≤ ((Finset.range m).image phys).card := Finset.card_le_card hsub
    _ ≤ m := (Finset.card_image_le).trans_eq (Finset.card_range m)

end

lemma dmaLength_eq (h0 : 0 < size) (h : size ≤ dmaBufferSize) :
    dmaLength (ahciCount size) = (size + 511) / 512 * 512 := by
  have hsize : size ≤ 131072 := h
  have hcount : ahciCount size = (size + 511) / 512 := by
    unfold ahciCount w32
    rw [Nat.mod_eq_of_lt (by omega)]
  have hlt : 0 < (size + 511) / 512 ∧ (size + 511) / 512 ≤ 256 := by omega
  rw [hcount]
  generalize (size + 511) / 512 = count at hlt
  have hnamed : sectorsNamed count = count := by
    unfold sectorsNamed
    rw [Nat.mod_eq_of_lt (by omega), if_neg (by omega)]
  have hprdt : prdtBytes count = count * 512 := by
    unfold prdtBytes
    rw [sub32_of_le (by omega) (by omega)]
    omega
  simp [dmaLength, hnamed, hprdt]

/-- The first `size` bytes of the bounce buffer are contiguous in memory. -/
def Contiguous (phys : ℕ → ℕ) (size : ℕ) : Prop := ∀ i < size, phys i = phys 0 + i

lemma size_of_inBuffer {t : AhciTransfer} {phys : ℕ → ℕ} (h : t.InBuffer phys)
    (hc : t.copied = size) (hd : t.dma = dmaLength (ahciCount size)) :
    0 < size ∧ size ≤ dmaBufferSize := by
  rw [AhciTransfer.InBuffer, hc, hd] at h
  refine ⟨Nat.pos_of_ne_zero ?_, h.1⟩
  rintro rfl
  have := le_of_covered h.2
  exact absurd this (by decide)

/-- A read needs a buffer for DMA that is contiguous in physical memory as far as the drive
writes. -/
lemma ahciReadExact_iff (phys : ℕ → ℕ) (offset size : UInt32) :
    AhciReadExact phys offset size ↔ 0 < size.toNat ∧ size.toNat ≤ dmaBufferSize ∧
      512 ∣ offset.toNat ∧ Contiguous phys size.toNat ∧
      ∀ i < (size.toNat + 511) / 512 * 512, ∃ j < dmaBufferSize, phys j = phys 0 + i := by
  constructor
  · intro h
    have hbuffer := (h ⟨fun _ => 0, fun _ => 0, phys, .done⟩ (fun _ => 0) rfl).2
    obtain ⟨h0, hle⟩ : 0 < size.toNat ∧ size.toNat ≤ dmaBufferSize :=
      size_of_inBuffer hbuffer rfl rfl
    -- a single one at byte `i` of the request has to arrive as byte `i`
    have moved : ∀ i < size.toNat,
        offset.toNat / 512 * 512 + (phys i - phys 0) = offset.toNat + i ∧ phys 0 ≤ phys i := by
      intro i hi
      have hone := congrFun ((h ⟨one (offset.toNat + i), fun _ => 0, phys, .done⟩
        (fun _ => 0) rfl).1.1 rfl) i
      dsimp only [ahciReadSectors] at hone
      rw [copy_of_mem _ _ (Nat.zero_le i) (by omega),
        copy_of_mem _ _ (Nat.zero_le i) (by omega), Nat.sub_zero, Nat.zero_add,
        one_eq_one.mpr rfl, copy] at hone
      split_ifs at hone with hin
      · exact ⟨one_eq_one.mp hone, hin.1⟩
      · cases hone
    have hoff := (moved 0 h0).1
    rw [Nat.sub_self, Nat.add_zero] at hoff
    refine ⟨h0, hle, Dvd.intro_left _ hoff, fun i hi => ?_, ?_⟩
    · have := moved i hi
      omega
    · rw [← dmaLength_eq h0 hle]
      exact hbuffer.2
  · rintro ⟨h0, hle, hoff, hcont, hcover⟩ ⟨disk, memory, phys, outcome⟩ buffer rfl
    rw [← dmaLength_eq h0 hle] at hcover
    cases outcome with
    | noSlot => exact ⟨⟨fun h => absurd h Bool.false_ne_true, Nat.zero_le _⟩, Nat.zero_le _, nofun⟩
    | error moved =>
      exact ⟨⟨fun h => absurd h Bool.false_ne_true, Nat.zero_le _⟩, Nat.zero_le _,
        fun i hi => hcover i (lt_of_lt_of_le hi (Nat.min_le_right _ _))⟩
    | done =>
      refine ⟨⟨fun _ => ?_, le_rfl⟩, hle, hcover⟩
      dsimp only [ahciReadSectors]
      rw [Nat.div_mul_cancel hoff, dmaLength_eq h0 hle]
      funext i
      by_cases hi : i < size.toNat
      · have hp : phys i = phys 0 + i := hcont i hi
        rw [copy_of_mem _ _ (Nat.zero_le i) (by omega),
          copy_of_mem _ _ (Nat.zero_le i) (by omega), Nat.sub_zero, Nat.zero_add, hp,
          copy_of_mem _ _ (by omega) (by omega), Nat.add_sub_cancel_left]
      · rw [copy_of_notMem _ _ (by omega), copy_of_notMem _ _ (by omega)]

/-- A write needs whole sectors and a contiguous buffer. -/
lemma ahciWriteExact_iff (phys : ℕ → ℕ) (offset size : UInt32) :
    AhciWriteExact phys offset size ↔ 0 < size.toNat ∧ size.toNat ≤ dmaBufferSize ∧
      512 ∣ offset.toNat ∧ 512 ∣ size.toNat ∧ Contiguous phys size.toNat := by
  constructor
  · intro h
    have hbuffer := (h ⟨fun _ => 0, fun _ => 0, phys, .done⟩ (fun _ => 0) rfl).2
    obtain ⟨h0, hle⟩ : 0 < size.toNat ∧ size.toNat ≤ dmaBufferSize :=
      size_of_inBuffer hbuffer rfl rfl
    -- ones everywhere in memory arrive at the sectors, and have to arrive at the request
    have ones := (h ⟨fun _ => 0, fun _ => 1, phys, .done⟩ (fun _ => 1) rfl).1.1 rfl
    dsimp only [ahciWriteSectors] at ones
    rw [scatter_ones] at ones
    obtain ⟨hoff, hsize⟩ := copy_ones_inj h0 ones
    rw [dmaLength_eq h0 hle] at hsize
    refine ⟨h0, hle, Dvd.intro_left _ hoff, Dvd.intro_left _ hsize, fun i hi => ?_⟩
    -- a single one at byte `i` of the caller's buffer has to arrive as byte `i`
    have hone := congrFun ((h ⟨fun _ => 0, fun _ => 0, phys, .done⟩ (one i) rfl).1.1 rfl)
      (offset.toNat + i)
    dsimp only [ahciWriteSectors] at hone
    rw [hoff, dmaLength_eq h0 hle, copy_of_mem _ _ (by omega) (by omega),
      copy_of_mem _ _ (by omega) (by omega), Nat.add_sub_cancel_left, Nat.zero_add,
      one_eq_one.mpr rfl] at hone
    obtain hz | ⟨j, -, hj, hsrc⟩ := scatter_cases (fun _ => 0) (one i) phys size.toNat
      (phys 0 + i)
    · rw [hz] at hone
      cases hone
    · rw [hsrc] at hone
      rw [← hj, one_eq_one.mp hone]
  · rintro ⟨h0, hle, hoff, hsize, hcont⟩ ⟨disk, memory, phys, outcome⟩ buffer rfl
    have hdma : dmaLength (ahciCount size.toNat) = size.toNat := by
      rw [dmaLength_eq h0 hle]
      omega
    have hcover : ∀ i < size.toNat, ∃ j < dmaBufferSize, phys j = phys 0 + i :=
      fun i hi => ⟨i, lt_of_lt_of_le hi hle, hcont i hi⟩
    cases outcome with
    | noSlot => exact ⟨⟨fun h => absurd h Bool.false_ne_true, Nat.zero_le _⟩, Nat.zero_le _, nofun⟩
    | error moved =>
      refine ⟨⟨fun h => absurd h Bool.false_ne_true, le_rfl⟩, hle, fun i hi => hcover i ?_⟩
      rw [← hdma]
      exact lt_of_lt_of_le hi (Nat.min_le_right _ _)
    | done =>
      refine ⟨⟨fun _ => ?_, le_rfl⟩, hle, fun i hi => hcover i (hdma ▸ hi)⟩
      dsimp only [ahciWriteSectors]
      rw [Nat.div_mul_cancel hoff, hdma]
      funext i
      by_cases hi : offset.toNat ≤ i ∧ i < offset.toNat + size.toNat
      · rw [copy_of_mem _ _ hi.1 hi.2, copy_of_mem _ _ hi.1 hi.2,
          scatter_of_contiguous hcont (by omega), Nat.zero_add]
      · rw [copy_of_notMem _ _ hi, copy_of_notMem _ _ hi]

/-- When both drivers move exactly the bytes of the request. -/
theorem transfer_exact_iff (s : SectorSize) (phys : ℕ → ℕ) (offset size : UInt32) :
    (AtaReadExact s offset size ↔ size.toNat = 0 ∨
      s.bytes.toNat ∣ offset.toNat ∧ WholeBlocks s.bytes.toNat size.toNat) ∧
    (AtaWriteExact s offset size ↔ size.toNat = 0 ∨
      s.bytes.toNat = 512 ∧ 512 ∣ offset.toNat ∧ 512 ∣ size.toNat ∧ size.toNat ≤ 255 * 512) ∧
    (AhciReadExact phys offset size ↔ 0 < size.toNat ∧ size.toNat ≤ dmaBufferSize ∧
      512 ∣ offset.toNat ∧ Contiguous phys size.toNat ∧
      ∀ i < (size.toNat + 511) / 512 * 512, ∃ j < dmaBufferSize, phys j = phys 0 + i) ∧
    (AhciWriteExact phys offset size ↔ 0 < size.toNat ∧ size.toNat ≤ dmaBufferSize ∧
      512 ∣ offset.toNat ∧ 512 ∣ size.toNat ∧ Contiguous phys size.toNat) :=
  ⟨ataReadExact_iff s offset size, ataWriteExact_iff s offset size,
    ahciReadExact_iff phys offset size,
    ahciWriteExact_iff phys offset size⟩

/-- For one byte at offset `1` both drivers read the first byte, and a write changes 511 more
bytes. -/
theorem short_transfer_inexact : let s : SectorSize := ⟨512, by decide⟩
    let disk := one 1
    let port : AhciPort := ⟨disk, fun _ => 0, fun i => i, .done⟩
    (ataDeviceRead (goodDrive s disk) 1 1 fun _ => 0).result = some 1 ∧
      (ataDeviceRead (goodDrive s disk) 1 1 fun _ => 0).target 0 = 0 ∧ disk 1 = 1 ∧
      (ataDeviceRead (goodDrive s disk) 1 1 fun _ => 0).used = 512 ∧
      (ahciReadSectors port 1 1 fun _ => 0).result = some 1 ∧
      (ahciReadSectors port 1 1 fun _ => 0).target 0 = 0 ∧
      (ataDeviceWrite (goodDrive s disk) 0 1 fun _ => 0).result = some 1 ∧
      (ataDeviceWrite (goodDrive s disk) 0 1 fun _ => 0).target 1 = 0 ∧
      (ahciWriteSectors port 0 1 fun _ => 0).result = some 1 ∧
      (ahciWriteSectors port 0 1 fun _ => 0).target 1 = 0 := by
  decide

end FrostByte.Block
