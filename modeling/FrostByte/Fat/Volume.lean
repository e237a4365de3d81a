import FrostByte.Lib.Word
import FrostByte.Lib.Buffer
import FrostByte.Lib.Chains
import Mathlib.Order.Interval.Finset.Nat

/-!
# A mounted FAT32 volume

The part of `fat32.c` below the directories. The device is a buffer of bytes that has no errors.
Memory comes from `kmalloc`, which is an argument here: `none` when it fails, otherwise what the
block holds. No pointer is null.

## Main definitions

* `Bpb`, `Mount`, `FsInfo`, `Volume` — the boot sector, the mounted file system and its device.
* `getFatEntry`, `setFatEntry` — one entry of the file allocation table.
* `allocateCluster`, `freeClusterChain` — taking a cluster and giving a chain back.
* `readFileData`, `writeFileData` — the bytes of a chain, from an offset on.
-/

namespace FrostByte.Fat32

open Word

/-- `FAT32_FREE_CLUSTER`. -/
def freeCluster : ℕ := 0

/-- `FAT32_BAD_CLUSTER`, also the answer for a cluster outside the table. -/
def badCluster : ℕ := 0x0FFFFFF7

/-- `FAT32_EOC_MIN`: from here on an entry ends its chain. -/
def eocMin : ℕ := 0x0FFFFFF8

/-- `FAT32_EOC`, the end that the driver stores. -/
def eoc : ℕ := 0x0FFFFFFF

/-- `fat32_bpb_t`, the fields that decide where things are. -/
structure Bpb where
  bytesPerSector : UInt16
  sectorsPerCluster : UInt8
  reservedSectors : UInt16
  numFats : UInt8
  totalSectors16 : UInt16
  totalSectors32 : UInt32
  fatSize32 : UInt32

namespace Bpb

variable (b : Bpb)

/-- `bytes_per_cluster`. -/
def bytesPerCluster : ℕ := w32 (b.bytesPerSector.toNat * b.sectorsPerCluster.toNat)

/-- `fat_begin_lba`, the first sector of the first table. -/
def fatBeginLba : ℕ := b.reservedSectors.toNat

/-- `cluster_begin_lba`: the clusters are behind all copies of the table. -/
def clusterBeginLba : ℕ :=
  w32 (b.reservedSectors.toNat + w32 (b.numFats.toNat * b.fatSize32.toNat))

/-- The number of sectors, from one of two fields. -/
def totalSectors : ℕ :=
  if b.totalSectors32 = 0 then b.totalSectors16.toNat else b.totalSectors32.toNat

/-- `total_clusters`, by a division that nothing guards. -/
def totalClusters : ℕ := sub32 b.totalSectors b.clusterBeginLba / b.sectorsPerCluster.toNat

lemma totalSectors_lt : b.totalSectors < 2 ^ 32 := by
  have h1 := b.totalSectors16.toNat_lt
  have h2 := b.totalSectors32.toNat_lt
  unfold totalSectors
  split_ifs <;> omega

end Bpb

/-- `fat32_mount_t` of a volume with valid geometry: the sectors have 512 bytes, as the buffers of
the accessors do, there is an entry for each cluster, and the tables lie inside the volume, at
offsets below 4 GiB. The clusters may lie behind 4 GiB. -/
structure Mount extends Bpb where
  sector_size : bytesPerSector = 512
  cluster_size : 0 < sectorsPerCluster.toNat
  numFats_pos : 0 < numFats.toNat
  fats_le : reservedSectors.toNat + numFats.toNat * fatSize32.toNat ≤ toBpb.totalSectors
  fats_lt : (reservedSectors.toNat + numFats.toNat * fatSize32.toNat) * 512 < 0x100000000
  entries_le : (toBpb.totalClusters + 2) * 4 ≤ fatSize32.toNat * 512

/-- The volume is below 4 GiB, so that the offset of each byte is a 32-bit word. `fat32_mount` does
not check it: on a larger volume the offset of a cluster behind 4 GiB is cut. -/
def Mount.Small (m : Mount) : Prop := m.totalSectors * 512 < 0x100000000

instance (m : Mount) : Decidable m.Small := inferInstanceAs (Decidable (_ < _))

/-- The two fields of `fat32_fsinfo_t` that the allocator uses. -/
structure FsInfo where
  freeCount : ℕ
  nextFree : ℕ

/-- A mounted volume: its geometry, the copy of FSInfo, and the device. -/
structure Volume where
  mount : Mount
  fsinfo : FsInfo
  disk : Buffer

/-- `device_read`, which never fails here. -/
def deviceRead (disk : Buffer) (offset : ℕ) (buffer : Buffer) (size : ℕ) : Buffer :=
  buffer.copy 0 disk offset size

/-- `device_write`, which never fails here. -/
def deviceWrite (disk : Buffer) (offset : ℕ) (buffer : Buffer) (size : ℕ) : Buffer :=
  disk.copy offset buffer 0 size

/-- A 32-bit word converted to `int`. -/
def toInt (n : ℕ) : ℤ := (BitVec.ofNat 32 n).toInt

lemma toInt_eq_iff {n m : ℕ} (h : n < 2 ^ 32) : toInt n = (m : ℤ) ↔ n = m ∧ n < 2 ^ 31 := by
  rw [toInt, BitVec.toInt_eq_toNat_cond, BitVec.toNat_ofNat]
  split_ifs with h2 <;> omega

lemma toInt_eq_neg_one {n : ℕ} (h : n < 2 ^ 32) (heq : toInt n = -1) : n = 0xFFFFFFFF := by
  rw [toInt, BitVec.toInt_eq_toNat_cond, BitVec.toNat_ofNat] at heq
  split_ifs at heq
  omega

/-! ## The file allocation table -/

/-- The test at the start of the accessors of the table. -/
def OutOfTable (m : Mount) (cluster : ℕ) : Prop := cluster < 2 ∨ w32 (m.totalClusters + 2) ≤ cluster

instance (m : Mount) (cluster : ℕ) : Decidable (OutOfTable m cluster) :=
  inferInstanceAs (Decidable (_ ∨ _))

/-- The sector of the first table that has the entry of a cluster. -/
def fatSector (v : Volume) (cluster : ℕ) : Buffer :=
  let bps := v.mount.bytesPerSector.toNat
  let sector := w32 (v.mount.fatBeginLba + w32 (cluster * 4) / bps)
  deviceRead v.disk (w32 (sector * bps)) (fun _ => 0) bps

/-- `fat32_get_fat_entry`: the lower 28 bits of an entry of the first table. -/
def getFatEntry (v : Volume) (cluster : ℕ) : ℕ :=
  if OutOfTable v.mount cluster then badCluster
  else
    let entryOffset := w32 (cluster * 4) % v.mount.bytesPerSector.toNat
    (fatSector v cluster).word entryOffset &&& 0x0FFFFFFF

/-- Where the sector of an entry is in table `i`. -/
def copyOffset (m : Mount) (cluster i : ℕ) : ℕ :=
  let fatBase := w32 (m.fatBeginLba + w32 (i * m.fatSize32.toNat))
  let writeSector := w32 (fatBase + w32 (cluster * 4) / m.bytesPerSector.toNat)
  w32 (writeSector * m.bytesPerSector.toNat)

/-- The loop that writes the sector to the first tables. -/
def writeCopies (m : Mount) (cluster : ℕ) (sector : Buffer) : ℕ → Buffer → Buffer
  | 0, disk => disk
  | i + 1, disk =>
    deviceWrite (writeCopies m cluster sector i disk) (copyOffset m cluster i) sector
      m.bytesPerSector.toNat

/-- `fat32_set_fat_entry`, which is `none` when it returns -1. -/
def setFatEntry (v : Volume) (cluster value : ℕ) : Option Volume :=
  if OutOfTable v.mount cluster then none
  else
    let value := value &&& 0x0FFFFFFF
    let entryOffset := w32 (cluster * 4) % v.mount.bytesPerSector.toNat
    let sector := fatSector v cluster
    let sector := sector.setWord entryOffset (sector.word entryOffset &&& 0xF0000000 ||| value)
    some { v with disk := writeCopies v.mount cluster sector v.mount.numFats.toNat v.disk }

/-- Where `fat32_allocate_cluster` begins: the hint, if there is one. -/
def startCluster (v : Volume) : ℕ :=
  if v.fsinfo.nextFree ≠ 0xFFFFFFFF ∧ 2 ≤ v.fsinfo.nextFree then v.fsinfo.nextFree else 2

/-- The FSInfo after a cluster was taken; an unknown free count stays unknown. -/
def FsInfo.take (f : FsInfo) (cluster : ℕ) : FsInfo where
  freeCount := if f.freeCount ≠ 0xFFFFFFFF ∧ 0 < f.freeCount then f.freeCount - 1 else f.freeCount
  nextFree := w32 (cluster + 1)

/-- The search of `fat32_allocate_cluster`. -/
def allocateFrom (v : Volume) (start : ℕ) : ℕ → ℕ → ℕ × Volume
  | 0, _ => (0, v)
  | tries + 1, cluster =>
    if getFatEntry v cluster = freeCluster then
      match setFatEntry v cluster eoc with
      | none => (0, v)
      | some v => (cluster, { v with fsinfo := v.fsinfo.take cluster })
    else
      let next := w32 (cluster + 1)
      let next := if w32 (v.mount.totalClusters + 2) ≤ next then 2 else next
      -- wrapped around
      if next = start then (0, v) else allocateFrom v start tries next

/-- `fat32_allocate_cluster`: the new cluster, or 0. -/
def allocateCluster (v : Volume) : ℕ × Volume :=
  allocateFrom v (startCluster v) v.mount.totalClusters (startCluster v)

/-- The loop of `fat32_free_cluster_chain`: the number of clusters. -/
def freeLoop : ℕ → Volume → ℕ → ℕ → Option (Option ℕ × Volume)
  | 0, v, cluster, freed =>
    if 2 ≤ cluster ∧ cluster < eocMin then none else some (some freed, v)
  | fuel + 1, v, cluster, freed =>
    if 2 ≤ cluster ∧ cluster < eocMin then
      let next := getFatEntry v cluster
      match setFatEntry v cluster freeCluster with
      | none => some (none, v)
      | some v => freeLoop fuel v next (w32 (freed + 1))
    else some (some freed, v)

/-- The FSInfo after a chain was given back. -/
def FsInfo.give (f : FsInfo) (freed : ℕ) : FsInfo :=
  if f.freeCount ≠ 0xFFFFFFFF then { f with freeCount := w32 (f.freeCount + freed) } else f

/-- `fat32_free_cluster_chain`. Each round but the last clears an entry, so this fuel lasts. -/
def freeClusterChain (v : Volume) (start : ℕ) : Option (ℤ × Volume) :=
  if start < 2 then some (-1, v)
  else
    match freeLoop (v.mount.totalClusters + 1) v start 0 with
    | none => none
    | some (none, v) => some (-1, v)
    | some (some freed, v) => some (0, { v with fsinfo := v.fsinfo.give freed })

/-! ## Clusters -/

/-- `fat32_cluster_to_lba`; clusters 0 and 1 are sent to sector 0. -/
def clusterToLba (m : Mount) (cluster : ℕ) : ℕ :=
  if cluster < 2 then 0
  else w32 (m.clusterBeginLba + w32 ((cluster - 2) * m.sectorsPerCluster.toNat))

/-- `fat32_read_cluster`, which is `none` when it returns -1. -/
def readCluster (v : Volume) (cluster : ℕ) (buffer : Buffer) : Option Buffer :=
  if cluster < 2 then none
  else
    let lba := clusterToLba v.mount cluster
    if lba = 0 then none
    else some (deviceRead v.disk (w32 (lba * v.mount.bytesPerSector.toNat)) buffer
      v.mount.bytesPerCluster)

/-- `fat32_write_cluster`, which is `none` when it returns -1. -/
def writeCluster (v : Volume) (cluster : ℕ) (buffer : Buffer) : Option Volume :=
  if cluster < 2 then none
  else
    let lba := clusterToLba v.mount cluster
    if lba = 0 then none
    else some { v with
      disk := deviceWrite v.disk (w32 (lba * v.mount.bytesPerSector.toNat)) buffer
        v.mount.bytesPerCluster }

/-! ## Files -/

/-- The loop that skips clusters: `none` beyond the end of the chain. -/
def skipClusters (v : Volume) : ℕ → ℕ → Option ℕ
  | 0, cluster => some cluster
  | n + 1, cluster =>
    let cluster := getFatEntry v cluster
    if cluster < 2 ∨ eocMin ≤ cluster then none else skipClusters v n cluster

/-- The other loop of `fat32_read_file_data`: the number of bytes, and the buffer. -/
def readLoop (v : Volume) (size : ℕ) : ℕ → ℕ → ℕ → ℕ → Buffer → Buffer → Option (Option ℕ × Buffer)
  | fuel, cluster, clusterOffset, bytesRead, clusterBuf, buffer =>
    if bytesRead < size ∧ 2 ≤ cluster ∧ cluster < eocMin then
      match fuel with
      | 0 => none
      | fuel + 1 =>
        match readCluster v cluster clusterBuf with
        | none => some (none, buffer)
        | some clusterBuf =>
          let toCopy := v.mount.bytesPerCluster - clusterOffset
          let toCopy := if size - bytesRead < toCopy then size - bytesRead else toCopy
          let buffer := buffer.copy bytesRead clusterBuf clusterOffset toCopy
          let bytesRead := bytesRead + toCopy
          let cluster := if bytesRead < size then getFatEntry v cluster else cluster
          readLoop v size fuel cluster 0 bytesRead clusterBuf buffer
    else some (some bytesRead, buffer)

/-- `fat32_read_file_data`. Each round copies a byte, so `size` is enough fuel. -/
def readFileData (v : Volume) (start offset size : ℕ) (buffer : Buffer)
    (kmalloc : Option Buffer) : Option (ℤ × Buffer) :=
  if start < 2 then some (-1, buffer)
  else if size = 0 then some (0, buffer)
  else
    let skip := offset / v.mount.bytesPerCluster
    let clusterOffset := offset % v.mount.bytesPerCluster
    match skipClusters v skip start with
    | none => some (-1, buffer)
    | some cluster =>
      match kmalloc with
      | none => some (-1, buffer)
      | some clusterBuf =>
        match readLoop v size size cluster clusterOffset 0 clusterBuf buffer with
        | none => none
        | some (none, buffer) => some (-1, buffer)
        | some (some bytesRead, buffer) => some (toInt bytesRead, buffer)

/-- The next cluster of the chain, which is allocated at its end; 0 when there is none left. -/
def advance (v : Volume) (prev : ℕ) : ℕ × Volume :=
  let cluster := getFatEntry v prev
  if cluster < 2 ∨ eocMin ≤ cluster then
    let (cluster, v) := allocateCluster v
    if cluster = 0 then (0, v) else (cluster, (setFatEntry v prev cluster).getD v)
  else (cluster, v)

/-- The loop that goes to the first cluster; 0 after an error. -/
def seekClusters : ℕ → Volume → ℕ → ℕ × Volume
  | 0, v, cluster => (cluster, v)
  | n + 1, v, cluster =>
    let (cluster, v) := advance v cluster
    if cluster = 0 then (0, v) else seekClusters n v cluster

/-- The cluster buffer: it is read first unless all of it is written, and zeroed if that fails. -/
def fillBuffer (v : Volume) (cluster clusterOffset left : ℕ) (clusterBuf : Buffer) : Buffer :=
  if clusterOffset ≠ 0 ∨ left < v.mount.bytesPerCluster then
    (readCluster v cluster clusterBuf).getD
      (clusterBuf.copy 0 (fun _ => 0) 0 v.mount.bytesPerCluster)
  else clusterBuf

/-- The other loop of `fat32_write_file_data`: the number of bytes. -/
def writeLoop (size : ℕ) (buffer : Buffer) :
    ℕ → Volume → ℕ → ℕ → ℕ → Buffer → Option (Option ℕ × Volume)
  | fuel, v, cluster, clusterOffset, bytesWritten, clusterBuf =>
    if bytesWritten < size then
      match fuel with
      | 0 => none
      | fuel + 1 =>
        let clusterBuf := fillBuffer v cluster clusterOffset (size - bytesWritten) clusterBuf
        let toWrite := v.mount.bytesPerCluster - clusterOffset
        let toWrite := if size - bytesWritten < toWrite then size - bytesWritten else toWrite
        let clusterBuf := clusterBuf.copy clusterOffset buffer bytesWritten toWrite
        match writeCluster v cluster clusterBuf with
        | none => some (none, v)
        | some v =>
          let bytesWritten := bytesWritten + toWrite
          if bytesWritten < size then
            let (cluster, v) := advance v cluster
            if cluster = 0 then some (none, v)
            else writeLoop size buffer fuel v cluster 0 bytesWritten clusterBuf
          else writeLoop size buffer fuel v cluster 0 bytesWritten clusterBuf
    else some (some bytesWritten, v)

/-- The rest of `fat32_write_file_data`. Each round writes a byte, so `size` is enough fuel. -/
def writeFrom (v : Volume) (start offset size : ℕ) (buffer : Buffer) (kmalloc : Option Buffer) :
    Option (ℤ × ℕ × Volume) :=
  let skip := offset / v.mount.bytesPerCluster
  let clusterOffset := offset % v.mount.bytesPerCluster
  let (cluster, v) := seekClusters skip v start
  if cluster = 0 then some (-1, start, v)
  else
    match kmalloc with
    | none => some (-1, start, v)
    | some clusterBuf =>
      match writeLoop size buffer size v cluster clusterOffset 0 clusterBuf with
      | none => none
      | some (none, v) => some (-1, start, v)
      | some (some bytesWritten, v) => some (toInt bytesWritten, start, v)

/-- `fat32_write_file_data`, with `*start_cluster`. -/
def writeFileData (v : Volume) (start offset size : ℕ) (buffer : Buffer)
    (kmalloc : Option Buffer) : Option (ℤ × ℕ × Volume) :=
  if size = 0 then some (0, start, v)
  else if start = 0 then
    let (start, v) := allocateCluster v
    if start = 0 then some (-1, 0, v) else writeFrom v start offset size buffer kmalloc
  else writeFrom v start offset size buffer kmalloc

end FrostByte.Fat32
