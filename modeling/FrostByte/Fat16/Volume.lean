import FrostByte.Fat.Volume

/-!
# A FAT16 volume

The part of `fat16.c` below the directories. The device is a buffer of bytes that has no errors. The
search for a free cluster goes through whole sectors of the table, so that it may also give a number
behind the last cluster.

## Main definitions

* `BootSector`, `Fs`, `Volume` — the boot sector, the file system made of it and its device.
* `findFreeCluster`, `setClusterValue`, `freeChain` — the table of clusters.
* `writeData` — the part of `fat16_write_file` that moves bytes.
-/

namespace FrostByte.Fat16

open Word

/-- `FAT16_END_OF_CHAIN`: from here on an entry ends its chain. -/
def endOfChain : ℕ := 0xFFF8

/-- `FAT16_BAD_CLUSTER`. -/
def badCluster : ℕ := 0xFFF7

/-- `FAT16_FREE_CLUSTER`. -/
def freeCluster : ℕ := 0

/-- `fat16_boot_sector_t`, with sectors of 512 bytes. -/
structure BootSector where
  sectorsPerCluster : UInt8
  reservedSectors : UInt16
  numFats : UInt8
  rootEntries : UInt16
  totalSectors16 : UInt16
  sectorsPerFat : UInt16
  totalSectors32 : UInt32
  deriving DecidableEq

namespace BootSector

variable (b : BootSector)

/-- `fat_start`, the first sector of the first table. -/
def fatStart : ℕ := b.reservedSectors.toNat

/-- `root_dir_start`, behind all copies of the table. -/
def rootDirStart : ℕ := b.fatStart + b.numFats.toNat * b.sectorsPerFat.toNat

/-- `root_dir_sectors`. -/
def rootDirSectors : ℕ := (b.rootEntries.toNat * 32 + 511) / 512

/-- `data_start`, the first sector of cluster 2. -/
def dataStart : ℕ := b.rootDirStart + b.rootDirSectors

/-- The number of sectors, from one of two fields. -/
def totalSectors : ℕ :=
  if b.totalSectors16 = 0 then b.totalSectors32.toNat else b.totalSectors16.toNat

/-- `total_clusters`, by a difference that may wrap. -/
def totalClusters : ℕ := sub32 b.totalSectors b.dataStart / b.sectorsPerCluster.toNat

/-- The bytes of a cluster. -/
def clusterSize : ℕ := b.sectorsPerCluster.toNat * 512

end BootSector

/-- The fields of `fat16_boot_sector_t` in the first sector. -/
def BootSector.ofDisk (disk : Buffer) : BootSector where
  sectorsPerCluster := disk 13
  reservedSectors := UInt16.ofNat (disk.half 14)
  numFats := disk 16
  rootEntries := UInt16.ofNat (disk.half 17)
  totalSectors16 := UInt16.ofNat (disk.half 19)
  sectorsPerFat := UInt16.ofNat (disk.half 22)
  totalSectors32 := UInt32.ofNat (disk.word 32)

/-- `fat16_init`: the boot sector of a device, if it passes the checks. -/
def init (disk : Buffer) : Option BootSector :=
  let b := BootSector.ofDisk disk
  if disk.half 510 ≠ 0xAA55 ∨ disk.half 11 ≠ 512 ∨ b.rootEntries = 0 ∨ b.sectorsPerFat = 0 then none
  -- the division by the sectors of a cluster faults
  else if b.sectorsPerCluster = 0 then none
  else if b.totalClusters < 4085 ∨ 65525 ≤ b.totalClusters then none
  else some b

/-- `fat16_fs_t` of a volume that `fat16_init` accepts. -/
structure Fs extends BootSector where
  rootEntries_pos : 0 < rootEntries.toNat
  sectorsPerFat_pos : 0 < sectorsPerFat.toNat
  le_totalClusters : 4085 ≤ toBootSector.totalClusters
  totalClusters_lt : toBootSector.totalClusters < 65525
  cluster_size : 0 < sectorsPerCluster.toNat
  numFats_pos : 0 < numFats.toNat
  dataStart_le : toBootSector.dataStart ≤ toBootSector.totalSectors
  size_lt : toBootSector.totalSectors * 512 < 0x100000000
  entries_le : (toBootSector.totalClusters + 2) * 2 ≤ sectorsPerFat.toNat * 512

/-- A mounted volume: its geometry, and the device. -/
structure Volume where
  fs : Fs
  disk : Buffer

/-- A sector read from the device; its offset is cut to 32 bits. -/
def readSector (disk : Buffer) (lba : ℕ) : Buffer :=
  Buffer.copy (fun _ => 0) 0 disk (w32 (lba * 512)) 512

/-- A sector written to the device. -/
def writeSector (disk : Buffer) (lba : ℕ) (buffer : Buffer) : Buffer :=
  disk.copy (w32 (lba * 512)) buffer 0 512

/-! ## The file allocation table -/

/-- The entry with a number in the first table, read with its sector, on any device. -/
def BootSector.fatEntry (b : BootSector) (disk : Buffer) (n : ℕ) : ℕ :=
  (readSector disk (w32 (b.fatStart + n * 2 / 512))).half (n * 2 % 512)

/-- The entry is free, and its number in 16 bits is not reserved. -/
def BootSector.IsFree (b : BootSector) (disk : Buffer) (n : ℕ) : Prop :=
  b.fatEntry disk n = freeCluster ∧ 2 ≤ w16 n

instance (b : BootSector) (disk : Buffer) (n : ℕ) : Decidable (b.IsFree disk n) :=
  inferInstanceAs (Decidable (_ ∧ _))

/-- `fat16_find_free_cluster`, through all sectors of the table. -/
def BootSector.findFreeCluster (b : BootSector) (disk : Buffer) : ℕ :=
  ((List.range (b.sectorsPerFat.toNat * 256)).find? fun n => b.IsFree disk n).elim 0 w16

/-- An entry of the table of a mounted volume. -/
def fatEntry (v : Volume) (n : ℕ) : ℕ := v.fs.toBootSector.fatEntry v.disk n

/-- `fat16_get_next_cluster`, with its check of the number. -/
def getNextCluster (v : Volume) (cluster : ℕ) : ℕ :=
  if v.fs.totalClusters + 2 ≤ cluster then badCluster else fatEntry v cluster

/-- `fat16_find_free_cluster` on a volume. -/
@[inherit_doc BootSector.findFreeCluster]
def findFreeCluster (v : Volume) : ℕ := v.fs.toBootSector.findFreeCluster v.disk

/-- `fat16_set_cluster_value`, in both tables. -/
def setClusterValue (v : Volume) (cluster value : ℕ) : Volume :=
  let fatSector := w32 (v.fs.fatStart + cluster * 2 / 512)
  let buffer := (readSector v.disk fatSector).setHalf (cluster * 2 % 512) value
  let disk := writeSector v.disk fatSector buffer
  { v with
    disk :=
      if 1 < v.fs.numFats.toNat then
        writeSector disk (w32 (fatSector + v.fs.sectorsPerFat.toNat)) buffer
      else disk }

/-- `fat16_free_chain`. Behind the last cluster the loop does not end. -/
def freeChain : ℕ → Volume → ℕ → Option Volume
  | fuel, v, cluster =>
    if 2 ≤ cluster ∧ cluster < endOfChain then
      match fuel with
      | 0 => none
      | fuel + 1 =>
        let next := getNextCluster v cluster
        let v := setClusterValue v cluster freeCluster
        if endOfChain ≤ next then some v else freeChain fuel v next
    else some v

/-! ## Files -/

/-- `fat16_dir_entry_t`, the fields that are used; the name has eleven bytes. -/
@[ext]
structure DirEntry where
  name : List ℕ
  attributes : ℕ
  firstCluster : ℕ
  fileSize : ℕ
  deriving DecidableEq

/-- `fat16_file_t`, the fields that writing uses. -/
structure File where
  entry : DirEntry
  currentOffset : ℕ
  fileSize : ℕ
  isOpen : Bool

/-- The next cluster, which is allocated when the chain ends; `none` if no one is free. -/
def advance (v : Volume) (cluster : ℕ) : Option ℕ × Volume :=
  let next := getNextCluster v cluster
  if endOfChain ≤ next then
    let newCluster := findFreeCluster v
    if newCluster = 0 then (none, v)
    else (some newCluster, setClusterValue (setClusterValue v cluster newCluster) newCluster 0xFFFF)
  else (some next, v)

/-- The loop that goes to the cluster of the offset. -/
def seekLoop : ℕ → Volume → ℕ → Option ℕ × Volume
  | 0, v, cluster => (some cluster, v)
  | n + 1, v, cluster =>
    let next := advance v cluster
    next.1.elim (none, next.2) fun cluster => seekLoop n next.2 cluster

/-- The sector of a cluster. -/
def sectorLba (fs : Fs) (cluster sectorInCluster : ℕ) : ℕ :=
  w32 (fs.dataStart + sub32 cluster 2 * fs.sectorsPerCluster.toNat + sectorInCluster)

/-- The file after bytes were written to it. -/
def File.written (file : File) (n : ℕ) : File :=
  let offset := w32 (file.currentOffset + n)
  { file with currentOffset := offset, fileSize := max file.fileSize offset }

/-- The other loop of `fat16_write_file`. Each round writes a byte, so `size` is enough fuel. -/
def writeLoop (size : ℕ) (src : Buffer) :
    ℕ → Volume → File → ℕ → ℕ → ℕ → ℕ → Option (Bool × File × Volume)
  | fuel, v, file, cluster, sectorInCluster, byteInSector, bytesWritten =>
    if bytesWritten < size then
      match fuel with
      | 0 => none
      | fuel + 1 =>
        let lba := sectorLba v.fs cluster sectorInCluster
        let toCopy := min (size - bytesWritten) (512 - byteInSector)
        let sector := (readSector v.disk lba).copy byteInSector src bytesWritten toCopy
        let v := { v with disk := writeSector v.disk lba sector }
        let bytesWritten := bytesWritten + toCopy
        let file := file.written toCopy
        let byteInSector := byteInSector + toCopy
        if byteInSector < 512 then
          writeLoop size src fuel v file cluster sectorInCluster byteInSector bytesWritten
        else if sectorInCluster + 1 < v.fs.sectorsPerCluster.toNat then
          writeLoop size src fuel v file cluster (sectorInCluster + 1) 0 bytesWritten
        else
          -- the next cluster is needed here, also when no byte is left to be written
          let next := advance v cluster
          next.1.elim (some (false, file, next.2)) fun cluster =>
            writeLoop size src fuel next.2 file cluster 0 0 bytesWritten
    else some (true, file, v)

/-- `fat16_write_file` up to the update of the directory: whether all bytes were written. -/
def writeData (v : Volume) (file : File) (src : Buffer) (size : ℕ) :
    Option (Bool × File × Volume) :=
  let first := if file.entry.firstCluster < 2 then findFreeCluster v else file.entry.firstCluster
  if first = 0 then some (false, file, v)
  else
    let v := if file.entry.firstCluster < 2 then setClusterValue v first 0xFFFF else v
    let file := { file with entry := { file.entry with firstCluster := first } }
    let found := seekLoop (file.currentOffset / v.fs.clusterSize) v first
    let offsetInCluster := file.currentOffset % v.fs.clusterSize
    found.1.elim (some (false, file, found.2)) fun cluster =>
      writeLoop size src size found.2 file cluster (offsetInCluster / 512) (offsetInCluster % 512) 0

end FrostByte.Fat16
