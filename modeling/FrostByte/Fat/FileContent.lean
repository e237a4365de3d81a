import FrostByte.Fat.Handles

/-!
# The contents of a file of a FAT32 volume

The contents of a file are what its directory entry on the disk says. A write through the node that
`vfs_open` has just made replaces the bytes from its offset on, as long as there are clusters to
spare and memory for its buffers, and leaves the node and the entry in agreement.

## Main definitions

* `Volume.content` — the bytes of a file, by its entry on the disk.
* `FileNode`, `FileNode.write` — the node of an open file, and `fat32_vfs_write` on it.
* `Opened` — the node, the entry on the disk and the chain of the file agree.

## Main results

* `Opened.content_eq` — the contents of a file that is open.
* `Opened.write` — a write stores its bytes and nothing else, and the node stays in agreement.
-/

namespace FrostByte.Fat32

open Word Chains Volume

/-- The contents of the file with a name in a directory, as its entry on the disk records them. -/
def Volume.content (v : Volume) (dir : ℕ) (name : List ℕ) : List UInt8 :=
  match v.findInDir dir name true with
  | .found e =>
      (List.range e.fileSize).map (fileByte v (v.dirClusters v.mount.totalClusters e.cluster))
  | _ => []

/-- The node of an open file: the volume it is on, its private data and its `size`. -/
structure FileNode where
  volume : Volume
  data : VfsData
  size : ℕ

/-- `fat32_vfs_write` on a node, with the size that it records in the node. -/
def FileNode.write (n : FileNode) (c : WriteCall) : Option (ℤ × FileNode) :=
  (vfsWrite n.volume n.data c).map fun r =>
    let newSize := w32 (c.offset + r.1.toNat)
    (r.1, ⟨r.2.2, r.2.1, if 0 < r.1 ∧ n.data.dirEntry.fileSize < newSize then newSize else n.size⟩)

/-- The node has what the entry `s` of the name records, and `l` is the chain of the file. -/
structure Opened (n : FileNode) (dir : ℕ) (name : List ℕ) (L : List (List ℕ)) (s : ShortEntry)
    (l : List ℕ) : Prop where
  file : FileAt n.volume dir name L ⟨s.fileSize, fileByte n.volume l⟩ s l
  dir_mem : ∃ t, dir :: t ∈ L
  handle : n.data.HandleOf dir s
  start : n.data.startCluster = s.cluster
  fileSize : n.data.dirEntry.fileSize = s.fileSize
  size : n.size = s.fileSize
  names : (liveNames (n.volume.directory dir)).Nodup

section

variable {n : FileNode} {dir : ℕ} {name : List ℕ} {L : List (List ℕ)} {s : ShortEntry} {l : List ℕ}
  {c : WriteCall}

/-- The contents of an open file, along the chain that starts at its first cluster. -/
lemma Opened.content_eq (h : Opened n dir name L s l) :
    n.volume.content dir name = (List.range s.fileSize).map (fileByte n.volume l) := by
  rw [Volume.content, h.file.found]
  dsimp only
  cases l with
  | nil =>
    have hempty : s.fileSize = 0 := by
      have hroom : s.fileSize ≤ 0 * n.volume.mount.bytesPerCluster := h.file.room
      omega
    rw [hempty, List.range_zero, List.map_nil, List.map_nil]
  | cons a l =>
    have hchain := h.file.layout.isChain (.head _)
    have hcluster : s.cluster = a := h.file.cluster
    have hlen := hchain.length_le
    rw [hcluster, dirClusters_eq hchain n.volume.mount.totalClusters (i := 0) rfl (by omega),
      List.drop_zero]

/-- **A write to an open file** with clusters to spare stores its bytes, and the node, the entry and
the chain still agree. -/
lemma Opened.write (h : Opened n dir name L s l) (hsize : c.size ≠ 0)
    (hmemory : c.kmalloc.isSome = true ∧ c.entryBuf.isSome = true)
    (hlt : c.size < 2 ^ 31 ∧ c.offset + c.size < 2 ^ 32) (hgap : c.offset ≤ s.fileSize)
    (hroom : Spare n.volume L ((c.offset + c.size - 1) / n.volume.mount.bytesPerCluster + 1)) :
    ∃ n' s' m, n.write c = some ((c.size : ℤ), n') ∧ Opened n' dir name L s' m ∧
      n'.volume.mount = n.volume.mount ∧ n'.volume.fsinfo.nextFree < 2 ^ 32 ∧
      s'.fileSize = max s.fileSize (c.offset + c.size) ∧ ∀ i < s'.fileSize, fileByte n'.volume m i =
        if c.offset ≤ i ∧ i < c.offset + c.size then c.buffer (i - c.offset)
        else fileByte n.volume l i := by
  obtain ⟨t, ht⟩ := h.dir_mem
  have hfound : ∀ x, n.volume.findInDir dir name true = .found x → x = s := by
    intro x hx
    rw [h.file.found] at hx
    cases hx
    rfl
  have hcoherent : Coherent dir name L n.volume n.data c := by
    refine ⟨hmemory, hlt, hroom, h.names, fun x hx => ?_, fun x hx => ?_, fun x hx => ?_⟩
    · rw [hfound x hx, h.start]
    · rwa [hfound x hx]
    · rw [hfound x hx, h.fileSize]
      omega
  obtain ⟨new, w, s', m, hcall, hfile, hnew, hhint, -, ⟨hmount, hlive⟩, hstart, hentry⟩ :=
    h.file.write ht h.handle hsize hcoherent
  have hs' : s'.fileSize = max s.fileSize (c.offset + c.size) := hfile.size.trans (if_neg hsize)
  have hend : w32 (c.offset + (c.size : ℤ).toNat) = c.offset + c.size := by
    rw [Int.toNat_natCast, w32_of_lt hlt.2]
  refine ⟨⟨w, new, s'.fileSize⟩, s', m, ?_, ⟨⟨hfile.found, hfile.layout, hfile.cluster, rfl, ?_,
    fun _ _ => rfl⟩, ⟨t, ht⟩, hnew, hstart, hentry h.fileSize, rfl, ?_⟩, hmount, hhint, hs',
    fun i hi => ?_⟩
  · rw [FileNode.write, hcall, Option.map_some]
    dsimp only
    rw [hend, h.fileSize, h.size, hs']
    congr 3
    split_ifs with hgrows
    · omega
    · omega
  · have hle := hfile.room
    rwa [← hfile.size] at hle
  · show (liveNames (w.directory dir)).Nodup
    rw [hlive]
    exact h.names
  · have hbyte := hfile.bytes i (by rwa [← hfile.size])
    rw [hbyte, Contents.write]
    dsimp only
    split_ifs with hin hold
    · rfl
    · rfl
    · omega

end

end FrostByte.Fat32
