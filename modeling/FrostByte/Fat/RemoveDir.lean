import FrostByte.Fat.Delete
import FrostByte.Fat.OpenFile
import FrostByte.Vfs.Path

/-!
# Removing a directory of a FAT32 volume

`fat32_vfs_rmdir` takes the directory that a directory is in from `node->parent`, which neither
`fat32_vfs_finddir` nor `vfs_rmdir` sets. So the call fails on every directory.

## Main definitions

* `Node`, `vfsFinddir`, `vfsRmdir` — the nodes of the file system and the calls on them.
* `RemovesEmpty` — `vfs_rmdir` removes the directory exactly when it is empty.

## Main results

* `removesEmpty_iff` — this is so only for paths that name no empty directory.
* `rmdir_refuses_empty` — an empty directory that is not removed.
-/

namespace FrostByte.Fat32

open Chains

/-- `vfs_node_t`, with the private data of the parent. -/
structure Node where
  name : List ℕ
  isDirectory : Bool
  data : VfsData
  parent : Option VfsData
  deriving DecidableEq

/-- The cluster of a directory; `0` is the root directory. -/
def VfsData.dirCluster (rootCluster : ℕ) (data : VfsData) : Option ℕ :=
  if data.startCluster = 0 then
    if rootCluster < 2 ∨ eocMin ≤ rootCluster then none else some rootCluster
  else some data.startCluster

/-- The root of a mounted volume. -/
def rootNode : Node where
  name := bytesOf "fat32_root"
  isDirectory := true
  data := ⟨0, 0, ⟨List.replicate 11 0, 0, 0, 0, 0, 0, 0, 0, 0, 0, attr_zero_ne⟩⟩
  parent := none

section

variable (v : Volume) (rootCluster : ℕ)

/-- `fat32_vfs_finddir`: the new node has no parent. -/
def vfsFinddir (memory : Bool) (node : Node) (name : List ℕ) : Option (Option Node) :=
  match node.data.dirCluster rootCluster with
  | none => some none
  | some dirCluster =>
    match v.findInDir dirCluster name memory with
    | .overflow => none
    | .notFound => some none
    | .found entry =>
      some (some
        { name := name
          isDirectory := entry.attr.testBit 4
          data := ⟨entry.cluster, dirCluster, entry⟩
          parent := none })

/-- `vfs_resolve_path`, for what follows the mount point in the path. -/
def vfsResolve (memory : Bool) (path : List ℕ) : Option (Option Node) :=
  Vfs.resolveFrom (vfsFinddir v rootCluster memory) rootNode (Vfs.components path)

/-- `fat32_vfs_rmdir`, which asks for the parent. -/
def vfsRmdir (memory : Bool) (kmalloc : Option Buffer) (node : Node) : Option (ℤ × Volume) :=
  match node.parent with
  | none => some (-1, v)
  | some parentData =>
    match parentData.dirCluster rootCluster with
    | none => some (-1, v)
    | some parentCluster => v.deleteDirectory parentCluster node.name memory kmalloc

/-- `vfs_rmdir` on a path of this volume. -/
def rmdir (memory : Bool) (kmalloc : Option Buffer) (path : List ℕ) : Option (ℤ × Volume) :=
  Vfs.rmdir (vfsResolve v rootCluster memory) Node.isDirectory
    (vfsRmdir v rootCluster memory kmalloc) memory v path

/-- The directory has no entries but `.`, `..` and labels. -/
def Volume.IsEmptyDir (cluster : ℕ) : Prop :=
  ∀ x ∈ (v.directory cluster).flatten.takeWhile fun x => x.first ≠ 0, Volume.removable x = true

/-- The path names a directory below the root. -/
structure NamesDir (path : List ℕ) (node : Node) : Prop where
  resolved : vfsResolve v rootCluster true path = some (some node)
  isDirectory : node.isDirectory = true
  below : Vfs.slash ∈ path ∧ Vfs.components path ≠ []

/-- `vfs_rmdir` removes an empty directory, and leaves another one. -/
structure RemovesEmpty (path : List ℕ) (clusterBuf : Buffer) : Prop where
  empty : ∀ node, NamesDir v rootCluster path node → v.IsEmptyDir node.data.startCluster →
    ∃ w, rmdir v rootCluster true (some clusterBuf) path = some (0, w) ∧
      RemovesEntry v w node.data.parentCluster node.name node.data.dirEntry
  other : ∀ node, NamesDir v rootCluster path node → ¬ v.IsEmptyDir node.data.startCluster →
    rmdir v rootCluster true (some clusterBuf) path = some (-1, v)

end

section

variable {v : Volume} {rootCluster : ℕ} {memory : Bool} {node : Node}

lemma parent_of_finddir {parent : Node} {name : List ℕ}
    (h : vfsFinddir v rootCluster memory parent name = some (some node)) : node.parent = none := by
  unfold vfsFinddir at h
  split at h
  · exact nomatch h
  split at h
  · exact nomatch h
  · exact nomatch h
  · rw [← Option.some.inj (Option.some.inj h)]

lemma parent_of_resolve {path : List ℕ}
    (h : vfsResolve v rootCluster memory path = some (some node)) : node.parent = none := by
  have hstep : ∀ (names : List (List ℕ)) (start : Node), start.parent = none →
      Vfs.resolveFrom (vfsFinddir v rootCluster memory) start names = some (some node) →
      node.parent = none := by
    intro names
    induction names with
    | nil =>
      intro start hstart h
      rwa [← Option.some.inj (Option.some.inj h)]
    | cons name rest ih =>
      intro start hstart h
      rw [Vfs.resolveFrom] at h
      rcases hfind : vfsFinddir v rootCluster memory start name with _ | _ | child
      · rw [hfind] at h
        cases h
      · rw [hfind] at h
        cases h
      · rw [hfind] at h
        exact ih child (parent_of_finddir hfind) h
  exact hstep _ rootNode rfl h

/-- **`vfs_rmdir` fails on every directory and changes nothing.** -/
lemma rmdir_fails {path : List ℕ} (h : NamesDir v rootCluster path node) (kmalloc : Option Buffer) :
    rmdir v rootCluster true kmalloc path = some (-1, v) := by
  have hcall : rmdir v rootCluster true kmalloc path = vfsRmdir v rootCluster true kmalloc node :=
    Vfs.rmdir_eq h.resolved h.isDirectory h.below.1
  rw [hcall, vfsRmdir, parent_of_resolve h.resolved]

end

/-- **Removing directories**: `vfs_rmdir` is right if and only if the path does not name an empty
directory. -/
theorem removesEmpty_iff (v : Volume) (rootCluster : ℕ) (path : List ℕ) (clusterBuf : Buffer) :
    RemovesEmpty v rootCluster path clusterBuf ↔
      ∀ node, NamesDir v rootCluster path node → ¬ v.IsEmptyDir node.data.startCluster := by
  constructor
  · intro h node hnode hempty
    obtain ⟨w, hok, -⟩ := h.empty node hnode hempty
    rw [rmdir_fails hnode] at hok
    exact absurd (Prod.mk.inj (Option.some.inj hok)).1 (by decide)
  · intro h
    exact ⟨fun node hnode => (h node hnode).elim, fun node hnode _ => rmdir_fails hnode _⟩

/-- A volume with the empty directory `/SUB`. -/
@[irreducible]
def emptySub : Volume where
  mount := smallMount
  fsinfo := { freeCount := 2, nextFree := 4 }
  disk i :=
    if 2048 ≤ i then
      UInt8.ofNat ((shortBytes ".          " 0x10 3 0 ++ shortBytes "..         " 0x10 0 0).getD
        (i - 2048) 0)
    else if 1536 ≤ i then UInt8.ofNat ((shortBytes "SUB        " 0x10 3 0).getD (i - 1536) 0)
    else ((Buffer.setWord (fun _ => 0) 520 eoc).setWord 524 eoc) i

/-- `vfs_rmdir` does not remove `/SUB`, which is empty. -/
theorem rmdir_refuses_empty : ∃ node, Layout emptySub [[2], [3]] ∧
    NamesDir emptySub 2 (bytesOf "/SUB") node ∧ emptySub.IsEmptyDir node.data.startCluster ∧
    rmdir emptySub 2 true (some fun _ => 0) (bytesOf "/SUB") = some (-1, emptySub) ∧
    (emptySub.deleteDirectory 2 (bytesOf "SUB") true (some fun _ => 0)).map Prod.fst = some 0 := by
  obtain ⟨entry, hentry⟩ : ∃ entry : ShortEntry, entry =
    ⟨bytesOf "SUB        ", 0x10, 0, 0, 0, 0, 0, 0, 3, 0, by decide⟩ := ⟨_, rfl⟩
  have hnode : NamesDir emptySub 2 (bytesOf "/SUB") ⟨bytesOf "SUB", true, ⟨3, 2, entry⟩, none⟩ :=
    ⟨by subst hentry; decide +kernel, rfl, by decide +kernel⟩
  have hempty : emptySub.IsEmptyDir 3 :=
    show ∀ x ∈ _, Volume.removable x = true by decide +kernel
  exact ⟨_, by decide +kernel, hnode, hempty, rmdir_fails hnode _, by decide +kernel⟩

end FrostByte.Fat32
