import FrostByte.Fat16.RootMap
import FrostByte.Vfs.Path

/-!
# Removing a directory of a FAT16 volume

`fat16_vfs_rmdir` gives the name of a directory to `fat16_remove_dir_root`, which looks for it in
the root directory, whatever directory the node was found in. Whether a directory is empty is
decided by its first cluster alone. A path that leads back to the root directory by the `..` of one
of its subdirectories finds nothing there: only the node of the mount point has the size of the root
directory.

## Main definitions

* `finddir`, `resolve` — the lookup of a path, as the code does it.
* `rmdir` — `vfs_rmdir`, down to `fat16_remove_dir_root`.
* `NamesDir` — what a path names, by the entries on the disk.
* `RemovesDir` — the call removes the directory exactly if it is empty, and nothing else.

## Main results

* `resolve_eq` — the code finds what a path names, unless it leads through a `..` to the root.
* `removeDirRoot_cases` — what `fat16_remove_dir_root` does to a volume.
* `removesDir_iff` — when removing a directory is right.
-/

namespace FrostByte.Fat16

open Word
open Fat32 (toUpper)

/-! ## Paths -/

/-- `fat16v_entry_make_name`: without spaces, the extension behind a dot. -/
def makeName (e : DirEntry) : List ℕ :=
  let base := ((e.name.take 8).reverse.dropWhile (· = ' '.toNat)).reverse
  let ext := (e.name.drop 8).take 3
  base.takeWhile (· ≠ 0) ++
    if ext.headD 0 = ' '.toNat then []
    else '.'.toNat :: (ext.takeWhile (· ≠ ' '.toNat)).filter (· ≠ 0)

/-- The slots that `fat16v_dir_get_entry` goes through: with first cluster 0 those of so many
sectors of the root directory, otherwise those of the clusters of the chain. -/
def dirSlots (v : Volume) (rootDirSectors firstCluster : ℕ) : List Slot :=
  if firstCluster = 0 then
    (List.range rootDirSectors).flatMap fun s =>
      (List.range 16).map fun i => ⟨w32 (v.fs.rootDirStart + s), i⟩
  else (dirClusters v v.fs.totalClusters firstCluster).flatMap (clusterSlots v.fs)

/-- `fat16v_dir_find`, with the place of the entry. The name is cut to twelve characters. -/
def dirFind (v : Volume) (rootDirSectors firstCluster : ℕ) (name : List ℕ) : Option Slot :=
  findSlot v.disk (fun e => !e.attributes.testBit 3 &&
    (makeName e).map toUpper = (name.take 12).map toUpper) (dirSlots v rootDirSectors firstCluster)

/-- `vfs_node_t`, with the first cluster and the sectors of the root directory of the private
data. -/
structure Node where
  name : List ℕ
  isDirectory : Bool
  firstCluster : ℕ
  rootDirSectors : ℕ
  deriving DecidableEq

/-- The node that `fat16_vfs_finddir` makes of an entry: `root_dir_sectors` is 0, also when the
entry is the `..` of a directory in the root directory, whose first cluster is 0. -/
def nodeOf (e : DirEntry) : Node := ⟨makeName e, e.attributes.testBit 4, e.firstCluster, 0⟩

/-- The node of `fat16_get_root`, the only one with the sectors of the root directory. -/
def rootNode (fs : Fs) : Node :=
  ⟨"fat16_root".toList.map Char.toNat, true, 0, fs.rootDirSectors⟩

/-- `fat16_vfs_finddir`; `none` below a file. -/
def finddir (v : Volume) (node : Node) (name : List ℕ) : Option (Option Node) :=
  if node.isDirectory then
    some ((dirFind v node.rootDirSectors node.firstCluster name).map fun s =>
      nodeOf (entryAt v.disk s))
  else none

/-- `vfs_resolve_path`, for what follows the mount point in the path. -/
def resolve (v : Volume) (path : List ℕ) : Option (Option Node) :=
  Vfs.resolveFrom (finddir v) (rootNode v.fs) (Vfs.components path)

/-! ## Removing -/

/-- Any name that starts with `. ` or `..`. -/
def isDots (e : DirEntry) : Bool :=
  e.name.getD 0 0 = '.'.toNat && (e.name.getD 1 0 = ' '.toNat || e.name.getD 1 0 = '.'.toNat)

/-- An entry that is not in the way of removing its directory. -/
def passedOver (e : DirEntry) : Bool := e.first = 0xE5 || isDots e

/-- `fat16_dir_is_empty`: the first cluster alone, up to an unused slot. -/
def dirIsEmpty (v : Volume) (firstCluster : ℕ) : Bool :=
  2 ≤ firstCluster && ((clusterSlots v.fs firstCluster).takeWhile fun s =>
    (entryAt v.disk s).first ≠ 0).all fun s => passedOver (entryAt v.disk s)

/-- The search of `fat16_remove_dir_root`, labels included. -/
def rootSlot (v : Volume) (name : List ℕ) : Option Slot :=
  findSlot v.disk (fun e => e.name = to83Name name) (rootSlots v.fs)

/-- The entry in the slot passes the checks of `fat16_remove_dir_root`. -/
def Removable (v : Volume) (s : Slot) : Prop :=
  (entryAt v.disk s).attributes.testBit 4 = true ∧
    dirIsEmpty v (entryAt v.disk s).firstCluster = true

instance (v : Volume) (s : Slot) : Decidable (Removable v s) := inferInstanceAs (Decidable (_ ∧ _))

/-- `fat16_remove_dir_root`; `none` when `fuel` is not enough. -/
def removeDirRoot (fuel : ℕ) (v : Volume) (name : List ℕ) : Option (ℤ × Volume) :=
  (rootSlot v name).elim (some (-1, v)) fun s =>
    if Removable v s then
      let firstCluster := (entryAt v.disk s).firstCluster
      let v := { v with disk := patchSlot v.disk s deletedBytes }
      if 2 ≤ firstCluster then (freeChain fuel v firstCluster).map fun v => (0, v) else some (0, v)
    else some (-1, v)

/-- `fat16_vfs_rmdir`. -/
def vfsRmdir (fuel : ℕ) (v : Volume) (node : Node) : Option (ℤ × Volume) :=
  if node.isDirectory then removeDirRoot fuel v node.name else some (-1, v)

/-- `vfs_rmdir`, with enough memory. -/
def rmdir (fuel : ℕ) (v : Volume) (path : List ℕ) : Option (ℤ × Volume) :=
  Vfs.rmdir (resolve v) Node.isDirectory (vfsRmdir fuel v) true v path

/-- The entry of a name in a directory of the tree, where first cluster 0 always stands for the root
directory. -/
def treeFind (v : Volume) (firstCluster : ℕ) (name : List ℕ) : Option Slot :=
  dirFind v v.fs.rootDirSectors firstCluster name

/-- The first cluster of the directory that names lead to, by the entries on the disk. -/
def dirAt (v : Volume) : ℕ → List (List ℕ) → Option ℕ
  | cluster, [] => some cluster
  | cluster, name :: rest =>
    (treeFind v cluster name).bind fun s =>
      if (entryAt v.disk s).attributes.testBit 4 then dirAt v (entryAt v.disk s).firstCluster rest
      else none

/-- The path names the directory whose entry is in the slot. -/
structure NamesDir (v : Volume) (path : List ℕ) (s : Slot) : Prop where
  slash : Vfs.slash ∈ path
  entry : ∃ names name parent, Vfs.components path = names ++ [name] ∧
    dirAt v 0 names = some parent ∧ treeFind v parent name = some s
  isDirectory : (entryAt v.disk s).attributes.testBit 4 = true

/-- The first ones of some names lead from the directory at `cluster` to first cluster 0. -/
def LeadsToZero (v : Volume) (cluster : ℕ) (names : List (List ℕ)) : Prop :=
  ∃ front ≠ [], front <+: names ∧ dirAt v cluster front = some 0

/-- Some names before the last one lead back to the root directory, by the `..` of a directory in
it. -/
def ThroughRoot (v : Volume) (path : List ℕ) : Prop :=
  LeadsToZero v 0 (Vfs.components path).dropLast

/-- The eleven bytes of `.`. -/
def dotName : List ℕ := to83Name [] |>.set 0 '.'.toNat

/-- The eleven bytes of `..`. -/
def dotDotName : List ℕ := dotName.set 1 '.'.toNat

/-- No cluster of the directory has an entry but `.` and `..`. -/
def IsEmptyDir (v : Volume) (firstCluster : ℕ) : Prop :=
  ∀ s ∈ (dirSlots v v.fs.rootDirSectors firstCluster).takeWhile
      fun s => (entryAt v.disk s).first ≠ 0,
    (entryAt v.disk s).first = 0xE5 ∨ (entryAt v.disk s).name = dotName ∨
      (entryAt v.disk s).name = dotDotName

instance (v : Volume) (firstCluster : ℕ) : Decidable (IsEmptyDir v firstCluster) :=
  inferInstanceAs (Decidable (∀ s ∈ _, _))

/-- The slot is in the root directory or in some cluster. -/
def Slot.InTree (s : Slot) (fs : Fs) : Prop :=
  s ∈ rootSlots fs ∨ ∃ c ∈ fs.clusters, s ∈ clusterSlots fs c

/-- The directory is removed exactly if it is empty, and no other entry changes. -/
structure RemovesDir (v : Volume) (s : Slot) (r : ℤ) (w : Volume) : Prop where
  removes : IsEmptyDir v (entryAt v.disk s).firstCluster → r = 0
  succeeds : r = 0 → IsEmptyDir v (entryAt v.disk s).firstCluster ∧ (entryAt w.disk s).first = 0xE5
  others : ∀ t : Slot, t.InTree v.fs → t ≠ s ∨ r ≠ 0 →
    ∀ k < 32, w.disk (t.addr + k) = v.disk (t.addr + k)

/-- The directories of the root directory have chains in the volume. -/
def RootDirsInside (v : Volume) : Prop :=
  ∀ s ∈ rootSlots v.fs, Live v.disk s → (entryAt v.disk s).attributes.testBit 4 = true →
    (entryAt v.disk s).firstCluster ∈ v.fs.clusters ∧ StaysInside v (entryAt v.disk s).firstCluster

section

variable {v w : Volume} {s t : Slot} {path name : List ℕ} {c : ℕ}

/-! ## The call -/

/-- In a node whose first cluster is 0 but that is not the root, nothing is found. -/
lemma resolveFrom_blind {node : Node} (hdir : node.isDirectory = true)
    (hzero : node.firstCluster = 0) (hsectors : node.rootDirSectors = 0) (rest : List (List ℕ)) :
    Vfs.resolveFrom (finddir v) node (name :: rest) = some none := by
  have hfind : dirFind v 0 0 name = none := rfl
  have hnode : finddir v node name = some none := by
    rw [finddir, if_pos hdir, hzero, hsectors, hfind, Option.map_none]
  rw [Vfs.resolveFrom, hnode]

/-- A node with a cluster, or with all sectors of the root directory, finds what its directory
has. -/
lemma finddir_eq {node : Node} (hdir : node.isDirectory = true)
    (hsees : node.firstCluster = 0 → node.rootDirSectors = v.fs.rootDirSectors) (name : List ℕ) :
    finddir v node name =
      some ((treeFind v node.firstCluster name).map fun s => nodeOf (entryAt v.disk s)) := by
  rw [finddir, if_pos hdir, treeFind]
  by_cases hzero : node.firstCluster = 0
  · rw [hsees hzero]
  · rw [dirFind, dirFind, dirSlots, dirSlots, if_neg hzero, if_neg hzero]

lemma dirAt_cons (hfind : treeFind v c name = some s)
    (hdir : (entryAt v.disk s).attributes.testBit 4 = true) (rest : List (List ℕ)) :
    dirAt v c (name :: rest) = dirAt v (entryAt v.disk s).firstCluster rest := by
  rw [dirAt, hfind, Option.bind_some, if_pos hdir]

lemma leadsToZero_cons {names : List (List ℕ)} (hfind : treeFind v c name = some s)
    (hdir : (entryAt v.disk s).attributes.testBit 4 = true)
    (hne : (entryAt v.disk s).firstCluster ≠ 0) :
    LeadsToZero v c (name :: names) ↔ LeadsToZero v (entryAt v.disk s).firstCluster names := by
  constructor
  · rintro ⟨front, hfront, hpre, h0⟩
    obtain ⟨first, rest, rfl⟩ := List.exists_cons_of_ne_nil hfront
    obtain ⟨rfl, hrest⟩ := List.cons_prefix_cons.mp hpre
    rw [dirAt_cons hfind hdir] at h0
    refine ⟨rest, fun hnil => hne ?_, hrest, h0⟩
    rw [hnil, dirAt] at h0
    exact Option.some.inj h0
  · rintro ⟨front, -, hpre, h0⟩
    exact ⟨name :: front, by simp, List.cons_prefix_cons.mpr ⟨rfl, hpre⟩,
      by rw [dirAt_cons hfind hdir, h0]⟩

/-- The lookup of the code against the entries on the disk, by induction on the names: from a node
that sees its directory the code finds the entry, unless names before the last one lead to first
cluster 0. -/
lemma resolveFrom_eq {names : List (List ℕ)} (node : Node) (hdir : node.isDirectory = true)
    (hsees : node.firstCluster = 0 → node.rootDirSectors = v.fs.rootDirSectors)
    (hat : dirAt v node.firstCluster names = some c) (hfind : treeFind v c name = some s) :
    (LeadsToZero v node.firstCluster names →
      Vfs.resolveFrom (finddir v) node (names ++ [name]) = some none) ∧
    (¬ LeadsToZero v node.firstCluster names →
      Vfs.resolveFrom (finddir v) node (names ++ [name]) =
        some (some (nodeOf (entryAt v.disk s)))) := by
  induction names generalizing node with
  | nil =>
    cases hat
    refine ⟨fun ⟨front, hne, hfront, _⟩ => absurd (List.prefix_nil.mp hfront) hne, fun _ => ?_⟩
    rw [List.nil_append, Vfs.resolveFrom, finddir_eq hdir hsees, hfind]
    rfl
  | cons first names ih =>
    have hbind := hat
    rw [dirAt] at hbind
    obtain ⟨t, ht, htdir⟩ := Option.bind_eq_some_iff.mp hbind
    split_ifs at htdir with htdir'
    rw [dirAt_cons ht htdir'] at hat
    have hnext : Vfs.resolveFrom (finddir v) node (first :: names ++ [name]) =
        Vfs.resolveFrom (finddir v) (nodeOf (entryAt v.disk t)) (names ++ [name]) := by
      rw [List.cons_append, Vfs.resolveFrom, finddir_eq hdir hsees, ht]
      rfl
    rw [hnext]
    by_cases hzero : (entryAt v.disk t).firstCluster = 0
    · -- the node of a `..` to the root: what follows is not found
      have hblind : Vfs.resolveFrom (finddir v) (nodeOf (entryAt v.disk t)) (names ++ [name]) =
          some none := by
        obtain ⟨n, rest, hrest⟩ : ∃ n rest, names ++ [name] = n :: rest :=
          List.exists_cons_of_ne_nil (by simp)
        rw [hrest]
        exact resolveFrom_blind htdir' hzero rfl rest
      refine ⟨fun _ => hblind, fun hno => absurd ⟨[first], by simp, by simp, ?_⟩ hno⟩
      rw [dirAt_cons ht htdir', dirAt, hzero]
    · rw [leadsToZero_cons ht htdir' hzero]
      exact ih (nodeOf (entryAt v.disk t)) htdir' (fun h => absurd h hzero) hat

/-- **The code finds what a path names**, unless the path leads through a `..` to the root
directory. -/
lemma NamesDir.resolve_eq (h : NamesDir v path s) :
    (ThroughRoot v path → resolve v path = some none) ∧
      (¬ ThroughRoot v path → resolve v path = some (some (nodeOf (entryAt v.disk s)))) := by
  obtain ⟨names, name, parent, hcomponents, hat, hfind⟩ := h.entry
  rw [ThroughRoot, resolve, hcomponents, List.dropLast_concat]
  exact resolveFrom_eq (rootNode v.fs) rfl (fun _ => rfl) hat hfind

/-- On a path through the root the call fails and changes nothing. -/
lemma NamesDir.rmdir_throughRoot (h : NamesDir v path s) (hroot : ThroughRoot v path) (fuel : ℕ) :
    rmdir fuel v path = some (-1, v) := by
  rw [rmdir, Vfs.rmdir, h.resolve_eq.1 hroot]

/-- On the other paths the call is `fat16_remove_dir_root` with the name of the entry. -/
lemma NamesDir.rmdir_eq (h : NamesDir v path s) (hroot : ¬ ThroughRoot v path) (fuel : ℕ) :
    rmdir fuel v path = removeDirRoot fuel v (makeName (entryAt v.disk s)) := by
  have hdir : (nodeOf (entryAt v.disk s)).isDirectory = true := h.isDirectory
  have hcall : rmdir fuel v path = vfsRmdir fuel v (nodeOf (entryAt v.disk s)) :=
    Vfs.rmdir_eq (h.resolve_eq.2 hroot) hdir h.slash
  rw [hcall, vfsRmdir, if_pos hdir]
  rfl

lemma dirClusters_succ (h2 : 2 ≤ c) (hlt : c < endOfChain) (fuel : ℕ) :
    ∃ rest, dirClusters v (fuel + 1) c = c :: rest := by
  refine ⟨if endOfChain ≤ getNextCluster v c then [] else dirClusters v fuel (getNextCluster v c),
    ?_⟩
  rw [dirClusters, if_pos ⟨h2, hlt⟩]

lemma passedOver_of_name {e : DirEntry}
    (h : e.first = 0xE5 ∨ e.name = dotName ∨ e.name = dotDotName) : passedOver e = true := by
  rw [passedOver, isDots]
  rcases h with h | h | h
  · simp [h]
  · simp [h, dotName, to83Name, Fat32.field]
  · simp [h, dotDotName, dotName, to83Name, Fat32.field]

lemma IsEmptyDir.dirIsEmpty (h : IsEmptyDir v c) (hc : c ∈ v.fs.clusters) :
    dirIsEmpty v c = true := by
  have hmem := Fs.mem_clusters.1 hc
  have hlt := v.fs.totalClusters_lt
  have hslots : clusterSlots v.fs c <+: dirSlots v v.fs.rootDirSectors c := by
    obtain ⟨fuel, hfuel⟩ : ∃ fuel, v.fs.totalClusters = fuel + 1 :=
      ⟨v.fs.totalClusters - 1, by omega⟩
    have hend : c < endOfChain := by
      unfold endOfChain
      omega
    obtain ⟨rest, hrest⟩ := dirClusters_succ hmem.1 hend fuel
    rw [dirSlots, if_neg (by omega), hfuel, hrest]
    exact List.prefix_append ..
  rw [Fat16.dirIsEmpty, Bool.and_eq_true, decide_eq_true_iff, List.all_eq_true]
  refine ⟨hmem.1, fun s hs => passedOver_of_name (h s ?_)⟩
  obtain ⟨rest, hrest⟩ := hslots
  rw [← hrest, List.takeWhile_append]
  split_ifs with hall
  · rw [(List.takeWhile_prefix _).eq_of_length hall] at hs
    exact List.mem_append_left _ hs
  · exact hs

lemma Slot.InTree.valid {fs : Fs} (h : s.InTree fs) : s.Valid ∧ fs.rootDirStart * 512 ≤ s.addr := by
  rcases h with hroot | ⟨c, hc, hs⟩
  · exact ⟨(rootSlots_addr hroot).1, (rootSlots_addr hroot).2.1⟩
  · obtain ⟨hvalid, hge, -⟩ := mem_clusterSlots hc hs
    have hdata := (Fs.clusterAddr_bounds hc).1
    have hroot := Nat.mul_le_mul_right 512 fs.rootDirStart_le
    exact ⟨hvalid, hroot.trans (hdata.trans hge)⟩

/-- **`fat16_remove_dir_root`** does nothing, or removes the directory of that name from the root
directory. -/
lemma removeDirRoot_cases (hin : RootDirsInside v) (name : List ℕ) :
    (∀ fuel, removeDirRoot fuel v name = some (-1, v)) ∧
    (∀ t, rootSlot v name = some t → ¬ Removable v t) ∨
      ∃ t w, rootSlot v name = some t ∧ Removable v t ∧
      (∃ fuel, removeDirRoot fuel v name = some (0, w)) ∧
        (∀ fuel r, removeDirRoot fuel v name = some r → r = (0, w)) ∧
        (entryAt w.disk t).first = 0xE5 ∧
        ∀ a ≥ v.fs.rootDirStart * 512, ¬(t.addr ≤ a ∧ a < t.addr + 32) → w.disk a = v.disk a := by
  cases hslot : rootSlot v name with
  | none => exact .inl ⟨fun fuel => by rw [removeDirRoot, hslot, Option.elim_none], nofun⟩
  | some t =>
    by_cases hremovable : Removable v t
    swap
    · refine .inl ⟨fun fuel => ?_, fun t' ht' => Option.some.inj ht' ▸ hremovable⟩
      simp [removeDirRoot, hslot, if_neg hremovable]
    obtain ⟨hmem, h0, h5, -⟩ := findSlot_mem hslot
    obtain ⟨hvalid, hlo, -⟩ := rootSlots_addr hmem
    obtain ⟨hcluster, hstays⟩ := hin t hmem ⟨h0, h5⟩ hremovable.1
    have hpos : 2 ≤ (entryAt v.disk t).firstCluster := (Fs.mem_clusters.1 hcluster).1
    generalize hu : { v with disk := patchSlot v.disk t deletedBytes } = u
    have hremove : ∀ fuel, removeDirRoot fuel v name =
        (freeChain fuel u (entryAt v.disk t).firstCluster).map fun v => (0, v) := by
      intro fuel
      rw [removeDirRoot, hslot, Option.elim_some, if_pos hremovable, ← hu]
      exact if_pos hpos
    have hustays : StaysInside u (entryAt v.disk t).firstCluster :=
      hu ▸
        (staysInside_patchSlot (rootSlots_addr hmem).1 (rootSlots_addr hmem).2.1 deletedBytes).mpr
        hstays
    obtain ⟨w, ⟨fuel, hw⟩, huniq, hfs, hroot⟩ := hustays.freeChain
    have hufs : u.fs = v.fs := by rw [← hu]
    have hudisk : u.disk = patch v.disk t.addr deletedBytes := by
      rw [← hu]
      exact patchSlot_eq hvalid _ _
    rw [hufs] at hroot
    refine .inr ⟨t, w, rfl, hremovable, ⟨fuel, by rw [hremove, hw]; rfl⟩, fun fuel r hr =>
      ?_, ?_, ?_⟩
    · rw [hremove] at hr
      obtain ⟨x, hx, rfl⟩ := Option.map_eq_some_iff.1 hr
      rw [huniq _ _ hx]
    · have hsame : entryAt w.disk t = entryAt u.disk t :=
        entryAt_root (by rw [hufs]; exact hmem) (by rw [hufs]; exact hroot)
      rw [hsame, entryAt_eq hvalid, hudisk]
      exact first_deleted
    · intro a ha hnot
      rw [hroot a ha, hudisk, patch, if_neg hnot]

end

/-- **Removing a directory** is right exactly when the path of an empty directory does not lead
through the root and its entry is the one that the search in the root directory finds, and one that
is found with nothing in its first cluster is the named one and empty. -/
theorem removesDir_iff {v : Volume} {path : List ℕ} {s : Slot} (hin : RootDirsInside v)
    (h : NamesDir v path s) : ∃ r w, (∃ fuel, rmdir fuel v path = some (r, w)) ∧
      (∀ fuel x, rmdir fuel v path = some x → x = (r, w)) ∧ (RemovesDir v s r w ↔
        (IsEmptyDir v (entryAt v.disk s).firstCluster →
          ¬ ThroughRoot v path ∧ rootSlot v (makeName (entryAt v.disk s)) = some s) ∧
        (¬ ThroughRoot v path → ∀ t, rootSlot v (makeName (entryAt v.disk s)) = some t →
          Removable v t → t = s ∧ IsEmptyDir v (entryAt v.disk s).firstCluster)) := by
  by_cases hthrough : ThroughRoot v path
  · refine ⟨-1, v, ⟨0, h.rmdir_throughRoot hthrough 0⟩, fun fuel x hx => ?_, ?_, ?_⟩
    · rw [h.rmdir_throughRoot hthrough] at hx
      exact (Option.some.inj hx).symm
    · intro hremoves
      exact ⟨fun hempty => absurd (hremoves.removes hempty) (by decide), fun hno =>
        absurd hthrough hno⟩
    · rintro ⟨hempty, -⟩
      exact ⟨fun he => absurd hthrough (hempty he).1, by simp, fun _ _ _ _ _ => rfl⟩
  simp only [h.rmdir_eq hthrough, hthrough, not_false_eq_true, true_and, true_imp_iff]
  rcases removeDirRoot_cases hin (makeName (entryAt v.disk s)) with
    ⟨hfails, hnot⟩ | ⟨t, w, hslot, hremovable, hreturns, huniq, hmark, hsame⟩
  · refine ⟨-1, v, ⟨0, hfails 0⟩, fun fuel x hx => ?_, ?_, ?_⟩
    · rw [hfails] at hx
      exact (Option.some.inj hx).symm
    · intro hremoves
      exact ⟨fun hempty => absurd (hremoves.removes hempty) (by decide), fun t ht =>
        (hnot t ht).elim⟩
    · rintro ⟨hfound, -⟩
      refine ⟨fun hempty => ?_, by simp, fun _ _ _ _ _ => rfl⟩
      -- an empty directory that is found is removed
      obtain ⟨hmem, h0, h5, -⟩ := findSlot_mem (hfound hempty)
      have hcluster := (hin s hmem ⟨h0, h5⟩ h.isDirectory).1
      exact absurd ⟨h.isDirectory, hempty.dirIsEmpty hcluster⟩ (hnot s (hfound hempty))
  · obtain ⟨hmem, h0, h5, -⟩ := findSlot_mem hslot
    obtain ⟨hvalid, hlo, hhi⟩ := rootSlots_addr hmem
    refine ⟨0, w, hreturns, huniq, ?_, ?_⟩
    · intro hremoves
      obtain ⟨hempty, -⟩ := hremoves.succeeds rfl
      have hts : t = s := by
        by_contra hne
        have hentry : entryAt w.disk t = entryAt v.disk t :=
          entryAt_congr hvalid (hremoves.others t (.inl hmem) (.inl hne))
        rw [hentry] at hmark
        exact h5 hmark
      subst hts
      exact ⟨fun _ => hslot, fun t' ht' _ => ⟨Option.some.inj (ht'.symm.trans hslot), hempty⟩⟩
    · rintro ⟨-, hown⟩
      obtain ⟨rfl, hempty⟩ := hown t hslot hremovable
      refine ⟨fun _ => rfl, fun _ => ⟨hempty, hmark⟩, fun t' ht' hne k hk => ?_⟩
      have hne' : t' ≠ t := hne.resolve_right fun hzero => hzero rfl
      obtain ⟨hvalid', hge⟩ := ht'.valid
      have hdisjoint := addr_disjoint hvalid' hvalid hne'
      exact hsame _ (by omega) (by omega)

/-! ## Examples -/

/-- Some bytes, filled up to a sector. -/
def sectorOf (entries : List ℕ) : List ℕ := entries ++ List.replicate (512 - entries.length) 0

/-- The cluster of a directory, with `.` and `..`. -/
def directoryAt (cluster parent : ℕ) (entries : List ℕ) : List ℕ :=
  sectorOf (entryBytes dotName 0x10 cluster 0 ++ entryBytes dotDotName 0x10 parent 0 ++ entries)

/-- The eleven bytes of `X`. -/
def nameX : List ℕ := to83Name [88]

/-- A volume with the empty directories `/X` and `/SUB/X`. -/
def nested : Volume :=
  fullVolume (sectorOf (entryBytes nameX 0x10 2 0 ++ entryBytes (to83Name [83, 85, 66]) 0x10 3 0) ++
    directoryAt 2 0 [] ++ directoryAt 3 0 (entryBytes nameX 0x10 4 0) ++ directoryAt 4 3 [])

lemma staysInside_fullVolume (bytes : List ℕ) {c : ℕ} (hc : c ∈ smallFs.clusters) :
    StaysInside (fullVolume bytes) c := by
  refine ⟨{c}, Finset.singleton_subset_iff.2 hc, .inr (Finset.mem_singleton_self c), fun d hd => ?_⟩
  have htotal : smallFs.totalClusters = 4085 := by decide
  obtain rfl := Finset.mem_singleton.1 hd
  rw [Fs.mem_clusters] at hc
  rw [fatEntry_fullVolume bytes (by omega)]
  exact .inl (.inr (by decide))

lemma rootDirsInside_nested : RootDirsInside nested := by
  have hfirst : ∀ s ∈ rootSlots smallFs, (entryAt nested.disk s).attributes.testBit 4 = true →
      2 ≤ (entryAt nested.disk s).firstCluster ∧ (entryAt nested.disk s).firstCluster < 4 := by
    decide +kernel
  intro s hs _ hdir
  have htotal : smallFs.totalClusters = 4085 := by decide
  have hbounds := hfirst s hs hdir
  have hmem : (entryAt nested.disk s).firstCluster ∈ smallFs.clusters := by
    rw [Fs.mem_clusters]
    omega
  exact ⟨hmem, staysInside_fullVolume _ hmem⟩

/-- `/X` is in the root directory and removed. -/
theorem removesDir_nested : ∃ r w, (∃ fuel, rmdir fuel nested [47, 88] = some (r, w)) ∧
    RemovesDir nested ⟨33, 0⟩ r w := by
  have hnames : NamesDir nested [47, 88] ⟨33, 0⟩ := by
    refine ⟨by decide, ⟨[], [88], 0, by decide, rfl, ?_⟩, ?_⟩ <;> decide +kernel
  have hslot : rootSlot nested (makeName (entryAt nested.disk ⟨33, 0⟩)) = some ⟨33, 0⟩ := by
    decide +kernel
  have hempty : IsEmptyDir nested (entryAt nested.disk ⟨33, 0⟩).firstCluster := by decide +kernel
  obtain ⟨r, w, hreturns, -, hiff⟩ := removesDir_iff rootDirsInside_nested hnames
  have hnot : ¬ ThroughRoot nested [47, 88] := by
    rintro ⟨names, hne, hpre, -⟩
    exact hne (List.prefix_nil.mp hpre)
  exact ⟨r, w, hreturns, hiff.2 ⟨fun _ => ⟨hnot, hslot⟩,
    fun _ t ht _ => ⟨Option.some.inj (ht.symm.trans hslot), hempty⟩⟩⟩

/-- Removing `/SUB/X` removes `/X` and leaves `/SUB/X` where it is. -/
theorem rmdir_removes_other :
    RootDirsInside nested ∧ NamesDir nested [47, 83, 85, 66, 47, 88] ⟨35, 2⟩ ∧
    (entryAt nested.disk ⟨33, 0⟩).name = nameX ∧
    (rmdir 2 nested [47, 83, 85, 66, 47, 88]).map (fun r =>
      (r.1, (entryAt r.2.disk ⟨35, 2⟩).name, (entryAt r.2.disk ⟨33, 0⟩).first)) = some (0, nameX,
      0xE5) := by
  have hnames : NamesDir nested [47, 83, 85, 66, 47, 88] ⟨35, 2⟩ := by
    refine ⟨by decide, ⟨[[83, 85, 66]], [88], 3, by decide, ?_, ?_⟩, ?_⟩ <;> decide +kernel
  refine ⟨rootDirsInside_nested, hnames, by decide +kernel, ?_⟩
  decide +kernel

end FrostByte.Fat16
