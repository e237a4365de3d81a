import FrostByte.Fat16.RootMap
import FrostByte.Fat16.WriteFile

/-!
# The directory entries that a write changes

`fat16_vfs_write` stores the size and the first cluster of a file in its entry. But before,
`fat16_write_file` does the same in the root directory, whatever directory the file is in, if that
has an entry with the same eleven bytes.

## Main definitions

* `vfsWrite` — `fat16_vfs_write`.
* `ChangesOnly` — of the entries of all directories only one has changed.
* `RootAgrees` — an entry of that name in the root directory would not change.

## Main results

* `vfsWrite_changesOnly` — when a write changes the entry of its file only.
* `vfsWrite_changes_root` — the entry of another file is changed.
-/

namespace FrostByte.Fat16

open Word Chains

/-! ## The write of the file system layer -/

/-- `fat16_file_private_t`: the open file, and the cluster of its directory. -/
structure FilePrivate where
  file : File
  dirFirstCluster : ℕ

/-- `fat16_open_file`, which looks in the root directory. -/
def openFile (v : Volume) (name : List ℕ) : Option File :=
  (findFile v name).bind fun e =>
    if e.attributes.testBit 4 then none else some ⟨e, 0, e.fileSize, true⟩

/-- `fat16_vfs_write`. A file that is not open is opened by the name of the node. -/
def vfsWrite (v : Volume) (name : List ℕ) (data : FilePrivate) (offset : ℕ) (src : Buffer)
    (size : ℕ) : Option (ℤ × FilePrivate × Volume) :=
  if size = 0 then some (-1, data, v)
  else
    (if data.file.isOpen then some data.file else openFile v name).elim
      (some (-1, data, v)) fun file =>
      (writeFile v { file with currentOffset := offset } src size).bind fun r =>
        if 0 < r.1 then
          (updateDirEntryInDir r.2.2 data.dirFirstCluster r.2.1.entry).map fun w =>
            (r.1, { data with file := r.2.1 }, w)
        else some (r.1, { data with file := r.2.1 }, r.2.2)

/-- The slot that an update finds in the clusters of a directory. -/
def dirSlot (v : Volume) (dir name : List ℕ) : Option Slot :=
  dir.findSome? fun c => findSlot v.disk (namedAs name) (clusterSlots v.fs c)

/-- An open file of a subdirectory: its chain `l`, the other chains `L`, and which of them are
directories. -/
structure SubFile (v : Volume) (D : Finset ℕ) (L : List (List ℕ)) (l : List ℕ)
    (dirs : List (List ℕ)) (dir : List ℕ) (data : FilePrivate) : Prop where
  chain : HasChain v D L l data.file.entry
  dirs_subset : dirs ⊆ L
  dir_mem : dir ∈ dirs
  head : dir.head? = some data.dirFirstCluster
  isOpen : data.file.isOpen = true
  size_le : data.file.fileSize ≤ l.length * v.fs.clusterSize

/-- Of all entries of all directories, only the one in the slot changes. -/
def ChangesOnly (v w : Volume) (dirs : List (List ℕ)) (own : Option Slot) : Prop :=
  ∀ t : Slot, t.InDirs v.fs dirs → own ≠ some t →
    ∀ k < 32, w.disk (t.addr + k) = v.disk (t.addr + k)

/-- The entry that is stored: a new first cluster if there was none, and the new size. -/
def newEntry (v : Volume) (file : File) (offset size : ℕ) : DirEntry :=
  { file.entry with
    firstCluster :=
    if file.entry.firstCluster < 2 then findFreeCluster v else file.entry.firstCluster
    fileSize := max file.fileSize (offset + size) }

/-- The root directory has no entry with the name, or one with this cluster and size. -/
def RootAgrees (v : Volume) (e : DirEntry) : Prop :=
  ∀ t, findSlot v.disk (namedAs e.name) (rootSlots v.fs) = some t →
    (entryAt v.disk t).firstCluster = e.firstCluster ∧ (entryAt v.disk t).fileSize = e.fileSize

section

variable {v w u : Volume} {D : Finset ℕ} {l m dir : List ℕ} {L dirs : List (List ℕ)}
  {data : FilePrivate} {file f : File} {s t : Slot} {e : DirEntry} {src : Buffer} {size offset : ℕ}

/-! ## The file in memory -/

lemma writeData_file (h : writeData v file src size = some (true, f, w)) (hpos : 0 < size)
    (hlt : file.currentOffset + size < 2 ^ 32) : f.isOpen = file.isOpen ∧
      { f.entry with fileSize := f.fileSize } = newEntry v file file.currentOffset size := by
  unfold writeData at h
  dsimp only at h
  obtain ⟨first, hfirst⟩ : ∃ first, first =
    if file.entry.firstCluster < 2 then findFreeCluster v else file.entry.firstCluster := ⟨_, rfl⟩
  rw [← hfirst] at h
  by_cases hzero : first = 0
  · rw [if_pos hzero] at h
    cases h
  rw [if_neg hzero] at h
  generalize seekLoop _ _ first = found at h
  cases hfound : found.1 with
  | none =>
    rw [hfound] at h
    cases h
  | some c =>
    rw [hfound] at h
    obtain ⟨hentry, hopen, hfile⟩ := writeLoop_file size h hlt
    rw [if_pos hpos, Nat.sub_zero] at hfile
    refine ⟨hopen, ?_⟩
    rw [hentry, hfile, newEntry, hfirst]

/-! ## The updates -/

/-- **The update in a subdirectory** finds the first entry with the name. -/
lemma updateInChain_eq (e : DirEntry) : ∀ {dir : List ℕ} {c fuel : ℕ}, Linked (cell v) dir →
    (∀ x ∈ dir, x ∈ v.fs.clusters) → dir.head? = some c → dir.length ≤ fuel →
    updateInChain e fuel v c =
      some ((dirSlot v dir e.name).elim v fun s => { v with disk := putEntry v.disk s e }) := by
  intro dir
  induction dir with
  | nil => exact fun _ _ hhead _ => nomatch hhead
  | cons x dir ih =>
    intro c fuel hlinked hmem hhead hfuel
    cases hhead
    obtain ⟨fuel, rfl⟩ : ∃ k, fuel = k + 1 := ⟨fuel - 1, by rw [List.length_cons] at hfuel; omega⟩
    have hx := Fs.mem_clusters.1 (hmem x (.head _))
    have hlt := v.fs.totalClusters_lt
    have hcond : 2 ≤ x ∧ x < endOfChain := by
      unfold endOfChain
      omega
    have hnext : getNextCluster v x = fatEntry v x := if_neg (by omega)
    have hcell : toCell (fatEntry v x) = dir.head?.elim .last .next := hlinked.head
    have hstep : updateInChain e (fuel + 1) v x =
        (findSlot v.disk (namedAs e.name) (clusterSlots v.fs x)).elim
          (if endOfChain ≤ fatEntry v x then some v else updateInChain e fuel v (fatEntry v x))
          fun s => some { v with disk := putEntry v.disk s e } := by
      rw [updateInChain, if_pos hcond, hnext]
    rw [hstep, dirSlot, List.findSome?_cons]
    cases findSlot v.disk (namedAs e.name) (clusterSlots v.fs x) with
    | some s => simp
    | none =>
      simp only [Option.elim_none]
      cases dir with
      | nil => rw [if_pos (toCell_eq_last.1 hcell), List.findSome?_nil, Option.elim_none]
      | cons y dir =>
        obtain ⟨heq, hend⟩ := toCell_eq_next hcell
        rw [if_neg (Nat.not_le.2 hend), heq]
        exact ih hlinked.tail (fun z hz => hmem z (.tail _ hz)) rfl
          (by rw [List.length_cons] at hfuel; omega)

lemma updateDirEntryInDir_eq (h : Layout v D L) (hdir : dir ∈ L) {c : ℕ}
    (hhead : dir.head? = some c) (e : DirEntry) :
    updateDirEntryInDir v c e =
      some ((dirSlot v dir e.name).elim v fun s => { v with disk := putEntry v.disk s e }) := by
  have hmem : ∀ x ∈ dir, x ∈ v.fs.clusters := fun x hx => h.subset (h.shape.mem hdir hx)
  have hc := Fs.mem_clusters.1 (hmem c (List.mem_of_mem_head? hhead))
  have hlen : dir.length ≤ v.fs.totalClusters := by
    have hcard := (h.shape.length_le hdir).trans (Finset.card_le_card h.subset)
    rwa [Fs.clusters, Nat.card_Ico, Nat.add_sub_cancel] at hcard
  rw [updateDirEntryInDir, if_neg (by omega)]
  exact updateInChain_eq e (h.shape.linked dir hdir) hmem hhead hlen

lemma dirSlot_mem {name : List ℕ} (h : dirSlot v dir name = some s) :
    ∃ c ∈ dir, s ∈ clusterSlots v.fs c := by
  obtain ⟨c, hc, hslot⟩ := List.exists_of_findSome?_eq_some h
  exact ⟨c, hc, (findSlot_mem hslot).1⟩

lemma dirSlot_congr {name : List ℕ} (hfs : w.fs = v.fs)
    (h : ∀ c ∈ dir, ∀ s ∈ clusterSlots v.fs c, (entryAt w.disk s).name = (entryAt v.disk s).name ∧
      (entryAt w.disk s).attributes = (entryAt v.disk s).attributes) :
    dirSlot w dir name = dirSlot v dir name := by
  unfold dirSlot
  rw [hfs]
  induction dir with
  | nil => rfl
  | cons c dir ih =>
    rw [List.findSome?_cons, List.findSome?_cons, findSlot_congr_name (h c List.mem_cons_self),
      ih fun x hx => h x (.tail _ hx)]

lemma addr_lt_of_root {c : ℕ} (hs : s ∈ rootSlots v.fs) (hc : c ∈ v.fs.clusters)
    (ht : t ∈ clusterSlots v.fs c) : s.addr + 32 ≤ t.addr := by
  have h1 := (rootSlots_addr hs).2.2
  have h2 := (mem_clusterSlots hc ht).2.1
  have h3 := (Fs.clusterAddr_bounds hc).1
  omega

lemma Layout.of_disk (h : Layout v D L) (hfs : w.fs = v.fs)
    (hdisk : ∀ a < v.fs.rootDirStart * 512, w.disk a = v.disk a) : Layout w D L := by
  have hentry : ∀ c ∈ v.fs.clusters, fatEntry w c = fatEntry v c := fun c hc =>
    fatEntry_congr hfs hdisk (Fs.lt_fatEntries hc)
  refine ⟨h.shape.congr fun c hc => congrArg toCell (hentry c (h.subset hc)), hfs ▸ h.subset, ?_⟩
  intro c hc hnot
  rw [hfs] at hc
  rw [hentry c hc, h.bad c hc hnot]

lemma updateDirEntryOnDisk_spec (v : Volume) (e : DirEntry) : (updateDirEntryOnDisk v e).fs = v.fs ∧
      ((updateDirEntryOnDisk v e).disk = v.disk ∨
        ∃ s ∈ rootSlots v.fs, (updateDirEntryOnDisk v e).disk = putEntry v.disk s e) := by
  unfold updateDirEntryOnDisk
  cases hslot : findSlot v.disk (namedAs e.name) (rootSlots v.fs) with
  | none => exact ⟨rfl, .inl rfl⟩
  | some s => exact ⟨rfl, .inr ⟨s, (findSlot_mem hslot).1, rfl⟩⟩

lemma updateDirEntryOnDisk_of_notMem (v : Volume) (e : DirEntry) {a : ℕ}
    (ha : a < v.fs.rootDirStart * 512 ∨ v.fs.dataStart * 512 ≤ a) :
    (updateDirEntryOnDisk v e).disk a = v.disk a := by
  rcases (updateDirEntryOnDisk_spec v e).2 with heq | ⟨s, hs, heq⟩
  · rw [heq]
  · obtain ⟨hvalid, hge, hle⟩ := rootSlots_addr hs
    rw [heq, putEntry_of_notMem hvalid _ _ (by omega)]

/-! ## The write -/

lemma Slot.InDirs.mono (hs : s.InDirs v.fs dirs) (hsub : dirs ⊆ L) : s.InDirs v.fs L := by
  refine hs.imp_right fun ⟨c, hc, hslot⟩ => ⟨c, ?_, hslot⟩
  obtain ⟨k, hk, hck⟩ := List.mem_flatten.1 hc
  exact List.mem_flatten_of_mem (hsub hk) hck

lemma room_lt (h : Layout v D (l :: L)) : room v D l < 2 ^ 32 := by
  have hdisjoint : Disjoint l.toFinset (freeCells (cell v) D) := by
    rw [Finset.disjoint_left]
    intro c hc hfree
    exact h.shape.ne_free (.head _) (List.mem_toFinset.1 hc) (mem_freeCells.1 hfree).2
  have hsub : l.toFinset ∪ freeCells (cell v) D ⊆ v.fs.clusters := by
    refine Finset.union_subset (fun c hc => ?_) fun c hc => h.subset (mem_freeCells.1 hc).1
    exact h.mem_clusters (List.mem_toFinset.1 hc)
  have hcard := Finset.card_le_card hsub
  rw [Finset.card_union_of_disjoint hdisjoint,
    List.toFinset_card_of_nodup (h.shape.nodup_of_mem List.mem_cons_self), Fs.clusters,
    Nat.card_Ico,
    Nat.add_sub_cancel] at hcard
  have hmul := Nat.mul_le_mul_right v.fs.sectorsPerCluster.toNat hcard
  have h1 := v.fs.clusters_le
  have h2 := v.fs.totalSectors_lt
  unfold room freeCount BootSector.clusterSize
  rw [← Nat.mul_assoc]
  omega

lemma findFreeCluster_lt (v : Volume) : findFreeCluster v < 2 ^ 16 := by
  unfold findFreeCluster
  rcases v.fs.toBootSector.findFreeCluster_cases v.disk with ⟨hzero, -⟩ | ⟨n, -, -, hn, -⟩
  · rw [hzero]
    decide
  · rw [hn]
    exact Nat.mod_lt _ (by decide)

lemma HasChain.newEntry_lt (h : HasChain v D L l file.entry)
    (hsize : file.fileSize ≤ l.length * v.fs.clusterSize) (hlt : offset + size < room v D l) :
    (newEntry v file offset size).firstCluster < 2 ^ 16 ∧
      (newEntry v file offset size).fileSize < 2 ^ 32 := by
  have hroom := room_lt h.layout
  have hle : file.fileSize ≤ room v D l :=
    hsize.trans (Nat.mul_le_mul_right _ (Nat.le_add_right ..))
  refine ⟨?_, ?_⟩
  · show (if _ then _ else _) < _
    split_ifs with hfirst
    · exact findFreeCluster_lt v
    · rcases h.first with ⟨-, hsmall⟩ | hhead
      · exact absurd hsmall hfirst
      · have hmem := Fs.mem_clusters.1 (h.layout.mem_clusters (List.mem_of_mem_head? hhead))
        have := v.fs.totalClusters_lt
        omega
  · show max _ _ < _
    omega

/-- **What a write does** when there is room for one more byte: the file has the bytes, and its new
entry is stored in the root directory and then, unless the result is negative, in its own. -/
lemma vfsWrite_eq (hchain : HasChain v D L l data.file.entry) (hopen : data.file.isOpen = true)
    (name : List ℕ) (src : Buffer) (hpos : 0 < size) (hlt : offset + size < room v D l)
    (he : e = newEntry v data.file offset size) :
    ∃ f u m, (f.entry = e ∧ f.fileSize = e.fileSize ∧ f.isOpen = true) ∧
    m.head? = some e.firstCluster ∧
      Grows v D L l u m ∧ Stores (fun j => src (j - offset)) offset (offset + size) v l u m ∧
      vfsWrite v name data offset src size =
        if 0 < Fat32.toInt size then
          (updateDirEntryInDir (updateDirEntryOnDisk u e) data.dirFirstCluster e).map fun w =>
            (Fat32.toInt size, { data with file := f }, w)
        else some (Fat32.toInt size, { data with file := f }, updateDirEntryOnDisk u e) := by
  generalize hfile : { data.file with currentOffset := offset } = file
  have hoffset : file.currentOffset = offset := by rw [← hfile]
  have hopen' : file.isOpen = true := by
    rw [← hfile]
    exact hopen
  have hchain' : HasChain v D L l file.entry := by
    rw [← hfile]
    exact hchain
  obtain ⟨f, u, m, hdata, hfirst, hu, hstores⟩ :=
    writeData_spec hchain' src size (by rw [hoffset]; omega)
  rw [hoffset] at hstores
  rw [hoffset, decide_eq_true hlt] at hdata
  obtain ⟨hfopen, hentry⟩ : f.isOpen = true ∧ { f.entry with fileSize := f.fileSize } = e := by
    have hroom := room_lt hchain.layout
    obtain ⟨h1, h2⟩ := writeData_file hdata hpos (by rw [hoffset]; omega)
    refine ⟨h1.trans hopen', ?_⟩
    rw [h2, he, ← hfile]
    rfl
  have hhead : m.head? = some e.firstCluster := by
    have hm := (hstores hlt).room offset le_rfl (by omega)
    have hcluster : e.firstCluster = m.head?.getD file.entry.firstCluster := by
      rw [← hentry, hfirst]
    cases m with
    | nil =>
      rw [List.length_nil] at hm
      omega
    | cons c m => rw [hcluster, List.head?_cons, Option.getD_some]
  have hwrite : writeFile v file src size = some (Fat32.toInt size,
      { f with entry := e }, updateDirEntryOnDisk u e) := by
    rw [writeFile, if_neg (by simp [hopen']; omega), hdata, ← hentry]
    rfl
  refine ⟨{ f with entry := e }, u, m, ⟨rfl, ?_, hfopen⟩, hhead, hu, hstores hlt, ?_⟩
  · rw [← hentry]
  · rw [vfsWrite, if_neg (by omega), if_pos hopen, Option.elim_some, hfile, hwrite]
    rfl

section

variable (h : SubFile v D L l dirs dir data)

include h

/-- **A write that succeeds** stores the entry in the root directory, and then in its own. -/
lemma vfsWrite_done (name : List ℕ) (src : Buffer)
    (hpos : 0 < size) (hlt : offset + size < room v D l)
    (he : e = newEntry v data.file offset size) :
    ∃ r data' u m w, vfsWrite v name data offset src size = some (r, data', w) ∧ Grows v D L l u m ∧
      (w = updateDirEntryOnDisk u e ∨ ∃ s, dirSlot v dir e.name = some s ∧
        w.disk = putEntry (updateDirEntryOnDisk u e).disk s e) := by
  obtain ⟨f, u, m, -, -, hu, -, hvfs⟩ := vfsWrite_eq h.chain h.isOpen name src hpos hlt he
  obtain ⟨x, hx⟩ : ∃ x, x = updateDirEntryOnDisk u e := ⟨_, rfl⟩
  rw [← hx] at hvfs
  have hxfs : x.fs = u.fs := by
    rw [hx]
    exact (updateDirEntryOnDisk_spec u e).1
  -- the chains are as before, and so are the entries of the directory
  have hlayout : Layout x D (m :: L) := hu.layout.of_disk hxfs fun a ha => by
    rw [hx]
    exact updateDirEntryOnDisk_of_notMem u e (.inl ha)
  have hdir : dir ∈ m :: L := .tail _ (h.dirs_subset h.dir_mem)
  have hslot : dirSlot x dir e.name = dirSlot v dir e.name := by
    refine dirSlot_congr (hxfs.trans hu.fs) fun c hc s hs => ?_
    have hmem : c ∈ v.fs.clusters := h.chain.layout.subset
      (h.chain.layout.shape.mem (.tail _ (h.dirs_subset h.dir_mem)) hc)
    obtain ⟨hvalid, hge, -⟩ := mem_clusterSlots hmem hs
    have hbounds := (Fs.clusterAddr_bounds hmem).1
    have hindirs : s.InDirs v.fs L :=
      .inr ⟨c, List.mem_flatten_of_mem (h.dirs_subset h.dir_mem) hc, hs⟩
    have hsame : entryAt x.disk s = entryAt u.disk s := by
      rw [hx]
      refine entryAt_congr hvalid fun k hk => updateDirEntryOnDisk_of_notMem u e (.inr ?_)
      rw [hu.fs]
      omega
    rw [hsame, hu.entryAt hindirs]
    exact ⟨rfl, rfl⟩
  have hupdate := updateDirEntryInDir_eq hlayout hdir h.head e
  rw [hslot] at hupdate
  rw [hvfs, hupdate]
  split_ifs with hint
  · refine ⟨_, _, u, m, _, rfl, hu, ?_⟩
    cases hown : dirSlot v dir e.name with
    | none => exact .inl hx
    | some s =>
      refine .inr ⟨s, rfl, ?_⟩
      rw [← hx]
      rfl
  · exact ⟨_, _, u, m, x, rfl, hu, .inl hx⟩

lemma vfsWrite_failed (name : List ℕ) (src : Buffer)
    (hpos : 0 < size) (hge : room v D l ≤ offset + size) (hpad : ¬ FreePadding v) :
    ∃ r data' m w, vfsWrite v name data offset src size = some (r, data', w) ∧
    Grows v D L l w m := by
  generalize hfile : { data.file with currentOffset := offset } = file
  have hoffset : file.currentOffset = offset := by rw [← hfile]
  have hchain : HasChain v D L l file.entry := by
    rw [← hfile]
    exact h.chain
  have hopen : file.isOpen = true := by
    rw [← hfile]
    exact h.isOpen
  obtain ⟨f, u, m, hdata, -, hu, -⟩ := writeData_spec hchain src size fun _ => hpad
  rw [hoffset, decide_eq_false (Nat.not_lt.2 hge)] at hdata
  have hwrite := writeFile_of_failed hopen (by omega) hdata
  have hvfs : vfsWrite v name data offset src size =
      some (-1, { data with file := f }, u) := by
    rw [vfsWrite, if_neg (by omega), if_pos h.isOpen, Option.elim_some, hfile, hwrite]
    rfl
  exact ⟨_, _, m, u, hvfs, hu⟩

lemma SubFile.own_notMem_root {name : List ℕ} (hown : dirSlot v dir name = some s) :
    s.Valid ∧ ∀ t ∈ rootSlots v.fs, t.addr + 32 ≤ s.addr := by
  obtain ⟨c, hc, hs⟩ := dirSlot_mem hown
  have hmem : c ∈ v.fs.clusters := h.chain.layout.subset
    (h.chain.layout.shape.mem (.tail _ (h.dirs_subset h.dir_mem)) hc)
  exact ⟨(mem_clusterSlots hmem hs).1, fun t ht => addr_lt_of_root ht hmem hs⟩

end

/-- **The entries that a write changes**: only that of the file, exactly when nothing is written,
there is no room, or no entry of that name in the root directory would change. -/
theorem vfsWrite_changesOnly (h : SubFile v D L l dirs dir data) (name : List ℕ) (src : Buffer)
    (offset size : ℕ) (hpad : room v D l ≤ offset + size → ¬ FreePadding v) :
    ∃ r data' w, vfsWrite v name data offset src size = some (r, data', w) ∧
      (ChangesOnly v w dirs (dirSlot v dir data.file.entry.name) ↔ size = 0 ∨
        room v D l ≤ offset + size ∨
          RootAgrees v (newEntry v data.file offset size)) := by
  rcases Nat.eq_zero_or_pos size with hzero | hpos
  · refine ⟨-1, data, v, by rw [vfsWrite, if_pos hzero], iff_of_true ?_ (.inl hzero)⟩
    exact fun _ _ _ _ _ => rfl
  rcases Nat.lt_or_ge (offset + size) (room v D l) with hlt | hge
  swap
  · obtain ⟨r, data', m, w, hwrite, hw⟩ := vfsWrite_failed h name src hpos hge (hpad hge)
    refine ⟨r, data', w, hwrite, iff_of_true (fun t ht _ k hk => ?_) (.inr (.inl hge))⟩
    exact hw.slot (ht.mono h.dirs_subset) hk
  obtain ⟨e, he⟩ : ∃ e, e = newEntry v data.file offset size := ⟨_, rfl⟩
  have hname : data.file.entry.name = e.name := by rw [he]; rfl
  obtain ⟨hcluster, hsize⟩ := h.chain.newEntry_lt h.size_le hlt
  rw [← he] at hcluster hsize
  obtain ⟨r, data', u, m, w, hwrite, hu, hw⟩ := vfsWrite_done h name src hpos hlt he
  refine ⟨r, data', w, hwrite, ?_⟩
  rw [← he, hname, or_iff_right hpos.ne', or_iff_right (Nat.not_le.2 hlt)]
  obtain ⟨x, hx⟩ : ∃ x, x = updateDirEntryOnDisk u e := ⟨_, rfl⟩
  rw [← hx] at hw
  -- the last update changes the slot of the file only
  have hlast : ∀ t : Slot, t.Valid → dirSlot v dir e.name ≠ some t → ∀ k < 32,
      w.disk (t.addr + k) = x.disk (t.addr + k) := by
    intro t ht hne k hk
    rcases hw with rfl | ⟨s, hs, hdisk⟩
    · rfl
    · have hst : s ≠ t := fun heq => hne (heq ▸ hs)
      have hvalid := (h.own_notMem_root hs).1
      have := addr_disjoint hvalid ht hst
      rw [hdisk, putEntry_of_notMem hvalid _ _ (by omega)]
  have hroot : findSlot u.disk (namedAs e.name) (rootSlots u.fs) =
      findSlot v.disk (namedAs e.name) (rootSlots v.fs) := by
    rw [hu.fs]
    exact findSlot_congr fun s hs => hu.entryAt (.inl hs)
  have hxdisk : x.disk = (findSlot v.disk (namedAs e.name) (rootSlots v.fs)).elim u.disk
      fun s => putEntry u.disk s e := by
    rw [hx, updateDirEntryOnDisk, hroot]
    cases findSlot v.disk (namedAs e.name) (rootSlots v.fs) with
    | none => rfl
    | some s => rfl
  constructor
  · intro hframe t ht
    have hmem := (findSlot_mem ht).1
    have hvalid := (rootSlots_addr hmem).1
    have hne : dirSlot v dir e.name ≠ some t := by
      intro hown
      have := (h.own_notMem_root hown).2 t hmem
      omega
    rw [ht, Option.elim_some] at hxdisk
    have hsame : entryAt (putEntry u.disk t e) t = entryAt v.disk t := by
      refine entryAt_congr hvalid fun k hk => ?_
      rw [← hxdisk, ← hlast t hvalid hne k hk]
      exact hframe t (.inl hmem) hne k hk
    rw [← hsame, firstCluster_entryAt hvalid, fileSize_entryAt hvalid,
      half_putEntry hvalid _ hcluster,
      word_putEntry hvalid _ hsize]
    exact ⟨rfl, rfl⟩
  · intro hagrees t ht hne k hk
    have hindirs := ht.mono h.dirs_subset
    have hvalid : t.Valid := by
      refine Slot.InDirs.valid h.chain.layout (hindirs.mono ?_)
      exact List.subset_cons_self _ _
    have hsame : x.disk = u.disk := by
      rw [hxdisk]
      cases hslot : findSlot v.disk (namedAs e.name) (rootSlots v.fs) with
      | none => rfl
      | some s =>
        have hmem := (findSlot_mem hslot).1
        obtain ⟨h1, h2⟩ := hagrees s hslot
        rw [← hu.entryAt (.inl hmem)] at h1 h2
        exact putEntry_eq_self (rootSlots_addr hmem).1 h1 h2
    rw [hlast t hvalid hne k hk, hsame]
    exact hu.slot hindirs hk

end

/-! ## Two files with one name -/

/-- The eleven bytes of `A`. -/
def nameA : List ℕ := 65 :: List.replicate 10 32

/-- A directory in cluster 3 with a file `A` of 10 bytes in cluster 4; the root directory has it
behind some entries. -/
def withDirectory (entries : List ℕ) : Volume :=
  fullVolume (entries ++ entryBytes ([68, 73, 82] ++ List.replicate 8 32) 0x10 3 0 ++
    List.replicate (992 - entries.length) 0 ++ entryBytes nameA 0x20 4 10)

/-- The file `A` of the directory in cluster 3, open. -/
def fileInDirectory : FilePrivate where
  file := ⟨⟨nameA, 0x20, 4, 10⟩, 0, 10, true⟩
  dirFirstCluster := 3

/-- The chains but the one of the file. -/
def chainsBeside : List (List ℕ) := [2] :: [3] :: (List.range' 5 4082).map fun c => [c]

lemma subFile_withDirectory (entries : List ℕ) :
    SubFile (withDirectory entries) smallFs.clusters chainsBeside [4] [[3]]
    [3] fileInDirectory where
  chain := by
    refine ⟨⟨(fullVolume_layout _).shape.perm ?_, (fullVolume_layout _).subset,
      (fullVolume_layout _).bad⟩, .inr rfl⟩
    have hperm : ([[2], [3]] ++ [4] :: (List.range' 5 4082).map fun c => [c]).Perm
        ([4] :: ([[2], [3]] ++ (List.range' 5 4082).map fun c => [c])) := List.perm_middle
    exact hperm
  dirs_subset := by
    intro l hl
    rw [List.mem_singleton.1 hl]
    exact .tail _ (.head _)
  dir_mem := List.mem_singleton_self _
  head := rfl
  isOpen := rfl
  size_le := by
    show 10 ≤ 1 * smallFs.clusterSize
    decide

lemma room_withDirectory (entries : List ℕ) :
    room (withDirectory entries) smallFs.clusters [4] = 512 := by
  have hsize : smallFs.clusterSize = 512 := by decide
  rw [room, withDirectory, freeCount_fullVolume]
  exact congrArg (1 * ·) hsize

/-- The root directory has no file of that name. -/
theorem vfsWrite_changesOnly_byte : ∃ r data' w,
    vfsWrite (withDirectory []) [65] fileInDirectory 0 (fun _ => 7) 1 = some (r, data', w) ∧
      ChangesOnly (withDirectory []) w [[3]] (dirSlot (withDirectory []) [3] nameA) := by
  have hroot : findSlot (withDirectory []).disk (namedAs nameA) (rootSlots smallFs) = none := by
    decide +kernel
  obtain ⟨r, data', w, hwrite, hiff⟩ := vfsWrite_changesOnly (subFile_withDirectory []) [65]
    (fun _ => 7) 0 1 (by rw [room_withDirectory]; exact by simp)
  refine ⟨r, data', w, hwrite, hiff.2 (.inr (.inr fun t ht => ?_))⟩
  have hnone : none = some t := hroot.symm.trans ht
  cases hnone

/-- A byte written to `A` in the directory changes the entry of `A` in the root directory. -/
theorem vfsWrite_changes_root :
    SubFile (withDirectory (entryBytes nameA 0x20 2 100)) smallFs.clusters chainsBeside [4] [[3]]
    [3]
      fileInDirectory ∧
    entryAt (withDirectory (entryBytes nameA 0x20 2 100)).disk ⟨33, 0⟩ = ⟨nameA, 0x20, 2, 100⟩ ∧
    (vfsWrite (withDirectory (entryBytes nameA 0x20 2 100)) [65] fileInDirectory 0
      (fun _ => 7) 1).map
      (fun r => (r.1, entryAt r.2.2.disk ⟨33, 0⟩)) = some (1, ⟨nameA, 0x20, 4, 10⟩) :=
  ⟨subFile_withDirectory _, by decide +kernel, by decide +kernel⟩

end FrostByte.Fat16
