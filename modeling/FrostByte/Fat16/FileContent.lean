import FrostByte.Fat16.WriteEntry

/-!
# The contents of a file of a FAT16 volume

The contents of a file are what its directory entry on the disk says: so many bytes, in the clusters
of its chain. A write through the node that `vfs_open` has just made replaces the bytes from its
offset on, as long as there is room for one more byte, and leaves the node and the entry in
agreement.

## Main definitions

* `content` — the bytes of a file, by its entry on the disk.
* `FileNode`, `FileNode.write` — the node of an open file, and `fat16_vfs_write` on it.
* `Opened` — the node, the entry on the disk and the chain of the file agree.

## Main results

* `Opened.content_eq` — the contents of a file that is open.
* `Opened.write` — a write stores its bytes and nothing else, and the node stays in agreement.
-/

namespace FrostByte.Fat16

open Word Chains

/-! ## Contents -/

/-- The slot of the first entry with a name in the directory that begins at a cluster; 0 stands for
the root directory. -/
def fileSlot (v : Volume) (dirFirstCluster : ℕ) (name : List ℕ) : Option Slot :=
  if dirFirstCluster = 0 then findSlot v.disk (namedAs name) (rootSlots v.fs)
  else dirSlot v (dirClusters v v.fs.totalClusters dirFirstCluster) name

/-- The contents of the file with a name in a directory, as its entry on the disk records them. -/
def content (v : Volume) (dirFirstCluster : ℕ) (name : List ℕ) : List UInt8 :=
  (fileSlot v dirFirstCluster name).elim [] fun s =>
    let e := entryAt v.disk s
    (List.range e.fileSize).map (fileByte v (dirClusters v v.fs.totalClusters e.firstCluster))

/-- The node of an open file: the volume it is on, its private data and its `size`. -/
structure FileNode where
  volume : Volume
  data : FilePrivate
  size : ℕ

/-- `fat16_vfs_write` on a node, with the size that it records in the node. -/
def FileNode.write (n : FileNode) (name : List ℕ) (offset : ℕ) (src : Buffer) (size : ℕ) :
    Option (ℤ × FileNode) :=
  (vfsWrite n.volume name n.data offset src size).map fun r =>
    (r.1, ⟨r.2.2, r.2.1, if 0 < r.1 then max n.size r.2.1.file.fileSize else n.size⟩)

/-- The cluster is that of the root directory, or one of the chains begins with it. -/
def IsDir (L : List (List ℕ)) (c : ℕ) : Prop := c = 0 ∨ ∃ dir ∈ L, dir.head? = some c

/-- The node has what the entry in the slot records, and `l` is the chain of the file. -/
structure Opened (n : FileNode) (D : Finset ℕ) (L : List (List ℕ)) (l : List ℕ) (s : Slot) :
    Prop where
  chain : HasChain n.volume D L l n.data.file.entry
  isDir : IsDir L n.data.dirFirstCluster
  slot : fileSlot n.volume n.data.dirFirstCluster n.data.file.entry.name = some s
  entry : entryAt n.volume.disk s = n.data.file.entry
  isOpen : n.data.file.isOpen = true
  fileSize : n.data.file.fileSize = n.data.file.entry.fileSize
  size : n.size = n.data.file.entry.fileSize
  covers : n.data.file.entry.fileSize ≤ l.length * n.volume.fs.clusterSize

/-- Of the second volume, the tables, the data of the chain and the names are those of the first. -/
structure SameFile (u w : Volume) (m : List ℕ) : Prop where
  fs : w.fs = u.fs
  table : ∀ a < u.fs.rootDirStart * 512, w.disk a = u.disk a
  data : ∀ c ∈ m, ∀ j < u.fs.clusterSize,
    w.disk (u.fs.clusterAddr c + j) = u.disk (u.fs.clusterAddr c + j)
  names : ∀ t : Slot, t.Valid → (entryAt w.disk t).name = (entryAt u.disk t).name ∧
    (entryAt w.disk t).attributes = (entryAt u.disk t).attributes

section

variable {u v w x : Volume} {D : Finset ℕ} {L : List (List ℕ)} {l m dir : List ℕ} {c : ℕ}
  {s t : Slot} {e : DirEntry} {n : FileNode} {name : List ℕ}

/-! ## The clusters of a chain -/

/-- The loop along a chain goes through its clusters, with enough fuel. -/
lemma dirClusters_eq : ∀ {l : List ℕ} {c fuel : ℕ}, Linked (cell v) l →
    (∀ x ∈ l, x ∈ v.fs.clusters) →
    l.head? = some c → l.length ≤ fuel → dirClusters v fuel c = l := by
  intro l
  induction l with
  | nil =>
    intro c fuel _ _ hhead
    cases hhead
  | cons x l ih =>
    intro c fuel hlinked hmem hhead hfuel
    cases hhead
    obtain ⟨fuel, rfl⟩ : ∃ k, fuel = k + 1 := ⟨fuel - 1, by rw [List.length_cons] at hfuel; omega⟩
    have hx := Fs.mem_clusters.1 (hmem x (.head _))
    have hlt := v.fs.totalClusters_lt
    have hcond : 2 ≤ x ∧ x < endOfChain := by
      unfold endOfChain
      omega
    have hnext : getNextCluster v x = fatEntry v x := if_neg (by omega)
    have hcell : toCell (fatEntry v x) = l.head?.elim .last .next := hlinked.head
    rw [dirClusters, if_pos hcond]
    dsimp only
    rw [hnext]
    cases l with
    | nil => rw [if_pos (toCell_eq_last.1 hcell)]
    | cons y l =>
      obtain ⟨heq, hend⟩ := toCell_eq_next hcell
      rw [List.length_cons] at hfuel
      rw [if_neg (Nat.not_le.2 hend), heq, ih hlinked.tail (fun z hz => hmem z (.tail _ hz)) rfl
        (by omega)]

lemma Layout.dirClusters_eq (h : Layout v D L) (hl : l ∈ L) (hhead : l.head? = some c) :
    dirClusters v v.fs.totalClusters c = l := by
  have hlen := (h.shape.length_le hl).trans (Finset.card_le_card h.subset)
  rw [Fs.clusters, Nat.card_Ico, Nat.add_sub_cancel] at hlen
  exact Fat16.dirClusters_eq (h.shape.linked l hl) (fun x hx => h.subset (h.shape.mem hl hx)) hhead
    hlen

lemma HasChain.dirClusters_eq (h : HasChain v D L l e) :
    dirClusters v v.fs.totalClusters e.firstCluster = l := by
  rcases h.first with ⟨rfl, hlt⟩ | hhead
  · rw [dirClusters.eq_def]
    exact if_neg (by omega)
  · exact h.layout.dirClusters_eq (.head _) hhead

/-- The contents of an open file, along the chain that starts at its first cluster. -/
lemma Opened.content_eq (h : Opened n D L l s) :
    content n.volume n.data.dirFirstCluster n.data.file.entry.name =
      (List.range n.data.file.entry.fileSize).map (fileByte n.volume l) := by
  rw [content, h.slot, Option.elim_some]
  dsimp only
  rw [h.entry, h.chain.dirClusters_eq]

/-! ## The slot of a file -/

lemma Layout.fileSlot_eq (h : Layout v D L) (hdir : dir ∈ L) (hhead : dir.head? = some c) :
    fileSlot v c name = dirSlot v dir name := by
  have hc := Fs.mem_clusters.1 (h.subset (h.shape.mem hdir (List.mem_of_mem_head? hhead)))
  rw [fileSlot, if_neg (by omega), h.dirClusters_eq hdir hhead]

lemma fileSlot_congr (hv : Layout v D (l :: L)) (hw : Layout w D (m :: L)) (hfs : w.fs = v.fs)
    (hc : IsDir L c)
    (h : ∀ t : Slot, t.InDirs v.fs L → (entryAt w.disk t).name = (entryAt v.disk t).name ∧
      (entryAt w.disk t).attributes = (entryAt v.disk t).attributes) :
    fileSlot w c name = fileSlot v c name := by
  rcases hc with rfl | ⟨dir, hdir, hhead⟩
  · rw [fileSlot, fileSlot, if_pos rfl, if_pos rfl, hfs]
    exact findSlot_congr_name fun t ht => h t (.inl ht)
  · rw [hw.fileSlot_eq (.tail _ hdir) hhead, hv.fileSlot_eq (.tail _ hdir) hhead]
    exact dirSlot_congr hfs fun d hd t ht => h t (.inr ⟨d, List.mem_flatten_of_mem hdir hd, ht⟩)

lemma fileSlot_inDirs (hv : Layout v D (l :: L)) (hc : IsDir L c) (h : fileSlot v c name = some s) :
    s.InDirs v.fs L := by
  rcases hc with rfl | ⟨dir, hdir, hhead⟩
  · rw [fileSlot, if_pos rfl] at h
    exact .inl (findSlot_mem h).1
  · rw [hv.fileSlot_eq (.tail _ hdir) hhead] at h
    obtain ⟨d, hd, hs⟩ := dirSlot_mem h
    exact .inr ⟨d, List.mem_flatten_of_mem hdir hd, hs⟩

/-! ## The updates of the entry -/

lemma SameFile.refl (u : Volume) (m : List ℕ) : SameFile u u m :=
  ⟨rfl, fun _ _ => rfl, fun _ _ _ _ => rfl, fun _ _ => ⟨rfl, rfl⟩⟩

lemma SameFile.trans (h1 : SameFile u x m) (h2 : SameFile x w m) : SameFile u w m where
  fs := h2.fs.trans h1.fs
  table a ha := (h2.table a (by rwa [h1.fs])).trans (h1.table a ha)
  data c hc j hj := by
    have h := h2.data c hc j (by rwa [h1.fs])
    rw [h1.fs] at h
    rw [h, h1.data c hc j hj]
  names t ht :=
    ⟨(h2.names t ht).1.trans (h1.names t ht).1, (h2.names t ht).2.trans (h1.names t ht).2⟩

/-- A slot of a directory is not in a cluster of another chain, nor in the tables. -/
lemma SameFile.putEntry (h : Layout u D (m :: L)) (hs : s.InDirs u.fs L) (e : DirEntry) :
    SameFile u { u with disk := putEntry u.disk s e } m := by
  have hvalid : s.Valid := Slot.InDirs.valid h (hs.mono (List.subset_cons_self _ _))
  have hroot := u.fs.rootDirStart_le
  refine ⟨rfl, fun a ha => ?_, fun c hc j hj => ?_, fun t ht => putEntry_name hvalid ht _ _⟩
  · refine putEntry_of_notMem hvalid _ _ ?_
    rcases hs with hs | ⟨d, hd, hs⟩
    · have := (rootSlots_addr hs).2.1
      omega
    · obtain ⟨k, hk, hdk⟩ := List.mem_flatten.1 hd
      have hdm := h.subset (h.shape.mem (.tail _ hk) hdk)
      have := (mem_clusterSlots hdm hs).2.1
      have := (Fs.clusterAddr_bounds hdm).1
      omega
  · have hcm := h.mem_clusters hc
    refine putEntry_of_notMem hvalid _ _ ?_
    rcases hs with hs | ⟨d, hd, hs⟩
    · have := (rootSlots_addr hs).2.2
      have := (Fs.clusterAddr_bounds hcm).1
      omega
    · obtain ⟨k, hk, hdk⟩ := List.mem_flatten.1 hd
      have hdm := h.subset (h.shape.mem (.tail _ hk) hdk)
      have hne : d ≠ c := by
        rintro rfl
        exact h.shape.notMem_tail hc hd
      have := (mem_clusterSlots hdm hs).2
      have := Fs.clusterAddr_disjoint hdm hcm hne
      omega

lemma SameFile.updateDirEntryOnDisk (h : Layout u D (m :: L)) (e : DirEntry) :
    SameFile u (updateDirEntryOnDisk u e) m := by
  unfold Fat16.updateDirEntryOnDisk
  cases hslot : findSlot u.disk (namedAs e.name) (rootSlots u.fs) with
  | none => exact .refl u m
  | some s => exact .putEntry h (.inl (findSlot_mem hslot).1) e

lemma SameFile.layout (h : SameFile u w m) (hu : Layout u D (m :: L)) : Layout w D (m :: L) :=
  hu.of_disk h.fs h.table

lemma SameFile.freeCount_eq (h : SameFile u w m) (hu : Layout u D (m :: L)) :
    freeCount w D = freeCount u D := by
  unfold freeCount
  rw [freeCells_congr fun c hc => ?_]
  exact congrArg toCell (fatEntry_congr h.fs h.table (Fs.lt_fatEntries (hu.subset hc)))

lemma SameFile.fileByte_eq {i : ℕ} (h : SameFile u w m) (hi : i < m.length * u.fs.clusterSize) :
    fileByte w m i = fileByte u m i := by
  unfold fileByte
  rw [h.fs]
  exact h.data _ (List.mem_of_getElem? (getElem?_of_lt hi)) _ (Nat.mod_lt _ u.fs.clusterSize_pos)

lemma Stores.of_sameFile {src : Buffer} {p q : ℕ} (h : Stores src p q v l u m) (hw : SameFile u w m)
    (hfs : u.fs = v.fs) (hlen : l.length ≤ m.length) : Stores src p q v l w m := by
  have hmul := Nat.mul_le_mul_right v.fs.clusterSize hlen
  refine ⟨h.room, fun i hp hq => ?_, fun i hi hout => ?_⟩
  · rw [hw.fileByte_eq (by rw [hfs]; exact h.room i hp hq), h.written i hp hq]
  · rw [hw.fileByte_eq (by rw [hfs]; omega), h.kept i hi hout]

lemma SameFile.fileSlot_eq (h : SameFile u w m) (hu : Layout u D (m :: L)) (hc : IsDir L c) :
    fileSlot w c name = fileSlot u c name :=
  fileSlot_congr hu (h.layout hu) h.fs hc fun t ht =>
    h.names t (Slot.InDirs.valid hu (ht.mono (List.subset_cons_self _ _)))

/-- **The update in the directory of a file** stores its entry in the slot that has its name. -/
lemma updateDirEntryInDir_of_slot (h : Layout x D (m :: L)) (hc : IsDir L c)
    (hs : fileSlot x c e.name = some s) :
    updateDirEntryInDir x c e = some { x with disk := putEntry x.disk s e } := by
  rcases hc with rfl | ⟨dir, hdir, hhead⟩
  · rw [fileSlot, if_pos rfl] at hs
    rw [updateDirEntryInDir, if_pos rfl, Fat16.updateDirEntryOnDisk, hs, Option.elim_some]
  · rw [h.fileSlot_eq (.tail _ hdir) hhead] at hs
    rw [updateDirEntryInDir_eq h (.tail _ hdir) hhead, hs, Option.elim_some]

/-- **Both updates after a write**: the slot of the file has the new entry, and the rest of the file
is as the loop of the write has left it. -/
lemma updates_spec (hu : Layout u D (m :: L)) (hc : IsDir L c) (hs : fileSlot u c e.name = some s)
    (hname : (entryAt u.disk s).name = e.name)
    (hattr : (entryAt u.disk s).attributes = e.attributes)
    (hcluster : e.firstCluster < 2 ^ 16) (hsize : e.fileSize < 2 ^ 32) :
    ∃ w, updateDirEntryInDir (updateDirEntryOnDisk u e) c e = some w ∧ SameFile u w m ∧
      entryAt w.disk s = e := by
  have hx := SameFile.updateDirEntryOnDisk hu e
  generalize updateDirEntryOnDisk u e = x at hx
  have hlayout := hx.layout hu
  have hslot : fileSlot x c e.name = some s := (hx.fileSlot_eq hu hc).trans hs
  have hindirs := fileSlot_inDirs hlayout hc hslot
  have hvalid : s.Valid := Slot.InDirs.valid hlayout (hindirs.mono (List.subset_cons_self _ _))
  obtain ⟨hname', hattr'⟩ := hx.names s hvalid
  refine ⟨_, updateDirEntryInDir_of_slot hlayout hc hslot, hx.trans (.putEntry hlayout hindirs e),
    ?_⟩
  exact entryAt_putEntry hvalid _ (hname.symm.trans hname'.symm)
    (hattr.symm.trans hattr'.symm) hcluster hsize

/-! ## Writes -/

/-- **A write to an open file** for which there is one byte more than it needs stores its bytes, and
the node, the entry and the chain still agree. The room is what it was. -/
lemma Opened.write {offset size : ℕ} (h : Opened n D L l s) (name : List ℕ) (src : Buffer)
    (hpos : 0 < size) (hint : size < 2 ^ 31) (hlt : offset + size < room n.volume D l) :
    ∃ n' m, n.write name offset src size = some ((size : ℤ), n') ∧ Opened n' D L m s ∧
      room n'.volume D m = room n.volume D l ∧
      n'.data.dirFirstCluster = n.data.dirFirstCluster ∧
      n'.data.file.entry = newEntry n.volume n.data.file offset size ∧
      Stores (fun j => src (j - offset)) offset (offset + size) n.volume l n'.volume m := by
  obtain ⟨v, data, nodeSize⟩ := n
  obtain ⟨hchain, hdir, hslot, hentry, hopen, hfsize, hnode, hcovers⟩ := h
  dsimp only at *
  obtain ⟨hcluster, hsize⟩ := hchain.newEntry_lt (hfsize ▸ hcovers) hlt
  obtain ⟨e, he⟩ : ∃ e, e = newEntry v data.file offset size := ⟨_, rfl⟩
  obtain ⟨f, u, m, ⟨rfl, hf, hfopen⟩, hhead, hu, hstores, hvfs⟩ :=
    vfsWrite_eq hchain hopen name src hpos hlt he
  rw [← he] at hcluster hsize
  have hsame : f.entry.name = data.file.entry.name ∧
    f.entry.attributes = data.file.entry.attributes := by
    rw [he]
    exact ⟨rfl, rfl⟩
  have hnew : f.entry.fileSize = max data.file.entry.fileSize (offset + size) := by
    rw [he, ← hfsize]
    rfl
  -- the loop of the write has changed no entry of a directory
  have hindirs := fileSlot_inDirs hchain.layout hdir hslot
  have hslot' : fileSlot u data.dirFirstCluster f.entry.name = some s := by
    rw [hsame.1, ← hslot]
    exact fileSlot_congr hchain.layout hu.layout hu.fs hdir fun t ht => by
      rw [hu.entryAt ht]
      exact ⟨rfl, rfl⟩
  have hold : entryAt u.disk s = data.file.entry := (hu.entryAt hindirs).trans hentry
  obtain ⟨w, hupdate, hw, hentry'⟩ := updates_spec hu.layout hdir hslot'
    (by rw [hold, hsame.1]) (by rw [hold, hsame.2]) hcluster hsize
  have htoInt : Fat32.toInt size = (size : ℤ) := (Fat32.toInt_eq_iff (by omega)).2 ⟨rfl, hint⟩
  rw [htoInt, if_pos (by omega), hupdate, Option.map_some] at hvfs
  have hfs : w.fs = v.fs := hw.fs.trans hu.fs
  have hlen := Nat.mul_le_mul_right v.fs.clusterSize hu.pre.length_le
  refine ⟨⟨w, { data with file := f }, max nodeSize f.fileSize⟩, m, ?_,
    ⟨⟨hw.layout hu.layout, .inr hhead⟩, hdir, (hw.fileSlot_eq hu.layout hdir).trans hslot', hentry',
      hfopen,
      hf, ?_, ?_⟩, ?_, rfl, he, ?_⟩
  · rw [FileNode.write, hvfs, Option.map_some]
    dsimp only
    rw [if_pos (by omega)]
  · dsimp only
    rw [hnode, hf, hnew]
    omega
  · have hlast := hstores.room (offset + size - 1) (by omega) (by omega)
    dsimp only
    rw [hfs, hnew]
    omega
  · rw [room, room, hfs, hw.freeCount_eq hu.layout, hu.count]
  · exact hstores.of_sameFile hw hu.fs hu.pre.length_le

end

end FrostByte.Fat16
