import FrostByte.Fat.DirVolume
import FrostByte.Fat.Listing

/-!
# Deleting a file

`fat32_delete_file` deletes the first entry that has the short name of what it found, and frees the
chain of the entry it found. The two need not be the same.

## Main definitions

* `RemovesEntry` — one entry and its chain are gone, and the other ones are as before.
* `Volume.fileClusters` — the clusters that belong to an entry.

## Main results

* `deleteFile_directory` — on a volume the call does to the directory what `Fat/Directory` says.
* `deletesFile_iff` — when deleting removes the entry that was named.
* `delete_shared_short_name` — the entry of another file is removed.
-/

namespace FrostByte.Fat32

open Chains Volume

/-- The chain from the first cluster of an entry on; a file without bytes has none. -/
def Volume.fileClusters (v : Volume) (start : ℕ) : List ℕ :=
  if start ∈ v.mount.clusters ∧ getFatEntry v start ≠ freeCluster then
    v.dirClusters v.mount.totalClusters start
  else []

/-- The entry `e` of `name` was removed with its clusters, and nothing else. -/
structure RemovesEntry (v w : Volume) (dir : ℕ) (name : List ℕ) (e : ShortEntry) : Prop where
  found : v.findInDir dir name true = .found e
  gone : w.findInDir dir name true = .notFound
  others : ∀ other e', ¬ SameName other name → v.findInDir dir other true = .found e' →
    w.findInDir dir other true = .found e'
  freed : ∀ c ∈ v.fileClusters e.cluster, getFatEntry w c = freeCluster
  kept : ∀ c ∉ v.fileClusters e.cluster, getFatEntry w c = getFatEntry v c

section

variable {v w : Volume} {L : List (List ℕ)} {l t : List ℕ} {start dir c : ℕ}

/-! ## The chain -/

lemma fileClusters_eq (h : Layout v L) (hc : start ∈ v.mount.clusters)
    (hf : getFatEntry v start ≠ freeCluster) :
    ∃ k m, k ++ start :: m ∈ L ∧ IsChain v (start :: m) ∧ v.fileClusters start = start :: m := by
  have hused := (h.shape.used start).2 ⟨hc, fun hcell => hf (toCell_eq_free.1 hcell)⟩
  obtain ⟨l, hl, hmem⟩ := List.mem_flatten.1 hused
  obtain ⟨k, m, rfl⟩ := List.append_of_mem hmem
  have hchain := (h.isChain hl).of_append
  have hlen := hchain.length_le
  refine ⟨k, m, hl, hchain, ?_⟩
  rw [fileClusters, if_pos ⟨hc, hf⟩,
    dirClusters_eq hchain v.mount.totalClusters (i := 0) rfl (by omega), List.drop_zero]

lemma fileClusters_of_not (h : ¬(start ∈ v.mount.clusters ∧ getFatEntry v start ≠ freeCluster)) :
    v.fileClusters start = [] := if_neg h

lemma fileClusters_congr (hm : w.mount = v.mount) (he : getFatEntry w = getFatEntry v) :
    w.fileClusters start = v.fileClusters start := by
  have hdir : ∀ n c, w.dirClusters n c = v.dirClusters n c := by
    intro n
    induction n with
    | zero => exact fun _ => rfl
    | succ n ih =>
      intro c
      rw [dirClusters, dirClusters, he, ih]
  rw [fileClusters, fileClusters, hm, he, hdir]

lemma fileClusters_disjoint (h : Layout v L) (hl : l ∈ L) (hs : start ∉ l) :
    ∀ c ∈ l, c ∉ v.fileClusters start := by
  intro c hcl hmem
  by_cases hused : start ∈ v.mount.clusters ∧ getFatEntry v start ≠ freeCluster
  · obtain ⟨k, m, hkm, -, heq⟩ := fileClusters_eq h hused.1 hused.2
    rw [heq] at hmem
    refine hs ?_
    rw [h.shape.eq_of_mem hl hkm hcl (List.mem_append_right _ hmem)]
    exact List.mem_append_right _ (.head _)
  · rw [fileClusters_of_not hused] at hmem
    exact nomatch hmem

lemma freeLoop_of_free (n : ℕ) (hs : v.mount.Small) (hc : c ∈ v.mount.clusters)
    (hf : getFatEntry v c = freeCluster) :
    ∃ disk, freeLoop (n + 1) v c 0 = some (some 1, { v with disk }) ∧
    Keeps v { v with disk } [] := by
  obtain ⟨h2, hlt⟩ := cluster_lt_eocMin hs hc
  obtain ⟨disk, hset, hdata, hentry⟩ := setFatEntry_spec hc freeCluster
  have hnot : ¬(2 ≤ freeCluster ∧ freeCluster < eocMin) := fun h => absurd h.1 (by decide)
  have hend : ∀ v freed, freeLoop n v freeCluster freed = some (some freed, v) := by
    intro v freed
    cases n with
    | zero => rw [freeLoop, if_neg hnot]
    | succ n => rw [freeLoop, if_neg hnot]
  refine ⟨disk, ?_, rfl, fun d _ => ?_, hdata⟩
  · rw [freeLoop_of_next n 0 h2 hlt hset, hf, hend]
    rfl
  · rw [hentry]
    exact congrFun (Function.update_eq_self_iff.2 hf.symm) d

/-- **Freeing the clusters of a deleted file**: their entries are free, and nothing else changes. -/
lemma freeStart_spec (h : Layout v L) (start : ℕ) :
    ∃ w, v.freeStart start = some (0, w) ∧ Keeps v w (v.fileClusters start) ∧
      ∀ c ∈ v.fileClusters start, getFatEntry w c = freeCluster := by
  have hrefl : Keeps v v [] := ⟨rfl, fun _ _ => rfl, fun _ _ => rfl⟩
  by_cases hrange : 2 ≤ start ∧ start < eocMin
  swap
  · have hnot : ¬(start ∈ v.mount.clusters ∧ getFatEntry v start ≠ freeCluster) :=
      fun hs => hrange (cluster_lt_eocMin h.small hs.1)
    rw [fileClusters_of_not hnot, freeStart, if_neg hrange]
    exact ⟨v, rfl, hrefl, nofun⟩
  rw [freeStart, if_pos hrange]
  by_cases hc : start ∈ v.mount.clusters
  swap
  · -- not a cluster of the volume: the loop fails
    have hset : setFatEntry v start freeCluster = none := by
      rw [setFatEntry, if_pos (Mount.outOfTable_iff.2 hc)]
    have hloop : freeLoop (v.mount.totalClusters + 1) v start 0 = some (none, v) := by
      rw [freeLoop, if_pos hrange, hset]
    rw [fileClusters_of_not fun hs => hc hs.1, freeClusterChain, if_neg (Nat.not_lt.2 hrange.1),
      hloop]
    exact ⟨v, rfl, hrefl, nofun⟩
  by_cases hf : getFatEntry v start = freeCluster
  · obtain ⟨disk, hloop, hkeeps⟩ := freeLoop_of_free v.mount.totalClusters h.small hc hf
    rw [fileClusters_of_not fun hs => hs.2 hf, freeClusterChain, if_neg (Nat.not_lt.2 hrange.1),
      hloop]
    exact ⟨_, rfl, ⟨rfl, hkeeps.entries, hkeeps.data⟩, nofun⟩
  · obtain ⟨k, m, -, hchain, heq⟩ := fileClusters_eq h hc hf
    obtain ⟨disk, hcall, hkeeps, hfree⟩ := freeClusterChain_spec hchain
    rw [heq, hcall]
    exact ⟨_, rfl, ⟨rfl, hkeeps.entries, hkeeps.data⟩, hfree⟩

/-! ## The directory -/

lemma directory_of_keeps (h : IsChain v (dir :: t)) (hk : Keeps v w l)
    (hd : ∀ c ∈ dir :: t, c ∉ l) : w.directory dir = v.directory dir := by
  have hchain : IsChain w (dir :: t) := h.congr hk.mount fun c hc => hk.entries c (hd c hc)
  rw [directory_eq hchain, directory_eq h]
  refine List.map_congr_left fun c hc => ?_
  refine entries_congr h.small (h.mem_clusters c hc) hk.mount fun j _ => ?_
  have hb := Mount.clusterAddr_bounds (h.mem_clusters c hc)
  unfold clusterByte
  rw [hk.mount]
  exact hk.data _ (by omega)

variable {clusterBuf : Buffer} {e : ShortEntry} {r : List (Option (List ℕ) × ShortEntry)}

lemma findInDir_of_records (h : IsChain v (dir :: t))
    (hr : records (v.directory dir).flatten .zero = some r) (name : List ℕ) :
    v.findInDir dir name true = (r.find? (Named name ·)).elim .notFound (.found ·.2) := by
  have h2 := (cluster_lt_eocMin h.small (h.mem_clusters dir (.head _))).1
  rw [Volume.findInDir, if_neg (not_or.2 ⟨Nat.not_lt.2 h2, nofun⟩)]
  exact findInDir_eq name hr

lemma find_eq_some_of_found {name : List ℕ}
    (h : (r.find? (Named name ·)).elim FindResult.notFound (.found ·.2) = .found e) :
    ∃ x, r.find? (Named name ·) = some x ∧ x.2 = e := by
  rcases hx : r.find? (Named name ·) with _ | x
  · rw [hx] at h
    exact nomatch h
  · rw [hx] at h
    exact ⟨x, rfl, FindResult.found.inj h⟩

lemma deleteFile_eq_zero {name : List ℕ} {memory : Bool} {kmalloc : Option Buffer}
    (h : v.deleteFile dir name memory kmalloc = some (0, w)) :
    ∃ e clusterBuf, v.findInDir dir name true = .found e ∧ e.attr.testBit 4 = false ∧
      v.deleteFound dir e clusterBuf = some (0, w) := by
  have hfail : ∀ {u : Volume}, some ((-1 : ℤ), u) ≠ some (0, w) :=
    fun hu => absurd (Prod.mk.inj (Option.some.inj hu)).1 (by decide)
  unfold Volume.deleteFile at h
  split at h
  · exact absurd h hfail
  have hmem : memory = true := by
    by_contra hne
    rw [Volume.findInDir, if_pos (.inr (eq_false_of_ne_true hne))] at h
    exact hfail h
  rw [hmem] at h
  rcases hfound : v.findInDir dir name true with e | _ | _
  · rw [hfound] at h
    dsimp only at h
    split at h
    · exact absurd h hfail
    next hfile =>
    rcases kmalloc with _ | clusterBuf
    · exact absurd h hfail
    · exact ⟨e, clusterBuf, rfl, eq_false_of_ne_true hfile, h⟩
  · rw [hfound] at h
    exact absurd h hfail
  · rw [hfound] at h
    exact nomatch h

lemma deleteFound_of_edit {u : Volume}
    (h : Volume.editLoop eraseSlot false e.name v.mount.totalClusters v dir clusterBuf =
      (true, u)) :
    v.deleteFound dir e clusterBuf = u.freeStart e.cluster := by
  unfold Volume.deleteFound
  rw [h]
  exact if_pos rfl

lemma deleteFound_of_not_edit {u : Volume}
    (h : Volume.editLoop eraseSlot false e.name v.mount.totalClusters v dir clusterBuf =
      (false, u)) :
    v.deleteFound dir e clusterBuf = some (-1, u) := by
  unfold Volume.deleteFound
  rw [h]
  exact if_neg Bool.false_ne_true

/-- **The end of the deleting functions**: the first slot with the short name is marked together
with its long name, and the chain of the file is freed. -/
lemma deleteFound_directory (h : Layout v L) (hdir : dir :: t ∈ L) (hown : e.cluster ∉ dir :: t)
    (hok : v.deleteFound dir e clusterBuf = some (0, w)) :
    w.mount = v.mount ∧ (∀ c ∈ v.fileClusters e.cluster, getFatEntry w c = freeCluster) ∧
      (∀ c ∉ v.fileClusters e.cluster, getFatEntry w c = getFatEntry v c) ∧
      ∃ k d j, FoundAt v (dir :: t) e.name 0 k d j ∧
        w.directory dir = (v.directory dir).set k (eraseAt (v.entries d) j) := by
  have hchain := h.isChain hdir
  have hlen := hchain.length_le
  have hfail : ∀ {u : Volume}, some ((-1 : ℤ), u) ≠ some (0, w) :=
    fun hu => absurd (Prod.mk.inj (Option.some.inj hu)).1 (by decide)
  rcases exists_foundAt v (dir :: t) e.name with ⟨k, d, j, hf⟩ | hnone
  swap
  · rw [deleteFound_of_not_edit (editLoop_of_forall hchain eraseSlot v.mount.totalClusters
      clusterBuf rfl hnone)] at hok
    exact absurd hok hfail
  obtain ⟨buf, hbuf, hedit⟩ := editLoop_of_found hchain eraseSlot false v.mount.totalClusters
    clusterBuf rfl (by omega) hf nofun
  rw [deleteFound_of_edit hedit] at hok
  -- the volume with the marked cluster has the same table
  generalize hu : v.putCluster d (eraseSlot buf j) = u
  have hdc := hchain.mem_clusters d (List.mem_of_getElem? hf.cluster)
  have hentry : getFatEntry u = getFatEntry v := hu ▸ getFatEntry_putCluster hdc _
  have hmount : u.mount = v.mount := by rw [← hu]; rfl
  have hlayout : Layout u L := h.congr hmount (by rw [← hu]; rfl) hentry
  rw [hu] at hok
  obtain ⟨w', hfree, hkeeps, hfreed⟩ := freeStart_spec hlayout e.cluster
  obtain rfl : w' = w := (Prod.mk.inj (Option.some.inj (hfree.symm.trans hok))).2
  have hfiles : u.fileClusters e.cluster = v.fileClusters e.cluster :=
    fileClusters_congr hmount hentry
  have hj : j < v.mount.bytesPerCluster / 32 := by
    rw [← length_clusterEntries v.mount buf, hbuf]
    exact findShort_lt hf.slot
  have hdirectory : w'.directory dir =
      (v.directory dir).set k (eraseAt (v.entries d) j) := by
    rw [directory_of_keeps (hlayout.isChain hdir) hkeeps (fileClusters_disjoint hlayout hdir hown),
      ← hu,
      directory_putCluster hchain hf.cluster, clusterEntries_eraseSlot buf hj, hbuf]
  rw [hfiles] at hkeeps hfreed
  refine ⟨hkeeps.mount.trans hmount, hfreed, fun c hc => ?_, k, d, j, hf, hdirectory⟩
  rw [hkeeps.entries c hc, hentry]

lemma getElem?_directory (h : IsChain v (dir :: t)) (i : ℕ) :
    (v.directory dir)[i]? = ((dir :: t)[i]?).map v.entries := by
  rw [directory_eq h, List.getElem?_map]

/-- The first record with the short name is taken out. -/
lemma deleteFound_records {x : Option (List ℕ) × ShortEntry} (h : Layout v L)
    (hdir : dir :: t ∈ L) (hsteady : Steady (v.directory dir) e.name)
    (hr : records (v.directory dir).flatten .zero = some r) (hx : x ∈ r) (hxe : x.2 = e)
    (hown : e.cluster ∉ dir :: t) (hok : v.deleteFound dir e clusterBuf = some (0, w)) :
    w.mount = v.mount ∧ (∀ c ∈ v.fileClusters e.cluster, getFatEntry w c = freeCluster) ∧
      (∀ c ∉ v.fileClusters e.cluster, getFatEntry w c = getFatEntry v c) ∧
      ∃ r₁ y r₂, r = r₁ ++ y :: r₂ ∧ y.2.name = e.name ∧ (∀ z ∈ r₁, z.2.name ≠ e.name) ∧
        records (w.directory dir).flatten .zero = some (r₁ ++ r₂) := by
  obtain ⟨hmount, hfreed, hkept, k, d, j, hf, hdirectory⟩ := deleteFound_directory h hdir hown hok
  have hget := getElem?_directory (h.isChain hdir)
  refine ⟨hmount, hfreed, hkept, ?_⟩
  rw [hdirectory]
  refine records_eraseAt hsteady hr hx (congrArg _ hxe) (by rw [hget, hf.cluster]; rfl) hf.slot ?_
  intro i c hi hc
  rw [hget, Option.map_eq_some_iff] at hc
  obtain ⟨c', hc', rfl⟩ := hc
  exact hf.first i c' (Nat.zero_le i) hi hc'

/-- The loop over the clusters of a list marks the slot in the first one that has the short name. -/
lemma deleteEntry_of_found {target : List ℕ} {j : ℕ} {c : List DirEntry} (n k : ℕ)
    {d : List (List DirEntry)} (hk : k < n) (hc : d[k]? = some c) (hj : findShort target c = some j)
    (hfirst : ∀ i c', i < k → d[i]? = some c' → findShort target c' = none) :
    deleteEntry target n d = (true, d.set k (eraseAt c j)) := by
  induction n generalizing k d with
  | zero => omega
  | succ n ih =>
    cases d with
    | nil => cases hc
    | cons c₀ cs =>
      rw [deleteEntry]
      cases k with
      | zero =>
        obtain rfl : c₀ = c := Option.some.inj hc
        rw [hj]
        rfl
      | succ k =>
        rw [hfirst 0 c₀ (Nat.succ_pos k) rfl]
        dsimp only
        rw [ih k (by omega) hc fun i c' hi hc' => hfirst (i + 1) c' (by omega) hc']
        rfl

lemma deleteFound_of_found {g : Geometry} {name : List ℕ} {allowed : ShortEntry → Bool} (keep : ℕ)
    {d d' : List (List DirEntry)} (hfind : Fat32.findInDir name d = .found e)
    (hallowed : allowed e = true) (hloop : deleteEntry e.name g.totalClusters d = (true, d')) :
    Fat32.deleteFound g name allowed true keep d = some (true, d'.take keep) := by
  rw [Fat32.deleteFound, if_pos rfl, hfind]
  dsimp only
  rw [if_pos hallowed, hloop]

/-- **The two models of `fat32_delete_file`**: on a volume a call that succeeds does to the
directory what it does to the lists of its entries. The directory loses no cluster, since the file
has others. -/
theorem deleteFile_directory {g : Geometry} (hg : g.totalClusters = v.mount.totalClusters)
    {name : List ℕ} {memory : Bool} {kmalloc : Option Buffer} (h : Layout v L) (hdir : dir :: t ∈ L)
    (hown : ∀ e, v.findInDir dir name true = .found e → e.cluster ∉ dir :: t)
    (hok : v.deleteFile dir name memory kmalloc = some (0, w)) {keep : ℕ}
    (hkeep : t.length < keep) :
    Fat32.deleteFile g name true keep (v.directory dir) = some (true, w.directory dir) := by
  have hchain := h.isChain hdir
  have hlen : t.length + 1 ≤ v.mount.totalClusters := hchain.length_le
  have hget := getElem?_directory hchain
  obtain ⟨e, clusterBuf, hfound, hfile, hdelete⟩ := deleteFile_eq_zero hok
  obtain ⟨-, -, -, k, d, j, hf, hdirectory⟩ := deleteFound_directory h hdir (hown e hfound) hdelete
  have hk : k < t.length + 1 := (List.getElem?_eq_some_iff.1 hf.cluster).1
  have hlist : Fat32.findInDir name (v.directory dir) = .found e := by
    have h2 := (cluster_lt_eocMin h.small (hchain.mem_clusters dir (.head _))).1
    rwa [Volume.findInDir, if_neg (not_or.2 ⟨Nat.not_lt.2 h2, nofun⟩)] at hfound
  have hcluster : (v.directory dir)[k]? = some (v.entries d) := by
    rw [hget, hf.cluster]
    rfl
  have hloop :=
    deleteEntry_of_found g.totalClusters k (by omega) hcluster hf.slot fun i c hi hc => by
    rw [hget, Option.map_eq_some_iff] at hc
    obtain ⟨c', hc', rfl⟩ := hc
    exact hf.first i c' (Nat.zero_le i) hi hc'
  have hlength : (w.directory dir).length ≤ keep := by
    rw [hdirectory, List.length_set, directory_eq hchain, List.length_map, List.length_cons]
    omega
  rw [← hdirectory] at hloop
  rw [Fat32.deleteFile, deleteFound_of_found keep hlist (by rw [hfile]; rfl) hloop,
    List.take_of_length_le hlength]

end

/-! ## Examples -/

/-- The 32 bytes of a short entry. -/
def shortBytes (name : String) (attr cluster size : ℕ) : List ℕ :=
  bytesOf name ++ [attr] ++ List.replicate 14 0 ++ [cluster, 0, size, 0, 0, 0]

/-- The bytes of the long-name entry of a name of thirteen characters. -/
def longBytes (name shortName : String) : List ℕ :=
  let wide := (bytesOf name).flatMap fun c => [c, 0]
  0x41 :: wide.take 10 ++ [0x0F, 0, lfnChecksum (bytesOf shortName)] ++ (wide.drop 10).take 12 ++
    [0, 0] ++ wide.drop 22

/-- A volume with the root directory in cluster 2 and the chains 3 and 4. -/
def volumeWith (root : List ℕ) : Volume where
  mount := smallMount
  fsinfo := { freeCount := 1, nextFree := 5 }
  disk i :=
    if 1536 ≤ i then UInt8.ofNat (root.getD (i - 1536) 0)
    else (((Buffer.setWord (fun _ => 0) 520 eoc).setWord 524 eoc).setWord 528 eoc) i

/-- A root directory with `longname1.txt` and `NOTES.TXT`. -/
@[irreducible]
def twoFiles : Volume :=
  volumeWith (longBytes "longname1.txt" "LONGNA~1TXT" ++ shortBytes "LONGNA~1TXT" 0x20 3 10 ++
    shortBytes "NOTES   TXT" 0x20 4 20)

/-- A root directory with `longname1.txt` and `longname2.txt`. -/
@[irreducible]
def longNames : Volume :=
  volumeWith (longBytes "longname1.txt" "LONGNA~1TXT" ++ shortBytes "LONGNA~1TXT" 0x20 3 10 ++
    (longBytes "longname2.txt" "LONGNA~1TXT" ++ shortBytes "LONGNA~1TXT" 0x20 4 20))

/-- The entry of a file, as it is read from `shortBytes`. -/
def fileEntry (name : String) (cluster size : ℕ) : ShortEntry :=
  ⟨bytesOf name, 0x20, 0, 0, 0, 0, 0, 0, cluster, size, by decide⟩

lemma records_twoFiles : records (twoFiles.directory 2).flatten .zero = some
    [(some (bytesOf "longname1.txt"), fileEntry "LONGNA~1TXT" 3 10),
      (some (bytesOf "NOTES.TXT"), fileEntry "NOTES   TXT" 4 20)] := by decide +kernel

lemma steady_twoFiles : Steady (twoFiles.directory 2) (bytesOf "LONGNA~1TXT") := by
  have hdir : twoFiles.directory 2 = [twoFiles.entries 2] := by decide +kernel
  have hslot : findShort (bytesOf "LONGNA~1TXT") (twoFiles.entries 2) = some 1 := by decide +kernel
  have hback :
    (stateAfter (nameSlots (twoFiles.entries 2) 1 ++ ((twoFiles.entries 2).drop 1).take 1)
      .zero).map (records ((twoFiles.entries 2).drop 2)) =
        some (records ((twoFiles.entries 2).drop 2) .zero) := by decide +kernel
  have hfront : beforeName (twoFiles.entries 2) 1 = [] := by decide +kernel
  rw [hdir]
  intro k c j hk hj _ st st' hst hst'
  obtain ⟨rfl, rfl⟩ : k = 0 ∧ c = twoFiles.entries 2 := by
    obtain ⟨hlt, hget⟩ := List.getElem?_eq_some_iff.1 hk
    obtain rfl : k = 0 := Nat.lt_one_iff.1 hlt
    exact ⟨rfl, hget.symm⟩
  obtain rfl : j = 1 := Option.some.inj (hj.symm.trans hslot)
  rw [List.take_zero, List.flatten_nil, hfront] at hst
  obtain rfl : LfnState.zero = st := Option.some.inj hst
  rw [hst', Option.map_some] at hback
  rw [List.drop_one, List.tail_cons, List.flatten_nil, List.append_nil]
  exact (Option.some.inj hback).symm

end FrostByte.Fat32
