import FrostByte.Fat16.Volume

/-!
# The table of a FAT16 volume

`fatEntry` reads an entry of the first table and `setClusterValue` changes one, and no byte behind
the tables. A `Layout` is the volume seen as its chains of clusters.

## Main definitions

* `Layout` — the volume as its chains of clusters.
* `FreePadding` — a free entry of the table behind the last cluster.
* `Grows`, `Extends` — what a step does to one chain and to the rest.

## Main results

* `setClusterValue_entry` — storing an entry changes no other one.
* `findFreeCluster_eq` — the search finds the first free entry, cluster or not.
* `Layout.advance` — the step to the next cluster, with a new one at the end.
-/

namespace FrostByte.Fat16

open Word Chains Function BootSector Buffer Fs

/-! ## Where things are -/

variable {e s : ℕ}

namespace Fs

variable (fs : Fs)

/-- The clusters of the volume, from 2 on. -/
def clusters : Finset ℕ := Finset.Ico 2 (fs.totalClusters + 2)

/-- The byte of the device where a cluster starts. -/
def clusterAddr (c : ℕ) : ℕ := (fs.dataStart + (c - 2) * fs.sectorsPerCluster.toNat) * 512

/-- The entries that a table has room for. -/
def fatEntries : ℕ := fs.sectorsPerFat.toNat * 256

variable {fs}

lemma mem_clusters {c : ℕ} : c ∈ fs.clusters ↔ 2 ≤ c ∧ c < fs.totalClusters + 2 := Finset.mem_Ico

variable (fs)

lemma totalSectors_lt : fs.totalSectors < 2 ^ 23 := by
  have := fs.size_lt
  omega

lemma fat_le : fs.fatStart + fs.sectorsPerFat.toNat ≤ fs.rootDirStart := by
  have := Nat.le_mul_of_pos_left fs.sectorsPerFat.toNat fs.numFats_pos
  unfold rootDirStart
  omega

lemma fats_le (h : 1 < fs.numFats.toNat) :
    fs.fatStart + 2 * fs.sectorsPerFat.toNat ≤ fs.rootDirStart := by
  have := Nat.mul_le_mul_right fs.sectorsPerFat.toNat h
  unfold rootDirStart
  omega

lemma rootDirStart_le : fs.rootDirStart ≤ fs.dataStart := Nat.le_add_right ..

lemma clusterSize_pos : 0 < fs.clusterSize := by
  have := fs.cluster_size
  unfold clusterSize
  omega

lemma clusters_le : fs.dataStart + fs.totalClusters * fs.sectorsPerCluster.toNat ≤
    fs.totalSectors := by
  have h1 := fs.dataStart_le
  have h2 := fs.totalSectors_lt
  have h3 := Nat.div_mul_le_self (fs.totalSectors - fs.dataStart) fs.sectorsPerCluster.toNat
  unfold totalClusters
  rw [sub32_of_le h1 (by omega)]
  omega

lemma fatEntries_le : fs.totalClusters + 2 ≤ fs.fatEntries := by
  have := fs.entries_le
  unfold fatEntries
  omega

variable {fs} {c d : ℕ}

lemma clusterAddr_bounds (hc : c ∈ fs.clusters) : fs.dataStart * 512 ≤ fs.clusterAddr c ∧
      fs.clusterAddr c + fs.clusterSize ≤ fs.totalSectors * 512 := by
  rw [mem_clusters] at hc
  have h1 := fs.clusters_le
  have h2 := Nat.mul_le_mul_right fs.sectorsPerCluster.toNat
    (show c - 2 + 1 ≤ fs.totalClusters by omega)
  rw [Nat.add_mul] at h2
  unfold clusterAddr clusterSize
  omega

lemma clusterAddr_disjoint (hc : c ∈ fs.clusters) (hd : d ∈ fs.clusters) (hne : c ≠ d) :
    fs.clusterAddr c + fs.clusterSize ≤ fs.clusterAddr d ∨
      fs.clusterAddr d + fs.clusterSize ≤ fs.clusterAddr c := by
  rw [mem_clusters] at hc hd
  unfold clusterAddr clusterSize
  rcases Nat.lt_or_gt_of_ne hne with h | h
  · have := Nat.mul_le_mul_right fs.sectorsPerCluster.toNat (show c - 2 + 1 ≤ d - 2 by omega)
    rw [Nat.add_mul] at this
    omega
  · have := Nat.mul_le_mul_right fs.sectorsPerCluster.toNat (show d - 2 + 1 ≤ c - 2 by omega)
    rw [Nat.add_mul] at this
    omega

lemma sectorLba_eq_add (hc : c ∈ fs.clusters) (hs : s < fs.sectorsPerCluster.toNat) :
    sectorLba fs c s = fs.dataStart + (c - 2) * fs.sectorsPerCluster.toNat + s ∧
      sectorLba fs c s < 2 ^ 23 := by
  have h1 := clusterAddr_bounds hc
  have h2 := fs.totalSectors_lt
  have h3 := fs.totalClusters_lt
  rw [mem_clusters] at hc
  unfold clusterAddr clusterSize at h1
  unfold sectorLba
  rw [sub32_of_le hc.1 (by omega), w32_of_lt (by omega)]
  exact ⟨rfl, by omega⟩

lemma sectorLba_eq (hc : c ∈ fs.clusters) (hs : s < fs.sectorsPerCluster.toNat) :
    w32 (sectorLba fs c s * 512) = fs.clusterAddr c + s * 512 := by
  obtain ⟨heq, hlt⟩ := sectorLba_eq_add hc hs
  rw [w32_of_lt (by omega), heq, Nat.add_mul]
  rfl

end Fs

/-! ## One entry -/

namespace BootSector

variable (b : BootSector) (disk : Buffer)

/-- No entry is free, or the first free one is found. -/
lemma findFreeCluster_cases :
    (b.findFreeCluster disk = 0 ∧ ∀ n < b.sectorsPerFat.toNat * 256, ¬ b.IsFree disk n) ∨
      ∃ n < b.sectorsPerFat.toNat * 256, b.IsFree disk n ∧ b.findFreeCluster disk = w16 n ∧
        ∀ m < n, ¬ b.IsFree disk m := by
  cases hfind : (List.range (b.sectorsPerFat.toNat * 256)).find? fun n => b.IsFree disk n with
  | none => exact .inl ⟨congrArg (Option.elim · 0 w16) hfind, by simpa using hfind⟩
  | some n =>
    obtain ⟨hfree, hn, hfirst⟩ := List.find?_range_eq_some.1 hfind
    exact .inr ⟨n, List.mem_range.1 hn, by simpa using hfree,
      congrArg (Option.elim · 0 w16) hfind, by simpa using hfirst⟩

end BootSector

variable {v w : Volume} {c d n : ℕ}

lemma readSector_apply {disk : Buffer} {lba k : ℕ} (hlba : lba < 2 ^ 23) (hk : k < 512) :
    readSector disk lba k = disk (lba * 512 + k) := by
  rw [readSector, w32_of_lt (by omega), copy_of_mem _ _ (Nat.zero_le _) (by omega), Nat.sub_zero]

/-- The byte of the device where an entry of the first table is. -/
def entryAddr (v : Volume) (n : ℕ) : ℕ := v.fs.fatStart * 512 + n * 2

lemma BootSector.fatEntry_eq {b : BootSector} {disk : Buffer} (hn : n < 2 ^ 24) :
    b.fatEntry disk n = disk.half (b.fatStart * 512 + n * 2) := by
  have hstart : b.fatStart < 2 ^ 16 := b.reservedSectors.toNat_lt
  refine half_congr fun k hk => ?_
  rw [w32_of_lt (by omega), readSector_apply (by omega) (by omega)]
  refine congrArg disk ?_
  omega

lemma fatEntry_eq (hn : n < v.fs.fatEntries) : fatEntry v n = v.disk.half (entryAddr v n) := by
  have hsize := v.fs.sectorsPerFat.toNat_lt
  unfold fatEntries at hn
  exact BootSector.fatEntry_eq (by omega)

lemma entry_in_sector {f a : ℕ} (h : f * 512 + c * 2 ≤ a ∧ a < f * 512 + c * 2 + 2) :
    (f + c * 2 / 512) * 512 ≤ a ∧ a < (f + c * 2 / 512) * 512 + 512 := by
  constructor <;> omega

lemma setClusterValue_disk (hc : c < v.fs.fatEntries) (x : ℕ) :
    (∀ a, v.fs.rootDirStart * 512 ≤ a → (setClusterValue v c x).disk a = v.disk a) ∧
      ∀ a < (v.fs.fatStart + v.fs.sectorsPerFat.toNat) * 512,
        (setClusterValue v c x).disk a = v.disk.setHalf (entryAddr v c) x a := by
  have h1 := v.fs.fat_le
  have h2 := v.fs.rootDirStart_le
  have h3 := v.fs.dataStart_le
  have h4 := v.fs.totalSectors_lt
  unfold fatEntries at hc
  obtain ⟨disk, hdisk⟩ : ∃ disk, disk = writeSector v.disk (v.fs.fatStart + c * 2 / 512)
    ((readSector v.disk (v.fs.fatStart + c * 2 / 512)).setHalf (c * 2 % 512) x) := ⟨_, rfl⟩
  have hset : (setClusterValue v c x).disk = if 1 < v.fs.numFats.toNat then
      writeSector disk (v.fs.fatStart + c * 2 / 512 + v.fs.sectorsPerFat.toNat)
        ((readSector v.disk (v.fs.fatStart + c * 2 / 512)).setHalf (c * 2 % 512) x) else disk := by
    unfold setClusterValue
    dsimp only
    rw [w32_of_lt (n := v.fs.fatStart + c * 2 / 512) (by omega), w32_of_lt (by omega), hdisk]
  -- the first table, and what is behind both
  have hfirst : ∀ a, ¬((v.fs.fatStart + c * 2 / 512) * 512 ≤ a ∧
      a < (v.fs.fatStart + c * 2 / 512) * 512 + 512) → disk a = v.disk a := by
    intro a ha
    rw [hdisk, writeSector, w32_of_lt (by omega)]
    exact copy_of_notMem _ _ ha
  have hsecond : ∀ a, a < (v.fs.fatStart + v.fs.sectorsPerFat.toNat) * 512 ∨
      v.fs.rootDirStart * 512 ≤ a → (setClusterValue v c x).disk a = disk a := by
    intro a ha
    rw [hset]
    split_ifs with hfats
    · have h5 := v.fs.fats_le hfats
      rw [writeSector, w32_of_lt (by omega)]
      exact copy_of_notMem _ _ (by omega)
    · rfl
  refine ⟨fun a ha => ?_, fun a ha => ?_⟩
  · rw [hsecond a (.inr ha), hfirst a (by omega)]
  · rw [hsecond a (.inl ha)]
    by_cases hs : (v.fs.fatStart + c * 2 / 512) * 512 ≤ a ∧
        a < (v.fs.fatStart + c * 2 / 512) * 512 + 512
    · rw [hdisk, writeSector, w32_of_lt (by omega), copy_of_mem _ _ hs.1 hs.2]
      unfold setHalf entryAddr
      rw [readSector_apply (by omega) (by omega)]
      by_cases he : v.fs.fatStart * 512 + c * 2 ≤ a ∧ a < v.fs.fatStart * 512 + c * 2 + 2
      · rw [if_pos (by omega), if_pos he]
        congr 3
        omega
      · rw [if_neg (by omega), if_neg he]
        congr 1
        omega
    · rw [hfirst a hs]
      unfold setHalf entryAddr
      rw [if_neg fun he => hs (entry_in_sector he)]

/-- Storing an entry changes this entry of the first table and no other: two entries have disjoint
bytes. -/
lemma setClusterValue_entry (hc : c < v.fs.fatEntries) {x : ℕ} (hx : x < 2 ^ 16)
    (hn : n < v.fs.fatEntries) :
    fatEntry (setClusterValue v c x) n = if n = c then x else fatEntry v n := by
  have hword : fatEntry (setClusterValue v c x) n =
      (v.disk.setHalf (entryAddr v c) x).half (entryAddr v n) := by
    rw [fatEntry_eq (v := setClusterValue v c x) hn]
    refine half_congr fun k hk => (setClusterValue_disk hc x).2 _ ?_
    unfold fatEntries at hn
    unfold entryAddr
    show v.fs.fatStart * 512 + n * 2 + k < _
    omega
  rw [hword]
  split_ifs with h
  · rw [h, half_setHalf _ hx]
  · rw [half_setHalf_of_disjoint, fatEntry_eq hn]
    unfold entryAddr
    omega

lemma fatEntry_congr (hfs : w.fs = v.fs)
    (h : ∀ a < v.fs.rootDirStart * 512, w.disk a = v.disk a) (hn : n < v.fs.fatEntries) :
    fatEntry w n = fatEntry v n := by
  have h1 := v.fs.fat_le
  rw [fatEntry_eq hn, fatEntry_eq (by rwa [hfs])]
  refine half_congr fun k hk => ?_
  unfold fatEntries at hn
  unfold entryAddr
  rw [hfs, h _ (by omega)]

lemma writeSector_of_notMem (hc : c ∈ v.fs.clusters) (hs : s < v.fs.sectorsPerCluster.toNat)
    (sector : Buffer) {a : ℕ}
    (ha : ¬(v.fs.clusterAddr c ≤ a ∧ a < v.fs.clusterAddr c + v.fs.clusterSize)) :
    writeSector v.disk (sectorLba v.fs c s) sector a = v.disk a := by
  have hlen : s * 512 + 512 ≤ v.fs.clusterSize := by
    unfold clusterSize
    omega
  rw [writeSector, sectorLba_eq hc hs]
  exact copy_of_notMem _ _ (by omega)

lemma fatEntry_writeSector (hc : c ∈ v.fs.clusters) (hs : s < v.fs.sectorsPerCluster.toNat)
    (sector : Buffer) (hn : n < v.fs.fatEntries) :
    fatEntry { v with disk := writeSector v.disk (sectorLba v.fs c s) sector } n =
    fatEntry v n := by
  have haddr := clusterAddr_bounds hc
  have hdata := v.fs.rootDirStart_le
  refine fatEntry_congr
    rfl (fun a ha => writeSector_of_notMem hc hs sector ?_) hn
  omega

/-! ## Free entries -/

/-- The entry is free and its number is not reserved. -/
def IsFree (v : Volume) (n : ℕ) : Prop := v.fs.toBootSector.IsFree v.disk n

lemma isFree_iff : IsFree v n ↔ fatEntry v n = freeCluster ∧ 2 ≤ w16 n := Iff.rfl

/-- The table has a free entry behind the last cluster. -/
def FreePadding (v : Volume) : Prop :=
  ∃ n, v.fs.totalClusters + 2 ≤ n ∧ n < v.fs.fatEntries ∧ IsFree v n

/-- The search goes through the table sector by sector and so finds the first free entry. -/
lemma findFreeCluster_eq (h : ∃ n < v.fs.fatEntries, IsFree v n) :
    ∃ n < v.fs.fatEntries, IsFree v n ∧ findFreeCluster v = w16 n ∧ ∀ m < n, ¬ IsFree v m := by
  obtain ⟨n, hn, hfree⟩ := h
  rcases v.fs.toBootSector.findFreeCluster_cases v.disk with ⟨-, hnone⟩ | hsome
  · exact absurd hfree (hnone n hn)
  · exact hsome

lemma findFreeCluster_eq_zero (h : ∀ n < v.fs.fatEntries, ¬ IsFree v n) :
    findFreeCluster v = 0 := by
  rcases v.fs.toBootSector.findFreeCluster_cases v.disk with ⟨hzero, -⟩ | ⟨n, hn, hfree, -⟩
  · exact hzero
  · exact absurd hfree (h n hn)

lemma findFreeCluster_mem (hc : c ∈ v.fs.clusters) (hf : fatEntry v c = freeCluster) :
    findFreeCluster v ∈ v.fs.clusters ∧ fatEntry v (findFreeCluster v) = freeCluster := by
  have h1 := v.fs.totalClusters_lt
  have h2 := v.fs.fatEntries_le
  rw [mem_clusters] at hc
  have hfree : IsFree v c := ⟨hf, by rw [w16_of_lt (by omega)]; omega⟩
  obtain ⟨n, -, hn, heq, hfirst⟩ := findFreeCluster_eq ⟨c, by omega, hfree⟩
  have hle : n ≤ c := Nat.le_of_not_lt fun hlt => hfirst c hlt hfree
  have hn16 : w16 n = n := w16_of_lt (by omega)
  rw [heq, hn16, mem_clusters]
  exact ⟨⟨hn16 ▸ hn.2, by omega⟩, hn.1⟩

/-! ## The table as chains -/

/-- An entry as a cell of a table of chains. -/
def toCell (e : ℕ) : Cell ℕ :=
  if e = freeCluster then .free else if endOfChain ≤ e then .last else .next e

/-- The cell of a cluster. -/
def cell (v : Volume) (c : ℕ) : Cell ℕ := toCell (fatEntry v c)

/-- The used clusters are the disjoint union of the chains; the others are marked as bad. -/
structure Layout (v : Volume) (D : Finset ℕ) (chains : List (List ℕ)) : Prop where
  shape : Shape (cell v) D chains
  subset : D ⊆ v.fs.clusters
  bad : ∀ c ∈ v.fs.clusters, c ∉ D → fatEntry v c = badCluster

/-- The free cells among the clusters of `D`. -/
def freeCount (v : Volume) (D : Finset ℕ) : ℕ := (freeCells (cell v) D).card

/-- The chain `l` has become `m`; the other chains and their data are as before. -/
structure Grows (v : Volume) (D : Finset ℕ) (L : List (List ℕ)) (l : List ℕ) (w : Volume)
    (m : List ℕ) : Prop where
  layout : Layout w D (m :: L)
  fs : w.fs = v.fs
  pre : l <+: m
  count : m.length + freeCount w D = l.length + freeCount v D
  root : ∀ a, v.fs.rootDirStart * 512 ≤ a → a < v.fs.dataStart * 512 → w.disk a = v.disk a
  data : ∀ c ∈ L.flatten, ∀ j < v.fs.clusterSize,
    w.disk (v.fs.clusterAddr c + j) = v.disk (v.fs.clusterAddr c + j)
  padding : ∀ n, v.fs.totalClusters + 2 ≤ n → n < v.fs.fatEntries → fatEntry w n = fatEntry v n

/-- The chain `l` has become `m`, and only the tables have changed. -/
structure Extends (v : Volume) (D : Finset ℕ) (L : List (List ℕ)) (l : List ℕ) (w : Volume)
    (m : List ℕ) : Prop extends Grows v D L l w m where
  disk : ∀ a, v.fs.rootDirStart * 512 ≤ a → w.disk a = v.disk a

@[simp]
lemma toCell_eq_free : toCell e = .free ↔ e = freeCluster := by
  unfold toCell
  split_ifs <;> simp_all

lemma toCell_eq_last : toCell e = .last ↔ endOfChain ≤ e := by
  unfold toCell
  split_ifs with h1 h2
  · simp [h1, freeCluster, endOfChain]
  · simp [h2]
  · simp [h2]

lemma toCell_eq_next {b : ℕ} (h : toCell e = .next b) : e = b ∧ e < endOfChain := by
  unfold toCell at h
  split_ifs at h with h1 h2
  exact ⟨Cell.next.inj h, Nat.lt_of_not_le h2⟩

lemma toCell_of_mem {fs : Fs} (hc : c ∈ fs.clusters) : toCell c = .next c := by
  have := fs.totalClusters_lt
  rw [mem_clusters] at hc
  unfold toCell freeCluster endOfChain
  rw [if_neg (by omega), if_neg (by omega)]

lemma Fs.lt_fatEntries {fs : Fs} (hc : c ∈ fs.clusters) : c < fs.fatEntries := by
  have := fs.fatEntries_le
  rw [mem_clusters] at hc
  omega

namespace Layout

variable {D : Finset ℕ} {l : List ℕ} {L : List (List ℕ)} {i : ℕ}

lemma mem_clusters (h : Layout v D (l :: L)) (hc : c ∈ l) : c ∈ v.fs.clusters :=
  h.subset (h.shape.mem (.head _) hc)

lemma mem_of_free (h : Layout v D L) (hc : c ∈ v.fs.clusters) (hf : fatEntry v c = freeCluster) :
    c ∈ D := by
  by_contra hnot
  rw [h.bad c hc hnot] at hf
  cases hf

lemma next_of_some (h : Layout v D (l :: L)) (hc : l[i]? = some c) (hd : l[i + 1]? = some d) :
    getNextCluster v c = d ∧ d < endOfChain := by
  have hmem := h.mem_clusters (List.mem_of_getElem? hc)
  have hcell := h.shape.linked l (.head _) i c hc
  rw [hd] at hcell
  obtain ⟨heq, hlt⟩ := toCell_eq_next hcell
  rw [Fs.mem_clusters] at hmem
  rw [getNextCluster, if_neg (by omega)]
  exact ⟨heq, heq ▸ hlt⟩

lemma next_of_none (h : Layout v D (l :: L)) (hc : l[i]? = some c) (hd : l[i + 1]? = none) :
    endOfChain ≤ getNextCluster v c := by
  have hmem := h.mem_clusters (List.mem_of_getElem? hc)
  have hcell := h.shape.linked l (.head _) i c hc
  rw [hd] at hcell
  rw [Fs.mem_clusters] at hmem
  rw [getNextCluster, if_neg (by omega)]
  exact toCell_eq_last.1 hcell

end Layout

namespace Grows

variable {D : Finset ℕ} {l m k : List ℕ} {L : List (List ℕ)} {u : Volume}

lemma refl (h : Layout v D (l :: L)) : Grows v D L l v l where
  layout := h
  fs := rfl
  pre := List.prefix_rfl
  count := rfl
  root _ _ _ := rfl
  data _ _ _ _ := rfl
  padding _ _ _ := rfl

lemma trans (h1 : Grows v D L l w m) (h2 : Grows w D L m u k) : Grows v D L l u k where
  layout := h2.layout
  fs := h2.fs.trans h1.fs
  pre := h1.pre.trans h2.pre
  count := h2.count.trans h1.count
  root a ha hb := by
    rw [h2.root a (by rwa [h1.fs]) (by rwa [h1.fs]), h1.root a ha hb]
  data c hc j hj := by
    have h := h2.data c hc j (by rwa [h1.fs])
    rw [h1.fs] at h
    rw [h, h1.data c hc j hj]
  padding n hn hlt := by
    rw [h2.padding n (by rwa [h1.fs]) (by rwa [h1.fs]), h1.padding n hn hlt]

lemma freePadding_iff (h : Grows v D L l w m) : FreePadding w ↔ FreePadding v := by
  unfold FreePadding
  rw [h.fs]
  refine exists_congr fun n => and_congr_right fun hn => and_congr_right fun hlt => ?_
  rw [isFree_iff, isFree_iff, h.padding n hn hlt]

lemma of_sector (h : Layout v D (l :: L)) (hc : c ∈ l) (hs : s < v.fs.sectorsPerCluster.toNat)
    (sector : Buffer) :
    Grows v D L l { v with disk := writeSector v.disk (sectorLba v.fs c s) sector } l := by
  have hmem := h.mem_clusters hc
  have haddr := clusterAddr_bounds hmem
  have hfat : ∀ n < v.fs.fatEntries,
      fatEntry { v with disk := writeSector v.disk (sectorLba v.fs c s) sector } n = fatEntry v n :=
    fun n hn => fatEntry_writeSector hmem hs sector hn
  have hcell : ∀ a ∈ D, cell { v with disk := writeSector v.disk (sectorLba v.fs c s) sector } a =
    cell v a :=
    fun a ha => congrArg toCell (hfat a (lt_fatEntries (h.subset ha)))
  refine ⟨⟨h.shape.congr hcell, h.subset, fun d hd hn => ?_⟩, rfl, List.prefix_rfl, ?_,
    fun a _ ha => writeSector_of_notMem hmem hs sector (by omega),
    fun d hd j hj => writeSector_of_notMem hmem hs sector ?_, fun n _ hn => hfat n hn⟩
  · rw [hfat d (lt_fatEntries hd), h.bad d hd hn]
  · rw [freeCount, freeCells_congr hcell, freeCount]
  · obtain ⟨k, hk, hdk⟩ := List.mem_flatten.1 hd
    have hdm : d ∈ v.fs.clusters := h.subset (h.shape.mem (.tail _ hk) hdk)
    have hne : d ≠ c := by
      rintro rfl
      exact h.shape.notMem_tail hc hd
    have := clusterAddr_disjoint hdm hmem hne
    omega

end Grows

namespace Extends

variable {D : Finset ℕ} {l m k : List ℕ} {L : List (List ℕ)} {u : Volume}

lemma refl (h : Layout v D (l :: L)) : Extends v D L l v l := ⟨.refl h, fun _ _ => rfl⟩

lemma trans (h1 : Extends v D L l w m) (h2 : Extends w D L m u k) : Extends v D L l u k where
  toGrows := h1.toGrows.trans h2.toGrows
  disk a ha := (h2.disk a (by rwa [h1.fs])).trans (h1.disk a ha)

end Extends

/-! ## The next cluster -/

lemma link_entry (hc : c < v.fs.fatEntries) (hd : d < v.fs.fatEntries) (hd16 : d < 2 ^ 16)
    (hn : n < v.fs.fatEntries) : fatEntry (setClusterValue (setClusterValue v c d) d 0xFFFF) n =
      if n = d then 0xFFFF else if n = c then d else fatEntry v n := by
  rw [setClusterValue_entry (v := setClusterValue v c d) hd (by decide) hn,
    setClusterValue_entry hc hd16 hn]

namespace Extends

variable {D : Finset ℕ} {l m : List ℕ} {L : List (List ℕ)}

lemma of_table (h : Layout v D (l :: L)) {t : ℕ → Cell ℕ} (hfs : w.fs = v.fs)
    (hdisk : ∀ a, v.fs.rootDirStart * 512 ≤ a → w.disk a = v.disk a)
    (hentry : ∀ n < v.fs.fatEntries, n ∉ D → fatEntry w n = fatEntry v n)
    (hcell : ∀ a ∈ D, cell w a = t a) (hshape : Shape t D (m :: L)) (hpre : l <+: m)
    (hcount : m.length + (freeCells t D).card = l.length + freeCount v D) :
    Extends v D L l w m := by
  have hdata : v.fs.rootDirStart ≤ v.fs.dataStart := v.fs.rootDirStart_le
  refine ⟨⟨⟨hshape.congr hcell, hfs ▸ h.subset, fun a ha hn => ?_⟩, hfs, hpre, ?_,
    fun a ha _ => hdisk a ha, fun a ha j _ => hdisk _ ?_,
    fun n hn hlt => hentry n hlt fun hD => ?_⟩, hdisk⟩
  · rw [hfs] at ha
    rw [hentry a (lt_fatEntries ha) hn, h.bad a ha hn]
  · rw [freeCount, freeCells_congr hcell, hcount]
  · obtain ⟨k, hk, hak⟩ := List.mem_flatten.1 ha
    have := clusterAddr_bounds (h.subset (h.shape.mem (.tail _ hk) hak))
    omega
  · have := mem_clusters.1 (h.subset hD)
    omega

lemma start (h : Layout v D ([] :: L)) (hd : d ∈ v.fs.clusters) (hf : fatEntry v d = freeCluster) :
    Extends v D L [] (setClusterValue v d 0xFFFF) [d] := by
  have hdD := h.mem_of_free hd hf
  have hdn := lt_fatEntries hd
  have hfree : cell v d = .free := toCell_eq_free.2 hf
  have hentry : ∀ n < v.fs.fatEntries,
      fatEntry (setClusterValue v d 0xFFFF) n = if n = d then 0xFFFF else fatEntry v n :=
    fun n hn => setClusterValue_entry hdn (by decide) hn
  have hcell : ∀ a ∈ D, cell (setClusterValue v d 0xFFFF) a = update (cell v) d .last a := by
    intro a ha
    rw [cell, hentry a (lt_fatEntries (h.subset ha))]
    rcases eq_or_ne a d with rfl | had
    · rw [if_pos rfl, update_self]
      rfl
    · rw [if_neg had, update_of_ne had]
      rfl
  refine of_table h rfl (setClusterValue_disk hdn 0xFFFF).1 (fun n hn hnD => ?_) hcell
    (h.shape.alloc hdD hfree) List.nil_prefix ?_
  · have hnd : n ≠ d := fun e => hnD (e ▸ hdD)
    rw [hentry n hn, if_neg hnd]
  · have hcount := card_freeCells_alloc hdD hfree
    rw [List.length_singleton, List.length_nil, freeCount]
    omega

lemma link (h : Layout v D (l :: L)) (hc : l.getLast? = some c) (hd : d ∈ v.fs.clusters)
    (hf : fatEntry v d = freeCluster) :
    Extends v D L l (setClusterValue (setClusterValue v c d) d 0xFFFF) (l ++ [d]) := by
  have hcl : c ∈ l := List.mem_of_getLast? hc
  have hcD := h.shape.mem (.head _) hcl
  have hdD := h.mem_of_free hd hf
  have hcn := lt_fatEntries (h.subset hcD)
  have hdn := lt_fatEntries hd
  have hlt := v.fs.totalClusters_lt
  have hfree : cell v d = .free := toCell_eq_free.2 hf
  have hne : c ≠ d := by
    rintro rfl
    exact h.shape.ne_free (.head _) hcl hfree
  have hd16 : d < 2 ^ 16 := by
    rw [mem_clusters] at hd
    omega
  -- the table, first with the new chain of one cluster and then with the link
  have hcell : ∀ a ∈ D, cell (setClusterValue (setClusterValue v c d) d 0xFFFF) a =
      update (update (cell v) d .last) c (.next d) a := by
    intro a ha
    rw [cell, link_entry hcn hdn hd16 (lt_fatEntries (h.subset ha))]
    rcases eq_or_ne a d with rfl | had
    · rw [if_pos rfl, update_of_ne hne.symm, update_self]
      rfl
    · rw [if_neg had]
      rcases eq_or_ne a c with rfl | hac
      · rw [if_pos rfl, update_self, toCell_of_mem hd]
      · rw [if_neg hac, update_of_ne hac, update_of_ne had]
        rfl
  have hshape := (h.shape.cons_nil.alloc hdD hfree).perm (List.Perm.swap ..)
  refine of_table h rfl (fun a ha => ?_) (fun n hn hnD => ?_) hcell (hshape.link hc)
    (List.prefix_append ..) ?_
  · rw [(setClusterValue_disk (v := setClusterValue v c d) hdn 0xFFFF).1 a ha,
      (setClusterValue_disk hcn d).1 a ha]
  · have hnd : n ≠ d := fun e => hnD (e ▸ hdD)
    have hnc : n ≠ c := fun e => hnD (e ▸ hcD)
    rw [link_entry hcn hdn hd16 hn, if_neg hnd, if_neg hnc]
  · have hcount := card_freeCells_alloc hdD hfree
    rw [freeCells_link (hshape.ne_free List.mem_cons_self hcl), List.length_append,
      List.length_singleton, freeCount]
    omega

end Extends

namespace Layout

variable {D : Finset ℕ} {l : List ℕ} {L : List (List ℕ)} {i : ℕ}

lemma findFree (h : Layout v D L) (hpos : 0 < freeCount v D) :
    findFreeCluster v ∈ v.fs.clusters ∧ fatEntry v (findFreeCluster v) = freeCluster := by
  obtain ⟨e, he⟩ := Finset.card_pos.1 hpos
  rw [mem_freeCells] at he
  exact findFreeCluster_mem (h.subset he.1) (toCell_eq_free.1 he.2)

lemma findFree_eq_zero (h : Layout v D L) (hzero : freeCount v D = 0) (hpad : ¬ FreePadding v) :
    findFreeCluster v = 0 := by
  refine findFreeCluster_eq_zero fun n hn hfree => ?_
  rcases Nat.lt_or_ge n (v.fs.totalClusters + 2) with hlt | hge
  · have h16 : w16 n = n := w16_of_lt (by have := v.fs.totalClusters_lt; omega)
    have hmem : n ∈ v.fs.clusters := Fs.mem_clusters.2 ⟨h16 ▸ hfree.2, hlt⟩
    have hpos : 0 < freeCount v D := Finset.card_pos.2
      ⟨n, mem_freeCells.2 ⟨h.mem_of_free hmem hfree.1, toCell_eq_free.2 hfree.1⟩⟩
    omega
  · exact hpad ⟨n, hge, hn, hfree⟩

/-- **The next cluster of a chain**, or a free one at its end, if there is one. -/
lemma advance (h : Layout v D (l :: L)) (hc : l[i]? = some c)
    (hroom : i + 1 < l.length + freeCount v D) :
    ∃ d w m, Fat16.advance v c = (some d, w) ∧ m[i + 1]? = some d ∧ Extends v D L l w m := by
  unfold Fat16.advance
  rcases hd : l[i + 1]? with _ | d
  · have hlen : l.length = i + 1 := by
      have h1 := (List.getElem?_eq_some_iff.1 hc).1
      have h2 := List.getElem?_eq_none_iff.1 hd
      omega
    have hlast : l.getLast? = some c := by
      rw [List.getLast?_eq_getElem?, hlen, Nat.add_sub_cancel, hc]
    obtain ⟨hmem, hfree⟩ := h.findFree (by omega)
    have hne : findFreeCluster v ≠ 0 := by
      rw [Fs.mem_clusters] at hmem
      omega
    rw [if_pos (h.next_of_none hc hd), if_neg hne]
    refine ⟨_, _, _, rfl, ?_, Extends.link h hlast hmem hfree⟩
    rw [← hlen, List.getElem?_concat_length]
  · obtain ⟨hnext, hlt⟩ := h.next_of_some hc hd
    rw [hnext, if_neg (Nat.not_le.2 hlt)]
    exact ⟨d, v, l, rfl, hd, Extends.refl h⟩

lemma advance_eq_none (h : Layout v D (l :: L)) (hc : l[i]? = some c)
    (hroom : l.length + freeCount v D ≤ i + 1) (hpad : ¬ FreePadding v) :
    Fat16.advance v c = (none, v) := by
  have hlen := (List.getElem?_eq_some_iff.1 hc).1
  have hd : l[i + 1]? = none := List.getElem?_eq_none (by omega)
  unfold Fat16.advance
  rw [if_pos (h.next_of_none hc hd), h.findFree_eq_zero (by omega) hpad, if_pos rfl]

end Layout

end FrostByte.Fat16
