import FrostByte.Fat16.Table
import Mathlib.Data.List.TakeWhile

/-!
# Directory entries of a FAT16 volume

A slot is the place of an entry: a sector and the number of the entry in it. The functions of
`fat16.c` go through the slots until they meet one that was never used.

## Main definitions

* `Slot`, `entryAt`, `putEntry` — the place of an entry, and the entry read and written there.
* `rootSlots`, `clusterSlots` — the slots of the root directory and of a cluster.
* `findSlot` — the search that all functions of `fat16.c` make.
* `updateDirEntryOnDisk`, `updateDirEntryInDir` — storing the size and the first cluster.

## Main results

* `entryAt_putEntry` — storing an entry changes no other slot.
* `findSlot_congr_name` — a search depends on the names alone.
-/

namespace FrostByte.Fat16

open Word Chains Buffer

/-! ## Slots -/

/-- A sector and the number of an entry in it. -/
structure Slot where
  lba : ℕ
  index : ℕ
  deriving DecidableEq

/-- The 32 bytes from `a` on. -/
def decodeEntry (b : Buffer) (a : ℕ) : DirEntry where
  name := (List.range 11).map fun i => (b (a + i)).toNat
  attributes := (b (a + 11)).toNat
  firstCluster := b.half (a + 26)
  fileSize := b.word (a + 28)

/-- The first byte: 0 was never used, 0xE5 is deleted. -/
def DirEntry.first (e : DirEntry) : ℕ := e.name.headD 0

/-- The entry in a slot. -/
def entryAt (disk : Buffer) (s : Slot) : DirEntry :=
  decodeEntry (readSector disk s.lba) (s.index * 32)

/-- Store the size and the first cluster of an entry in a slot. -/
def putEntry (disk : Buffer) (s : Slot) (e : DirEntry) : Buffer :=
  writeSector disk s.lba
    (((readSector disk s.lba).setWord (s.index * 32 + 28) e.fileSize).setHalf (s.index * 32 + 26)
      e.firstCluster)

/-- The slots of the root directory, in the order of the search. -/
def rootSlots (fs : Fs) : List Slot :=
  (List.range fs.rootDirSectors).flatMap fun s =>
    (List.range 16).map fun i => ⟨w32 (fs.rootDirStart + s), i⟩

/-- The slots of a cluster of a directory. -/
def clusterSlots (fs : Fs) (cluster : ℕ) : List Slot :=
  (List.range fs.sectorsPerCluster.toNat).flatMap fun s =>
    (List.range 16).map fun i => ⟨sectorLba fs cluster s, i⟩

/-- The clusters that a loop along a chain goes through. On a cycle the loop does not end; here it
is cut. -/
def dirClusters (v : Volume) : ℕ → ℕ → List ℕ
  | fuel, cluster =>
    if 2 ≤ cluster ∧ cluster < endOfChain then
      match fuel with
      | 0 => []
      | fuel + 1 =>
        let next := getNextCluster v cluster
        cluster :: if endOfChain ≤ next then [] else dirClusters v fuel next
    else []

/-- The loop over slots up to an unused one: the first one with an entry as `p`. -/
def findSlot (disk : Buffer) (p : DirEntry → Bool) (slots : List Slot) : Option Slot :=
  (slots.takeWhile fun s => (entryAt disk s).first ≠ 0).find? fun s =>
    (entryAt disk s).first ≠ 0xE5 && p (entryAt disk s)

/-- The entry is not a volume label and has the name. -/
def namedAs (name : List ℕ) (e : DirEntry) : Bool := !e.attributes.testBit 3 && e.name = name

/-- `fat16_update_dir_entry_on_disk`; its result is not used. -/
def updateDirEntryOnDisk (v : Volume) (e : DirEntry) : Volume :=
  (findSlot v.disk (namedAs e.name) (rootSlots v.fs)).elim v fun s =>
    { v with disk := putEntry v.disk s e }

/-- The loop of `fat16_update_dir_entry_in_dir`. An unused slot ends the search in its cluster
only. -/
def updateInChain (e : DirEntry) : ℕ → Volume → ℕ → Option Volume
  | fuel, v, cluster =>
    if 2 ≤ cluster ∧ cluster < endOfChain then
      match fuel with
      | 0 => none
      | fuel + 1 =>
        let next := getNextCluster v cluster
        (findSlot v.disk (namedAs e.name) (clusterSlots v.fs cluster)).elim
          (if endOfChain ≤ next then some v else updateInChain e fuel v next)
          fun s => some { v with disk := putEntry v.disk s e }
    else some v

/-- `fat16_update_dir_entry_in_dir`; its result is not used. -/
def updateDirEntryInDir (v : Volume) (dirFirstCluster : ℕ) (e : DirEntry) : Option Volume :=
  if dirFirstCluster = 0 then some (updateDirEntryOnDisk v e)
  else updateInChain e v.fs.totalClusters v dirFirstCluster

/-! ## Bytes of a slot -/

/-- The byte of the device where a slot starts. -/
def Slot.addr (s : Slot) : ℕ := s.lba * 512 + s.index * 32

/-- The slot is in a sector that has an address, and in the sector. -/
structure Slot.Valid (s : Slot) : Prop where
  lba : s.lba < 2 ^ 23
  index : s.index < 16

section

variable {disk disk' : Buffer} {s t : Slot} {e : DirEntry} {fs : Fs} {c : ℕ}

lemma decodeEntry_congr {b b' : Buffer} {a a' : ℕ} (h : ∀ k < 32, b' (a' + k) = b (a + k)) :
    decodeEntry b' a' = decodeEntry b a := by
  unfold decodeEntry
  have hname : (List.range 11).map (fun i => (b' (a' + i)).toNat) =
      (List.range 11).map fun i => (b (a + i)).toNat :=
    List.map_congr_left fun i hi => by rw [h i (by have := List.mem_range.1 hi; omega)]
  have hhalf : b'.half (a' + 26) = b.half (a + 26) := by
    unfold half
    rw [h 26 (by decide), h 27 (by decide)]
  have hword : b'.word (a' + 28) = b.word (a + 28) := by
    unfold word
    rw [h 28 (by decide), h 29 (by decide), h 30 (by decide), h 31 (by decide)]
  rw [hname, hhalf, hword, h 11 (by decide)]

section

variable (hs : s.Valid)

include hs

lemma entryAt_eq (disk : Buffer) : entryAt disk s = decodeEntry disk s.addr := by
  refine decodeEntry_congr fun k hk => ?_
  have hi := hs.index
  rw [readSector_apply hs.lba (by omega), ← Nat.add_assoc, Slot.addr]

lemma entryAt_congr (h : ∀ k < 32, disk' (s.addr + k) = disk (s.addr + k)) :
    entryAt disk' s = entryAt disk s := by
  rw [entryAt_eq hs, entryAt_eq hs]
  exact decodeEntry_congr h

/-- **Storing an entry** changes six bytes of its slot. -/
lemma putEntry_eq (disk : Buffer) (e : DirEntry) : putEntry disk s e =
      (disk.setWord (s.addr + 28) e.fileSize).setHalf (s.addr + 26) e.firstCluster := by
  have hi := hs.index
  have hl := hs.lba
  funext a
  rw [putEntry, writeSector, w32_of_lt (by omega)]
  by_cases ha : s.lba * 512 ≤ a ∧ a < s.lba * 512 + 512
  · rw [copy_of_mem _ _ ha.1 ha.2, Nat.zero_add]
    unfold setHalf setWord Slot.addr
    rw [readSector_apply hl (by omega), show s.lba * 512 + (a - s.lba * 512) = a by omega]
    refine if_congr (by omega) ?_ (if_congr (by omega) ?_ rfl)
    · rw [Nat.sub_sub, Nat.add_assoc]
    · rw [Nat.sub_sub, Nat.add_assoc]
  · rw [copy_of_notMem _ _ ha]
    unfold setHalf setWord Slot.addr
    rw [if_neg fun h => ha ⟨by omega, by omega⟩, if_neg fun h => ha ⟨by omega, by omega⟩]

lemma putEntry_of_notMem (disk : Buffer) (e : DirEntry) {a : ℕ}
    (ha : ¬(s.addr ≤ a ∧ a < s.addr + 32)) : putEntry disk s e a = disk a := by
  rw [putEntry_eq hs]
  unfold setHalf setWord
  rw [if_neg (by omega), if_neg (by omega)]

lemma half_putEntry (disk : Buffer) (he : e.firstCluster < 2 ^ 16) :
    (putEntry disk s e).half (s.addr + 26) = e.firstCluster := by
  rw [putEntry_eq hs, half_setHalf _ he]

lemma firstCluster_entryAt (disk : Buffer) :
    (entryAt disk s).firstCluster = disk.half (s.addr + 26) := by
  rw [entryAt_eq hs]
  rfl

lemma word_putEntry (disk : Buffer) (he : e.fileSize < 2 ^ 32) :
    (putEntry disk s e).word (s.addr + 28) = e.fileSize := by
  rw [putEntry_eq hs]
  refine Eq.trans (word_congr fun k hk => if_neg ?_) (word_setWord _ he)
  omega

lemma fileSize_entryAt (disk : Buffer) : (entryAt disk s).fileSize = disk.word (s.addr + 28) := by
  rw [entryAt_eq hs]
  rfl

lemma putEntry_eq_self (hc : (entryAt disk s).firstCluster = e.firstCluster)
    (hz : (entryAt disk s).fileSize = e.fileSize) : putEntry disk s e = disk := by
  rw [putEntry_eq hs, ← hc, ← hz, firstCluster_entryAt hs, fileSize_entryAt hs, setWord_word,
    setHalf_half]

end

lemma findSlot_mem {p : DirEntry → Bool} {slots : List Slot} (h : findSlot disk p slots = some s) :
    s ∈ slots ∧ (entryAt disk s).first ≠ 0 ∧ (entryAt disk s).first ≠ 0xE5 ∧
    p (entryAt disk s) = true := by
  have hmem := List.mem_of_find?_eq_some h
  have hp := List.find?_some h
  have hz := List.mem_takeWhile_imp hmem
  simp only [Bool.and_eq_true, decide_eq_true_eq] at hp hz
  exact ⟨List.takeWhile_subset _ hmem, hz, hp.1, hp.2⟩

/-- The loop sees of an entry only its first byte and what `p` tests. -/
lemma findSlot_congr_of {p : DirEntry → Bool} {slots : List Slot}
    (h : ∀ s ∈ slots, (entryAt disk' s).first = (entryAt disk s).first ∧
      p (entryAt disk' s) = p (entryAt disk s)) : findSlot disk' p slots =
      findSlot disk p slots := by
  unfold findSlot
  have htake : slots.takeWhile (fun s => (entryAt disk' s).first ≠ 0) =
      slots.takeWhile fun s => (entryAt disk s).first ≠ 0 := by
    induction slots with
    | nil => rfl
    | cons s slots ih =>
      have hs := (h s (.head _)).1
      simp only [List.takeWhile_cons, hs, ih fun t ht => h t (.tail _ ht)]
  have hfind : ∀ slots' : List Slot,
    (∀ s ∈ slots', (entryAt disk' s).first = (entryAt disk s).first ∧
      p (entryAt disk' s) = p (entryAt disk s)) →
      slots'.find? (fun s => (entryAt disk' s).first ≠ 0xE5 && p (entryAt disk' s)) =
        slots'.find? fun s => (entryAt disk s).first ≠ 0xE5 && p (entryAt disk s) := by
    intro slots' h
    induction slots' with
    | nil => rfl
    | cons s slots ih =>
      obtain ⟨hfirst, hp⟩ := h s (.head _)
      simp only [List.find?_cons, hfirst, hp, ih fun t ht => h t (.tail _ ht)]
  rw [htake]
  exact hfind _ fun s hs => h s (List.takeWhile_subset _ hs)

lemma findSlot_congr {p : DirEntry → Bool} {slots : List Slot}
    (h : ∀ s ∈ slots, entryAt disk' s = entryAt disk s) :
    findSlot disk' p slots = findSlot disk p slots :=
  findSlot_congr_of fun s hs => by rw [h s hs]; exact ⟨rfl, rfl⟩

/-- Slots begin at multiples of 32, so storing the last six bytes of one keeps the names of all. -/
lemma putEntry_name (hs : s.Valid) (ht : t.Valid) (disk : Buffer) (e : DirEntry) :
    (entryAt (putEntry disk s e) t).name = (entryAt disk t).name ∧
      (entryAt (putEntry disk s e) t).attributes = (entryAt disk t).attributes := by
  have hbyte : ∀ k < 12, putEntry disk s e (t.addr + k) = disk (t.addr + k) := by
    intro k hk
    rw [putEntry_eq hs]
    unfold setHalf setWord Slot.addr
    rw [if_neg (by omega), if_neg (by omega)]
  rw [entryAt_eq ht, entryAt_eq ht, decodeEntry, decodeEntry, hbyte 11 (by decide)]
  dsimp only
  refine ⟨List.map_congr_left fun i hi => ?_, rfl⟩
  rw [hbyte i (by have := List.mem_range.1 hi; omega)]

/-- An entry that was stored is read: the two fields that `putEntry` writes fit, and the other bytes
are as before. -/
lemma entryAt_putEntry (hs : s.Valid) (disk : Buffer) (hname : e.name = (entryAt disk s).name)
    (hattr : e.attributes = (entryAt disk s).attributes) (hcluster : e.firstCluster < 2 ^ 16)
    (hsize : e.fileSize < 2 ^ 32) : entryAt (putEntry disk s e) s = e := by
  obtain ⟨h1, h2⟩ := putEntry_name hs hs disk e
  refine DirEntry.ext (h1.trans hname.symm) (h2.trans hattr.symm) ?_ ?_
  · rw [firstCluster_entryAt hs, half_putEntry hs _ hcluster]
  · rw [fileSize_entryAt hs, word_putEntry hs _ hsize]

/-- Which slot has a name does not depend on the clusters and sizes that the entries record. -/
lemma findSlot_congr_name {slots : List Slot} {name : List ℕ}
    (h : ∀ s ∈ slots, (entryAt disk' s).name = (entryAt disk s).name ∧
      (entryAt disk' s).attributes = (entryAt disk s).attributes) :
    findSlot disk' (namedAs name) slots = findSlot disk (namedAs name) slots := by
  refine findSlot_congr_of fun s hs => ?_
  unfold DirEntry.first namedAs
  rw [(h s hs).1, (h s hs).2]
  exact ⟨rfl, rfl⟩

lemma root_lt (fs : Fs) : fs.rootDirStart + fs.rootDirSectors < 2 ^ 23 :=
  fs.dataStart_le.trans_lt fs.totalSectors_lt

lemma mem_rootSlots : s ∈ rootSlots fs ↔
    ∃ k < fs.rootDirSectors, s.lba = fs.rootDirStart + k ∧ s.index < 16 := by
  have hroot := root_lt fs
  simp only [rootSlots, List.mem_flatMap, List.mem_map, List.mem_range]
  constructor
  · rintro ⟨k, hk, i, hi, rfl⟩
    exact ⟨k, hk, w32_of_lt (by omega), hi⟩
  · rintro ⟨k, hk, hlba, hi⟩
    refine ⟨k, hk, s.index, hi, ?_⟩
    rw [w32_of_lt (by omega), ← hlba]

lemma mem_clusterSlots (hc : c ∈ fs.clusters) (hs : s ∈ clusterSlots fs c) :
    s.Valid ∧ fs.clusterAddr c ≤ s.addr ∧ s.addr + 32 ≤ fs.clusterAddr c + fs.clusterSize := by
  simp only [clusterSlots, List.mem_flatMap, List.mem_map, List.mem_range] at hs
  obtain ⟨k, hk, i, hi, rfl⟩ := hs
  have haddr := Fs.sectorLba_eq hc hk
  have hlba : sectorLba fs c k < 2 ^ 23 := (Fs.sectorLba_eq_add hc hk).2
  rw [w32_of_lt (by omega)] at haddr
  unfold Slot.addr BootSector.clusterSize at *
  exact ⟨⟨hlba, hi⟩, by dsimp only; omega, by dsimp only; omega⟩

lemma rootSlots_addr (hs : s ∈ rootSlots fs) :
    s.Valid ∧ fs.rootDirStart * 512 ≤ s.addr ∧ s.addr + 32 ≤ fs.dataStart * 512 := by
  have hroot := root_lt fs
  have hdata : fs.dataStart = fs.rootDirStart + fs.rootDirSectors := rfl
  obtain ⟨k, hk, hlba, hi⟩ := mem_rootSlots.1 hs
  unfold Slot.addr
  exact ⟨⟨by omega, hi⟩, by omega, by omega⟩

end

/-! ## A volume for examples -/

/-- A volume of 4085 clusters, the fewest that FAT16 has. -/
def smallFs : Fs where
  sectorsPerCluster := 1
  reservedSectors := 1
  numFats := 2
  rootEntries := 16
  totalSectors16 := 4119
  sectorsPerFat := 16
  totalSectors32 := 0
  rootEntries_pos := by decide
  sectorsPerFat_pos := by decide
  le_totalClusters := by decide
  totalClusters_lt := by decide
  cluster_size := Nat.one_pos
  numFats_pos := Nat.two_pos
  dataStart_le := by decide
  size_lt := by decide
  entries_le := by decide

/-- The 32 bytes of an entry. -/
def entryBytes (name : List ℕ) (attributes cluster size : ℕ) : List ℕ :=
  name ++ [attributes] ++ List.replicate 14 0 ++ [cluster, 0, size, 0, 0, 0]

/-- A volume where each cluster is a chain, and the bytes from the root directory on. -/
def fullVolume (bytes : List ℕ) : Volume where
  fs := smallFs
  disk i := if i < 16896 then 0xFF else UInt8.ofNat (bytes.getD (i - 16896) 0)

lemma fatEntry_fullVolume (bytes : List ℕ) {n : ℕ} (hn : n < 4096) :
    fatEntry (fullVolume bytes) n = 0xFFFF := by
  have hstart : smallFs.fatStart = 1 := by decide
  have haddr : entryAddr (fullVolume bytes) n = 512 + n * 2 := by
    show smallFs.fatStart * 512 + n * 2 = _
    rw [hstart]
  have hbyte : ∀ k < 16896, (fullVolume bytes).disk k = 0xFF := by
    intro k hk
    unfold fullVolume
    dsimp only
    rw [if_pos hk]
  have hentries : smallFs.fatEntries = 4096 := by decide
  rw [fatEntry_eq (hentries ▸ hn), half, hbyte _ (by omega), hbyte _ (by omega)]
  decide

lemma fullVolume_layout (bytes : List ℕ) :
    Layout (fullVolume bytes) smallFs.clusters ((List.range' 2 4085).map fun c => [c]) := by
  have htotal : smallFs.totalClusters = 4085 := by decide
  have hcell : ∀ c ∈ smallFs.clusters, cell (fullVolume bytes) c = .last := by
    intro c hc
    rw [Fs.mem_clusters] at hc
    rw [cell, fatEntry_fullVolume bytes (by omega)]
    decide
  have hflat : ((List.range' 2 4085).map fun c => [c]).flatten = List.range' 2 4085 :=
    (List.flatMap_def ..).symm.trans (List.flatMap_singleton' _)
  have hmem : ∀ c, c ∈ List.range' 2 4085 ↔ c ∈ smallFs.clusters := by
    intro c
    simp [Fs.mem_clusters, htotal]
  refine ⟨⟨fun l hl => ?_, ?_, fun c => ?_⟩, Finset.Subset.refl _, fun c hc hn => absurd hc hn⟩
  · obtain ⟨c, hc, rfl⟩ := List.mem_map.1 hl
    intro i a ha
    obtain ⟨rfl, rfl⟩ : i = 0 ∧ c = a := by simpa [List.getElem?_cons] using ha
    exact hcell c ((hmem c).1 hc)
  · rw [hflat]
    exact List.nodup_range'
  · rw [hflat]
    refine ⟨fun hc => ⟨hc, ?_⟩, And.left⟩
    rw [hcell c hc]
    intro hfree
    cases hfree

lemma freeCount_fullVolume (bytes : List ℕ) :
    freeCount (fullVolume bytes) smallFs.clusters = 0 := by
  refine Finset.card_eq_zero.2 (Finset.filter_eq_empty_iff.2 fun c hc => ?_)
  have htotal : smallFs.totalClusters = 4085 := by decide
  rw [Fs.mem_clusters] at hc
  rw [cell, fatEntry_fullVolume bytes (by omega)]
  decide

lemma not_freePadding_fullVolume (bytes : List ℕ) : ¬ FreePadding (fullVolume bytes) := by
  rintro ⟨n, -, hn, hfree⟩
  have hentries : smallFs.fatEntries = 4096 := by decide
  rw [isFree_iff, fatEntry_fullVolume bytes (hentries ▸ hn)] at hfree
  cases hfree.1

end FrostByte.Fat16
