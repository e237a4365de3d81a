import FrostByte.Fat16.RemoveDir

/-!
# FAT16 volumes with any content

`fat16_init` looks at the boot sector only. The table may be longer or shorter than the clusters
need, and its links may form a cycle or leave the volume.

## Main definitions

* `BootSector.FindsFree` — the search finds a free cluster if and only if there is one.
* `Ends` — the links from a cluster on lead to an end inside the volume.
* `Terminates` — the loops over the chain of a directory return.

## Main results

* `BootSector.findsFree_iff` — when the search is right.
* `terminates_iff` — when the loops end.
* `findFreeCluster_full`, `not_terminates_corrupt` — volumes on which they do not.
-/

namespace FrostByte.Fat16

open Word
open Fat32 (toUpper)

/-! ## The search for a free cluster -/

namespace BootSector

variable (b : BootSector) (disk : Buffer)

/-- The result is 0 when no cluster is free, otherwise a free cluster. -/
structure FindsFree : Prop where
  eq_zero_iff : b.findFreeCluster disk = 0 ↔
    ∀ n, 2 ≤ n → n < b.totalClusters + 2 → b.fatEntry disk n ≠ freeCluster
  mem : b.findFreeCluster disk ≠ 0 →
    2 ≤ b.findFreeCluster disk ∧ b.findFreeCluster disk < b.totalClusters + 2 ∧
      b.fatEntry disk (b.findFreeCluster disk) = freeCluster

/-- If an entry is free, then so is one that belongs to a cluster. -/
def Searchable : Prop :=
  (∃ n < max (b.sectorsPerFat.toNat * 256) (b.totalClusters + 2), b.IsFree disk n) →
    ∃ n < min (b.sectorsPerFat.toNat * 256) (b.totalClusters + 2), b.IsFree disk n

variable {b disk}

lemma isFree_of_cluster (htotal : b.totalClusters < 65525) {n : ℕ} (h2 : 2 ≤ n)
    (hn : n < b.totalClusters + 2) (hfree : b.fatEntry disk n = freeCluster) : b.IsFree disk n :=
  ⟨hfree, by rwa [w16_of_lt (by omega)]⟩

lemma totalClusters_lt_of_init {disk₀ : Buffer} (h : init disk₀ = some b) :
    b.totalClusters < 65525 := by
  unfold init at h
  dsimp only at h
  split_ifs at h with h1 h2 h3
  cases h
  omega

/-- **The search finds free clusters** exactly if some free entry belongs to a cluster. -/
theorem findsFree_iff {disk₀ : Buffer} (h : init disk₀ = some b) (disk : Buffer) :
    b.FindsFree disk ↔ b.Searchable disk := by
  have htotal := totalClusters_lt_of_init h
  rcases b.findFreeCluster_cases disk with ⟨hzero, hnone⟩ | ⟨n, hn, hfree, heq, hfirst⟩
  · constructor
    · rintro hfinds ⟨n, hn, hfree⟩
      have hlt : n < b.totalClusters + 2 := by
        by_contra hge
        exact hnone n (by omega) hfree
      have h2 := hfree.2
      rw [w16_of_lt (by omega)] at h2
      exact absurd hfree.1 (hfinds.eq_zero_iff.1 hzero n h2 hlt)
    · refine fun hsearch =>
        ⟨⟨fun _ n h2 hn hfree => ?_, fun _ => hzero⟩, fun hne => absurd hzero hne⟩
      obtain ⟨m, hm, hm'⟩ := hsearch ⟨n, by omega, isFree_of_cluster htotal h2 hn hfree⟩
      exact hnone m (by omega) hm'
  · have h2 := hfree.2
    have hle : w16 n ≤ n := Nat.mod_le _ _
    constructor
    · intro hfinds _
      obtain ⟨hr2, hrlt, hr⟩ := hfinds.mem (by omega)
      exact ⟨_, by omega, isFree_of_cluster htotal hr2 hrlt hr⟩
    · intro hsearch
      obtain ⟨m, hm, hmfree⟩ := hsearch ⟨n, by omega, hfree⟩
      have hnm : n ≤ m := Nat.le_of_not_lt fun hlt => hfirst m hlt hmfree
      rw [w16_of_lt (by omega)] at heq h2
      refine ⟨⟨fun hzero => ?_, fun hall => ?_⟩, fun _ => ?_⟩
      · omega
      · exact absurd hfree.1 (hall n h2 (by omega))
      · rw [heq]
        exact ⟨h2, by omega, hfree.1⟩

end BootSector

/-- The first sector of `smallFs`, and zeros except for some bytes. -/
def bootDisk (bytes : List (ℕ × UInt8)) : Buffer := fun i =>
  (([(12, 2), (13, 1), (14, 1), (16, 2), (17, 16), (19, 0x17), (20, 0x10), (22, 16), (510, 0x55),
    (511, 0xAA)] ++ bytes).lookup i).getD 0

lemma init_bootDisk : init (bootDisk []) = some smallFs.toBootSector := by decide +kernel

/-- On an empty volume the search finds cluster 2. -/
theorem findsFree_empty : init (bootDisk []) = some smallFs.toBootSector ∧
    smallFs.FindsFree (bootDisk []) := by
  refine ⟨init_bootDisk, (BootSector.findsFree_iff init_bootDisk _).2 fun _ =>
    ⟨2, by decide, ?_, ?_⟩⟩
  · decide +kernel
  · decide

/-- All clusters are in use, and the table has zeros behind them. -/
def fullDisk : Buffer := fun i => if 512 ≤ i ∧ i < 8686 then 0xFF else bootDisk [] i

lemma fatEntry_fullDisk {n : ℕ} (hn : n < 4087) : smallFs.fatEntry fullDisk n ≠ freeCluster := by
  have hbyte : ∀ k, 512 ≤ k → k < 8686 → fullDisk k = 0xFF := fun k h1 h2 => if_pos ⟨h1, h2⟩
  have hstart : smallFs.fatStart = 1 := by decide
  rw [BootSector.fatEntry_eq (by omega), hstart, Buffer.half, hbyte _ (by omega) (by omega),
    hbyte _ (by omega) (by omega)]
  decide

/-- On a full volume the search finds an entry behind the last cluster. -/
theorem findFreeCluster_full :
    init fullDisk = some smallFs.toBootSector ∧ smallFs.totalClusters = 4085 ∧
      (∀ n < 4087, smallFs.fatEntry fullDisk n ≠ freeCluster) ∧
      4087 ≤ smallFs.findFreeCluster fullDisk := by
  refine ⟨by decide +kernel, by decide, fun n hn => fatEntry_fullDisk hn, ?_⟩
  have hsize : smallFs.sectorsPerFat.toNat * 256 = 4096 := by decide
  rcases smallFs.findFreeCluster_cases fullDisk with ⟨-, hnone⟩ | ⟨n, hn, hfree, heq, -⟩
  · exact absurd ⟨by decide +kernel, by decide⟩ (hnone 4087 (by omega))
  · rw [hsize] at hn
    rw [heq, w16_of_lt (hn.trans (by decide))]
    exact Nat.le_of_not_lt fun hlt => fatEntry_fullDisk hlt hfree.1

/-! ## Loops over a chain -/

/-- The slots of a cluster up to an unused one (`some none`) or the first one as `p`. -/
def scanCluster (disk : Buffer) (p : DirEntry → Bool) (slots : List Slot) : Option (Option Slot) :=
  (slots.find? fun s =>
    (entryAt disk s).first = 0 || (entryAt disk s).first ≠ 0xE5 && p (entryAt disk s)).map
      fun s => if (entryAt disk s).first = 0 then none else some s

/-- The loop over the clusters; `none` when `fuel` is not enough. -/
def searchChain (v : Volume) (p : DirEntry → Bool) : ℕ → ℕ → Option (Option Slot)
  | fuel, cluster =>
    if 2 ≤ cluster ∧ cluster < endOfChain then
      match fuel with
      | 0 => none
      | fuel + 1 =>
        let next := getNextCluster v cluster
        (scanCluster v.disk p (clusterSlots v.fs cluster)).elim
          (if endOfChain ≤ next then some none else searchChain v p fuel next) some
    else some none

/-- `fat16v_dir_find` in a subdirectory, here in one pass. -/
def findInDir (fuel : ℕ) (v : Volume) (firstCluster : ℕ) (name : List ℕ) : Option (Option Slot) :=
  searchChain v (fun e => !e.attributes.testBit 3 &&
    (makeName e).map toUpper = (name.take 12).map toUpper) fuel firstCluster

/-- What `fat16_delete_file_in_dir` does with the entry. -/
def deleteFound (fuel : ℕ) (v : Volume) (s : Slot) : Option (Bool × Volume) :=
  let e := entryAt v.disk s
  if e.attributes.testBit 4 then some (false, v)
  else
    let v := { v with disk := patchSlot v.disk s deletedBytes }
    if 2 ≤ e.firstCluster then (freeChain fuel v e.firstCluster).map fun v => (true, v)
    else some (true, v)

/-- `fat16_delete_file_in_dir`: whether it succeeds, and the volume. -/
def deleteFileInDir (fuel : ℕ) (v : Volume) (dirFirstCluster : ℕ) (name : List ℕ) :
    Option (Bool × Volume) :=
  if dirFirstCluster = 0 then deleteFileRoot fuel v name
  else
    (searchChain v (namedAs (to83Name name)) fuel dirFirstCluster).bind fun found =>
      found.elim (some (false, v)) (deleteFound fuel v)

/-- The number is that of a cluster, or it ends a chain. -/
def Inside (v : Volume) (c : ℕ) : Prop := Stops c ∨ c ∈ v.fs.clusters

/-- The links lead from the number to one that ends a chain. -/
def Ends (v : Volume) (c : ℕ) : Prop := ∃ k, Stops ((getNextCluster v)^[k] c)

/-- The loops of the four functions end when they are given the first cluster `c`, which may be any
number that an entry of a directory holds. -/
structure Terminates (v : Volume) (c : ℕ) : Prop where
  free : ∃ fuel w, freeChain fuel v c = some w
  search : ∀ name, ∃ fuel s, findInDir fuel v c name = some s
  update : ∀ e, ∃ fuel w, updateInChain e fuel v c = some w
  /-- With first cluster 0 a deletion works on the root directory. -/
  delete : c ≠ 0 → ∀ name, ∃ fuel r, deleteFileInDir fuel v c name = some r

/-- The chain that begins with `c` ends, and those of the files that a deletion finds in it as a
directory do not leave the volume. -/
structure Sound (v : Volume) (c : ℕ) : Prop where
  ends : Ends v c
  files : ∀ name fuel s, searchChain v (namedAs (to83Name name)) fuel c = some (some s) →
    (entryAt v.disk s).attributes.testBit 4 = false → StaysInside v (entryAt v.disk s).firstCluster

section

variable {v w : Volume} {c d fuel : ℕ} {p : DirEntry → Bool} {s : Slot}

lemma not_stops (hc : c ∈ v.fs.clusters) : 2 ≤ c ∧ c < endOfChain := by
  have htotal := v.fs.totalClusters_lt
  rw [Fs.mem_clusters] at hc
  unfold endOfChain
  omega

lemma Ends.inside (h : Ends v c) : Inside v c := by
  have htotal := v.fs.totalClusters_lt
  obtain ⟨k, hk⟩ := h
  by_contra hout
  have hbad : ∀ k, v.fs.totalClusters + 2 ≤ (getNextCluster v)^[k] c ∧
      (getNextCluster v)^[k] c < endOfChain := by
    intro k
    induction k with
    | zero =>
      simp only [Inside, Stops, Fs.mem_clusters, Function.iterate_zero_apply] at hout ⊢
      omega
    | succ k ih =>
      rw [Function.iterate_succ_apply', getNextCluster, if_pos ih.1]
      unfold badCluster endOfChain
      omega
  have := hbad k
  unfold Stops at hk
  omega

lemma Ends.next (h : Ends v c) (hc : c ∈ v.fs.clusters) : Ends v (getNextCluster v c) := by
  have hin := not_stops hc
  obtain ⟨k, hk⟩ := h
  cases k with
  | zero =>
    simp only [Stops, Function.iterate_zero_apply] at hk
    omega
  | succ k =>
    rw [Function.iterate_succ_apply] at hk
    exact ⟨k, hk⟩

/-- A chain that ends does not leave the volume: the clusters whose chains end are closed under the
links. -/
lemma Ends.staysInside (h : Ends v c) : StaysInside v c := by
  classical
  have hclosed : ∀ d, Ends v d → Stops d ∨ d ∈ v.fs.clusters.filter (Ends v) :=
    fun d hd => hd.inside.imp_right fun hmem => Finset.mem_filter.mpr ⟨hmem, hd⟩
  refine ⟨v.fs.clusters.filter (Ends v), Finset.filter_subset _ _, hclosed c h, fun d hd => ?_⟩
  obtain ⟨hmem, hd⟩ := Finset.mem_filter.mp hd
  have hnext := hclosed _ (hd.next hmem)
  rwa [getNextCluster, if_neg (by rw [Fs.mem_clusters] at hmem; omega)] at hnext

lemma searchChain_stops (h : Stops c) (fuel : ℕ) : searchChain v p fuel c = some none := by
  unfold searchChain
  rw [if_neg (by unfold Stops at h; omega)]

lemma searchChain_succ (h : 2 ≤ c ∧ c < endOfChain) (fuel : ℕ) : searchChain v p (fuel + 1) c =
    (scanCluster v.disk p (clusterSlots v.fs c)).elim
    (searchChain v p fuel (getNextCluster v c)) some := by
  rw [searchChain, if_pos h]
  dsimp only
  split_ifs with hend
  · rw [searchChain_stops (.inr hend)]
  · rfl

lemma searchChain_of_ends (p : DirEntry → Bool) (k : ℕ) (h : Stops ((getNextCluster v)^[k] c)) :
    ∃ r, searchChain v p k c = some r := by
  by_cases hc : Stops c
  · exact ⟨none, searchChain_stops hc k⟩
  induction k generalizing c with
  | zero => exact absurd h hc
  | succ k ih =>
    rw [Function.iterate_succ_apply] at h
    rw [searchChain_succ (by unfold Stops at hc; omega)]
    cases scanCluster v.disk p (clusterSlots v.fs c) with
    | some r => exact ⟨r, rfl⟩
    | none =>
      by_cases hn : Stops (getNextCluster v c)
      · exact ⟨none, searchChain_stops hn k⟩
      · exact ih h hn

lemma searchChain_mono {k : ℕ} {r : Option Slot} (h : searchChain v p fuel c = some r)
    (hle : fuel ≤ k) : searchChain v p k c = some r := by
  by_cases hc : Stops c
  · rw [searchChain_stops hc] at h ⊢
    exact h
  have hin : 2 ≤ c ∧ c < endOfChain := by
    unfold Stops at hc
    omega
  induction fuel generalizing c k with
  | zero =>
    rw [searchChain, if_pos hin] at h
    cases h
  | succ fuel ih =>
    obtain ⟨k, rfl⟩ : ∃ j, k = j + 1 := ⟨k - 1, by omega⟩
    rw [searchChain_succ hin] at h ⊢
    cases hscan : scanCluster v.disk p (clusterSlots v.fs c) with
    | some r' => rwa [hscan] at h
    | none =>
      rw [hscan] at h
      by_cases hn : Stops (getNextCluster v c)
      · rw [Option.elim_none, searchChain_stops hn] at h ⊢
        exact h
      · exact ih h (by omega) hn (by unfold Stops at hn; omega)

lemma Ends.mem_of_searchChain (h : Ends v c) (hs : searchChain v p fuel c = some (some s)) :
    s.InTree v.fs := by
  induction fuel generalizing c with
  | zero =>
    unfold searchChain at hs
    split_ifs at hs
    cases hs
  | succ fuel ih =>
    rcases h.inside with hstop | hmem
    · rw [searchChain_stops hstop] at hs
      cases hs
    rw [searchChain_succ (not_stops hmem)] at hs
    cases hscan : scanCluster v.disk p (clusterSlots v.fs c) with
    | none =>
      rw [hscan] at hs
      exact ih (h.next hmem) hs
    | some r =>
      rw [hscan] at hs
      cases hs
      obtain ⟨t, ht, heq⟩ := Option.map_eq_some_iff.1 hscan
      split_ifs at heq
      cases heq
      exact .inr ⟨c, hmem, List.mem_of_find?_eq_some ht⟩

lemma updateInChain_stops {e : DirEntry} (h : Stops c) (fuel : ℕ) :
    updateInChain e fuel v c = some v := by
  unfold updateInChain
  rw [if_neg (by unfold Stops at h; omega)]

lemma updateInChain_of_ends (e : DirEntry) (k : ℕ) (h : Stops ((getNextCluster v)^[k] c)) :
    ∃ w, updateInChain e k v c = some w := by
  by_cases hc : Stops c
  · exact ⟨v, updateInChain_stops hc k⟩
  induction k generalizing c with
  | zero => exact absurd h hc
  | succ k ih =>
    rw [Function.iterate_succ_apply] at h
    rw [updateInChain, if_pos (by unfold Stops at hc; omega)]
    cases findSlot v.disk (namedAs e.name) (clusterSlots v.fs c) with
    | some s => exact ⟨_, rfl⟩
    | none =>
      rw [Option.elim_none]
      split_ifs with hend
      · exact ⟨v, rfl⟩
      · by_cases hn : Stops (getNextCluster v c)
        · exact ⟨v, updateInChain_stops hn k⟩
        · exact ih h hn

lemma findSlot_zero (disk : Buffer) (slots : List Slot) :
    findSlot disk (namedAs (List.replicate 11 0)) slots = none := by
  rw [findSlot, List.find?_eq_none]
  intro s hs hfound
  have hne := List.mem_takeWhile_imp hs
  simp only [namedAs, Bool.and_eq_true, decide_eq_true_eq] at hfound hne
  exact hne (by rw [DirEntry.first, hfound.2.2]; rfl)

lemma ends_of_updateInChain {e : DirEntry} (he : e.name = List.replicate 11 0)
    (h : updateInChain e fuel v c = some w) : Ends v c := by
  by_cases hc : Stops c
  · exact ⟨0, hc⟩
  have hin : 2 ≤ c ∧ c < endOfChain := by
    unfold Stops at hc
    omega
  induction fuel generalizing c with
  | zero =>
    rw [updateInChain, if_pos hin] at h
    cases h
  | succ fuel ih =>
    rw [updateInChain, if_pos hin, he, findSlot_zero] at h
    by_cases hn : Stops (getNextCluster v c)
    · exact ⟨1, by rwa [Function.iterate_one]⟩
    · have hin' : 2 ≤ getNextCluster v c ∧ getNextCluster v c < endOfChain := by
        unfold Stops at hn
        omega
      rw [Option.elim_none, if_neg (by omega)] at h
      obtain ⟨k, hk⟩ := ih h hn hin'
      exact ⟨k + 1, by rwa [Function.iterate_succ_apply]⟩

lemma Sound.delete (h : Sound v c) (hne : c ≠ 0) (name : List ℕ) :
    ∃ fuel r, deleteFileInDir fuel v c name = some r := by
  obtain ⟨k, hk⟩ := h.ends
  obtain ⟨found, hfound⟩ := searchChain_of_ends (namedAs (to83Name name)) k hk
  have hdelete : ∀ fuel, k ≤ fuel →
      deleteFileInDir fuel v c name = found.elim (some (false, v)) (deleteFound fuel v) := by
    intro fuel hle
    simp [deleteFileInDir, if_neg hne, searchChain_mono hfound hle]
  cases found with
  | none => exact ⟨k, _, hdelete k k.le_refl⟩
  | some s =>
    by_cases hdir : (entryAt v.disk s).attributes.testBit 4 = true
    · exact ⟨k, _, (hdelete k k.le_refl).trans (if_pos hdir)⟩
    have hin := h.files name k s hfound (Bool.eq_false_of_not_eq_true hdir)
    obtain ⟨hvalid, hlo⟩ := (h.ends.mem_of_searchChain hfound).valid
    obtain ⟨w, ⟨fuel, hw⟩, -⟩ := ((staysInside_patchSlot hvalid hlo deletedBytes).mpr hin).freeChain
    have hmax := hdelete (max k fuel) (Nat.le_max_left ..)
    rw [Option.elim_some, deleteFound, if_neg hdir] at hmax
    dsimp only at hmax
    rw [freeChain_mono (Nat.le_max_right ..) hw, Option.map_some] at hmax
    split_ifs at hmax <;> exact ⟨_, _, hmax⟩

end

/-- Cluster 2 is its own successor, and 3 has the mark of a bad one. -/
def corrupt : Volume where
  fs := smallFs
  disk := bootDisk [(516, 2), (518, 0xF7), (519, 0xFF)]

end FrostByte.Fat16
