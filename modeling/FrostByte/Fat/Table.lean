import FrostByte.Fat.Volume

/-!
# The file allocation table

`getFatEntry` reads a cell of the table and `setFatEntry` changes that cell and nothing else. A
`Layout` is the volume seen as its chains of clusters, with the free count of the FSInfo sector;
each call of the allocator takes one layout to another.

## Main definitions

* `Layout` — a volume as the chains of its table, with the right free count.
* `Keeps` — a step leaves the clusters of some chains as they are.
* `Allocates` — an allocation takes a free cluster if there is one.

## Main results

* `setFatEntry_spec` — storing an entry changes this cell and no other.
* `allocates_iff` — the one case in which a free cluster is missed.
* `Layout.allocate`, `Layout.link`, `Layout.free` — what the calls do to the chains.
-/

namespace FrostByte.Fat32

open Word Chains Function Mount

/-! ## Where things are -/

namespace Mount

variable (m : Mount)

/-- The clusters of the volume, from 2 on. -/
def clusters : Finset ℕ := Finset.Ico 2 (m.totalClusters + 2)

/-- The byte of the device where a cluster starts. -/
def clusterAddr (c : ℕ) : ℕ := (m.clusterBeginLba + (c - 2) * m.sectorsPerCluster.toNat) * 512

/-- The byte of the device where an entry of the first table is. -/
def entryAddr (c : ℕ) : ℕ := m.fatBeginLba * 512 + c * 4

/-- Where byte `k` of table `i` is. -/
def copyByte (i k : ℕ) : ℕ := (m.fatBeginLba + i * m.fatSize32.toNat) * 512 + k

@[simp]
lemma bytesPerSector_toNat : m.bytesPerSector.toNat = 512 := by rw [m.sector_size]; rfl

lemma clusterBeginLba_eq :
    m.clusterBeginLba = m.fatBeginLba + m.numFats.toNat * m.fatSize32.toNat := by
  have h1 := m.fats_lt
  unfold Bpb.clusterBeginLba Bpb.fatBeginLba
  rw [w32_of_lt (n := m.numFats.toNat * m.fatSize32.toNat) (by omega), w32_of_lt (by omega)]

lemma clusterBeginLba_le : m.clusterBeginLba ≤ m.totalSectors := by
  rw [clusterBeginLba_eq]
  exact m.fats_le

lemma clusterBeginLba_lt : m.clusterBeginLba < 2 ^ 23 := by
  have h := m.fats_lt
  rw [clusterBeginLba_eq]
  unfold Bpb.fatBeginLba
  omega

lemma fat_le {i : ℕ} (hi : i < m.numFats.toNat) :
    m.fatBeginLba + i * m.fatSize32.toNat + m.fatSize32.toNat ≤ m.clusterBeginLba := by
  have := Nat.mul_le_mul_right m.fatSize32.toNat (Nat.succ_le_of_lt hi)
  rw [Nat.succ_mul] at this
  rw [clusterBeginLba_eq]
  omega

lemma bytesPerCluster_eq : m.bytesPerCluster = m.sectorsPerCluster.toNat * 512 := by
  have := m.sectorsPerCluster.toNat_lt
  unfold Bpb.bytesPerCluster
  rw [bytesPerSector_toNat, w32_of_lt (by omega), Nat.mul_comm]

lemma bytesPerCluster_pos : 0 < m.bytesPerCluster := by
  have := m.cluster_size
  rw [bytesPerCluster_eq]
  omega

lemma clusters_le : m.clusterBeginLba + m.totalClusters * m.sectorsPerCluster.toNat ≤
    m.totalSectors := by
  have h1 := m.clusterBeginLba_le
  have h3 := Nat.div_mul_le_self (m.totalSectors - m.clusterBeginLba) m.sectorsPerCluster.toNat
  unfold Bpb.totalClusters
  rw [sub32_of_le h1 m.totalSectors_lt]
  omega

/-- A table has an entry for each cluster and lies below 4 GiB. -/
lemma totalClusters_lt : m.totalClusters + 2 < 2 ^ 30 := by
  have h1 := m.entries_le
  have h2 := m.fat_le m.numFats_pos
  have h3 := m.clusterBeginLba_lt
  omega

variable {m} {c : ℕ}

lemma Small.totalSectors_lt (h : m.Small) : m.totalSectors < 2 ^ 23 := by
  unfold Small at h
  omega

lemma Small.totalClusters_lt (h : m.Small) : m.totalClusters < 2 ^ 23 := by
  have h1 := m.clusters_le
  have h2 := Nat.le_mul_of_pos_right m.totalClusters m.cluster_size
  have h3 := h.totalSectors_lt
  omega

lemma mem_clusters : c ∈ m.clusters ↔ 2 ≤ c ∧ c < m.totalClusters + 2 := Finset.mem_Ico

lemma outOfTable_iff : OutOfTable m c ↔ c ∉ m.clusters := by
  have := m.totalClusters_lt
  unfold OutOfTable
  rw [mem_clusters, w32_of_lt (by omega)]
  omega

lemma clusterAddr_bounds (hc : c ∈ m.clusters) : m.clusterBeginLba * 512 ≤ m.clusterAddr c ∧
      m.clusterAddr c + m.bytesPerCluster ≤ m.totalSectors * 512 := by
  rw [mem_clusters] at hc
  have h1 := m.clusters_le
  have h2 :=
    Nat.mul_le_mul_right m.sectorsPerCluster.toNat (show c - 2 + 1 ≤ m.totalClusters by omega)
  rw [Nat.add_mul] at h2
  rw [bytesPerCluster_eq]
  unfold clusterAddr
  omega

lemma clusterAddr_disjoint {d : ℕ} (hc : c ∈ m.clusters) (hd : d ∈ m.clusters) (hne : c ≠ d) :
    m.clusterAddr c + m.bytesPerCluster ≤ m.clusterAddr d ∨
      m.clusterAddr d + m.bytesPerCluster ≤ m.clusterAddr c := by
  rw [mem_clusters] at hc hd
  rw [bytesPerCluster_eq]
  unfold clusterAddr
  rcases Nat.lt_or_gt_of_ne hne with h | h
  · have := Nat.mul_le_mul_right m.sectorsPerCluster.toNat (show c - 2 + 1 ≤ d - 2 by omega)
    rw [Nat.add_mul] at this
    omega
  · have := Nat.mul_le_mul_right m.sectorsPerCluster.toNat (show d - 2 + 1 ≤ c - 2 by omega)
    rw [Nat.add_mul] at this
    omega

lemma clusterToLba_eq (hs : m.Small) (hc : c ∈ m.clusters) :
    clusterToLba m c ≠ 0 ∧ w32 (clusterToLba m c * m.bytesPerSector.toNat) = m.clusterAddr c := by
  have h1 := clusterAddr_bounds hc
  have h2 := hs.totalSectors_lt
  have h3 := m.bytesPerCluster_pos
  have h4 := m.fat_le m.numFats_pos
  have h5 := m.entries_le
  unfold clusterAddr at h1 ⊢
  have h6 : clusterToLba m c = m.clusterBeginLba + (c - 2) * m.sectorsPerCluster.toNat := by
    rw [mem_clusters] at hc
    unfold clusterToLba
    rw [if_neg (by omega), w32_of_lt (n := (c - 2) * m.sectorsPerCluster.toNat) (by omega),
      w32_of_lt (by omega)]
  refine ⟨by omega, ?_⟩
  rw [h6, bytesPerSector_toNat, w32_of_lt (by omega)]

end Mount

/-! ## One entry -/

variable {v w : Volume} {c d : ℕ}

section

variable (hc : c ∈ v.mount.clusters)

include hc

lemma copyOffset_eq {i : ℕ} (hi : i < v.mount.numFats.toNat) : copyOffset v.mount c i =
      (v.mount.fatBeginLba + i * v.mount.fatSize32.toNat + c * 4 / 512) * 512 := by
  have h1 := v.mount.fat_le hi
  have h3 := v.mount.clusterBeginLba_lt
  have h4 := v.mount.entries_le
  have h5 := v.mount.totalClusters_lt
  rw [mem_clusters] at hc
  dsimp only [copyOffset]
  rw [bytesPerSector_toNat, w32_of_lt (n := c * 4) (by omega),
    w32_of_lt (n := i * _) (by omega), w32_of_lt (n := v.mount.fatBeginLba + _) (by omega),
    w32_of_lt (n := _ + c * 4 / 512) (by omega), w32_of_lt (by omega)]

lemma fatSector_apply {k : ℕ} (hk : k < 512) :
    fatSector v c k = v.disk ((v.mount.fatBeginLba + c * 4 / 512) * 512 + k) := by
  have h4 := v.mount.entries_le
  have h5 := v.mount.totalClusters_lt
  have h1 := v.mount.fat_le v.mount.numFats_pos
  have h3 := v.mount.clusterBeginLba_lt
  rw [mem_clusters] at hc
  dsimp only [fatSector, deviceRead]
  rw [bytesPerSector_toNat, Buffer.copy_of_mem _ _ (Nat.zero_le _) (by omega),
    w32_of_lt (n := c * 4) (by omega), w32_of_lt (n := v.mount.fatBeginLba + _) (by omega),
    w32_of_lt (by omega), Nat.sub_zero]

lemma entryOffset_eq : w32 (c * 4) % v.mount.bytesPerSector.toNat = c * 4 % 512 := by
  have h1 := v.mount.totalClusters_lt
  rw [mem_clusters] at hc
  rw [bytesPerSector_toNat, w32_of_lt (by omega)]

lemma fatSector_word : (fatSector v c).word (c * 4 % 512) = v.disk.word (v.mount.entryAddr c) := by
  refine Buffer.word_congr fun k hk => ?_
  rw [fatSector_apply hc (by omega)]
  refine congrArg v.disk ?_
  unfold entryAddr
  omega

lemma getFatEntry_eq : getFatEntry v c = v.disk.word (v.mount.entryAddr c) &&& 0x0FFFFFFF := by
  dsimp only [getFatEntry]
  rw [if_neg (by rwa [outOfTable_iff, not_not]), entryOffset_eq hc, fatSector_word hc]

end

lemma getFatEntry_of_notMem (hc : c ∉ v.mount.clusters) : getFatEntry v c = badCluster := by
  dsimp only [getFatEntry]
  rw [if_pos (outOfTable_iff.2 hc)]

variable {L : List (List ℕ)} {a e : ℕ}

section

variable (hc : c ∈ v.mount.clusters) (sector disk : Buffer)

include hc

lemma writeCopies_copy {j k : ℕ} (hk : k < v.mount.fatSize32.toNat * 512) :
    ∀ i ≤ v.mount.numFats.toNat, writeCopies v.mount c sector i disk (v.mount.copyByte j k) =
      if j < i ∧ k / 512 = c * 4 / 512 then sector (k % 512) else disk (v.mount.copyByte j k) := by
  intro i
  induction i with
  | zero => exact fun _ => (if_neg (by omega)).symm
  | succ i ih =>
    intro hi
    rw [writeCopies, deviceWrite, copyOffset_eq hc hi, bytesPerSector_toNat, Buffer.copy,
      ih (by omega)]
    unfold copyByte
    have hentries := v.mount.entries_le
    rw [mem_clusters] at hc
    -- the other tables are before or behind table `i`
    rcases Nat.lt_trichotomy j i with hlt | rfl | hlt
    · have hmul := Nat.mul_le_mul_right v.mount.fatSize32.toNat hlt
      rw [Nat.succ_mul] at hmul
      rw [if_neg (by omega)]
      exact if_congr (by omega) rfl rfl
    · by_cases hsector : k / 512 = c * 4 / 512
      · rw [if_pos (by omega), if_pos (by omega)]
        exact congrArg sector (by omega)
      · rw [if_neg (by omega), if_neg (by omega), if_neg (by omega)]
    · have hmul := Nat.mul_le_mul_right v.mount.fatSize32.toNat hlt
      rw [Nat.succ_mul] at hmul
      rw [if_neg (by omega), if_neg (by omega), if_neg (by omega)]

lemma writeCopies_outside (ha : a < v.mount.fatBeginLba * 512 ∨ v.mount.clusterBeginLba * 512 ≤ a) :
    ∀ i ≤ v.mount.numFats.toNat, writeCopies v.mount c sector i disk a = disk a := by
  intro i
  induction i with
  | zero => exact fun _ => rfl
  | succ i ih =>
    intro hi
    have h1 := v.mount.fat_le hi
    have h2 := v.mount.entries_le
    have h3 := hc
    rw [mem_clusters] at h3
    rw [writeCopies, deviceWrite, copyOffset_eq hc hi, bytesPerSector_toNat,
      Buffer.copy_of_notMem _ _ (by omega), ih (by omega)]

end

lemma masked_entry (e x : ℕ) : (e &&& 0xF0000000 ||| x &&& 0x0FFFFFFF) < 2 ^ 32 ∧
      (e &&& 0xF0000000 ||| x &&& 0x0FFFFFFF) &&& 0x0FFFFFFF = x &&& 0x0FFFFFFF := by
  constructor
  · refine Nat.or_lt_two_pow ?_ ?_
    · exact Nat.lt_of_le_of_lt Nat.and_le_right (by decide)
    · exact Nat.lt_of_le_of_lt Nat.and_le_right (by decide)
  · rw [Nat.and_or_distrib_right, Nat.and_assoc, Nat.and_assoc, show 0xF0000000 &&& 0x0FFFFFFF = 0
      from rfl, Nat.and_self, Nat.and_zero, Nat.zero_or]

lemma setFatEntry_disk (hc : c ∈ v.mount.clusters) (x : ℕ) :
    ∃ disk, setFatEntry v c x = some { v with disk } ∧
      (∀ a, a < v.mount.fatBeginLba * 512 ∨ v.mount.clusterBeginLba * 512 ≤ a → disk a = v.disk a) ∧
      ∀ i < v.mount.numFats.toNat, ∀ k < v.mount.fatSize32.toNat * 512,
      disk (v.mount.copyByte i k) =
        if k / 512 = c * 4 / 512 then v.disk.setWord (v.mount.entryAddr c)
          (v.disk.word (v.mount.entryAddr c) &&& 0xF0000000 ||| x &&& 0x0FFFFFFF)
          (v.mount.copyByte 0 k)
        else v.disk (v.mount.copyByte i k) := by
  dsimp only [setFatEntry]
  rw [if_neg (by rwa [outOfTable_iff, not_not]), entryOffset_eq hc, fatSector_word hc]
  refine ⟨_, rfl, fun a ha => writeCopies_outside hc _ _ ha _ le_rfl, fun i hi k hk => ?_⟩
  rw [writeCopies_copy hc _ _ hk _ le_rfl]
  refine if_ctx_congr (and_iff_right hi) (fun hsector => ?_) fun _ => rfl
  -- in the sector: the byte is the old one, unless it is in the entry
  unfold Buffer.setWord entryAddr copyByte
  rw [fatSector_apply hc (Nat.mod_lt _ (by decide)), Nat.zero_mul, Nat.add_zero]
  refine ite_congr (propext (by omega)) (fun _ => ?_) fun _ => congrArg v.disk (by omega)
  congr 3
  omega

lemma mem_clusters_of_set {x : ℕ} (h : setFatEntry v c x = some w) : c ∈ v.mount.clusters := by
  by_contra hc
  rw [setFatEntry, if_pos (outOfTable_iff.2 hc)] at h
  cases h

lemma setFatEntry_word {x : ℕ} (h : setFatEntry v c x = some w)
    (hd : d * 4 + 4 ≤ v.mount.fatSize32.toNat * 512) :
    w.disk.word (v.mount.entryAddr d) =
      if d = c then v.disk.word (v.mount.entryAddr c) &&& 0xF0000000 ||| x &&& 0x0FFFFFFF
      else v.disk.word (v.mount.entryAddr d) := by
  obtain ⟨disk, hset, -, hcopy⟩ := setFatEntry_disk (mem_clusters_of_set h) x
  obtain rfl := Option.some.inj (hset.symm.trans h)
  have hword : disk.word (v.mount.entryAddr d) = (v.disk.setWord (v.mount.entryAddr c)
      (v.disk.word (v.mount.entryAddr c) &&& 0xF0000000 ||| x &&& 0x0FFFFFFF)).word
        (v.mount.entryAddr d) := by
    refine Buffer.word_congr fun k hk => ?_
    have hbyte := hcopy 0 v.mount.numFats_pos (d * 4 + k) (by omega)
    unfold copyByte at hbyte
    unfold entryAddr
    rw [Nat.zero_mul, Nat.add_zero, ← Nat.add_assoc] at hbyte
    rw [hbyte]
    split_ifs
    · rfl
    · exact (if_neg (by omega)).symm
  rw [hword]
  split_ifs with hdc
  · rw [hdc, Buffer.word_setWord _ (masked_entry _ _).1]
  · rw [Buffer.word_setWord_of_disjoint]
    unfold entryAddr
    omega

/-- Storing an entry changes its lower 28 bits in the table, and no byte of the clusters. -/
lemma setFatEntry_spec (hc : c ∈ v.mount.clusters) (x : ℕ) :
    ∃ disk, setFatEntry v c x = some { v with disk } ∧
      (∀ a, v.mount.clusterBeginLba * 512 ≤ a → disk a = v.disk a) ∧
      getFatEntry { v with disk } = update (getFatEntry v) c (x &&& 0x0FFFFFFF) := by
  obtain ⟨disk, hset, hout, -⟩ := setFatEntry_disk hc x
  refine ⟨disk, hset, fun a ha => hout a (.inr ha), funext fun d => ?_⟩
  by_cases hd : d ∈ v.mount.clusters
  · have hle := v.mount.entries_le
    have hlt := mem_clusters.1 hd
    rw [getFatEntry_eq (v := { v with disk }) hd]
    refine (congrArg (· &&& 0x0FFFFFFF) (setFatEntry_word hset (by omega))).trans ?_
    rcases eq_or_ne d c with rfl | hne
    · rw [update_self, if_pos rfl, (masked_entry _ _).2]
    · rw [update_of_ne hne, if_neg hne, getFatEntry_eq hd]
  · have hne : d ≠ c := fun e => hd (e ▸ hc)
    rw [update_of_ne hne, getFatEntry_of_notMem (v := v) hd]
    exact getFatEntry_of_notMem hd

/-! ## The table as chains -/

/-- An entry as a cell of a table of chains. -/
def toCell (e : ℕ) : Cell ℕ :=
  if e = freeCluster then .free else if eocMin ≤ e then .last else .next e

/-- The cell of a cluster. -/
def cell (v : Volume) (c : ℕ) : Cell ℕ := toCell (getFatEntry v c)

/-- The clusters whose entry is free. -/
def freeClusters (v : Volume) : Finset ℕ := {c ∈ v.mount.clusters | getFatEntry v c = freeCluster}

/-- On a volume below 4 GiB the used clusters are the chains, and FSInfo has the number of the
others. -/
structure Layout (v : Volume) (chains : List (List ℕ)) : Prop where
  shape : Shape (cell v) v.mount.clusters chains
  freeCount : v.fsinfo.freeCount = (freeClusters v).card
  small : v.mount.Small

instance (v : Volume) (chains : List (List ℕ)) : Decidable (Layout v chains) :=
  decidable_of_iff (Shape (cell v) v.mount.clusters chains ∧
      v.fsinfo.freeCount = (freeClusters v).card ∧ v.mount.Small)
    ⟨fun h => ⟨h.1, h.2.1, h.2.2⟩, fun h => ⟨h.shape, h.freeCount, h.small⟩⟩

/-- The volume is below 4 GiB, and the table is a disjoint union of chains and free entries, which
FSInfo counts. -/
def WellFormed (v : Volume) : Prop := ∃ chains, Layout v chains

/-- Changing the chain `l` leaves other entries and all data. -/
structure Keeps (v w : Volume) (l : List ℕ) : Prop where
  mount : w.mount = v.mount
  entries : ∀ c ∉ l, getFatEntry w c = getFatEntry v c
  data : ∀ a, v.mount.clusterBeginLba * 512 ≤ a → w.disk a = v.disk a

lemma toCell_eq_free : toCell e = .free ↔ e = freeCluster := by
  unfold toCell
  split_ifs <;> simp_all

lemma toCell_eq_last : toCell e = .last ↔ eocMin ≤ e := by
  unfold toCell
  split_ifs with h1 h2
  · simp [h1, freeCluster, eocMin]
  · simp [h2]
  · simp [h2]

lemma toCell_eq_next {b : ℕ} (h : toCell e = .next b) : e = b := by
  unfold toCell at h
  split_ifs at h
  exact Cell.next.inj h

lemma toCell_of_mem {m : Mount} (hs : m.Small) (hc : c ∈ m.clusters) :
    toCell (c &&& 0x0FFFFFFF) = .next c := by
  have h := hs.totalClusters_lt
  rw [mem_clusters] at hc
  rw [show (0x0FFFFFFF : ℕ) = 2 ^ 28 - 1 from rfl, Nat.and_two_pow_sub_one_eq_mod,
    Nat.mod_eq_of_lt (by omega)]
  unfold toCell freeCluster eocMin
  rw [if_neg (by omega), if_neg (by omega)]

lemma freeClusters_eq (v : Volume) : freeClusters v = freeCells (cell v) v.mount.clusters :=
  Finset.filter_congr fun _ _ => toCell_eq_free.symm

lemma card_freeClusters_lt (v : Volume) : (freeClusters v).card < 2 ^ 30 := by
  have h1 := v.mount.totalClusters_lt
  have h2 := Finset.card_filter_le v.mount.clusters fun c => getFatEntry v c = freeCluster
  rw [clusters, Nat.card_Ico] at h2
  exact Nat.lt_of_le_of_lt h2 (by omega)

lemma cluster_lt_eocMin {m : Mount} (hs : m.Small) (hc : c ∈ m.clusters) : 2 ≤ c ∧ c < eocMin := by
  have hlt := hs.totalClusters_lt
  rw [mem_clusters] at hc
  unfold eocMin
  omega

lemma setFatEntry_cell (hc : c ∈ v.mount.clusters) (x : ℕ) :
    ∃ disk, setFatEntry v c x = some { v with disk } ∧ Keeps v { v with disk } [c] ∧
      cell { v with disk } = update (cell v) c (toCell (x &&& 0x0FFFFFFF)) := by
  obtain ⟨disk, hset, hdata, hentry⟩ := setFatEntry_spec hc x
  refine ⟨disk, hset, ⟨rfl, fun d hd => ?_, hdata⟩, ?_⟩
  · rw [hentry, update_of_ne (by simpa using hd)]
  · have hcomp := comp_update toCell (getFatEntry v) c (x &&& 0x0FFFFFFF)
    rw [← hentry] at hcomp
    exact hcomp

/-- The clusters are linked one after the other, on a volume below 4 GiB. -/
structure IsChain (v : Volume) (l : List ℕ) : Prop where
  linked : Linked (cell v) l
  nodup : l.Nodup
  mem_clusters : ∀ c ∈ l, c ∈ v.mount.clusters
  small : v.mount.Small

namespace IsChain

variable {l : List ℕ} {i : ℕ}

lemma entry_next (h : IsChain v l) (hc : l[i]? = some c) (hd : l[i + 1]? = some d) :
    getFatEntry v c = d ∧ 2 ≤ d ∧ d < eocMin := by
  have hcell := h.linked i c hc
  rw [hd] at hcell
  exact ⟨toCell_eq_next hcell,
    cluster_lt_eocMin h.small (h.mem_clusters d (List.mem_of_getElem? hd))⟩

lemma entry_last (h : IsChain v l) (hc : l[i]? = some c) (hd : l[i + 1]? = none) :
    eocMin ≤ getFatEntry v c := by
  have hcell := h.linked i c hc
  rw [hd] at hcell
  exact toCell_eq_last.1 hcell

lemma length_le (h : IsChain v l) : l.length ≤ v.mount.totalClusters := by
  have hle := Finset.card_le_card fun c hc => h.mem_clusters c (List.mem_toFinset.1 hc)
  rwa [List.toFinset_card_of_nodup h.nodup, clusters, Nat.card_Ico, Nat.add_sub_cancel] at hle

lemma of_append {k : List ℕ} (h : IsChain v (k ++ l)) : IsChain v l := by
  refine ⟨?_, (List.nodup_append.1 h.nodup).2.1, fun c hc => h.mem_clusters c (by simp [hc]),
    h.small⟩
  have hl := h.linked
  clear h
  induction k with
  | nil => exact hl
  | cons c k ih => exact ih hl.tail

lemma congr (h : IsChain v l) (hm : w.mount = v.mount)
    (he : ∀ c ∈ l, getFatEntry w c = getFatEntry v c) : IsChain w l where
  linked := h.linked.congr fun c hc => congrArg toCell (he c hc)
  nodup := h.nodup
  mem_clusters c hc := hm ▸ h.mem_clusters c hc
  small := hm ▸ h.small

end IsChain

lemma Layout.isChain {l : List ℕ} (h : Layout v L) (hl : l ∈ L) : IsChain v l where
  linked := h.shape.linked l hl
  nodup := h.shape.nodup_of_mem hl
  mem_clusters _ hc := h.shape.mem hl hc
  small := h.small

lemma Layout.entry_next {l : List ℕ} {i : ℕ} (h : Layout v (l :: L))
    (hc : l[i]? = some c) (hd : l[i + 1]? = some d) : getFatEntry v c = d ∧ 2 ≤ d ∧ d < eocMin :=
  (h.isChain (.head _)).entry_next hc hd

lemma Layout.entry_last {l : List ℕ} {i : ℕ} (h : Layout v (l :: L))
    (hc : l[i]? = some c) (hd : l[i + 1]? = none) : eocMin ≤ getFatEntry v c :=
  (h.isChain (.head _)).entry_last hc hd

/-! ## Allocating a cluster -/

lemma allocateFrom_spec (v : Volume) (start : ℕ) : ∀ tries cluster,
    allocateFrom v start tries cluster = (0, v) ∨
      ∃ c ∈ v.mount.clusters, ∃ w, getFatEntry v c = freeCluster ∧ setFatEntry v c eoc = some w ∧
        allocateFrom v start tries cluster = (c, { w with fsinfo := w.fsinfo.take c }) := by
  intro tries
  induction tries with
  | zero => exact fun _ => .inl rfl
  | succ tries ih =>
    intro cluster
    rw [allocateFrom]
    by_cases hf : getFatEntry v cluster = freeCluster
    · have hc : cluster ∈ v.mount.clusters := by
        by_contra hn
        rw [getFatEntry_of_notMem hn] at hf
        cases hf
      obtain ⟨disk, hset, -, -⟩ := setFatEntry_spec hc eoc
      rw [if_pos hf, hset]
      exact .inr ⟨cluster, hc, _, hf, hset, rfl⟩
    · rw [if_neg hf]
      dsimp only
      generalize (if w32 (v.mount.totalClusters + 2) ≤ w32 (cluster + 1) then 2
        else w32 (cluster + 1)) = next
      split
      · exact .inl rfl
      · exact ih next

/-- The cluster that the search looks at after another one. -/
def nextCluster (m : Mount) (c : ℕ) : ℕ :=
  if w32 (m.totalClusters + 2) ≤ w32 (c + 1) then 2 else w32 (c + 1)

lemma allocateFrom_of_free (start tries : ℕ) (hf : getFatEntry v c = freeCluster) :
    (allocateFrom v start (tries + 1) c).1 ≠ 0 := by
  have hc : c ∈ v.mount.clusters := by
    by_contra hn
    rw [getFatEntry_of_notMem hn] at hf
    cases hf
  obtain ⟨disk, hset, -, -⟩ := setFatEntry_spec hc eoc
  have h2 := (mem_clusters.1 hc).1
  rw [allocateFrom, if_pos hf, hset]
  dsimp only
  omega

lemma allocateFrom_of_used {start : ℕ} (tries : ℕ) (hf : getFatEntry v c ≠ freeCluster)
    (hn : nextCluster v.mount c ≠ start) :
    allocateFrom v start (tries + 1) c = allocateFrom v start tries (nextCluster v.mount c) := by
  unfold nextCluster at hn ⊢
  rw [allocateFrom, if_neg hf]
  dsimp only
  rw [if_neg hn]

lemma allocateFrom_of_start {start : ℕ} (tries : ℕ) (hf : getFatEntry v c ≠ freeCluster)
    (hn : nextCluster v.mount c = start) : allocateFrom v start (tries + 1) c = (0, v) := by
  unfold nextCluster at hn
  rw [allocateFrom, if_neg hf]
  dsimp only
  rw [if_pos hn]

lemma allocateFrom_eq_zero {start : ℕ} : ∀ (tries : ℕ) {cluster k : ℕ},
    (allocateFrom v start tries cluster).1 = 0 → k < tries →
    (∀ j < k, (nextCluster v.mount)^[j + 1] cluster ≠ start) →
    getFatEntry v ((nextCluster v.mount)^[k] cluster) ≠ freeCluster := by
  intro tries
  induction tries with
  | zero => exact fun _ hk => nomatch hk
  | succ tries ih =>
    intro cluster k hzero hk hstart
    have hf : getFatEntry v cluster ≠ freeCluster :=
      fun hf => allocateFrom_of_free start tries hf hzero
    cases k with
    | zero =>
      rw [iterate_zero_apply]
      exact hf
    | succ k =>
      have hnext : nextCluster v.mount cluster ≠ start := by
        have := hstart 0 (Nat.succ_pos k)
        rwa [Nat.zero_add, iterate_one] at this
      rw [allocateFrom_of_used tries hf hnext] at hzero
      rw [iterate_succ_apply]
      refine ih hzero (Nat.lt_of_succ_lt_succ hk) fun j hj => ?_
      rw [← iterate_succ_apply]
      exact hstart (j + 1) (Nat.succ_lt_succ hj)

lemma iterate_nextCluster {m : Mount} (k : ℕ) (h : c + k < m.totalClusters + 2) :
    (nextCluster m)^[k] c = c + k := by
  have hlt := m.totalClusters_lt
  induction k with
  | zero => rfl
  | succ k ih =>
    rw [iterate_succ_apply', ih (by omega), nextCluster, w32_of_lt (by omega), w32_of_lt (by omega),
      if_neg (by omega)]
    rfl

lemma nextCluster_of_ge {m : Mount} (h : m.totalClusters + 2 ≤ c + 1) (hc : c + 1 < 2 ^ 32) :
    nextCluster m c = 2 := by
  have hlt := m.totalClusters_lt
  rw [nextCluster, w32_of_lt (by omega), w32_of_lt hc, if_pos h]

lemma allocateCluster_eq_zero (hhint : v.fsinfo.nextFree < 2 ^ 32) (h : (allocateCluster v).1 = 0)
    (hc : c ∈ v.mount.clusters) (hf : getFatEntry v c = freeCluster) :
    c = v.mount.totalClusters + 1 ∧ v.mount.totalClusters + 2 ≤ startCluster v := by
  obtain ⟨start, hstart⟩ : ∃ start, startCluster v = start := ⟨_, rfl⟩
  have hbounds : 2 ≤ start ∧ start + 1 < 2 ^ 32 := by
    rw [← hstart, startCluster]
    split_ifs <;> omega
  have hlt := v.mount.totalClusters_lt
  rw [mem_clusters] at hc
  rw [allocateCluster, hstart] at h
  rw [hstart]
  by_contra hne
  have hnot : ∀ k < v.mount.totalClusters, (nextCluster v.mount)^[k] start = c →
      ¬ ∀ j < k, (nextCluster v.mount)^[j + 1] start ≠ start := by
    intro k hk hkc hfirst
    have := allocateFrom_eq_zero _ h hk hfirst
    rw [hkc] at this
    exact this hf
  -- from 2 on, after `a` rounds, the search goes through the clusters in order
  have hwrap : ∀ a, (nextCluster v.mount)^[a] start = 2 → ∀ i < v.mount.totalClusters,
      (nextCluster v.mount)^[i + a] start = 2 + i := by
    intro a ha i hi
    rw [iterate_add_apply, ha, iterate_nextCluster i (by omega)]
  rcases Nat.lt_or_ge start (v.mount.totalClusters + 2) with hin | hout
  · rcases Nat.lt_or_ge c start with hbefore | hafter
    · have ha : (nextCluster v.mount)^[v.mount.totalClusters + 2 - start] start = 2 := by
        obtain ⟨a, ha⟩ : ∃ a, v.mount.totalClusters + 2 - start = a + 1 :=
          ⟨v.mount.totalClusters + 1 - start, by omega⟩
        rw [ha, iterate_succ_apply', iterate_nextCluster a (by omega), nextCluster_of_ge (by omega)
          (by omega)]
      refine hnot (c - 2 + (v.mount.totalClusters + 2 - start)) (by omega) ?_ fun j hj => ?_
      · rw [hwrap _ ha _ (by omega)]
        omega
      · rcases Nat.lt_or_ge (j + 1) (v.mount.totalClusters + 2 - start) with hj' | hj'
        · rw [iterate_nextCluster _ (by omega)]
          omega
        · have hsplit : j + 1 = j + 1 - (v.mount.totalClusters + 2 - start) +
              (v.mount.totalClusters + 2 - start) := by omega
          rw [hsplit, hwrap _ ha _ (by omega)]
          omega
    · refine hnot (c - start) (by omega) ?_ fun j hj => ?_
      · rw [iterate_nextCluster _ (by omega)]
        omega
      · rw [iterate_nextCluster _ (by omega)]
        omega
  · have ha : (nextCluster v.mount)^[1] start = 2 := by
      rw [iterate_one]
      exact nextCluster_of_ge (by omega) hbounds.2
    refine hnot (c - 2 + 1) (by omega) ?_ fun j hj => ?_
    · rw [hwrap 1 ha _ (by omega)]
      omega
    · rw [hwrap 1 ha j (by omega)]
      omega

lemma allocateFrom_ne_last (start : ℕ) {last : ℕ} (hlast : v.mount.totalClusters + 1 = last) :
    ∀ (tries : ℕ) {cluster : ℕ}, cluster + tries ≤ last →
    (allocateFrom v start tries cluster).1 ≠ last := by
  have hpos : 0 ≠ last := by omega
  intro tries
  induction tries with
  | zero => exact fun _ => hpos
  | succ tries ih =>
    intro cluster hle
    have hlt : cluster < last := by omega
    have hle' : cluster + 1 + tries ≤ last := by omega
    have hnext := iterate_nextCluster (m := v.mount) (c := cluster) 1 (by omega)
    rw [iterate_one] at hnext
    by_cases hf : getFatEntry v cluster = freeCluster
    · rw [allocateFrom, if_pos hf]
      cases setFatEntry v cluster eoc with
      | none => exact hpos
      | some w => exact Nat.ne_of_lt hlt
    by_cases hstart : nextCluster v.mount cluster = start
    · rw [allocateFrom_of_start tries hf hstart]
      exact hpos
    · rw [allocateFrom_of_used tries hf hstart, hnext]
      exact ih hle'

/-- The call fails if no cluster is free, otherwise it takes a free one. -/
structure Allocates (v : Volume) : Prop where
  eq_zero_iff : (allocateCluster v).1 = 0 ↔ freeClusters v = ∅
  entry : (allocateCluster v).1 ≠ 0 → (allocateCluster v).1 ∈ freeClusters v ∧
    getFatEntry (allocateCluster v).2 = update (getFatEntry v) (allocateCluster v).1 eoc

/-- **Allocating a cluster** goes wrong exactly when only the last one is free and the hint is
behind it. -/
theorem allocates_iff (hhint : v.fsinfo.nextFree < 2 ^ 32) : Allocates v ↔
    (freeClusters v = {v.mount.totalClusters + 1} →
      v.fsinfo.nextFree = 0xFFFFFFFF ∨ v.fsinfo.nextFree < v.mount.totalClusters + 2) := by
  have hspec := allocateFrom_spec v (startCluster v) v.mount.totalClusters (startCluster v)
  rw [← allocateCluster] at hspec
  constructor
  · intro h hlast
    by_contra hout
    obtain ⟨hne, hge⟩ := not_or.1 hout
    have hstart : startCluster v = v.fsinfo.nextFree := if_pos ⟨hne, by omega⟩
    have hmem : (allocateCluster v).1 ∈ freeClusters v := by
      refine (h.entry fun hzero => ?_).1
      have := h.eq_zero_iff.1 hzero
      simp [hlast] at this
    rw [hlast, Finset.mem_singleton, allocateCluster, hstart] at hmem
    revert hmem
    cases htotal : v.mount.totalClusters with
    | zero => simp [allocateFrom]
    | succ tries =>
      have hnext : nextCluster v.mount v.fsinfo.nextFree = 2 :=
        nextCluster_of_ge (by omega) (by omega)
      have hused : getFatEntry v v.fsinfo.nextFree ≠ freeCluster := by
        rw [getFatEntry_of_notMem fun hc => hge (mem_clusters.1 hc).2]
        decide
      rw [allocateFrom_of_used tries hused (by omega), hnext, ← htotal]
      exact allocateFrom_ne_last _ rfl tries (by omega)
  · intro hcond
    rcases hspec with hzero | ⟨c, hc, w, hf, hset, heq⟩
    · refine ⟨⟨fun _ => ?_, fun _ => by rw [hzero]⟩, fun hne =>
        absurd (congrArg Prod.fst hzero) hne⟩
      by_contra hne
      have hlast : ∀ c ∈ freeClusters v,
          c = v.mount.totalClusters + 1 ∧ v.mount.totalClusters + 2 ≤ startCluster v := fun c hc =>
        allocateCluster_eq_zero hhint (congrArg Prod.fst hzero) (Finset.mem_filter.1 hc).1
          (Finset.mem_filter.1 hc).2
      obtain ⟨c, hc⟩ := Finset.nonempty_iff_ne_empty.2 hne
      have hbehind := (hlast c hc).2
      have hin := mem_clusters.1 (Finset.mem_filter.1 hc).1
      have := hcond (Finset.eq_singleton_iff_unique_mem.2
        ⟨(hlast c hc).1 ▸ hc, fun d hd => (hlast d hd).1⟩)
      unfold startCluster at hbehind
      split_ifs at hbehind <;> omega
    · have hmem : c ∈ freeClusters v := Finset.mem_filter.2 ⟨hc, hf⟩
      have h2 := (mem_clusters.1 hc).1
      obtain ⟨disk, hset', -, hentry⟩ := setFatEntry_spec hc eoc
      obtain rfl := Option.some_inj.1 (hset.symm.trans hset')
      refine ⟨⟨fun hzero => ?_, fun hempty => ?_⟩, fun _ => ?_⟩
      · rw [heq] at hzero
        omega
      · simp [hempty] at hmem
      · rw [heq]
        exact ⟨hmem, hentry⟩

/-- There is a cluster to spare beside `n` clusters and the chains `L`, and the hint is a 32-bit
word. -/
structure Spare (v : Volume) (L : List (List ℕ)) (n : ℕ) : Prop where
  hint : v.fsinfo.nextFree < 2 ^ 32
  room : n + L.flatten.length < v.mount.totalClusters

instance (v : Volume) (L : List (List ℕ)) (n : ℕ) : Decidable (Spare v L n) :=
  decidable_of_iff (v.fsinfo.nextFree < 2 ^ 32 ∧ n + L.flatten.length < v.mount.totalClusters)
    ⟨fun h => ⟨h.1, h.2⟩, fun h => ⟨h.hint, h.room⟩⟩

lemma Layout.allocateCluster_ne_zero (h : Layout v L) (hspare : Spare v L 1) :
    (allocateCluster v).1 ≠ 0 := by
  intro hzero
  have hsub : freeClusters v ⊆ {v.mount.totalClusters + 1} := by
    intro c hc
    obtain ⟨hmem, hf⟩ := Finset.mem_filter.1 hc
    exact Finset.mem_singleton.2 (allocateCluster_eq_zero hspare.hint hzero hmem hf).1
  have hcard := h.shape.card_freeCells
  have htotal : v.mount.clusters.card = v.mount.totalClusters := by
    simp [clusters]
  rw [← freeClusters_eq, htotal] at hcard
  have hle := Finset.card_le_card hsub
  rw [Finset.card_singleton] at hle
  have := hspare.room
  omega

/-- A free cluster becomes a chain of its own, or there is none to be found. -/
lemma Layout.allocate (h : Layout v ([] :: L)) : allocateCluster v = (0, v) ∧ ¬ Spare v L 1 ∨
      ∃ c w, allocateCluster v = (c, w) ∧ c ≠ 0 ∧ Layout w ([c] :: L) ∧ Keeps v w [c] ∧
        w.fsinfo.nextFree < 2 ^ 32 := by
  rcases allocateFrom_spec v (startCluster v) v.mount.totalClusters (startCluster v) with
    hfail | ⟨c, hc, w, hf, hset, hok⟩
  · refine .inl ⟨hfail, fun hspare => ?_⟩
    exact (Layout.mk h.shape.of_cons_nil h.freeCount h.small).allocateCluster_ne_zero hspare
      (congrArg Prod.fst hfail)
  obtain ⟨disk, hset', hkeeps, hcell⟩ := setFatEntry_cell hc eoc
  obtain rfl := Option.some_inj.1 (hset.symm.trans hset')
  have hfree : cell v c = .free := toCell_eq_free.2 hf
  refine .inr ⟨c, _, hok, ?_, ⟨?_, ?_, h.small⟩, ⟨rfl, hkeeps.entries, hkeeps.data⟩, w32_lt _⟩
  · rw [mem_clusters] at hc
    omega
  · have hs := h.shape.alloc hc hfree
    rwa [show (Cell.last : Cell ℕ) = toCell (eoc &&& 0x0FFFFFFF) from rfl, ← hcell] at hs
  · have hcard := card_freeCells_alloc hc hfree
    have hlt := card_freeClusters_lt v
    have hcount := h.freeCount
    rw [show (Cell.last : Cell ℕ) = toCell (eoc &&& 0x0FFFFFFF) from rfl, ← hcell,
      ← freeClusters_eq v, ← freeClusters_eq { v with disk }] at hcard
    dsimp only [FsInfo.take]
    rw [if_pos (by omega)]
    exact Nat.sub_eq_of_eq_add (hcount.trans hcard.symm)

/-! ## Linking a cluster -/

/-- A cluster is put behind the last one of a chain. -/
lemma Layout.link {l : List ℕ} (h : Layout v (l :: [d] :: L)) (hlast : l.getLast? = some c) :
    ∃ w, setFatEntry v c d = some w ∧ Layout w ((l ++ [d]) :: L) ∧ Keeps v w l := by
  have hcl : c ∈ l := List.mem_of_getLast? hlast
  have hc := h.shape.mem (.head _) hcl
  have hd : d ∈ v.mount.clusters :=
    h.shape.mem (.tail _ (.head _)) (List.mem_singleton_self d)
  obtain ⟨disk, hset, hkeeps, hcell⟩ := setFatEntry_cell hc d
  rw [toCell_of_mem h.small hd] at hcell
  refine ⟨_, hset, ⟨?_, ?_, h.small⟩, rfl, fun e he => hkeeps.entries e ?_, hkeeps.data⟩
  · have hs := h.shape.link hlast
    rwa [← hcell] at hs
  · rw [h.freeCount, freeClusters_eq, freeClusters_eq, hcell,
      freeCells_link (h.shape.ne_free List.mem_cons_self hcl)]
  · rintro hm
    exact he (List.mem_singleton.1 hm ▸ hcl)

lemma setFatEntry_fsinfo {x : ℕ} (h : setFatEntry v c x = some w) : w.fsinfo = v.fsinfo := by
  unfold setFatEntry at h
  split_ifs at h
  exact (Option.some.inj h) ▸ rfl

lemma advance_of_next (h : 2 ≤ getFatEntry v c) (hlt : getFatEntry v c < eocMin) :
    advance v c = (getFatEntry v c, v) := by
  unfold advance
  exact if_neg (not_or.2 ⟨Nat.not_lt.2 h, Nat.not_le.2 hlt⟩)

lemma advance_of_last (h : eocMin ≤ getFatEntry v c) (ha : allocateCluster v = (d, w)) :
    advance v c = if d = 0 then (0, w) else (d, (setFatEntry w c d).getD w) := by
  unfold advance
  rw [ha]
  exact if_pos (.inr h)

lemma Layout.advance {l : List ℕ} {i : ℕ} (h : Layout v (l :: L)) (hc : l[i]? = some c) :
    Fat32.advance v c = (0, v) ∧ ¬ Spare v L (i + 2) ∨ ∃ d w l', Fat32.advance v c = (d, w) ∧
    d ≠ 0 ∧
      l'[i + 1]? = some d ∧ l <+: l' ∧ Layout w (l' :: L) ∧ Keeps v w l' ∧
      (v.fsinfo.nextFree < 2 ^ 32 → w.fsinfo.nextFree < 2 ^ 32) := by
  rcases hd : l[i + 1]? with _ | d
  · have heoc := h.entry_last hc hd
    have hlen : l.length = i + 1 := by
      have h1 := (List.getElem?_eq_some_iff.1 hc).1
      have h2 := List.getElem?_eq_none_iff.1 hd
      omega
    rcases (Layout.mk h.shape.cons_nil h.freeCount h.small).allocate with
      ⟨hfail, hfull⟩ | ⟨d, w, hok, hd0, hw, hk, hhint⟩
    · rw [advance_of_last heoc hfail]
      refine .inl ⟨rfl, fun hspare => hfull ⟨hspare.hint, ?_⟩⟩
      have := hspare.room
      rw [List.flatten_cons, List.length_append, hlen]
      omega
    · -- a new cluster, which is then linked to the last one
      have hlast : l.getLast? = some c := by
        rw [List.getLast?_eq_getElem?, hlen, Nat.add_sub_cancel, hc]
      obtain ⟨u, hset, hu, hku⟩ :=
        (Layout.mk (hw.shape.perm (List.Perm.swap ..)) hw.freeCount hw.small).link hlast
      rw [advance_of_last heoc hok, if_neg hd0, hset]
      refine .inr ⟨d, u, l ++ [d], rfl, hd0, ?_, List.prefix_append .., hu, ?_, fun _ => ?_⟩
      · rw [← hlen, List.getElem?_concat_length]
      · refine ⟨hku.mount.trans hk.mount, fun e he => ?_, fun a ha => ?_⟩
        · rw [List.mem_append, not_or] at he
          rw [hku.entries e he.1, hk.entries e he.2]
        · rw [hku.data a (by rwa [hk.mount]), hk.data a ha]
      · rw [setFatEntry_fsinfo hset]
        exact hhint
  · obtain ⟨hentry, hd2, hdlt⟩ := h.entry_next hc hd
    rw [← hentry] at hd2 hdlt hd
    rw [advance_of_next hd2 hdlt]
    refine .inr
      ⟨_, v, l, rfl, ?_, hd, List.prefix_rfl, h, ⟨rfl, fun _ _ => rfl, fun _ _ => rfl⟩, id⟩
    exact Nat.ne_of_gt (Nat.lt_of_lt_of_le Nat.two_pos hd2)

/-! ## Freeing a chain -/

lemma Keeps.trans {u : Volume} {l m : List ℕ} (h1 : Keeps v w l) (h2 : Keeps w u m) :
    Keeps v u (l ++ m) where
  mount := h2.mount.trans h1.mount
  entries c hc := by
    rw [List.mem_append, not_or] at hc
    rw [h2.entries c hc.2, h1.entries c hc.1]
  data a ha := by rw [h2.data a (by rwa [h1.mount]), h1.data a ha]

lemma freeLoop_of_next (fuel freed : ℕ) (h : 2 ≤ c) (hlt : c < eocMin)
    (hset : setFatEntry v c freeCluster = some w) :
    freeLoop (fuel + 1) v c freed = freeLoop fuel w (getFatEntry v c) (w32 (freed + 1)) := by
  rw [freeLoop, if_pos ⟨h, hlt⟩, hset]

lemma freeLoop_of_last (fuel freed : ℕ) (h : c < 2 ∨ eocMin ≤ c) :
    freeLoop fuel v c freed = some (some freed, v) := by
  cases fuel with
  | zero => exact if_neg (by omega)
  | succ fuel => exact if_neg (by omega)

lemma freeLoop_spec {l : List ℕ} : ∀ {v : Volume} (cluster fuel freed : ℕ), IsChain v l →
    (∀ c, l.head? = some c → cluster = c) → (l = [] → eocMin ≤ cluster) → l.length ≤ fuel →
    freed + l.length < 2 ^ 32 →
    ∃ disk, freeLoop fuel v cluster freed = some (some (freed + l.length), { v with disk }) ∧
      Keeps v { v with disk } l ∧ ∀ c ∈ l, getFatEntry { v with disk } c = freeCluster := by
  induction l with
  | nil =>
    intro v cluster fuel freed _ _ hend _ _
    refine ⟨v.disk, ?_, ⟨rfl, fun _ _ => rfl, fun _ _ => rfl⟩, nofun⟩
    simp [freeLoop_of_last fuel freed (.inr (hend rfl))]
  | cons c l ih =>
    intro v cluster fuel freed h hhead _ hfuel hfreed
    obtain rfl : cluster = c := hhead c rfl
    have hc := h.mem_clusters cluster (.head _)
    have hcl := (List.nodup_cons.1 h.nodup).1
    obtain ⟨h2, hlt⟩ := cluster_lt_eocMin h.small hc
    obtain ⟨disk, hset, hkeeps, hcell⟩ := setFatEntry_cell hc freeCluster
    obtain ⟨fuel, rfl⟩ : ∃ n, fuel = n + 1 :=
      Nat.exists_eq_add_one_of_ne_zero (by rintro rfl; exact nomatch hfuel)
    have hnext := h.linked.head
    rw [List.length_cons] at hfuel hfreed ⊢
    have hl' : IsChain { v with disk } l :=
      (h.of_append (k := [cluster])).congr rfl fun d hd => hkeeps.entries d
        (List.not_mem_cons_of_ne_of_not_mem (fun e => hcl (e ▸ hd)) List.not_mem_nil)
    have hhead' : ∀ d, l.head? = some d → getFatEntry v cluster = d := by
      intro d hd
      rw [hd] at hnext
      exact toCell_eq_next hnext
    have hend' : l = [] → eocMin ≤ getFatEntry v cluster := by
      rintro rfl
      exact toCell_eq_last.1 hnext
    obtain ⟨disk', hloop, hkeeps', hfree⟩ := ih (v := { v with disk }) (getFatEntry v cluster) fuel
      (freed + 1) hl' hhead' hend' (Nat.le_of_succ_le_succ hfuel) (by omega)
    refine ⟨disk', ?_, hkeeps.trans hkeeps', fun d hd => ?_⟩
    · rw [freeLoop_of_next fuel freed h2 hlt hset, w32_of_lt (by omega), hloop, Nat.add_assoc,
        Nat.add_comm 1]
    · rcases List.mem_cons.1 hd with rfl | hd
      · -- the entry was cleared in this round, and the others do not touch it
        refine (hkeeps'.entries d hcl).trans (toCell_eq_free.1 ?_)
        exact (congrFun hcell d).trans (update_self ..)
      · exact hfree d hd

lemma freeClusterChain_spec {l : List ℕ} (h : IsChain v (c :: l)) : ∃ disk, freeClusterChain v c =
        some (0, { v with disk, fsinfo := v.fsinfo.give (l.length + 1) }) ∧
      Keeps v { v with disk } (c :: l) ∧
      ∀ d ∈ c :: l, getFatEntry { v with disk } d = freeCluster := by
  have hlen := h.length_le
  have hlt := v.mount.totalClusters_lt
  obtain ⟨disk, hloop, hkeeps, hfree⟩ := freeLoop_spec c (v.mount.totalClusters + 1) 0 h
    (fun d hd => by simpa using hd) (fun hn => nomatch hn) (by omega) (by omega)
  have hc := h.mem_clusters c (.head _)
  rw [mem_clusters] at hc
  refine ⟨disk, ?_, hkeeps, hfree⟩
  rw [freeClusterChain, if_neg (Nat.not_lt.2 hc.1), hloop, Nat.zero_add, List.length_cons]

/-- The clusters of a chain become free, by induction along the chain. -/
lemma Layout.free {l : List ℕ} (h : Layout v ((c :: l) :: L)) :
    ∃ w, freeClusterChain v c = some (0, w) ∧ Layout w L ∧ Keeps v w (c :: l) := by
  obtain ⟨disk, hcall, hkeeps, hfree⟩ := freeClusterChain_spec (h.isChain (.head _))
  have hcells : ∀ d ∈ c :: l, cell { v with disk } d = .free :=
    fun d hd => toCell_eq_free.2 (hfree d hd)
  have hothers : ∀ d ∉ c :: l, cell { v with disk } d = cell v d :=
    fun d hd => congrArg toCell (hkeeps.entries d hd)
  refine ⟨{ v with disk, fsinfo := v.fsinfo.give (l.length + 1) }, hcall,
    ⟨h.shape.release hcells hothers, ?_, h.small⟩, ⟨rfl, hkeeps.entries, hkeeps.data⟩⟩
  have h1 := card_freeClusters_lt v
  have h2 := card_freeClusters_lt { v with disk }
  have h3 := h.freeCount
  have hcard := card_freeCells_release h.shape hcells hothers
  rw [← freeClusters_eq v, ← freeClusters_eq { v with disk }, List.length_cons] at hcard
  rw [FsInfo.give, if_pos (by omega)]
  show w32 (v.fsinfo.freeCount + (l.length + 1)) = (freeClusters { v with disk }).card
  rw [h3, ← hcard, w32_of_lt (by omega)]

end FrostByte.Fat32
