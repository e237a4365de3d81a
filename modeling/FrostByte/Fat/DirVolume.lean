import FrostByte.Fat.Directory
import FrostByte.Fat.FileData

/-!
# Directories on a FAT32 volume

The entries of a directory are the bytes of its clusters, 32 for each. This file has the calls that
look for a name, delete a file or a directory and update an entry, on a volume.

## Main definitions

* `decodeEntry`, `clusterEntries` — the entries that the bytes of a cluster hold.
* `Volume.directory` — the entries of a directory, cluster by cluster.
* `Volume.findInDir`, `Volume.deleteFile`, `Volume.updateDirEntry` — the calls on the volume.

## Main results

* `clusterEntries_eraseSlot`, `clusterEntries_updateSlot` — the entries after a change of the bytes.
* `editLoop_of_found` — the loop changes the first slot with the short name.
-/

namespace FrostByte.Fat32

open Chains Function Buffer

/-! ## Entries in a buffer -/

/-- Some bytes of a buffer. -/
def bytesAt (b : Buffer) (a n : ℕ) : List ℕ := (List.range n).map fun i => (b (a + i)).toNat

/-- Some 16-bit characters of a buffer. -/
def halvesAt (b : Buffer) (a n : ℕ) : List ℕ := (List.range n).map fun i => b.half (a + 2 * i)

/-- The 32 bytes from `a` on; the attribute 0x0F marks a long-name entry. -/
def decodeEntry (b : Buffer) (a : ℕ) : DirEntry :=
  if h : (b (a + 11)).toNat = 0x0F then
    .long
      { order := (b a).toNat
        name1 := halvesAt b (a + 1) 5
        checksum := (b (a + 13)).toNat
        name2 := halvesAt b (a + 14) 6
        name3 := halvesAt b (a + 28) 2 }
  else
    .short
      { name := bytesAt b a 11
        attr := (b (a + 11)).toNat
        createTime := b.half (a + 14)
        createDate := b.half (a + 16)
        accessDate := b.half (a + 18)
        firstClusterHi := b.half (a + 20)
        writeTime := b.half (a + 22)
        writeDate := b.half (a + 24)
        firstClusterLo := b.half (a + 26)
        fileSize := b.word (a + 28)
        attr_ne := h }

/-- The entries of a cluster that was read into a buffer. -/
def clusterEntries (m : Mount) (b : Buffer) : List DirEntry :=
  (List.range (m.bytesPerCluster / 32)).map fun i => decodeEntry b (i * 32)

/-- The first cluster, from its two halves. -/
def ShortEntry.cluster (e : ShortEntry) : ℕ := e.firstClusterHi * 0x10000 + e.firstClusterLo

/-- Mark the long-name entries right before slot `i` as deleted. -/
def eraseLfn (b : Buffer) : ℕ → Buffer
  | 0 => b
  | j + 1 => if (b (j * 32 + 11)).toNat = 0x0F then eraseLfn (update b (j * 32) 0xE5) j else b

/-- Mark slot `i` and its long-name entries as deleted. -/
def eraseSlot (b : Buffer) (i : ℕ) : Buffer := eraseLfn (update b (i * 32) 0xE5) i

/-- Store the size, cluster, attribute and time of writing in slot `i`. -/
def updateSlot (b : Buffer) (i : ℕ) (e : ShortEntry) (stamp : ℕ × ℕ) : Buffer :=
  let b := b.setWord (i * 32 + 28) e.fileSize
  let b := b.setHalf (i * 32 + 20) e.firstClusterHi
  let b := b.setHalf (i * 32 + 26) e.firstClusterLo
  let b : Buffer := update b (i * 32 + 11) (UInt8.ofNat e.attr)
  let b := b.setHalf (i * 32 + 24) stamp.1
  b.setHalf (i * 32 + 22) stamp.2

/-! ## The calls -/

namespace Volume

/-- The first `n` clusters of a directory. -/
def dirClusters (v : Volume) : ℕ → ℕ → List ℕ
  | 0, _ => []
  | n + 1, cluster =>
    let next := getFatEntry v cluster
    cluster :: if next < 2 ∨ eocMin ≤ next then [] else v.dirClusters n next

/-- The entries of a cluster as the iterator reads them. A cluster that cannot be read ends the
directory, and so do zeros. -/
def entries (v : Volume) (cluster : ℕ) : List DirEntry :=
  clusterEntries v.mount ((readCluster v cluster fun _ => 0).getD fun _ => 0)

/-- The entries of a directory, one list for each cluster of its chain. -/
def directory (v : Volume) (cluster : ℕ) : List (List DirEntry) :=
  (v.dirClusters v.mount.totalClusters cluster).map v.entries

/-- `fat32_find_in_dir`, with or without memory for the iterator. -/
def findInDir (v : Volume) (dirCluster : ℕ) (name : List ℕ) (memory : Bool) : FindResult :=
  if dirCluster < 2 ∨ memory = false then .notFound
  else Fat32.findInDir name (v.directory dirCluster)

/-- The loop of the functions that change an entry. An unused slot ends the search in its cluster,
and with `stop` altogether. -/
def editLoop (edit : Buffer → ℕ → Buffer) (stop : Bool) (target : List ℕ) :
    ℕ → Volume → ℕ → Buffer → Bool × Volume
  | 0, v, _, _ => (false, v)
  | n + 1, v, cluster, clusterBuf =>
    if 2 ≤ cluster ∧ cluster < eocMin then
      match readCluster v cluster clusterBuf with
      | none => (false, v)
      | some clusterBuf =>
        let entries := clusterEntries v.mount clusterBuf
        match findShort target entries with
        | some i =>
          match writeCluster v cluster (edit clusterBuf i) with
          | none => (false, v)
          | some v => (true, v)
        | none =>
          if stop && entries.any fun e => e.first = 0 then (false, v)
          else
            let next := getFatEntry v cluster
            if next < 2 ∨ eocMin ≤ next then (false, v)
            else editLoop edit stop target n v next clusterBuf
    else (false, v)

/-- Free the chain of an entry that was deleted; a failure is ignored. -/
def freeStart (v : Volume) (start : ℕ) : Option (ℤ × Volume) :=
  if 2 ≤ start ∧ start < eocMin then (freeClusterChain v start).map fun r => (0, r.2)
  else some (0, v)

/-- The end of the deleting functions. -/
def deleteFound (v : Volume) (dirCluster : ℕ) (e : ShortEntry) (clusterBuf : Buffer) :
    Option (ℤ × Volume) :=
  let result := editLoop eraseSlot false e.name v.mount.totalClusters v dirCluster clusterBuf
  if result.1 then result.2.freeStart e.cluster else some (-1, result.2)

/-- `fat32_delete_file`: the first entry with the short name goes, and the chain of the one
found. -/
def deleteFile (v : Volume) (dirCluster : ℕ) (filename : List ℕ) (memory : Bool)
    (kmalloc : Option Buffer) : Option (ℤ × Volume) :=
  if dirCluster < 2 then some (-1, v)
  else
    match v.findInDir dirCluster filename memory with
    | .overflow => none
    | .notFound => some (-1, v)
    | .found e =>
      if e.attr.testBit 4 then some (-1, v)
      else
        match kmalloc with
        | none => some (-1, v)
        | some clusterBuf => v.deleteFound dirCluster e clusterBuf

/-- The entries `.` and `..`, by the first characters of the short name. -/
def isDots (e : ShortEntry) : Bool :=
  e.name.getD 0 0 = '.'.toNat && (e.name.getD 1 0 = ' '.toNat ||
    e.name.getD 1 0 = '.'.toNat && e.name.getD 2 0 = ' '.toNat)

/-- An entry of a directory that may be removed with it. -/
def removable : DirEntry → Bool
  | .long _ => true
  | .short e => DirEntry.first (.short e) = 0xE5 || e.attr.testBit 3 || isDots e

/-- Whether a directory has no entries. -/
def emptyLoop (v : Volume) : ℕ → ℕ → Buffer → Bool
  | 0, cluster, _ => !(decide (2 ≤ cluster) && decide (cluster < eocMin))
  | n + 1, cluster, clusterBuf =>
    if 2 ≤ cluster ∧ cluster < eocMin then
      match readCluster v cluster clusterBuf with
      | none => false
      | some clusterBuf =>
        if ((clusterEntries v.mount clusterBuf).takeWhile fun e => e.first ≠ 0).all removable then
          let next := getFatEntry v cluster
          if next < 2 ∨ eocMin ≤ next then true else v.emptyLoop n next clusterBuf
        else false
    else true

/-- `fat32_delete_directory`, for a directory without entries. -/
def deleteDirectory (v : Volume) (parentCluster : ℕ) (dirname : List ℕ) (memory : Bool)
    (kmalloc : Option Buffer) : Option (ℤ × Volume) :=
  if parentCluster < 2 then some (-1, v)
  else
    match v.findInDir parentCluster dirname memory with
    | .overflow => none
    | .notFound => some (-1, v)
    | .found e =>
      if e.attr.testBit 4 then
        match kmalloc with
        | none => some (-1, v)
        | some clusterBuf =>
          if v.emptyLoop v.mount.totalClusters e.cluster clusterBuf then
            v.deleteFound parentCluster e clusterBuf
          else some (-1, v)
      else some (-1, v)

/-- `fat32_update_dir_entry`: whether it returns `0`. -/
def updateDirEntry (v : Volume) (parentCluster : ℕ) (e : ShortEntry) (stamp : ℕ × ℕ)
    (kmalloc : Option Buffer) : Bool × Volume :=
  if parentCluster < 2 then (false, v)
  else
    match kmalloc with
    | none => (false, v)
    | some clusterBuf =>
      editLoop (fun b i => updateSlot b i e stamp) true e.name v.mount.totalClusters v parentCluster
        clusterBuf

end Volume

/-! ## Entries after a change of the buffer -/

variable {k : ℕ} {target : List ℕ}

section

variable {b c : Buffer} {m : Mount} {a e i j : ℕ}

lemma decodeEntry_congr (h : ∀ k < 32, b (a + k) = c (e + k)) :
    decodeEntry b a = decodeEntry c e := by
  have byte : ∀ k < 32, (b (a + k)).toNat = (c (e + k)).toNat := fun k hk => congrArg _ (h k hk)
  have half : ∀ k < 31, b.half (a + k) = c.half (e + k) := by
    intro k hk
    refine half_congr fun j hj => ?_
    rw [Nat.add_assoc, Nat.add_assoc]
    exact h _ (by omega)
  have halves : ∀ k n, k + 2 * n ≤ 32 → halvesAt b (a + k) n = halvesAt c (e + k) n := by
    intro k n hn
    refine List.map_congr_left fun i hi => ?_
    rw [List.mem_range] at hi
    rw [Nat.add_assoc, Nat.add_assoc]
    exact half _ (by omega)
  have hname : bytesAt b a 11 = bytesAt c e 11 := by
    refine List.map_congr_left fun i hi => ?_
    rw [List.mem_range] at hi
    exact byte i (by omega)
  have hsize : b.word (a + 28) = c.word (e + 28) := by
    refine word_congr fun j hj => ?_
    rw [Nat.add_assoc, Nat.add_assoc]
    exact h _ (by omega)
  have h0 : (b a).toNat = (c e).toNat := byte 0 (by decide)
  unfold decodeEntry
  simp [byte 11 (by decide), byte 13 (by decide), halves 1 5 (by decide), halves 14 6 (by decide),
    halves 28 2 (by decide), hname, half 14 (by decide), half 16 (by decide), half 18 (by decide),
    half 20 (by decide), half 22 (by decide), half 24 (by decide), half 26 (by decide), hsize, h0]

lemma clusterEntries_congr (h : ∀ k < m.bytesPerCluster, b k = c k) :
    clusterEntries m b = clusterEntries m c := by
  refine List.map_congr_left fun i hi => decodeEntry_congr fun k hk => h _ ?_
  rw [List.mem_range] at hi
  omega

lemma isLong_decodeEntry (b : Buffer) (a : ℕ) :
    (decodeEntry b a).isLong = true ↔ (b (a + 11)).toNat = 0x0F := by
  unfold decodeEntry
  split_ifs with h
  · exact ⟨fun _ => h, fun _ => rfl⟩
  · exact ⟨nofun, h.elim⟩

lemma bytesAt_succ (b : Buffer) (a n : ℕ) :
    bytesAt b a (n + 1) = (b a).toNat :: bytesAt b (a + 1) n := by
  rw [bytesAt, List.range_succ_eq_map, List.map_cons, List.map_map]
  refine congrArg _ (List.map_congr_left fun i _ => ?_)
  rw [comp_apply, Nat.add_assoc, Nat.add_comm 1]

lemma decodeEntry_update (b : Buffer) (a : ℕ) :
    decodeEntry (update b a 0xE5) a = (decodeEntry b a).delete := by
  have keep : ∀ k, 0 < k → update b a 0xE5 (a + k) = b (a + k) :=
    fun k hk => update_of_ne (by omega) ..
  have half : ∀ k, 0 < k → half (update b a 0xE5) (a + k) = b.half (a + k) := by
    intro k hk
    refine half_congr fun j hj => ?_
    rw [Nat.add_assoc]
    exact keep _ (by omega)
  have halves : ∀ k n, 0 < k → halvesAt (update b a 0xE5) (a + k) n = halvesAt b (a + k) n := by
    intro k n hk
    refine List.map_congr_left fun i hi => ?_
    rw [Nat.add_assoc]
    exact half _ (by omega)
  have hname : bytesAt (update b a 0xE5) a 11 = 0xE5 :: (bytesAt b a 11).tail := by
    rw [bytesAt_succ _ _ 10, bytesAt_succ b _ 10, update_self, List.tail_cons]
    refine congrArg _ (List.map_congr_left fun i hi => ?_)
    rw [Nat.add_assoc, keep _ (by omega)]
  have hsize : word (update b a 0xE5) (a + 28) = b.word (a + 28) := by
    refine word_congr fun j hj => ?_
    rw [Nat.add_assoc]
    exact keep _ (by omega)
  have h0 : update b a 0xE5 a = 0xE5 := update_self ..
  unfold decodeEntry
  simp only [keep 11 (by decide), keep 13 (by decide), halves 1 5 (by decide),
    halves 14 6 (by decide), halves 28 2 (by decide), hname, half 14 (by decide),
    half 16 (by decide), half 18 (by decide), half 20 (by decide), half 22 (by decide),
    half 24 (by decide), half 26 (by decide), hsize, h0]
  split_ifs with h
  · rfl
  · rfl

lemma length_clusterEntries (m : Mount) (b : Buffer) :
    (clusterEntries m b).length = m.bytesPerCluster / 32 := by
  simp [clusterEntries]

lemma getElem?_clusterEntries (hi : i < m.bytesPerCluster / 32) :
    (clusterEntries m b)[i]? = some (decodeEntry b (i * 32)) := by
  rw [clusterEntries, List.getElem?_map, List.getElem?_range hi]
  rfl

lemma clusterEntries_set {x : DirEntry} (hi : i < m.bytesPerCluster / 32)
    (hx : decodeEntry c (i * 32) = x) (h : ∀ k, ¬(i * 32 ≤ k ∧ k < i * 32 + 32) → c k = b k) :
    clusterEntries m c = (clusterEntries m b).set i x := by
  refine List.ext_getElem? fun j => ?_
  rw [List.getElem?_set, length_clusterEntries]
  rcases Nat.lt_or_ge j (m.bytesPerCluster / 32) with hj | hj
  · rw [getElem?_clusterEntries hj, getElem?_clusterEntries hj]
    split_ifs with hij
    · rw [← hij, hx]
    · refine congrArg some (decodeEntry_congr fun k hk => h _ ?_)
      omega
  · have hlen : ∀ b, (clusterEntries m b)[j]? = none := fun b =>
      List.getElem?_eq_none (by rwa [length_clusterEntries])
    rw [hlen, hlen, if_neg (by omega)]

lemma clusterEntries_eraseLfn (m : Mount) : ∀ (i : ℕ) (b : Buffer), i ≤ m.bytesPerCluster / 32 →
    clusterEntries m (eraseLfn b i) =
      ((((clusterEntries m b).take i).reverse.dropWhile DirEntry.isLong).reverse ++
        ((((clusterEntries m b).take i).reverse.takeWhile DirEntry.isLong).map
          DirEntry.delete).reverse) ++ (clusterEntries m b).drop i := by
  intro i
  induction i with
  | zero =>
    intro b _
    rfl
  | succ j ih =>
    intro b hj
    have hget := getElem?_clusterEntries (m := m) (b := b) (i := j) (by omega)
    have htake : ((clusterEntries m b).take (j + 1)).reverse =
        decodeEntry b (j * 32) :: ((clusterEntries m b).take j).reverse := by
      rw [List.take_add_one, hget, Option.toList_some, List.reverse_append, List.reverse_singleton,
        List.singleton_append]
    have hlong := isLong_decodeEntry b (j * 32)
    rw [eraseLfn, htake]
    split_ifs with h
    · -- the slot is marked, and the loop goes on before it
      have hset : clusterEntries m (update b (j * 32) 0xE5) =
          (clusterEntries m b).set j (decodeEntry b (j * 32)).delete :=
        clusterEntries_set (by omega) (decodeEntry_update b _)
          fun k hk => update_of_ne (by omega) ..
      have hdrop : ((clusterEntries m b).set j (decodeEntry b (j * 32)).delete).drop j =
          (decodeEntry b (j * 32)).delete :: (clusterEntries m b).drop (j + 1) := by
        rw [List.drop_set, if_neg (Nat.lt_irrefl j), Nat.sub_self, List.drop_eq_getElem_cons (by
          rw [length_clusterEntries]; omega), List.set_cons_zero]
      rw [ih _ (by omega), hset, List.take_set_of_le le_rfl, hdrop,
        List.takeWhile_cons_of_pos (hlong.2 h), List.dropWhile_cons_of_pos (hlong.2 h),
        List.map_cons, List.reverse_cons]
      simp
    · -- the loop ends
      have hnot : ¬ (decodeEntry b (j * 32)).isLong = true := fun h0 => h (hlong.1 h0)
      rw [List.dropWhile_cons_of_neg hnot, List.takeWhile_cons_of_neg hnot, List.map_nil,
        List.reverse_nil, List.append_nil, ← htake, List.reverse_reverse, List.take_append_drop]

/-- Erasing on the bytes of a cluster is `eraseAt` on its entries. -/
lemma clusterEntries_eraseSlot (b : Buffer) (hi : i < m.bytesPerCluster / 32) :
    clusterEntries m (eraseSlot b i) = eraseAt (clusterEntries m b) i := by
  have hset : clusterEntries m (update b (i * 32) 0xE5) =
      (clusterEntries m b).set i (decodeEntry b (i * 32)).delete :=
    clusterEntries_set hi (decodeEntry_update b _) fun k hk => update_of_ne (by omega) ..
  have hget := getElem?_clusterEntries (b := b) hi
  have hlt : i < (clusterEntries m b).length := by rwa [length_clusterEntries]
  rw [List.getElem?_eq_getElem hlt, Option.some_inj] at hget
  rw [eraseSlot, clusterEntries_eraseLfn m i _ hi.le, hset, List.take_set_of_le le_rfl,
    List.drop_set,
    if_neg (Nat.lt_irrefl i), Nat.sub_self, List.drop_eq_getElem_cons hlt, List.set_cons_zero,
    eraseAt, List.drop_eq_getElem_cons hlt, hget, List.modifyHead_cons]

/-- The entry in the slot after `fat32_update_dir_entry`: the name and the date of creation stay. -/
def ShortEntry.updated (s e : ShortEntry) (stamp : ℕ × ℕ) : ShortEntry :=
  { s with
    fileSize := e.fileSize
    firstClusterHi := e.firstClusterHi
    firstClusterLo := e.firstClusterLo
    attr := e.attr
    attr_ne := e.attr_ne
    writeDate := stamp.1
    writeTime := stamp.2 }

/-- The fields of an entry have the widths of the source. -/
structure ShortEntry.Fits (e : ShortEntry) : Prop where
  attr : e.attr < 2 ^ 8
  firstClusterHi : e.firstClusterHi < 2 ^ 16
  firstClusterLo : e.firstClusterLo < 2 ^ 16
  fileSize : e.fileSize < 2 ^ 32

section

variable (b : Buffer) (i : ℕ) (e : ShortEntry) (stamp : ℕ × ℕ)

lemma updateSlot_head (hk : k < i * 32 + 20) (h11 : k ≠ i * 32 + 11) :
    updateSlot b i e stamp k = b k := by
  unfold updateSlot setHalf setWord
  rw [if_neg (by omega), if_neg (by omega), update_of_ne h11, if_neg (by omega), if_neg (by omega),
    if_neg (by omega)]

lemma updateSlot_of_notMem (hk : ¬(i * 32 ≤ k ∧ k < i * 32 + 32)) :
    updateSlot b i e stamp k = b k := by
  unfold updateSlot setHalf setWord
  rw [if_neg (by omega), if_neg (by omega), update_of_ne (by omega), if_neg (by omega),
    if_neg (by omega), if_neg (by omega)]

lemma updateSlot_attr : updateSlot b i e stamp (i * 32 + 11) = UInt8.ofNat e.attr := by
  unfold updateSlot setHalf
  rw [if_neg (by omega), if_neg (by omega), update_self]

lemma half_updateSlot_hi (h : e.firstClusterHi < 2 ^ 16) :
    (updateSlot b i e stamp).half (i * 32 + 20) = e.firstClusterHi := by
  rw [← half_setHalf (a := i * 32 + 20) (b.setWord (i * 32 + 28) e.fileSize) h]
  refine half_congr fun k hk => ?_
  unfold updateSlot
  rw [setHalf, if_neg (by omega), setHalf, if_neg (by omega), update_of_ne (by omega),
    setHalf, if_neg (by omega)]

lemma half_updateSlot_time (h : stamp.2 < 2 ^ 16) :
    (updateSlot b i e stamp).half (i * 32 + 22) = stamp.2 :=
  half_setHalf _ h

lemma half_updateSlot_date (h : stamp.1 < 2 ^ 16) :
    (updateSlot b i e stamp).half (i * 32 + 24) = stamp.1 :=
  (half_setHalf_of_disjoint _ (by omega)).trans (half_setHalf _ h)

lemma half_updateSlot_lo (h : e.firstClusterLo < 2 ^ 16) :
    (updateSlot b i e stamp).half (i * 32 + 26) = e.firstClusterLo := by
  rw [← half_setHalf (a := i * 32 + 26)
    ((b.setWord (i * 32 + 28) e.fileSize).setHalf (i * 32 + 20) e.firstClusterHi) h]
  refine half_congr fun k hk => ?_
  unfold updateSlot
  rw [setHalf, if_neg (by omega), setHalf, if_neg (by omega), update_of_ne (by omega)]

lemma word_updateSlot_size (h : e.fileSize < 2 ^ 32) :
    (updateSlot b i e stamp).word (i * 32 + 28) = e.fileSize := by
  rw [← word_setWord (a := i * 32 + 28) b h]
  refine word_congr fun k hk => ?_
  unfold updateSlot
  rw [setHalf, if_neg (by omega), setHalf, if_neg (by omega), update_of_ne (by omega),
    setHalf, if_neg (by omega), setHalf, if_neg (by omega)]

end

lemma decodeEntry_updateSlot {s e : ShortEntry} {stamp : ℕ × ℕ}
    (hs : decodeEntry b (i * 32) = .short s)
    (he : e.Fits) (h1 : stamp.1 < 2 ^ 16) (h2 : stamp.2 < 2 ^ 16) :
    decodeEntry (updateSlot b i e stamp) (i * 32) = .short (s.updated e stamp) := by
  have hattr : (updateSlot b i e stamp (i * 32 + 11)).toNat = e.attr := by
    rw [updateSlot_attr, UInt8.toNat_ofNat_of_lt' he.attr]
  have half : ∀ k, 11 < k → k < 19 →
      (updateSlot b i e stamp).half (i * 32 + k) = b.half (i * 32 + k) := by
    intro k hk1 hk2
    exact half_congr fun j hj => updateSlot_head b i e stamp (by omega) (by omega)
  have hname : bytesAt (updateSlot b i e stamp) (i * 32) 11 = bytesAt b (i * 32) 11 := by
    refine List.map_congr_left fun j hj => ?_
    rw [List.mem_range] at hj
    rw [updateSlot_head b i e stamp (by omega) (by omega)]
  unfold decodeEntry at hs ⊢
  rw [dif_neg (by rw [hattr]; exact e.attr_ne)]
  split_ifs at hs with h
  simp only [hattr, hname, half 14 (by decide) (by decide), half 16 (by decide) (by decide),
    half 18 (by decide) (by decide), half_updateSlot_hi b i e stamp he.firstClusterHi,
    half_updateSlot_time b i e stamp h2, half_updateSlot_date b i e stamp h1,
    half_updateSlot_lo b i e stamp he.firstClusterLo, word_updateSlot_size b i e stamp he.fileSize]
  rw [← DirEntry.short.inj hs]
  rfl

/-- Updating the bytes of a slot changes this entry only. -/
lemma clusterEntries_updateSlot {s e : ShortEntry} {stamp : ℕ × ℕ} (hi : i < m.bytesPerCluster / 32)
    (hs : (clusterEntries m b)[i]? = some (.short s)) (he : e.Fits) (h1 : stamp.1 < 2 ^ 16)
    (h2 : stamp.2 < 2 ^ 16) : clusterEntries m (updateSlot b i e stamp) =
      (clusterEntries m b).set i (.short (s.updated e stamp)) := by
  rw [getElem?_clusterEntries hi, Option.some_inj] at hs
  exact clusterEntries_set hi (decodeEntry_updateSlot hs he h1 h2)
    fun k hk => updateSlot_of_notMem b i e stamp hk

end

/-! ## The clusters of a directory -/

section

variable {v w : Volume} {l : List ℕ} {c i : ℕ}

lemma dirClusters_eq (h : IsChain v l) : ∀ (n : ℕ) {c i : ℕ}, l[i]? = some c →
    l.length ≤ i + n → v.dirClusters n c = l.drop i := by
  intro n
  induction n with
  | zero =>
    intro c i hc hn
    have := (List.getElem?_eq_some_iff.1 hc).1
    omega
  | succ n ih =>
    intro c i hc hn
    obtain ⟨hi, hget⟩ := List.getElem?_eq_some_iff.1 hc
    rw [List.drop_eq_getElem_cons hi, hget]
    refine congrArg (c :: ·) ?_
    rcases hd : l[i + 1]? with _ | d
    · rw [List.drop_eq_nil_of_le (List.getElem?_eq_none_iff.1 hd)]
      exact if_pos (.inr (h.entry_last hc hd))
    · obtain ⟨hentry, h2, heoc⟩ := h.entry_next hc hd
      rw [hentry]
      refine (if_neg (not_or.2 ⟨Nat.not_lt.2 h2, Nat.not_le.2 heoc⟩)).trans ?_
      exact ih hd (by omega)

lemma directory_eq (h : IsChain v (c :: l)) : v.directory c = (c :: l).map v.entries := by
  have hlen := h.length_le
  simp [Volume.directory, dirClusters_eq h v.mount.totalClusters (i := 0) rfl (by omega)]

lemma clusterEntries_copy (clusterBuf : Buffer) :
    clusterEntries v.mount
    (clusterBuf.copy 0 v.disk (v.mount.clusterAddr c) v.mount.bytesPerCluster) =
      clusterEntries v.mount (clusterByte v c) := by
  refine clusterEntries_congr fun k hk => ?_
  rw [copy_of_mem _ _ (Nat.zero_le k) (by omega)]
  rfl

lemma entries_eq (hs : v.mount.Small) (hc : c ∈ v.mount.clusters) :
    v.entries c = clusterEntries v.mount (clusterByte v c) := by
  rw [Volume.entries, readCluster_eq hs hc, Option.getD_some, clusterEntries_copy]

lemma entries_congr (hs : v.mount.Small) (hc : c ∈ v.mount.clusters) (hm : w.mount = v.mount)
    (h : ∀ j < v.mount.bytesPerCluster, clusterByte w c j = clusterByte v c j) :
    w.entries c = v.entries c := by
  rw [entries_eq hs hc, entries_eq (hm ▸ hs) (hm ▸ hc), hm]
  exact clusterEntries_congr h

lemma clusterEntries_read (hs : v.mount.Small) (hc : c ∈ v.mount.clusters) (clusterBuf : Buffer) :
    clusterEntries v.mount
    (clusterBuf.copy 0 v.disk (v.mount.clusterAddr c) v.mount.bytesPerCluster) =
      v.entries c := by
  rw [entries_eq hs hc, clusterEntries_copy]

/-- What `editLoop` finds: the first cluster that has the short name. -/
structure FoundAt (v : Volume) (l : List ℕ) (target : List ℕ) (i k d j : ℕ) : Prop where
  le : i ≤ k
  cluster : l[k]? = some d
  slot : findShort target (v.entries d) = some j
  first : ∀ k' c, i ≤ k' → k' < k → l[k']? = some c → findShort target (v.entries c) = none

lemma editLoop_of_some (edit : Buffer → ℕ → Buffer) (stop : Bool) (n : ℕ) {j : ℕ}
    (clusterBuf : Buffer) (hsmall : v.mount.Small) (hc : c ∈ v.mount.clusters)
    (hj : findShort target (v.entries c) = some j) :
    ∃ buf, clusterEntries v.mount buf = v.entries c ∧
      Volume.editLoop edit stop target (n + 1) v c clusterBuf =
      (true, v.putCluster c (edit buf j)) := by
  obtain ⟨h2, heoc⟩ := cluster_lt_eocMin hsmall hc
  refine ⟨clusterBuf.copy 0 v.disk (v.mount.clusterAddr c) v.mount.bytesPerCluster,
    clusterEntries_read hsmall hc _, ?_⟩
  rw [Volume.editLoop, if_pos ⟨h2, heoc⟩, readCluster_eq hsmall hc]
  dsimp only
  rw [clusterEntries_read hsmall hc, hj]
  dsimp only
  rw [writeCluster_eq hsmall hc]

lemma editLoop_of_none (edit : Buffer → ℕ → Buffer) (stop : Bool) (n : ℕ)
    (clusterBuf : Buffer) (hsmall : v.mount.Small) (hc : c ∈ v.mount.clusters)
    (hj : findShort target (v.entries c) = none)
    (hstop : stop = true → ∀ e ∈ v.entries c, e.first ≠ 0) :
    ∃ buf, Volume.editLoop edit stop target (n + 1) v c clusterBuf =
      if getFatEntry v c < 2 ∨ eocMin ≤ getFatEntry v c then (false, v)
      else Volume.editLoop edit stop target n v (getFatEntry v c) buf := by
  obtain ⟨h2, heoc⟩ := cluster_lt_eocMin hsmall hc
  refine ⟨clusterBuf.copy 0 v.disk (v.mount.clusterAddr c) v.mount.bytesPerCluster, ?_⟩
  have hgo : ¬(stop && (v.entries c).any fun e => e.first = 0) = true := by
    rw [Bool.and_eq_true, List.any_eq_true]
    rintro ⟨hs, e, he, h0⟩
    exact hstop hs e he (of_decide_eq_true h0)
  rw [Volume.editLoop, if_pos ⟨h2, heoc⟩, readCluster_eq hsmall hc]
  dsimp only
  rw [clusterEntries_read hsmall hc, hj]
  exact if_neg hgo

/-- The loop comes to the cluster with the entry and changes its slot there, by induction on the
clusters that are left. -/
lemma editLoop_of_found (h : IsChain v l) (edit : Buffer → ℕ → Buffer) (stop : Bool) {d j : ℕ} :
    ∀ (n : ℕ) {c i : ℕ} (clusterBuf : Buffer), l[i]? = some c →
    l.length ≤ i + n → FoundAt v l target i k d j →
    (stop = true → ∀ k' c, i ≤ k' → k' < k → l[k']? = some c → ∀ e ∈ v.entries c, e.first ≠ 0) →
    ∃ buf, clusterEntries v.mount buf = v.entries d ∧
      Volume.editLoop edit stop target n v c clusterBuf = (true, v.putCluster d (edit buf j)) := by
  intro n
  induction n with
  | zero =>
    intro c i _ hc hn
    have := (List.getElem?_eq_some_iff.1 hc).1
    omega
  | succ n ih =>
    intro c i clusterBuf hc hn hf hstop
    have hcl := h.mem_clusters c (List.mem_of_getElem? hc)
    rcases Nat.eq_or_lt_of_le hf.le with rfl | hlt
    · obtain rfl : c = d := Option.some_inj.1 (hc.symm.trans hf.cluster)
      exact editLoop_of_some edit stop n clusterBuf h.small hcl hf.slot
    · -- not here: the next cluster is there, since the chain goes on
      have hk := (List.getElem?_eq_some_iff.1 hf.cluster).1
      have hd := List.getElem?_eq_getElem (show i + 1 < l.length by omega)
      obtain ⟨hentry, h2, heoc⟩ := h.entry_next hc hd
      obtain ⟨buf, hstep⟩ := editLoop_of_none edit stop n clusterBuf h.small hcl
        (hf.first i c le_rfl hlt hc) fun hs => hstop hs i c le_rfl hlt hc
      rw [hstep, hentry, if_neg (not_or.2 ⟨Nat.not_lt.2 h2, Nat.not_le.2 heoc⟩)]
      exact ih buf hd (by omega)
        ⟨hlt, hf.cluster, hf.slot, fun k' c hk' => hf.first k' c (by omega)⟩
        fun hs k' c hk' => hstop hs k' c (by omega)

lemma editLoop_of_forall (h : IsChain v l) (edit : Buffer → ℕ → Buffer) :
    ∀ (n : ℕ) {c i : ℕ} (clusterBuf : Buffer), l[i]? = some c →
    (∀ k d, i ≤ k → l[k]? = some d → findShort target (v.entries d) = none) →
    Volume.editLoop edit false target n v c clusterBuf = (false, v) := by
  intro n
  induction n with
  | zero => exact fun _ _ _ => rfl
  | succ n ih =>
    intro c i clusterBuf hc hnone
    have hcl := h.mem_clusters c (List.mem_of_getElem? hc)
    obtain ⟨buf, hstep⟩ := editLoop_of_none edit false n clusterBuf h.small hcl
      (hnone i c le_rfl hc) nofun
    rw [hstep]
    rcases hd : l[i + 1]? with _ | d
    · exact if_pos (.inr (h.entry_last hc hd))
    · obtain ⟨hentry, h2, heoc⟩ := h.entry_next hc hd
      rw [hentry, if_neg (not_or.2 ⟨Nat.not_lt.2 h2, Nat.not_le.2 heoc⟩)]
      exact ih buf hd fun k d hk => hnone k d (by omega)

lemma exists_foundAt (v : Volume) (l target : List ℕ) : (∃ k d j, FoundAt v l target 0 k d j) ∨
      ∀ k d, 0 ≤ k → l[k]? = some d → findShort target (v.entries d) = none := by
  rw [or_iff_not_imp_right]
  intro hnot
  push Not at hnot
  obtain ⟨k, d, -, hd, hsome⟩ := hnot
  have hex : ∃ k d, l[k]? = some d ∧ findShort target (v.entries d) ≠ none := ⟨k, d, hd, hsome⟩
  classical
  obtain ⟨d, hd, hsome⟩ := Nat.find_spec hex
  obtain ⟨j, hj⟩ := Option.ne_none_iff_exists'.1 hsome
  refine ⟨Nat.find hex, d, j, Nat.zero_le _, hd, hj, fun k' c _ hk' hc => ?_⟩
  by_contra hne
  exact Nat.find_min hex hk' ⟨c, hc, hne⟩

lemma directory_putCluster {d : ℕ} {buf : Buffer} (h : IsChain v (c :: l))
    (hd : (c :: l)[k]? = some d) :
    (v.putCluster d buf).directory c = (v.directory c).set k (clusterEntries v.mount buf) := by
  have hdm := h.mem_clusters d (List.mem_of_getElem? hd)
  have hchain : IsChain (v.putCluster d buf) (c :: l) :=
    h.congr rfl fun e _ => congrFun (getFatEntry_putCluster hdm buf) e
  obtain ⟨hk, hget⟩ := List.getElem?_eq_some_iff.1 hd
  rw [directory_eq hchain, directory_eq h]
  refine List.ext_getElem? fun j => ?_
  rw [List.getElem?_set, List.length_map, List.getElem?_map, List.getElem?_map]
  rcases eq_or_ne k j with rfl | hne
  · rw [if_pos rfl, if_pos hk, hd]
    refine congrArg some ((entries_eq hchain.small hdm).trans (clusterEntries_congr fun x hx => ?_))
    exact clusterByte_putCluster_self buf hx
  · rw [if_neg hne]
    rcases he : (c :: l)[j]? with _ | e
    · rfl
    · have hem := h.mem_clusters e (List.mem_of_getElem? he)
      refine congrArg some (entries_congr h.small hem rfl fun x hx => ?_)
      refine clusterByte_putCluster_of_ne hdm hem ?_ buf hx
      rintro rfl
      -- no cluster is in the chain twice
      obtain ⟨hj, hget'⟩ := List.getElem?_eq_some_iff.1 he
      exact hne (h.nodup.getElem_inj_iff.1 (hget.trans hget'.symm))

end

end FrostByte.Fat32
