import FrostByte.Fat.Names
import FrostByte.Fat16.Directory
import FrostByte.Lib.Run

/-!
# The root directory of a FAT16 volume as a finite map

As long as no entry stands behind the first slot that was never used, and names are unique, a search
finds the entry of a name wherever it is. Both are kept by every operation, so the directory is a
finite map from names of eight and three characters to entries.

## Main definitions

* `createFile`, `deleteFileRoot`, `findFile` — the calls on the root directory.
* `RootDir` — no entry behind the first unused slot, and names are unique.
* `rootRuns` — creating and deleting files, with the map they should make.

## Main results

* `findFile_of_reach` — in every run a search gives what the map has.
* `deleteFileRoot_padding` — a deletion that does not return.
-/

namespace FrostByte.Fat16

open Word Function
open Fat32 (toUpper field)

/-! ## The model -/

/-- `fat16_to_83_name`: eight characters, and three behind the first dot. -/
def to83Name (name : List ℕ) : List ℕ :=
  field 8 (((name.takeWhile (· ≠ '.'.toNat)).take 8).map toUpper) ++
    field 3 ((((name.dropWhile (· ≠ '.'.toNat)).drop 1).take 3).map toUpper)

/-- `fat16_find_file`. -/
def findFile (v : Volume) (name : List ℕ) : Option DirEntry :=
  (findSlot v.disk (namedAs (to83Name name)) (rootSlots v.fs)).map (entryAt v.disk)

/-- Some of the 32 bytes of an entry replaced. -/
def patch (b : Buffer) (a : ℕ) (bytes : ℕ → Option UInt8) : Buffer := fun i =>
  if a ≤ i ∧ i < a + 32 then (bytes (i - a)).getD (b i) else b i

/-- Replace bytes of the entry in its sector. -/
def patchSlot (disk : Buffer) (s : Slot) (bytes : ℕ → Option UInt8) : Buffer :=
  writeSector disk s.lba (patch (readSector disk s.lba) (s.index * 32) bytes)

/-- The bytes of a new entry; nine reserved ones stay. -/
def newBytes (name : List ℕ) (cluster k : ℕ) : Option UInt8 :=
  if k < 11 then some (UInt8.ofNat (name.getD k 0))
  else if k = 11 then some 0x20
  else if 12 < k ∧ k < 22 then none
  else if k = 26 then some (UInt8.ofNat cluster)
  else if k = 27 then some (UInt8.ofNat (cluster / 256))
  else some 0

/-- Deleting an entry changes its first byte only. -/
def deletedBytes (k : ℕ) : Option UInt8 := if k = 0 then some 0xE5 else none

/-- `fat16_create_file`: whether it succeeds, and the volume. -/
def createFile (v : Volume) (name : List ℕ) : Bool × Volume :=
  if (findFile v name).isSome then (false, v)
  else
    ((rootSlots v.fs).find? fun s => (entryAt v.disk s).first = 0 ∨
      (entryAt v.disk s).first = 0xE5).elim
      (false, v) fun s =>
        let cluster := findFreeCluster v
        if cluster = 0 then (false, v)
        else
          let v := setClusterValue v cluster 0xFFFF
          (true, { v with disk := patchSlot v.disk s (newBytes (to83Name name) cluster) })

/-- `fat16_delete_file_root`; `none` when `fuel` is not enough. -/
def deleteFileRoot (fuel : ℕ) (v : Volume) (name : List ℕ) : Option (Bool × Volume) :=
  (findSlot v.disk (fun e => e.name = to83Name name) (rootSlots v.fs)).elim
    (some (false, v)) fun s =>
    let e := entryAt v.disk s
    if e.attributes.testBit 4 then some (false, v)
    else
      let v := { v with disk := patchSlot v.disk s deletedBytes }
      if 2 ≤ e.firstCluster then (freeChain fuel v e.firstCluster).map fun v => (true, v)
      else some (true, v)

/-! ## Runs -/

/-- The slot has an entry that is not deleted. -/
def Live (disk : Buffer) (s : Slot) : Prop :=
  (entryAt disk s).first ≠ 0 ∧ (entryAt disk s).first ≠ 0xE5

/-- A root directory of files: names are unique, and unused slots come last. -/
structure RootDir (v : Volume) : Prop where
  closed : ∀ s ∈ rootSlots v.fs, ∀ t ∈ rootSlots v.fs, s.addr < t.addr →
    (entryAt v.disk s).first = 0 → ¬ Live v.disk t
  plain : ∀ s ∈ rootSlots v.fs, Live v.disk s →
    (entryAt v.disk s).attributes.testBit 3 = false ∧
    (entryAt v.disk s).attributes.testBit 4 = false
  unique : ∀ s ∈ rootSlots v.fs, ∀ t ∈ rootSlots v.fs, Live v.disk s → Live v.disk t →
    (entryAt v.disk s).name = (entryAt v.disk t).name → s = t

/-- `fat16_free_chain` ends at this number. -/
def Stops (c : ℕ) : Prop := c < 2 ∨ endOfChain ≤ c

/-- From a number the table leads to clusters only. -/
def StaysInside (v : Volume) (c : ℕ) : Prop :=
  ∃ S ⊆ v.fs.clusters, (Stops c ∨ c ∈ S) ∧ ∀ d ∈ S, Stops (fatEntry v d) ∨ fatEntry v d ∈ S

/-- A name whose first byte is not the mark of a deleted entry. -/
structure FileName where
  bytes : List ℕ
  isByte : ∀ b ∈ bytes, 0 < b ∧ b < 256
  first_ne : bytes.head? ≠ some 0xE5

/-- The eleven bytes of a name. -/
def FileName.key (name : FileName) : List ℕ := to83Name name.bytes

/-- The calls that change the map. -/
inductive Op
  | create (name : FileName)
  | delete (name : FileName)

/-- A volume, and what the last successful operation left for each name. -/
structure RootState where
  volume : Volume
  files : List ℕ → Option DirEntry

/-- The map has the entries of the directory. -/
def RootState.Listed (x : RootState) : Prop :=
  ∀ key e, x.files key = some e ↔
    ∃ s ∈ rootSlots x.volume.fs, Live x.volume.disk s ∧ entryAt x.volume.disk s = e ∧ e.name = key

/-- The runs in which deleted files have chains in the volume. -/
def rootRuns : System RootState Op where
  init x := RootDir x.volume ∧ x.Listed
  guard x
    | .create _ => True
    | .delete name => ∀ e, findFile x.volume name.bytes = some e →
        StaysInside x.volume e.firstCluster
  step x op y :=
    match op with
    | .create name =>
      let r := createFile x.volume name.bytes
      y = ⟨r.2, if r.1 then Function.update x.files name.key (some
        { name := name.key, attributes := 0x20, firstCluster := findFreeCluster x.volume,
          fileSize := 0 })
        else x.files⟩
    | .delete name =>
      ∃ fuel r, deleteFileRoot fuel x.volume name.bytes = some r ∧
        y = ⟨r.2, if r.1 then Function.update x.files name.key none else x.files⟩

/-! ## Slots -/

section

variable {v w : Volume} {disk : Buffer} {s t : Slot} {fs : Fs} {key : List ℕ} {c : ℕ}

lemma rootSlots_sorted : (rootSlots fs).Pairwise fun s t => s.addr < t.addr := by
  have hroot := root_lt fs
  unfold rootSlots
  rw [List.pairwise_flatMap]
  constructor
  · intro k _
    rw [List.pairwise_map]
    refine List.pairwise_lt_range.imp fun {i j} hij => ?_
    unfold Slot.addr
    dsimp only
    omega
  · refine List.pairwise_lt_range.imp_of_mem fun {k l} hk hl hkl => ?_
    rw [List.mem_range] at hk hl
    intro x hx y hy
    obtain ⟨i, hi, rfl⟩ := List.mem_map.1 hx
    obtain ⟨j, hj, rfl⟩ := List.mem_map.1 hy
    rw [List.mem_range] at hi hj
    unfold Slot.addr
    dsimp only
    rw [w32_of_lt (by omega), w32_of_lt (by omega)]
    omega

lemma addr_disjoint (hs : s.Valid) (ht : t.Valid) (hne : s ≠ t) :
    s.addr + 32 ≤ t.addr ∨ t.addr + 32 ≤ s.addr := by
  have h1 := hs.index
  have h2 := ht.index
  have hne' : s.lba ≠ t.lba ∨ s.index ≠ t.index := by
    by_contra heq
    push Not at heq
    cases s
    cases t
    exact hne (by simp_all)
  unfold Slot.addr
  omega

lemma find?_first {p : Slot → Bool} {slots : List Slot}
    (hsorted : slots.Pairwise fun s t => s.addr < t.addr) (h : slots.find? p = some s)
    (ht : t ∈ slots) (hlt : t.addr < s.addr) : p t = false := by
  obtain ⟨-, l, r, rfl, hl⟩ := List.find?_eq_some_iff_append.1 h
  rcases List.mem_append.1 ht with hmem | hmem
  · simpa using hl t hmem
  · rw [List.pairwise_append, List.pairwise_cons] at hsorted
    rcases List.mem_cons.1 hmem with rfl | hmem
    · omega
    · have := hsorted.2.1.1 t hmem
      omega

lemma mem_takeWhile {p : Slot → Bool} {slots : List Slot}
    (hsorted : slots.Pairwise fun s t => s.addr < t.addr) (hs : s ∈ slots)
    (h : ∀ t ∈ slots, t.addr ≤ s.addr → p t = true) : s ∈ slots.takeWhile p := by
  induction slots with
  | nil => cases hs
  | cons t slots ih =>
    rw [List.pairwise_cons] at hsorted
    have hle : t.addr ≤ s.addr := by
      rcases List.mem_cons.1 hs with rfl | hmem
      · exact Nat.le_refl _
      · exact (hsorted.1 s hmem).le
    rw [List.takeWhile_cons_of_pos (h t List.mem_cons_self hle)]
    rcases List.mem_cons.1 hs with rfl | hmem
    · exact .head _
    · exact .tail _ (ih hsorted.2 hmem fun u hu => h u (.tail _ hu))

/-- **The search finds the entry of a name.** -/
lemma RootDir.findSlot_iff (h : RootDir v) {p : DirEntry → Bool}
    (hp : ∀ s ∈ rootSlots v.fs, Live v.disk s →
      (p (entryAt v.disk s) = true ↔ (entryAt v.disk s).name = key)) :
    findSlot v.disk p (rootSlots v.fs) = some s ↔
      s ∈ rootSlots v.fs ∧ Live v.disk s ∧ (entryAt v.disk s).name = key := by
  constructor
  · intro hfind
    obtain ⟨hmem, h0, h5, hps⟩ := findSlot_mem hfind
    exact ⟨hmem, ⟨h0, h5⟩, (hp s hmem ⟨h0, h5⟩).1 hps⟩
  · rintro ⟨hmem, hlive, hname⟩
    have htake : s ∈ (rootSlots v.fs).takeWhile fun s => (entryAt v.disk s).first ≠ 0 := by
      refine mem_takeWhile rootSlots_sorted hmem fun t ht hle => ?_
      rcases Nat.eq_or_lt_of_le hle with heq | hlt
      · have : t = s := by
          by_contra hne
          have := addr_disjoint (rootSlots_addr ht).1 (rootSlots_addr hmem).1 hne
          omega
        simpa [this] using hlive.1
      · have : (entryAt v.disk t).first ≠ 0 := fun h0 => h.closed t ht s hmem hlt h0 hlive
        simpa using this
    cases hfind : findSlot v.disk p (rootSlots v.fs) with
    | none =>
      have := List.find?_eq_none.1 hfind s htake
      simp [hlive.2, (hp s hmem hlive).2 hname] at this
    | some t =>
      obtain ⟨htmem, h0, h5, hpt⟩ := findSlot_mem hfind
      rw [h.unique t htmem s hmem ⟨h0, h5⟩ hlive
        (((hp t htmem ⟨h0, h5⟩).1 hpt).trans hname.symm)]

lemma RootDir.findSlot_namedAs (h : RootDir v) :
    findSlot v.disk (namedAs key) (rootSlots v.fs) = some s ↔
    s ∈ rootSlots v.fs ∧ Live v.disk s ∧ (entryAt v.disk s).name = key :=
  h.findSlot_iff fun s hs hlive => by simp [namedAs, (h.plain s hs hlive).1]

lemma RootDir.findSlot_name (h : RootDir v) :
    findSlot v.disk (fun e => e.name = key) (rootSlots v.fs) = some s ↔
      s ∈ rootSlots v.fs ∧ Live v.disk s ∧ (entryAt v.disk s).name = key :=
  h.findSlot_iff fun s _ _ => by simp

/-! ## Changing a slot -/

variable {a k : ℕ} {b : Buffer}

lemma patch_of_mem (bytes : ℕ → Option UInt8) (hk : k < 32) :
    patch b a bytes (a + k) = (bytes k).getD (b (a + k)) := by
  simp [patch, if_pos (by omega)]

lemma patchSlot_eq (hs : s.Valid) (disk : Buffer) (bytes : ℕ → Option UInt8) :
    patchSlot disk s bytes = patch disk s.addr bytes := by
  have hi := hs.index
  have hl := hs.lba
  funext a
  rw [patchSlot, writeSector, w32_of_lt (by omega)]
  unfold patch Slot.addr
  by_cases ha : s.lba * 512 ≤ a ∧ a < s.lba * 512 + 512
  · rw [Buffer.copy_of_mem _ _ ha.1 ha.2, Nat.zero_add, readSector_apply hl (by omega),
      show s.lba * 512 + (a - s.lba * 512) = a by omega, Nat.sub_sub]
    exact if_congr (by omega) rfl rfl
  · rw [Buffer.copy_of_notMem _ _ ha, if_neg fun h => ha ⟨by omega, by omega⟩]

/-- One slot of the root directory has another entry. -/
structure Replaced (v : Volume) (s : Slot) (w : Volume) : Prop where
  fs : w.fs = v.fs
  mem : s ∈ rootSlots v.fs
  other : ∀ t ∈ rootSlots v.fs, t ≠ s → entryAt w.disk t = entryAt v.disk t

lemma entryAt_root (hs : s ∈ rootSlots v.fs)
    (h : ∀ a ≥ v.fs.rootDirStart * 512, w.disk a = v.disk a) :
    entryAt w.disk s = entryAt v.disk s := by
  obtain ⟨hvalid, hlo, -⟩ := rootSlots_addr hs
  exact entryAt_congr hvalid fun k _ => h _ (by omega)

lemma Replaced.patchSlot (hs : s ∈ rootSlots v.fs) (bytes : ℕ → Option UInt8) :
    Replaced v s { v with disk := patchSlot v.disk s bytes } where
  fs := rfl
  mem := hs
  other t ht hne := by
    have hvalid := (rootSlots_addr hs).1
    have htvalid := (rootSlots_addr ht).1
    refine entryAt_congr htvalid fun k hk => ?_
    have hdisj := addr_disjoint hvalid htvalid (Ne.symm hne)
    dsimp only
    rw [patchSlot_eq hvalid, patch, if_neg (by omega)]

lemma decodeEntry_new (hlen : key.length = 11) (hbyte : ∀ x ∈ key, x < 256)
    (hc : c < 2 ^ 16) : decodeEntry (patch b a (newBytes key c)) a = ⟨key, 0x20, c, 0⟩ := by
  have hname : (List.range 11).map (fun i => (patch b a (newBytes key c) (a + i)).toNat) = key := by
    refine List.ext_getElem (by simp [hlen]) fun i hi hi' => ?_
    have hi11 : i < 11 := by omega
    rw [List.getElem_map, List.getElem_range, patch_of_mem _ (by omega), newBytes, if_pos hi11,
      Option.getD_some, List.getD_eq_getElem _ _ hi']
    exact Nat.mod_eq_of_lt (hbyte _ (List.getElem_mem hi'))
  have hhalf : (patch b a (newBytes key c)).half (a + 26) = c := by
    unfold Buffer.half
    rw [patch_of_mem _ (by decide), Nat.add_assoc, patch_of_mem _ (by decide)]
    simp [newBytes]
    omega
  have hword : (patch b a (newBytes key c)).word (a + 28) = 0 := by
    unfold Buffer.word
    simp only [Nat.add_assoc]
    rw [patch_of_mem _ (by decide), patch_of_mem _ (by decide), patch_of_mem _ (by decide),
      patch_of_mem _ (by decide)]
    simp [newBytes]
  unfold decodeEntry
  rw [hname, hhalf, hword, patch_of_mem _ (by decide)]
  simp [newBytes]

lemma first_deleted : (decodeEntry (patch b a deletedBytes) a).first = 0xE5 := by
  show (patch b a deletedBytes (a + 0)).toNat = 0xE5
  rw [patch_of_mem _ (by decide)]
  rfl

/-! ## Names -/

lemma length_field (n : ℕ) (l : List ℕ) : (field n l).length = n := by
  simp [field]

lemma length_to83Name (name : List ℕ) : (to83Name name).length = 11 := by
  simp [to83Name, length_field, length_field]

lemma mem_field {n x : ℕ} {l : List ℕ} (h : x ∈ field n l) : x ∈ l ∨ x = ' '.toNat := by
  have := List.mem_of_mem_take h
  rw [List.mem_append, List.mem_replicate] at this
  exact this.imp_right And.right

lemma FileName.key_spec (name : FileName) :
    (∀ x ∈ name.key, x < 256) ∧ name.key.headD 0 ≠ 0 ∧ name.key.headD 0 ≠ 0xE5 := by
  have hupper : ∀ x : ℕ, (0 < x ∧ x < 256 → 0 < toUpper x ∧ toUpper x < 256) ∧
      (x ≠ 0xE5 → toUpper x ≠ 0xE5) := by
    intro x
    have ha : 'a'.toNat = 97 := rfl
    have hz : 'z'.toNat = 122 := rfl
    unfold toUpper
    rw [ha, hz]
    split_ifs <;> omega
  have hbyte : ∀ l : List ℕ, l ⊆ name.bytes → ∀ n, ∀ x ∈ field n (l.map toUpper), x < 256 := by
    intro l hl n x hx
    rcases mem_field hx with hmem | rfl
    · obtain ⟨y, hy, rfl⟩ := List.mem_map.1 hmem
      exact ((hupper y).1 (name.isByte y (hl hy))).2
    · decide
  refine ⟨fun x hx => ?_, ?_⟩
  · rcases List.mem_append.1 hx with hmem | hmem
    · exact hbyte _ (List.Subset.trans (List.take_subset _ _) (List.takeWhile_subset _)) 8 x hmem
    · refine hbyte _ ?_ 3 x hmem
      exact List.Subset.trans (List.take_subset _ _)
        (List.Subset.trans (List.drop_subset _ _) (List.dropWhile_subset _))
  · have hisByte := name.isByte
    have hne := name.first_ne
    unfold FileName.key to83Name
    cases hn : name.bytes with
    | nil => simp [field]
    | cons x xs =>
      rw [hn] at hisByte hne
      by_cases hx : x = 46
      · simp [field, hx]
      · have h1 := (hupper x).1 (hisByte x (.head _))
        have h2 := (hupper x).2 (by simpa using hne)
        simp [field, hx]
        omega

/-! ## Freeing a chain -/

lemma freeChain_stops (h : Stops c) (fuel : ℕ) : freeChain fuel v c = some v := by
  unfold freeChain
  rw [if_neg (by unfold Stops at h; omega)]

/-- **Freeing a chain ends**, and changes nothing behind the tables. -/
lemma freeChain_spec {S : Finset ℕ} (hS : S ⊆ v.fs.clusters) (hc : Stops c ∨ c ∈ S)
    (hclosed : ∀ d ∈ S, Stops (fatEntry v d) ∨ fatEntry v d ∈ S) {fuel : ℕ}
    (hfuel : (S.filter fun d => 2 ≤ fatEntry v d ∧ fatEntry v d < endOfChain).card < fuel) :
    ∃ w, freeChain fuel v c = some w ∧ w.fs = v.fs ∧ ∀ a ≥ v.fs.rootDirStart * 512,
    w.disk a = v.disk a := by
  induction fuel generalizing v c with
  | zero => exact absurd hfuel (Nat.not_lt_zero _)
  | succ fuel ih =>
    by_cases hstop : Stops c
    · exact ⟨v, freeChain_stops hstop _, rfl, fun _ _ => rfl⟩
    have hmem : c ∈ S := hc.resolve_left hstop
    have hlt : c < v.fs.fatEntries := Fs.lt_fatEntries (hS hmem)
    have hnext : getNextCluster v c = fatEntry v c :=
      if_neg (by have := Fs.mem_clusters.1 (hS hmem); omega)
    generalize hv' : setClusterValue v c freeCluster = v'
    have hfs : v'.fs = v.fs := by rw [← hv']; rfl
    have hroot : ∀ a ≥ v.fs.rootDirStart * 512, v'.disk a = v.disk a := by
      rw [← hv']
      exact (setClusterValue_disk hlt _).1
    have hstep : freeChain (fuel + 1) v c =
        if endOfChain ≤ fatEntry v c then some v' else freeChain fuel v' (fatEntry v c) := by
      rw [freeChain, if_pos (by unfold Stops at hstop; omega), hnext, ← hv']
    by_cases hend : Stops (fatEntry v c)
    · refine ⟨v', ?_, hfs, hroot⟩
      rw [hstep, freeChain_stops hend]
      exact ite_self _
    · have hentry : ∀ d ∈ S, fatEntry v' d = if d = c then 0 else fatEntry v d := fun d hd => by
        rw [← hv']
        exact setClusterValue_entry hlt (by decide) (Fs.lt_fatEntries (hS hd))
      have hcount : (S.filter fun d => 2 ≤ fatEntry v' d ∧ fatEntry v' d < endOfChain).card <
        fuel := by
        refine Nat.lt_of_lt_of_le (Finset.card_lt_card (Finset.ssubset_iff_of_subset ?_ |>.2 ?_))
          (Nat.le_of_lt_succ hfuel)
        · intro d hd
          rw [Finset.mem_filter] at hd ⊢
          obtain ⟨hdS, hlive⟩ := hd
          rw [hentry d hdS] at hlive
          split_ifs at hlive with heq
          · omega
          · exact ⟨hdS, hlive⟩
        · refine ⟨c, Finset.mem_filter.2 ⟨hmem, by unfold Stops at hend; omega⟩, fun hd => ?_⟩
          have := (Finset.mem_filter.1 hd).2.1
          rw [hentry c hmem, if_pos rfl] at this
          omega
      have hclosed' : ∀ d ∈ S, Stops (fatEntry v' d) ∨ fatEntry v' d ∈ S := by
        intro d hd
        rw [hentry d hd]
        split_ifs with heq
        · exact .inl (.inl (by decide))
        · exact hclosed d hd
      obtain ⟨w, hw, hwfs, hwroot⟩ := ih (by rw [hfs]; exact hS) (hclosed c hmem) hclosed' hcount
      refine ⟨w, ?_, hwfs.trans hfs, fun a ha => ?_⟩
      · rw [hstep, if_neg (by unfold Stops at hend; omega)]
        exact hw
      · rw [hwroot a (by rw [hfs]; exact ha), hroot a ha]

lemma freeChain_mono {fuel fuel' : ℕ} (hle : fuel ≤ fuel') (h : freeChain fuel v c = some w) :
    freeChain fuel' v c = some w := by
  induction fuel generalizing v c fuel' with
  | zero =>
    unfold freeChain at h
    split_ifs at h with hc
    rw [freeChain_stops (by unfold Stops; omega)]
    exact h
  | succ fuel ih =>
    obtain ⟨fuel', rfl⟩ : ∃ k, fuel' = k + 1 := ⟨fuel' - 1, by omega⟩
    unfold freeChain at h ⊢
    split_ifs at h ⊢ with hc
    · dsimp only at h ⊢
      split_ifs at h ⊢ with hend
      · exact h
      · exact ih (Nat.le_of_succ_le_succ hle) h
    · exact h

lemma StaysInside.freeChain (h : StaysInside v c) :
    ∃ w, (∃ fuel, freeChain fuel v c = some w) ∧ (∀ fuel u, freeChain fuel v c = some u → u = w) ∧
      w.fs = v.fs ∧ ∀ a ≥ v.fs.rootDirStart * 512, w.disk a = v.disk a := by
  obtain ⟨S, hS, hc, hclosed⟩ := h
  have hcard : (S.filter fun d => 2 ≤ fatEntry v d ∧ fatEntry v d < endOfChain).card <
      v.fs.totalClusters + 1 := by
    refine Nat.lt_succ_of_le ?_
    calc _ ≤ S.card := Finset.card_filter_le _ _
      _ ≤ v.fs.clusters.card := Finset.card_le_card hS
      _ = v.fs.totalClusters := by rw [Fs.clusters, Nat.card_Ico, Nat.add_sub_cancel]
  obtain ⟨w, hw, hkeeps⟩ := freeChain_spec hS hc hclosed hcard
  refine ⟨w, ⟨_, hw⟩, fun fuel u hu => ?_, hkeeps⟩
  have h1 := freeChain_mono (Nat.le_add_right fuel (v.fs.totalClusters + 1)) hu
  have h2 := freeChain_mono (Nat.le_add_left (v.fs.totalClusters + 1) fuel) hw
  exact Option.some.inj (h1.symm.trans h2)

/-- **From a number that is no cluster the loop does not end**: it stays at a bad cluster. -/
lemma freeChain_eq_none (h1 : v.fs.totalClusters + 2 ≤ c) (h2 : c < endOfChain) (fuel : ℕ) :
    freeChain fuel v c = none := by
  induction fuel generalizing v c with
  | zero => rw [freeChain, if_pos ⟨by omega, h2⟩]
  | succ fuel ih =>
    have hbad : getNextCluster v c = badCluster := if_pos h1
    rw [freeChain, if_pos ⟨by omega, h2⟩, hbad]
    have htotal := v.fs.totalClusters_lt
    exact ih (by show v.fs.totalClusters + 2 ≤ _; unfold badCluster; omega) (by decide)

/-- A loop that ends has met clusters only: by induction on the fuel, the clusters that it frees and
those of the rest are closed under the links. -/
lemma staysInside_of_freeChain {fuel : ℕ} (h : freeChain fuel v c = some w) : StaysInside v c := by
  induction fuel generalizing v c with
  | zero =>
    unfold freeChain at h
    split_ifs at h with hc
    exact ⟨∅, Finset.empty_subset _, .inl (by unfold Stops; omega), fun d hd => absurd hd (by simp)⟩
  | succ fuel ih =>
    by_cases hstop : Stops c
    · exact ⟨∅, Finset.empty_subset _, .inl hstop, fun d hd => absurd hd (by simp)⟩
    have hrange : 2 ≤ c ∧ c < endOfChain := by
      unfold Stops at hstop
      omega
    have hmem : c ∈ v.fs.clusters := by
      by_contra hout
      rw [Fs.mem_clusters] at hout
      rw [freeChain_eq_none (by omega) hrange.2] at h
      cases h
    have hnext : getNextCluster v c = fatEntry v c :=
      if_neg (by rw [Fs.mem_clusters] at hmem; omega)
    have hrest : StaysInside (setClusterValue v c freeCluster) (fatEntry v c) := by
      rw [freeChain, if_pos hrange, hnext] at h
      dsimp only at h
      split_ifs at h with hend
      · exact ⟨∅, Finset.empty_subset _, .inl (.inr hend), fun d hd => absurd hd (by simp)⟩
      · exact ih h
    obtain ⟨S, hS, hc, hclosed⟩ := hrest
    have hweak : ∀ x, (Stops x ∨ x ∈ S) → Stops x ∨ x ∈ insert c S :=
      fun x hx => hx.imp_right (Finset.mem_insert_of_mem)
    refine ⟨insert c S, Finset.insert_subset hmem hS, .inr (Finset.mem_insert_self _ _), fun d hd =>
      ?_⟩
    by_cases hdc : d = c
    · rw [hdc]
      exact hweak _ hc
    · have hdS := Finset.mem_of_mem_insert_of_ne hd hdc
      have hentry := setClusterValue_entry (x := freeCluster) (Fs.lt_fatEntries hmem) (by decide)
        (Fs.lt_fatEntries (hS hdS))
      rw [if_neg hdc] at hentry
      have hclosed' := hclosed d hdS
      rw [hentry] at hclosed'
      exact hweak _ hclosed'

/-! ## One operation -/

lemma createFile_cases (name : FileName) (v : Volume) : createFile v name.bytes = (false, v) ∨
      ∃ s w, createFile v name.bytes = (true, w) ∧ Replaced v s w ∧ findFile v name.bytes = none ∧
        entryAt w.disk s = ⟨name.key, 0x20, findFreeCluster v, 0⟩ ∧ ¬ Live v.disk s ∧
        ∀ t ∈ rootSlots v.fs, t.addr < s.addr → (entryAt v.disk t).first ≠ 0 := by
  unfold createFile
  by_cases hfile : (findFile v name.bytes).isSome
  · exact .inl (if_pos hfile)
  rw [if_neg hfile]
  cases hfind : (rootSlots v.fs).find? fun s =>
      (entryAt v.disk s).first = 0 ∨ (entryAt v.disk s).first = 0xE5 with
  | none => exact .inl rfl
  | some s =>
    dsimp only [Option.elim_some]
    by_cases hzero : findFreeCluster v = 0
    · exact .inl (if_pos hzero)
    rw [if_neg hzero]
    have hs : s ∈ rootSlots v.fs := List.mem_of_find?_eq_some hfind
    have hvalid := (rootSlots_addr hs).1
    have hunused : (entryAt v.disk s).first = 0 ∨ (entryAt v.disk s).first = 0xE5 := by
      simpa using List.find?_some hfind
    obtain ⟨n, hn, hcluster⟩ : ∃ n < v.fs.fatEntries, findFreeCluster v = w16 n := by
      by_contra hnone
      push Not at hnone
      refine hzero (findFreeCluster_eq_zero fun n hn hfree => ?_)
      obtain ⟨m, hm, -, heq, -⟩ := findFreeCluster_eq ⟨n, hn, hfree⟩
      exact hnone m hm heq
    have hlt16 : findFreeCluster v < 2 ^ 16 := by rw [hcluster]; exact Nat.mod_lt _ (by decide)
    have hlt : findFreeCluster v < v.fs.fatEntries := by
      rw [hcluster]
      exact (Nat.mod_le _ _).trans_lt hn
    have hroot := (setClusterValue_disk hlt 0xFFFF).1
    have hreplaced := Replaced.patchSlot (v := setClusterValue v (findFreeCluster v) 0xFFFF) hs
      (newBytes (to83Name name.bytes) (findFreeCluster v))
    refine .inr ⟨s, _, rfl, ⟨rfl, hs, fun t ht hne => ?_⟩, ?_, ?_, ?_, fun t ht hlt' => ?_⟩
    · exact (hreplaced.other t ht hne).trans (entryAt_root ht hroot)
    · simpa using hfile
    · rw [entryAt_eq hvalid, patchSlot_eq hvalid]
      exact decodeEntry_new (length_to83Name _) name.key_spec.1 hlt16
    · unfold Live
      omega
    · have := find?_first rootSlots_sorted hfind ht hlt'
      simp only [decide_eq_false_iff_not, not_or] at this
      exact this.1

/-- A change of an entry of a directory leaves the links of the table as they are. -/
lemma staysInside_patchSlot (hvalid : s.Valid) (hlo : v.fs.rootDirStart * 512 ≤ s.addr)
    (bytes : ℕ → Option UInt8) :
    StaysInside { v with disk := patchSlot v.disk s bytes } c ↔ StaysInside v c := by
  have hsame : ∀ d ∈ v.fs.clusters,
      fatEntry { v with disk := patchSlot v.disk s bytes } d = fatEntry v d := by
    intro d hd
    refine fatEntry_congr rfl (fun a ha => ?_) (Fs.lt_fatEntries hd)
    dsimp only
    rw [patchSlot_eq hvalid, patch, if_neg (by omega)]
  refine exists_congr fun S => and_congr_right fun hS => and_congr_right fun _ => ?_
  refine forall₂_congr fun d hd => ?_
  rw [hsame d (hS hd)]

lemma deleteFileRoot_cases (name : FileName) (hdir : RootDir v)
    (hin : ∀ e, findFile v name.bytes = some e → StaysInside v e.firstCluster) :
    (∀ fuel, deleteFileRoot fuel v name.bytes = some (false, v)) ∨
      ∃ s w, (∃ fuel, deleteFileRoot fuel v name.bytes = some (true, w)) ∧
        (∀ fuel r, deleteFileRoot fuel v name.bytes = some r → r = (true, w)) ∧ Replaced v s w ∧
        Live v.disk s ∧ (entryAt v.disk s).name = name.key ∧ (entryAt w.disk s).first = 0xE5 := by
  cases hfind : findSlot v.disk (fun e => e.name = to83Name name.bytes) (rootSlots v.fs) with
  | none =>
    refine .inl fun fuel => ?_
    simp [deleteFileRoot, hfind]
  | some s =>
    obtain ⟨hs, hlive, hname⟩ := hdir.findSlot_name.1 hfind
    have hvalid := (rootSlots_addr hs).1
    have hfile : findFile v name.bytes = some (entryAt v.disk s) := by
      simp [findFile, hdir.findSlot_namedAs.2 ⟨hs, hlive, hname⟩]
    generalize hv' : { v with disk := patchSlot v.disk s deletedBytes } = v'
    have hreplaced : Replaced v s v' := hv' ▸ Replaced.patchSlot hs deletedBytes
    have hmark : (entryAt v'.disk s).first = 0xE5 := by
      rw [← hv', entryAt_eq hvalid]
      rw [patchSlot_eq hvalid]
      exact first_deleted
    have hdelete : ∀ fuel, deleteFileRoot fuel v name.bytes =
        if 2 ≤ (entryAt v.disk s).firstCluster then
          (freeChain fuel v' (entryAt v.disk s).firstCluster).map fun v => (true, v)
        else some (true, v') := by
      intro fuel
      rw [deleteFileRoot, hfind, Option.elim_some, ← hv']
      rw [if_neg (by simp [(hdir.plain s hs hlive).2])]
    simp only [hdelete]
    refine .inr ⟨s, ?_⟩
    split_ifs with hfirst
    · have hstays : StaysInside v' (entryAt v.disk s).firstCluster :=
        hv' ▸ (staysInside_patchSlot (rootSlots_addr hs).1 (rootSlots_addr hs).2.1 deletedBytes).mpr
          (hin _ hfile)
      obtain ⟨w, ⟨fuel, hw⟩, huniq, hfs, hroot⟩ := hstays.freeChain
      rw [hreplaced.fs] at hroot
      refine ⟨w, ⟨fuel, by rw [hw]; rfl⟩, fun fuel r hr =>
        ?_, ⟨hfs.trans hreplaced.fs, hs, fun t ht hne => ?_⟩,
        hlive, hname, ?_⟩
      · obtain ⟨u, hu, rfl⟩ := Option.map_eq_some_iff.1 hr
        rw [huniq _ _ hu]
      · rw [← hreplaced.other t ht hne]
        exact entryAt_root (by rw [hreplaced.fs]; exact ht) (by rw [hreplaced.fs]; exact hroot)
      · rw [← hmark, entryAt_root (by rw [hreplaced.fs]; exact hs)
          (by rw [hreplaced.fs]; exact hroot)]
    · exact ⟨v', ⟨0, rfl⟩, fun _ _ hr => (Option.some.inj hr).symm, hreplaced, hlive, hname, hmark⟩

/-! ## Whole runs -/

lemma RootDir.findFile_iff (h : RootDir v) {name : List ℕ} {e : DirEntry} :
    findFile v name = some e ↔
    ∃ s ∈ rootSlots v.fs, Live v.disk s ∧ entryAt v.disk s = e ∧ e.name = to83Name name := by
  rw [findFile, Option.map_eq_some_iff]
  constructor
  · rintro ⟨s, hfind, rfl⟩
    obtain ⟨hs, hlive, hname⟩ := h.findSlot_namedAs.1 hfind
    exact ⟨s, hs, hlive, rfl, hname⟩
  · rintro ⟨s, hs, hlive, rfl, hname⟩
    exact ⟨s, h.findSlot_namedAs.2 ⟨hs, hlive, hname⟩, rfl⟩

lemma Replaced.live (h : Replaced v s w) (ht : t ∈ rootSlots v.fs) (hne : t ≠ s) :
    Live w.disk t ↔ Live v.disk t := by
  unfold Live
  rw [h.other t ht hne]

lemma RootDir.create (h : RootDir v) (hr : Replaced v s w) (hlive : Live w.disk s)
    (hfile : (entryAt w.disk s).attributes = 0x20)
    (hbefore : ∀ t ∈ rootSlots v.fs, t.addr < s.addr → (entryAt v.disk t).first ≠ 0)
    (hfresh : ∀ t ∈ rootSlots v.fs, Live v.disk t →
      (entryAt v.disk t).name ≠ (entryAt w.disk s).name) :
    RootDir w where
  closed a ha b hb hlt hzero hb' := by
    rw [hr.fs] at ha hb
    by_cases has : a = s
    · rw [has] at hzero
      exact hlive.1 hzero
    · rw [hr.other a ha has] at hzero
      by_cases hbs : b = s
      · exact hbefore a ha (hbs ▸ hlt) hzero
      · exact h.closed a ha b hb hlt hzero ((hr.live hb hbs).1 hb')
  plain a ha hlive' := by
    rw [hr.fs] at ha
    by_cases has : a = s
    · rw [has, hfile]
      decide
    · rw [hr.other a ha has]
      exact h.plain a ha ((hr.live ha has).1 hlive')
  unique a ha b hb hla hlb hname := by
    rw [hr.fs] at ha hb
    by_cases has : a = s <;> by_cases hbs : b = s
    · rw [has, hbs]
    · rw [has, hr.other b hb hbs] at hname
      exact absurd hname.symm (hfresh b hb ((hr.live hb hbs).1 hlb))
    · rw [hbs, hr.other a ha has] at hname
      exact absurd hname (hfresh a ha ((hr.live ha has).1 hla))
    · rw [hr.other a ha has, hr.other b hb hbs] at hname
      exact h.unique a ha b hb ((hr.live ha has).1 hla) ((hr.live hb hbs).1 hlb) hname

lemma RootDir.delete (h : RootDir v) (hr : Replaced v s w)
    (hmark : (entryAt w.disk s).first = 0xE5) : RootDir w := by
  have hdead : ¬ Live w.disk s := fun hlive => hlive.2 hmark
  have hold : ∀ t ∈ rootSlots w.fs, Live w.disk t →
      t ∈ rootSlots v.fs ∧ Live v.disk t ∧ entryAt w.disk t = entryAt v.disk t := by
    intro t ht hlive
    rw [hr.fs] at ht
    have hne : t ≠ s := fun heq => hdead (heq ▸ hlive)
    exact ⟨ht, (hr.live ht hne).1 hlive, hr.other t ht hne⟩
  constructor
  · intro a ha b hb hlt hzero hlive
    obtain ⟨hb', hlive', -⟩ := hold b hb hlive
    rw [hr.fs] at ha
    have has : a ≠ s := fun heq => by
      rw [heq, hmark] at hzero
      cases hzero
    rw [hr.other a ha has] at hzero
    exact h.closed a ha b hb' hlt hzero hlive'
  · intro a ha hlive
    obtain ⟨ha', hlive', heq⟩ := hold a ha hlive
    rw [heq]
    exact h.plain a ha' hlive'
  · intro a ha b hb hla hlb hname
    obtain ⟨ha', hla', heqa⟩ := hold a ha hla
    obtain ⟨hb', hlb', heqb⟩ := hold b hb hlb
    rw [heqa, heqb] at hname
    exact h.unique a ha' b hb' hla' hlb' hname

variable {files : List ℕ → Option DirEntry}

lemma RootState.Listed.create (h : RootState.Listed ⟨v, files⟩) (hr : Replaced v s w)
    (hlive : Live w.disk s) (hdead : ¬ Live v.disk s)
    (hfresh : ∀ t ∈ rootSlots v.fs, Live v.disk t →
      (entryAt v.disk t).name ≠ (entryAt w.disk s).name) :
    RootState.Listed ⟨w, update files (entryAt w.disk s).name (some (entryAt w.disk s))⟩ := by
  intro k e
  show update files _ _ k = some e ↔ ∃ t ∈ rootSlots w.fs, _
  have hold := h k e
  rw [hr.fs]
  by_cases hk : k = (entryAt w.disk s).name
  · rw [hk, update_self]
    constructor
    · intro heq
      cases heq
      exact ⟨s, hr.mem, hlive, rfl, rfl⟩
    · rintro ⟨t, ht, hlt, rfl, hname⟩
      by_cases hts : t = s
      · rw [hts]
      · rw [hr.other t ht hts] at hname
        exact absurd hname (hfresh t ht ((hr.live ht hts).1 hlt))
  · rw [update_of_ne hk, hold]
    constructor
    · rintro ⟨t, ht, hlt, rfl, hname⟩
      have hts : t ≠ s := fun heq => hdead (heq ▸ hlt)
      exact ⟨t, ht, (hr.live ht hts).2 hlt, hr.other t ht hts, hname⟩
    · rintro ⟨t, ht, hlt, rfl, hname⟩
      have hts : t ≠ s := fun heq => hk (heq ▸ hname.symm)
      exact ⟨t, ht, (hr.live ht hts).1 hlt, (hr.other t ht hts).symm, hname⟩

lemma RootState.Listed.delete (h : RootState.Listed ⟨v, files⟩) (hdir : RootDir v)
    (hr : Replaced v s w) (hlive : Live v.disk s) (hmark : (entryAt w.disk s).first = 0xE5) :
    RootState.Listed ⟨w, update files (entryAt v.disk s).name none⟩ := by
  have hdead : ¬ Live w.disk s := fun h => h.2 hmark
  intro k e
  show update files _ _ k = some e ↔ ∃ t ∈ rootSlots w.fs, _
  have hold := h k e
  rw [hr.fs]
  by_cases hk : k = (entryAt v.disk s).name
  · rw [hk, update_self]
    refine ⟨nofun, ?_⟩
    rintro ⟨t, ht, hlt, rfl, hname⟩
    have hts : t ≠ s := fun heq => hdead (heq ▸ hlt)
    rw [hr.other t ht hts] at hname
    exact absurd (hdir.unique t ht s hr.mem ((hr.live ht hts).1 hlt) hlive hname) hts
  · rw [update_of_ne hk, hold]
    constructor
    · rintro ⟨t, ht, hlt, rfl, hname⟩
      have hts : t ≠ s := fun heq => hk (heq ▸ hname.symm)
      exact ⟨t, ht, (hr.live ht hts).2 hlt, hr.other t ht hts, hname⟩
    · rintro ⟨t, ht, hlt, rfl, hname⟩
      have hts : t ≠ s := fun heq => hdead (heq ▸ hlt)
      exact ⟨t, ht, (hr.live ht hts).1 hlt, (hr.other t ht hts).symm, hname⟩

lemma rootRuns_step {x y : RootState} {op : Op} (hdir : RootDir x.volume) (hlisted : x.Listed)
    (hguard : rootRuns.guard x op) (hstep : rootRuns.step x op y) :
    RootDir y.volume ∧ y.Listed := by
  cases op with
  | create name =>
    obtain rfl := hstep
    rcases createFile_cases name x.volume with heq | ⟨s, w, heq, hr, hnone, hnew, hdead, hbefore⟩
    · rw [heq]
      exact ⟨hdir, hlisted⟩
    · have hname : (entryAt w.disk s).name = name.key := by rw [hnew]
      have hlive : Live w.disk s := by
        rw [Live, hnew]
        exact name.key_spec.2
      have hfresh : ∀ t ∈ rootSlots x.volume.fs, Live x.volume.disk t →
          (entryAt x.volume.disk t).name ≠ (entryAt w.disk s).name := by
        intro t ht hlt heq
        have hfound := hdir.findFile_iff.2 ⟨t, ht, hlt, rfl, heq.trans hname⟩
        rw [hnone] at hfound
        cases hfound
      have hlisted' := RootState.Listed.create hlisted hr hlive hdead hfresh
      rw [hnew] at hlisted'
      rw [heq]
      exact ⟨hdir.create hr hlive (by rw [hnew]) hbefore hfresh, hlisted'⟩
  | delete name =>
    obtain ⟨fuel, r, hdelete, rfl⟩ := hstep
    rcases deleteFileRoot_cases name hdir hguard with hfail | ⟨s, w, -, huniq, hr, hlive, hname,
      hmark⟩
    · obtain rfl := Option.some.inj ((hfail fuel).symm.trans hdelete)
      exact ⟨hdir, hlisted⟩
    · obtain rfl := huniq fuel r hdelete
      have hlisted' := RootState.Listed.delete hlisted hdir hr hlive hmark
      rw [hname] at hlisted'
      exact ⟨hdir.delete hr hmark, hlisted'⟩

/-- **The root directory is a finite map**: a search gives what the last successful operation left,
in every run in which deleted files have chains in the volume. -/
theorem findFile_of_reach {x : RootState} (h : rootRuns.Reach x) :
    (∀ name, findFile x.volume name = x.files (to83Name name)) ∧
      ∀ op, rootRuns.guard x op → ∃ y, rootRuns.step x op y := by
  obtain ⟨hdir, hlisted⟩ : RootDir x.volume ∧ x.Listed :=
    h.invariant (I := fun x => RootDir x.volume ∧ x.Listed) (fun _ hinit => hinit)
      fun _ _ _ hinv hguard hstep => rootRuns_step hinv.1 hinv.2 hguard hstep
  refine ⟨fun name => ?_, fun op hguard => ?_⟩
  · refine Option.ext fun e => ?_
    rw [hdir.findFile_iff, hlisted]
  · cases op with
    | create name => exact ⟨_, rfl⟩
    | delete name =>
      rcases deleteFileRoot_cases name hdir hguard with hfail | ⟨s, w, ⟨fuel, hsome⟩, -⟩
      · exact ⟨_, 0, _, hfail 0, rfl⟩
      · exact ⟨_, fuel, _, hsome, rfl⟩

/-! ## Examples -/

/-- An empty root directory, and a table of ones up to an address. -/
def tableVolume (used : ℕ) : Volume where
  fs := smallFs
  disk i := if i < used then 0xFF else 0

/-- The name `A`. -/
def letterA : FileName where
  bytes := [65]
  isByte := by decide
  first_ne := by decide

lemma fatEntry_tableVolume {n : ℕ} (hn : n < 4096) :
    fatEntry (tableVolume (512 + k * 2)) n = if n < k then 0xFFFF else 0 := by
  have hstart : smallFs.fatStart = 1 := by decide
  have haddr : entryAddr (tableVolume (512 + k * 2)) n = 512 + n * 2 := by
    show smallFs.fatStart * 512 + n * 2 = _
    rw [hstart]
  have hentries : smallFs.fatEntries = 4096 := by decide
  rw [fatEntry_eq (hentries ▸ hn), haddr, Buffer.half]
  unfold tableVolume
  dsimp only
  by_cases hlt : n < k
  · rw [if_pos (by omega), if_pos (by omega), if_pos hlt]
    decide
  · rw [if_neg (by omega), if_neg (by omega), if_neg hlt]
    decide

lemma first_tableVolume {used : ℕ} (hused : used ≤ 16896) {s : Slot} (hs : s ∈ rootSlots smallFs) :
    (entryAt (tableVolume used).disk s).first = 0 := by
  have hroot : smallFs.rootDirStart = 33 := by decide
  obtain ⟨hvalid, hlo, -⟩ := rootSlots_addr hs
  rw [entryAt_eq hvalid]
  show ((tableVolume used).disk (s.addr + 0)).toNat = 0
  unfold tableVolume
  dsimp only
  rw [if_neg (by omega)]
  rfl

lemma rootDir_tableVolume (used : ℕ) (hused : used ≤ 16896) : RootDir (tableVolume used) := by
  have hdead : ∀ s ∈ rootSlots smallFs, ¬ Live (tableVolume used).disk s :=
    fun s hs hlive => hlive.1 (first_tableVolume hused hs)
  exact ⟨fun _ _ t ht _ _ => hdead t ht, fun s hs => (hdead s hs).elim,
    fun s hs _ _ => (hdead s hs).elim⟩

lemma findFreeCluster_tableVolume (h2 : 2 ≤ k) (hk : k < 4096) :
    findFreeCluster (tableVolume (512 + k * 2)) = k := by
  have hentries : smallFs.fatEntries = 4096 := by decide
  have hw16 : ∀ n < 4096, w16 n = n := fun n hn => w16_of_lt (by omega)
  have hfree : IsFree (tableVolume (512 + k * 2)) k := by
    rw [isFree_iff, fatEntry_tableVolume hk, if_neg (Nat.lt_irrefl k), hw16 k hk]
    exact ⟨rfl, h2⟩
  obtain ⟨n, hn, hn', heq, hfirst⟩ := findFreeCluster_eq ⟨k, hentries ▸ hk, hfree⟩
  have hn : n < 4096 := hentries ▸ hn
  have hle : n ≤ k := Nat.le_of_not_lt fun hlt => hfirst k hlt hfree
  have hge : k ≤ n := by
    refine Nat.le_of_not_lt fun hlt => ?_
    rw [isFree_iff, fatEntry_tableVolume hn, if_pos hlt] at hn'
    cases hn'.1
  rw [heq, hw16 n hn]
  omega

lemma createFile_tableVolume (h2 : 2 ≤ k) (hk : k < 4096) (name : FileName) :
    (createFile (tableVolume (512 + k * 2)) name.bytes).1 = true := by
  have hdir := rootDir_tableVolume (512 + k * 2) (by omega)
  have hnone : findFile (tableVolume (512 + k * 2)) name.bytes = none := by
    refine Option.eq_none_iff_forall_not_mem.2 fun e he => ?_
    obtain ⟨s, hs, hlive, -⟩ := hdir.findFile_iff.1 he
    exact hlive.1 (first_tableVolume (by omega) hs)
  obtain ⟨s, hs⟩ : ∃ s, (rootSlots smallFs).find? (fun s =>
      (entryAt (tableVolume (512 + k * 2)).disk s).first = 0 ∨
        (entryAt (tableVolume (512 + k * 2)).disk s).first = 0xE5) = some s := by
    refine Option.isSome_iff_exists.1 (List.find?_isSome.2 ⟨⟨33, 0⟩, ?_, ?_⟩)
    · decide
    · rw [first_tableVolume (by omega) (by decide)]
      rfl
  have hfs : (tableVolume (512 + k * 2)).fs = smallFs := rfl
  rw [createFile, hnone, if_neg (by decide), hfs, hs, Option.elim_some]
  rw [findFreeCluster_tableVolume h2 hk, if_neg (by omega)]

/-- A file that was created is found with its first cluster. -/
theorem findFile_created : ∃ x, rootRuns.Reach x ∧
    findFile x.volume [65] = some ⟨65 :: List.replicate 10 32, 0x20, 2, 0⟩ := by
  have hinit : rootRuns.Reach ⟨tableVolume 516, fun _ => none⟩ := by
    refine .init ⟨rootDir_tableVolume 516 (by decide), fun key e => ⟨nofun, ?_⟩⟩
    rintro ⟨s, hs, hlive, -⟩
    exact absurd (first_tableVolume (by decide) hs) hlive.1
  have hguard : rootRuns.guard ⟨tableVolume 516, fun _ => none⟩ (.create letterA) := trivial
  have hreach := hinit.step hguard rfl
  refine ⟨_, hreach, ?_⟩
  rw [(findFile_of_reach hreach).1]
  have htrue := createFile_tableVolume (k := 2) (by decide) (by decide) letterA
  have hfree := findFreeCluster_tableVolume (k := 2) (by decide) (by decide)
  rw [if_pos htrue, hfree]
  rfl

/-- With free entries behind the last cluster a file can be created on a full volume, and deleting
it does not return. -/
theorem deleteFileRoot_padding : RootDir (tableVolume 8686) ∧
    (createFile (tableVolume 8686) letterA.bytes).1 = true ∧
    ∀ fuel, deleteFileRoot fuel (createFile (tableVolume 8686) letterA.bytes).2 letterA.bytes =
    none := by
  have hdir := rootDir_tableVolume 8686 (by decide)
  have htrue := createFile_tableVolume (k := 4087) (by decide) (by decide) letterA
  have hfree := findFreeCluster_tableVolume (k := 4087) (by decide) (by decide)
  refine ⟨hdir, htrue, fun fuel => ?_⟩
  rcases createFile_cases letterA (tableVolume 8686) with
    heq | ⟨s, w, heq, hr, hnone, hnew, -, hbefore⟩
  · rw [heq] at htrue
    cases htrue
  have hlive : Live w.disk s := by
    rw [Live, hnew]
    exact letterA.key_spec.2
  have hdir' : RootDir w := by
    refine hdir.create hr hlive (by rw [hnew]) hbefore fun t ht hlt => ?_
    exact absurd (first_tableVolume (by decide) ht) hlt.1
  have hname : (entryAt w.disk s).name = to83Name letterA.bytes := by
    rw [hnew]
    rfl
  have hfind := hdir'.findSlot_name.2 ⟨hr.fs ▸ hr.mem, hlive, hname⟩
  have htotal : smallFs.totalClusters + 2 ≤ 4087 := by decide
  rw [heq, deleteFileRoot]
  rw [hfind, Option.elim_some, hnew, hfree]
  rw [if_neg (by decide), if_pos (by decide), freeChain_eq_none ?_ (by decide), Option.map_none]
  rw [hr.fs]
  exact htotal

end

end FrostByte.Fat16
