import FrostByte.Fat.DirVolume
import FrostByte.Fat.Slots

/-!
# Updating an entry of a FAT32 directory

`fat32_update_dir_entry` looks for a short name, while a file is found by its long name, if it has
one. In a directory whose short names are distinct both come to the same slot, and the iterator
makes the same names as before.

## Main definitions

* `KeepsName` — changes of an entry that the iterator does not see.

## Main results

* `findInDir_map` — such a change of all entries keeps what is found.
* `updateDirEntry_spec` — the call changes the entry that the name is found at, and no other.
-/

namespace FrostByte.Fat32

open Chains DirEntry ShortEntry

/-! ## Changes that keep the names -/

/-- A change of the short entries only. -/
def DirEntry.mapShort (f : ShortEntry → ShortEntry) : DirEntry → DirEntry
  | .short e => .short (f e)
  | .long e => .long e

/-- The same change in what the iterator gives. -/
def IterResult.mapShort (f : ShortEntry → ShortEntry) : IterResult → IterResult
  | .found e n rest st => .found (f e) n (rest.map (DirEntry.mapShort f)) st
  | r => r

/-- The same change in what is found. -/
def FindResult.mapShort (f : ShortEntry → ShortEntry) : FindResult → FindResult
  | .found e => .found (f e)
  | r => r

/-- The name and the attribute are as before. -/
structure KeepsName (f : ShortEntry → ShortEntry) : Prop where
  name : ∀ e, (f e).name = e.name
  attr : ∀ e, (f e).attr = e.attr

section

variable {f : ShortEntry → ShortEntry} {name n : List ℕ} {l a b rest : List DirEntry}
  {d : List (List DirEntry)} {x y : DirEntry} {st st' : LfnState} {e s s' : ShortEntry}

section

variable (hf : KeepsName f)

include hf

lemma KeepsName.first (x : DirEntry) : (x.mapShort f).first = x.first := by
  cases x with
  | short e => simp [DirEntry.mapShort, DirEntry.first, hf.name]
  | long e => rfl

lemma KeepsName.isFree (x : DirEntry) : (x.mapShort f).isFree = x.isFree := by
  simp [DirEntry.isFree, hf.first]

lemma KeepsName.liveName (x : DirEntry) : liveName (x.mapShort f) = liveName x := by
  cases x with
  | short e =>
    have hfree : DirEntry.isFree (.short (f e)) = DirEntry.isFree (.short e) := hf.isFree (.short e)
    simp [DirEntry.mapShort, Fat32.liveName, hfree, hf.name]
  | long e => rfl

lemma KeepsName.entryName (e : ShortEntry) (st : LfnState) :
    entryName (f e) st = entryName e st := by
  simp [Fat32.entryName, hf.name]

lemma dirIterNext_map (l : List DirEntry) (st : LfnState) :
    dirIterNext (l.map (mapShort f)) st = (dirIterNext l st).mapShort f := by
  induction l generalizing st with
  | nil => rfl
  | cons x l ih =>
    rw [List.map_cons, dirIterNext.eq_def, dirIterNext.eq_def (x :: l)]
    dsimp only
    rw [hf.first]
    by_cases hzero : x.first = 0
    · rw [if_pos hzero, if_pos hzero]
      rfl
    rw [if_neg hzero, if_neg hzero]
    by_cases hdeleted : x.first = 0xE5
    · rw [if_pos hdeleted, if_pos hdeleted]
      exact ih st
    rw [if_neg hdeleted, if_neg hdeleted]
    cases x with
    | long lfn =>
      dsimp only [mapShort]
      generalize extractLfn lfn _ _ = extracted
      rcases extracted with _ | ⟨lfnName, pos⟩
      · rfl
      · exact ih _
    | short e =>
      dsimp only [mapShort]
      rw [hf.attr, hf.entryName]
      by_cases hlabel : e.attr.testBit 3 = true
      · rw [if_pos hlabel, if_pos hlabel]
        exact ih st
      · rw [if_neg hlabel, if_neg hlabel]
        rfl

lemma findFrom_map (name : List ℕ) (n : ℕ) (l : List DirEntry) (st : LfnState) :
    findFrom name n (l.map (mapShort f)) st = (findFrom name n l st).mapShort f := by
  induction n generalizing l st with
  | zero => rfl
  | succ n ih =>
    rw [findFrom, findFrom, dirIterNext_map hf]
    cases dirIterNext l st with
    | stop => rfl
    | overflow => rfl
    | found e m rest st' =>
      simp only [IterResult.mapShort]
      by_cases hsame : SameName name m
      · rw [if_pos hsame, if_pos hsame]
        rfl
      · rw [if_neg hsame, if_neg hsame]
        exact ih rest st'

/-- **The search sees a change that keeps the names.** -/
lemma findInDir_map (name : List ℕ) (d : List (List DirEntry)) :
    findInDir name (d.map (List.map (mapShort f))) = (findInDir name d).mapShort f := by
  rw [findInDir, ← List.map_flatten, List.length_map, findFrom_map hf]
  rfl

end

lemma liveNames_eq (d : List (List DirEntry)) : liveNames d = liveIn d.flatten := by
  rw [liveNames, liveIn, List.filterMap_flatten]
  rfl

lemma liveNames_map (hf : KeepsName f) (d : List (List DirEntry)) :
    liveNames (d.map (List.map (mapShort f))) = liveNames d := by
  rw [liveNames_eq, liveNames_eq, ← List.map_flatten, liveIn, List.filterMap_map]
  exact List.filterMap_congr fun x _ => hf.liveName x

/-! ## The slot of an entry -/

lemma dirIterNext_found (h : dirIterNext l st = .found e n rest st') :
    short e ∈ l.takeWhile isUsed ∧ isFree (.short e) = false ∧
      rest.takeWhile isUsed ⊆ l.takeWhile isUsed := by
  induction l generalizing st with
  | nil => cases h
  | cons x l ih =>
    rw [dirIterNext.eq_def] at h
    dsimp only at h
    by_cases hzero : x.first = 0
    · rw [if_pos hzero] at h
      cases h
    rw [if_neg hzero] at h
    rw [List.takeWhile_cons_of_pos (isUsed_iff.mpr hzero)]
    have hskip : ∀ {st}, dirIterNext l st = .found e n rest st' →
        short e ∈ x :: l.takeWhile isUsed ∧ isFree (.short e) = false ∧
          rest.takeWhile isUsed ⊆ x :: l.takeWhile isUsed := by
      intro st hnext
      obtain ⟨hmem, hlive, hsub⟩ := ih hnext
      exact ⟨.tail _ hmem, hlive, List.subset_cons_of_subset _ hsub⟩
    by_cases hdeleted : x.first = 0xE5
    · rw [if_pos hdeleted] at h
      exact hskip h
    rw [if_neg hdeleted] at h
    cases x with
    | long lfn =>
      dsimp only at h
      generalize extractLfn lfn _ _ = extracted at h
      rcases extracted with _ | ⟨lfnName, pos⟩
      · cases h
      · exact hskip h
    | short s =>
      dsimp only at h
      by_cases hlabel : s.attr.testBit 3 = true
      · rw [if_pos hlabel] at h
        exact hskip h
      · rw [if_neg hlabel] at h
        injection h with he hn hrest hst
        subst he hrest
        exact ⟨(.head _), isFree_eq_false hzero hdeleted, List.subset_cons_self ..⟩

lemma findFrom_found (k : ℕ) (h : findFrom name k l st = .found e) :
    short e ∈ l.takeWhile isUsed ∧ isFree (.short e) = false := by
  induction k generalizing l st with
  | zero => cases h
  | succ k ih =>
    rw [findFrom] at h
    cases hnext : dirIterNext l st with
    | stop =>
      rw [hnext] at h
      cases h
    | overflow =>
      rw [hnext] at h
      cases h
    | found e' n rest st' =>
      rw [hnext] at h
      dsimp only at h
      obtain ⟨hmem, hlive, hsub⟩ := dirIterNext_found hnext
      split_ifs at h
      · obtain rfl := FindResult.found.inj h
        exact ⟨hmem, hlive⟩
      · obtain ⟨hmem', hlive'⟩ := ih h
        exact ⟨hsub hmem', hlive'⟩

/-- One entry replaced by another. -/
def ShortEntry.replace (s s' e : ShortEntry) : ShortEntry := if e = s then s' else e

lemma KeepsName.replace (hname : s'.name = s.name) (hattr : s'.attr = s.attr) :
    KeepsName (ShortEntry.replace s s') := by
  constructor
  · intro e
    rw [ShortEntry.replace]
    split_ifs with h
    · rw [h, hname]
    · rfl
  · intro e
    rw [ShortEntry.replace]
    split_ifs with h
    · rw [h, hattr]
    · rfl

lemma liveName_short (h : isFree (.short s) = false) : liveName (.short s) = some s.name := by
  rw [liveName, h]
  rfl

lemma notMem_of_nodup (h : (liveIn (a ++ .short s :: b)).Nodup)
    (hlive : isFree (.short s) = false) : ∀ x ∈ a ++ b, liveName x ≠ some s.name := by
  have hcons : liveIn (.short s :: b) = s.name :: liveIn b :=
    List.filterMap_cons_some (liveName_short hlive)
  rw [liveIn_append, hcons, List.nodup_middle, List.nodup_cons, ← liveIn_append] at h
  intro x hx hname
  exact h.1 (List.mem_filterMap.2 ⟨x, hx, hname⟩)

lemma map_replace_of_forall (h : ∀ x ∈ l, x ≠ .short s) :
    l.map (mapShort (replace s s')) = l := by
  conv_rhs => rw [← List.map_id l]
  refine List.map_congr_left fun x hx => ?_
  cases x with
  | short e =>
    have hne : e ≠ s := fun he => h _ hx (he ▸ rfl)
    simp [mapShort, replace, if_neg hne, id_eq]
  | long e => rfl

lemma take_cons_drop {α : Type*} {l : List α} {k : ℕ} {x : α} (hk : l[k]? = some x) :
    l = l.take k ++ x :: l.drop (k + 1) := by
  obtain ⟨hlt, hget⟩ := List.getElem?_eq_some_iff.1 hk
  simp [← hget]

section

variable {k : ℕ} {p t : List DirEntry} (hnodup : (liveNames d).Nodup)
  (hk : d[k]? = some (p ++ .short s :: t)) (hlive : DirEntry.isFree (.short s) = false)

include hnodup hk hlive

lemma liveName_ne_of_other :
    ∀ x ∈ ((d.take k).flatten ++ p) ++ (t ++ (d.drop (k + 1)).flatten),
    liveName x ≠ some s.name := by
  have hflat : d.flatten = ((d.take k).flatten ++ p) ++ .short s ::
    (t ++ (d.drop (k + 1)).flatten) := by
    conv_lhs => rw [take_cons_drop hk]
    simp [List.append_assoc]
  rw [liveNames_eq, hflat] at hnodup
  exact notMem_of_nodup hnodup hlive

lemma eq_of_liveName {i : ℕ} {c : List DirEntry} (hi : d[i]? = some c) (hx : x ∈ c)
    (hname : liveName x = some s.name) : i = k ∧ x = .short s := by
  have hother := liveName_ne_of_other hnodup hk hlive
  rcases lt_trichotomy i k with hlt | rfl | hgt
  · have hmem : c ∈ d.take k := List.mem_of_getElem? (by rw [List.getElem?_take_of_lt hlt, hi])
    exact absurd hname (hother x (by simp [List.mem_flatten_of_mem hmem hx]))
  · obtain rfl := Option.some.inj (hk.symm.trans hi)
    rcases List.mem_append.1 hx with hp | hx
    · exact absurd hname (hother x (by simp [hp]))
    · rcases List.mem_cons.1 hx with rfl | ht
      · exact ⟨rfl, rfl⟩
      · exact absurd hname (hother x (by simp [ht]))
  · have hmem : c ∈ d.drop (k + 1) := by
      refine List.mem_of_getElem? (i := i - (k + 1)) ?_
      rw [List.getElem?_drop, Nat.add_sub_cancel' hgt, hi]
    exact absurd hname (hother x (by simp [List.mem_flatten_of_mem hmem hx]))

/-- **Storing an entry in its slot**, with distinct short names. -/
lemma set_eq_map : d.set k (p ++ .short s' :: t) =
    d.map (List.map (mapShort (replace s s'))) := by
  have hne : ∀ x ∈ ((d.take k).flatten ++ p) ++ (t ++ (d.drop (k + 1)).flatten), x ≠ .short s := by
    rintro x hx rfl
    exact liveName_ne_of_other hnodup hk hlive _ hx (liveName_short hlive)
  have hside : ∀ {ds : List (List DirEntry)}, (∀ x ∈ ds.flatten, x ≠ .short s) →
      ds.map (List.map (mapShort (replace s s'))) = ds := by
    intro ds hds
    conv_rhs => rw [← List.map_id ds]
    refine List.map_congr_left fun c hc => ?_
    exact map_replace_of_forall fun x hx => hds x (List.mem_flatten_of_mem hc hx)
  have hself : replace s s' s = s' := if_pos rfl
  rw [List.set_eq_take_append_cons_drop, if_pos (List.getElem?_eq_some_iff.1 hk).1]
  conv_rhs => rw [take_cons_drop hk]
  rw [List.map_append, List.map_cons, List.map_append, List.map_cons, mapShort, hself,
    hside fun x hx => hne x (by simp [hx]), hside fun x hx => hne x (by simp [hx]),
    map_replace_of_forall fun x hx => hne x (by simp [hx]),
    map_replace_of_forall fun x hx => hne x (by simp [hx])]

end

end

/-! ## `fat32_update_dir_entry` -/

section

variable {v : Volume} {name t : List ℕ} {dir : ℕ} {s e : ShortEntry}

section

variable (hchain : IsChain v (dir :: t))

include hchain

lemma exists_foundAt_of_find (hnodup : (liveNames (v.directory dir)).Nodup)
    (hfind : findInDir name (v.directory dir) = .found s) :
    ∃ k d p b, FoundAt v (dir :: t) s.name 0 k d p.length ∧ v.entries d = p ++ .short s :: b ∧
      isFree (.short s) = false ∧
      ∀ k' c, k' < k → (dir :: t)[k']? = some c → ∀ x ∈ v.entries c, x.first ≠ 0 := by
  obtain ⟨hmem, hlive⟩ := findFrom_found _ hfind
  obtain ⟨k, c, hk, hc, hbefore⟩ := mem_takeWhile_flatten hmem
  have hdir := directory_eq hchain
  rw [hdir, List.getElem?_map] at hk
  obtain ⟨d, hd, rfl⟩ := Option.map_eq_some_iff.1 hk
  have hfirst := first_of_live hlive
  -- the slot in its cluster
  obtain ⟨j, hj⟩ : ∃ j, findShort s.name (v.entries d) = some j := by
    refine Option.ne_none_iff_exists'.1 fun hnone => ?_
    have hused : short s ∈ (v.entries d).takeWhile fun e => e.first ≠ 0 := hc
    have := findShort_eq_none hnone _ hused
    rw [hasShort_short hfirst.2 rfl] at this
    cases this
  obtain ⟨p, s₀, b, hsplit, rfl, -, h0, h5, hname⟩ := findShort_eq_some hj
  have hlive₀ := isFree_eq_false h0 h5
  have hdirk : (v.directory dir)[k]? = some (p ++ .short s₀ :: b) := by
    rw [hdir, List.getElem?_map, hd, Option.map_some, hsplit]
  have hunique : ∀ i c', (dir :: t)[i]? = some c' → ∀ x ∈ v.entries c',
      liveName x = some s.name → i = k ∧ x = .short s₀ := by
    intro i c' hi x hx hxn
    refine eq_of_liveName hnodup hdirk hlive₀ (i := i) (c := v.entries c') ?_ hx (hxn.trans ?_)
    · rw [hdir, List.getElem?_map, hi, Option.map_some]
    · rw [hname]
  obtain rfl : s = s₀ := by
    have hs : short s ∈ v.entries d := (List.takeWhile_sublist _).subset hc
    exact short.inj (hunique k d hd _ hs (liveName_short hlive)).2
  refine ⟨k, d, p, b, ⟨Nat.zero_le k, hd, hj, fun i c' _ hi hc' => ?_⟩, hsplit, hlive,
    fun i c' hi hc' x hx => ?_⟩
  · -- the clusters before do not have it
    cases hother : findShort s.name (v.entries c') with
    | none => rfl
    | some j =>
      obtain ⟨q, s₁, r, hq, -, -, hs0, hs5, hsname⟩ := findShort_eq_some hother
      have hs₁ : short s₁ ∈ v.entries c' := by simp [hq]
      have hn := liveName_short (isFree_eq_false hs0 hs5)
      rw [hsname] at hn
      exact absurd (hunique i c' hc' _ hs₁ hn).1 (Nat.ne_of_lt hi)
  · refine isUsed_iff.1 (hbefore i (v.entries c') hi ?_ x hx)
    rw [hdir, List.getElem?_map, hc', Option.map_some]

lemma findInDir_of_chain : v.findInDir dir name true = findInDir name (v.directory dir) := by
  have h2 := (cluster_lt_eocMin hchain.small (hchain.mem_clusters dir (.head _))).1
  exact if_neg (not_or.2 ⟨Nat.not_lt.2 h2, nofun⟩)

lemma fits_of_find (hfind : v.findInDir dir name true = .found s) : s.Fits := by
  rw [findInDir_of_chain hchain] at hfind
  have hmem := (List.takeWhile_sublist _).subset (findFrom_found _ hfind).1
  obtain ⟨c, hc, hs⟩ := List.mem_flatten.1 hmem
  obtain ⟨d, -, rfl⟩ := List.mem_map.1 hc
  obtain ⟨i, -, hentry⟩ := List.mem_map.1 hs
  rw [decodeEntry] at hentry
  split_ifs at hentry with hlong
  rw [← short.inj hentry]
  exact ⟨UInt8.toNat_lt _, Buffer.half_lt _, Buffer.half_lt _, Buffer.word_lt _⟩

/-- **The update of an entry**: the file is found with it, and the short names stay. -/
lemma updateDirEntry_spec (hnodup : (liveNames (v.directory dir)).Nodup)
    (hfind : v.findInDir dir name true = .found s) (hname : e.name = s.name)
    (hattr : e.attr = s.attr)
    (he : e.Fits) {stamp : ℕ × ℕ} (h1 : stamp.1 < 2 ^ 16) (h2 : stamp.2 < 2 ^ 16)
    (clusterBuf : Buffer) :
    ∃ d ∈ dir :: t, ∃ buf, v.updateDirEntry dir e stamp (some clusterBuf) =
    (true, v.putCluster d buf) ∧
      (v.putCluster d buf).findInDir dir name true = .found (s.updated e stamp) ∧
      liveNames ((v.putCluster d buf).directory dir) = liveNames (v.directory dir) := by
  have hdir := (cluster_lt_eocMin hchain.small (hchain.mem_clusters dir (.head _))).1
  rw [findInDir_of_chain hchain] at hfind
  obtain ⟨k, d, p, b, hfound, hsplit, hlive, hused⟩ := exists_foundAt_of_find hchain hnodup hfind
  have hlen := hchain.length_le
  obtain ⟨buf, hbuf, hedit⟩ := editLoop_of_found hchain (fun b i => updateSlot b i e stamp) true
    v.mount.totalClusters clusterBuf (i := 0) rfl (by omega) hfound
    fun _ k' c _ hk' hc => hused k' c hk' hc
  have hentries : clusterEntries v.mount (updateSlot buf p.length e stamp) =
      p ++ .short (s.updated e stamp) :: b := by
    have hslot : (clusterEntries v.mount buf)[p.length]? = some (.short s) := by
      rw [hbuf, hsplit, List.getElem?_append_right le_rfl, Nat.sub_self]
      rfl
    have hlt : p.length < v.mount.bytesPerCluster / 32 := by
      rw [← length_clusterEntries v.mount buf]
      exact (List.getElem?_eq_some_iff.1 hslot).1
    simp [clusterEntries_updateSlot hlt hslot he h1 h2, hbuf, hsplit]
  have hk : (v.directory dir)[k]? = some (p ++ .short s :: b) := by
    rw [directory_eq hchain, List.getElem?_map, hfound.cluster, Option.map_some, hsplit]
  have hafter : (v.putCluster d (updateSlot buf p.length e stamp)).directory dir =
      (v.directory dir).map (List.map (mapShort (replace s (s.updated e stamp)))) := by
    rw [directory_putCluster hchain hfound.cluster, hentries]
    exact set_eq_map hnodup hk hlive
  have hkeeps : KeepsName (replace s (s.updated e stamp)) := .replace rfl hattr
  refine ⟨d, List.mem_of_getElem? hfound.cluster, updateSlot buf p.length e stamp, ?_, ?_, ?_⟩
  · rw [Volume.updateDirEntry, if_neg (Nat.not_lt.2 hdir), hname]
    exact hedit
  · rw [Volume.findInDir, if_neg (not_or.2 ⟨Nat.not_lt.2 hdir, nofun⟩), hafter,
      findInDir_map hkeeps, hfind]
    exact congrArg FindResult.found (if_pos rfl)
  · rw [hafter, liveNames_map hkeeps]

end

end

end FrostByte.Fat32
