import FrostByte.Fat.CreateFind
import FrostByte.Lib.Word
import Mathlib.Data.List.Find

/-!
# The slots that creating an entry looks at

The search for free slots in a row counts to `entries_per_cluster - entries_needed`, a difference of
32-bit words. When a name needs more slots than a cluster has, it wraps, and the search runs over
the buffer's end.

## Main definitions

* `searchRun` — the search for free slots with the wrapped bound.
* `createAt` — a call that creates an entry, with the slots it looks at.
* `CreatesInside` — every slot it looks at is in the buffer.

## Main results

* `createsInside_iff` — this holds exactly when the slots of the name fit into a cluster.
* `createAt_long_name` — a name of 196 characters reads behind the buffer.
-/

namespace FrostByte.Fat32

open Word

/-- The loop over `j`: whether `n` slots are free, and the slots it looks at. -/
def checkRun (slot : ℕ → DirEntry) : ℕ → ℕ → Bool × List ℕ
  | 0, _ => (true, [])
  | n + 1, k =>
    if (slot k).isFree then
      let r := checkRun slot n (k + 1)
      (r.1, k :: r.2)
    else (false, [k])

/-- The loop over `i`, with `n` rounds to go. -/
def searchRun (slot : ℕ → DirEntry) (needed : ℕ) : ℕ → ℕ → Option ℕ × List ℕ
  | 0, _ => (none, [])
  | n + 1, i =>
    let r := checkRun slot needed i
    if r.1 then (some i, r.2)
    else
      let rest := searchRun slot needed n (i + 1)
      (rest.1, r.2 ++ rest.2)

/-- A slot of the buffer, or of the memory behind it. -/
def slotAt (g : Geometry) (c : List DirEntry) (behind : ℕ → DirEntry) (k : ℕ) : DirEntry :=
  if k < g.entriesPerCluster then c.getD k zeroEntry else behind k

/-- The loop of the creating functions, with the slots that it reads and writes. -/
def addEntriesAt (g : Geometry) (grow : Bool) (behind : ℕ → DirEntry) (new : List DirEntry)
    (rounds : ℕ) : ℕ → List (List DirEntry) → (Bool × List (List DirEntry)) × List ℕ
  | 0, d => ((false, d), [])
  | _ + 1, [] => ((false, []), [])
  | n + 1, c :: cs =>
    let r := searchRun (slotAt g c behind) new.length rounds 0
    match r.1 with
    | some i =>
        ((true, (place c i new).take g.entriesPerCluster :: cs), r.2 ++ List.range' i new.length)
    | none =>
      if cs = [] ∧ grow = false then ((false, [c]), r.2)
      else
        let next := if cs = [] then [List.replicate g.entriesPerCluster zeroEntry] else cs
        let rest := addEntriesAt g grow behind new rounds n next
        ((rest.1.1, c :: rest.1.2), r.2 ++ rest.2)

/-- The entries that a creating function writes. -/
def newEntries (kind : EntryKind) (cluster : ℕ) (stamp : ℕ × ℕ) (lfns : List LfnEntry)
    (fatName : List ℕ) : List DirEntry :=
  lfns.map .long ++ [.short (newShort kind fatName cluster stamp)]

/-- The creating functions; a directory gets its first two entries before. -/
def createAt (g : Geometry) (kind : EntryKind) (name : List ℕ) (cluster : ℕ) (ready grow : Bool)
    (stamp : ℕ × ℕ) (behind : ℕ → DirEntry) (d : List (List DirEntry)) :
    (Bool × List (List DirEntry)) × List ℕ :=
  match newNames name with
  | none => ((false, d), [])
  | some (lfns, fatName) =>
    if ready then
      -- `i` runs to `entries_per_cluster - entries_needed`
      let r := addEntriesAt g grow behind (newEntries kind cluster stamp lfns fatName)
        (sub32 g.entriesPerCluster (lfns.length + 1) + 1) g.totalClusters d
      (r.1, (if kind = .directory then [0, 1] else []) ++ r.2)
    else ((false, d), [])

/-- All slots are in the buffer, and a success leaves all entries in a cluster. -/
structure CreatesInside (g : Geometry) (kind : EntryKind) (name : List ℕ) (cluster : ℕ)
    (stamp : ℕ × ℕ) (r : (Bool × List (List DirEntry)) × List ℕ) : Prop where
  inside : ∀ k ∈ r.2, k < g.entriesPerCluster
  written : r.1.1 = true → ∀ lfns fatName, newNames name = some (lfns, fatName) →
    ∃ c ∈ r.1.2, newEntries kind cluster stamp lfns fatName <:+: c

variable {g : Geometry} {slot behind : ℕ → DirEntry} {c new : List DirEntry}
    {d : List (List DirEntry)}
  {needed : ℕ}

lemma checkRun_mem (n k : ℕ) : (∀ x ∈ (checkRun slot n k).2, x < k + n) ∧
    ((checkRun slot n k).1 = true → ∀ x, k ≤ x → x < k + n → x ∈ (checkRun slot n k).2) := by
  induction n generalizing k with
  | zero => exact ⟨nofun, fun _ x hk hx => by omega⟩
  | succ n ih =>
    obtain ⟨hlt, hall⟩ := ih (k + 1)
    rw [checkRun]
    split_ifs
    · refine ⟨fun x hx => ?_, fun hfree x hk hx => ?_⟩
      · rcases List.mem_cons.mp hx with rfl | hx
        · omega
        · have := hlt x hx
          omega
      · rcases Nat.eq_or_lt_of_le hk with rfl | hk
        · exact .head _
        · exact .tail _ (hall hfree x hk (by omega))
    · exact ⟨fun x hx => by simp at hx; omega, nofun⟩

lemma mem_checkRun (hneeded : 0 < needed) (k : ℕ) : k ∈ (checkRun slot needed k).2 := by
  obtain ⟨n, rfl⟩ := Nat.exists_eq_add_one.mpr hneeded
  rw [checkRun]
  split_ifs <;> simp

lemma checkRun_slotAt (hc : c.length = g.entriesPerCluster) (n i : ℕ)
    (h : i + n ≤ g.entriesPerCluster) :
    (checkRun (slotAt g c behind) n i).1 = ((c.drop i).take n).all DirEntry.isFree := by
  induction n generalizing i with
  | zero => rfl
  | succ n ih =>
    have hi : i < c.length := by omega
    have hslot : slotAt g c behind i = getElem c i hi := by
      rw [slotAt, if_pos (by omega), List.getD_eq_getElem _ _ hi]
    rw [checkRun, hslot, List.drop_eq_getElem_cons hi, List.take_succ_cons, List.all_cons,
      ← ih (i + 1) (by omega)]
    split_ifs with hfree
    · simp [hfree]
    · simp [hfree]

lemma searchRun_spec (n i : ℕ) : (searchRun slot needed n i).1 =
      (List.range' i n).find? (fun i => (checkRun slot needed i).1) ∧
    ∀ x ∈ (searchRun slot needed n i).2, x + 1 < i + n + needed := by
  induction n generalizing i with
  | zero => exact ⟨rfl, nofun⟩
  | succ n ih =>
    obtain ⟨hfind, hlt⟩ := ih (i + 1)
    have hcheck : ∀ x ∈ (checkRun slot needed i).2, x < i + needed := (checkRun_mem needed i).1
    rw [searchRun, List.range'_succ, List.find?_cons]
    cases (checkRun slot needed i).1 with
    | true => exact ⟨rfl, fun x hx => by have := hcheck x hx; omega⟩
    | false =>
      refine ⟨hfind, fun x hx => ?_⟩
      rcases List.mem_append.mp hx with hx | hx
      · have := hcheck x hx
        omega
      · have := hlt x hx
        omega

/-- **A search that wraps passes the end of the buffer.** -/
lemma mem_searchRun {e : ℕ} (hneeded : e < needed) (n i : ℕ) (hi : i ≤ e) (hn : e < i + n) :
    e ∈ (searchRun slot needed n i).2 := by
  induction n generalizing i with
  | zero => omega
  | succ n ih =>
    rw [searchRun]
    split_ifs with hfound
    · exact (checkRun_mem needed i).2 hfound e hi (by omega)
    · rcases Nat.eq_or_lt_of_le hi with rfl | hi
      · exact List.mem_append_left _ (mem_checkRun (by omega) i)
      · exact List.mem_append_right _ (ih (i + 1) hi (by omega))

lemma slotsNeeded_le {name fatName : List ℕ} {lfns : List LfnEntry}
    (h : newNames name = some (lfns, fatName)) : slotsNeeded name ≤ 21 := by
  unfold newNames generateLfnEntries at h
  unfold slotsNeeded
  split_ifs at h ⊢
  · omega
  · decide

lemma addEntriesAt_inside (hd : ∀ c ∈ d, c.length = g.entriesPerCluster)
    (hnew : new.length ≤ g.entriesPerCluster) {rounds : ℕ}
    (hrounds : rounds = g.entriesPerCluster + 1 - new.length) (grow : Bool) (n : ℕ) :
    addEntries g grow new n d = some (addEntriesAt g grow behind new rounds n d).1 ∧
      ∀ k ∈ (addEntriesAt g grow behind new rounds n d).2, k < g.entriesPerCluster := by
  induction n generalizing d with
  | zero => exact ⟨rfl, nofun⟩
  | succ n ih =>
    cases d with
    | nil => exact ⟨rfl, nofun⟩
    | cons c cs =>
      obtain ⟨hc, hcs⟩ := List.forall_mem_cons.mp hd
      obtain ⟨hfind, hlt⟩ := @searchRun_spec (slotAt g c behind) new.length rounds 0
      have hrun : (searchRun (slotAt g c behind) new.length rounds 0).1 =
        findRun g new.length c := by
        rw [hfind, findRun, List.range_eq_range', ← hrounds]
        refine List.find?_congr fun i hi => checkRun_slotAt hc _ _ ?_
        rw [List.mem_range'_1] at hi
        omega
      rw [addEntries, if_neg (not_lt.mpr hnew), addEntriesAt]
      rw [hrun]
      cases hi : findRun g new.length c with
      | some i =>
        have hle := (findRun_some hi).1
        have hlen : (place c i new).length = g.entriesPerCluster := by
          simp [place]
          omega
        dsimp only
        rw [List.take_of_length_le hlen.le]
        refine ⟨rfl, fun k hk => ?_⟩
        rcases List.mem_append.mp hk with hk | hk
        · have := hlt k hk
          omega
        · have := List.mem_range'_1.mp hk
          omega
      | none =>
        dsimp only
        by_cases hlast : cs = [] ∧ grow = false
        · rw [if_pos hlast, if_pos hlast]
          exact ⟨rfl, fun k hk => by have := hlt k hk; omega⟩
        · rw [if_neg hlast, if_neg hlast]
          obtain ⟨hrest, hin⟩ :=
            ih (d := if cs = [] then [List.replicate g.entriesPerCluster zeroEntry] else cs)
            (by split_ifs <;> simp_all)
          rw [hrest]
          refine ⟨rfl, fun k hk => ?_⟩
          rcases List.mem_append.mp hk with hk | hk
          · have := hlt k hk
            omega
          · exact hin k hk

lemma addEntriesAt_outside (hnew : g.entriesPerCluster < new.length) {rounds : ℕ}
    (hrounds : g.entriesPerCluster < rounds) (hne : d ≠ []) (grow : Bool) {n : ℕ} (hn : 0 < n) :
    g.entriesPerCluster ∈ (addEntriesAt g grow behind new rounds n d).2 := by
  obtain ⟨n, rfl⟩ := Nat.exists_eq_add_one.mpr hn
  obtain ⟨c, cs, rfl⟩ := List.exists_cons_of_ne_nil hne
  have hmem : g.entriesPerCluster ∈ (searchRun (slotAt g c behind) new.length rounds 0).2 :=
    mem_searchRun hnew _ 0 (Nat.zero_le _) (by omega)
  rw [addEntriesAt]
  split
  · exact List.mem_append_left _ hmem
  · by_cases hlast : cs = [] ∧ grow = false
    · rw [if_pos hlast]
      exact hmem
    · rw [if_neg hlast]
      exact List.mem_append_left _ hmem

variable {kind : EntryKind} {name : List ℕ} {cluster : ℕ} {ready grow : Bool} {stamp : ℕ × ℕ}

lemma createAt_outside (hname : newNames name ≠ none) (hlt : g.entriesPerCluster < slotsNeeded name)
    (hne : d ≠ []) (htotal : 0 < g.totalClusters) :
    g.entriesPerCluster ∈ (createAt g kind name cluster true grow stamp behind d).2 := by
  obtain ⟨⟨lfns, fatName⟩, hnames⟩ := Option.ne_none_iff_exists'.mp hname
  have hneeded := (newNames_eq hnames).2.1
  have hsmall := slotsNeeded_le hnames
  have hrounds : g.entriesPerCluster < sub32 g.entriesPerCluster (lfns.length + 1) + 1 := by
    unfold sub32 w32
    omega
  unfold createAt
  rw [hnames]
  dsimp only
  rw [if_pos rfl]
  refine List.mem_append_right _ (addEntriesAt_outside ?_ hrounds hne grow htotal)
  simp [newEntries]
  omega

lemma createAt_inside (hg : g.entriesPerCluster < 0x100000000)
    (hd : ∀ c ∈ d, c.length = g.entriesPerCluster) (hname : newNames name ≠ none)
    (hfit : slotsNeeded name ≤ g.entriesPerCluster)
    (hdir : kind = .directory → 2 ≤ g.entriesPerCluster) :
    CreatesInside g kind name cluster stamp
    (createAt g kind name cluster true grow stamp behind d) := by
  obtain ⟨⟨lfns, fatName⟩, hnames⟩ := Option.ne_none_iff_exists'.mp hname
  rw [← (newNames_eq hnames).2.1] at hfit
  have hlen : (newEntries kind cluster stamp lfns fatName).length = lfns.length + 1 := by
    simp [newEntries]
  have hrounds : sub32 g.entriesPerCluster (lfns.length + 1) + 1 =
      g.entriesPerCluster + 1 - (newEntries kind cluster stamp lfns fatName).length := by
    rw [sub32_of_le hfit hg, hlen, Nat.sub_add_comm hfit]
  obtain ⟨hadd, hin⟩ := @addEntriesAt_inside g behind _ d hd (hlen.trans_le hfit) _ hrounds grow
    g.totalClusters
  unfold createAt
  rw [hnames]
  dsimp only
  rw [if_pos rfl]
  refine ⟨fun k hk => ?_, fun hok lfns' fatName' hnames' => ?_⟩
  · rcases List.mem_append.mp hk with hk | hk
    · split_ifs at hk with hkind
      · have := hdir hkind
        simp at hk
        omega
      · cases hk
    · exact hin k hk
  · obtain ⟨rfl, rfl⟩ := Prod.mk.inj (Option.some.inj (hnames.symm.trans hnames'))
    obtain ⟨before, c, after, i, -, -, hd', -⟩ := addEntries_true _
      (hadd.trans (congrArg some (Prod.ext hok rfl)))
    have hmem := List.mem_append_right before
      (.head after : place c i (newEntries kind cluster stamp lfns fatName) ∈ _ :: after)
    rw [← hd'] at hmem
    exact ⟨_, hmem, c.take i, c.drop _, rfl⟩

/-- **Creating an entry stays inside the buffer** exactly if its slots fit into a cluster. -/
theorem createsInside_iff (hg : g.entriesPerCluster < 0x100000000)
    (hd : ∀ c ∈ d, c.length = g.entriesPerCluster) (hne : d ≠ []) (htotal : 0 < g.totalClusters) :
    CreatesInside g kind name cluster stamp
    (createAt g kind name cluster ready grow stamp behind d) ↔
      (newNames name ≠ none → ready = true →
        slotsNeeded name ≤ g.entriesPerCluster ∧
        (kind = .directory → 2 ≤ g.entriesPerCluster)) := by
  constructor
  · rintro ⟨hin, -⟩ hname rfl
    refine ⟨?_, fun hdir => ?_⟩
    · by_contra hlt
      exact lt_irrefl _ (hin _ (createAt_outside hname (not_le.mp hlt) hne htotal))
    · obtain ⟨names, hnames⟩ := Option.ne_none_iff_exists'.mp hname
      refine hin 1 ?_
      rw [createAt, hnames, hdir]
      exact List.mem_append_left _ (by decide)
  · intro h
    by_cases hgo : newNames name ≠ none ∧ ready = true
    · obtain ⟨hname, rfl⟩ := hgo
      obtain ⟨hfit, hdir⟩ := h hname rfl
      exact createAt_inside hg hd hname hfit hdir
    · have hrefused : createAt g kind name cluster ready grow stamp behind d =
        ((false, d), []) := by
        unfold createAt
        split
        · rfl
        · next hnames => exact if_neg fun hready => hgo ⟨by simp [hnames], hready⟩
      rw [hrefused]
      exact ⟨nofun, nofun⟩

/-- A name of one letter takes two of the sixteen slots. -/
theorem createsInside_one : slotsNeeded [97] = 2 ∧ CreatesInside ⟨16, 8⟩ .directory [97] 5 (0, 0)
    (createAt ⟨16, 8⟩ .directory [97] 5 true true (0, 0) (fun _ => zeroEntry)
      [List.replicate 16 zeroEntry]) :=
  ⟨by decide, (createsInside_iff (by decide) (by simp) (by simp) (by decide)).mpr
    fun _ _ => ⟨by decide, fun _ => by decide⟩⟩

/-- A name of 196 characters takes 17 slots, and a cluster of 512 bytes has 16. -/
theorem createAt_long_name : slotsNeeded (List.replicate 196 97) = 17 ∧
    ∀ kind cluster grow stamp behind,
    16 ∈ (createAt ⟨16, 8⟩ kind (List.replicate 196 97) cluster true grow
      stamp behind [List.replicate 16 zeroEntry]).2 := by
  have hslots : slotsNeeded (List.replicate 196 97) = 17 := by decide +kernel
  refine ⟨hslots, fun kind cluster grow stamp behind => ?_⟩
  exact createAt_outside (by decide +kernel) (hslots ▸ by decide) (by simp) (by decide)

end FrostByte.Fat32
