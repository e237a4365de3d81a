import FrostByte.Fat.Names
import FrostByte.Lib.Run
import Mathlib.Data.List.Nodup
import Mathlib.Data.List.Perm.Basic

/-!
# Creating and deleting entries of a directory

`fat32_create_file`, `fat32_create_directory`, `fat32_delete_file` and `fat32_delete_directory` on
one directory, the list of the clusters of its chain with their entries. What the calls learn of the
rest of the volume (memory, a new cluster, an empty subdirectory, what is left of a freed chain) is
an argument. The calls that create are modelled on these lists only, deleting also on the bytes of a
volume (`Fat/DirVolume`).

## Main definitions

* `createFile`, `createDirectory`, `deleteFile`, `deleteDirectory` — the calls on the list of
  clusters.
* `findInDir` — `fat32_find_in_dir` on the same list.
* `orderlyDirectory` — the runs whose names fit, get their own short name and are not refused.

## Main results

* `orderly_directory` — in these runs short names are distinct and no name is made twice.
* `same_short_name` — without the conditions a file is created twice.
-/

namespace FrostByte.Fat32

open DirEntry

/-! ## Entries -/

/-- The slot is free: it was never used, or its entry has been deleted. -/
def DirEntry.isFree (e : DirEntry) : Bool := e.first = 0 || e.first = 0xE5

/-- Whether a slot holds a piece of a long name. -/
def DirEntry.isLong : DirEntry → Bool
  | .short _ => false
  | .long _ => true

/-- Both kinds are deleted by 0xE5 in their first byte. -/
def DirEntry.delete : DirEntry → DirEntry
  | .short e => .short { e with name := 0xE5 :: e.name.tail }
  | .long e => .long { e with order := 0xE5 }

/-- What an entry is created for. -/
inductive EntryKind
  | file
  | directory
  deriving DecidableEq

/-- The attribute byte of a new entry. -/
def EntryKind.attr : EntryKind → ℕ
  | .file => attrArchive
  | .directory => attrDirectory

/-- The short entry of a new file or directory. -/
def newShort (kind : EntryKind) (fatName : List ℕ) (cluster : ℕ) (stamp : ℕ × ℕ) : ShortEntry where
  name := fatName
  attr := kind.attr
  createTime := stamp.2
  createDate := stamp.1
  accessDate := stamp.1
  firstClusterHi := cluster / 0x10000 % 0x10000
  writeTime := stamp.2
  writeDate := stamp.1
  firstClusterLo := cluster % 0x10000
  fileSize := 0
  attr_ne := by cases kind <;> decide

/-- A slot that was never used: 32 zero bytes. -/
def zeroEntry : DirEntry := .short ⟨List.replicate 11 0, 0, 0, 0, 0, 0, 0, 0, 0, 0, by decide⟩

/-- The entries of a name; `none` if it is too long. -/
def newNames (name : List ℕ) : Option (List LfnEntry × List ℕ) :=
  if needsLfn name then generateLfnEntries name 20 else some ([], nameTo83 name)

/-! ## The calls -/

/-- `entries_per_cluster` and `total_clusters`. -/
structure Geometry where
  entriesPerCluster : ℕ
  totalClusters : ℕ

/-- The search for `needed` free slots in a row. -/
def findRun (g : Geometry) (needed : ℕ) (c : List DirEntry) : Option ℕ :=
  (List.range (g.entriesPerCluster + 1 - needed)).find? fun i =>
    ((c.drop i).take needed).all DirEntry.isFree

/-- New entries over the slots from `i` on. -/
def place (c : List DirEntry) (i : ℕ) (new : List DirEntry) : List DirEntry :=
  c.take i ++ new ++ c.drop (i + new.length)

/-- The loop of the creating functions, which appends a cluster if `grow` says so. It is `none` when
the inner loop runs over the end of the buffer. -/
def addEntries (g : Geometry) (grow : Bool) (new : List DirEntry) :
    ℕ → List (List DirEntry) → Option (Bool × List (List DirEntry))
  | 0, d => some (false, d)
  | _ + 1, [] => some (false, [])
  | n + 1, c :: cs =>
    if g.entriesPerCluster < new.length then none
    else
      match findRun g new.length c with
      | some i => some (true, place c i new :: cs)
      | none =>
        if cs = [] ∧ grow = false then some (false, [c])
        else
          let next := if cs = [] then [List.replicate g.entriesPerCluster zeroEntry] else cs
          (addEntries g grow new n next).map fun r => (r.1, c :: r.2)

/-- `fat32_create_file`: a new entry has no cluster and size 0. Nothing looks for the name
before. -/
def createFile (g : Geometry) (name : List ℕ) (kmalloc grow : Bool) (stamp : ℕ × ℕ)
    (d : List (List DirEntry)) : Option (Bool × List (List DirEntry)) :=
  match newNames name with
  | none => some (false, d)
  | some (lfns, fatName) =>
    if kmalloc then
      addEntries g grow (lfns.map .long ++ [.short (newShort .file fatName 0 stamp)])
        g.totalClusters d
    else some (false, d)

/-- `fat32_create_directory`, with the cluster allocated for it, or `0`. -/
def createDirectory (g : Geometry) (name : List ℕ) (cluster : ℕ) (kmalloc grow : Bool)
    (stamp : ℕ × ℕ) (d : List (List DirEntry)) : Option (Bool × List (List DirEntry)) :=
  match newNames name with
  | none => some (false, d)
  | some (lfns, fatName) =>
    if cluster = 0 then some (false, d)
    else if kmalloc then
      addEntries g grow (lfns.map .long ++ [.short (newShort .directory fatName cluster stamp)])
        g.totalClusters d
    else some (false, d)

/-- The comparison of `fat32_find_in_dir`. -/
def SameName (a b : List ℕ) : Prop := a.map toLower = b.map toLower

instance (a b : List ℕ) : Decidable (SameName a b) := inferInstanceAs (Decidable (_ = _))

/-- What the search for a name gives. -/
inductive FindResult
  | found (e : ShortEntry)
  | notFound
  /-- The iterator writes past its buffer. -/
  | overflow
  deriving DecidableEq

/-- The loop of `fat32_find_in_dir`, with at most `n` entries to go. -/
def findFrom (name : List ℕ) : ℕ → List DirEntry → LfnState → FindResult
  | 0, _, _ => .notFound
  | n + 1, entries, st =>
    match dirIterNext entries st with
    | .stop => .notFound
    | .overflow => .overflow
    | .found e entryName rest st =>
      if SameName name entryName then .found e else findFrom name n rest st

/-- The iterator before its first entry. -/
def LfnState.zero : LfnState := ⟨fun _ => 0, 0, 0⟩

/-- `fat32_find_in_dir`, over the clusters one after the other. -/
def findInDir (name : List ℕ) (d : List (List DirEntry)) : FindResult :=
  findFrom name (d.flatten.length + 1) d.flatten .zero

/-- A live short entry with these eleven bytes of name. -/
def hasShort (target : List ℕ) : DirEntry → Bool
  | .short s => decide (DirEntry.first (.short s) ≠ 0xE5) && decide (s.name = target)
  | .long _ => false

/-- The entry to be deleted: the first one with the short name, before an unused slot. -/
def findShort (target : List ℕ) (c : List DirEntry) : Option ℕ :=
  (c.takeWhile fun e => e.first ≠ 0).findIdx? (hasShort target)

/-- Mark slot `i` and its long-name entries as deleted. -/
def eraseAt (c : List DirEntry) (i : ℕ) : List DirEntry :=
  let before := (c.take i).reverse
  (before.dropWhile DirEntry.isLong).reverse ++
    ((before.takeWhile DirEntry.isLong).map DirEntry.delete).reverse ++
    (c.drop i).modifyHead DirEntry.delete

/-- The loop of the deleting functions over the clusters. -/
def deleteEntry (target : List ℕ) : ℕ → List (List DirEntry) → Bool × List (List DirEntry)
  | 0, d => (false, d)
  | _ + 1, [] => (false, [])
  | n + 1, c :: cs =>
    match findShort target c with
    | some i => (true, eraseAt c i :: cs)
    | none =>
      let r := deleteEntry target n cs
      (r.1, c :: r.2)

/-- The deleting functions; freeing the chain leaves `keep` clusters of the directory. -/
def deleteFound (g : Geometry) (name : List ℕ) (allowed : ShortEntry → Bool) (kmalloc : Bool)
    (keep : ℕ) (d : List (List DirEntry)) : Option (Bool × List (List DirEntry)) :=
  if kmalloc then
    match findInDir name d with
    | .overflow => none
    | .notFound => some (false, d)
    | .found e =>
      if allowed e then
        match deleteEntry e.name g.totalClusters d with
        | (false, d) => some (false, d)
        | (true, d) => some (true, d.take keep)
      else some (false, d)
  else some (false, d)

/-- `fat32_delete_file`: a name that belongs to a directory is refused. -/
def deleteFile (g : Geometry) (name : List ℕ) (kmalloc : Bool) (keep : ℕ)
    (d : List (List DirEntry)) : Option (Bool × List (List DirEntry)) :=
  deleteFound g name (fun e => !e.attr.testBit 4) kmalloc keep d

/-- `fat32_delete_directory`; `isEmpty` says what is in the subdirectory. -/
def deleteDirectory (g : Geometry) (name : List ℕ) (kmalloc isEmpty : Bool) (keep : ℕ)
    (d : List (List DirEntry)) : Option (Bool × List (List DirEntry)) :=
  deleteFound g name (fun e => e.attr.testBit 4 && isEmpty) kmalloc keep d

/-! ## Runs -/

/-- The calls, with what they learn of the rest of the volume. -/
inductive DirOp
  | createFile (name : List ℕ) (kmalloc grow : Bool) (stamp : ℕ × ℕ)
  | createDirectory (name : List ℕ) (cluster : ℕ) (kmalloc grow : Bool) (stamp : ℕ × ℕ)
  | deleteFile (name : List ℕ) (kmalloc : Bool) (keep : ℕ)
  | deleteDirectory (name : List ℕ) (kmalloc isEmpty : Bool) (keep : ℕ)

/-- The effect of a call: whether it returns `0`, and the directory. -/
def DirOp.call (g : Geometry) (d : List (List DirEntry)) :
    DirOp → Option (Bool × List (List DirEntry))
  | .createFile name kmalloc grow stamp => Fat32.createFile g name kmalloc grow stamp d
  | .createDirectory name cluster kmalloc grow stamp =>
    Fat32.createDirectory g name cluster kmalloc grow stamp d
  | .deleteFile name kmalloc keep => Fat32.deleteFile g name kmalloc keep d
  | .deleteDirectory name kmalloc isEmpty keep =>
    Fat32.deleteDirectory g name kmalloc isEmpty keep d

/-- The name that a call creates. -/
def DirOp.creates : DirOp → Option (List ℕ)
  | .createFile name _ _ _ => some name
  | .createDirectory name _ _ _ _ => some name
  | _ => none

/-- The short name of a slot that is in use. -/
def liveName : DirEntry → Option (List ℕ)
  | .short e => if DirEntry.isFree (.short e) then none else some e.name
  | .long _ => none

/-- The short names in use in one cluster. -/
def liveIn (c : List DirEntry) : List (List ℕ) := c.filterMap liveName

/-- The short names in use in the directory. -/
def liveNames (d : List (List DirEntry)) : List (List ℕ) := d.flatMap liveIn

/-- The names of all entries, also behind an unused slot. -/
def entryNames : List DirEntry → LfnState → List (List ℕ)
  | [], _ => []
  | entry :: rest, st =>
    if entry.isFree then entryNames rest st
    else
      match entry with
      | .long lfn =>
        let st := if lfn.order.testBit 6 then ⟨fun _ => 0, 0, lfn.checksum⟩ else st
        match extractLfn lfn st.lfnName st.lfnPos with
        | none => []
        | some (name, pos) => entryNames rest { st with lfnName := name, lfnPos := pos }
      | .short e =>
        if e.attr.testBit 3 then entryNames rest st
        else entryName e st :: entryNames rest { st with lfnPos := 0 }

/-- Some entry of the directory has the name, up to case. -/
def NameExists (d : List (List DirEntry)) (name : List ℕ) : Prop :=
  ∃ n ∈ entryNames d.flatten .zero, SameName name n

instance (d : List (List DirEntry)) (name : List ℕ) : Decidable (NameExists d name) :=
  inferInstanceAs (Decidable (∃ n ∈ _, _))

/-- The runs on a directory whose short names are distinct. -/
def directoryCalls (g : Geometry) : System (List (List DirEntry)) DirOp where
  init d := (∀ c ∈ d, c.length = g.entriesPerCluster) ∧ (liveNames d).Nodup
  guard _ _ := True
  step d op d' := ∃ ok, op.call g d = some (ok, d')

/-- The call changes nothing: the name is too long, or there is no memory or no cluster. -/
def DirOp.Refused : DirOp → Prop
  | .createFile name kmalloc _ _ => newNames name = none ∨ kmalloc = false
  | .createDirectory name cluster kmalloc _ _ => newNames name = none ∨ cluster = 0 ∨
  kmalloc = false
  | _ => False

/-- A created name and its short name are new, and its entries fit into a cluster; or the call is
refused. -/
def DirOp.Orderly (g : Geometry) (d : List (List DirEntry)) (op : DirOp) : Prop :=
  ∀ name, op.creates = some name → op.Refused ∨
    ¬ NameExists d name ∧ ∀ lfns fatName, newNames name = some (lfns, fatName) →
      fatName ∉ liveNames d ∧ lfns.length + 1 ≤ g.entriesPerCluster

/-- The calls of a directory under the conditions of `DirOp.Orderly`. -/
def orderlyDirectory (g : Geometry) : System (List (List DirEntry)) DirOp :=
  { directoryCalls g with guard := fun d op => op.Orderly g d }

/-! ## Short names -/

lemma liveName_of_free {e : DirEntry} (h : e.isFree = true) : liveName e = none := by
  cases e with
  | short e => exact if_pos h
  | long e => rfl

lemma liveIn_of_free {c : List DirEntry} (h : c.all isFree = true) : liveIn c = [] := by
  rw [liveIn, List.filterMap_eq_nil_iff]
  intro e he
  exact liveName_of_free (List.all_eq_true.mp h e he)

lemma liveIn_append (a b : List DirEntry) : liveIn (a ++ b) = liveIn a ++ liveIn b :=
  List.filterMap_append

lemma liveIn_place {c new : List DirEntry} {i : ℕ}
    (h : ((c.drop i).take new.length).all isFree = true) :
    ∃ a b, liveIn c = a ++ b ∧ liveIn (place c i new) = a ++ liveIn new ++ b := by
  refine ⟨liveIn (c.take i), liveIn (c.drop (i + new.length)), ?_, ?_⟩
  · have hsplit : c = c.take i ++ ((c.drop i).take new.length ++ c.drop (i + new.length)) := by
      simp [← List.drop_drop]
    conv_lhs => rw [hsplit]
    rw [liveIn_append, liveIn_append, liveIn_of_free h, List.nil_append]
  · rw [place, liveIn_append, liveIn_append]

variable {d d' : List (List DirEntry)} {e : ShortEntry} {entries : List DirEntry} {g : Geometry}
    {name : List ℕ} {ok : Bool} {st : LfnState}

/-- **Creating** adds the names of the new entries only. -/
lemma addEntries_live {grow : Bool} {new : List DirEntry} (n : ℕ)
    (h : addEntries g grow new n d = some (ok, d')) :
    ∃ a b, liveNames d = a ++ b ∧ liveNames d' = a ++ (if ok = true then liveIn new else []) ++
    b := by
  induction n generalizing d d' with
  | zero =>
    cases h
    exact ⟨[], liveNames d, rfl, rfl⟩
  | succ n ih =>
    cases d with
    | nil =>
      cases h
      exact ⟨[], [], rfl, rfl⟩
    | cons c cs =>
      -- the clusters after this one
      have hrest : ∀ {cs₁ cs₂ : List (List DirEntry)}, liveNames cs₁ = liveNames cs →
          addEntries g grow new n cs₁ = some (ok, cs₂) → d' = c :: cs₂ →
          ∃ a b, liveNames (c :: cs) = a ++ b ∧
            liveNames d' = a ++ (if ok = true then liveIn new else []) ++ b := by
        rintro cs₁ cs₂ hsame hadd rfl
        obtain ⟨a, b, hold, hnew⟩ := ih hadd
        refine ⟨liveIn c ++ a, b, ?_, ?_⟩
        · rw [List.append_assoc, ← hold, hsame]
          rfl
        · rw [List.append_assoc, List.append_assoc, ← List.append_assoc a, ← hnew]
          rfl
      rw [addEntries] at h
      split at h
      · cases h
      split at h
      · next i hi =>
        cases h
        have hfree := List.find?_some hi
        obtain ⟨a, b, hold, hnew⟩ := liveIn_place hfree
        refine ⟨a, b ++ liveNames cs, ?_, ?_⟩
        · rw [← List.append_assoc, ← hold]
          rfl
        · rw [if_pos rfl, ← List.append_assoc, ← hnew]
          rfl
      split at h
      · next hlast =>
        cases h
        rw [hlast.1]
        exact ⟨[], liveNames [c], rfl, rfl⟩
      · obtain ⟨⟨ok', cs₂⟩, hadd, hd⟩ := Option.map_eq_some_iff.mp h
        cases hd
        refine hrest ?_ hadd rfl
        split_ifs with hcs
        · -- a cleared cluster has no names
          have hzero : (List.replicate g.entriesPerCluster zeroEntry).all isFree = true := by
            rw [List.all_eq_true]
            intro e he
            rw [List.eq_of_mem_replicate he]
            decide
          rw [hcs, liveNames, List.flatMap_cons, liveIn_of_free hzero]
          rfl
        · rfl

lemma liveName_delete (e : DirEntry) : liveName e.delete = none := by
  cases e with
  | short e => rfl
  | long e => rfl

lemma liveIn_eraseAt (c : List DirEntry) (i : ℕ) : (liveIn (eraseAt c i)).Sublist (liveIn c) := by
  generalize hbefore : (c.take i).reverse = before
  have hc : c = (before.dropWhile isLong).reverse ++
      (before.takeWhile isLong).reverse ++ c.drop i := by
    simp [← List.reverse_append, ← hbefore]
  have hmarked : liveIn ((before.takeWhile isLong).map delete).reverse = [] := by
    rw [liveIn, List.filterMap_eq_nil_iff]
    intro e he
    obtain ⟨e', -, rfl⟩ := List.mem_map.mp (List.mem_reverse.mp he)
    exact liveName_delete e'
  have hhead : (liveIn ((c.drop i).modifyHead delete)).Sublist (liveIn (c.drop i)) := by
    cases c.drop i with
    | nil => exact List.Sublist.refl _
    | cons e rest =>
      show (List.filterMap liveName (e.delete :: rest)).Sublist
        (List.filterMap liveName (e :: rest))
      rw [List.filterMap_cons_none (liveName_delete e)]
      exact (List.sublist_cons_self e rest).filterMap _
  conv_rhs => rw [hc]
  rw [eraseAt]
  simp only [hbefore, liveIn_append, hmarked, List.append_nil]
  exact ((List.sublist_append_left _ _).append hhead)

lemma deleteEntry_live (target : List ℕ) (n : ℕ) (d : List (List DirEntry)) :
    (liveNames (deleteEntry target n d).2).Sublist (liveNames d) := by
  induction n generalizing d with
  | zero => exact List.Sublist.refl _
  | succ n ih =>
    cases d with
    | nil => exact List.Sublist.refl _
    | cons c cs =>
      rw [deleteEntry]
      split
      · next i _ => exact (liveIn_eraseAt c i).append (List.Sublist.refl (liveNames cs))
      · exact (List.Sublist.refl (liveIn c)).append (ih cs)

lemma deleteFound_live {allowed : ShortEntry → Bool} {kmalloc : Bool} {keep : ℕ}
    (h : deleteFound g name allowed kmalloc keep d = some (ok, d')) :
    (liveNames d').Sublist (liveNames d) := by
  unfold deleteFound at h
  split at h
  swap
  · cases h
    exact List.Sublist.refl _
  split at h
  · cases h
  · cases h
    exact List.Sublist.refl _
  next e _ =>
  split at h
  swap
  · cases h
    exact List.Sublist.refl _
  have hlive := deleteEntry_live e.name g.totalClusters d
  split at h
  · next d₁ hd =>
    rw [hd] at hlive
    cases h
    exact hlive
  · next d₁ hd =>
    rw [hd] at hlive
    cases h
    refine List.Sublist.trans ?_ hlive
    conv_rhs => rw [← List.take_append_drop keep d₁, liveNames, List.flatMap_append]
    exact List.sublist_append_left _ _

/-! ## Names -/

lemma entryNames_of_found {rest : List DirEntry} {st' : LfnState}
    (h : dirIterNext entries st = .found e name rest st') :
    entryNames entries st = name :: entryNames rest st' := by
  generalize htail : entryNames rest st' = tail
  induction entries generalizing st with
  | nil =>
    cases h
  | cons entry entries ih =>
    unfold dirIterNext at h
    split at h
    · cases h
    next hzero =>
    unfold entryNames
    split at h
    · next hdeleted =>
      have hfree : entry.isFree = true := by
        simp [isFree, hdeleted]
      rw [if_pos hfree]
      exact ih h
    next hdeleted =>
    have hfree : ¬ entry.isFree = true := by
      simp [isFree, hzero, hdeleted]
    rw [if_neg hfree]
    cases entry with
    | long lfn =>
      dsimp only at h ⊢
      generalize extractLfn lfn _ _ = extracted at h ⊢
      rcases extracted with _ | ⟨lfnName, pos⟩
      · cases h
      · exact ih h
    | short s =>
      dsimp only at h ⊢
      split at h
      · next hlabel =>
        rw [if_pos hlabel]
        exact ih h
      · next hlabel =>
        rw [if_neg hlabel]
        obtain ⟨rfl, rfl, rfl, rfl⟩ := IterResult.found.inj h
        rw [← htail]

lemma dirIterNext_length {rest : List DirEntry} {st' : LfnState}
    (h : dirIterNext entries st = .found e name rest st') : rest.length < entries.length := by
  induction entries generalizing st with
  | nil =>
    cases h
  | cons entry entries ih =>
    have hlater : ∀ {st}, dirIterNext entries st = .found e name rest st' →
        rest.length < (entry :: entries).length := fun h => Nat.lt_succ_of_lt (ih h)
    unfold dirIterNext at h
    split at h
    · cases h
    split at h
    · exact hlater h
    split at h
    · dsimp only at h
      split at h
      · cases h
      · exact hlater h
    · split at h
      · exact hlater h
      · obtain ⟨-, -, rfl, -⟩ := IterResult.found.inj h
        exact Nat.lt_succ_self _

lemma findFrom_bound (name : List ℕ) {m n : ℕ} (hm : entries.length < m) (hn : entries.length < n) :
    findFrom name m entries st = findFrom name n entries st := by
  induction m generalizing n entries st with
  | zero => exact absurd hm (Nat.not_lt_zero _)
  | succ m ih =>
    obtain ⟨n, rfl⟩ : ∃ n', n = n' + 1 := ⟨n - 1, by omega⟩
    rw [findFrom, findFrom]
    split
    · rfl
    · rfl
    next e m' rest st' hnext =>
    have hlt := dirIterNext_length hnext
    split_ifs
    · rfl
    · exact ih (by omega) (by omega)

lemma exists_of_findFrom (n : ℕ) (h : findFrom name n entries st = .found e) :
    ∃ m ∈ entryNames entries st, SameName name m := by
  induction n generalizing entries st with
  | zero =>
    cases h
  | succ n ih =>
    rw [findFrom] at h
    split at h
    · cases h
    · cases h
    next e' m rest st' hnext =>
    rw [entryNames_of_found hnext]
    split at h
    · next hsame => exact ⟨m, (.head _), hsame⟩
    · obtain ⟨m', hm', hsame⟩ := ih h
      exact ⟨m', .tail _ hm', hsame⟩

/-- **A name that `fat32_find_in_dir` finds exists.** -/
lemma nameExists_of_findInDir (h : findInDir name d = .found e) : NameExists d name :=
  exists_of_findFrom _ h

/-! ## Runs -/

lemma liveIn_new (lfns : List LfnEntry) (e : ShortEntry) :
    liveIn (lfns.map .long ++ [.short e]) = [] ∨
    liveIn (lfns.map .long ++ [.short e]) = [e.name] := by
  have hlong : liveIn (lfns.map long) = [] := by
    rw [liveIn, List.filterMap_eq_nil_iff]
    intro x hx
    obtain ⟨y, -, rfl⟩ := List.mem_map.mp hx
    rfl
  rw [liveIn_append, hlong]
  show List.filterMap liveName [.short e] = [] ∨ List.filterMap liveName [.short e] = [e.name]
  by_cases hfree : isFree (.short e) = true
  · left
    rw [List.filterMap_cons_none (liveName_of_free hfree), List.filterMap_nil]
  · right
    have hlive : liveName (.short e) = some e.name := if_neg hfree
    rw [List.filterMap_cons_some hlive, List.filterMap_nil]

lemma nodup_addEntries {grow : Bool} {lfns : List LfnEntry} {n : ℕ} (hd : (liveNames d).Nodup)
    (hnew : e.name ∉ liveNames d)
    (h : addEntries g grow (lfns.map .long ++ [.short e]) n d = some (ok, d')) :
    (liveNames d').Nodup := by
  obtain ⟨a, b, hold, hlive⟩ := addEntries_live n h
  rw [hold] at hd hnew
  rw [hlive]
  have hnone : (a ++ [] ++ b).Nodup := by rwa [List.append_nil]
  cases ok with
  | false => exact hnone
  | true =>
    rcases liveIn_new lfns e with hnil | hname
    · rw [hnil]
      exact hnone
    · simpa [hname] using List.nodup_middle.mpr (List.nodup_cons.mpr ⟨hnew, hd⟩)

lemma DirOp.Refused.call {op : DirOp}
    (hr : op.Refused) (h : op.call g d = some (ok, d')) : ok = false ∧ d' = d := by
  have hsame : op.call g d = some (false, d) := by
    cases op with
    | createFile name kmalloc grow stamp =>
      rw [DirOp.call, Fat32.createFile]
      rcases hr with hnone | hmem
      · rw [hnone]
      · split
        · rfl
        · rw [if_neg (by rw [hmem]; decide)]
    | createDirectory name cluster kmalloc grow stamp =>
      rw [DirOp.call, Fat32.createDirectory]
      rcases hr with hnone | hzero | hmem
      · rw [hnone]
      · split
        · rfl
        · rw [if_pos hzero]
      · split
        · rfl
        · rw [if_neg (show ¬ kmalloc = true by rw [hmem]; decide), ite_self]
    | deleteFile name kmalloc keep => exact hr.elim
    | deleteDirectory name kmalloc isEmpty keep => exact hr.elim
  rw [hsame] at h
  cases h
  exact ⟨rfl, rfl⟩

lemma DirOp.Orderly.nodup {op : DirOp}
    (ho : op.Orderly g d) (hd : (liveNames d).Nodup) (h : op.call g d = some (ok, d')) :
    (liveNames d').Nodup := by
  have hrefused : op.Refused → (liveNames d').Nodup := fun hr => by rwa [(hr.call h).2]
  cases op with
  | createFile name kmalloc grow stamp =>
    rcases ho name rfl with hr | ⟨-, hnew⟩
    · exact hrefused hr
    rw [DirOp.call, Fat32.createFile] at h
    split at h
    · next hnone => exact hrefused (.inl hnone)
    next lfns fatName hnames =>
    split at h
    · exact nodup_addEntries hd (hnew _ _ hnames).1 h
    · next hmem => exact hrefused (.inr (by simpa using hmem))
  | createDirectory name cluster kmalloc grow stamp =>
    rcases ho name rfl with hr | ⟨-, hnew⟩
    · exact hrefused hr
    rw [DirOp.call, Fat32.createDirectory] at h
    split at h
    · next hnone => exact hrefused (.inl hnone)
    next lfns fatName hnames =>
    split at h
    · next hzero => exact hrefused (.inr (.inl hzero))
    split at h
    · exact nodup_addEntries hd (hnew _ _ hnames).1 h
    · next hmem => exact hrefused (.inr (.inr (by simpa using hmem)))
  | deleteFile name kmalloc keep => exact hd.sublist (deleteFound_live h)
  | deleteDirectory name kmalloc isEmpty keep => exact hd.sublist (deleteFound_live h)

/-- **Orderly runs**: short names are distinct, and a name that exists cannot be created. -/
theorem orderly_directory {g : Geometry} {d : List (List DirEntry)}
    (h : (orderlyDirectory g).Reach d) :
    (liveNames d).Nodup ∧ ∀ (op : DirOp) name ok d', op.Orderly g d → op.creates = some name →
      (NameExists d name ∨ ∃ e, findInDir name d = .found e) → op.call g d = some (ok, d') →
      ok = false ∧ d' = d := by
  constructor
  · refine System.Reach.invariant (M := orderlyDirectory g)
      (fun _ h0 => h0.2) ?_ h
    rintro d op d' hd ho ⟨ok, hcall⟩
    exact DirOp.Orderly.nodup ho hd hcall
  · intro op name ok d' ho hcreates hexists hcall
    have hname : NameExists d name := by
      rcases hexists with hname | ⟨e, hfound⟩
      · exact hname
      · exact nameExists_of_findInDir hfound
    rcases ho name hcreates with hr | ⟨hnot, -⟩
    · exact hr.call hcall
    · exact absurd hname hnot

/-- The bytes of an ASCII text. -/
def bytesOf (s : String) : List ℕ := s.toList.map Char.toNat

/-- Clusters of 16 entries. -/
def smallGeometry : Geometry := ⟨16, 100⟩

/-- One cluster that was never used. -/
def emptyDirectory : List (List DirEntry) := [List.replicate 16 zeroEntry]

lemma emptyDirectory_init : (directoryCalls smallGeometry).init emptyDirectory := by
  constructor
  · intro c hc
    rw [List.mem_singleton.mp hc]
    exact List.length_replicate
  · decide +kernel

/-- The directory after a file was created in it. -/
def withFile (name : String) (d : List (List DirEntry)) : List (List DirEntry) :=
  ((createFile smallGeometry (bytesOf name) true true (0, 0) d).map Prod.snd).getD []

/-- Two files with different first letters make an orderly run. -/
theorem orderly_directory_two : ∃ d, (orderlyDirectory smallGeometry).Reach d ∧
    liveNames d = [bytesOf "README  TXT", bytesOf "LONGNA~1TXT"] ∧ (liveNames d).Nodup := by
  have horderly : ∀ name d, ¬ NameExists d (bytesOf name) →
      (newNames (bytesOf name)).map (fun r => decide (r.2 ∉ liveNames d) &&
        decide (r.1.length + 1 ≤ smallGeometry.entriesPerCluster)) = some true →
      (DirOp.createFile (bytesOf name) true true (0, 0)).Orderly smallGeometry d := by
    intro name d hnot hnames n hn
    cases hn
    refine .inr ⟨hnot, fun lfns fatName h => ?_⟩
    rw [h] at hnames
    simpa using hnames
  have hreach₁ : (orderlyDirectory smallGeometry).Reach (withFile "README.TXT" emptyDirectory) :=
    .step (.init emptyDirectory_init)
      (horderly "README.TXT" _ (by decide +kernel) (by decide +kernel)) ⟨true, by decide +kernel⟩
  have hreach₂ : (orderlyDirectory smallGeometry).Reach
      (withFile "longname1.txt" (withFile "README.TXT" emptyDirectory)) :=
    .step hreach₁ (horderly "longname1.txt" _ (by decide +kernel) (by decide +kernel))
      ⟨true, by decide +kernel⟩
  exact ⟨_, hreach₂, by decide +kernel, (orderly_directory hreach₂).1⟩

/-- Two names with the same first six characters get one short name, and a file can be created
twice. -/
theorem same_short_name : ∃ d₁ d₂ d₃, (directoryCalls smallGeometry).Reach d₁ ∧
    (directoryCalls smallGeometry).Reach d₂ ∧
    liveNames d₂ = [bytesOf "LONGNA~1TXT", bytesOf "LONGNA~1TXT"] ∧ ¬ (liveNames d₂).Nodup ∧
    NameExists d₁ (bytesOf "longname1.txt") ∧
    createFile smallGeometry (bytesOf "longname1.txt") true true (0, 0) d₁ = some (true, d₃) ∧
    d₃ ≠ d₁ := by
  have hreach₁ : (directoryCalls smallGeometry).Reach (withFile "longname1.txt" emptyDirectory) :=
    .step (a := .createFile (bytesOf "longname1.txt") true true (0, 0)) (.init emptyDirectory_init)
      trivial ⟨true, by decide +kernel⟩
  have hreach₂ : (directoryCalls smallGeometry).Reach
      (withFile "longname2.txt" (withFile "longname1.txt" emptyDirectory)) :=
    .step (a := .createFile (bytesOf "longname2.txt") true true (0, 0)) hreach₁
      trivial ⟨true, by decide +kernel⟩
  exact ⟨_, _, withFile "longname1.txt" (withFile "longname1.txt" emptyDirectory), hreach₁, hreach₂,
    by decide +kernel, by decide +kernel, by decide +kernel, by decide +kernel, by decide +kernel⟩

end FrostByte.Fat32
