import FrostByte.Fat.Listing

/-!
# The slots of a directory

A directory that the driver has made consists of free slots and of entries: long-name entries right
before their short entry, all in one cluster. In each cluster the slots that were never used stay
the last ones, and the iterator ends at the first of them.

## Main definitions

* `IsEntry` — long-name entries and the short entry they belong to.
* `Lists` — a cluster of free slots and entries, with the names of the entries.
* `InOrder` — the slots that were never used are the last ones.

## Main results

* `findable_iff` — the search finds exactly the listed names before the first unused slot.
* `InOrder.place`, `InOrder.eraseAt` — creating and deleting keep a cluster in order.
-/

namespace FrostByte.Fat32

open DirEntry

/-- The search for the name finds an entry. -/
def Findable (name : List ℕ) (d : List (List DirEntry)) : Prop := ∃ e, findInDir name d = .found e

instance (name : List ℕ) (d : List (List DirEntry)) : Decidable (Findable name d) :=
  match h : findInDir name d with
  | .found e => .isTrue ⟨e, h⟩
  | .notFound | .overflow => .isFalse fun ⟨_, he⟩ => by simp [h] at he

/-- A slot that was used at some time, deleted or not. -/
def DirEntry.isUsed (x : DirEntry) : Bool := x.first ≠ 0

/-- Long-name entries and a short entry that are read as the name. -/
structure IsEntry (slots : List DirEntry) (name : List ℕ) : Prop where
  live : ∀ x ∈ slots, x.isFree = false
  shape : ∃ run e, slots = run ++ [.short e] ∧ ∀ x ∈ run, x.isLong = true
  read : ∀ rest st, ∃ e n st', dirIterNext (slots ++ rest) st = .found e n rest st' ∧
    st'.lfnPos = 0 ∧ (n = name ∨ 0 < st.lfnPos ∧ n = cString 255 st.lfnName)

/-- The slots are free ones and those of entries with these names. -/
inductive Lists : List DirEntry → List (List ℕ) → Prop
  | nil : Lists [] []
  | free {x : DirEntry} {l : List DirEntry} {names : List (List ℕ)} :
      x.isFree = true → Lists l names → Lists (x :: l) names
  | entry {slots l : List DirEntry} {name : List ℕ} {names : List (List ℕ)} :
      IsEntry slots name → Lists l names → Lists (slots ++ l) (name :: names)

/-- Each long name is right before its short entry, and unused slots come last. -/
structure InOrder (g : Geometry) (c : List DirEntry) : Prop where
  length_eq : c.length = g.entriesPerCluster
  lists : ∃ names, Lists c names
  unused : c.Pairwise fun x y => x.first = 0 → y.first = 0

variable {g : Geometry} {name m : List ℕ} {l a b c slots new : List DirEntry}
  {names na nb : List (List ℕ)} {d d' : List (List DirEntry)} {st : LfnState}

/-! ## Slots and names -/

variable {n : ℕ} {x : DirEntry}

lemma DirEntry.isUsed_iff : x.isUsed = true ↔ x.first ≠ 0 := decide_eq_true_iff

lemma DirEntry.first_of_free (h : x.isFree = true) (h0 : x.first ≠ 0) : x.first = 0xE5 := by
  simpa [isFree, h0] using h

lemma DirEntry.first_of_live (h : x.isFree = false) : x.first ≠ 0 ∧ x.first ≠ 0xE5 := by
  simpa [isFree] using h

lemma DirEntry.isFree_eq_false (h0 : x.first ≠ 0) (h5 : x.first ≠ 0xE5) : x.isFree = false := by
  simp [isFree, h0, h5]

lemma IsEntry.ne_nil (h : IsEntry slots name) : slots ≠ [] := by
  obtain ⟨run, e, rfl, -⟩ := h.shape
  exact List.append_ne_nil_of_right_ne_nil _ (by simp)

lemma IsEntry.next (h : IsEntry slots name) (hst : st.lfnPos = 0) (rest : List DirEntry) :
    ∃ e st', dirIterNext (slots ++ rest) st = .found e name rest st' ∧ st'.lfnPos = 0 := by
  obtain ⟨e, n, st', hnext, hpos, rfl | ⟨hgathered, -⟩⟩ := h.read rest st
  · exact ⟨e, st', hnext, hpos⟩
  · omega

namespace Lists

lemma append (ha : Lists a na) (hb : Lists b nb) : Lists (a ++ b) (na ++ nb) := by
  induction ha with
  | nil => exact hb
  | free hx _ ih => exact .free hx ih
  | entry he _ ih =>
    simpa using .entry he ih

lemma of_entry (h : IsEntry slots name) : Lists slots [name] := by
  simpa using Lists.entry h .nil

lemma of_free (h : ∀ x ∈ l, x.isFree = true) : Lists l [] := by
  induction l with
  | nil => exact .nil
  | cons x l ih =>
    exact .free (h x (.head _)) (ih fun y hy => h y (.tail _ hy))

lemma split (h : Lists l names) (hl : l = a ++ x :: b) (hx : x.isFree = true) :
    ∃ na nb, names = na ++ nb ∧ Lists a na ∧ Lists b nb := by
  induction h generalizing a with
  | nil => simp at hl
  | @free y l names hy hrest ih =>
    cases a with
    | nil =>
      obtain ⟨rfl, rfl⟩ := List.cons.inj hl
      exact ⟨[], names, rfl, .nil, hrest⟩
    | cons z a =>
      obtain ⟨rfl, htail⟩ := List.cons.inj hl
      obtain ⟨na, nb, rfl, ha, hb⟩ := ih htail
      exact ⟨na, nb, rfl, .free hy ha, hb⟩
  | @entry slots l name names he _ ih =>
    rcases List.append_eq_append_iff.mp hl with ⟨a', rfl, hrest⟩ | ⟨t, hslots, hrest⟩
    · obtain ⟨na, nb, rfl, ha, hb⟩ := ih hrest
      exact ⟨name :: na, nb, rfl, .entry he ha, hb⟩
    · cases t with
      | nil =>
        rw [List.append_nil] at hslots
        obtain ⟨na, nb, rfl, ha, hb⟩ := ih (a := []) hrest.symm
        refine ⟨name :: na, nb, rfl, ?_, hb⟩
        rw [← hslots, ← List.append_nil slots]
        exact .entry he ha
      | cons y t =>
        -- the slot would be one of the entry
        obtain ⟨rfl, -⟩ := List.cons.inj hrest
        have hlive := he.live x (by rw [hslots]; simp)
        rw [hx] at hlive
        cases hlive

lemma of_append_free (h : Lists (a ++ b) names) (ha : ∀ x ∈ a, x.isFree = true) :
    Lists b names := by
  induction a with
  | nil => exact h
  | cons x a ih =>
    obtain ⟨na, nb, rfl, hnil, hrest⟩ := h.split (a := []) rfl (ha x (.head _))
    obtain rfl : na = [] := by
      generalize hl : ([] : List DirEntry) = l at hnil
      cases hnil with
      | nil => rfl
      | free _ _ => cases hl
      | entry he _ => exact absurd (List.append_eq_nil_iff.mp hl.symm).1 he.ne_nil
    exact ih hrest fun y hy => ha y (.tail _ hy)

lemma takeWhile_isUsed (h : Lists l names) :
    ∃ na nb, names = na ++ nb ∧ Lists (l.takeWhile isUsed) na := by
  cases hdrop : l.dropWhile isUsed with
  | nil =>
    have hall : l.takeWhile isUsed = l := by
      conv_rhs => rw [← List.takeWhile_append_dropWhile (l := l), hdrop, List.append_nil]
    exact ⟨names, [], (List.append_nil _).symm, hall.symm ▸ h⟩
  | cons x rest =>
    have hx : x.first = 0 := by
      have := List.head?_dropWhile_not isUsed l
      rw [hdrop] at this
      simpa [isUsed] using this
    have hsplit : l = l.takeWhile isUsed ++ x :: rest := by
      simp [← hdrop]
    obtain ⟨na, nb, hnames, ha, -⟩ := h.split hsplit (by simp [isFree, hx])
    exact ⟨na, nb, hnames, ha⟩

lemma entryNames_eq (h : Lists l names) (hst : st.lfnPos = 0) : entryNames l st = names := by
  induction h generalizing st with
  | nil => rfl
  | free hx _ ih =>
    exact (if_pos hx).trans (ih hst)
  | @entry slots l name names he _ ih =>
    obtain ⟨e, st', hnext, hpos⟩ := he.next hst l
    rw [entryNames_of_found hnext, ih hpos]

end Lists

lemma nameExists_iff (h : Lists d.flatten names) :
    NameExists d name ↔ ∃ n ∈ names, SameName name n := by
  rw [NameExists, h.entryNames_eq rfl]

/-! ## Finding -/

/-- The iterator in a directory that ends before the first unused slot. -/
def IterResult.cut : IterResult → IterResult
  | .found e n rest st => .found e n (rest.takeWhile DirEntry.isUsed) st
  | r => r

lemma dirIterNext_takeWhile (l : List DirEntry) (st : LfnState) :
    dirIterNext (l.takeWhile isUsed) st = (dirIterNext l st).cut := by
  induction l generalizing st with
  | nil => rfl
  | cons x l ih =>
    by_cases hzero : x.first = 0
    · rw [List.takeWhile_cons_of_neg (by simp [isUsed, hzero]), dirIterNext.eq_def (x :: l)]
      dsimp only
      rw [if_pos hzero]
      rfl
    rw [List.takeWhile_cons_of_pos (isUsed_iff.mpr hzero), dirIterNext.eq_def,
      dirIterNext.eq_def (x :: l)]
    dsimp only
    rw [if_neg hzero, if_neg hzero]
    by_cases hdeleted : x.first = 0xE5
    · rw [if_pos hdeleted, if_pos hdeleted]
      exact ih st
    rw [if_neg hdeleted, if_neg hdeleted]
    cases x with
    | long lfn =>
      dsimp only
      generalize extractLfn lfn _ _ = extracted
      rcases extracted with _ | ⟨lfnName, pos⟩
      · rfl
      · exact ih _
    | short e =>
      dsimp only
      by_cases hlabel : e.attr.testBit 3 = true
      · rw [if_pos hlabel, if_pos hlabel]
        exact ih st
      · rw [if_neg hlabel, if_neg hlabel]
        rfl

lemma findFrom_takeWhile (name : List ℕ) (n : ℕ) (l : List DirEntry) (st : LfnState) :
    findFrom name n (l.takeWhile isUsed) st = findFrom name n l st := by
  induction n generalizing l st with
  | zero => rfl
  | succ n ih =>
    rw [findFrom, findFrom, dirIterNext_takeWhile]
    cases dirIterNext l st with
    | stop => rfl
    | overflow => rfl
    | found e m rest st' =>
      simp only [IterResult.cut]
      rw [ih]

lemma findInDir_takeWhile (name : List ℕ) (d : List (List DirEntry)) :
    findInDir name d = findFrom name ((d.flatten.takeWhile isUsed).length + 1)
      (d.flatten.takeWhile isUsed) .zero := by
  have hle : (d.flatten.takeWhile isUsed).length ≤ d.flatten.length :=
    (List.takeWhile_prefix _).length_le
  rw [findInDir, ← findFrom_takeWhile]
  exact findFrom_bound name (by omega) (Nat.lt_succ_self _)

lemma findable_congr (h : d.flatten.takeWhile isUsed = d'.flatten.takeWhile isUsed) :
    Findable name d ↔ Findable name d' := by
  rw [Findable, Findable, findInDir_takeWhile, findInDir_takeWhile, h]

lemma dirIterNext_deleted (h : x.first = 0xE5) (rest : List DirEntry) :
    dirIterNext (x :: rest) st = dirIterNext rest st := by
  exact (if_neg (by omega)).trans (if_pos h)

lemma findFrom_deleted (h : x.first = 0xE5) (n : ℕ) (rest : List DirEntry) :
    findFrom m n (x :: rest) st = findFrom m n rest st := by
  cases n with
  | zero => rfl
  | succ n => rw [findFrom, findFrom, dirIterNext_deleted h]

lemma Lists.found_append {e : ShortEntry} (h : Lists a names) (hused : ∀ x ∈ a, x.first ≠ 0)
    (hst : st.lfnPos = 0) (hn : (a ++ b).length < n)
    (hfound : findFrom m n (a ++ b) st = .found e) :
    (∃ x ∈ names, SameName m x) ∨
      ∃ n' st', b.length < n' ∧ st'.lfnPos = 0 ∧ findFrom m n' b st' = .found e := by
  induction h generalizing n st with
  | nil => exact .inr ⟨n, st, hn, hst, hfound⟩
  | @free x l names hx _ ih =>
    obtain ⟨hx0, hl⟩ := List.forall_mem_cons.mp hused
    rw [List.cons_append, findFrom_deleted (first_of_free hx hx0)] at hfound
    exact ih hl hst ((Nat.lt_succ_self _).trans hn) hfound
  | @entry slots l name names he _ ih =>
    obtain ⟨n, rfl⟩ : ∃ k, n = k + 1 := ⟨n - 1, by omega⟩
    have hpos := List.length_pos_iff.mpr he.ne_nil
    rw [List.append_assoc] at hn hfound
    obtain ⟨e', st', hnext, hst'⟩ := he.next hst (l ++ b)
    rw [findFrom, hnext] at hfound
    dsimp only at hfound
    split_ifs at hfound with hsame
    · exact .inl ⟨name, (.head _), hsame⟩
    · rw [List.length_append] at hn
      rcases ih (fun x hx => hused x (List.mem_append_right _ hx)) hst' (by omega) hfound with
        ⟨x, hx, hx'⟩ | hrest
      · exact .inl ⟨x, .tail _ hx, hx'⟩
      · exact .inr hrest

/-- **Finding in listed slots**: the names of the entries are found. -/
lemma Lists.findFrom_iff (h : Lists l names) (hused : ∀ x ∈ l, x.first ≠ 0)
    (hst : st.lfnPos = 0) (hn : l.length < n) :
    (∃ e, findFrom m n l st = .found e) ↔ ∃ x ∈ names, SameName m x := by
  induction h generalizing n st with
  | nil =>
    obtain ⟨n, rfl⟩ : ∃ k, n = k + 1 := ⟨n - 1, by simp at hn; omega⟩
    simp [findFrom, dirIterNext]
  | @free x l names hx _ ih =>
    obtain ⟨hx0, hl⟩ := List.forall_mem_cons.mp hused
    rw [findFrom_deleted (first_of_free hx hx0)]
    exact ih hl hst ((Nat.lt_succ_self _).trans hn)
  | @entry slots l name names he _ ih =>
    obtain ⟨n, rfl⟩ : ∃ k, n = k + 1 := ⟨n - 1, by omega⟩
    have hpos := List.length_pos_iff.mpr he.ne_nil
    obtain ⟨e, st', hnext, hst'⟩ := he.next hst l
    rw [List.length_append] at hn
    have hrest := ih (n := n) (fun x hx => hused x (List.mem_append_right _ hx)) hst' (by omega)
    rw [findFrom, hnext]
    dsimp only
    split_ifs with hsame
    · exact ⟨fun _ => ⟨name, (.head _), hsame⟩, fun _ => ⟨e, rfl⟩⟩
    · rw [hrest]
      simp [hsame]

lemma Lists.found_gathered {e : ShortEntry} (h : Lists l names)
    (hused : ∀ x ∈ l, x.first ≠ 0) (hn : l.length < n) (hfound : findFrom m n l st = .found e) :
    (∃ x ∈ names, SameName m x) ∨ 0 < st.lfnPos ∧ SameName m (cString 255 st.lfnName) := by
  induction h generalizing n st with
  | nil =>
    obtain ⟨n, rfl⟩ : ∃ k, n = k + 1 := ⟨n - 1, by simp at hn; omega⟩
    simp [findFrom, dirIterNext] at hfound
  | @free x l names hx _ ih =>
    obtain ⟨hx0, hl⟩ := List.forall_mem_cons.mp hused
    rw [findFrom_deleted (first_of_free hx hx0)] at hfound
    exact ih hl ((Nat.lt_succ_self _).trans hn) hfound
  | @entry slots l name names he hl _ =>
    obtain ⟨n, rfl⟩ : ∃ k, n = k + 1 := ⟨n - 1, by omega⟩
    have hpos := List.length_pos_iff.mpr he.ne_nil
    rw [List.length_append] at hn
    obtain ⟨e', n', st', hnext, hst', hname⟩ := he.read l st
    rw [findFrom, hnext] at hfound
    dsimp only at hfound
    split_ifs at hfound with hsame
    · rcases hname with rfl | ⟨hgathered, rfl⟩
      · exact .inl ⟨n', (.head _), hsame⟩
      · exact .inr ⟨hgathered, hsame⟩
    · obtain ⟨x, hx, hx'⟩ :=
        (hl.findFrom_iff (fun x hx => hused x (List.mem_append_right _ hx)) hst'
        (by omega)).mp ⟨e, hfound⟩
      exact .inl ⟨x, .tail _ hx, hx'⟩

/-- A name is found exactly when it is listed before the first unused slot. -/
lemma findable_iff (h : Lists (d.flatten.takeWhile isUsed) names) :
    Findable name d ↔ ∃ n ∈ names, SameName name n := by
  rw [Findable, findInDir_takeWhile]
  exact h.findFrom_iff (fun x hx => isUsed_iff.mp (List.mem_takeWhile_imp hx)) rfl
    (Nat.lt_succ_self _)

/-! ## The place of new entries -/

/-- A new cluster of a directory, zeroed. -/
def emptyCluster (g : Geometry) : List DirEntry := List.replicate g.entriesPerCluster zeroEntry

/-- Some number of free slots are in a row in the cluster. -/
def hasRoom (needed : ℕ) (c : List DirEntry) : Bool :=
  (List.range (c.length + 1 - needed)).any fun i => ((c.drop i).take needed).all DirEntry.isFree

/-- No slot is unused before the first cluster with room. -/
def UsedUpTo (needed : ℕ) (d : List (List DirEntry)) : Prop :=
  ∀ c ∈ d.takeWhile fun c => !hasRoom needed c, ∀ x ∈ c, x.first ≠ 0

instance (needed : ℕ) (d : List (List DirEntry)) : Decidable (UsedUpTo needed d) :=
  inferInstanceAs (Decidable (∀ c ∈ d.takeWhile _, ∀ x ∈ c, x.first ≠ 0))

section

variable {needed i : ℕ}

lemma findRun_some (h : findRun g needed c = some i) : i + needed ≤ g.entriesPerCluster ∧
    (∀ x ∈ (c.drop i).take needed, x.isFree = true) ∧
    ∀ j < i, ∃ x ∈ (c.drop j).take needed, x.isFree = false := by
  rw [findRun, List.find?_range_eq_some] at h
  obtain ⟨hfree, hmem, hbefore⟩ := h
  rw [List.mem_range] at hmem
  refine ⟨by omega, List.all_eq_true.mp hfree, fun j hj => ?_⟩
  have := hbefore j hj
  simpa using this

lemma hasRoom_iff (hc : c.length = g.entriesPerCluster) :
    hasRoom needed c = true ↔ findRun g needed c ≠ none := by
  rw [hasRoom, findRun, hc, List.any_eq_true, ne_eq, List.find?_eq_none]
  push Not
  rfl

lemma split_run (c : List DirEntry) (i needed : ℕ) :
    c = c.take i ++ ((c.drop i).take needed ++ c.drop (i + needed)) := by
  simp [← List.drop_drop]

lemma isFree_zeroEntry : isFree zeroEntry = true := by decide

lemma inOrder_emptyCluster (g : Geometry) : InOrder g (emptyCluster g) where
  length_eq := List.length_replicate
  lists := ⟨[], .of_free fun x hx => by rw [List.eq_of_mem_replicate hx, isFree_zeroEntry]⟩
  unused := List.pairwise_replicate.mpr (.inr id)

lemma findRun_emptyCluster (h : needed ≤ g.entriesPerCluster) :
    findRun g needed (emptyCluster g) ≠ none := by
  rw [← hasRoom_iff (inOrder_emptyCluster g).length_eq, hasRoom, List.any_eq_true]
  refine ⟨0, List.mem_range.mpr ?_, List.all_eq_true.mpr fun x hx => ?_⟩
  · rw [(inOrder_emptyCluster g).length_eq]
    omega
  · rw [List.eq_of_mem_replicate (List.mem_of_mem_drop (List.mem_of_mem_take hx)), isFree_zeroEntry]

lemma InOrder.used_before (hc : InOrder g c) (h : findRun g needed c = some i) :
    ∀ x ∈ c.take i, x.first ≠ 0 := by
  obtain ⟨hle, -, hbefore⟩ := findRun_some h
  intro x hx h0
  obtain ⟨j, hj, rfl⟩ := List.mem_take_iff_getElem.mp hx
  rw [Nat.lt_min] at hj
  obtain ⟨y, hy, hlive⟩ := hbefore j hj.1
  have hdrop : c.drop j = (c)[j] :: c.drop (j + 1) := List.drop_eq_getElem_cons hj.2
  have hlater : ((c)[j] :: c.drop (j + 1)).Pairwise fun x y => x.first = 0 → y.first = 0 := by
    rw [← hdrop]
    exact hc.unused.sublist (List.drop_sublist j c)
  have hy0 : y.first = 0 := by
    have hmem := List.mem_of_mem_take hy
    rw [hdrop] at hmem
    rcases List.mem_cons.mp hmem with rfl | hmem
    · exact h0
    · exact (List.pairwise_cons.mp hlater).1 y hmem h0
  exact (first_of_live hlive).1 hy0

lemma InOrder.lists_around (hc : InOrder g c) (h : findRun g needed c = some i)
    (hpos : 0 < needed) : ∃ na nb, Lists (c.take i) na ∧ Lists (c.drop (i + needed)) nb := by
  obtain ⟨hle, hfree, -⟩ := findRun_some h
  obtain ⟨names, hlists⟩ := hc.lists
  have hsplit := split_run c i needed
  have hlen : ((c.drop i).take needed).length = needed := by
    rw [List.length_take, List.length_drop, hc.length_eq]
    omega
  cases hrun : (c.drop i).take needed with
  | nil =>
    rw [hrun, List.length_nil] at hlen
    omega
  | cons x run =>
    rw [hrun] at hsplit hfree
    obtain ⟨na, nb, -, ha, hb⟩ := hlists.split hsplit (hfree x (.head _))
    exact ⟨na, nb, ha, hb.of_append_free fun y hy => hfree y (.tail _ hy)⟩

/-- New entries go into a run of free slots, before the unused ones. -/
lemma InOrder.place (hc : InOrder g c) (hnew : IsEntry new name)
    (h : findRun g new.length c = some i) : InOrder g (place c i new) where
  length_eq := by
    have hle := (findRun_some h).1
    have hlen := hc.length_eq
    rw [Fat32.place, List.length_append, List.length_append, List.length_take, List.length_drop]
    omega
  lists := by
    obtain ⟨na, nb, ha, hb⟩ := hc.lists_around h (List.length_pos_iff.mpr hnew.ne_nil)
    exact ⟨_, (ha.append (.of_entry hnew)).append hb⟩
  unused := by
    have hused : ∀ x ∈ c.take i ++ new, x.first ≠ 0 := by
      intro x hx
      rcases List.mem_append.mp hx with hx | hx
      · exact hc.used_before h x hx
      · exact (first_of_live (hnew.live x hx)).1
    rw [Fat32.place, List.pairwise_append]
    refine ⟨List.pairwise_of_forall_mem_list fun x hx y _ => (hused x hx).elim,
      hc.unused.sublist (List.drop_sublist _ c), fun x hx y _ => (hused x hx).elim⟩

lemma addEntries_forall {P : List DirEntry → Prop} {grow ok : Bool} (hempty : P (emptyCluster g))
    (hplace : ∀ c i, P c → findRun g new.length c = some i → P (place c i new)) (n : ℕ)
    (h : addEntries g grow new n d = some (ok, d')) (hd : ∀ c ∈ d, P c) : ∀ c ∈ d', P c := by
  induction n generalizing d d' with
  | zero =>
    cases h
    exact hd
  | succ n ih =>
    cases d with
    | nil =>
      cases h
      exact hd
    | cons c cs =>
      obtain ⟨hc, hcs⟩ := List.forall_mem_cons.mp hd
      rw [addEntries] at h
      split at h
      · cases h
      split at h
      · next i hi =>
        cases h
        exact List.forall_mem_cons.mpr ⟨hplace c i hc hi, hcs⟩
      split at h
      · cases h
        exact List.forall_mem_cons.mpr ⟨hc, List.forall_mem_nil _⟩
      · obtain ⟨⟨ok', cs₂⟩, hadd, hpair⟩ := Option.map_eq_some_iff.mp h
        cases hpair
        refine List.forall_mem_cons.mpr ⟨hc, ih hadd ?_⟩
        split_ifs
        · exact List.forall_mem_cons.mpr ⟨hempty, List.forall_mem_nil _⟩
        · exact hcs

lemma addEntries_true {grow : Bool} (n : ℕ) (h : addEntries g grow new n d = some (true, d')) :
    ∃ before c after i, findRun g new.length c = some i ∧
      (∀ x ∈ before, findRun g new.length x = none) ∧ d' = before ++ place c i new :: after ∧
      (d = before ++ c :: after ∨ d = before ∧ c = emptyCluster g ∧ after = []) := by
  induction n generalizing d d' with
  | zero =>
    cases h
  | succ n ih =>
    cases d with
    | nil =>
      cases h
    | cons c cs =>
      rw [addEntries] at h
      split at h
      · cases h
      next hfit =>
      split at h
      · next i hi =>
        cases h
        exact ⟨[], c, cs, i, hi, List.forall_mem_nil _, rfl, .inl rfl⟩
      next hnone =>
      split at h
      · cases h
      obtain ⟨⟨ok, cs₂⟩, hadd, hpair⟩ := Option.map_eq_some_iff.mp h
      cases hpair
      obtain ⟨before, c', after, i, hi, hbefore, rfl, hcs⟩ := ih hadd
      refine ⟨c :: before, c', after, i, hi, List.forall_mem_cons.mpr ⟨hnone, hbefore⟩, rfl, ?_⟩
      by_cases hlast : cs = []
      · -- the new cluster has room
        rw [if_pos hlast] at hcs
        have hroom := findRun_emptyCluster (not_lt.mp hfit)
        have hnil : before = [] := by
          refine List.eq_nil_iff_forall_not_mem.mpr fun x hx => hroom ?_
          have hmem : x ∈ [List.replicate g.entriesPerCluster zeroEntry] := by
            rcases hcs with hcs | ⟨hcs, -⟩
            · rw [hcs]
              exact List.mem_append_left _ hx
            · rwa [hcs]
          rw [emptyCluster, ← List.mem_singleton.mp hmem]
          exact hbefore x hx
        rw [hnil] at hcs
        rcases hcs with hcs | ⟨hcs, -⟩
        · obtain ⟨rfl, rfl⟩ := List.cons.inj hcs
          exact .inr ⟨by rw [hlast, hnil], rfl, rfl⟩
        · cases hcs
      · rw [if_neg hlast] at hcs
        rcases hcs with rfl | ⟨rfl, rest⟩
        · exact .inl rfl
        · exact .inr ⟨rfl, rest⟩

end

/-! ## Deleting -/

lemma Lists.around {run : List DirEntry} (h : Lists l names)
    (hl : l = a ++ (run ++ x :: b)) (hrun : ∀ y ∈ run, y.isLong = true)
    (hlast : ∀ y, a.getLast? = some y → y.isLong = false) (hx : x.isLong = false)
    (hlive : x.isFree = false) : ∃ na nb, Lists a na ∧ Lists b nb := by
  induction h generalizing a run with
  | nil => simp at hl
  | @free y l names hy hrest ih =>
    cases a with
    | cons z a =>
      obtain ⟨rfl, htail⟩ := List.cons.inj hl
      have hlast' : ∀ y, a.getLast? = some y → y.isLong = false := by
        intro w hw
        refine hlast w ?_
        rw [List.getLast?_cons, hw]
        rfl
      obtain ⟨na, nb, ha, hb⟩ := ih htail hrun hlast'
      exact ⟨na, nb, .free hy ha, hb⟩
    | nil =>
      cases run with
      | nil =>
        obtain ⟨rfl, -⟩ := List.cons.inj hl
        rw [hy] at hlive
        cases hlive
      | cons z run =>
        obtain ⟨rfl, htail⟩ := List.cons.inj hl
        exact ih htail (fun w hw => hrun w (.tail _ hw)) nofun
  | @entry slots l name names he hrest ih =>
    obtain ⟨longs, e, rfl, hlongs⟩ := he.shape
    rcases List.append_eq_append_iff.mp hl with ⟨a', rfl, htail⟩ | ⟨t, hslots, htail⟩
    · -- the entry is before the slots
      have hlast' : ∀ y, a'.getLast? = some y → y.isLong = false := by
        intro w hw
        refine hlast w ?_
        rw [List.getLast?_append, hw]
        rfl
      obtain ⟨na, nb, ha, hb⟩ := ih htail hrun hlast'
      exact ⟨_, nb, .entry he ha, hb⟩
    · rcases List.eq_nil_or_concat t with rfl | ⟨t, z, rfl⟩
      · rw [List.append_nil] at hslots
        obtain ⟨na, nb, -, hb⟩ := ih (a := []) htail.symm hrun nofun
        exact ⟨[name], nb, hslots ▸ .of_entry he, hb⟩
      · -- the slots begin in the entry, so they begin with it
        rw [List.concat_eq_append, ← List.append_assoc] at hslots
        obtain ⟨hlongs', hz⟩ := List.append_inj' hslots rfl
        obtain rfl : a = [] := by
          cases hend : a.getLast? with
          | none => exact List.getLast?_eq_none_iff.mp hend
          | some y =>
            have hlong := hlongs y (by
              rw [hlongs']
              exact List.mem_append_left _ (List.mem_of_getLast? hend))
            rw [hlast y hend] at hlong
            cases hlong
        subst hlongs'
        rw [List.concat_eq_append, ← List.cons.inj hz |>.1, List.append_assoc] at htail
        obtain ⟨-, -, rfl⟩ := split_unique (p := fun y => y.isLong = false) hx rfl
          (fun y hy => by simp [hrun y hy]) (fun y hy => by simp [hlongs y hy]) htail
        exact ⟨[], names, .nil, hrest⟩

lemma isFree_of_first (h : x.first = 0xE5) : x.isFree = true := by
  simp [isFree, h]

/-- Erasing an entry leaves slots that were used. -/
lemma InOrder.eraseAt {target : List ℕ} {i : ℕ} (hc : InOrder g c)
    (h : findShort target c = some i) : InOrder g (eraseAt c i) := by
  obtain ⟨p, s, b, rfl, rfl, hp, h0, h5, -⟩ := findShort_eq_some h
  obtain ⟨a, run, rfl, hrun, hlast, -, -, herase⟩ := eraseAt_append p (.short s) b
  obtain ⟨names, hlists⟩ := hc.lists
  have hlive : isFree (.short s) = false := isFree_eq_false h0 h5
  obtain ⟨na, nb, ha, hb⟩ := hlists.around (List.append_assoc ..) hrun hlast rfl hlive
  have hmarked : ∀ x ∈ run.map delete ++ [delete (.short s)], x.first = 0xE5 := by
    intro x hx
    rcases List.mem_append.mp hx with hx | hx
    · obtain ⟨y, -, rfl⟩ := List.mem_map.mp hx
      exact first_delete y
    · rw [List.mem_singleton.mp hx, first_delete]
  rw [herase, List.append_cons]
  refine ⟨?_, ⟨na ++ nb, ?_⟩, ?_⟩
  · rw [← hc.length_eq]
    simp
  · exact ha.append ((Lists.of_free fun x hx => isFree_of_first (hmarked x hx)).append hb)
  · have hused : ∀ x ∈ a ++ (run.map delete ++ [delete (.short s)]), x.first ≠ 0 := by
      intro x hx
      rcases List.mem_append.mp hx with hx | hx
      · exact (hp x (List.mem_append_left _ hx)).1
      · rw [hmarked x hx]
        decide
    rw [← List.append_assoc, List.pairwise_append]
    refine ⟨List.pairwise_of_forall_mem_list fun x hx y _ => (hused x hx).elim, ?_,
      fun x hx y _ => (hused x hx).elim⟩
    refine hc.unused.sublist ?_
    exact (List.sublist_cons_self _ b).trans (List.sublist_append_right _ _)

lemma deleteEntry_forall {P : List DirEntry → Prop} {target : List ℕ}
    (herase : ∀ c i, P c → findShort target c = some i → P (eraseAt c i)) (n : ℕ)
    (hd : ∀ c ∈ d, P c) : ∀ c ∈ (deleteEntry target n d).2, P c := by
  induction n generalizing d with
  | zero => exact hd
  | succ n ih =>
    cases d with
    | nil => exact hd
    | cons c cs =>
      obtain ⟨hc, hcs⟩ := List.forall_mem_cons.mp hd
      rw [deleteEntry]
      split
      · next i hi => exact List.forall_mem_cons.mpr ⟨herase c i hc hi, hcs⟩
      · exact List.forall_mem_cons.mpr ⟨hc, ih hcs⟩

end FrostByte.Fat32
