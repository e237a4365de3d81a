import FrostByte.Fat.Directory
import Mathlib.Data.List.TakeWhile

/-!
# What a directory lists

The iterator gathers the long name of an entry from the slots before it, so marking some of them as
deleted may change the names of entries behind them. Where those are `Steady`, marking an entry
together with its long name takes this entry out of the list and leaves the others.

## Main definitions

* `records` — the live short entries of a directory with their names.
* `stateAfter` — what the iterator has gathered behind some entries.
* `Steady` — the names behind the first entry with a short name do not depend on it.
* `OnlyEntry` — one entry has a name, and no entry before it the same short name.

## Main results

* `findInDir_eq` — `fat32_find_in_dir` finds the first record with the name.
* `records_append` — the records of two parts, by the state between them.
* `records_eraseAt` — deleting takes out the first record with the short name.
-/

namespace FrostByte.Fat32

open DirEntry

/-- The live short entries with their names; `none` when the iterator writes past its buffer. -/
def records : List DirEntry → LfnState → Option (List (Option (List ℕ) × ShortEntry))
  | [], _ => some []
  | entry :: rest, st =>
    if entry.first = 0 then some []
    else if entry.first = 0xE5 then records rest st
    else
      match entry with
      | .long lfn =>
        let st := if lfn.order.testBit 6 then ⟨fun _ => 0, 0, lfn.checksum⟩ else st
        match extractLfn lfn st.lfnName st.lfnPos with
        | none => none
        | some (name, pos) => records rest { st with lfnName := name, lfnPos := pos }
      | .short e =>
        if e.attr.testBit 3 then (records rest st).map ((none, e) :: ·)
        else (records rest { st with lfnPos := 0 }).map ((some (entryName e st), e) :: ·)

def Named (name : List ℕ) : Option (List ℕ) × ShortEntry → Prop
  | (some n, _) => SameName name n
  | (none, _) => False

instance (name : List ℕ) : DecidablePred (Named name)
  | (some n, _) => inferInstanceAs (Decidable (SameName name n))
  | (none, _) => inferInstanceAs (Decidable False)

/-! ## One slot -/

section

variable {entry : DirEntry} {rest : List DirEntry} {st : LfnState} {lfn : LfnEntry} {e : ShortEntry}

lemma records_of_zero (h : entry.first = 0) : records (entry :: rest) st = some [] := by
  exact if_pos h

lemma records_of_deleted (h : entry.first = 0xE5) :
    records (entry :: rest) st = records rest st := by
  exact (if_neg (by omega)).trans (if_pos h)

/-- The state after a long-name entry, if it fits in the buffer. -/
def LfnState.after (st : LfnState) (lfn : LfnEntry) : Option LfnState :=
  let st := if lfn.order.testBit 6 then ⟨fun _ => 0, 0, lfn.checksum⟩ else st
  (extractLfn lfn st.lfnName st.lfnPos).map fun r => { st with lfnName := r.1, lfnPos := r.2 }

lemma LfnState.after_of_first (st st' : LfnState) (h : lfn.order.testBit 6 = true) :
    st.after lfn = st'.after lfn := by
  unfold LfnState.after
  rw [if_pos h, if_pos h]

lemma records_of_long (h0 : lfn.order ≠ 0) (h5 : lfn.order ≠ 0xE5) :
    records (.long lfn :: rest) st = (st.after lfn).bind (records rest) := by
  refine (if_neg h0).trans ((if_neg h5).trans ?_)
  unfold LfnState.after
  dsimp only
  generalize extractLfn lfn _ _ = extracted
  rcases extracted with _ | ⟨name, pos⟩
  · rfl
  · rfl

lemma records_of_label (h0 : first (.short e) ≠ 0) (h5 : first (.short e) ≠ 0xE5)
    (h : e.attr.testBit 3 = true) :
    records (.short e :: rest) st = (records rest st).map ((none, e) :: ·) := by
  exact (if_neg h0).trans ((if_neg h5).trans (if_pos h))

lemma records_of_short (h0 : first (.short e) ≠ 0) (h5 : first (.short e) ≠ 0xE5)
    (h : ¬ e.attr.testBit 3 = true) : records (.short e :: rest) st =
      (records rest { st with lfnPos := 0 }).map ((some (entryName e st), e) :: ·) := by
  exact (if_neg h0).trans ((if_neg h5).trans (if_neg h))

end

/-! ## Finding a name -/

/-- The records are those of labels, and those from the next entry on. -/
def NextRecords (r : Option (List (Option (List ℕ) × ShortEntry))) : IterResult → Prop
  | .stop => ∃ labels, r = some labels ∧ ∀ x ∈ labels, x.1 = none
  | .overflow => r = none
  | .found e name rest st => ∃ labels, (∀ x ∈ labels, x.1 = none) ∧
      r = (records rest st).map (labels ++ (some name, e) :: ·)

lemma NextRecords.cons {r : Option (List (Option (List ℕ) × ShortEntry))} {next : IterResult}
    (h : NextRecords r next) (e : ShortEntry) : NextRecords (r.map ((none, e) :: ·)) next := by
  have hcons : ∀ labels : List (Option (List ℕ) × ShortEntry), (∀ x ∈ labels, x.1 = none) →
      ∀ x ∈ (none, e) :: labels, x.1 = none := by
    intro labels h x hx
    rcases List.mem_cons.1 hx with rfl | hx
    · rfl
    · exact h x hx
  cases next with
  | stop =>
    obtain ⟨labels, rfl, hl⟩ := h
    exact ⟨(none, e) :: labels, rfl, hcons labels hl⟩
  | overflow => exact congrArg (Option.map ((none, e) :: ·)) h
  | found e' name rest st =>
    obtain ⟨labels, hl, rfl⟩ := h
    refine ⟨(none, e) :: labels, hcons labels hl, ?_⟩
    rw [Option.map_map]
    rfl

lemma nextRecords (entries : List DirEntry) :
    ∀ st : LfnState, NextRecords (records entries st) (dirIterNext entries st) := by
  induction entries with
  | nil => exact fun st => ⟨[], rfl, nofun⟩
  | cons entry rest ih =>
    intro st
    rw [dirIterNext.eq_def]
    dsimp only
    by_cases hzero : entry.first = 0
    · rw [if_pos hzero, records_of_zero hzero]
      exact ⟨[], rfl, nofun⟩
    rw [if_neg hzero]
    by_cases hdeleted : entry.first = 0xE5
    · rw [if_pos hdeleted, records_of_deleted hdeleted]
      exact ih st
    rw [if_neg hdeleted]
    cases entry with
    | long lfn =>
      rw [records_of_long hzero hdeleted, LfnState.after]
      dsimp only
      generalize extractLfn lfn _ _ = extracted
      rcases extracted with _ | ⟨name, pos⟩
      · exact rfl
      · exact ih _
    | short e =>
      dsimp only
      split_ifs with hlabel
      · rw [records_of_label hzero hdeleted hlabel]
        exact (ih st).cons e
      · rw [records_of_short hzero hdeleted hlabel]
        exact ⟨[], nofun, rfl⟩

lemma findFrom_eq (name : List ℕ) : ∀ (n : ℕ) {entries : List DirEntry} {st : LfnState}
    {r : List (Option (List ℕ) × ShortEntry)}, entries.length < n → records entries st = some r →
    findFrom name n entries st = (r.find? (Named name ·)).elim .notFound (.found ·.2) := by
  intro n
  induction n with
  | zero => exact by simp
  | succ n ih =>
    intro entries st r hn hr
    have hskip : ∀ (labels : List (Option (List ℕ) × ShortEntry)) r', (∀ x ∈ labels, x.1 = none) →
        (labels ++ r').find? (Named name ·) = r'.find? (Named name ·) := by
      intro labels r' hl
      rw [List.find?_append, List.find?_eq_none.2, Option.none_or]
      rintro ⟨_, e⟩ hx
      obtain rfl := hl _ hx
      exact fun h => absurd h Bool.false_ne_true
    have hnext := nextRecords entries st
    rw [findFrom]
    rcases hd : dirIterNext entries st with _ | ⟨e, m, rest, st'⟩ | _
    · rw [hd] at hnext
      obtain ⟨labels, hr', hl⟩ := hnext
      obtain rfl := Option.some.inj (hr.symm.trans hr')
      rw [← List.append_nil r, hskip r [] hl]
      rfl
    · rw [hd] at hnext
      obtain ⟨labels, hl, hr'⟩ := hnext
      rw [hr, eq_comm, Option.map_eq_some_iff] at hr'
      obtain ⟨r', hrest, rfl⟩ := hr'
      rw [hskip labels _ hl]
      dsimp only
      by_cases hsame : SameName name m
      · have hnamed : decide (Named name (some m, e)) = true := decide_eq_true hsame
        rw [if_pos hsame, List.find?_cons_of_pos (p := fun x => decide (Named name x)) hnamed]
        rfl
      · have hnamed : ¬ decide (Named name (some m, e)) = true :=
          fun h => hsame (of_decide_eq_true h)
        rw [if_neg hsame, List.find?_cons_of_neg (p := fun x => decide (Named name x)) hnamed]
        have := dirIterNext_length hd
        exact ih (by omega) hrest
    · rw [hd] at hnext
      rw [hnext] at hr
      cases hr

variable {a b c : List DirEntry} {d : List (List DirEntry)} {j : ℕ}
    {r : List (Option (List ℕ) × ShortEntry)} {target : List ℕ}

/-- **`fat32_find_in_dir` finds the first entry with the name.** -/
lemma findInDir_eq (name : List ℕ) (hr : records d.flatten .zero = some r) :
    findInDir name d = (r.find? (Named name ·)).elim .notFound (.found ·.2) :=
  findFrom_eq name _ (Nat.lt_succ_self _) hr

/-! ## Taking an entry out -/

/-- What the iterator has gathered behind some used slots; `none` when it writes past its buffer. -/
def stateAfter : List DirEntry → LfnState → Option LfnState
  | [], st => some st
  | entry :: rest, st =>
    if entry.first = 0xE5 then stateAfter rest st
    else
      match entry with
      | .long lfn => (st.after lfn).bind (stateAfter rest)
      | .short e => stateAfter rest (if e.attr.testBit 3 then st else { st with lfnPos := 0 })

/-- The slots before slot `j` of a cluster and its long name. -/
def beforeName (c : List DirEntry) (j : ℕ) : List DirEntry :=
  ((c.take j).reverse.dropWhile isLong).reverse

/-- The slots of the long name of slot `j` of a cluster. -/
def nameSlots (c : List DirEntry) (j : ℕ) : List DirEntry :=
  ((c.take j).reverse.takeWhile isLong).reverse

/-- The names behind the first entry with the short name do not depend on it: the iterator lists the
same records behind it when it comes from there and when it comes from before its long name. -/
def Steady (d : List (List DirEntry)) (target : List ℕ) : Prop :=
  ∀ k c j, d[k]? = some c → findShort target c = some j →
    (∀ i c', i < k → d[i]? = some c' → findShort target c' = none) →
    ∀ st st', stateAfter ((d.take k).flatten ++ beforeName c j) .zero = some st →
      stateAfter (nameSlots c j ++ (c.drop j).take 1) st = some st' →
      records (c.drop (j + 1) ++ (d.drop (k + 1)).flatten) st =
        records (c.drop (j + 1) ++ (d.drop (k + 1)).flatten) st'

/-- The records of two parts, by induction on the first one: the second part is listed from the
state that the iterator has behind the first. -/
lemma records_append (hnz : ∀ x ∈ a, x.first ≠ 0) (st : LfnState) :
    records (a ++ b) st = (records a st).bind fun r =>
      (stateAfter a st).bind fun st' => (records b st').map (r ++ ·) := by
  induction a generalizing st with
  | nil => simp [records, stateAfter]
  | cons entry rest ih =>
    have hzero := hnz entry (.head _)
    have hrest : ∀ x ∈ rest, x.first ≠ 0 := fun x hx => hnz x (.tail _ hx)
    rw [List.cons_append, stateAfter.eq_def]
    dsimp only
    by_cases hdeleted : entry.first = 0xE5
    · rw [if_pos hdeleted, records_of_deleted hdeleted, records_of_deleted hdeleted, ih hrest]
    rw [if_neg hdeleted]
    cases entry with
    | long lfn =>
      rw [records_of_long hzero hdeleted, records_of_long hzero hdeleted]
      dsimp only
      cases st.after lfn with
      | none => rfl
      | some st' => exact ih hrest st'
    | short e =>
      have hcons : ∀ (x : Option (List ℕ) × ShortEntry) (st' : LfnState),
          (records (rest ++ b) st').map (x :: ·) = ((records rest st').map (x :: ·)).bind fun r =>
            (stateAfter rest st').bind fun st'' => (records b st'').map (r ++ ·) := by
        intro x st'
        rw [ih hrest, Option.map_bind, Option.bind_map]
        refine congrArg _ (funext fun r => ?_)
        rw [Function.comp_apply, Option.map_bind]
        refine congrArg _ (funext fun st'' => ?_)
        rw [Function.comp_apply, Option.map_map]
        rfl
      dsimp only
      by_cases hlabel : e.attr.testBit 3 = true
      · rw [records_of_label hzero hdeleted hlabel, records_of_label hzero hdeleted hlabel,
          if_pos hlabel]
        exact hcons (none, e) st
      · rw [records_of_short hzero hdeleted hlabel, records_of_short hzero hdeleted hlabel,
          if_neg hlabel]
        exact hcons (some (entryName e st), e) { st with lfnPos := 0 }

/-- A long name and its short entry are one record. -/
lemma records_run {e : ShortEntry} (h0 : first (.short e) ≠ 0) (h5 : first (.short e) ≠ 0xE5)
    {run : List DirEntry} (hlong : ∀ x ∈ run, x.isLong = true) (hnz : ∀ x ∈ run, x.first ≠ 0)
    {st : LfnState} (hr : records (run ++ [.short e]) st = some r) : ∃ name, r = [(name, e)] := by
  induction run generalizing st with
  | nil =>
    rw [List.nil_append] at hr
    by_cases hlabel : e.attr.testBit 3 = true
    · rw [records_of_label h0 h5 hlabel] at hr
      exact ⟨none, (Option.some.inj hr).symm⟩
    · rw [records_of_short h0 h5 hlabel] at hr
      exact ⟨some (entryName e st), (Option.some.inj hr).symm⟩
  | cons entry run ih =>
    have hzero := hnz entry (.head _)
    have hlong' : ∀ x ∈ run, x.isLong = true := fun x hx => hlong x (.tail _ hx)
    have hnz' : ∀ x ∈ run, x.first ≠ 0 := fun x hx => hnz x (.tail _ hx)
    rw [List.cons_append] at hr
    by_cases hdeleted : entry.first = 0xE5
    · rw [records_of_deleted hdeleted] at hr
      exact ih hlong' hnz' hr
    cases entry with
    | short s => exact absurd (hlong _ (.head _)) Bool.false_ne_true
    | long lfn =>
      rw [records_of_long hzero hdeleted, Option.bind_eq_some_iff] at hr
      obtain ⟨st', -, hr⟩ := hr
      exact ih hlong' hnz' hr

lemma records_deleted_append {st : LfnState} (h : ∀ x ∈ a, x.first = 0xE5) :
    records (a ++ b) st = records b st := by
  induction a with
  | nil => rfl
  | cons entry rest ih =>
    simpa [records_of_deleted (h entry List.mem_cons_self)] using ih fun x hx => h x (.tail _ hx)

lemma first_delete (x : DirEntry) : x.delete.first = 0xE5 := by
  cases x with
  | short e => rfl
  | long e => rfl

/-- Marking a long name and its short entry takes out their record, if what follows is listed alike
from the states before and behind them. -/
lemma records_erase {run : List DirEntry} {e : ShortEntry} {st₀ : LfnState}
    (hnz : ∀ x ∈ a ++ run, x.first ≠ 0) (hlong : ∀ x ∈ run, x.isLong = true)
    (h0 : first (.short e) ≠ 0) (h5 : first (.short e) ≠ 0xE5)
    (hsteady : ∀ st st', stateAfter a st₀ = some st → stateAfter (run ++ [.short e]) st = some st' →
      records b st = records b st')
    (hr : records (a ++ (run ++ .short e :: b)) st₀ = some r) :
    ∃ r₁ name r₂, records a st₀ = some r₁ ∧ r = r₁ ++ (name, e) :: r₂ ∧
      records (a ++ (run.map delete ++ delete (.short e) :: b)) st₀ = some (r₁ ++ r₂) := by
  have hnza : ∀ x ∈ a, x.first ≠ 0 := fun x hx => hnz x (List.mem_append_left _ hx)
  have hnzr : ∀ x ∈ run ++ [.short e], x.first ≠ 0 := by
    intro x hx
    rcases List.mem_append.1 hx with hx | hx
    · exact hnz x (List.mem_append_right _ hx)
    · rwa [List.mem_singleton.1 hx]
  rw [records_append hnza, Option.bind_eq_some_iff] at hr
  obtain ⟨r₁, hr₁, hr⟩ := hr
  obtain ⟨st, hst, hr⟩ := Option.bind_eq_some_iff.1 hr
  obtain ⟨r', hr', rfl⟩ := Option.map_eq_some_iff.1 hr
  rw [List.append_cons, records_append hnzr, Option.bind_eq_some_iff] at hr'
  obtain ⟨rs, hrs, hr'⟩ := hr'
  obtain ⟨st', hst', hr'⟩ := Option.bind_eq_some_iff.1 hr'
  obtain ⟨r₂, hr₂, rfl⟩ := Option.map_eq_some_iff.1 hr'
  obtain ⟨name, rfl⟩ := records_run h0 h5 hlong (fun x hx => hnz x (List.mem_append_right _ hx)) hrs
  have hmarked : ∀ x ∈ run.map delete ++ [delete (.short e)], x.first = 0xE5 := by
    intro x hx
    rcases List.mem_append.1 hx with hx | hx
    · obtain ⟨y, -, rfl⟩ := List.mem_map.1 hx
      exact first_delete y
    · rw [List.mem_singleton.1 hx, first_delete]
  refine ⟨r₁, name, r₂, hr₁, rfl, ?_⟩
  rw [records_append hnza, hr₁, hst, Option.bind_some, Option.bind_some, List.append_cons,
    records_deleted_append hmarked, hsteady st st' hst hst', hr₂]
  rfl

lemma mem_records : ∀ {st : LfnState} {r : List (Option (List ℕ) × ShortEntry)}
    {x : Option (List ℕ) × ShortEntry}, records a st = some r → x ∈ r →
    short x.2 ∈ a.takeWhile (fun y => y.first ≠ 0) ∧ first (.short x.2) ≠ 0xE5 := by
  induction a with
  | nil =>
    intro st r x hr hx
    cases hr
    exact nomatch hx
  | cons entry rest ih =>
    intro st r x hr hx
    by_cases hzero : entry.first = 0
    · rw [records_of_zero hzero] at hr
      cases hr
      exact nomatch hx
    rw [List.takeWhile_cons_of_pos (by simpa using hzero)]
    have hlater : ∀ {st r}, records rest st = some r → x ∈ r →
        short x.2 ∈ entry :: rest.takeWhile (fun y => y.first ≠ 0) ∧
          first (.short x.2) ≠ 0xE5 :=
      fun hr hx => ⟨.tail _ (ih hr hx).1, (ih hr hx).2⟩
    by_cases hdeleted : entry.first = 0xE5
    · rw [records_of_deleted hdeleted] at hr
      exact hlater hr hx
    cases entry with
    | long lfn =>
      rw [records_of_long hzero hdeleted, Option.bind_eq_some_iff] at hr
      obtain ⟨st', -, hr⟩ := hr
      exact hlater hr hx
    | short e =>
      have hcons : ∀ {st name}, (records rest st).map ((name, e) :: ·) = some r →
          short x.2 ∈ .short e :: rest.takeWhile (fun y => y.first ≠ 0) ∧
            first (.short x.2) ≠ 0xE5 := by
        intro st name hr
        obtain ⟨r', hr', rfl⟩ := Option.map_eq_some_iff.1 hr
        rcases List.mem_cons.1 hx with rfl | hx
        · exact ⟨(.head _), hdeleted⟩
        · exact hlater hr' hx
      by_cases hlabel : e.attr.testBit 3 = true
      · rw [records_of_label hzero hdeleted hlabel] at hr
        exact hcons hr
      · rw [records_of_short hzero hdeleted hlabel] at hr
        exact hcons hr

/-! ## The entry with a name -/

/-- One entry has the name, and no entry before it has its short name. -/
def OnlyEntry (name : List ℕ) (r : List (Option (List ℕ) × ShortEntry)) : Prop :=
  ∃ r₁ x r₂, r = r₁ ++ x :: r₂ ∧ Named name x ∧ (∀ y ∈ r₁ ++ r₂, ¬ Named name y) ∧
    ∀ y ∈ r₁, y.2.name ≠ x.2.name

lemma split_unique {α : Type*} {p : α → Prop} {a₁ a₂ b₁ b₂ : List α} {x y : α} (hx : p x) (hy : p y)
    (h₁ : ∀ z ∈ a₁, ¬ p z) (h₂ : ∀ z ∈ a₂, ¬ p z) (h : a₁ ++ x :: b₁ = a₂ ++ y :: b₂) :
    a₁ = a₂ ∧ x = y ∧ b₁ = b₂ := by
  induction a₁ generalizing a₂ with
  | nil =>
    cases a₂ with
    | nil => exact ⟨rfl, List.cons.inj h⟩
    | cons z a₂ =>
      obtain ⟨rfl, -⟩ := List.cons.inj h
      exact absurd hx (h₂ x (.head _))
  | cons z a₁ ih =>
    cases a₂ with
    | nil =>
      obtain ⟨rfl, -⟩ := List.cons.inj h
      exact absurd hy (h₁ z (.head _))
    | cons z' a₂ =>
      obtain ⟨rfl, htail⟩ := List.cons.inj h
      obtain ⟨rfl, hxy⟩ := ih (fun w hw => h₁ w (.tail _ hw))
        (fun w hw => h₂ w (.tail _ hw)) htail
      exact ⟨rfl, hxy⟩

section

variable {name : List ℕ} {r₁ r₂ : List (Option (List ℕ) × ShortEntry)}
  {x y : Option (List ℕ) × ShortEntry}

lemma gone_iff (hx : (r₁ ++ y :: r₂).find? (Named name ·) = some x) (hy : y.2.name = x.2.name)
    (h₁ : ∀ z ∈ r₁, z.2.name ≠ x.2.name) :
    (r₁ ++ r₂).find? (Named name ·) = none ↔ OnlyEntry name (r₁ ++ y :: r₂) := by
  have hnamed : Named name x :=
    of_decide_eq_true (List.find?_some (p := fun x => decide (Named name x)) hx)
  have hmem : x = y ∨ x ∈ r₁ ++ r₂ :=
    List.mem_cons.1 (List.perm_middle.mem_iff.1 (List.mem_of_find?_eq_some hx))
  rw [List.find?_eq_none]
  constructor
  · intro hgone
    have hnot : ∀ z ∈ r₁ ++ r₂, ¬ Named name z := fun z hz h => hgone z hz (decide_eq_true h)
    obtain rfl : x = y := hmem.resolve_right fun h => hnot x h hnamed
    exact ⟨r₁, x, r₂, rfl, hnamed, hnot, h₁⟩
  · rintro ⟨s₁, z, s₂, heq, hz, hnot, hs₁⟩
    -- what is found is the one entry with the name
    obtain rfl : x = z := by
      have hx' : x ∈ s₁ ++ z :: s₂ := heq ▸ List.mem_of_find?_eq_some hx
      rcases List.mem_cons.1 (List.perm_middle.mem_iff.1 hx') with h | h
      · exact h
      · exact absurd hnamed (hnot x h)
    obtain ⟨rfl, -, rfl⟩ := split_unique (p := fun w => w.2.name = x.2.name) hy rfl h₁ hs₁ heq
    exact fun w hw h => hnot w hw (of_decide_eq_true h)

lemma find_of_ne {other : List ℕ} (hy : Named name y) (hne : ¬ SameName other name)
    (hx : (r₁ ++ y :: r₂).find? (Named other ·) = some x) :
    (r₁ ++ r₂).find? (Named other ·) = some x := by
  have hother : ¬ Named other y := by
    obtain ⟨_ | n, e⟩ := y
    · exact hy.elim
    · exact fun h => hne (h.trans hy.symm)
  rw [List.find?_append, List.find?_cons_of_neg (p := fun x => decide (Named other x))
    (fun h => hother (of_decide_eq_true h))] at hx
  rw [List.find?_append, hx]

end

/-! ## Marking the entry with a short name -/

lemma hasShort_short {s : ShortEntry} (h5 : first (.short s) ≠ 0xE5)
    (hname : s.name = target) : hasShort target (.short s) = true :=
  Bool.and_eq_true_iff.2 ⟨decide_eq_true h5, decide_eq_true hname⟩

lemma findShort_eq_some (h : findShort target c = some j) :
    ∃ p s b, c = p ++ .short s :: b ∧ p.length = j ∧
      (∀ x ∈ p, x.first ≠ 0 ∧ hasShort target x = false) ∧ first (.short s) ≠ 0 ∧
      first (.short s) ≠ 0xE5 ∧ s.name = target := by
  generalize hused : c.takeWhile fun e => e.first ≠ 0 = used
  have hfind : used.findIdx? (hasShort target) = some j := by
    rw [← hused, ← h, findShort]
  have hc : used ++ c.dropWhile (fun e => e.first ≠ 0) = c :=
    hused ▸ List.takeWhile_append_dropWhile
  have hnz : ∀ x ∈ used, x.first ≠ 0 := by
    intro x hx
    rw [← hused] at hx
    simpa using List.mem_takeWhile_imp hx
  obtain ⟨hj, hat, hbefore⟩ := List.findIdx?_eq_some_iff_getElem.1 hfind
  obtain ⟨s, hs⟩ : ∃ s, used[j] = .short s := by
    rcases hx : used[j] with s | lfn
    · exact ⟨s, rfl⟩
    · rw [hx] at hat
      cases hat
  have hmem : short s ∈ used := hs ▸ List.getElem_mem hj
  rw [hs, hasShort, Bool.and_eq_true, decide_eq_true_iff, decide_eq_true_iff] at hat
  refine ⟨used.take j, s, used.drop (j + 1) ++ c.dropWhile (fun e => e.first ≠ 0), ?_,
    List.length_take_of_le (Nat.le_of_lt hj), fun x hx => ⟨hnz x (List.mem_of_mem_take hx), ?_⟩,
    hnz _ hmem, hat⟩
  · rw [← List.cons_append, ← List.append_assoc, ← hs, List.getElem_cons_drop,
      List.take_append_drop, hc]
  · obtain ⟨i, hi, rfl⟩ := List.mem_take_iff_getElem.1 hx
    exact eq_false_of_ne_true (hbefore i (by omega))

lemma findShort_lt (h : findShort target c = some j) : j < c.length := by
  obtain ⟨p, s, b, rfl, rfl, -⟩ := findShort_eq_some h
  simp

lemma findShort_eq_none (h : findShort target c = none) :
    ∀ x ∈ c.takeWhile fun e => e.first ≠ 0, hasShort target x = false :=
  List.findIdx?_eq_none_iff.1 h

lemma take_eq_beforeName (c : List DirEntry) (j : ℕ) :
    c.take j = beforeName c j ++ nameSlots c j := by
  rw [beforeName, nameSlots, ← List.reverse_append, List.takeWhile_append_dropWhile,
    List.reverse_reverse]

lemma isLong_of_mem_nameSlots {x : DirEntry} (hx : x ∈ nameSlots c j) : x.isLong = true :=
  List.mem_takeWhile_imp (List.mem_reverse.1 hx)

lemma eraseAt_append (p : List DirEntry) (x : DirEntry) (b : List DirEntry) :
    ∃ a run, p = a ++ run ∧ (∀ y ∈ run, y.isLong = true) ∧
    (∀ y, a.getLast? = some y → y.isLong = false) ∧
      a = beforeName (p ++ x :: b) p.length ∧ run = nameSlots (p ++ x :: b) p.length ∧
      eraseAt (p ++ x :: b) p.length = a ++ (run.map delete ++ x.delete :: b) := by
  have htake : (p ++ x :: b).take p.length = p := List.take_left
  refine ⟨beforeName (p ++ x :: b) p.length, nameSlots (p ++ x :: b) p.length, ?_,
    fun y hy => isLong_of_mem_nameSlots hy, fun y hy => ?_, rfl, rfl, ?_⟩
  · rw [← take_eq_beforeName, htake]
  · rw [beforeName, htake, List.getLast?_reverse] at hy
    have hnot := List.head?_dropWhile_not isLong p.reverse
    rw [hy] at hnot
    exact hnot
  · simp [eraseAt, beforeName, nameSlots]

lemma mem_takeWhile_flatten {p : DirEntry → Bool} {x : DirEntry}
    (hx : x ∈ d.flatten.takeWhile p) : ∃ (k : ℕ) (c : List DirEntry), d[k]? = some c ∧
      x ∈ c.takeWhile p ∧ ∀ i c, i < k → d[i]? = some c → ∀ y ∈ c, p y = true := by
  induction d with
  | nil => exact nomatch hx
  | cons c d ih =>
    rw [List.flatten_cons, List.takeWhile_append] at hx
    split_ifs at hx with hall
    · have hc : ∀ y ∈ c, p y = true := by
        have heq : c.takeWhile p = c := (List.takeWhile_prefix p).eq_of_length hall
        intro y hy
        exact List.mem_takeWhile_imp (heq.symm ▸ hy)
      rcases List.mem_append.1 hx with hx | hx
      · refine ⟨0, c, rfl, ?_, by simp⟩
        rwa [(List.takeWhile_prefix p).eq_of_length hall]
      · obtain ⟨k, c', hk, hx', hbefore⟩ := ih hx
        refine ⟨k + 1, c', hk, hx', fun i c'' hi hc'' => ?_⟩
        rcases i with _ | i
        · cases hc''
          exact hc
        · exact hbefore i c'' (by omega) hc''
    · exact ⟨0, c, rfl, hx, by simp⟩

/-- **Deleting** takes out the first record with the short name. -/
lemma records_eraseAt {k : ℕ} {x : Option (List ℕ) × ShortEntry}
    (hsteady : Steady d target) (hr : records d.flatten .zero = some r) (hx : x ∈ r)
    (hname : x.2.name = target) (hk : d[k]? = some c) (hj : findShort target c = some j)
    (hfirst : ∀ i c, i < k → d[i]? = some c → findShort target c = none) :
    ∃ r₁ y r₂, r = r₁ ++ y :: r₂ ∧ y.2.name = target ∧ (∀ z ∈ r₁, z.2.name ≠ target) ∧
      records (d.set k (eraseAt c j)).flatten .zero = some (r₁ ++ r₂) := by
  obtain ⟨hxlive, hx5⟩ := mem_records hr hx
  obtain ⟨k', c', hk', hxc, hbefore⟩ := mem_takeWhile_flatten hxlive
  -- the entry is not in a cluster before, so no cluster before has an unused slot
  have hkk : k ≤ k' := by
    by_contra hlt
    have := findShort_eq_none (hfirst k' c' (by omega) hk') _ hxc
    rw [hasShort_short hx5 hname] at this
    exact nomatch this
  have hnz : ∀ y ∈ (d.take k).flatten, y.first ≠ 0 := by
    intro y hy
    obtain ⟨c₀, hc₀, hy⟩ := List.mem_flatten.1 hy
    obtain ⟨i, hi, rfl⟩ := List.mem_take_iff_getElem.1 hc₀
    have := hbefore i _ (by omega) (List.getElem?_eq_getElem (by omega)) y hy
    simpa using this
  have hnone : ∀ y ∈ (d.take k).flatten, hasShort target y = false := by
    intro y hy
    obtain ⟨c₀, hc₀, hyc⟩ := List.mem_flatten.1 hy
    obtain ⟨i, hi, rfl⟩ := List.mem_take_iff_getElem.1 hc₀
    refine findShort_eq_none (hfirst i _ (by omega) (List.getElem?_eq_getElem (by omega))) y ?_
    rw [List.takeWhile_eq_self_iff.2]
    · exact hyc
    · intro z hz
      simpa using hnz z (List.mem_flatten_of_mem hc₀ hz)
  obtain ⟨p, s, b, rfl, rfl, hp, h0, h5, hs⟩ := findShort_eq_some hj
  obtain ⟨a, run, rfl, hrun, -, ha, hrunSlots, herase⟩ := eraseAt_append p (.short s) b
  obtain ⟨hlt, hget⟩ := List.getElem?_eq_some_iff.1 hk
  -- the directory around the entry
  have hsplit : d.flatten = ((d.take k).flatten ++ a) ++
      (run ++ .short s :: (b ++ (d.drop (k + 1)).flatten)) := by
    conv_lhs => rw [← List.take_append_drop k d, List.drop_eq_getElem_cons hlt, hget]
    simp
  have hsplit' : (d.set k (eraseAt (a ++ run ++ .short s :: b) (a ++ run).length)).flatten =
      ((d.take k).flatten ++ a) ++ (run.map delete ++
        delete (.short s) :: (b ++ (d.drop (k + 1)).flatten)) := by
    rw [herase, List.set_eq_take_append_cons_drop, if_pos hlt]
    simp
  have hback : (a ++ run ++ .short s :: b).drop ((a ++ run).length + 1) = b := by
    rw [← List.drop_drop, List.drop_left]
    rfl
  have hown : ((a ++ run ++ .short s :: b).drop (a ++ run).length).take 1 = [.short s] := by
    rw [List.drop_left]
    rfl
  have halike := hsteady k _ _ hk hj hfirst
  rw [← ha, ← hrunSlots, hown, hback] at halike
  have hnza : ∀ y ∈ (d.take k).flatten ++ a ++ run, y.first ≠ 0 := by
    intro y hy
    rw [List.append_assoc] at hy
    rcases List.mem_append.1 hy with hy | hy
    · exact hnz y hy
    · exact (hp y hy).1
  rw [hsplit] at hr
  obtain ⟨r₁, name, r₂, hr₁, rfl, hr'⟩ := records_erase hnza hrun h0 h5 halike hr
  refine ⟨r₁, (name, s), r₂, rfl, hs, fun z hz hzname => ?_, hsplit' ▸ hr'⟩
  obtain ⟨hzlive, hz5⟩ := mem_records hr₁ hz
  have hzshort := hasShort_short hz5 hzname
  rcases List.mem_append.1 (List.takeWhile_subset _ hzlive) with hz | hz
  · rw [hnone _ hz] at hzshort
    exact nomatch hzshort
  · rw [(hp _ (List.mem_append_left _ hz)).2] at hzshort
    exact nomatch hzshort

end FrostByte.Fat32
