import FrostByte.Vfs.Normalize

/-!
# The mount of a path

`vfs_find_mount` looks for the longest mount point that is the beginning of a path and ends where a
component does. As texts all of them but `/` end in a component, so `/` is found for the path `/`
only.

## Main definitions

* `findMount` — `vfs_find_mount`.
* `Mount.Above` — the mount point is a directory above the path.
* `FindsMount` — the lowest of these is found.

## Main results

* `findMount_spec` — what the loop finds.
* `findsMount_iff` — when this is right.
* `findMount_root` — the root is not found.
-/

namespace FrostByte.Vfs

/-- `vfs_mount_t`: the mount point and the root of the file system. -/
structure Mount (N : Type*) where
  point : List ℕ
  root : N

variable {N : Type*}

/-- The test of `vfs_find_mount`: the path begins with the mount point, and then ends or has a
slash. -/
def Mount.Matches (m : Mount N) (path : List ℕ) : Prop :=
  m.point ≠ [] ∧ m.point <+: path ∧
    (path[m.point.length]? = none ∨ path[m.point.length]? = some slash)

instance (m : Mount N) (path : List ℕ) : Decidable (m.Matches path) :=
  inferInstanceAs (Decidable (_ ∧ _ ∧ (_ ∨ _)))

/-- The loop over the mounts, with `best` and `best_len`. -/
def findLoop (path : List ℕ) : Option (Mount N) → List (Mount N) → Option (Mount N)
  | best, [] => best
  | best, cur :: rest =>
    if cur.Matches path ∧ best.elim 0 (·.point.length) < cur.point.length then
      findLoop path (some cur) rest
    else findLoop path best rest

/-- `vfs_find_mount`, over the list of mounts. -/
def findMount (mounts : List (Mount N)) (path : List ℕ) : Option (Mount N) :=
  findLoop path none mounts

/-- The text of a path in normal form. -/
def IsNormal (path : List ℕ) : Prop :=
  ∃ segs, Proper segs ∧ [dot] ∉ segs ∧ [dot, dot] ∉ segs ∧ path = pathOf segs

/-- The mount point is the path or an ancestor of it. -/
def Mount.Above (m : Mount N) (path : List ℕ) : Prop := segments m.point <+: segments path

/-- The longest mount point above the path is found, or there is none. -/
def FindsMount (mounts : List (Mount N)) (path : List ℕ) : Prop :=
  (∀ m, findMount mounts path = some m → m ∈ mounts ∧ m.Above path ∧
    ∀ m' ∈ mounts, m'.Above path → m'.point.length ≤ m.point.length) ∧
  (findMount mounts path = none → ∀ m ∈ mounts, ¬ m.Above path)

/-! ## The loop -/

section

variable {path : List ℕ} {mounts : List (Mount N)} {best : Option (Mount N)} {m : Mount N}

lemma findLoop_spec (h : findLoop path best mounts = some m) :
    (best = some m ∨ m ∈ mounts ∧ m.Matches path) ∧ best.elim 0 (·.point.length) ≤ m.point.length ∧
      ∀ m' ∈ mounts, m'.Matches path → m'.point.length ≤ m.point.length := by
  induction mounts generalizing best with
  | nil =>
    have hbest : best = some m := h
    exact ⟨.inl hbest, by rw [hbest]; exact le_rfl, fun m' hm' => nomatch hm'⟩
  | cons cur rest ih =>
    unfold findLoop at h
    split_ifs at h with hcur
    · obtain ⟨hfrom, hle, hmax⟩ := ih h
      have hle : cur.point.length ≤ m.point.length := hle
      refine ⟨.inr ?_, by omega, fun m' hm' hmatch => ?_⟩
      · rcases hfrom with heq | ⟨hmem, hmatch⟩
        · cases heq
          exact ⟨(.head _), hcur.1⟩
        · exact ⟨.tail _ hmem, hmatch⟩
      · rcases List.mem_cons.1 hm' with rfl | hm'
        · exact hle
        · exact hmax m' hm' hmatch
    · obtain ⟨hfrom, hle, hmax⟩ := ih h
      refine ⟨hfrom.imp_right fun ⟨hmem, hmatch⟩ => ⟨.tail _ hmem, hmatch⟩, hle,
        fun m' hm' hmatch => ?_⟩
      rcases List.mem_cons.1 hm' with rfl | hm'
      · have hshort := Nat.le_of_not_lt fun hlt => hcur ⟨hmatch, hlt⟩
        omega
      · exact hmax m' hm' hmatch

lemma findLoop_eq_none (h : findLoop path best mounts = none) :
    best = none ∧ ∀ m ∈ mounts, ¬ m.Matches path := by
  induction mounts generalizing best with
  | nil => exact ⟨h, fun m hm => nomatch hm⟩
  | cons cur rest ih =>
    unfold findLoop at h
    split_ifs at h with hcur
    · exact nomatch (ih h).1
    · obtain ⟨hbest, hrest⟩ := ih h
      refine ⟨hbest, fun m hm hmatch => ?_⟩
      rcases List.mem_cons.1 hm with rfl | hm
      · rw [hbest] at hcur
        exact hcur ⟨hmatch, List.length_pos_iff.2 hmatch.1⟩
      · exact hrest m hm hmatch

/-- **What `vfs_find_mount` finds**: a longest mount point that passes the test. -/
lemma findMount_spec (h : findMount mounts path = some m) : m ∈ mounts ∧ m.Matches path ∧
    ∀ m' ∈ mounts, m'.Matches path → m'.point.length ≤ m.point.length := by
  obtain ⟨hfrom, -, hmax⟩ := findLoop_spec h
  rcases hfrom with heq | ⟨hmem, hmatch⟩
  · exact nomatch heq
  · exact ⟨hmem, hmatch, hmax⟩

end

/-! ## Texts and components -/

section

variable {m : Mount N} {a b : List (List ℕ)}

lemma segments_append (path rest : List ℕ) :
    segments (path ++ slash :: rest) = segments path ++ segments rest := by
  unfold segments
  rw [List.splitOn_append_cons_self, List.filter_append]

/-- **The test on components.** The root has none, and passes the test for itself only. -/
lemma matches_iff (ha : Proper a) (hb : Proper b) (hm : m.point = pathOf a) :
    m.Matches (pathOf b) ↔ a <+: b ∧ (a = [] → b = []) := by
  unfold Mount.Matches
  rw [hm]
  constructor
  · rintro ⟨-, ⟨rest, hrest⟩, hnext⟩
    rw [← hrest, List.getElem?_append_right le_rfl, Nat.sub_self] at hnext
    have hsegs := congrArg segments hrest
    rcases rest with _ | ⟨c, rest⟩
    · rw [List.append_nil, segments_pathOf ha, segments_pathOf hb] at hsegs
      exact ⟨hsegs ▸ List.prefix_rfl, fun hnil => hsegs ▸ hnil⟩
    · obtain rfl : c = slash := by simpa using hnext
      rw [segments_append, segments_pathOf ha, segments_pathOf hb] at hsegs
      refine ⟨⟨_, hsegs⟩, fun hnil => ?_⟩
      -- two slashes in a row are in no text of components
      subst hnil
      by_contra hne
      obtain ⟨s, t, rfl⟩ := List.exists_cons_of_ne_nil hne
      obtain ⟨hs, hslash⟩ := hb s (.head _)
      obtain ⟨x, s, rfl⟩ := List.exists_cons_of_ne_nil hs
      have htext : slash :: slash :: rest = slash :: x :: (s ++ t.flatMap (slash :: ·)) := by
        simpa [pathOf] using hrest
      simp only [List.cons.injEq, true_and] at htext
      exact hslash (htext.1 ▸ (.head _))
  · rintro ⟨⟨t, rfl⟩, hroot⟩
    rcases eq_or_ne a [] with rfl | hne
    · obtain rfl : t = [] := hroot rfl
      exact ⟨List.cons_ne_nil _ _, List.prefix_rfl, .inl rfl⟩
    · have hpath : pathOf (a ++ t) = pathOf a ++ t.flatMap (slash :: ·) := by
        simp [pathOf, hne]
      refine ⟨?_, hpath ▸ List.prefix_append .., ?_⟩
      · obtain ⟨s, a, rfl⟩ := List.exists_cons_of_ne_nil hne
        simp [pathOf]
      · rw [hpath, List.getElem?_append_right le_rfl, Nat.sub_self]
        cases t with
        | nil => exact .inl rfl
        | cons s t => exact .inr rfl

lemma pathOf_eq_slash (ha : Proper a) : pathOf a = [slash] ↔ a = [] := by
  constructor
  · intro h
    have hnone : segments [slash] = [] := by decide
    rw [← segments_pathOf ha, h, hnone]
  · rintro rfl
    rfl

lemma Mount.matches_iff_above {path : List ℕ} (hm : IsNormal m.point) (hpath : IsNormal path) :
    m.Matches path ↔ m.Above path ∧ (m.point = [slash] → path = [slash]) := by
  obtain ⟨a, ha, -, -, hpoint⟩ := hm
  obtain ⟨b, hb, -, -, rfl⟩ := hpath
  rw [matches_iff ha hb hpoint, Mount.Above, hpoint, segments_pathOf ha, segments_pathOf hb,
    pathOf_eq_slash ha, pathOf_eq_slash hb]

end

/-- **When the right mount is found**: the path is `/`, nothing is mounted there, or another mount
point is above. -/
theorem findsMount_iff {mounts : List (Mount N)} {path : List ℕ} (hpath : IsNormal path)
    (hmounts : ∀ m ∈ mounts, IsNormal m.point) :
    FindsMount mounts path ↔ path = [slash] ∨ (∀ m ∈ mounts, m.point ≠ [slash]) ∨
      ∃ m ∈ mounts, m.point ≠ [slash] ∧ m.Above path := by
  have hiff := fun m hm => Mount.matches_iff_above (hmounts m hm) hpath
  constructor
  · -- a mount at the root is above every path, but not found
    intro h
    by_contra hcond
    push Not at hcond
    obtain ⟨hne, ⟨m, hm, hroot⟩, hothers⟩ := hcond
    have hnone : findMount mounts path = none := by
      rcases hfind : findMount mounts path with _ | m'
      · rfl
      · obtain ⟨hmem, hmatch, -⟩ := findMount_spec hfind
        obtain ⟨habove, himp⟩ := (hiff m' hmem).1 hmatch
        exact absurd habove (hothers m' hmem fun hslash => hne (himp hslash))
    refine h.2 hnone m hm ?_
    rw [Mount.Above, hroot]
    exact List.nil_prefix
  · intro hcond
    refine ⟨fun m hfind => ?_, fun hfind m hm habove => ?_⟩
    · obtain ⟨hmem, hmatch, hmax⟩ := findMount_spec hfind
      refine ⟨hmem, ((hiff m hmem).1 hmatch).1, fun m' hm' habove => ?_⟩
      by_cases hroot : m'.point = [slash]
      · rw [hroot]
        exact List.length_pos_iff.2 hmatch.1
      · exact hmax m' hm' ((hiff m' hm').2 ⟨habove, hroot.elim⟩)
    · have hno := (findLoop_eq_none hfind).2
      by_cases hroot : m.point = [slash]
      · rcases hcond with hslash | hnot | ⟨m', hm', hne, habove'⟩
        · exact hno m hm ((hiff m hm).2 ⟨habove, fun _ => hslash⟩)
        · exact hnot m hm hroot
        · exact hno m' hm' ((hiff m' hm').2 ⟨habove', hne.elim⟩)
      · exact hno m hm ((hiff m hm).2 ⟨habove, hroot.elim⟩)

/-- The bytes of an ASCII text. -/
def text (s : String) : List ℕ := s.toList.map Char.toNat

/-- A mount below the root. -/
theorem findsMount_nested : FindsMount [⟨text "/", 0⟩, ⟨text "/a", 1⟩] (text "/a/b") := by
  have hpath : IsNormal (text "/a/b") :=
    ⟨[text "a", text "b"], by decide, by decide, by decide, by decide⟩
  have hroot : IsNormal (text "/") := ⟨[], by decide, by decide, by decide, by decide⟩
  have ha : IsNormal (text "/a") := ⟨[text "a"], by decide, by decide, by decide, by decide⟩
  have hmounts : ∀ m ∈ [Mount.mk (text "/") 0, Mount.mk (text "/a") 1], IsNormal m.point := by
    intro m hm
    simp only [List.mem_cons, List.not_mem_nil, or_false] at hm
    rcases hm with rfl | rfl
    · exact hroot
    · exact ha
  exact (findsMount_iff hpath hmounts).2
    (.inr (.inr ⟨⟨text "/a", 1⟩, by simp, by decide, ⟨[text "b"], by decide⟩⟩))

/-- **The root mount is not found for a path below it.** -/
theorem findMount_root : findMount [⟨text "/", 0⟩] (text "/a/b") = none ∧
    ¬ FindsMount [⟨text "/", 0⟩] (text "/a/b") := by
  have hnone : findMount [⟨text "/", 0⟩] (text "/a/b") = none := by decide
  exact ⟨hnone, fun h => h.2 hnone _ (List.mem_singleton.2 rfl) ⟨segments (text "/a/b"), by decide⟩⟩

end FrostByte.Vfs
