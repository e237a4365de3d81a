import FrostByte.Vfs.Mounts

/-!
# Symbolic links

At a symbolic link `vfs_resolve_path` makes a new path, brings it to normal form, and starts again,
at most nine times. `vfs_resolve_path_nofollow` starts again as `vfs_resolve_path`, so that it
follows the last link when it met another one before. Both stop at an empty component, as between
two slashes.

## Main definitions

* `resolve` — `vfs_resolve_path_internal2`, as the code works on texts.
* `lookup`, `Follows`, `Names` — what paths with links mean, on lists of components.
* `Fits` — the texts that are put together fit in the buffers of the code.
* `ResolvesLink` — both functions do with a path to a link what they should.

## Main results

* `resolve_eq_resolveFrom` — without links the components of the path are looked up in turn.
* `composePath_eq`, `normalizePath_link` — the path of a restart is where the link leads.
* `resolve_eq_some_iff` — `vfs_resolve_path` finds the node at the end of not too many links.
* `plain_of_nofollow` — a link is found only on a path without empty components.
* `resolvesLink_iff` — when the two functions resolve a path to a link as they should.
-/

namespace FrostByte.Vfs

variable {N : Type*}

/-! ## The model -/

/-- Mounts, `vfs_root`, and the operations of nodes. The roots are directories. -/
structure Tree (N : Type*) where
  mounts : List (Mount N)
  root : Option N
  finddir : N → List ℕ → Option N
  isLink : N → Bool
  readlink : N → Option (List ℕ)
  mounts_normal : ∀ m ∈ mounts, IsNormal m.point
  root_isLink : ∀ n, root = some n → isLink n = false
  mounts_isLink : ∀ m ∈ mounts, isLink m.root = false

/-- The loop ends with a node, without one, or at a link to be followed. -/
inductive Walk (N : Type*)
  | node (n : N)
  | fail
  | link (child : N) (before : List ℕ) (rest : List (List ℕ))

/-- The loop over the components. An empty one ends the path. -/
def walk (T : Tree N) (nofollowLast : Bool) : N → List ℕ → List (List ℕ) → Walk N
  | current, _, [] => .node current
  | current, before, c :: rest =>
    if c = [] then .node current
    else
      (T.finddir current (c.take 63)).elim .fail fun child =>
        if T.isLink child ∧ ¬(nofollowLast ∧ rest = []) then .link child before rest
        else walk T nofollowLast child (before ++ c ++ [slash]) rest

/-- `strncat` to the end of a buffer of 1024 bytes. -/
def strncat (newpath src : List ℕ) : List ℕ := newpath ++ src.take (1024 - newpath.length - 1)

/-- The path followed at a link: the target, behind the path so far if relative, and the rest. -/
def composePath (before target rest : List ℕ) : List ℕ :=
  let newpath :=
    if target.head? = some slash then target.take 1023
    else
      let start := before.take 1023
      let start :=
        if start.getLast? ≠ some slash ∧ start.length + 1 < 1024 then start ++ [slash] else start
      strncat start target
  if rest = [] then newpath
  else
    let newpath :=
      if newpath ≠ [] ∧ newpath.getLast? ≠ some slash then strncat newpath [slash] else newpath
    strncat newpath rest

/-- Components with slashes between them. -/
def restText (rest : List (List ℕ)) : List ℕ := [slash].intercalate rest

/-- The node where the loop starts, and what is left out of the path. -/
def start (T : Tree N) (path : List ℕ) : Option (N × ℕ) :=
  (findMount T.mounts path).elim (T.root.map fun n => (n, 1)) fun m =>
    some (m.root, if m.point.length ≤ 1 then 1
      else m.point.length + ((path.drop m.point.length).takeWhile (· = slash)).length)

/-- `vfs_resolve_path_internal2`, with `k` links to follow at most. -/
def resolve (T : Tree N) : ℕ → Bool → List ℕ → Option N
  | k, nofollowLast, path =>
    if path.head? ≠ some slash then none
    else
      (start T path).elim none fun s =>
        match walk T nofollowLast s.1 (path.take s.2) ((path.drop s.2).splitOn slash) with
        | .node n => some n
        | .fail => none
        | .link child before rest =>
          match k with
          | 0 => none
          | k + 1 =>
            (T.readlink child).elim none fun target =>
              let newpath :=
                composePath before (target.take 511) (restText (rest.dropWhile (· = [])))
              -- the path is followed to its end from here on
              (normalizePath [slash] newpath 1024).elim none fun norm => resolve T k false norm

/-- `vfs_resolve_path`. -/
def resolvePath (T : Tree N) (path : List ℕ) : Option N := resolve T 9 false path

/-- `vfs_resolve_path_nofollow`. -/
def resolvePathNofollow (T : Tree N) (path : List ℕ) : Option N := resolve T 9 true path

/-! ## What links mean -/

/-- The root, the components of the mount point and those behind it. -/
def origin (T : Tree N) (segs : List (List ℕ)) : Option (N × List (List ℕ) × List (List ℕ)) :=
  (findMount T.mounts (pathOf segs)).elim (T.root.map fun n => (n, [], segs)) fun m =>
    let depth := (segments m.point).length
    some (m.root, segs.take depth, segs.drop depth)

/-- A node that is no link, nothing, or the first link with what is around it. -/
inductive Found (N : Type*)
  | node (n : N)
  | missing
  | link (l : N) (before rest : List (List ℕ))
  deriving DecidableEq

/-- The lookup of some components up to the first link. -/
def find (T : Tree N) : N → List (List ℕ) → List (List ℕ) → Found N
  | n, _, [] => .node n
  | n, before, c :: rest =>
    (T.finddir n c).elim .missing fun child =>
      if T.isLink child then .link child before rest else find T child (before ++ [c]) rest

/-- The same from the mount of the path. -/
def lookup (T : Tree N) (segs : List (List ℕ)) : Found N :=
  (origin T segs).elim .missing fun o => find T o.1 o.2.1 o.2.2

/-- The components that a link puts together. -/
def linkSegs (before : List (List ℕ)) (t : List ℕ) (rest : List (List ℕ)) : List (List ℕ) :=
  (if t.head? = some slash then segments t else before ++ segments t) ++ rest

/-- Where a link leads. -/
def linkTo (before : List (List ℕ)) (t : List ℕ) (rest : List (List ℕ)) : List (List ℕ) :=
  foldSegs (linkSegs before t rest)

/-- The first link of a path leads to another path. -/
def Leads (T : Tree N) (a b : List (List ℕ)) : Prop :=
  ∃ l before rest t, lookup T a = .link l before rest ∧ T.readlink l = some t ∧
    b = linkTo before t rest

/-- The node at the end of all links, and their number. -/
inductive Follows (T : Tree N) : ℕ → List (List ℕ) → N → Prop
  | node {segs : List (List ℕ)} {n : N} : lookup T segs = .node n → Follows T 0 segs n
  | link {k : ℕ} {a b : List (List ℕ)} {n : N} :
    Leads T a b → Follows T k b n → Follows T (k + 1) a n

/-- The link that the last component names, and the number of links before. -/
inductive Names (T : Tree N) : ℕ → List (List ℕ) → N → Prop
  | last {segs before : List (List ℕ)} {l : N} :
    lookup T segs = .link l before [] → Names T 0 segs l
  | link {k : ℕ} {segs before rest : List (List ℕ)} {l l' : N} {t : List ℕ} :
      lookup T segs = .link l' before rest → rest ≠ [] → T.readlink l' = some t →
      Names T k (linkTo before t rest) l → Names T (k + 1) segs l

/-- The text of a directory, with a slash at its end. -/
def dirText (segs : List (List ℕ)) : List ℕ := segs.flatMap (slash :: ·) ++ [slash]

/-- The target of a link, behind the directory of the link if it is relative. -/
def targetText (before : List (List ℕ)) (t : List ℕ) : List ℕ :=
  if t.head? = some slash then t else dirText before ++ t

/-- The whole text that a link puts together: nothing is added when no component follows, and no
slash when there is one already. -/
def linkText (before : List (List ℕ)) (t : List ℕ) (rest : List (List ℕ)) : List ℕ :=
  if rest = [] then targetText before t
  else
    (if (targetText before t).getLast? = some slash then targetText before t
      else targetText before t ++ [slash]) ++ restText rest

/-- What is put together at a link fits in the buffers and the table. -/
structure FitsLink (before : List (List ℕ)) (t : List ℕ) (rest : List (List ℕ)) : Prop where
  target : t.length < 512
  newpath : (linkText before t rest).length < 1024
  table : ¬ Overflows (linkSegs before t rest)
  component : ∀ c ∈ linkTo before t rest, c.length < 64
  norm : (pathOf (linkTo before t rest)).length < 1024

/-- Everything fits on the way from a path over at most `k` links. -/
def Fits (T : Tree N) : ℕ → List (List ℕ) → Prop
  | 0, segs => ∀ c ∈ segs, c.length < 64
  | k + 1, segs => (∀ c ∈ segs, c.length < 64) ∧ ∀ l before rest t,
      lookup T segs = .link l before rest → T.readlink l = some t →
        FitsLink before t rest ∧ Fits T k (linkTo before t rest)

/-- A path without empty components: one slash before each component, and none at the end. -/
def Plain (path : List ℕ) : Prop := path = pathOf (segments path)

instance (path : List ℕ) : Decidable (Plain path) := inferInstanceAs (Decidable (_ = _))

/-- No two slashes follow the mount point of the path, where the code would skip them. -/
def SingleSlash (T : Tree N) (path : List ℕ) : Prop :=
  ∀ m, findMount T.mounts path = some m → ¬ m.point ++ [slash, slash] <+: path

/-- One function gives the link, the other the node at the end of at most nine. -/
def ResolvesLink (T : Tree N) (path : List ℕ) (l : N) : Prop :=
  resolvePathNofollow T path = some l ∧
    ∀ n, resolvePath T path = some n ↔ ∃ k ≤ 9, Follows T k (segments path) n

/-! ## Texts -/

section

variable {T : Tree N} {n l : N} {segs before rest cs : List (List ℕ)} {t : List ℕ} {k : ℕ}
    {nf : Bool}

lemma flatMap_eq_restText (h : cs ≠ []) : cs.flatMap (slash :: ·) = slash :: restText cs := by
  induction cs with
  | nil => exact absurd rfl h
  | cons c cs ih =>
    cases cs with
    | nil => simp [restText]
    | cons d cs =>
      rw [List.flatMap_cons, ih (List.cons_ne_nil _ _)]
      simp [restText]

lemma pathOf_append (h : cs ≠ []) : pathOf (before ++ cs) = dirText before ++ restText cs := by
  rw [pathOf, if_neg (by simp [h]), List.flatMap_append, flatMap_eq_restText h, dirText,
    List.append_assoc, List.singleton_append]

lemma splitOn_restText (h : Proper cs) (hne : cs ≠ []) : (restText cs).splitOn slash = cs := by
  have hsplit := splitOn_flatMap h
  rw [flatMap_eq_restText hne] at hsplit
  exact List.tail_eq_of_cons_eq hsplit

lemma segments_restText (h : Proper cs) : segments (restText cs) = cs := by
  rcases eq_or_ne cs [] with rfl | hne
  · decide
  · simpa [segments, splitOn_restText h hne] using fun c hc => by simpa using (h c hc).1

lemma segments_dirText (h : Proper before) (t : List ℕ) :
    segments (dirText before ++ t) = before ++ segments t := by
  rw [dirText, List.append_assoc, List.singleton_append, segments_append]
  congr 1
  rcases eq_or_ne before [] with rfl | hne
  · decide
  · have := segments_pathOf h
    rwa [pathOf, if_neg hne] at this

/-! ## The loop and the lookup -/

lemma walk_splitOn (h : Proper cs) (before : List ℕ) :
    walk T nf n before ((restText cs).splitOn slash) = walk T nf n before cs := by
  rcases eq_or_ne cs [] with rfl | hne
  · rfl
  · rw [splitOn_restText h hne]

/-- **The loop over the components finds what the lookup finds.** -/
lemma walk_eq (hcs : Proper cs) (hshort : ∀ c ∈ cs, c.length < 64) (n : N)
    (before : List (List ℕ)) :
    walk T nf n (dirText before) cs =
      match find T n before cs with
      | .node m => .node m
      | .missing => .fail
      | .link l b rest => if nf = true ∧ rest = [] then .node l else .link l (dirText b) rest := by
  induction cs generalizing n before with
  | nil => rfl
  | cons c cs ih =>
    have hdir : dirText before ++ c ++ [slash] = dirText (before ++ [c]) := by simp [dirText]
    rw [walk, find, if_neg (hcs c List.mem_cons_self).1,
      List.take_of_length_le (Nat.le_of_lt_succ (hshort c List.mem_cons_self)), hdir]
    cases T.finddir n c with
    | none => rfl
    | some child =>
      rw [Option.elim_some, Option.elim_some]
      by_cases hlink : T.isLink child
      · rw [if_pos hlink]
        dsimp only
        by_cases hlast : nf = true ∧ cs = []
        · rw [if_neg fun h => h.2 hlast, if_pos hlast, hlast.2]
          rfl
        · rw [if_pos ⟨hlink, hlast⟩, if_neg hlast]
      · rw [if_neg fun h => hlink h.1, if_neg hlink]
        exact ih (fun d hd => hcs d (.tail _ hd))
          (fun d hd => hshort d (.tail _ hd)) child (before ++ [c])

/-- Without links the loop looks up one name after the other, up to the first empty one. -/
lemma walk_eq_resolveFrom (hlinks : ∀ n, T.isLink n = false) (n : N) (before : List ℕ) :
    walk T nf n before cs = (resolveFrom (fun n c => some (T.finddir n c)) n
      ((cs.takeWhile (· ≠ [])).map (·.take 63))).join.elim .fail .node := by
  induction cs generalizing n before with
  | nil => rfl
  | cons c cs ih =>
    rw [walk]
    by_cases hc : c = []
    · rw [if_pos hc, hc]
      rfl
    · rw [if_neg hc, List.takeWhile_cons_of_pos (by simpa using hc), List.map_cons, resolveFrom]
      cases T.finddir n (c.take 63) with
      | none => rfl
      | some child =>
        rw [Option.elim_some, if_neg (by simp [hlinks]), ih]

/-- **Paths inside a mounted file system**: without links `vfs_resolve_path` goes along the
components of what follows the mount point. -/
theorem resolve_eq_resolveFrom {path : List ℕ} {p : ℕ} (hlinks : ∀ n, T.isLink n = false)
    (hslash : path.head? = some slash) (hstart : start T path = some (n, p))
    (hrest : (path.drop p).head? ≠ some slash) :
    resolve T k nf path =
      (resolveFrom (fun n c => some (T.finddir n c)) n (components (path.drop p))).join := by
  have hdrop : (path.drop p).dropWhile (· = slash) = path.drop p := by
    cases h : path.drop p with
    | nil => rfl
    | cons c cs =>
      rw [h, List.head?_cons] at hrest
      exact List.dropWhile_cons_of_neg (by simpa using hrest)
  rw [resolve.eq_def]
  dsimp only
  rw [if_neg (not_not.mpr hslash), hstart, Option.elim_some, components, hdrop,
    walk_eq_resolveFrom hlinks]
  generalize (resolveFrom _ n _).join = r
  cases r with
  | none => rfl
  | some m => rfl

lemma findMount_segs {m : Mount N} (hsegs : Proper segs)
    (h : findMount T.mounts (pathOf segs) = some m) :
    ∃ a cs, segs = a ++ cs ∧ m.point = pathOf a ∧ segments m.point = a ∧ (a = [] → cs = []) := by
  obtain ⟨hmem, hmatch, -⟩ := findMount_spec h
  obtain ⟨a, ha, -, -, hpoint⟩ := T.mounts_normal m hmem
  obtain ⟨⟨cs, rfl⟩, hnil⟩ := (matches_iff ha hsegs hpoint).1 hmatch
  refine ⟨a, cs, rfl, hpoint, by rw [hpoint, segments_pathOf ha], fun h0 => ?_⟩
  have := hnil h0
  rw [h0] at this
  exact this

variable {b : List (List ℕ)} {o : N × List (List ℕ) × List (List ℕ)} {path : List ℕ}

/-- **Where the loop starts**: behind the mount point. -/
lemma walk_start (nf : Bool) (hsegs : Proper segs)
    (h : origin T segs = some o) : ∃ p, start T (pathOf segs) = some (o.1, p) ∧
      walk T nf o.1 ((pathOf segs).take p) (((pathOf segs).drop p).splitOn slash) =
        walk T nf o.1 (dirText o.2.1) o.2.2 := by
  -- the path in two parts, and where the second one starts
  have key : ∀ (n : N) (a cs : List (List ℕ)) (p : ℕ), Proper cs →
      (cs = [] → (pathOf (a ++ cs)).drop p = []) → (cs ≠ [] → p = (dirText a).length) →
      walk T nf n ((pathOf (a ++ cs)).take p) (((pathOf (a ++ cs)).drop p).splitOn slash) =
        walk T nf n (dirText a) cs := by
    intro n a cs p hcs hnil hp
    rcases eq_or_ne cs [] with rfl | hne
    · rw [hnil rfl]
      rfl
    · rw [hp hne, pathOf_append hne, List.take_left, List.drop_left, walk_splitOn hcs]
  unfold origin at h
  unfold start
  cases hfind : findMount T.mounts (pathOf segs) with
  | none =>
    rw [hfind, Option.elim_none, Option.map_eq_some_iff] at h
    obtain ⟨n, hroot, rfl⟩ := h
    refine ⟨1, by rw [Option.elim_none, hroot]; rfl, ?_⟩
    refine key n [] segs 1 hsegs (fun hnil => ?_) fun _ => rfl
    rw [hnil]
    rfl
  | some m =>
    obtain ⟨a, cs, rfl, hpoint, hsegments, hroot⟩ := findMount_segs hsegs hfind
    rw [hfind, Option.elim_some, hsegments] at h
    cases h
    rw [List.take_left, List.drop_left]
    refine ⟨_, rfl, key m.root a cs _ (fun c hc => hsegs c (List.mem_append_right _ hc)) ?_ ?_⟩
    · rintro rfl
      rw [List.append_nil, hpoint, List.drop_eq_nil_iff]
      split_ifs <;> omega
    · intro hne
      have ha : a ≠ [] := fun h0 => hne (hroot h0)
      have hlen : m.point.length + 1 = (dirText a).length := by
        rw [hpoint, pathOf, if_neg ha, dirText, List.length_append, List.length_singleton]
      have hlong : 1 < m.point.length := by
        obtain ⟨s, a', rfl⟩ := List.exists_cons_of_ne_nil ha
        obtain ⟨x, s', rfl⟩ := List.exists_cons_of_ne_nil
          (hsegs s (List.mem_append_left _ (.head _))).1
        rw [hpoint]
        simp [pathOf]
      have hdrop : (pathOf (a ++ cs)).drop m.point.length = slash :: restText cs := by
        have htext : pathOf (a ++ cs) = m.point ++ slash :: restText cs := by
          rw [pathOf_append hne, hpoint, pathOf, if_neg ha, dirText, List.append_assoc,
            List.singleton_append]
        rw [htext, List.drop_left]
      have hslash : (restText cs).takeWhile (· = slash) = [] := by
        obtain ⟨c, cs', rfl⟩ := List.exists_cons_of_ne_nil hne
        obtain ⟨hc, hnot⟩ := hsegs c (List.mem_append_right _ (.head _))
        obtain ⟨x, c', rfl⟩ := List.exists_cons_of_ne_nil hc
        have hx : x ≠ slash := fun heq => hnot (heq ▸ (.head _))
        have htext : ∃ r, restText ((x :: c') :: cs') = x :: r := by
          cases cs' with
          | nil => exact ⟨c', by simp [restText]⟩
          | cons d cs' => exact ⟨_, by rw [restText, List.intercalate_cons_cons]; rfl⟩
        obtain ⟨r, hr⟩ := htext
        rw [hr, List.takeWhile_cons_of_neg (by simpa using hx)]
      rw [if_neg (by omega), hdrop, List.takeWhile_cons_of_pos (by simp), hslash]
      exact hlen

lemma start_eq_none (h : origin T segs = none) : start T (pathOf segs) = none := by
  unfold origin at h
  unfold start
  cases hfind : findMount T.mounts (pathOf segs) with
  | none =>
    rw [hfind, Option.elim_none, Option.map_eq_none_iff] at h
    rw [h]
    rfl
  | some m =>
    rw [hfind] at h
    cases h

lemma head?_pathOf (segs : List (List ℕ)) : (pathOf segs).head? = some slash := by
  cases segs with
  | nil => rfl
  | cons s segs => simp [pathOf]

lemma origin_mem (h : origin T segs = some o) : o.2.1 ++ o.2.2 = segs := by
  unfold origin at h
  cases hfind : findMount T.mounts (pathOf segs) with
  | none =>
    rw [hfind, Option.elim_none, Option.map_eq_some_iff] at h
    obtain ⟨n, -, rfl⟩ := h
    rfl
  | some m =>
    rw [hfind] at h
    cases h
    exact List.take_append_drop ..

lemma find_link (h : find T n before cs = .link l b rest) :
    (∃ c, before ++ cs = b ++ c :: rest) ∧ T.isLink l = true := by
  induction cs generalizing n before with
  | nil => cases h
  | cons c cs ih =>
    rw [find] at h
    cases hchild : T.finddir n c with
    | none =>
      rw [hchild] at h
      cases h
    | some child =>
      rw [hchild, Option.elim_some] at h
      split_ifs at h with hlink
      · cases h
        exact ⟨⟨c, rfl⟩, hlink⟩
      · obtain ⟨⟨d, hd⟩, hl⟩ := ih h
        exact ⟨⟨d, by simpa using hd⟩, hl⟩

lemma lookup_link (h : lookup T segs = .link l before rest) :
    (∃ c, segs = before ++ c :: rest) ∧ T.isLink l = true := by
  unfold lookup at h
  cases ho : origin T segs with
  | none =>
    rw [ho] at h
    cases h
  | some o =>
    rw [ho] at h
    obtain ⟨⟨c, hc⟩, hl⟩ := find_link h
    exact ⟨⟨c, by rw [← origin_mem ho, hc]⟩, hl⟩

/-! ## Following a link -/

lemma segments_join {text : List ℕ} (hrest : Proper rest) :
    segments ((if text.getLast? = some slash then text else text ++ [slash]) ++ restText rest) =
      segments text ++ rest := by
  split_ifs with hlast
  · obtain ⟨q, rfl⟩ := List.getLast?_eq_some_iff.1 hlast
    have hq : segments (q ++ [slash]) = segments q := by
      rw [segments_append]
      exact List.append_nil _
    simp [hq, segments_append, segments_restText hrest]
  · rw [List.append_assoc, List.singleton_append, segments_append, segments_restText hrest]

lemma strncat_eq {a b : List ℕ} (h : a.length + b.length < 1024) : strncat a b = a ++ b := by
  rw [strncat, List.take_of_length_le (by omega)]

lemma head?_targetText (before : List (List ℕ)) (t : List ℕ) :
    (targetText before t).head? = some slash := by
  have hdir : (dirText before).head? = some slash := by
    cases before with
    | nil => rfl
    | cons s before => simp [dirText]
  unfold targetText
  split_ifs with habs
  · exact habs
  · rw [List.head?_append, hdir]
    rfl

lemma head?_linkText (before : List (List ℕ)) (t : List ℕ) (rest : List (List ℕ)) :
    (linkText before t rest).head? = some slash := by
  have htarget := head?_targetText before t
  unfold linkText
  split_ifs
  · exact htarget
  · rw [List.head?_append, htarget]
    rfl
  · rw [List.head?_append, List.head?_append, htarget]
    rfl

lemma segments_linkText (hbefore : Proper before) (hrest : Proper rest) :
    segments (linkText before t rest) = linkSegs before t rest := by
  have htarget : segments (targetText before t) =
      if t.head? = some slash then segments t else before ++ segments t := by
    unfold targetText
    split_ifs
    · rfl
    · exact segments_dirText hbefore t
  rw [linkText, linkSegs, ← htarget]
  by_cases hnil : rest = []
  · rw [if_pos hnil, hnil, List.append_nil]
  · rw [if_neg hnil]
    exact segments_join hrest

/-- The first part of the text in the buffer of the code. -/
lemma composeTarget_eq (h : (targetText before t).length < 1024) :
    (if t.head? = some slash then t.take 1023
      else strncat (if ((dirText before).take 1023).getLast? ≠ some slash ∧
        ((dirText before).take 1023).length + 1 < 1024 then (dirText before).take 1023 ++ [slash]
        else (dirText before).take 1023) t) = targetText before t := by
  have hlast : (dirText before).getLast? = some slash := by simp [dirText]
  unfold targetText at h ⊢
  split_ifs at h with habs
  · rw [if_pos habs, if_pos habs, List.take_of_length_le (by omega)]
  · rw [List.length_append] at h
    have htake : (dirText before).take 1023 = dirText before := List.take_of_length_le (by omega)
    rw [if_neg habs, if_neg habs, htake, if_neg fun hne => hne.1 hlast, strncat_eq h]

/-- **The path that the code puts together** is the whole text, if that fits in the buffer. -/
lemma composePath_eq (hrest : Proper rest) (h : (linkText before t rest).length < 1024) :
    composePath (dirText before) t (restText rest) = linkText before t rest := by
  have hne : targetText before t ≠ [] := by
    intro hnil
    have hhead := head?_targetText before t
    rw [hnil] at hhead
    cases hhead
  unfold composePath
  by_cases hnil : rest = []
  · have hlen : (targetText before t).length < 1024 := by
      rwa [linkText, if_pos hnil] at h
    have hempty : restText rest = [] := by
      rw [hnil]
      rfl
    rw [composeTarget_eq hlen, if_pos hempty, linkText, if_pos hnil]
  · have hrestne : restText rest ≠ [] := fun h0 => hnil (by rw [← segments_restText hrest, h0]; rfl)
    rw [linkText, if_neg hnil, List.length_append] at h
    by_cases hlast : (targetText before t).getLast? = some slash
    · rw [if_pos hlast] at h
      rw [composeTarget_eq (by omega), if_neg hrestne, if_neg fun hno => hno.2 hlast, strncat_eq h,
        linkText, if_neg hnil, if_pos hlast]
    · rw [if_neg hlast, List.length_append] at h
      rw [composeTarget_eq (by omega), if_neg hrestne, if_pos ⟨hne, hlast⟩,
        strncat_eq (b := [slash]) (by omega), strncat_eq (by rw [List.length_append]; exact h),
        linkText, if_neg hnil, if_neg hlast]

lemma proper_linkTo (hbefore : Proper before) (hrest : Proper rest) :
    Proper (linkTo before t rest) := by
  intro s hs
  obtain ⟨hmem, -⟩ := mem_foldSegs hs
  rcases List.mem_append.1 hmem with hmem | hmem
  · split_ifs at hmem
    · exact proper_segments t s hmem
    · rcases List.mem_append.1 hmem with hmem | hmem
      · exact hbefore s hmem
      · exact proper_segments t s hmem
  · exact hrest s hmem

/-- **The path of a restart** is where the link leads, when it fits. -/
lemma normalizePath_link (hbefore : Proper before) (hrest : Proper rest)
    (hfit : FitsLink before t rest) :
    normalizePath [slash] (composePath (dirText before) (t.take 511)
      (restText (rest.dropWhile (· = [])))) 1024 = some (pathOf (linkTo before t rest)) := by
  have hdrop : rest.dropWhile (· = []) = rest := by
    cases rest with
    | nil => rfl
    | cons c rest => exact List.dropWhile_cons_of_neg (by simpa using (hrest c (.head _)).1)
  rw [hdrop, List.take_of_length_le (Nat.le_of_lt_succ hfit.target)]
  have hsegs : segments (linkText before t rest) = linkSegs before t rest :=
    segments_linkText hbefore hrest
  have hused : usedSegments [slash] (linkText before t rest) = linkSegs before t rest := by
    rw [usedSegments, if_neg fun h => h.1 (head?_linkText before t rest), hsegs, List.nil_append]
  have hproper : ∀ s ∈ linkSegs before t rest, s ≠ [] := fun s hs => by
    rw [← hsegs] at hs
    exact (proper_segments _ s hs).1
  rw [composePath_eq hrest hfit.newpath, normalizePath_eq, hused,
    (boundedSegs_eq_iff hproper).2 ⟨hfit.table, hfit.component⟩]
  exact if_pos hfit.norm

/-! ## Whole paths -/

lemma resolve_walk (nf : Bool) (hsegs : Proper segs)
    (ho : origin T segs = some o) (hshort : ∀ c ∈ segs, c.length < 64) :
    ∃ p, start T (pathOf segs) = some (o.1, p) ∧
      walk T nf o.1 ((pathOf segs).take p) (((pathOf segs).drop p).splitOn slash) =
        match find T o.1 o.2.1 o.2.2 with
        | .node m => .node m
        | .missing => .fail
        | .link l b rest =>
          if nf = true ∧ rest = [] then .node l else .link l (dirText b) rest := by
  obtain ⟨p, hstart, hwalk⟩ := walk_start nf hsegs ho
  have hmem : ∀ c ∈ o.2.2, c ∈ segs := fun c hc => origin_mem ho ▸ List.mem_append_right _ hc
  refine ⟨p, hstart, hwalk.trans ?_⟩
  exact walk_eq (fun c hc => hsegs c (hmem c hc)) (fun c hc => hshort c (hmem c hc)) _ _

variable (hsegs : Proper segs) (hshort : ∀ c ∈ segs, c.length < 64)

include hsegs hshort

lemma resolve_lookup : resolve T k nf (pathOf segs) = match lookup T segs with
    | .node n => some n
    | .missing => none
    | .link l before rest =>
      if nf = true ∧ rest = [] then some l
      else
        match k with
        | 0 => none
        | k + 1 => (T.readlink l).elim none fun t =>
          (normalizePath [slash] (composePath (dirText before) (t.take 511)
            (restText (rest.dropWhile (· = [])))) 1024).elim none fun norm =>
            resolve T k false norm := by
  rw [resolve, if_neg (by rw [head?_pathOf]; simp), lookup]
  cases ho : origin T segs with
  | none => simp [start_eq_none ho]
  | some o =>
    obtain ⟨p, hstart, hwalk⟩ := resolve_walk nf hsegs ho hshort
    rw [hstart, Option.elim_some, Option.elim_some, hwalk]
    cases find T o.1 o.2.1 o.2.2 with
    | node m => rfl
    | missing => rfl
    | link l before rest =>
      dsimp only
      split_ifs
      · rfl
      · rfl

lemma resolve_of_node (h : lookup T segs = .node n) : resolve T k nf (pathOf segs) = some n := by
  rw [resolve_lookup hsegs hshort, h]

lemma resolve_of_missing (h : lookup T segs = .missing) : resolve T k nf (pathOf segs) = none := by
  rw [resolve_lookup hsegs hshort, h]

lemma resolve_of_last (h : lookup T segs = .link l before []) :
    resolve T k true (pathOf segs) = some l := by
  rw [resolve_lookup hsegs hshort, h]
  exact if_pos ⟨rfl, rfl⟩

/-- **A restart follows the path of the link** to its end. -/
lemma resolve_of_link (h : lookup T segs = .link l before rest)
    (hfit : ∀ t, T.readlink l = some t → FitsLink before t rest) : resolve T k false (pathOf segs) =
      match k with
      | 0 => none
      | k + 1 => (T.readlink l).elim none fun t =>
      resolve T k false (pathOf (linkTo before t rest)) := by
  obtain ⟨⟨c, hc⟩, -⟩ := lookup_link h
  have hbefore : Proper before := fun d hd => hsegs d (hc ▸ List.mem_append_left _ hd)
  have hrest : Proper rest :=
    fun d hd => hsegs d (hc ▸ List.mem_append_right _ (.tail _ hd))
  rw [resolve_lookup hsegs hshort, h]
  refine (if_neg fun h => absurd h.1 (by decide)).trans ?_
  cases k with
  | zero => rfl
  | succ k =>
    cases ht : T.readlink l with
    | none => rfl
    | some t => simp [normalizePath_link hbefore hrest (hfit t ht)]

omit hsegs hshort

lemma Fits.short (h : Fits T k segs) : ∀ c ∈ segs, c.length < 64 := by
  cases k with
  | zero => exact h
  | succ k => exact h.1

lemma follows_of_node {m : N} (h : lookup T segs = .node m) :
    Follows T k segs n ↔ k = 0 ∧ n = m := by
  constructor
  · rintro (h' | ⟨⟨l, before, rest, t, h', -⟩, -⟩)
    · rw [h] at h'
      exact ⟨rfl, (Found.node.inj h').symm⟩
    · rw [h] at h'
      cases h'
  · rintro ⟨rfl, rfl⟩
    exact .node h

lemma not_follows_of_missing (h : lookup T segs = .missing) : ¬ Follows T k segs n := by
  rintro (h' | ⟨⟨l, before, rest, t, h', -⟩, -⟩)
  · rw [h] at h'
    cases h'
  · rw [h] at h'
    cases h'

lemma follows_of_link (h : lookup T segs = .link l before rest) : Follows T k segs n ↔
    ∃ j t, k = j + 1 ∧ T.readlink l = some t ∧ Follows T j (linkTo before t rest) n := by
  constructor
  · rintro (h' | ⟨⟨l', before', rest', t, h', ht, rfl⟩, hfollows⟩)
    · rw [h] at h'
      cases h'
    · rw [h] at h'
      obtain ⟨rfl, rfl, rfl⟩ := Found.link.inj h'
      exact ⟨_, t, rfl, ht, hfollows⟩
  · rintro ⟨j, t, rfl, ht, hfollows⟩
    exact .link ⟨l, before, rest, t, h, ht, rfl⟩ hfollows

lemma resolve_iff_of_ne_link (hsegs : Proper segs) (hshort : ∀ c ∈ segs, c.length < 64)
    (hnot : ∀ l before rest, lookup T segs ≠ .link l before rest) :
    resolve T k false (pathOf segs) = some n ↔ ∃ j ≤ k, Follows T j segs n := by
  cases hlookup : lookup T segs with
  | node m =>
    rw [resolve_of_node hsegs hshort hlookup]
    simp [follows_of_node hlookup, eq_comm]
  | missing =>
    rw [resolve_of_missing hsegs hshort hlookup]
    simp [not_follows_of_missing hlookup]
  | link l before rest => exact absurd hlookup (hnot l before rest)

/-- **What `vfs_resolve_path` finds**: the node at the end of not too many links. The induction is
on the links that may still be followed. -/
lemma resolve_eq_some_iff (hsegs : Proper segs) (hfit : Fits T k segs) :
    resolve T k false (pathOf segs) = some n ↔ ∃ j ≤ k, Follows T j segs n := by
  by_cases hnot : ∀ l before rest, lookup T segs ≠ .link l before rest
  · exact resolve_iff_of_ne_link hsegs hfit.short hnot
  push Not at hnot
  obtain ⟨l, before, rest, hlookup⟩ := hnot
  induction k generalizing segs l before rest with
  | zero =>
    rw [resolve_lookup hsegs hfit.short, hlookup]
    simp [follows_of_link hlookup]
  | succ k ih =>
    rw [resolve_of_link hsegs hfit.short hlookup fun t ht => (hfit.2 l before rest t hlookup ht).1]
    simp only [follows_of_link hlookup]
    cases ht : T.readlink l with
    | none => simp
    | some t =>
      have hfit' := (hfit.2 l before rest t hlookup ht).2
      obtain ⟨⟨c, hc⟩, -⟩ := lookup_link hlookup
      have hproper : Proper (linkTo before t rest) :=
        proper_linkTo (fun d hd => hsegs d (hc ▸ List.mem_append_left _ hd))
          fun d hd => hsegs d (hc ▸ List.mem_append_right _ (.tail _ hd))
      have hnext : resolve T k false (pathOf (linkTo before t rest)) = some n ↔
          ∃ j ≤ k, Follows T j (linkTo before t rest) n := by
        by_cases hnot : ∀ l b r, lookup T (linkTo before t rest) ≠ .link l b r
        · exact resolve_iff_of_ne_link hproper hfit'.short hnot
        push Not at hnot
        obtain ⟨l', before', rest', hlookup'⟩ := hnot
        exact ih hproper hfit' l' before' rest' hlookup'
      rw [Option.elim_some, hnext]
      constructor
      · rintro ⟨j, hj, hfollows⟩
        exact ⟨j + 1, Nat.succ_le_succ hj, j, t, rfl, rfl, hfollows⟩
      · rintro ⟨_, hj, j, t', rfl, ht', hfollows⟩
        cases ht'
        exact ⟨j, Nat.le_of_succ_le_succ hj, hfollows⟩

lemma walk_isLink {before : List ℕ} {m : N} (hn : T.isLink n = false)
    (h : walk T false n before cs = .node m) : T.isLink m = false := by
  induction cs generalizing n before with
  | nil =>
    obtain rfl := Walk.node.inj h
    exact hn
  | cons c cs ih =>
    rw [walk] at h
    split_ifs at h with hc
    · obtain rfl := Walk.node.inj h
      exact hn
    · cases hchild : T.finddir n (c.take 63) with
      | none =>
        rw [hchild] at h
        cases h
      | some child =>
        rw [hchild, Option.elim_some] at h
        split_ifs at h with hlink
        exact ih (by simpa using hlink) h

lemma start_isLink {p : ℕ} (h : start T path = some (n, p)) : T.isLink n = false := by
  unfold start at h
  cases hfind : findMount T.mounts path with
  | none =>
    rw [hfind, Option.elim_none, Option.map_eq_some_iff] at h
    obtain ⟨m, hroot, heq⟩ := h
    obtain ⟨rfl, -⟩ := Prod.mk.inj heq
    exact T.root_isLink m hroot
  | some m =>
    rw [hfind] at h
    cases h
    exact T.mounts_isLink m (findMount_spec hfind).1

lemma resolve_cases (h : resolve T k nf path = some n) : (∃ s, start T path = some s ∧
      walk T nf s.1 (path.take s.2) ((path.drop s.2).splitOn slash) = .node n) ∨
      ∃ j norm, k = j + 1 ∧ resolve T j false norm = some n := by
  unfold resolve at h
  split_ifs at h
  cases hs : start T path with
  | none =>
    rw [hs] at h
    cases h
  | some s =>
    rw [hs, Option.elim_some] at h
    cases hwalk : walk T nf s.1 (path.take s.2) ((path.drop s.2).splitOn slash) with
    | node m =>
      rw [hwalk] at h
      exact .inl ⟨s, rfl, by rw [hwalk, Option.some.inj h]⟩
    | fail =>
      rw [hwalk] at h
      cases h
    | link child before rest =>
      rw [hwalk] at h
      cases k with
      | zero => cases h
      | succ k =>
        dsimp only at h
        cases ht : T.readlink child with
        | none =>
          rw [ht] at h
          cases h
        | some t =>
          rw [ht, Option.elim_some] at h
          cases hnorm : normalizePath [slash] (composePath before (t.take 511)
              (restText (rest.dropWhile (· = [])))) 1024 with
          | none =>
            rw [hnorm] at h
            cases h
          | some norm =>
            rw [hnorm] at h
            exact .inr ⟨k, norm, rfl, h⟩

/-- **`vfs_resolve_path` never finds a link.** -/
lemma resolve_isLink (h : resolve T k false path = some n) : T.isLink n = false := by
  induction k generalizing path with
  | zero =>
    rcases resolve_cases h with ⟨s, hs, hwalk⟩ | ⟨j, norm, hk, -⟩
    · exact walk_isLink (start_isLink hs) hwalk
    · cases hk
  | succ k ih =>
    rcases resolve_cases h with ⟨s, hs, hwalk⟩ | ⟨j, norm, hk, hnorm⟩
    · exact walk_isLink (start_isLink hs) hwalk
    · obtain rfl := Nat.succ.inj hk
      exact ih hnorm

lemma Names.isLink (h : Names T k segs l) : T.isLink l = true := by
  induction h with
  | last hlookup => exact (lookup_link hlookup).2
  | link _ _ _ _ ih => exact ih

/-- **Behind another link the last one is never found.** -/
lemma eq_zero_of_nofollow {j : ℕ} (hsegs : Proper segs) (hshort : ∀ c ∈ segs, c.length < 64)
    (h : Names T k segs l) (hres : resolve T j true (pathOf segs) = some l) : k = 0 := by
  have hl := h.isLink
  cases h with
  | last => rfl
  | link hlookup hrest =>
    rcases resolve_cases hres with ⟨s, hs, hwalk⟩ | ⟨i, norm, -, hnorm⟩
    · unfold lookup at hlookup
      cases ho : origin T segs with
      | none =>
        rw [ho] at hlookup
        cases hlookup
      | some o =>
        rw [ho, Option.elim_some] at hlookup
        obtain ⟨p, hstart, hwalk'⟩ := resolve_walk true hsegs ho hshort
        rw [hstart] at hs
        cases hs
        rw [hwalk', hlookup] at hwalk
        dsimp only at hwalk
        rw [if_neg fun h => hrest h.2] at hwalk
        cases hwalk
    · rw [resolve_isLink hnorm] at hl
      cases hl

/-! ## Empty components -/

/-- The loop ends at a link only when it has passed all components, none of them empty. -/
lemma ne_nil_of_walk {before : List ℕ} (hn : T.isLink n = false) (hl : T.isLink l = true)
    (h : walk T true n before cs = .node l) : [] ∉ cs := by
  induction cs generalizing n before with
  | nil => exact List.not_mem_nil
  | cons c cs ih =>
    rw [walk] at h
    split_ifs at h with hc
    · rw [Walk.node.inj h, hl] at hn
      cases hn
    cases hchild : T.finddir n (c.take 63) with
    | none =>
      rw [hchild] at h
      cases h
    | some child =>
      rw [hchild, Option.elim_some] at h
      split_ifs at h with hlink
      have hcs : [] ∉ cs := by
        by_cases hchildLink : T.isLink child = true
        · -- a link that is not followed is the last component
          rw [not_and_not_right] at hlink
          rw [(hlink hchildLink).2]
          exact List.not_mem_nil
        · exact ih (eq_false_of_ne_true hchildLink) h
      rintro (_ | ⟨_, hmem⟩)
      · exact hc rfl
      · exact hcs hmem

/-- A text behind the slash of a directory, when none of its components is empty. -/
lemma plain_of_splitOn {a : List (List ℕ)} {tail : List ℕ} (ha : Proper a)
    (h : [] ∉ tail.splitOn slash) : Plain (dirText a ++ tail) := by
  have hproper : Proper (tail.splitOn slash) :=
    fun s hs => ⟨fun hnil => h (hnil ▸ hs), notMem_of_mem_splitOn hs⟩
  have hne : tail.splitOn slash ≠ [] := List.splitOn_ne_nil _ _
  have htext : restText (tail.splitOn slash) = tail := List.intercalate_splitOn slash
  have hboth : Proper (a ++ tail.splitOn slash) := by
    intro s hs
    rcases List.mem_append.1 hs with hs | hs
    · exact ha s hs
    · exact hproper s hs
  have hpath : dirText a ++ tail = pathOf (a ++ tail.splitOn slash) := by
    rw [pathOf_append hne, htext]
  rw [Plain, hpath, segments_pathOf hboth]

/-- **A link is found only on a path without empty components.** -/
lemma plain_of_nofollow {j : ℕ} (hskip : SingleSlash T path) (hl : T.isLink l = true)
    (h : resolve T j true path = some l) : Plain path := by
  have hhead : path.head? = some slash := by
    by_contra hne
    unfold resolve at h
    rw [if_pos hne] at h
    cases h
  obtain ⟨tail, rfl⟩ : ∃ tail, path = slash :: tail := by
    cases path with
    | nil => cases hhead
    | cons c tail => exact ⟨tail, congrArg (· :: tail) (Option.some.inj hhead)⟩
  rcases resolve_cases h with ⟨s, hs, hwalk⟩ | ⟨i, norm, -, hnorm⟩
  swap
  · rw [resolve_isLink hnorm] at hl
    cases hl
  have hnil := ne_nil_of_walk (start_isLink hs) hl hwalk
  unfold start at hs
  cases hfind : findMount T.mounts (slash :: tail) with
  | none =>
    rw [hfind, Option.elim_none, Option.map_eq_some_iff] at hs
    obtain ⟨n, -, rfl⟩ := hs
    exact plain_of_splitOn (a := []) (fun _ h => nomatch h) hnil
  | some m =>
    rw [hfind, Option.elim_some] at hs
    cases hs
    dsimp only at hnil
    obtain ⟨hmem, ⟨hpos, hpre, hnext⟩, -⟩ := findMount_spec hfind
    obtain ⟨a, ha, -, -, hpoint⟩ := T.mounts_normal m hmem
    split_ifs at hnil with hroot
    · exact plain_of_splitOn (a := []) (fun _ h => nomatch h) hnil
    have hane : a ≠ [] := by
      rintro rfl
      rw [hpoint] at hroot
      exact hroot (Nat.le_refl 1)
    obtain ⟨rest, hrest⟩ := hpre
    rw [← hrest, List.getElem?_append_right le_rfl, Nat.sub_self] at hnext
    rw [← hrest, List.drop_left, ← List.drop_drop, List.drop_left] at hnil
    cases rest with
    | nil => exact absurd (List.mem_singleton_self []) hnil
    | cons c rest =>
      obtain rfl : c = slash := by simpa using hnext
      have hno : rest.takeWhile (· = slash) = [] := by
        cases rest with
        | nil => rfl
        | cons d rest =>
          refine List.takeWhile_cons_of_neg fun hd => hskip m hfind ?_
          rw [← hrest, of_decide_eq_true hd]
          exact ⟨rest, by simp⟩
      rw [List.takeWhile_cons_of_pos (by simp), hno, List.length_singleton, List.drop_one,
        List.tail_cons] at hnil
      have htext : slash :: tail = dirText a ++ rest := by
        rw [← hrest, hpoint, pathOf, if_neg hane, dirText, List.append_assoc, List.singleton_append]
      rw [htext]
      exact plain_of_splitOn ha hnil

/-- **When the two functions resolve a path to a link**, if all texts fit: when no link is before
the last component and no component is empty. Behind another link, and on a path with an empty
component, the function that should not follow the last link does so. -/
theorem resolvesLink_iff (hskip : SingleSlash T path) (hfit : Fits T 9 (segments path))
    (h : Names T k (segments path) l) : ResolvesLink T path l ↔ k = 0 ∧ Plain path := by
  have hsegs := proper_segments path
  constructor
  · rintro ⟨hnofollow, -⟩
    have hplain := plain_of_nofollow hskip h.isLink hnofollow
    have hres : resolve T 9 true (pathOf (segments path)) = some l := by
      rw [← hplain]
      exact hnofollow
    exact ⟨eq_zero_of_nofollow hsegs hfit.short h hres, hplain⟩
  · rintro ⟨rfl, hplain⟩
    have hnofollow : resolvePathNofollow T (pathOf (segments path)) = some l := by
      cases h with
      | last hlookup => exact resolve_of_last hsegs hfit.short hlookup
    have hfollow : ∀ n, resolvePath T (pathOf (segments path)) = some n ↔
        ∃ k ≤ 9, Follows T k (segments path) n := fun n => resolve_eq_some_iff hsegs hfit
    rw [← hplain] at hnofollow hfollow
    exact ⟨hnofollow, hfollow⟩

end

/-! ## Examples -/

/-- A directory `d` with a link `l` to `/f`, and a link `a` to it. -/
def linkTree : Tree ℕ where
  mounts := []
  root := some 0
  finddir n c :=
    if n = 0 then
      if c = text "a" then some 1 else if c = text "d" then some 2
      else if c = text "f" then some 4 else none
    else if n = 2 ∧ c = text "l" then some 3
    else none
  isLink n := n = 1 || n = 3
  readlink n := if n = 1 then some (text "/d") else if n = 3 then some (text "/f") else none
  mounts_normal := nofun
  root_isLink n h := by
    cases h
    rfl
  mounts_isLink := nofun

lemma fits_linkTree : Fits linkTree 9 [text "d", text "l"] := by
  have hlink : linkTo [text "d"] (text "/f") [] = [text "f"] := by decide +kernel
  refine ⟨by decide +kernel, fun l before rest t hlookup ht => ?_⟩
  obtain ⟨rfl, rfl, rfl⟩ := Found.link.inj hlookup
  cases ht
  have hne : ∀ s ∈ linkSegs [text "d"] (text "/f") [], s ≠ [] := by decide +kernel
  have htable := (boundedSegs_eq_iff hne).1 (by decide +kernel)
  have hnext : Fits linkTree 8 (linkTo [text "d"] (text "/f") []) := by
    rw [hlink]
    refine ⟨by decide +kernel, fun l before rest t hlookup => ?_⟩
    cases hlookup
  exact ⟨⟨by decide +kernel, by decide +kernel, htable.1, htable.2, by decide +kernel⟩, hnext⟩

/-- The last component is the only link. -/
theorem resolvesLink_direct : ResolvesLink linkTree (text "/d/l") 3 := by
  have hsegs : segments (text "/d/l") = [text "d", text "l"] := by decide +kernel
  have hlookup : lookup linkTree (segments (text "/d/l")) = .link 3 [text "d"] [] := by
    decide +kernel
  have hplain : Plain (text "/d/l") := by decide +kernel
  have hskip : SingleSlash linkTree (text "/d/l") := by
    intro m hm
    cases hm
  exact (resolvesLink_iff hskip (hsegs ▸ fits_linkTree) (.last hlookup)).2 ⟨rfl, hplain⟩

/-- Behind another link the last one is followed. -/
theorem nofollow_follows : Names linkTree 1 [text "a", text "l"] 3 ∧
    resolvePathNofollow linkTree (pathOf [text "a", text "l"]) = some 4 := by
  have h1 : lookup linkTree [text "a", text "l"] = .link 1 [] [text "l"] := by decide +kernel
  have h2 : lookup linkTree (linkTo [] (text "/d") [text "l"]) = .link 3 [text "d"] [] := by
    decide +kernel
  exact ⟨.link h1 (List.cons_ne_nil _ _) rfl (.last h2), by decide +kernel⟩

end FrostByte.Vfs
