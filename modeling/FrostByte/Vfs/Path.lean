import Mathlib.Data.List.TakeWhile

/-!
# Paths inside a mounted file system

`vfs_resolve_path` goes from the root of the mounted file system along the components of a path, and
`vfs_rmdir` resolves a directory and its parent. A path is here what follows the mount point. No
node here is a symbolic link, and permissions are not enforced.

## Main definitions

* `resolveFrom` — the lookup along components.
* `rmdir` — `vfs_rmdir`, for any file system.

## Main results

* `resolveFrom_parent` — a path and its parent are resolved together.
* `rmdir_eq` — what `vfs_rmdir` comes to.
-/

namespace FrostByte.Vfs

/-- The character `/`. -/
def slash : ℕ := '/'.toNat

/-- The names that `vfs_resolve_path` looks for: an empty one ends the path, and 63 characters are
kept. -/
def components (path : List ℕ) : List (List ℕ) :=
  (((path.dropWhile (· = slash)).splitOn slash).takeWhile (· ≠ [])).map (·.take 63)

/-- `vfs_get_parent_path`: the part before the last slash, or `/`. -/
def parentPath (path : List ℕ) : Option (List ℕ) :=
  if slash ∈ path then
    let parent := (path.reverse.dropWhile (· ≠ slash)).tail.reverse
    some (if parent = [] then [slash] else parent)
  else none

/-- Looking up one name after the other, from a node on. -/
def resolveFrom {N : Type*} (finddir : N → List ℕ → Option (Option N)) :
    N → List (List ℕ) → Option (Option N)
  | node, [] => some (some node)
  | node, name :: rest =>
    match finddir node name with
    | none => none
    | some none => some none
    | some (some child) => resolveFrom finddir child rest

/-- `vfs_rmdir`, with or without memory for the path of the parent. -/
def rmdir {N σ : Type*} (resolve : List ℕ → Option (Option N)) (isDirectory : N → Bool)
    (fsRmdir : N → Option (ℤ × σ)) (memory : Bool) (s : σ) (path : List ℕ) : Option (ℤ × σ) :=
  match resolve path with
  | none => none
  | some none => some (-1, s)
  | some (some node) =>
    if isDirectory node then
      match if memory then parentPath path else none with
      | none => some (-1, s)
      | some parent =>
        match resolve parent with
        | none => none
        | some none => some (-1, s)
        | some (some _) => fsRmdir node
    else some (-1, s)

/-! ## The parent -/

lemma eq_of_parentPath {path parent : List ℕ} (h : parentPath path = some parent) :
    ∃ base, path = parent ++ slash :: base ∨ parent = [slash] ∧ path = slash :: base := by
  unfold parentPath at h
  split_ifs at h with hmem
  -- the path from the last slash on, backwards
  rcases hd : path.reverse.dropWhile (· ≠ slash) with _ | ⟨c, rest⟩
  · have hall := List.dropWhile_eq_nil_iff.1 hd slash (List.mem_reverse.2 hmem)
    simp at hall
  · have hc : c = slash := by
      have hnot := List.head?_dropWhile_not (fun x => decide (x ≠ slash)) path.reverse
      rw [hd] at hnot
      simpa using hnot
    have hsplit := List.takeWhile_append_dropWhile (p := fun x => decide (x ≠ slash))
      (l := path.reverse)
    have hrev := congrArg List.reverse hsplit
    rw [hd, List.reverse_append, List.reverse_cons, List.reverse_reverse, List.append_assoc,
      hc] at hrev
    rw [hd, List.tail_cons] at h
    refine ⟨(path.reverse.takeWhile (· ≠ slash)).reverse, ?_⟩
    cases h
    split_ifs with hnil
    · rw [hnil] at hrev
      exact .inr ⟨rfl, hrev.symm⟩
    · exact .inl hrev.symm

lemma components_parent (parent base : List ℕ) :
    components parent <+: components (parent ++ slash :: base) := by
  refine List.IsPrefix.map _ ?_
  by_cases hall : ∀ c ∈ parent, c = slash
  · have hnil : parent.dropWhile (· = slash) = [] := by
      simpa using hall
    rw [hnil]
    simp
  · have hdrop : (parent ++ slash :: base).dropWhile (· = slash) =
        parent.dropWhile (· = slash) ++ slash :: base := by
      rw [List.dropWhile_append, if_neg]
      rw [List.isEmpty_iff, List.dropWhile_eq_nil_iff]
      simpa using hall
    rw [hdrop, List.splitOn_append_cons_self, List.takeWhile_append]
    split_ifs with hfull
    · rw [(List.takeWhile_prefix _).eq_of_length hfull]
      exact List.prefix_append ..
    · exact List.prefix_rfl

section

variable {N σ : Type*} {finddir : N → List ℕ → Option (Option N)} {root node : N}

lemma resolveFrom_append {a b : List (List ℕ)}
    (h : resolveFrom finddir root (a ++ b) = some (some node)) :
    ∃ mid, resolveFrom finddir root a = some (some mid) := by
  induction a generalizing root with
  | nil => exact ⟨root, rfl⟩
  | cons name rest ih =>
    rw [List.cons_append, resolveFrom] at h
    rw [resolveFrom]
    rcases hfind : finddir root name with _ | _ | child
    · rw [hfind] at h
      exact nomatch h
    · rw [hfind] at h
      exact nomatch h
    · rw [hfind] at h
      exact ih h

lemma resolveFrom_concat {names : List (List ℕ)} {name : List ℕ} {mid : N}
    (h : resolveFrom finddir root names = some (some mid))
    (hlast : finddir mid name = some (some node)) :
    resolveFrom finddir root (names ++ [name]) = some (some node) := by
  induction names generalizing root with
  | nil =>
    cases h
    rw [List.nil_append, resolveFrom, hlast]
    rfl
  | cons first rest ih =>
    rw [resolveFrom] at h
    rw [List.cons_append, resolveFrom]
    rcases hfind : finddir root first with _ | _ | child
    · rw [hfind] at h
      exact nomatch h
    · rw [hfind] at h
      exact nomatch h
    · rw [hfind] at h
      exact ih h

/-- **The parent of a path that is resolved is resolved.** -/
lemma resolveFrom_parent {path parent : List ℕ}
    (h : resolveFrom finddir root (components path) = some (some node))
    (hp : parentPath path = some parent) :
    ∃ mid, resolveFrom finddir root (components parent) = some (some mid) := by
  obtain ⟨base, rfl | ⟨rfl, -⟩⟩ := eq_of_parentPath hp
  · obtain ⟨rest, hrest⟩ := components_parent parent base
    rw [← hrest] at h
    exact resolveFrom_append h
  · exact ⟨root, rfl⟩

/-- **On a directory `vfs_rmdir` is the call of the file system.** -/
lemma rmdir_eq {isDirectory : N → Bool} {fsRmdir : N → Option (ℤ × σ)} {s : σ} {path : List ℕ}
    (h : resolveFrom finddir root (components path) = some (some node))
    (hdir : isDirectory node = true) (hslash : slash ∈ path) :
    rmdir (fun path => resolveFrom finddir root (components path)) isDirectory fsRmdir true s path =
      fsRmdir node := by
  obtain ⟨parent, hparent⟩ : ∃ parent, parentPath path = some parent := ⟨_, if_pos hslash⟩
  obtain ⟨mid, hmid⟩ := resolveFrom_parent h hparent
  rw [rmdir, h]
  dsimp only
  rw [if_pos hdir, if_pos rfl, hparent]
  dsimp only
  rw [hmid]

end

end FrostByte.Vfs
