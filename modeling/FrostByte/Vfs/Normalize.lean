import FrostByte.Vfs.Path
import Mathlib.Data.List.Induction

/-!
# Normal forms of paths

`vfs_normalize_path` keeps the components of the result in a table of 32 entries of 64 bytes. A
component that finds the table full is dropped, and a long one is cut.

## Main definitions

* `normalizePath` — `vfs_normalize_path`.
* `foldSegs` — the same without bounds, on components.
* `Normalizes` — the two agree.

## Main results

* `normalizePath_eq` — the code is a fold with a bounded table.
* `normalizes_iff` — when the bounds do not matter.
* `normalizePath_deep` — a component that is dropped.
-/

namespace FrostByte.Vfs

/-- The character `.`. -/
def dot : ℕ := '.'.toNat

/-! ## The model -/

/-- The components of a path, in the order of the loop. -/
def segments (path : List ℕ) : List (List ℕ) := (path.splitOn slash).filter (· ≠ [])

/-- `vfs_push_seg`, of which the result is not looked at. -/
def pushSeg (segs : List (List ℕ)) (s : List ℕ) : List (List ℕ) :=
  if 32 ≤ segs.length then segs else segs ++ [s.take 63]

/-- One round of the loop of `vfs_parse_into`. -/
def parseStep (segs : List (List ℕ)) (s : List ℕ) : List (List ℕ) :=
  if s = [dot] then segs else if s = [dot, dot] then segs.dropLast else pushSeg segs s

/-- `vfs_parse_into`: the components of a path go onto the table. -/
def parseInto (segs : List (List ℕ)) (path : List ℕ) : List (List ℕ) :=
  (segments path).foldl parseStep segs

/-- The loop that writes the components; `none` without room. -/
def writeSegs (outsz : ℕ) : List ℕ → List (List ℕ) → Option (List ℕ)
  | out, [] => some out
  | out, s :: rest =>
    if outsz ≤ out.length + s.length then none
    else if rest = [] then some (out ++ s)
    else if outsz ≤ out.length + s.length + 1 then none
    else writeSegs outsz (out ++ s ++ [slash]) rest

/-- `vfs_normalize_path`: the text, or `none` for -1. A null base is the empty one. -/
def normalizePath (base path : List ℕ) (outsz : ℕ) : Option (List ℕ) :=
  let start :=
    if path.head? = some slash then []
    else
      let b := if base = [] then [slash] else base
      if b.head? = some slash then parseInto [] b else []
  let segs := parseInto start path
  if outsz = 0 then none
  else if segs = [] then (if 1 < outsz then some [slash] else none)
  else
    (writeSegs outsz [slash] segs).bind fun out => if outsz ≤ out.length then none else some out

/-! ## The fold over components -/

/-- Empty components and dots are dropped, two dots go up, never above the root. -/
def foldStep (segs : List (List ℕ)) (s : List ℕ) : List (List ℕ) :=
  if s = [] ∨ s = [dot] then segs else if s = [dot, dot] then segs.dropLast else segs ++ [s]

/-- The components of a path in normal form. -/
def foldSegs (cs : List (List ℕ)) : List (List ℕ) := cs.foldl foldStep []

/-- The text of some components. -/
def pathOf (segs : List (List ℕ)) : List ℕ :=
  if segs = [] then [slash] else segs.flatMap (slash :: ·)

/-- The components of the base, for a relative path, and of the path. -/
def allSegments (base path : List ℕ) : List (List ℕ) :=
  (if path.head? = some slash then [] else base.splitOn slash) ++ path.splitOn slash

/-- What is written is the text of the fold. -/
def Normalizes (base path : List ℕ) (outsz : ℕ) : Prop :=
  ∀ out, normalizePath base path outsz = some out → out = pathOf (foldSegs (allSegments base path))

/-- The components that are looked at, without a relative base. -/
def usedSegments (base path : List ℕ) : List (List ℕ) :=
  (if path.head? ≠ some slash ∧ base.head? = some slash then segments base else []) ++ segments path

/-- Since it was last at the root, the fold has been more than 32 deep. -/
def Overflows (cs : List (List ℕ)) : Prop :=
  ∃ p, p <+: cs ∧ 32 < (foldSegs p).length ∧ ∀ q, p <+: q → q <+: cs → foldSegs q ≠ []

/-! ## The table against the fold -/

section

variable {cs : List (List ℕ)} {s : List ℕ}

lemma foldSegs_concat : foldSegs (cs ++ [s]) = foldStep (foldSegs cs) s := by
  simp [foldSegs]

lemma foldl_foldStep_filter (segs : List (List ℕ)) :
    (cs.filter (· ≠ [])).foldl foldStep segs = cs.foldl foldStep segs := by
  induction cs generalizing segs with
  | nil => rfl
  | cons c cs ih =>
    by_cases hc : c = []
    · subst hc
      simpa [foldStep] using ih segs
    · rw [List.filter_cons_of_pos (by simpa using hc), List.foldl_cons, List.foldl_cons, ih]

lemma Overflows.of_lt (h : 32 < (foldSegs cs).length) : Overflows cs := by
  refine ⟨cs, List.prefix_rfl, h, fun q hcq hqc hnil => ?_⟩
  obtain rfl := hqc.eq_of_length_le hcq.length_le
  rw [hnil] at h
  cases h

lemma overflows_concat : Overflows (cs ++ [s]) ↔
    Overflows cs ∧ foldSegs (cs ++ [s]) ≠ [] ∨ 32 < (foldSegs (cs ++ [s])).length := by
  constructor
  · rintro ⟨p, hp, hlt, hall⟩
    rcases List.prefix_concat_iff.1 hp with rfl | hp
    · exact .inr hlt
    · refine .inl ⟨⟨p, hp, hlt, fun q hpq hq => hall q hpq (hq.trans (List.prefix_append ..))⟩, ?_⟩
      exact hall _ (hp.trans (List.prefix_append ..)) List.prefix_rfl
  · rintro (⟨⟨p, hp, hlt, hall⟩, hne⟩ | hlt)
    · refine ⟨p, hp.trans (List.prefix_append ..), hlt, fun q hpq hq => ?_⟩
      rcases List.prefix_concat_iff.1 hq with rfl | hq
      · exact hne
      · exact hall q hpq hq
    · exact .of_lt hlt

lemma parseStep_map {segs : List (List ℕ)} (hs : s ≠ []) (hlen : (foldStep segs s).length ≤ 32) :
    parseStep (segs.map (·.take 63)) s = (foldStep segs s).map (·.take 63) := by
  unfold parseStep foldStep pushSeg at *
  by_cases h1 : s = [dot]
  · simp [h1]
  by_cases h2 : s = [dot, dot]
  · simp [h2]
  · simp only [hs, h1, h2, if_false, or_self, List.length_append, List.length_singleton,
      List.length_map, List.map_append, List.map_cons, List.map_nil] at hlen ⊢
    rw [if_neg (by omega)]

lemma parseStep_length {segs segs' : List (List ℕ)} (hs : s ≠ [])
    (hlt : segs'.length < segs.length) :
    foldStep segs s = [] ∧ parseStep segs' s = [] ∨
      foldStep segs s ≠ [] ∧ (parseStep segs' s).length < (foldStep segs s).length := by
  have hpos : segs ≠ [] := List.ne_nil_of_length_pos (by omega)
  unfold parseStep foldStep
  by_cases h1 : s = [dot]
  · simp [h1, hlt, hpos]
  by_cases h2 : s = [dot, dot]
  · rw [if_neg h1, if_pos h2, if_neg (by simp [hs, h1]), if_pos h2]
    rcases Nat.lt_or_ge 1 segs.length with hmore | hone
    · refine .inr ⟨List.ne_nil_of_length_pos ?_, ?_⟩
      · rw [List.length_dropLast]
        omega
      · rw [List.length_dropLast, List.length_dropLast]
        omega
    · refine .inl ⟨List.eq_nil_of_length_eq_zero ?_, List.eq_nil_of_length_eq_zero ?_⟩
      · rw [List.length_dropLast]
        omega
      · rw [List.length_dropLast]
        omega
  · rw [if_neg h2, if_neg (by simp [hs, h1]), if_neg h2]
    refine .inr ⟨by simp, ?_⟩
    unfold pushSeg
    split_ifs
    · rw [List.length_append]
      omega
    · rw [List.length_append, List.length_append, List.length_singleton, List.length_singleton]
      omega

lemma length_parseStep_le {segs : List (List ℕ)} (h : segs.length ≤ 32) :
    (parseStep segs s).length ≤ 32 := by
  unfold parseStep pushSeg
  split_ifs
  · exact h
  · rw [List.length_dropLast]
    omega
  · exact h
  · rw [List.length_append, List.length_singleton]
    omega

/-- **The table against the fold**: they agree up to lengths, or the fold was too deep and the table
has fewer components. -/
lemma boundedSegs_cases (hne : ∀ s ∈ cs, s ≠ []) :
    ¬ Overflows cs ∧ cs.foldl parseStep [] = (foldSegs cs).map (·.take 63) ∨
      Overflows cs ∧ (cs.foldl parseStep []).length < (foldSegs cs).length := by
  induction cs using List.reverseRecOn with
  | nil =>
    refine .inl ⟨fun ⟨p, hp, hlt, _⟩ => ?_, rfl⟩
    rw [List.prefix_nil.1 hp] at hlt
    cases hlt
  | append_singleton cs s ih =>
    have hs : s ≠ [] := hne s (by simp)
    rw [overflows_concat, foldSegs_concat, List.foldl_append, List.foldl_cons]
    rcases ih fun c hc => hne c (by simp [hc]) with ⟨hno, heq⟩ | ⟨hover, hlt⟩
    · have hlen : (foldSegs cs).length ≤ 32 := Nat.le_of_not_lt fun h => hno (.of_lt h)
      rw [heq]
      rcases Nat.lt_or_ge 32 (foldStep (foldSegs cs) s).length with hdeep | hle
      · refine .inr ⟨.inr hdeep, lt_of_le_of_lt (length_parseStep_le ?_) hdeep⟩
        rwa [List.length_map]
      · refine .inl ⟨?_, parseStep_map hs hle⟩
        rintro (⟨hover, -⟩ | hdeep)
        · exact hno hover
        · omega
    · rcases parseStep_length hs hlt with ⟨hroot, htable⟩ | ⟨hne, hlt'⟩
      · rw [hroot, htable]
        refine .inl ⟨?_, rfl⟩
        rintro (⟨-, hne⟩ | hdeep)
        · exact hne rfl
        · cases hdeep
      · exact .inr ⟨.inl ⟨hover, hne⟩, hlt'⟩

lemma boundedSegs_eq_iff (hne : ∀ s ∈ cs, s ≠ []) : cs.foldl parseStep [] = foldSegs cs ↔
    ¬ Overflows cs ∧ ∀ s ∈ foldSegs cs, s.length < 64 := by
  rcases boundedSegs_cases hne with ⟨hno, heq⟩ | ⟨hover, hlt⟩
  · rw [heq, and_iff_right hno]
    constructor
    · intro hmap s hs
      have htake : s.take 63 = s := (List.map_eq_map_iff (g := id)).1 (by rwa [List.map_id]) s hs
      have := congrArg List.length htake
      rw [List.length_take] at this
      omega
    · intro hshort
      refine (List.map_congr_left fun s hs => ?_).trans (List.map_id _)
      exact List.take_of_length_le (Nat.le_of_lt_succ (hshort s hs))
  · refine iff_of_false (fun heq => ?_) fun h => h.1 hover
    rw [heq] at hlt
    exact lt_irrefl _ hlt

lemma length_boundedSegs_le (hne : ∀ s ∈ cs, s ≠ []) :
    (cs.foldl parseStep []).length ≤ (foldSegs cs).length := by
  rcases boundedSegs_cases hne with ⟨-, heq⟩ | ⟨-, hlt⟩
  · simp [heq]
  · exact hlt.le

lemma foldl_foldStep_eq (cs segs : List (List ℕ)) :
    ∃ k, cs.foldl foldStep segs = segs.take k ++ foldSegs cs := by
  induction cs using List.reverseRecOn with
  | nil => exact ⟨segs.length, by simp [foldSegs]⟩
  | append_singleton cs s ih =>
    obtain ⟨k, hk⟩ := ih
    rw [List.foldl_append, List.foldl_cons, List.foldl_nil, foldSegs_concat, hk]
    unfold foldStep
    split_ifs
    · exact ⟨k, rfl⟩
    · rcases eq_or_ne (foldSegs cs) [] with hnil | hne
      · refine ⟨min k segs.length - 1, ?_⟩
        rw [hnil, List.append_nil, List.dropLast_nil, List.append_nil, List.dropLast_eq_take,
          List.length_take, List.take_take]
        congr 1
        omega
      · exact ⟨k, List.dropLast_append_of_ne_nil hne⟩
    · exact ⟨k, List.append_assoc ..⟩

end

/-! ## The text -/

/-- Components are not empty and have no slash. -/
def Proper (segs : List (List ℕ)) : Prop := ∀ s ∈ segs, s ≠ [] ∧ slash ∉ s

instance (segs : List (List ℕ)) : Decidable (Proper segs) :=
  inferInstanceAs (Decidable (∀ s ∈ segs, _))

lemma notMem_of_mem_splitOn {path s : List ℕ} (h : s ∈ path.splitOn slash) : slash ∉ s := by
  by_cases hmem : slash ∈ path
  · obtain ⟨a, b, rfl, ha⟩ := List.eq_append_cons_of_mem hmem
    rw [List.splitOn_append_cons_self, List.splitOn_eq_singleton ha] at h
    rcases List.mem_append.1 h with hs | hs
    · rwa [List.mem_singleton.1 hs]
    · exact notMem_of_mem_splitOn hs
  · rw [List.splitOn_eq_singleton hmem] at h
    rwa [List.mem_singleton.1 h]
termination_by path.length

section

variable {segs : List (List ℕ)}

lemma proper_segments (path : List ℕ) : Proper (segments path) := by
  intro s hs
  rw [segments, List.mem_filter] at hs
  exact ⟨by simpa using hs.2, notMem_of_mem_splitOn hs.1⟩

lemma splitOn_flatMap (h : Proper segs) :
    (segs.flatMap (slash :: ·)).splitOn slash = [] :: segs := by
  induction segs with
  | nil => rfl
  | cons s segs ih =>
    have hs := List.splitOn_eq_singleton (h s (.head _)).2
    have htail := ih fun t ht => h t (.tail _ ht)
    have hcons : ∀ rest : List ℕ, (slash :: rest).splitOn slash = [] :: rest.splitOn slash :=
      fun rest => List.splitOn_append_cons_self [] rest
    rw [List.flatMap_cons, List.cons_append, hcons]
    cases segs with
    | nil => rw [List.flatMap_nil, List.append_nil, hs]
    | cons t segs =>
      rw [List.flatMap_cons, List.cons_append] at htail ⊢
      rw [hcons] at htail
      rw [List.splitOn_append_cons_self, hs, List.singleton_append, List.tail_eq_of_cons_eq htail]

lemma segments_pathOf (h : Proper segs) : segments (pathOf segs) = segs := by
  unfold pathOf segments
  split_ifs with hnil
  · rw [hnil]
    rfl
  · simpa [splitOn_flatMap h] using fun s hs => by simpa using (h s hs).1

lemma writeSegs_cons (outsz : ℕ) (out s : List ℕ) (rest : List (List ℕ)) :
    writeSegs outsz out (s :: rest) =
      if (out ++ s ++ rest.flatMap (slash :: ·)).length < outsz then
        some (out ++ s ++ rest.flatMap (slash :: ·)) else none := by
  induction rest generalizing out s with
  | nil =>
    rw [writeSegs, if_pos rfl, List.flatMap_nil, List.append_nil, List.length_append]
    split_ifs <;> first | rfl | omega
  | cons t rest ih =>
    have htext : out ++ s ++ [slash] ++ t ++ rest.flatMap (slash :: ·) =
        out ++ s ++ (t :: rest).flatMap (slash :: ·) := by simp
    have hlen : (out ++ s ++ (t :: rest).flatMap (slash :: ·)).length =
        out.length + s.length + 1 + t.length + (rest.flatMap (slash :: ·)).length := by
      rw [← htext]
      simp only [List.length_append, List.length_singleton]
    rw [writeSegs, if_neg (List.cons_ne_nil t rest), ih, htext]
    split_ifs <;> first | rfl | omega

/-- **What `vfs_normalize_path` writes**: the table, if there is room. -/
lemma normalizePath_eq (base path : List ℕ) (outsz : ℕ) : normalizePath base path outsz =
      if (pathOf ((usedSegments base path).foldl parseStep [])).length < outsz then
        some (pathOf ((usedSegments base path).foldl parseStep [])) else none := by
  have hstart : (if path.head? = some slash then []
      else if (if base = [] then [slash] else base).head? = some slash then
        parseInto [] (if base = [] then [slash] else base) else []) =
      (if path.head? ≠ some slash ∧ base.head? = some slash then segments base else []).foldl
        parseStep [] := by
    rcases eq_or_ne base [] with rfl | hbase
    · have hnone : segments [slash] = [] := by decide
      simp [parseInto, hnone]
    · rw [if_neg hbase]
      by_cases hpath : path.head? = some slash
      · rw [if_pos hpath, if_neg fun h => h.1 hpath]
        rfl
      · rw [if_neg hpath]
        by_cases habs : base.head? = some slash
        · rw [if_pos habs, if_pos ⟨hpath, habs⟩]
          rfl
        · rw [if_neg habs, if_neg fun h => habs h.2]
          rfl
  unfold normalizePath
  dsimp only
  rw [hstart, parseInto, ← List.foldl_append]
  show (if outsz = 0 then none else if (usedSegments base path).foldl parseStep [] = [] then _
    else (writeSegs outsz [slash] ((usedSegments base path).foldl parseStep [])).bind _) = _
  rcases (usedSegments base path).foldl parseStep [] with _ | ⟨s, rest⟩
  · have htext : pathOf [] = [slash] := rfl
    rw [if_pos rfl, htext, List.length_singleton]
    split_ifs <;> first | rfl | omega
  · have htext : pathOf (s :: rest) = [slash] ++ s ++ rest.flatMap (slash :: ·) := by simp [pathOf]
    rw [if_neg (List.cons_ne_nil s rest), writeSegs_cons, ← htext]
    by_cases hroom : (pathOf (s :: rest)).length < outsz
    · rw [if_neg (by omega), if_pos hroom]
      exact if_neg (Nat.not_le.2 hroom)
    · split_ifs <;> rfl

lemma mem_boundedSegs {cs : List (List ℕ)} {s : List ℕ} (h : s ∈ cs.foldl parseStep []) :
    ∃ c ∈ cs, s = c.take 63 := by
  induction cs using List.reverseRecOn with
  | nil => exact nomatch h
  | append_singleton cs c ih =>
    rw [List.foldl_append, List.foldl_cons] at h
    have hold : s ∈ cs.foldl parseStep [] → ∃ c' ∈ cs ++ [c], s = c'.take 63 := by
      intro hs
      obtain ⟨c', hc', rfl⟩ := ih hs
      exact ⟨c', List.mem_append_left _ hc', rfl⟩
    unfold parseStep pushSeg at h
    split_ifs at h
    · exact hold h
    · exact hold ((List.dropLast_subset _) h)
    · exact hold h
    · rcases List.mem_append.1 h with hs | hs
      · exact hold hs
      · exact ⟨c, by simp, List.mem_singleton.1 hs⟩

lemma mem_foldSegs {cs : List (List ℕ)} {s : List ℕ} (h : s ∈ foldSegs cs) : s ∈ cs ∧ s ≠ [] := by
  induction cs using List.reverseRecOn with
  | nil => exact nomatch h
  | append_singleton cs c ih =>
    have hold : s ∈ foldSegs cs → s ∈ cs ++ [c] ∧ s ≠ [] :=
      fun hs => ⟨List.mem_append_left _ (ih hs).1, (ih hs).2⟩
    rw [foldSegs_concat] at h
    unfold foldStep at h
    split_ifs at h with h1 h2
    · exact hold h
    · exact hold ((List.dropLast_subset _) h)
    · rcases List.mem_append.1 h with hs | hs
      · exact hold hs
      · obtain rfl := List.mem_singleton.1 hs
        exact ⟨by simp, fun hnil => h1 (.inl hnil)⟩

lemma proper_usedSegments (base path : List ℕ) : Proper (usedSegments base path) := by
  intro s hs
  rcases List.mem_append.1 hs with hs | hs
  · split_ifs at hs
    · exact proper_segments base s hs
    · exact nomatch hs
  · exact proper_segments path s hs

lemma proper_boundedSegs {cs : List (List ℕ)} (h : Proper cs) : Proper (cs.foldl parseStep []) := by
  intro s hs
  obtain ⟨c, hc, rfl⟩ := mem_boundedSegs hs
  obtain ⟨hne, hslash⟩ := h c hc
  refine ⟨?_, fun hmem => hslash (List.mem_of_mem_take hmem)⟩
  rw [Ne, List.take_eq_nil_iff]
  rintro (h0 | h0)
  · cases h0
  · exact hne h0

lemma proper_foldSegs_allSegments (base path : List ℕ) :
    Proper (foldSegs (allSegments base path)) := by
  intro s hs
  obtain ⟨hmem, hne⟩ := mem_foldSegs hs
  refine ⟨hne, ?_⟩
  rcases List.mem_append.1 hmem with hs | hs
  · split_ifs at hs
    · exact nomatch hs
    · exact notMem_of_mem_splitOn hs
  · exact notMem_of_mem_splitOn hs

lemma forall_normalizes_iff (base path : List ℕ) : (∀ outsz, Normalizes base path outsz) ↔
    (usedSegments base path).foldl parseStep [] = foldSegs (allSegments base path) := by
  constructor
  · intro h
    have htext := h ((pathOf ((usedSegments base path).foldl parseStep [])).length + 1) _
      ((normalizePath_eq ..).trans (if_pos (Nat.lt_succ_self _)))
    have hsegs := congrArg segments htext
    rwa [segments_pathOf (proper_boundedSegs (proper_usedSegments base path)),
      segments_pathOf (proper_foldSegs_allSegments base path)] at hsegs
  · intro h outsz out hout
    rw [normalizePath_eq, h] at hout
    split_ifs at hout
    exact (Option.some.inj hout).symm

lemma foldSegs_allSegments (base path : List ℕ) : ∃ (segs : List (List ℕ)) (k : ℕ),
    foldSegs (allSegments base path) = segs.take k ++ foldSegs (usedSegments base path) := by
  have hpath : foldSegs (segments path) = foldSegs (path.splitOn slash) := foldl_foldStep_filter []
  unfold allSegments usedSegments
  by_cases habs : path.head? = some slash
  · rw [if_pos habs, if_neg fun h => h.1 habs, List.nil_append, List.nil_append, hpath]
    exact ⟨[], 0, rfl⟩
  rw [if_neg habs]
  by_cases hbase : base.head? = some slash
  · rw [if_pos ⟨habs, hbase⟩]
    refine ⟨[], 0, ?_⟩
    unfold foldSegs segments
    rw [← List.filter_append, foldl_foldStep_filter, List.take_nil, List.nil_append]
  · rw [if_neg fun h => hbase h.2, List.nil_append, hpath, foldSegs, List.foldl_append]
    obtain ⟨k, hk⟩ :=
      foldl_foldStep_eq (path.splitOn slash) ((base.splitOn slash).foldl foldStep [])
    exact ⟨_, k, hk⟩

/-- **When `vfs_normalize_path` is the fold**: it has not been deeper than 32, and components that
it keeps have at most 63 characters. -/
theorem normalizes_iff (base path : List ℕ) : (∀ outsz, Normalizes base path outsz) ↔
    foldSegs (allSegments base path) = foldSegs (usedSegments base path) ∧
      ¬ Overflows (usedSegments base path) ∧ ∀ s ∈ foldSegs (usedSegments base path),
      s.length < 64 := by
  have hne : ∀ s ∈ usedSegments base path, s ≠ [] :=
    fun s hs => (proper_usedSegments base path s hs).1
  rw [forall_normalizes_iff, ← boundedSegs_eq_iff hne]
  constructor
  · intro h
    obtain ⟨segs, k, hk⟩ := foldSegs_allSegments base path
    have hle := length_boundedSegs_le hne
    have hlen := congrArg List.length hk
    rw [← h, List.length_append] at hlen
    have hnil : segs.take k = [] := List.eq_nil_of_length_eq_zero (by omega)
    rw [hnil] at hk
    exact ⟨hk, h.trans hk⟩
  · rintro ⟨hall, hused⟩
    rw [hused, hall]

end

/-- **The thirty-third component is dropped.** -/
theorem normalizePath_deep :
    normalizePath [] (pathOf (List.replicate 33 [97])) 1024 =
    some (pathOf (List.replicate 32 [97])) ∧
      ¬ Normalizes [] (pathOf (List.replicate 33 [97])) 1024 := by
  have hcall : normalizePath [] (pathOf (List.replicate 33 [97])) 1024 =
      some (pathOf (List.replicate 32 [97])) := by decide +kernel
  refine ⟨hcall, fun h => absurd (h _ hcall) ?_⟩
  decide +kernel

end FrostByte.Vfs
