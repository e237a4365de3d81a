import Mathlib.Data.List.DropRight

/-!
# Loading the needed objects

`dynlink_load_needed` of `src/kernel/dynlink.c`: the objects that an object needs are searched for
and loaded, and then the objects that they need. At most eight objects are loaded.

## Main definitions

* `Ctx`, `DynObj` — the objects that are loaded, and the memory of the process.
* `dynlinkLoadNeeded` — `dynlink_load_needed`, with its recursion.
* `Adds` — a call adds objects at the end, at most eight in all.

## Main results

* `dynlinkLoadNeeded_adds` — loading ends, also where objects need each other.
-/

namespace FrostByte.Dynlink

/-- The parts of a shared object that name others, as `dyn_read_str` finds them in its string
table. -/
structure Shared where
  soname : List UInt8
  needed : List (List UInt8)
  runpath : List UInt8
  rpath : List UInt8

/-- An object that is loaded, with 63 bytes of its path. -/
structure DynObj extends Shared where
  name : List UInt8

/-- The table of objects, `LD_LIBRARY_PATH`, and the memory that the objects are mapped into. -/
structure Ctx (σ : Type) where
  objs : List DynObj
  ldLibraryPath : List UInt8
  mem : σ

/-- `path_basename`, what is behind the last slash. -/
def pathBasename (p : List UInt8) : List UInt8 := p.rtakeWhile (· ≠ 47)

/-- The base name of the path it was loaded from. -/
def DynObj.base (o : DynObj) : List UInt8 := pathBasename o.name

variable {σ : Type}

/-- `already_loaded`: by its base name or by the name it gives itself. -/
def alreadyLoaded (ctx : Ctx σ) (nm : List UInt8) : Bool :=
  ctx.objs.any fun o => o.base = pathBasename nm || (o.soname ≠ [] && o.soname = nm)

/-- The directories of a list, those that are too long or empty skipped. -/
def dirs (dirlist : List UInt8) : List (List UInt8) :=
  (dirlist.splitOn 58).filter fun d => 0 < d.length && d.length < 100

/-- `dir/name`, in a buffer of 128 bytes. -/
def join (d nm : List UInt8) : List UInt8 :=
  ((if d.getLast? = some 47 then d else d ++ [47]) ++ nm).take 127

/-- The paths where `nm` is searched for: itself if it is a path, or in the directories of
`LD_LIBRARY_PATH`, of the `RUNPATH` and of the `RPATH` of the object, and last in `/lib`. -/
def loadPaths (ldLibraryPath : List UInt8) (root : Shared) (nm : List UInt8) : List (List UInt8) :=
  if 47 ∈ nm then [nm.take 95]
  else ([ldLibraryPath, root.runpath.take 127, root.rpath.take 127].flatMap dirs).map (join · nm) ++
    [join [47, 108, 105, 98, 47] nm]

section

-- `vfs_open`, the mapping of the segments and the parsing, as any function of the memory
variable (mapObject : σ → List UInt8 → Option Shared × σ)

/-- `dynlink_load_shared`, for at most eight objects. -/
def dynlinkLoadShared (path : List UInt8) (ctx : Ctx σ) : Option DynObj × Ctx σ :=
  if 8 ≤ ctx.objs.length then (none, ctx)
  else
    match mapObject ctx.mem path with
    | (none, mem) => (none, { ctx with mem })
    | (some s, mem) =>
        (some ⟨s, path.take 63⟩, { ctx with objs := ctx.objs ++ [⟨s, path.take 63⟩], mem })

/-- The first object that can be loaded from one of the paths, and what it needs by `next`. -/
def loadFirst (next : DynObj → Ctx σ → Option (Ctx σ)) : List (List UInt8) → Ctx σ → Option (Ctx σ)
  | [], ctx => some ctx
  | path :: paths, ctx =>
    match dynlinkLoadShared mapObject path ctx with
    | (some child, ctx) => next child ctx
    | (none, ctx) => loadFirst next paths ctx

/-- One `DT_NEEDED` entry. -/
def loadEntry (next : DynObj → Ctx σ → Option (Ctx σ)) (root : DynObj) (ctx : Ctx σ)
    (needed : List UInt8) : Option (Ctx σ) :=
  let nm := needed.take 63
  if nm = [] ∨ alreadyLoaded ctx nm then some ctx
  else loadFirst mapObject next (loadPaths ctx.ldLibraryPath root.toShared nm) ctx

/-- `dynlink_load_needed`, with calls nested at most `fuel` deep. -/
def dynlinkLoadNeeded : ℕ → DynObj → Ctx σ → Option (Ctx σ)
  | 0, _, _ => none
  | fuel + 1, root, ctx =>
  root.needed.foldlM (loadEntry mapObject (dynlinkLoadNeeded fuel) root) ctx

end

/-- The needed names and the paths of the object are shorter than 64 bytes. -/
def Short (ldLibraryPath : List UInt8) (s : Shared) : Prop :=
  ∀ nm ∈ s.needed, nm.length < 64 ∧ ∀ path ∈ loadPaths ldLibraryPath s nm, path.length < 64

/-- Objects were added, each with a base name of its own, and no more than fit. -/
structure Adds (ctx ctx' : Ctx σ) : Prop where
  path : ctx'.ldLibraryPath = ctx.ldLibraryPath
  count : ctx.objs.length ≤ 8 → ctx'.objs.length ≤ 8
  objs : ∃ new, ctx'.objs = ctx.objs ++ new ∧ (new.map DynObj.base).Nodup ∧
    ∀ o ∈ new, o.base ∉ ctx.objs.map DynObj.base

namespace Adds

lemma refl (ctx : Ctx σ) : Adds ctx ctx := ⟨rfl, id, [], by simp⟩

lemma trans {a b c : Ctx σ} (h : Adds a b) (h' : Adds b c) : Adds a c := by
  obtain ⟨x, hx, hxn, hxa⟩ := h.objs
  obtain ⟨y, hy, hyn, hyb⟩ := h'.objs
  refine ⟨h'.path.trans h.path, fun hle => h'.count (h.count hle), x ++ y, by simp [hy, hx], ?_, ?_⟩
  · grind
  · grind

lemma le {a b : Ctx σ} (h : Adds a b) : a.objs.length ≤ b.objs.length := by
  obtain ⟨x, hx, -⟩ := h.objs
  simp [hx]

end Adds

/-! ## Base names -/

lemma pathBasename_append {d nm : List UInt8} (h : 47 ∉ nm) :
    pathBasename ((d ++ [47]) ++ nm) = nm := by
  simp only [pathBasename, List.rtakeWhile, List.reverse_append]
  rw [List.takeWhile_append_of_pos]
  · simp
  · grind

lemma base_join {d nm : List UInt8} (h : 47 ∉ nm) (hlen : (join d nm).length < 64) :
    pathBasename (join d nm) = nm := by
  unfold join at *
  rw [List.take_of_length_le (by simp at hlen ⊢; omega)]
  split_ifs with hd
  · rw [← List.dropLast_append_getLast? _ hd]
    exact pathBasename_append h
  · exact pathBasename_append h

lemma base_loadPaths {ld nm path : List UInt8} {s : Shared} (hnm : nm.length < 64)
    (hmem : path ∈ loadPaths ld s nm) (hlen : path.length < 64) :
    pathBasename path = pathBasename nm := by
  unfold loadPaths at hmem
  split_ifs at hmem with hslash
  · rw [List.mem_singleton.mp hmem, List.take_of_length_le (by omega)]
  · have hself : pathBasename nm = nm := List.rtakeWhile_eq_self_iff.mpr (by grind)
    rw [hself]
    rcases List.mem_append.mp hmem with hmem | hmem
    · obtain ⟨d, -, rfl⟩ := List.mem_map.mp hmem
      exact base_join hslash hlen
    · rw [List.mem_singleton.mp hmem] at hlen ⊢
      exact base_join hslash hlen

/-! ## Loading -/

variable {mapObject : σ → List UInt8 → Option Shared × σ} {ld : List UInt8}

lemma adds_loadFirst {next : DynObj → Ctx σ → Option (Ctx σ)} {k : ℕ} {b : List UInt8}
    (hopen : ∀ m p s m', mapObject m p = (some s, m') → Short ld s)
    (hnext : ∀ o ctx, Short ld o.toShared → ctx.ldLibraryPath = ld → k < ctx.objs.length →
      ctx.objs.length ≤ 8 → ∃ ctx', next o ctx = some ctx' ∧
      Adds ctx ctx') (paths : List (List UInt8)) (ctx : Ctx σ)
    (hld : ctx.ldLibraryPath = ld) (hk : k ≤ ctx.objs.length)
    (hpaths : ∀ p ∈ paths, p.length < 64 ∧ pathBasename p = b) (hb : b ∉ ctx.objs.map DynObj.base) :
    ∃ ctx', loadFirst mapObject next paths ctx = some ctx' ∧ Adds ctx ctx' := by
  induction paths generalizing ctx with
  | nil => exact ⟨ctx, rfl, Adds.refl ctx⟩
  | cons p paths ih =>
    obtain ⟨hlen, hbase⟩ := hpaths p (.head _)
    rw [loadFirst, dynlinkLoadShared]
    split_ifs with hfull
    · exact ih ctx hld hk (fun q hq => hpaths q (.tail _ hq)) hb
    cases hload : mapObject ctx.mem p with
    | mk found mem =>
      cases found with
      | none =>
        obtain ⟨ctx', h, hadds⟩ := ih { ctx with mem } hld hk (fun q hq => hpaths q (.tail _ hq)) hb
        exact ⟨ctx', h, hadds.path, hadds.count, hadds.objs⟩
      | some s =>
        have hbase' : DynObj.base ⟨s, p.take 63⟩ = b := by
          rw [DynObj.base, List.take_of_length_le (by omega), hbase]
        have hadd : Adds ctx { ctx with objs := ctx.objs ++ [⟨s, p.take 63⟩], mem } :=
          ⟨rfl, fun _ => by simp; omega, _, rfl, by simp, by simpa [hbase'] using hb⟩
        obtain ⟨ctx', h, hadds⟩ :=
          hnext ⟨s, p.take 63⟩ { ctx with objs := ctx.objs ++ [⟨s, p.take 63⟩], mem }
          (hopen _ _ _ _ hload) hld (by simp; omega)
          (by simp; omega)
        exact ⟨ctx', h, hadd.trans hadds⟩

lemma adds_foldlM {f : Ctx σ → List UInt8 → Option (Ctx σ)} {k : ℕ} (l : List (List UInt8))
    (hf : ∀ nm ∈ l, ∀ ctx, ctx.ldLibraryPath = ld → k ≤ ctx.objs.length →
      ∃ ctx', f ctx nm = some ctx' ∧ Adds ctx ctx') (ctx : Ctx σ) (hld : ctx.ldLibraryPath = ld)
    (hk : k ≤ ctx.objs.length) : ∃ ctx', l.foldlM f ctx = some ctx' ∧ Adds ctx ctx' := by
  induction l generalizing ctx with
  | nil => exact ⟨ctx, rfl, Adds.refl ctx⟩
  | cons nm l ih =>
    obtain ⟨ctx₁, h₁, hadds₁⟩ := hf nm (.head _) ctx hld hk
    obtain ⟨ctx', h', hadds'⟩ := ih (fun nm h => hf nm (.tail _ h)) ctx₁ (hadds₁.path.trans hld)
      (hk.trans hadds₁.le)
    exact ⟨ctx', by simp [List.foldlM_cons, h₁, h'], hadds₁.trans hadds'⟩

/-- **Loading what an object needs** ends, since each nested call is for an object that was
added. -/
theorem dynlinkLoadNeeded_adds (hopen : ∀ m p s m', mapObject m p = (some s, m') → Short ld s)
    (root : DynObj) (ctx : Ctx σ) (hroot : Short ld root.toShared) (hld : ctx.ldLibraryPath = ld)
    (fuel : ℕ) (hfuel : 8 - ctx.objs.length < fuel) :
    ∃ ctx', dynlinkLoadNeeded mapObject fuel root ctx = some ctx' ∧ Adds ctx ctx' := by
  induction fuel generalizing root ctx with
  | zero => omega
  | succ fuel ih =>
    refine adds_foldlM root.needed (fun nm hnm ctx₁ hld₁ hk => ?_) ctx hld le_rfl
    obtain ⟨hlen, hpaths⟩ := hroot nm hnm
    unfold loadEntry
    rw [List.take_of_length_le (by omega)]
    dsimp only
    split_ifs with hskip
    · exact ⟨ctx₁, rfl, Adds.refl ctx₁⟩
    · rw [hld₁]
      refine adds_loadFirst hopen (fun o ctx₂ ho hld₂ hk₂ h8 => ih o ctx₂ ho hld₂ (by omega)) _ ctx₁
        hld₁ hk
        (fun p hp => ⟨hpaths p hp, base_loadPaths hlen hp (hpaths p hp)⟩) ?_
      simp only [alreadyLoaded, not_or, List.any_eq_true] at hskip
      grind

/-- Every file is an object that needs `a`, which so depends on itself. -/
theorem dynlinkLoadNeeded_adds_cycle : ∃ ctx', dynlinkLoadNeeded
      (fun _ _ => (some ⟨[], [[97]], [], []⟩, ())) 8 ⟨⟨[], [[97]], [], []⟩, [109]⟩
      ⟨[⟨⟨[], [[97]], [], []⟩, [109]⟩], [], ()⟩ = some ctx' ∧
    Adds ⟨[⟨⟨[], [[97]], [], []⟩, [109]⟩], [], ()⟩ ctx' := by
  have hshort : Short [] ⟨[], [[97]], [], []⟩ := by
    unfold Short
    decide
  refine dynlinkLoadNeeded_adds (fun m p s m' h => ?_) _ _ hshort rfl 8 (by decide)
  cases h
  exact hshort

end FrostByte.Dynlink
