import FrostByte.Lib.Run
import FrostByte.Lib.Word

/-!
# The partition manager

`partmk` keeps a table of four partitions. A new partition starts at the first sector from 2048 on
that is in no partition; nothing looks at the partitions behind its start.

## Main definitions

* `createPartition`, `deletePartition` — the commands that change the table.
* `Good` — partitions are apart and inside the disk.
* `fitting` — runs in which a new partition fits into its hole.

## Main results

* `Good.findFreeStart_eq` — the search finds the first free sector.
* `good_of_reach` — the table stays good in these runs.
* `create_overlaps` — a partition that does not fit.
-/

namespace FrostByte.Partmk

open Word

/-! ## The model -/

/-- An entry of the table. -/
structure Partition where
  bootable : Bool
  type : ℕ
  startLba : ℕ
  sectors : ℕ
  deriving DecidableEq

/-- The types that the program offers. -/
def partitionTypes : List ℕ := [0x00, 0x06, 0x0E, 0x0C, 0x83, 0x82, 0x05, 0x07]

/-- One round of the inner loop: `start` and `changed`. -/
def passStep (s : ℕ × Bool) (p : Partition) : ℕ × Bool :=
  let pEnd := w32 (p.startLba + p.sectors)
  if p.type ≠ 0 ∧ p.startLba ≤ s.1 ∧ s.1 < pEnd then (pEnd, true) else s

/-- The outer loop of `find_free_start`. -/
def findFreeStart (parts : List Partition) : ℕ → ℕ → Option ℕ
  | 0, _ => none
  | fuel + 1, start =>
    let pass := parts.foldl passStep (start, false)
    if pass.2 then findFreeStart parts fuel pass.1 else some pass.1

/-- The type that belongs to a number, if it is one that can be chosen. -/
def chosenType (typeIdx : ℤ) : Option ℕ :=
  if 0 ≤ typeIdx then partitionTypes[typeIdx.toNat]?.filter (· ≠ 0) else none

/-- `create_partition`; `none` if the search does not end. -/
def createPartition (total : ℕ) (parts : List Partition) (typeIdx size : Option ℤ) :
    Option (List Partition) :=
  match parts.findIdx? (·.type = 0), typeIdx.bind chosenType with
  | some slot, some type =>
    (findFreeStart parts (parts.length + 1) 2048).map fun start =>
      if total ≤ start then parts
      else
        let maxSize := total - start
        match size with
        | none => parts
        | some size =>
          let sizeMb := (size % 2 ^ 32).toNat
          if sizeMb = 0 then parts
          else
            let sectors := w32 (sizeMb * 1024 * 1024) / 512
            parts.set slot ⟨false, type, start, min sectors maxSize⟩
  | _, _ => some parts

/-- `delete_partition`. -/
def deletePartition (parts : List Partition) (num : ℤ) (confirmed : Bool) : List Partition :=
  if num < 1 ∨ 4 < num then parts
  else
    let idx := (num - 1).toNat
    if parts[idx]?.all (·.type = 0) then parts
    else if confirmed then parts.set idx ⟨false, 0, 0, 0⟩
    else parts

/-! ## Good tables -/

/-- The sector is in the partition. -/
def Partition.Has (p : Partition) (x : ℕ) : Prop :=
  p.type ≠ 0 ∧ p.startLba ≤ x ∧ x < p.startLba + p.sectors

/-- Partitions are disjoint and in the range for partitions. -/
structure Good (total : ℕ) (parts : List Partition) : Prop where
  apart : ∀ (i j : ℕ) (p q : Partition), i ≠ j → parts[i]? = some p → parts[j]? = some q →
    ∀ x, p.Has x → ¬ q.Has x
  inside : ∀ p ∈ parts, p.type ≠ 0 → 2048 ≤ p.startLba ∧ p.startLba + p.sectors ≤ total

/-- The first sector from 2048 on that is in no partition. -/
structure FirstFree (parts : List Partition) (s : ℕ) : Prop where
  le : 2048 ≤ s
  free : ∀ p ∈ parts, ¬ p.Has s
  least : ∀ x, 2048 ≤ x → x < s → ∃ p ∈ parts, p.Has x

/-- The sectors of a size in MiB, cut to 32 bits. -/
def requested (size : ℤ) : ℕ := w32 ((size % 2 ^ 32).toNat * 1024 * 1024) / 512

/-- A partition of the size asked for, at the first free sector, ends before the next one. -/
def FitsHole (parts : List Partition) (size : ℤ) : Prop :=
  ∀ s, FirstFree parts s → ∀ p ∈ parts, p.type ≠ 0 → s ≤ p.startLba →
    s + requested size ≤ p.startLba

/-- What the user does. -/
inductive Action
  | create (typeIdx size : Option ℤ)
  | delete (num : ℤ) (confirmed : Bool)

/-- The runs from a good table in which new partitions fit. -/
def fitting (total : ℕ) : System (List Partition) Action where
  init parts := parts.length = 4 ∧ Good total parts
  guard parts
    | .create _ size => ∀ n ∈ size, FitsHole parts n
    | .delete _ _ => True
  step parts a parts' :=
    match a with
    | .create typeIdx size => createPartition total parts typeIdx size = some parts'
    | .delete num confirmed => parts' = deletePartition parts num confirmed

/-! ## The search for a start -/

/-- No end of a partition wraps. -/
def NoWrap (parts : List Partition) : Prop :=
  ∀ p ∈ parts, p.type ≠ 0 → p.startLba + p.sectors < 2 ^ 32

/-- How many partitions end behind a sector. -/
def ahead (parts : List Partition) (s : ℕ) : ℕ :=
  parts.countP fun p => p.type ≠ 0 ∧ s < p.startLba + p.sectors

section

variable {parts : List Partition} {total start s : ℕ} {p : Partition}

lemma passStep_of_has (hp : p.type ≠ 0 → p.startLba + p.sectors < 2 ^ 32) (h : p.Has start)
    (changed : Bool) : passStep (start, changed) p = (p.startLba + p.sectors, true) := by
  unfold passStep
  rw [w32_of_lt (hp h.1)]
  exact if_pos h

lemma passStep_of_not_has (hp : p.type ≠ 0 → p.startLba + p.sectors < 2 ^ 32) (h : ¬ p.Has start)
    (changed : Bool) : passStep (start, changed) p = (start, changed) := by
  refine if_neg fun hcond => h ⟨hcond.1, hcond.2.1, ?_⟩
  rw [← w32_of_lt (hp hcond.1)]
  exact hcond.2.2

/-- **The inner loop** moves the start over sectors in partitions to the end of one, or the start is
free. -/
lemma pass_spec (h : NoWrap parts) (start : ℕ) (changed : Bool) :
    ∃ s c, parts.foldl passStep (start, changed) = (s, c) ∧ start ≤ s ∧
      (∀ x, start ≤ x → x < s → ∃ p ∈ parts, p.Has x) ∧
      (c = changed ∧ s = start ∧ (∀ p ∈ parts, ¬ p.Has start) ∨
        c = true ∧ ∃ p ∈ parts, p.type ≠ 0 ∧ start < p.startLba + p.sectors ∧
          p.startLba + p.sectors ≤ s) := by
  induction parts generalizing start changed with
  | nil =>
    refine ⟨start, changed, rfl, le_rfl, fun x h1 h2 => ?_, .inl ⟨rfl, rfl, fun p hp => nomatch hp⟩⟩
    omega
  | cons p parts ih =>
    have hp := h p (.head _)
    have ih := ih fun q hq => h q (.tail _ hq)
    rw [List.foldl_cons]
    by_cases hhas : p.Has start
    · rw [passStep_of_has hp hhas]
      obtain ⟨s, c, heq, hle, hcov, hend⟩ := ih (p.startLba + p.sectors) true
      obtain ⟨htype, hge, hlt⟩ := hhas
      refine ⟨s, c, heq, by omega, fun x hx hxs => ?_, .inr ⟨?_, p, (.head _), htype, hlt, hle⟩⟩
      · rcases Nat.lt_or_ge x (p.startLba + p.sectors) with hin | hout
        · exact ⟨p, (.head _), htype, by omega, hin⟩
        · obtain ⟨q, hq, hqx⟩ := hcov x hout hxs
          exact ⟨q, .tail _ hq, hqx⟩
      · rcases hend with ⟨hc, -⟩ | ⟨hc, -⟩
        · exact hc
        · exact hc
    · rw [passStep_of_not_has hp hhas]
      obtain ⟨s, c, heq, hle, hcov, hend⟩ := ih start changed
      refine ⟨s, c, heq, hle, fun x hx hxs => ?_, ?_⟩
      · obtain ⟨q, hq, hqx⟩ := hcov x hx hxs
        exact ⟨q, .tail _ hq, hqx⟩
      · rcases hend with ⟨hc, hs, hfree⟩ | ⟨hc, q, hq, hqs⟩
        · refine .inl ⟨hc, hs, fun q hq => ?_⟩
          rcases List.mem_cons.1 hq with rfl | hq
          · exact hhas
          · exact hfree q hq
        · exact .inr ⟨hc, q, .tail _ hq, hqs⟩

lemma ahead_lt (hp : p ∈ parts) (htype : p.type ≠ 0) (hlt : start < p.startLba + p.sectors)
    (hle : p.startLba + p.sectors ≤ s) : ahead parts s < ahead parts start := by
  obtain ⟨a, b, rfl⟩ := List.append_of_mem hp
  have hmono : ∀ l : List Partition, ahead l s ≤ ahead l start := by
    intro l
    refine List.countP_mono_left fun q _ hq => ?_
    simp only [decide_eq_true_eq] at hq ⊢
    exact ⟨hq.1, by omega⟩
  have ha := hmono a
  have hb := hmono b
  unfold ahead at *
  rw [List.countP_append, List.countP_append, List.countP_cons_of_neg (by simp [hle]),
    List.countP_cons_of_pos (by simp [htype, hlt])]
  omega

/-- **The search ends, at the first free sector.** -/
lemma findFreeStart_eq (h : NoWrap parts) (fuel : ℕ) (hfuel : ahead parts start < fuel)
    (hle : 2048 ≤ start) (hcov : ∀ x, 2048 ≤ x → x < start → ∃ p ∈ parts, p.Has x) :
    ∃ s, findFreeStart parts fuel start = some s ∧ FirstFree parts s := by
  induction fuel generalizing start with
  | zero => omega
  | succ fuel ih =>
    obtain ⟨s, c, heq, hge, hpass, hend⟩ := pass_spec h start false
    rw [findFreeStart, heq]
    dsimp only
    rcases hend with ⟨rfl, rfl, hfree⟩ | ⟨rfl, p, hp, htype, hlt, hles⟩
    · exact ⟨s, rfl, hle, hfree, hcov⟩
    · have hless := ahead_lt hp htype hlt hles
      refine ih (by omega) (by omega) fun x hx hxs => ?_
      rcases Nat.lt_or_ge x start with hbefore | hafter
      · exact hcov x hx hbefore
      · exact hpass x hafter hxs

lemma Good.noWrap (h : Good total parts) (ht : total < 2 ^ 32) : NoWrap parts := by
  intro p hp htype
  have := (h.inside p hp htype).2
  omega

/-- The search ends after at most one pass more than there are partitions, since each pass moves it
past one. -/
lemma Good.findFreeStart_eq (h : Good total parts) (ht : total < 2 ^ 32) :
    ∃ s, findFreeStart parts (parts.length + 1) 2048 = some s ∧ FirstFree parts s :=
  Partmk.findFreeStart_eq (h.noWrap ht) _ (Nat.lt_succ_of_le List.countP_le_length) le_rfl
    fun x h1 h2 => by omega

/-! ## Good tables stay good -/

lemma Good.set (h : Good total parts) {slot : ℕ}
    (hin : p.type ≠ 0 → 2048 ≤ p.startLba ∧ p.startLba + p.sectors ≤ total)
    (hapart : ∀ q ∈ parts, ∀ x, p.Has x → ¬ q.Has x) : Good total (parts.set slot p) := by
  refine ⟨fun i j q r hij hi hj x hq hr => ?_, fun q hq htype => ?_⟩
  · rw [List.getElem?_set] at hi hj
    split_ifs at hi with h1 h2
    · cases hi
      rw [if_neg (by omega)] at hj
      exact hapart r (List.mem_of_getElem? hj) x hq hr
    · split_ifs at hj with h3 h4
      · cases hj
        exact hapart q (List.mem_of_getElem? hi) x hr hq
      · exact h.apart i j q r hij hi hj x hq hr
  · rcases List.mem_or_eq_of_mem_set hq with hq | rfl
    · exact h.inside q hq htype
    · exact hin htype

/-- **A new partition that fits keeps the table good.** -/
lemma Good.create (h : Good total parts) (ht : total < 2 ^ 32) (typeIdx : Option ℤ)
    {size : Option ℤ} (hfits : ∀ n ∈ size, FitsHole parts n) :
    ∃ parts', createPartition total parts typeIdx size = some parts' ∧ Good total parts' := by
  obtain ⟨s, hfind, hfree⟩ := h.findFreeStart_eq ht
  unfold createPartition
  split
  · rename_i slot type _ _
    rw [hfind, Option.map_some]
    refine ⟨_, rfl, ?_⟩
    split_ifs with hfull
    · exact h
    · cases size with
      | none => exact h
      | some n =>
        dsimp only
        split_ifs with hzero
        · exact h
        · refine h.set (fun _ => ⟨hfree.le, ?_⟩) fun q hq x hx hqx => ?_
          · show s + min _ (total - s) ≤ total
            omega
          · -- a partition that begins before the start ends there too
            have hlen : x < s + requested n := by
              have hmin : x < s + min (requested n) (total - s) := hx.2.2
              omega
            have hge : s ≤ x := hx.2.1
            rcases Nat.lt_or_ge q.startLba s with hbefore | hafter
            · exact hfree.free q hq ⟨hqx.1, hbefore.le, by have := hqx.2.2; omega⟩
            · have := hfits n rfl s hfree q hq hqx.1 hafter
              have := hqx.2.1
              omega
  · exact ⟨parts, rfl, h⟩

lemma Good.delete (h : Good total parts) (num : ℤ) (confirmed : Bool) :
    Good total (deletePartition parts num confirmed) := by
  unfold deletePartition
  dsimp only
  split_ifs
  · exact h
  · exact h
  · exact h.set (fun htype => absurd rfl htype) fun q _ x hx => absurd rfl hx.1
  · exact h

/-- **The table stays good**, and the search ends, in every run in which new partitions fit. -/
theorem good_of_reach (ht : total < 2 ^ 32) (h : (fitting total).Reach parts) :
    Good total parts ∧ ∃ s, findFreeStart parts (parts.length + 1) 2048 = some s := by
  have hgood : Good total parts := by
    refine h.invariant (fun _ (hinit : _ ∧ _) => hinit.2) ?_
    rintro parts (⟨typeIdx, size⟩ | ⟨num, confirmed⟩) parts' hgood hguard hstep
    · obtain ⟨new, hnew, hgood'⟩ := hgood.create ht typeIdx hguard
      have hstep : createPartition total parts typeIdx size = some parts' := hstep
      rw [hnew] at hstep
      exact Option.some.inj hstep ▸ hgood'
    · exact hstep ▸ hgood.delete num confirmed
  obtain ⟨s, hs, -⟩ := hgood.findFreeStart_eq ht
  exact ⟨hgood, s, hs⟩

end

/-- 2 MiB at sector 4096, with a hole of 1 MiB before. -/
def second : Partition := ⟨false, 6, 4096, 4096⟩

/-- The second partition with a hole before it. -/
def oneHole : List Partition := [second, ⟨false, 0, 0, 0⟩, ⟨false, 0, 0, 0⟩, ⟨false, 0, 0, 0⟩]

lemma eq_second {p : Partition} (hp : p ∈ oneHole) (htype : p.type ≠ 0) : p = second := by
  simp only [oneHole, List.mem_cons, List.not_mem_nil, or_false] at hp
  rcases hp with rfl | rfl | rfl | rfl
  · rfl
  all_goals exact absurd rfl htype

lemma good_oneHole : Good 131072 oneHole where
  apart i j p q hij hi hj x hp hq := by
    obtain rfl := eq_second (List.mem_of_getElem? hi) hp.1
    obtain rfl := eq_second (List.mem_of_getElem? hj) hq.1
    have hidx : ∀ k, oneHole[k]? = some second → k = 0 := by
      intro k hk
      have hall : ∀ k < 4, oneHole[k]? = some second → k = 0 := by decide
      exact hall k (List.getElem?_eq_some_iff.1 hk).1 hk
    exact hij ((hidx i hi).trans (hidx j hj).symm)
  inside p hp htype := by
    rw [eq_second hp htype]
    decide

lemma firstFree_oneHole {s : ℕ} (h : FirstFree oneHole s) : s = 2048 := by
  by_contra hne
  obtain ⟨p, hp, hhas⟩ := h.least 2048 le_rfl (by have := h.le; omega)
  obtain rfl := eq_second hp hhas.1
  exact absurd hhas.2.1 (by decide)

/-- One MiB fits into the hole. -/
theorem good_filled : Good 131072 (oneHole.set 1 ⟨false, 6, 2048, 2048⟩) ∧
    ∃ s, findFreeStart (oneHole.set 1 ⟨false, 6, 2048, 2048⟩) 5 2048 = some s := by
  have hstart : (fitting 131072).Reach oneHole := .init ⟨rfl, good_oneHole⟩
  have hfits : ∀ n ∈ some (1 : ℤ), FitsHole oneHole n := by
    rintro n ⟨⟩ s hs p hp htype -
    rw [firstFree_oneHole hs, eq_second hp htype]
    decide
  have hcall : createPartition 131072 oneHole (some 1) (some 1) =
      some (oneHole.set 1 ⟨false, 6, 2048, 2048⟩) := by decide +kernel
  exact good_of_reach (by decide) (.step (a := .create (some 1) (some 1)) hstart hfits hcall)

/-- **A partition of 10 MiB in the hole has sectors of the next one.** -/
theorem create_overlaps :
    ∃ parts', createPartition 131072 oneHole (some 1) (some 10) =
    some parts' ∧ parts' = oneHole.set 1 ⟨false, 6, 2048, 20480⟩ ∧ ¬ Good 131072 parts' := by
  refine ⟨_, by decide +kernel, rfl, fun h => ?_⟩
  exact h.apart 0 1 second ⟨false, 6, 2048, 20480⟩ (by decide) (by decide) (by decide) 4096
    ⟨by decide, by decide, by decide⟩ ⟨by decide, by decide, by decide⟩

end FrostByte.Partmk
