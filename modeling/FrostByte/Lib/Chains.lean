import Mathlib.Data.Finset.Card
import Mathlib.Data.List.Flatten
import Mathlib.Data.List.Pairwise

/-!
# Chains in an allocation table

A cell of an allocation table says that its block is free, that it is the last of a chain, or which
block comes after it. `Shape` says that the used blocks are the disjoint union of given chains, each
of which ends; `nil` stands for a file without blocks.

## Main definitions

* `Cell` — what an allocation table says about a block.
* `Shape` — the used blocks are these chains.

## Main results

* `Shape.alloc`, `Shape.link`, `Shape.release` — taking, appending and giving back.
* `Shape.card_freeCells` — the number of free blocks.
-/

namespace Chains

open Function

variable {α : Type*}

/-- What the table says about a block. -/
inductive Cell (α : Type*)
  | free
  | last
  | next (a : α)
  deriving DecidableEq

/-- The blocks of `l` follow each other, and the last one ends the chain. -/
def Linked (t : α → Cell α) (l : List α) : Prop :=
  ∀ i a, l[i]? = some a → t a = (l[i + 1]?).elim .last .next

/-- The used blocks of `D` are the disjoint union of the chains. -/
structure Shape (t : α → Cell α) (D : Finset α) (chains : List (List α)) : Prop where
  linked : ∀ l ∈ chains, Linked t l
  nodup : chains.flatten.Nodup
  used : ∀ a, a ∈ chains.flatten ↔ a ∈ D ∧ t a ≠ .free

/-- Whether blocks follow each other is checked block by block. -/
instance [DecidableEq α] (t : α → Cell α) (l : List α) : Decidable (Linked t l) :=
  decidable_of_iff (∀ i : Fin l.length, t (l.get i) = (l[i.val + 1]?).elim .last .next) <| by
    refine ⟨fun h i a ha => ?_, fun h i => h i _ (List.getElem?_eq_getElem i.isLt)⟩
    obtain ⟨hi, rfl⟩ := List.getElem?_eq_some_iff.1 ha
    exact h ⟨i, hi⟩

/-- Whether a table has these chains is checked on its blocks. -/
instance [DecidableEq α] (t : α → Cell α) (D : Finset α) (L : List (List α)) :
    Decidable (Shape t D L) :=
  decidable_of_iff ((∀ l ∈ L, Linked t l) ∧ L.flatten.Nodup ∧
      (∀ a ∈ L.flatten, a ∈ D ∧ t a ≠ .free) ∧ ∀ a ∈ D, t a ≠ .free → a ∈ L.flatten) <| by
    constructor
    · rintro ⟨h1, h2, h3, h4⟩
      exact ⟨h1, h2, fun a => ⟨h3 a, fun ha => h4 a ha.1 ha.2⟩⟩
    · rintro ⟨h1, h2, h3⟩
      exact ⟨h1, h2, fun a => (h3 a).1, fun a hD hf => (h3 a).2 ⟨hD, hf⟩⟩

variable {t u : α → Cell α} {D : Finset α} {l : List α} {L M : List (List α)} {a b : α}

lemma Linked.congr (h : Linked t l) (hu : ∀ a ∈ l, u a = t a) : Linked u l := by
  intro i a ha
  rw [hu a (List.mem_of_getElem? ha), h i a ha]

lemma Linked.tail (h : Linked t (a :: l)) : Linked t l := fun i b hb => h (i + 1) b hb

lemma Linked.head (h : Linked t (a :: l)) : t a = l.head?.elim .last .next := by
  have h0 := h 0 a rfl
  rwa [List.getElem?_cons_succ, ← List.head?_eq_getElem?] at h0

lemma Linked.concat (h : Linked t l) (hl : l.Nodup) (hlast : l.getLast? = some a)
    (hu : ∀ c ∈ l, c ≠ a → u c = t c) (ha : u a = .next b) (hub : u b = .last) :
    Linked u (l ++ [b]) := by
  intro i c hc
  have hlen : l[l.length - 1]? = some a := by rw [← List.getLast?_eq_getElem?, hlast]
  rcases Nat.lt_trichotomy i l.length with hi | rfl | hi
  · rw [List.getElem?_append_left hi] at hc
    rcases Nat.lt_or_ge (i + 1) l.length with hi' | hi'
    · -- a block before the last one: its cell is as before
      have hne : c ≠ a := by
        rintro rfl
        have heq := hc.trans hlen.symm
        rw [List.getElem?_eq_getElem hi, List.getElem?_eq_getElem (by omega),
          Option.some_inj] at heq
        have := hl.getElem_inj_iff.1 heq
        omega
      rw [hu c (List.mem_of_getElem? hc) hne, h i c hc, List.getElem?_append_left hi']
    · obtain rfl : i = l.length - 1 := by omega
      obtain rfl : c = a := Option.some_inj.1 (hc.symm.trans hlen)
      rw [ha, show l.length - 1 + 1 = l.length by omega, List.getElem?_concat_length]
      rfl
  · rw [List.getElem?_concat_length, Option.some_inj] at hc
    rw [← hc, hub, List.getElem?_eq_none (by simp)]
    rfl
  · rw [List.getElem?_eq_none (by simp; omega)] at hc
    cases hc

namespace Shape

lemma perm (h : Shape t D L) (hp : L.Perm M) : Shape t D M where
  linked l hl := h.linked l (hp.mem_iff.2 hl)
  nodup := hp.flatten.nodup_iff.1 h.nodup
  used a := by rw [← hp.flatten.mem_iff, h.used]

lemma cons_nil (h : Shape t D L) : Shape t D ([] :: L) where
  linked l hl := by
    rcases List.mem_cons.1 hl with rfl | hl
    · exact fun i a ha => nomatch ha
    · exact h.linked l hl
  nodup := h.nodup
  used := h.used

lemma of_cons_nil (h : Shape t D ([] :: L)) : Shape t D L where
  linked l hl := h.linked l (.tail _ hl)
  nodup := h.nodup
  used := h.used

lemma mem (h : Shape t D L) (hl : l ∈ L) (ha : a ∈ l) : a ∈ D :=
  ((h.used a).1 (List.mem_flatten_of_mem hl ha)).1

lemma ne_free (h : Shape t D L) (hl : l ∈ L) (ha : a ∈ l) : t a ≠ .free :=
  ((h.used a).1 (List.mem_flatten_of_mem hl ha)).2

lemma notMem_of_free (h : Shape t D L) (ha : t a = .free) : a ∉ L.flatten :=
  fun hm => ((h.used a).1 hm).2 ha

lemma nodup_of_mem (h : Shape t D L) (hl : l ∈ L) : l.Nodup :=
  (List.nodup_flatten.1 h.nodup).1 l hl

lemma congr (h : Shape t D L) (hu : ∀ a ∈ D, u a = t a) : Shape u D L where
  linked l hl := (h.linked l hl).congr fun a ha => hu a (h.mem hl ha)
  nodup := h.nodup
  used a := by
    rw [h.used]
    exact and_congr_right fun ha => by rw [hu a ha]

lemma notMem_tail (h : Shape t D (l :: L)) (ha : a ∈ l) : a ∉ L.flatten := by
  have hn := h.nodup
  exact fun hm => (List.nodup_append.1 hn).2.2 a ha a hm rfl

lemma eq_of_mem {m : List α} (h : Shape t D L) (hl : l ∈ L) (hm : m ∈ L) (hal : a ∈ l)
    (ham : a ∈ m) : l = m := by
  by_contra hne
  have : Std.Symm (List.Disjoint (α := α)) := ⟨fun _ _ h => h.symm⟩
  exact (List.nodup_flatten.1 h.nodup).2.forall hl hm hne hal ham

lemma length_le [DecidableEq α] (h : Shape t D L) (hl : l ∈ L) : l.length ≤ D.card := by
  rw [← List.toFinset_card_of_nodup (h.nodup_of_mem hl)]
  exact Finset.card_le_card fun a ha => h.mem hl (List.mem_toFinset.1 ha)

variable [DecidableEq α]

/-- A free block becomes a chain of its own. -/
lemma alloc (h : Shape t D ([] :: L)) (ha : a ∈ D) (hf : t a = .free) :
    Shape (update t a .last) D ([a] :: L) where
  linked l hl := by
    rcases List.mem_cons.1 hl with rfl | hl
    · intro i b hb
      rcases i with _ | i
      · cases hb
        exact update_self ..
      · exact nomatch hb
    · have hl' : l ∈ [] :: L := .tail _ hl
      refine (h.linked l hl').congr fun b hb => update_of_ne ?_ ..
      rintro rfl
      exact h.ne_free hl' hb hf
  nodup := List.nodup_cons.2 ⟨h.notMem_of_free hf, h.nodup⟩
  used b := by
    rcases eq_or_ne b a with rfl | hne
    · simp [ha]
    · rw [update_of_ne hne, ← h.used b]
      simp [hne]

/-- A block is put behind the last one of a chain. -/
lemma link (h : Shape t D (l :: [b] :: L)) (hlast : l.getLast? = some a) :
    Shape (update t a (.next b)) D ((l ++ [b]) :: L) := by
  have hal : a ∈ l := List.mem_of_getLast? hlast
  have hflat : (l :: [b] :: L).flatten = ((l ++ [b]) :: L).flatten := by simp
  have hb : b ∉ l := fun hb => h.notMem_tail hb (by simp)
  have hba : b ≠ a := fun e => hb (e ▸ hal)
  refine ⟨fun m hm => ?_, hflat ▸ h.nodup, fun c => ?_⟩
  · rcases List.mem_cons.1 hm with rfl | hm
    · have htb : t b = .last := h.linked [b] (by simp) 0 b rfl
      exact (h.linked l (by simp)).concat (h.nodup_of_mem (by simp)) hlast
        (fun c _ hc => update_of_ne hc ..) (update_self ..) (by rw [update_of_ne hba, htb])
    · refine (h.linked m (by simp [hm])).congr fun c hc => update_of_ne ?_ ..
      rintro rfl
      exact h.notMem_tail hal (List.mem_flatten_of_mem (.tail _ hm) hc)
  · rw [← hflat, h.used c]
    rcases eq_or_ne c a with rfl | hne
    · simp [h.ne_free List.mem_cons_self hal]
    · rw [update_of_ne hne]

omit [DecidableEq α] in
/-- The blocks of a chain become free. -/
lemma release (h : Shape t D (l :: L)) (hfree : ∀ a ∈ l, u a = .free)
    (hkeep : ∀ a ∉ l, u a = t a) : Shape u D L where
  linked m hm := (h.linked m (.tail _ hm)).congr fun a ha =>
    hkeep a fun hal => h.notMem_tail hal (List.mem_flatten_of_mem hm ha)
  nodup := (List.nodup_append.1 (List.flatten_cons ▸ h.nodup)).2.1
  used a := by
    by_cases ha : a ∈ l
    · simp [h.notMem_tail ha, hfree a ha]
    · simp [hkeep a ha, ← h.used a, or_iff_right ha]

lemma exists_chain (h : Shape t D L) (ha : a ∈ D) (hu : t a ≠ .free)
    (hn : ∀ b ∈ D, t b ≠ .next a) : ∃ l M, Shape t D ((a :: l) :: M) := by
  obtain ⟨l, hl, hal⟩ := List.mem_flatten.1 ((h.used a).2 ⟨ha, hu⟩)
  obtain ⟨i, hi⟩ := List.getElem?_of_mem hal
  rcases i with _ | i
  · obtain ⟨m, rfl⟩ : ∃ m, l = a :: m := by
      rcases l with _ | ⟨c, m⟩
      · exact nomatch hi
      · cases hi
        exact ⟨m, rfl⟩
    exact ⟨m, L.erase (a :: m), h.perm (List.perm_cons_erase hl)⟩
  · -- otherwise the block before it names it
    have hlt : i < l.length := by
      have := (List.getElem?_eq_some_iff.1 hi).1
      omega
    have hb := h.linked l hl i (l.get ⟨i, hlt⟩) (List.getElem?_eq_getElem hlt)
    rw [hi] at hb
    exact absurd hb (hn _ (h.mem hl (List.get_mem l ⟨i, hlt⟩)))

end Shape

/-! ## Free blocks -/

variable [DecidableEq α]

/-- The free blocks of `D`. -/
def freeCells (t : α → Cell α) (D : Finset α) : Finset α := {a ∈ D | t a = .free}

lemma mem_freeCells : a ∈ freeCells t D ↔ a ∈ D ∧ t a = .free := Finset.mem_filter

lemma freeCells_congr (h : ∀ a ∈ D, u a = t a) : freeCells u D = freeCells t D :=
  Finset.filter_congr fun a ha => by rw [h a ha]

/-- Free blocks and those of the chains are all blocks. -/
lemma Shape.card_freeCells (h : Shape t D L) :
    (freeCells t D).card + L.flatten.length = D.card := by
  have hused : L.flatten.toFinset = {a ∈ D | ¬ t a = .free} := by
    ext a
    simpa using h.used a
  rw [← List.toFinset_card_of_nodup h.nodup, hused]
  exact Finset.card_filter_add_card_filter_not _

lemma card_freeCells_alloc (ha : a ∈ D) (hf : t a = .free) :
    (freeCells (update t a .last) D).card + 1 = (freeCells t D).card := by
  have hmem : a ∈ freeCells t D := by simp [freeCells, ha, hf]
  have heq : freeCells (update t a .last) D = (freeCells t D).erase a := by
    ext b
    rcases eq_or_ne b a with rfl | hne
    · simp [freeCells]
    · simp [freeCells, hne]
  rw [heq, Finset.card_erase_add_one hmem]

lemma card_freeCells_release (h : Shape t D (l :: L)) (hfree : ∀ a ∈ l, u a = .free)
    (hkeep : ∀ a ∉ l, u a = t a) : (freeCells u D).card = (freeCells t D).card + l.length := by
  have heq : freeCells u D = freeCells t D ∪ l.toFinset := by
    ext a
    by_cases ha : a ∈ l
    · simp [freeCells, hfree a ha, ha, h.mem List.mem_cons_self ha]
    · simp [freeCells, hkeep a ha, ha]
  have hdisj : Disjoint (freeCells t D) l.toFinset := by
    rw [Finset.disjoint_left]
    intro a ha hal
    exact h.ne_free (.head _) (List.mem_toFinset.1 hal) (Finset.mem_filter.1 ha).2
  rw [heq, Finset.card_union_of_disjoint hdisj,
    List.toFinset_card_of_nodup (h.nodup_of_mem List.mem_cons_self)]

lemma freeCells_link (hf : t a ≠ .free) : freeCells (update t a (.next b)) D = freeCells t D := by
  ext c
  rcases eq_or_ne c a with rfl | hne
  · simp [freeCells, hf]
  · simp [freeCells, hne]

end Chains
