import Mathlib.Data.Finset.Card
import FrostByte.Lib.Bitmap
import FrostByte.Lib.Word

/-!
# The physical page allocator

`src/mm/pmm.c` without its initialisation: a bitmap with one bit for each 4 KiB frame, set when
the frame is in use. Frames are numbered by their address divided by 4096.

## Main definitions

* `Pmm` — the bitmap with its counters.
* `pmmAllocPage`, `pmmFreePage` — taking a frame and giving it back.

## Main results

* `pmmAllocPage_cases` — the lowest free frame is taken, or there is none.
* `card_freeFrames_pmmAllocPage` — one frame less is free.
-/

namespace FrostByte

open Word

/-- The variables of `pmm.c`. -/
structure Pmm where
  bitmap : Bitmap
  totalPages : ℕ
  usedPages : ℕ

/-- `BITMAP_SIZE * 8`, the number of frames the bitmap has room for. -/
def bitmapPages : ℕ := 128 * 1024 * 8

/-- Frame `p` is in the range of the allocator and marked free. -/
def Pmm.Free (m : Pmm) (p : ℕ) : Prop :=
  p < m.totalPages ∧ p < bitmapPages ∧ m.bitmap.test p = false

instance (m : Pmm) (p : ℕ) : Decidable (m.Free p) :=
  inferInstanceAs (Decidable (_ ∧ _ ∧ _))

/-- The loop of `pmm_alloc_page` over `n` more frames. -/
def findFreePage (b : Bitmap) : ℕ → ℕ → Option ℕ
  | 0, _ => none
  | n + 1, page => if b.test page then findFreePage b n (page + 1) else some page

/-- `pmm_alloc_page`: the address of a frame, or `0`. -/
def pmmAllocPage (m : Pmm) : ℕ × Pmm :=
  match findFreePage m.bitmap (min m.totalPages bitmapPages) 0 with
  | none => (0, m)
  | some page =>
    (w32 (page * 4096), { m with
      bitmap := m.bitmap.set page
      usedPages := w32 (m.usedPages + 1) })

/-- `pmm_free_page`, which ignores frames that are free or out of range. -/
def pmmFreePage (pageAddr : ℕ) (m : Pmm) : Pmm :=
  let page := pageAddr / 4096
  if page < m.totalPages ∧ page < bitmapPages then
    if m.bitmap.test page then
      { m with bitmap := m.bitmap.clear page, usedPages := sub32 m.usedPages 1 }
    else m
  else m

/-! ## The search -/

lemma findFreePage_cases (b : Bitmap) (n page : ℕ) :
    (findFreePage b n page = none ∧ ∀ q, page ≤ q → q < page + n → b.test q = true) ∨
      ∃ p, findFreePage b n page = some p ∧ page ≤ p ∧ p < page + n ∧ b.test p = false := by
  induction n generalizing page with
  | zero => exact .inl ⟨rfl, fun q h1 h2 => by omega⟩
  | succ n ih =>
    rw [findFreePage]
    split_ifs with hp
    · rcases ih (page + 1) with ⟨h1, h2⟩ | ⟨p, h1, h2, h3, h4⟩
      · refine .inl ⟨h1, fun q hq1 hq2 => ?_⟩
        rcases Nat.eq_or_lt_of_le hq1 with rfl | hlt
        · exact hp
        · exact h2 q hlt (by omega)
      · exact .inr ⟨p, h1, by omega, by omega, h4⟩
    · exact .inr ⟨page, rfl, le_rfl, by omega, by simpa using hp⟩

lemma findFreePage_le {b : Bitmap} {n page p q : ℕ} (h : findFreePage b n page = some p)
    (hq : page ≤ q) (hfree : b.test q = false) : p ≤ q := by
  induction n generalizing page with
  | zero =>
    cases h
  | succ n ih =>
    rw [findFreePage] at h
    by_cases hp : b.test page = true
    · rw [if_pos hp] at h
      rcases Nat.eq_or_lt_of_le hq with rfl | hlt
      · rw [hp] at hfree
        cases hfree
      · exact ih h hlt
    · rw [if_neg hp] at h
      rwa [← Option.some.inj h]

/-- **Allocation**: no frame is free, or a free one is handed out. -/
lemma pmmAllocPage_cases (m : Pmm) : (pmmAllocPage m = (0, m) ∧ ∀ p, ¬ m.Free p) ∨
      ∃ p m', pmmAllocPage m = (p * 4096, m') ∧ m.Free p ∧ m'.totalPages = m.totalPages ∧
        ∀ q, m'.Free q ↔ m.Free q ∧ q ≠ p := by
  rw [pmmAllocPage]
  rcases findFreePage_cases m.bitmap (min m.totalPages bitmapPages) 0 with
    ⟨hnone, hall⟩ | ⟨p, hsome, -, hlt, hfree⟩
  · left
    rw [hnone]
    refine ⟨rfl, fun p hp => ?_⟩
    have := hall p (Nat.zero_le _) (by have := hp.1; have := hp.2.1; omega)
    rw [hp.2.2] at this
    cases this
  · right
    have hp : p < bitmapPages := by omega
    have hw : w32 (p * 4096) = p * 4096 := w32_of_lt (by unfold bitmapPages at hp; omega)
    simp only [hsome, hw]
    refine ⟨p, _, rfl, ⟨by omega, hp, hfree⟩, rfl, fun q => ?_⟩
    simp only [Pmm.Free, Bitmap.test_set, Bool.or_eq_false_iff, decide_eq_false_iff_not]
    tauto

/-- **Release**: the frame becomes free, if it is in range. -/
lemma pmmFreePage_free_iff (m : Pmm) (addr q : ℕ) : (pmmFreePage addr m).Free q ↔
    m.Free q ∨ (q = addr / 4096 ∧ q < m.totalPages ∧ q < bitmapPages) := by
  unfold pmmFreePage
  by_cases hr : addr / 4096 < m.totalPages ∧ addr / 4096 < bitmapPages
  · simp only [if_pos hr]
    by_cases ht : m.bitmap.test (addr / 4096) = true
    · simp only [if_pos ht, Pmm.Free, Bitmap.test_clear]
      grind
    · simp only [Pmm.Free]
      grind
  · grind

@[simp] lemma pmmFreePage_totalPages (m : Pmm) (addr : ℕ) :
    (pmmFreePage addr m).totalPages = m.totalPages := by
  simp only [pmmFreePage]
  split_ifs <;> rfl

/-! ## Counting -/

/-- The number of frames below `total_pages` that are marked used. -/
def Pmm.countUsed (m : Pmm) : ℕ :=
  ((Finset.range m.totalPages).filter fun p => m.bitmap.test p).card

lemma card_filter_clear {b : Bitmap} {n p : ℕ} (hp : p < n) (ht : b.test p = true) :
    ((Finset.range n).filter fun q => (b.clear p).test q).card + 1 =
      ((Finset.range n).filter fun q => b.test q).card := by
  have herase : ((Finset.range n).filter fun q => (b.clear p).test q) =
      ((Finset.range n).filter fun q => b.test q).erase p := by
    ext q
    simp only [Finset.mem_filter, Finset.mem_range, Finset.mem_erase, Bitmap.test_clear,
      Bool.and_eq_true, Bool.not_eq_true', decide_eq_false_iff_not]
    tauto
  rw [herase]
  exact Finset.card_erase_add_one (by simp [hp, ht])

/-- The frames the allocator may hand out, as a set. -/
@[irreducible] def Pmm.freeFrames (m : Pmm) : Finset ℕ := (Finset.range bitmapPages).filter m.Free

@[simp] lemma Pmm.mem_freeFrames (m : Pmm) (p : ℕ) : p ∈ m.freeFrames ↔ m.Free p := by
  simp only [Pmm.freeFrames, Finset.mem_filter, Finset.mem_range, and_iff_right_iff_imp]
  exact fun h => h.2.1

lemma pmmAllocPage_free_le (m : Pmm) (q : ℕ) (h : (pmmAllocPage m).2.Free q) : m.Free q := by
  rcases pmmAllocPage_cases m with ⟨hm, -⟩ | ⟨p, m', hm, -, -, hfree⟩
  · rwa [hm] at h
  · rw [hm] at h
    exact ((hfree q).mp h).1

lemma pmmAllocPage_le (m : Pmm) {q : ℕ} (h : m.Free q) : (pmmAllocPage m).1 ≤ q * 4096 := by
  rw [pmmAllocPage]
  cases hfind : findFreePage m.bitmap (min m.totalPages bitmapPages) 0 with
  | none => exact Nat.zero_le _
  | some p =>
    have hle := findFreePage_le hfind (Nat.zero_le q) h.2.2
    exact (Nat.mod_le _ _).trans (Nat.mul_le_mul_right _ hle)

lemma card_freeFrames_of_ne_zero {m : Pmm} (h : (pmmAllocPage m).1 ≠ 0) :
    m.freeFrames.card = (pmmAllocPage m).2.freeFrames.card + 1 := by
  rcases pmmAllocPage_cases m with ⟨hm, -⟩ | ⟨p, m', hm, hp, -, hfree⟩
  · rw [hm] at h
    exact absurd rfl h
  · rw [hm]
    have herase : m'.freeFrames = m.freeFrames.erase p := by
      ext q
      simp only [Pmm.mem_freeFrames, Finset.mem_erase, hfree]
      tauto
    rw [herase, Finset.card_erase_add_one ((m.mem_freeFrames p).mpr hp)]

/-- A call takes one frame at most. -/
lemma card_freeFrames_pmmAllocPage (m : Pmm) :
    m.freeFrames.card ≤ (pmmAllocPage m).2.freeFrames.card + 1 := by
  rcases pmmAllocPage_cases m with ⟨h, -⟩ | ⟨p, m', h, hp, -, hfree⟩
  · rw [h]
    exact Nat.le_succ _
  · rw [h]
    have hsub : m.freeFrames.erase p ⊆ m'.freeFrames := by
      intro q hq
      rw [Finset.mem_erase, Pmm.mem_freeFrames] at hq
      rw [Pmm.mem_freeFrames, hfree]
      exact ⟨hq.2, hq.1⟩
    have := Finset.card_le_card hsub
    rw [Finset.card_erase_of_mem ((m.mem_freeFrames p).mpr hp)] at this
    show _ ≤ m'.freeFrames.card + 1
    omega

lemma pmmAllocPage_ne_zero {m : Pmm} (h0 : ¬ m.Free 0) (hm : 0 < m.freeFrames.card) :
    (pmmAllocPage m).1 ≠ 0 := by
  rcases pmmAllocPage_cases m with ⟨-, hno⟩ | ⟨p, m', h, hp, -, -⟩
  · obtain ⟨p, hp⟩ := Finset.card_pos.mp hm
    exact absurd ((m.mem_freeFrames p).mp hp) (hno p)
  · rw [h]
    have hp0 : p ≠ 0 := by
      rintro rfl
      exact h0 hp
    omega

end FrostByte
