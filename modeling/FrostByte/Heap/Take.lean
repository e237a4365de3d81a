import FrostByte.Heap.Invariant

/-!
# `kmalloc` on the block list

The two ways `kmalloc` hands out memory, each as one change of the block list: `takeBlock` and
`appendBlock`.

## Main definitions

* `Fits`, `pagesGranted` — a block that is large enough, and the pages a growth gets.

## Main results

* `findFree_spec` — the walk finds the first block that fits.
* `takeBlock_spec`, `appendBlock_spec` — what the two ways do to the list.
-/

namespace FrostByte

open Word Heap

/-! ## The walks -/

/-- The test of the first-fit search. -/
def Fits (h : Heap) (size a : ℕ) : Prop := (h.block a).free ≠ 0 ∧ size ≤ (h.block a).size

/-- The first-fit walk ends, at a fitting block if there is one. -/
lemma findFree_chain {h : Heap} {size : ℕ} : ∀ {bs : List ℕ} {fuel : ℕ}, bs.length < fuel →
    bs.IsChain (Adj h.block) → (∀ b ∈ bs, b ≠ 0) → (∀ b ∈ bs.getLast?, (h.block b).next = 0) →
    (findFree fuel h (bs.head?.getD 0) size = some 0 ∧ ∀ b ∈ bs, ¬ Fits h size b) ∨
      ∃ a ∈ bs, Fits h size a ∧ findFree fuel h (bs.head?.getD 0) size = some a
  | [], fuel + 1, _, _, _, _ => by simp [findFree]
  | a :: l, fuel + 1, hf, hc, h0, hl => by
    have ha0 : a ≠ 0 := h0 a (by simp)
    have hhead : (a :: l).head?.getD 0 = a := rfl
    rw [hhead]
    simp only [findFree, if_neg ha0]
    split_ifs with hfit
    · exact .inr ⟨a, by simp, hfit, rfl⟩
    · have hnext : (h.block a).next = l.head?.getD 0 := by
        cases l with
        | nil => simpa using hl a (by simp)
        | cons b l => simpa using (List.isChain_cons_cons.mp hc).1.next
      rw [hnext]
      rcases @findFree_chain h size l fuel (by simpa using hf) hc.tail
        (fun b hb => h0 b (.tail _ hb))
        (fun b hb => hl b (by cases l with
          | nil => simp at hb
          | cons c l => simpa using hb)) with ⟨h1, h2⟩ | ⟨b, hb, h1, h2⟩
      · exact .inl ⟨h1, List.forall_mem_cons.mpr ⟨hfit, h2⟩⟩
      · exact .inr ⟨b, .tail _ hb, h1, h2⟩

lemma lastBlock_chain {h : Heap} : ∀ {l : List ℕ} {c fuel : ℕ}, l.length < fuel →
    (l ++ [c]).IsChain (Adj h.block) → (∀ b ∈ l ++ [c], b ≠ 0) → (h.block c).next = 0 →
    lastBlock fuel h ((l ++ [c]).head?.getD 0) = some c
  | [], c, fuel + 1, _, _, _, hl => by simp [lastBlock, hl]
  | a :: l, c, fuel + 1, hf, hc, h0, hl => by
    have hnext : (h.block a).next = (l ++ [c]).head?.getD 0 := by
      cases l with
      | nil => simpa using (List.isChain_cons_cons.mp hc).1.next
      | cons b l => simpa using (List.isChain_cons_cons.mp hc).1.next
    have hne : (h.block a).next ≠ 0 := by
      rw [hnext]
      cases l with
      | nil => exact h0 c (by simp)
      | cons b l => exact h0 b (by simp)
    have hhead : (a :: l ++ [c]).head?.getD 0 = a := rfl
    rw [hhead, lastBlock, if_neg hne, hnext]
    exact lastBlock_chain (by simpa using hf) hc.tail
      (fun b hb => h0 b (.tail _ hb)) hl

lemma Blocks.length_lt {h : Heap} {bs : List ℕ} (hb : Blocks h bs) : bs.length < walkFuel := by
  have key : ∀ (l : List ℕ) (lo : ℕ), lo ≤ h.heapEnd →
      l.Pairwise (fun a b => a + 16 + (h.block a).size ≤ b) →
      (∀ b ∈ l, lo ≤ b ∧ b + 16 + (h.block b).size ≤ h.heapEnd) →
      l.length ≤ h.heapEnd - lo := by
    intro l
    induction l with
    | nil => simp
    | cons a l ih =>
      intro lo hlo hp hr
      obtain ⟨ha, hl⟩ := List.pairwise_cons.mp hp
      have hra := hr a (by simp)
      have := ih (a + 16) (by omega) hl fun b hm => by
        have h1 := ha b hm
        have h2 := (hr b (.tail _ hm)).2
        omega
      simp only [List.length_cons]
      omega
  have hlen := key bs 0 (Nat.zero_le _) hb.sorted fun b hm =>
    ⟨Nat.zero_le _, (hb.mem_range hm).2⟩
  have := hb.endLt
  unfold walkFuel
  omega

/-- First fit: the walk ends, by the length of the list, at a block that fits or at the end. -/
lemma findFree_spec {h : Heap} {bs : List ℕ} (hb : Blocks h bs) (size : ℕ) :
    (findFree walkFuel h h.heapStart size = some 0 ∧ ∀ b ∈ bs, ¬ Fits h size b) ∨
      ∃ a ∈ bs, Fits h size a ∧ findFree walkFuel h h.heapStart size = some a := by
  have hs : bs.head?.getD 0 = h.heapStart := by rw [hb.head]; rfl
  rw [← hs]
  exact findFree_chain hb.length_lt hb.chain (fun b hm => hb.ne_zero hm)
    fun b hm => (hb.last b hm).1

/-! ## Taking a block from the list -/

lemma block_splitBlock {h : Heap} {l r : List ℕ} {a size : ℕ} (hb : Blocks h (l ++ a :: r))
    (hsize : size + 24 < (h.block a).size) : let h' := splitBlock h a size
    h'.block a = ⟨size, (h.block a).free, a + 16 + size, (h.block a).prev⟩ ∧
    h'.block (a + 16 + size) = ⟨(h.block a).size - size - 16, 1, (h.block a).next, a⟩ ∧
    (∀ x, x + 16 ≤ a → h'.block x = h.block x) ∧
    (∀ y ∈ r, (h'.block y).size = (h.block y).size ∧ (h'.block y).free = (h.block y).free ∧
      (h'.block y).next = (h.block y).next) ∧
    (∀ y ∈ r.head?, (h'.block y).prev = a + 16 + size) ∧
    ∀ y ∈ r.tail, (h'.block y).prev = (h.block y).prev := by
  have hs := hb.split
  have hr := hb.mem_range (b := a) (by simp)
  have hlt := hb.endLt
  have e1 : w32 (w32 (size + 16) + 8) = size + 24 := by
    rw [w32_of_lt (n := size + 16) (by omega), w32_of_lt (by omega)]
  have e2 : w32 (a + 16 + size) = a + 16 + size := w32_of_lt (by omega)
  have e3 : sub32 (sub32 (h.block a).size size) 16 = (h.block a).size - size - 16 := by
    rw [sub32_of_le (b := size) (by omega) (by omega), sub32_of_le (by omega) (by omega)]
  have hn : (h.setBlock (a + 16 + size)
      ⟨(h.block a).size - size - 16, 1, (h.block a).next, a⟩).block a = h.block a :=
    h.block_setBlock_of_apart _ (by omega)
  simp only [splitBlock, e1, e2, e3, hsize, if_true, hn]
  cases r with
  | nil =>
    -- the block is the last one: no `prev` field behind it
    have hz : (h.block a).next = 0 := hs.nextZero rfl
    simp only [hz, ne_eq, not_true_eq_false, if_false]
    rw [hz] at hn
    refine ⟨by simp [hn], ?_, fun x hx => ?_, by simp, by simp, by simp⟩
    · simp (disch := omega) only [block_setBlock_of_apart, block_setBlock_self]
    · simp (disch := omega) only [block_setBlock_of_apart]
  | cons y r =>
    have hy : (h.block a).next = y := hs.headEq y (by simp)
    have hya := hs.behind y (by simp)
    have hy0 : y ≠ 0 := hb.ne_zero (by simp)
    have hyr : ∀ z ∈ r, y + 16 ≤ z := fun z hz => by
      have := (List.pairwise_cons.mp (pairwise_of_isChain_adj hs.chainR)).1 z hz
      omega
    simp only [hy, ne_eq, hy0, not_false_eq_true, if_true]
    rw [hy] at hn
    refine ⟨?_, ?_, fun x hx => ?_, fun z hz => ?_, fun z hz => ?_, fun z hz => ?_⟩
    · simp (disch := omega) only [block_setBlock_of_apart, block_setBlock_self]
    · simp (disch := omega) only [block_setBlock_of_apart, block_setBlock_self]
    · simp (disch := omega) only [block_setBlock_of_apart]
    · rcases List.mem_cons.mp hz with rfl | hz
      · simp (disch := omega) only [block_setBlock_of_apart, block_setBlock_self, and_self]
      · have := hyr z hz
        simp (disch := omega) only [block_setBlock_of_apart, and_self]
    · obtain rfl : y = z := by simpa using hz
      simp (disch := omega) only [block_setBlock_of_apart, block_setBlock_self]
    · have := hyr z (by simpa using hz)
      simp (disch := omega) only [block_setBlock_of_apart]

@[simp] lemma splitBlock_heapStart (h : Heap) (a size : ℕ) :
    (splitBlock h a size).heapStart = h.heapStart := by
  unfold splitBlock
  split_ifs <;> simp only [setBlock_heapStart]
  split_ifs <;> rfl

@[simp] lemma splitBlock_heapEnd (h : Heap) (a size : ℕ) :
    (splitBlock h a size).heapEnd = h.heapEnd := by
  unfold splitBlock
  split_ifs <;> simp only [setBlock_heapEnd]
  split_ifs <;> rfl

@[simp] lemma splitBlock_totalAllocated (h : Heap) (a size : ℕ) :
    (splitBlock h a size).totalAllocated = h.totalAllocated := by
  unfold splitBlock
  split_ifs <;> simp only [setBlock_totalAllocated]
  split_ifs <;> rfl

/-- A block after it was split and taken. -/
def markUsed (h : Heap) (a size : ℕ) : Heap :=
  (splitBlock h a size).setBlock a { (splitBlock h a size).block a with free := 0 }

lemma takeBlock_of_le {h : Heap} {a size : ℕ} (hlt : h.heapEnd < 0x100000000)
    (hend : a + 16 + size ≤ h.heapEnd) : takeBlock h a size = (a + 16, { markUsed h a size with
      totalAllocated := w32 (h.totalAllocated + ((markUsed h a size).block a).size) }) := by
  have e1 : w32 (a + 16) = a + 16 := w32_of_lt (by omega)
  have e2 : w32 (a + 16 + size) = a + 16 + size := w32_of_lt (by omega)
  simp only [takeBlock, e1, e2]
  rw [if_neg (by simpa using hend)]
  simp [markUsed]

/-- **Taking a free block** only changes the list between `l` and `r`. -/
lemma takeBlock_spec {h : Heap} {l r : List ℕ} {a size : ℕ} (hb : Blocks h (l ++ a :: r))
    (hfit : Fits h size a) (hs8 : size % 8 = 0) :
    (takeBlock h a size).1 = a + 16 ∧ (takeBlock h a size).2.heapEnd = h.heapEnd ∧
    ((takeBlock h a size).2.block a).free = 0 ∧ size ≤ ((takeBlock h a size).2.block a).size ∧
    (∀ x ∈ l ++ r, Kept h (takeBlock h a size).2 x) ∧
    ∃ t, Blocks (takeBlock h a size).2 (l ++ a :: (t ++ r)) := by
  obtain ⟨hfree, hsize⟩ := hfit
  have hs := hb.split
  have hra := hb.mem_range (b := a) (by simp)
  have ha8 := hb.aligned a (by simp)
  have ht := hb.total
  have hsum := hb.sum_size_le
  have hul := sum_used_le h.block l
  have hur := sum_used_le h.block r
  have hlt := hb.endLt
  have hua : usedSize h.block a = 0 := by simp [usedSize, hfree]
  simp only [List.map_append, List.map_cons, List.sum_append, List.sum_cons] at ht hsum
  simp only [kernelHeapStart] at hra hsum
  have hleft : ∀ x ∈ l, x + 16 ≤ a := fun x hx => by have := hs.before x hx; omega
  have hright : ∀ y ∈ r, a + 16 + (h.block a).size ≤ y := hs.behind
  rw [takeBlock_of_le hlt (by omega)]
  by_cases hsplit : size + 24 < (h.block a).size
  · obtain ⟨ba, bn, bl, br, brh, brt⟩ := block_splitBlock hb hsplit
    have ma : (markUsed h a size).block a = ⟨size, 0, a + 16 + size, (h.block a).prev⟩ := by
      rw [markUsed, block_setBlock_self, ba]
    have mo : ∀ x, a + 16 ≤ x ∨ x + 16 ≤ a →
        (markUsed h a size).block x = (splitBlock h a size).block x := fun x hx =>
      block_setBlock_of_apart _ _ hx
    have mn := mo (a + 16 + size) (by omega)
    rw [bn] at mn
    have hkr : ∀ y ∈ r, Kept h (markUsed h a size) y := fun y hy => by
      have := hright y hy
      rw [Kept, mo y (by omega)]
      exact ⟨(br y hy).1, (br y hy).2.1⟩
    have hkl : ∀ x ∈ l, (markUsed h a size).block x = h.block x := fun x hx => by
      rw [mo x (.inr (hleft x hx)), bl x (hleft x hx)]
    refine ⟨rfl, by simp [markUsed], by simp [ma], by simp [ma], ?_, [a + 16 + size], ?_⟩
    · intro x hx
      rcases List.mem_append.mp hx with hx | hx
      · simp [Kept, hkl x hx]
      · simpa [Kept] using hkr x hx
    · refine Blocks.replace (u := []) hb (by simp [markUsed]) (by simp [markUsed])
        (by simpa using hkl) ?_ ?_ (by simp [ma]) ?_ (by simp [ma]) ?_ ?_ ?_
      · intro y hy
        have := hright y hy
        refine ⟨by simpa [Kept] using hkr y hy, ?_⟩
        simp only [block_totalAllocated]
        rw [mo y (by omega)]
        exact (br y hy).2.2
      · intro y hy
        have := hright y (List.mem_of_mem_tail hy)
        simp only [block_totalAllocated]
        rw [mo y (by omega)]
        exact brt y hy
      · -- the new links: from the block to its tail, and from the tail to the next block
        have hat : Adj (markUsed h a size).block a (a + 16 + size) :=
          ⟨by simp [ma], by simp [mn], by simp [ma], .inl (by simp [ma])⟩
        cases r with
        | nil => simpa using hat
        | cons y r =>
          have hy := hright y (by simp)
          have hya := hs.right y (by simp)
          have hyf := hya.apart.resolve_left hfree
          have my := mo y (by omega)
          have hty : Adj (markUsed h a size).block (a + 16 + size) y := by
            refine ⟨by simp [mn, hya.next], ?_, ?_, .inr ?_⟩
            · rw [my]; exact brh y (by simp)
            · rw [mn]; simp only; omega
            · rw [my, (br y (by simp)).2.1]; exact hyf
          simpa using ⟨hat, hty⟩
      · rintro rfl b hbm
        obtain rfl : a + 16 + size = b := by simpa using hbm
        simp only [block_totalAllocated, mn]
        exact ⟨hs.nextZero rfl, by omega⟩
      · intro b hbm
        rcases List.mem_cons.mp hbm with rfl | hbm
        · simp only [block_totalAllocated, ma]
          exact ⟨ha8.1, hs8⟩
        · obtain rfl : b = a + 16 + size := by simpa using hbm
          simp only [block_totalAllocated, mn]
          omega
      · have u1 : usedSize (markUsed h a size).block a = size := by simp [usedSize, ma]
        have u2 : usedSize (markUsed h a size).block (a + 16 + size) = 0 := by simp [usedSize, mn]
        simp only [ma]
        change w32 (h.totalAllocated + size) = (l.map (usedSize h.block)).sum +
          (usedSize (markUsed h a size).block a +
            (usedSize (markUsed h a size).block (a + 16 + size) + 0)) + _
        rw [w32_of_lt (by omega)]
        omega
  · have hns : splitBlock h a size = h := by
      have e1 : w32 (w32 (size + 16) + 8) = size + 24 := by
        rw [w32_of_lt (n := size + 16) (by omega), w32_of_lt (by omega)]
      rw [splitBlock, e1, if_neg hsplit]
    have ma : (markUsed h a size).block a = { h.block a with free := 0 } := by
      rw [markUsed, block_setBlock_self, hns]
    have mo : ∀ x, a + 16 ≤ x ∨ x + 16 ≤ a → (markUsed h a size).block x = h.block x := by
      intro x hx
      rw [markUsed, block_setBlock_of_apart _ _ hx, hns]
    have hkl : ∀ x ∈ l, (markUsed h a size).block x = h.block x := fun x hx =>
      mo x (.inr (hleft x hx))
    have hkr : ∀ y ∈ r, (markUsed h a size).block y = h.block y := fun y hy => by
      have := hright y hy
      exact mo y (by omega)
    refine ⟨rfl, by simp [markUsed], by simp [ma], by simpa [ma] using hsize, ?_, [], ?_⟩
    · intro x hx
      rcases List.mem_append.mp hx with hx | hx
      · simp [Kept, hkl x hx]
      · simp [Kept, hkr x hx]
    · refine Blocks.replace (u := []) hb (by simp [markUsed]) (by simp [markUsed])
        (by simpa using hkl) ?_ ?_ (by simp [ma]) ?_ (by simp [ma]) ?_ ?_ ?_
      · intro y hy
        simp [Kept, hkr y hy]
      · intro y hy
        simp [hkr y (List.mem_of_mem_tail hy)]
      · cases r with
        | nil => simp
        | cons y r =>
          have hya := hs.right y (by simp)
          have hay : Adj (markUsed h a size).block a y := by
            have := hya.fits
            refine ⟨by simp [ma, hya.next], ?_, by simpa [ma] using this, .inl (by simp [ma])⟩
            rw [hkr y (by simp), hya.prev]
          simpa using hay
      · rintro rfl b hbm
        obtain rfl : a = b := by simpa using hbm
        simp only [block_totalAllocated, ma]
        exact ⟨hs.nextZero rfl, hra.2⟩
      · intro b hbm
        obtain rfl : b = a := by simpa using hbm
        simp only [block_totalAllocated, ma]
        exact ha8
      · have u1 : usedSize (markUsed h a size).block a = (h.block a).size := by
          simp [usedSize, ma]
        simp only [ma]
        change w32 (h.totalAllocated + (h.block a).size) = (l.map (usedSize h.block)).sum +
          (usedSize (markUsed h a size).block a + 0) + _
        rw [w32_of_lt (by omega)]
        omega

/-! ## Growing the heap -/

section Grow

variable {σ : Type} (src : PageSource σ)

/-- How many pages the source gives for a growth by `n` pages at `va`. -/
def pagesGranted : ℕ → ℕ → σ → ℕ
  | 0, _, _ => 0
  | n + 1, va, s =>
    match src.grab va s with
    | (none, _) => 0
    | (some _, s) => pagesGranted n (w32 (va + 4096)) s + 1

/-- **Growth** moves `heap_end` by the pages granted and keeps every header. -/
lemma expandPages_spec {bs : List ℕ} (n : ℕ) (h : Heap) (s : σ) (hb : Blocks h bs)
    (hroom : h.heapEnd + 4096 * pagesGranted src n h.heapEnd s < 0x100000000) :
    Blocks (expandPages src n h s).2.1 bs ∧ (expandPages src n h s).2.1.heapEnd =
      h.heapEnd + 4096 * pagesGranted src n h.heapEnd s ∧
    (∀ b, b + 16 ≤ h.heapEnd → (expandPages src n h s).2.1.block b = h.block b) ∧
    ((expandPages src n h s).1 = true → pagesGranted src n h.heapEnd s = n) := by
  induction n generalizing h s with
  | zero => simp [expandPages, pagesGranted, hb]
  | succ n ih =>
    rw [pagesGranted] at hroom ⊢
    rw [expandPages]
    rcases hg : src.grab h.heapEnd s with ⟨_ | page, s'⟩
    · simp [hb]
    · simp only [hg] at hroom ⊢
      have hend : h.heapEnd + 4096 < 0x100000000 := by grind
      rw [w32_of_lt hend] at hroom ⊢
      set h1 : Heap := { h with
        mem := overlay h.mem h.heapEnd page
        heapEnd := h.heapEnd + 4096 } with hh1
      have hblock : ∀ b, b + 16 ≤ h.heapEnd → h1.block b = h.block b := fun b hbe =>
        h.block_overlay page hbe
      have hb1 : Blocks h1 bs := by
        refine hb.of_block_eq rfl rfl (fun b hm => hblock b ?_) ?_ ?_ ?_
        · have := (hb.mem_range hm).2
          omega
        · simp [hh1]
        · exact hend
        · have := hb.endAligned
          simp [hh1]; omega
      obtain ⟨i1, i2, i3, i4⟩ := ih h1 s' hb1 (by simp only [hh1]; grind)
      refine ⟨i1, ?_, ?_, ?_⟩
      · rw [i2]
        rw [Nat.mul_add, Nat.add_assoc, Nat.add_comm 4096]
      · intro b hbe
        rw [i3 b (by simp only [hh1]; omega), hblock b hbe]
      · intro hok
        rw [i4 hok]

/-- **Appending a block** behind the last one. -/
lemma appendBlock_spec {h : Heap} {bs : List ℕ} {oldEnd size : ℕ} (hb : Blocks h bs)
    (hold : ∀ b ∈ bs, b + 16 + (h.block b).size ≤ oldEnd) (ho8 : oldEnd % 8 = 0)
    (hs8 : size % 8 = 0) (hfit : oldEnd + 16 + size ≤ h.heapEnd) :
    ∃ h', appendBlock h oldEnd size = some (oldEnd + 16, h') ∧ Blocks h' (bs ++ [oldEnd]) ∧
      h'.heapEnd = h.heapEnd ∧ (h'.block oldEnd).free = 0 ∧ (h'.block oldEnd).size = size ∧
      ∀ x ∈ bs, Kept h h' x := by
  have hne : bs ≠ [] := by
    rintro rfl
    simpa using hb.head
  obtain ⟨l, c, rfl⟩ : ∃ l c, bs = l ++ [c] := ⟨_, _, (List.dropLast_append_getLast hne).symm⟩
  have hs := hb.split
  have hlt := hb.endLt
  have hc := hold c (by simp)
  have hl : ∀ x ∈ l, x + 16 ≤ c := fun x hx => by have := hs.before x hx; omega
  have ht := hb.total
  have hul := sum_used_le h.block (l ++ [c])
  have hrange := hb.mem_range (b := c) (by simp)
  have hsizes : ((l ++ [c]).map fun b => (h.block b).size).sum ≤ oldEnd - kernelHeapStart :=
    sum_size_le h.block (by omega) hb.sorted fun b hm => ⟨(hb.mem_range hm).1, hold b hm⟩
  set h1 := h.setBlock oldEnd { h.block oldEnd with size := size, free := 0, next := 0 } with hh1
  have b1 : ∀ x ∈ l ++ [c], h1.block x = h.block x := fun x hx =>
    h.block_setBlock_of_apart _ (by have := hold x hx; omega)
  -- the walk on the heap with the new header ends at the old last block
  have hwalk : lastBlock walkFuel h1 h1.heapStart = some c := by
    have hhead : (l ++ [c]).head?.getD 0 = h1.heapStart := by
      rw [hb.head]; rfl
    rw [← hhead]
    refine lastBlock_chain ?_ ?_ (fun b hm => hb.ne_zero hm) ?_
    · have := hb.length_lt
      simp only [List.length_append] at this
      omega
    · refine isChain_adj_congr hb.chain (fun x hx => by simp [b1 x hx]) fun x hx => ?_
      rw [b1 x (List.mem_of_mem_tail hx)]
    · rw [b1 c (by simp)]
      exact (hb.last c (by simp)).1
  set h2 := h1.setBlock c { h1.block c with next := oldEnd } with hh2
  set h3 := h2.setBlock oldEnd { h2.block oldEnd with prev := c } with hh3
  have e1 : w32 (oldEnd + 16) = oldEnd + 16 := w32_of_lt (by omega)
  have e2 : w32 (oldEnd + 16 + size) = oldEnd + 16 + size := w32_of_lt (by omega)
  have e3 : w32 (h.totalAllocated + size) = h.totalAllocated + size := by
    rw [w32_of_lt]
    omega
  have ho : h3.block oldEnd = ⟨size, 0, 0, c⟩ := by
    rw [block_setBlock_self, hh2, block_setBlock_of_apart _ _ (by omega), block_setBlock_self]
  have hcb : h3.block c = { h.block c with next := oldEnd } := by
    rw [block_setBlock_of_apart _ _ (by omega), block_setBlock_self, b1 c (by simp)]
  have hlb : ∀ x ∈ l, h3.block x = h.block x := fun x hx => by
    have := hl x hx
    rw [block_setBlock_of_apart _ _ (by omega), block_setBlock_of_apart _ _ (by omega),
      b1 x (by simp [hx])]
  rw [List.append_assoc]
  refine ⟨{ h3 with totalAllocated := h.totalAllocated + size }, ?_, ?_, ?_, ?_, ?_, ?_⟩
  · simp only [appendBlock, ← hh1, hwalk, e1, e2]
    rw [if_neg (by simpa [hh3, hh2, hh1] using hfit)]
    simp [hh3, hh2, hh1, e3]
  · refine Blocks.replace (u := []) (t := [oldEnd]) hb rfl rfl hlb (by simp) (by simp)
      (by simp [hcb]) ?_ ?_ ?_ ?_ ?_
    · have hadj : Adj h3.block c oldEnd :=
        ⟨by simp [hcb], by simp [ho], by simpa [hcb] using hc, .inr (by simp [ho])⟩
      simpa using hadj
    · intro x hx
      have := (hs.left x hx).apart
      simpa [hcb] using this
    · rintro - b hbm
      obtain rfl : oldEnd = b := by simpa using hbm
      simp [ho, hfit]
    · intro b hbm
      rcases List.mem_cons.mp hbm with rfl | hbm
      · simpa [hcb] using hb.aligned b (by simp)
      · obtain rfl : b = oldEnd := by simpa using hbm
        simp [ho, ho8, hs8]
    · have u1 : usedSize h3.block c = usedSize h.block c := by simp [usedSize, hcb]
      have u2 : usedSize h3.block oldEnd = size := by simp [usedSize, ho]
      simp only [block_totalAllocated, List.map_cons, List.map_nil, List.sum_cons,
        List.sum_nil, ht, List.map_append, List.sum_append]
      omega
  · simp [hh3, hh2, hh1]
  · simp [ho]
  · simp [ho]
  · intro x hx
    rcases List.mem_append.mp hx with hx | hx
    · simp [Kept, hlb x hx]
    · obtain rfl : x = c := by simpa using hx
      simp [Kept, hcb]

end Grow

end FrostByte
