import FrostByte.Heap.Take

/-!
# `kfree` on the block list

`kfree` marks a block free and merges it with the next and the previous block, if free. Between the
two merges the list may hold two free neighbours; `Merged` is everything about the list but that.

## Main definitions

* `Merged` — the list while neighbours may both be free.

## Main results

* `Merged.mergeNext`, `Merged.mergePrev` — the two merges.
* `kfree_spec` — what `kfree` does to the list.
-/

namespace FrostByte

open Word Heap

/-! ## One merge -/

/-- In `g'` the block `p` has absorbed the block `q` behind it. -/
structure Absorbed (g g' : ℕ → HeapBlock) (p q : ℕ) : Prop where
  size : (g' p).size = (g p).size + 16 + (g q).size
  free : (g' p).free = (g p).free
  next : (g' p).next = (g q).next
  prev : (g' p).prev = (g p).prev
  linked : (g q).next ≠ 0 → g' (g q).next = { g (g q).next with prev := p }
  rest : ∀ x, x + 16 ≤ p ∨ p + 16 ≤ x →
    ((g q).next ≠ 0 → x + 16 ≤ (g q).next ∨ (g q).next + 16 ≤ x) → g' x = g x

variable {a p : ℕ} {h h' : Heap} {l r u : List ℕ}

lemma Absorbed.of_block {g g' : ℕ → HeapBlock} {q : ℕ}
    (hp : g' p = { g p with size := (g p).size + 16 + (g q).size, next := (g q).next })
    (hlinked : (g q).next ≠ 0 → g' (g q).next = { g (g q).next with prev := p })
    (hrest : ∀ x, x + 16 ≤ p ∨ p + 16 ≤ x →
      ((g q).next ≠ 0 → x + 16 ≤ (g q).next ∨ (g q).next + 16 ≤ x) → g' x = g x) :
    Absorbed g g' p q :=
  ⟨by rw [hp], by rw [hp], by rw [hp], by rw [hp], hlinked, hrest⟩

lemma mergeNext_absorbed {y : ℕ} (hay : (h.block a).next = y) (hy : y ≠ 0)
    (hfree : (h.block y).free ≠ 0) (hfit : a + 16 ≤ y)
    (hz : (h.block y).next ≠ 0 → y + 16 ≤ (h.block y).next)
    (hlt : (h.block a).size + 16 + (h.block y).size < 0x100000000) :
    Absorbed h.block (mergeNext h a).block a y := by
  subst hay
  have hs : w32 ((h.block a).size + (16 + (h.block (h.block a).next).size)) =
      (h.block a).size + 16 + (h.block (h.block a).next).size := by
    rw [← Nat.add_assoc, w32_of_lt hlt]
  simp only [mergeNext, hy, hfree, ne_eq, not_false_eq_true, and_self, if_true, hs,
    block_setBlock_of_apart _ _ (Or.inl hfit)]
  by_cases hn : (h.block (h.block a).next).next = 0
  · -- the absorbed block was the last one
    simp only [hn, not_true_eq_false, if_false]
    refine .of_block (by simp [hn]) (fun h0 => absurd hn h0) fun x hx _ => ?_
    rw [block_setBlock_of_apart _ _ hx.symm, block_setBlock_of_apart _ _ hx.symm]
  · simp only [hn, not_false_eq_true, if_true]
    have han : (h.block (h.block a).next).next + 16 ≤ a ∨
        a + 16 ≤ (h.block (h.block a).next).next := .inr (by omega)
    apply Absorbed.of_block
    · simp [block_setBlock_of_apart _ _ han]
    · intro _
      rw [block_setBlock_of_apart _ _ (by omega), block_setBlock_self,
        block_setBlock_of_apart _ _ (by omega)]
    · intro x hx hxz
      rw [block_setBlock_of_apart _ _ hx.symm,
        block_setBlock_of_apart _ _ (hxz hn).symm, block_setBlock_of_apart _ _ hx.symm]

lemma mergePrev_absorbed (hap : (h.block a).prev = p) (hp : p ≠ 0)
    (hfree : (h.block p).free ≠ 0) (hfit : p + 16 ≤ a)
    (hz : (h.block a).next ≠ 0 → a + 16 ≤ (h.block a).next)
    (hlt : (h.block p).size + 16 + (h.block a).size < 0x100000000) :
    Absorbed h.block (mergePrev h a).block p a := by
  subst hap
  have hs : w32 ((h.block (h.block a).prev).size + (16 + (h.block a).size)) =
      (h.block (h.block a).prev).size + 16 + (h.block a).size := by
    rw [← Nat.add_assoc, w32_of_lt hlt]
  simp only [mergePrev, hp, hfree, ne_eq, not_false_eq_true, and_self, if_true, hs,
    block_setBlock_of_apart _ _ (Or.inl hfit)]
  by_cases hn : (h.block a).next = 0
  · simp only [hn, not_true_eq_false, if_false]
    refine .of_block (by simp [hn]) (fun h0 => absurd hn h0) fun x hx _ => ?_
    rw [block_setBlock_of_apart _ _ hx.symm, block_setBlock_of_apart _ _ hx.symm]
  · simp only [hn, not_false_eq_true, if_true]
    have hpn : (h.block a).next + 16 ≤ (h.block a).prev ∨
        (h.block a).prev + 16 ≤ (h.block a).next := .inr (by omega)
    apply Absorbed.of_block
    · simp [block_setBlock_of_apart _ _ hpn]
    · intro _
      rw [block_setBlock_self, block_setBlock_of_apart _ _ hpn.symm,
        block_setBlock_of_apart _ _ hpn.symm]
    · intro x hx hxz
      rw [block_setBlock_of_apart _ _ (hxz hn).symm,
        block_setBlock_of_apart _ _ hx.symm, block_setBlock_of_apart _ _ hx.symm]

lemma mergeNext_globals (h : Heap) (a : ℕ) : (mergeNext h a).heapStart = h.heapStart ∧
    (mergeNext h a).heapEnd = h.heapEnd ∧ (mergeNext h a).totalAllocated = h.totalAllocated := by
  simp only [mergeNext]
  split_ifs <;> exact ⟨rfl, rfl, rfl⟩

lemma mergePrev_globals (h : Heap) (a : ℕ) : (mergePrev h a).heapStart = h.heapStart ∧
    (mergePrev h a).heapEnd = h.heapEnd ∧ (mergePrev h a).totalAllocated = h.totalAllocated := by
  simp only [mergePrev]
  split_ifs <;> exact ⟨rfl, rfl, rfl⟩

/-! ## Merging inside the list -/

/-- In `h'` the free block `p` stands for a stretch of the list of `h` between `l` and `r`. -/
structure Merged (h h' : Heap) (l : List ℕ) (p : ℕ) (r : List ℕ) : Prop where
  start : h'.heapStart = h.heapStart
  endEq : h'.heapEnd = h.heapEnd
  total : h'.totalAllocated =
    (l.map (usedSize h.block)).sum + (r.map (usedSize h.block)).sum
  left : ∀ x ∈ l, h'.block x = h.block x
  prev : (h'.block p).prev = (h.block p).prev
  free : (h'.block p).free ≠ 0
  next : (h'.block p).next = r.head?.getD 0
  size8 : (h'.block p).size % 8 = 0
  fits : ∀ y ∈ r, p + 16 + (h'.block p).size ≤ y
  fitsEnd : p + 16 + (h'.block p).size ≤ h.heapEnd
  kept : ∀ y ∈ r, Kept h h' y ∧ (h'.block y).next = (h.block y).next
  headPrev : ∀ y ∈ r.head?, (h'.block y).prev = p
  tailPrev : ∀ y ∈ r.tail, (h'.block y).prev = (h.block y).prev

lemma Blocks.of_merged (hb : Blocks h (l ++ p :: (u ++ r))) (hm : Merged h h' l p r)
    (hleft : ∀ x ∈ l.getLast?, (h.block x).free = 0)
    (hright : ∀ y ∈ r.head?, (h.block y).free = 0) : Blocks h' (l ++ p :: r) := by
  refine Blocks.replace (t := []) hb hm.start hm.endEq hm.left hm.kept hm.tailPrev
    hm.prev ?_ (fun x hx => .inl (hleft x hx)) ?_ ?_ ?_
  · cases r with
    | nil => exact List.isChain_singleton _
    | cons y r =>
      have hadj : Adj h'.block p y := by
        refine ⟨by simpa using hm.next, hm.headPrev y (by simp), hm.fits y (by simp), .inr ?_⟩
        rw [(hm.kept y (by simp)).1.2]
        exact hright y (by simp)
      simpa using hadj
  · rintro rfl b hbm
    obtain rfl : p = b := by simpa using hbm
    exact ⟨by simpa using hm.next, hm.fitsEnd⟩
  · intro b hbm
    obtain rfl : b = p := by simpa using hbm
    exact ⟨(hb.aligned b (by simp)).1, hm.size8⟩
  · have hu : usedSize h'.block p = 0 := by simp [usedSize, hm.free]
    simp [hu, hm.total]

/-- The block at `a` is marked free and no longer counted. -/
def markFree (h : Heap) (a : ℕ) : Heap :=
  { h.setBlock a { h.block a with free := 1 } with
    totalAllocated := sub32 h.totalAllocated (h.block a).size }

lemma block_markFree_self (h : Heap) (a : ℕ) :
    (markFree h a).block a = { h.block a with free := 1 } := by
  rw [markFree, block_totalAllocated, block_setBlock_self]

lemma block_markFree_of_apart (h : Heap) {x : ℕ} (hx : a + 16 ≤ x ∨ x + 16 ≤ a) :
    (markFree h a).block x = h.block x := by
  rw [markFree, block_totalAllocated, block_setBlock_of_apart _ _ hx]

lemma kfree_eq (ha : a + 16 < 0x100000000) :
    kfree (a + 16) h = mergePrev (mergeNext (markFree h a) a) a := by
  have hsub : sub32 (a + 16) 16 = a := by rw [sub32_of_le (by omega) ha]; omega
  rw [kfree, if_neg (by omega)]
  simp [hsub, block_setBlock_self, setBlock_totalAllocated, markFree]

lemma merged_markFree (hb : Blocks h (l ++ a :: r))
    (hused : (h.block a).free = 0) : Merged h (markFree h a) l a r := by
  have hs := hb.split
  have hlt := hb.endLt
  have hra := hb.mem_range (b := a) (by simp)
  have hself : (markFree h a).block a = { h.block a with free := 1 } := block_markFree_self h a
  have hleft : ∀ x ∈ l, (markFree h a).block x = h.block x := fun x hx =>
    block_markFree_of_apart h (by have := hs.before x hx; omega)
  have hright : ∀ y ∈ r, (markFree h a).block y = h.block y := fun y hy =>
    block_markFree_of_apart h (by have := hs.behind y hy; omega)
  have ht := hb.total
  have hsum := hb.sum_size_le
  have hul := sum_used_le h.block (l ++ a :: r)
  have hua : usedSize h.block a = (h.block a).size := by simp [usedSize, hused]
  simp only [List.map_append, List.map_cons, List.sum_append, List.sum_cons] at ht hsum hul
  constructor
  · rfl
  · rfl
  · have hle : h.totalAllocated < 0x100000000 := by omega
    simp only [markFree, sub32_of_le (show (h.block a).size ≤ h.totalAllocated by omega) hle]
    omega
  · exact hleft
  · rw [hself]
  · simp [hself]
  · rw [hself]
    cases r with
    | nil => simpa using hs.nextZero rfl
    | cons y r => simpa using hs.headEq y (by simp)
  · rw [hself]
    exact (hb.aligned a (by simp)).2
  · rw [hself]
    exact hs.behind
  · rw [hself]
    exact hra.2
  · intro y hy
    simp [Kept, hright y hy]
  · intro y hy
    rw [hright y (List.mem_of_head? hy)]
    exact (hs.right y hy).prev
  · intro y hy
    rw [hright y (List.mem_of_mem_tail hy)]

lemma mem_head_or_tail {α : Type*} {r : List α} {z : α} (hz : z ∈ r) :
    z ∈ r.head? ∨ z ∈ r.tail := by
  cases r with
  | nil => simp at hz
  | cons v r => simpa [eq_comm] using hz

lemma Absorbed.behind {g g' : ℕ → HeapBlock} {q : ℕ} (hab : Absorbed g g' p q)
    (hnext : (g q).next = r.head?.getD 0) (h0 : ∀ z ∈ r, z ≠ 0) (hpr : ∀ z ∈ r, p + 16 ≤ z)
    (hsr : r.Pairwise fun x y => x + 16 ≤ y) :
    (∀ x, x + 16 ≤ p → g' x = g x) ∧ (∀ z ∈ r.head?, g' z = { g z with prev := p }) ∧
      ∀ z ∈ r.tail, g' z = g z := by
  cases r with
  | nil =>
    exact ⟨fun x hx => hab.rest x (.inl hx) (by simp [hnext]), by simp, by simp⟩
  | cons v r =>
    simp only [List.head?_cons, Option.getD_some] at hnext
    have hpv := hpr v (by simp)
    refine ⟨fun x hx => hab.rest x (.inl hx) fun _ => ?_, ?_, ?_⟩
    · omega
    · intro z hz
      obtain rfl : v = z := by simpa using hz
      have := hab.linked (by rw [hnext]; exact h0 v (by simp))
      rwa [hnext] at this
    · intro z hz
      have h1 := (List.pairwise_cons.mp hsr).1 z hz
      refine hab.rest z (.inr (by omega)) fun _ => ?_
      rw [hnext]
      exact .inr h1

lemma Merged.absorb_next {h'' : Heap} {y : ℕ}
    (hb : Blocks h (l ++ p :: (u ++ y :: r))) (hm : Merged h h' l p (y :: r))
    (hfree : (h.block y).free ≠ 0) (hab : Absorbed h'.block h''.block p y)
    (hg : h''.heapStart = h'.heapStart ∧ h''.heapEnd = h'.heapEnd ∧
      h''.totalAllocated = h'.totalAllocated) : Merged h h'' l p r := by
  have hbs : Blocks h ((l ++ p :: u) ++ y :: r) := by simpa using hb
  have hs := hbs.split
  have hky := hm.kept y (by simp)
  have hny : (h'.block y).next = r.head?.getD 0 := by
    rw [hky.2]
    cases r with
    | nil => simpa using hs.nextZero rfl
    | cons z r => simpa using hs.headEq z (by simp)
  have hl : ∀ x ∈ l, x + 16 ≤ p := fun x hx => by
    have := (Blocks.split hb).before x hx
    omega
  have hpy := hm.fits y (by simp)
  obtain ⟨hrest, hhead, htail⟩ := hab.behind hny (fun z hz => hb.ne_zero (by simp [hz]))
    (fun z hz => by have := hs.behind z hz; omega)
    ((pairwise_of_isChain_adj hs.chainR).imp fun hxy => by omega)
  have hsize : p + 16 + (h''.block p).size ≤ y + 16 + (h.block y).size := by
    rw [hab.size, hky.1.1]
    omega
  constructor
  · rw [hg.1, hm.start]
  · rw [hg.2.1, hm.endEq]
  · have hu : usedSize h.block y = 0 := by simp [usedSize, hfree]
    rw [hg.2.2, hm.total]
    simp [hu]
  · intro x hx
    rw [hrest x (hl x hx), hm.left x hx]
  · rw [hab.prev, hm.prev]
  · rw [hab.free]; exact hm.free
  · rw [hab.next, hny]
  · have h1 := hm.size8
    have h2 := (hbs.aligned y (by simp)).2
    rw [hab.size, hky.1.1]
    omega
  · intro z hz
    have := hs.behind z hz
    omega
  · have := (hbs.mem_range (b := y) (by simp)).2
    omega
  · intro z hz
    have hkz := hm.kept z (.tail _ hz)
    rcases mem_head_or_tail hz with hz | hz
    · rw [Kept, hhead z hz]
      exact hkz
    · rw [Kept, htail z hz]
      exact hkz
  · intro z hz
    rw [hhead z hz]
  · intro z hz
    rw [htail z hz]
    exact hm.tailPrev z (by simpa using List.mem_of_mem_tail hz)

lemma Merged.absorb_prev {h'' : Heap}
    (hb : Blocks h (l ++ p :: (a :: u ++ r))) (hm : Merged h h' (l ++ [p]) a r)
    (hfree : (h.block p).free ≠ 0) (hab : Absorbed h'.block h''.block p a)
    (hg : h''.heapStart = h'.heapStart ∧ h''.heapEnd = h'.heapEnd ∧
      h''.totalAllocated = h'.totalAllocated) : Merged h h'' l p r := by
  have hsp : Blocks.Split h l p (a :: u ++ r) := hb.split
  have hpa := hsp.behind a (by simp)
  have hp : h'.block p = h.block p := hm.left p (by simp)
  have hpr : ∀ y ∈ r, a + 16 ≤ y := fun y hy => by have := hm.fits y hy; omega
  have hsr : r.Pairwise fun x y => x + 16 + (h.block x).size ≤ y :=
    (List.pairwise_append.mp (pairwise_of_isChain_adj hsp.chainR)).2.1
  obtain ⟨hrest, hhead, htail⟩ := hab.behind hm.next (fun z hz => hb.ne_zero (by simp [hz]))
    (fun z hz => by have := hpr z hz; omega) (hsr.imp fun hxy => by omega)
  have hsize : p + 16 + (h''.block p).size ≤ a + 16 + (h'.block a).size := by
    rw [hab.size, hp]
    omega
  constructor
  · rw [hg.1, hm.start]
  · rw [hg.2.1, hm.endEq]
  · have hu : usedSize h.block p = 0 := by simp [usedSize, hfree]
    rw [hg.2.2, hm.total]
    simp [hu]
  · intro x hx
    have hxp := hsp.before x hx
    rw [hrest x (by omega), hm.left x (by simp [hx])]
  · rw [hab.prev, hp]
  · rw [hab.free, hp]; exact hfree
  · rw [hab.next, hm.next]
  · have h1 := hm.size8
    have h2 := (hb.aligned p (by simp)).2
    rw [hab.size, hp]
    omega
  · intro z hz
    have := hm.fits z hz
    omega
  · have := hm.fitsEnd
    omega
  · intro z hz
    have hkz := hm.kept z hz
    rcases mem_head_or_tail hz with hz | hz
    · rw [Kept, hhead z hz]
      exact hkz
    · rw [Kept, htail z hz]
      exact hkz
  · intro z hz
    rw [hhead z hz]
  · intro z hz
    rw [htail z hz]
    exact hm.tailPrev z hz

/-- Merging with the next block takes it off the list if it is free, and the block behind it is then
in use. -/
lemma Merged.mergeNext (hb : Blocks h (l ++ a :: r))
    (hm : Merged h h' l a r) : ∃ u r', r = u ++ r' ∧ Merged h (mergeNext h' a) l a r' ∧
      (∀ y ∈ u, (h.block y).free ≠ 0) ∧ ∀ y ∈ r'.head?, (h.block y).free = 0 := by
  cases r with
  | nil =>
    have hn : FrostByte.mergeNext h' a = h' := by
      have := hm.next
      simp [FrostByte.mergeNext, this]
    exact ⟨[], [], rfl, by rwa [hn], by simp, by simp⟩
  | cons y r =>
    have hn : (h'.block a).next = y := by simpa using hm.next
    have hky := hm.kept y (by simp)
    by_cases hfree : (h.block y).free = 0
    · have hskip : FrostByte.mergeNext h' a = h' := by
        simp [FrostByte.mergeNext, hn, hky.1.2, hfree]
      exact ⟨[], y :: r, rfl, by rwa [hskip], by simp, by simpa using hfree⟩
    · have hbs : Blocks h ((l ++ [a]) ++ y :: r) := by simpa using hb
      have hs := hbs.split
      have hlt := hb.endLt
      have hry := hbs.mem_range (b := y) (by simp)
      have hay := hm.fits y (by simp)
      have hz : ∀ z ∈ r.head?, (h.block z).free = 0 := fun z hz =>
        (hs.right z hz).apart.resolve_left hfree
      have hab : Absorbed h'.block (FrostByte.mergeNext h' a).block a y := by
        refine mergeNext_absorbed hn (hb.ne_zero (by simp)) (by rwa [hky.1.2]) (by omega) ?_ ?_
        · intro h0
          rw [hky.2] at h0 ⊢
          cases r with
          | nil => exact absurd (hs.nextZero rfl) h0
          | cons z r =>
            have := hs.behind z (by simp)
            rw [hs.headEq z (by simp)]
            omega
        · rw [hky.1.1]
          omega
      refine ⟨[y], r, rfl, ?_, by simpa using hfree, hz⟩
      exact Merged.absorb_next (u := []) hb hm hfree hab (mergeNext_globals h' a)

/-- Merging with the previous block, which then stands for both. -/
lemma Merged.mergePrev (hb : Blocks h (l ++ a :: (u ++ r))) (hm : Merged h h' l a r) :
    (Merged h (mergePrev h' a) l a r ∧ ∀ x ∈ l.getLast?, (h.block x).free = 0) ∨
      ∃ l' p, l = l' ++ [p] ∧ (h.block p).free ≠ 0 ∧ Merged h (mergePrev h' a) l' p r ∧
        ∀ x ∈ l'.getLast?, (h.block x).free = 0 := by
  have hs : Blocks.Split h l a (u ++ r) := hb.split
  rcases l.eq_nil_or_concat with rfl | ⟨l, p, rfl⟩
  · left
    have hskip : FrostByte.mergePrev h' a = h' := by
      simp [FrostByte.mergePrev, hm.prev, hs.prevZero rfl]
    exact ⟨by rwa [hskip], by simp⟩
  · rw [List.concat_eq_append] at *
    have hp : (h'.block a).prev = p := by rw [hm.prev, hs.prevEq p (by simp)]
    have hpb : h'.block p = h.block p := hm.left p (by simp)
    by_cases hfree : (h.block p).free = 0
    · left
      have hskip : FrostByte.mergePrev h' a = h' := by
        simp [FrostByte.mergePrev, hp, hpb, hfree]
      exact ⟨by rwa [hskip], by simpa using hfree⟩
    · right
      have hb' : Blocks h (l ++ p :: (a :: u ++ r)) := by simpa using hb
      have hsp := hb'.split
      have hpa := hsp.behind a (by simp)
      have hlt := hb.endLt
      have hend := hm.fitsEnd
      have hab : Absorbed h'.block (FrostByte.mergePrev h' a).block p a := by
        refine mergePrev_absorbed hp (hb.ne_zero (by simp)) (by rwa [hpb]) (by omega) ?_ ?_
        · intro h0
          rw [hm.next] at h0 ⊢
          cases r with
          | nil => simp at h0
          | cons z r =>
            have := hm.fits z (by simp)
            simp only [List.head?_cons, Option.getD_some]
            omega
        · rw [hpb]
          omega
      refine ⟨l, p, rfl, hfree, ?_, fun x hx => (hsp.left x hx).apart.resolve_right hfree⟩
      exact Merged.absorb_prev hb' hm hfree hab (mergePrev_globals h' a)

/-- **Freeing a block** keeps the heap well formed and the other used blocks. One merge in each
direction is enough, since no two neighbours are free. -/
lemma kfree_spec (hb : Blocks h (l ++ a :: r)) (hused : (h.block a).free = 0) :
    (kfree (a + 16) h).heapEnd = h.heapEnd ∧ ∃ bs, Blocks (kfree (a + 16) h) bs ∧
      ∀ x ∈ l ++ r, (h.block x).free = 0 → x ∈ bs ∧ Kept h (kfree (a + 16) h) x := by
  have hra := hb.mem_range (b := a) (by simp)
  have hlt := hb.endLt
  rw [kfree_eq (by omega)]
  obtain ⟨u, r, rfl, hm, hu, hr⟩ := (merged_markFree hb hused).mergeNext hb
  -- a used block behind `a` is not among the absorbed ones
  have hbehind : ∀ x ∈ u ++ r, (h.block x).free = 0 → x ∈ r := fun x hx hx0 =>
    (List.mem_append.mp hx).resolve_left fun hxu => hu x hxu hx0
  rcases hm.mergePrev hb with ⟨hm', hl⟩ | ⟨l', p, rfl, hp, hm', hl⟩
  · refine ⟨hm'.endEq, l ++ a :: r, hb.of_merged hm' hl hr, fun x hx hx0 => ?_⟩
    rcases List.mem_append.mp hx with hx | hx
    · exact ⟨by simp [hx], by simp [Kept, hm'.left x hx]⟩
    · have hxr := hbehind x hx hx0
      exact ⟨by simp [hxr], (hm'.kept x hxr).1⟩
  · have hb' : Blocks h (l' ++ p :: ((a :: u) ++ r)) := by simpa using hb
    refine ⟨hm'.endEq, l' ++ p :: r, hb'.of_merged hm' hl hr, fun x hx hx0 => ?_⟩
    rcases List.mem_append.mp hx with hx | hx
    · have hxl : x ∈ l' := (List.mem_append.mp hx).resolve_right fun hxp => by
        rw [List.mem_singleton.mp hxp] at hx0
        exact hp hx0
      exact ⟨by simp [hxl], by simp [Kept, hm'.left x hxl]⟩
    · have hxr := hbehind x hx hx0
      exact ⟨by simp [hxr], (hm'.kept x hxr).1⟩

end FrostByte
