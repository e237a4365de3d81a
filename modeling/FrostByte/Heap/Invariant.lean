import Mathlib.Data.List.Chain
import Mathlib.Algebra.Order.BigOperators.Group.List
import Mathlib.Algebra.Order.Group.Nat
import FrostByte.Heap.Model

/-!
# The block list of the kernel heap

The invariant of `src/mm/heap.c` between calls: the blocks reached from `heap_start` by `next`
lie one after the other inside the heap, `prev` inverts `next`, and no two neighbours are free.
Neighbours in the list need not touch in memory.

## Main definitions

* `Adj` — two neighbours of the list.
* `Blocks` — the blocks of the heap, in the order of the list.
* `Kept` — a block that a step has not changed.

## Main results

* `Blocks.replace` — a part of the list is exchanged for another one.
* `blocks_heapInit` — the list after `heap_init`.
-/

namespace FrostByte

open Word

/-! ## Chains with a distinguished element -/

lemma isChain_mid {α : Type*} {R : α → α → Prop} {l r : List α} {a : α} : (l ++ a :: r).IsChain R ↔
      l.IsChain R ∧ r.IsChain R ∧ (∀ x ∈ l.getLast?, R x a) ∧ ∀ y ∈ r.head?, R a y := by
  rw [List.isChain_append, List.isChain_cons]
  simp only [List.head?_cons, Option.mem_def, Option.some.injEq, forall_eq']
  tauto

/-! ## Reading headers -/

namespace Heap

@[simp] lemma block_setBlock_self (h : Heap) (b : ℕ) (x : HeapBlock) :
    (h.setBlock b x).block b = x := by
  simp [block, setBlock]

lemma block_setBlock_of_apart (h : Heap) {b c : ℕ} (x : HeapBlock)
    (hbc : b + 16 ≤ c ∨ c + 16 ≤ b) : (h.setBlock b x).block c = h.block c := by
  simp only [block, setBlock, Function.update_apply, HeapBlock.mk.injEq]
  refine ⟨?_, ?_, ?_, ?_⟩ <;> split_ifs <;> first | rfl | omega

lemma block_overlay (h : Heap) {b va : ℕ} (page : ℕ → ℕ) (hb : b + 16 ≤ va) :
    ({ h with mem := overlay h.mem va page } : Heap).block b = h.block b := by
  simp only [block, overlay, HeapBlock.mk.injEq]
  refine ⟨?_, ?_, ?_, ?_⟩ <;> rw [if_neg (by omega)]

@[simp] lemma setBlock_heapStart (h : Heap) (b : ℕ) (x : HeapBlock) :
    (h.setBlock b x).heapStart = h.heapStart := rfl

@[simp] lemma setBlock_heapEnd (h : Heap) (b : ℕ) (x : HeapBlock) :
    (h.setBlock b x).heapEnd = h.heapEnd := rfl

@[simp] lemma setBlock_totalAllocated (h : Heap) (b : ℕ) (x : HeapBlock) :
    (h.setBlock b x).totalAllocated = h.totalAllocated := rfl

@[simp] lemma block_totalAllocated (h : Heap) (t : ℕ) :
    ({ h with totalAllocated := t } : Heap).block = h.block := rfl

end Heap

/-! ## Neighbours -/

/-- Neighbours of the list: linked both ways, `a` before `b`, and not both free. -/
structure Adj (g : ℕ → HeapBlock) (a b : ℕ) : Prop where
  next : (g a).next = b
  prev : (g b).prev = a
  fits : a + 16 + (g a).size ≤ b
  apart : (g a).free = 0 ∨ (g b).free = 0

lemma isChain_adj_congr {g g' : ℕ → HeapBlock} : ∀ {l : List ℕ}, l.IsChain (Adj g) →
      (∀ x ∈ l, (g' x).next = (g x).next ∧ (g' x).size = (g x).size ∧ (g' x).free = (g x).free) →
      (∀ x ∈ l.tail, (g' x).prev = (g x).prev) → l.IsChain (Adj g')
  | [], _, _, _ => List.isChain_nil
  | [_], _, _, _ => List.isChain_singleton _
  | a :: b :: l, h, hg, hp => by
    obtain ⟨hab, hl⟩ := List.isChain_cons_cons.mp h
    obtain ⟨ha1, ha2, ha3⟩ := hg a (by simp)
    obtain ⟨-, -, hb3⟩ := hg b (by simp)
    refine List.isChain_cons_cons.mpr ⟨⟨?_, ?_, ?_, ?_⟩, isChain_adj_congr hl
      (fun x hx => hg x (.tail _ hx)) fun x hx => hp x (List.mem_of_mem_tail ?_)⟩
    · rw [ha1, hab.next]
    · rw [hp b (by simp), hab.prev]
    · rw [ha2]; exact hab.fits
    · rw [ha3, hb3]; exact hab.apart
    · exact hx

lemma pairwise_of_isChain_adj {g : ℕ → HeapBlock} {l : List ℕ} (h : l.IsChain (Adj g)) :
    l.Pairwise fun a b => a + 16 + (g a).size ≤ b := by
  have ht : IsTrans ℕ fun a b => a + 16 + (g a).size ≤ b := ⟨fun a b c hab hbc => by omega⟩
  exact (h.imp fun a b hab => hab.fits).pairwise

/-! ## The invariant -/

/-- The bytes of a block that is in use. -/
def usedSize (g : ℕ → HeapBlock) (b : ℕ) : ℕ := if (g b).free = 0 then (g b).size else 0

/-- `bs` is the block list of `h`, and the heap is well formed. -/
structure Blocks (h : Heap) (bs : List ℕ) : Prop where
  start : h.heapStart = kernelHeapStart
  head : bs.head? = some h.heapStart
  chain : bs.IsChain (Adj h.block)
  firstPrev : (h.block h.heapStart).prev = 0
  last : ∀ b ∈ bs.getLast?, (h.block b).next = 0 ∧ b + 16 + (h.block b).size ≤ h.heapEnd
  aligned : ∀ b ∈ bs, b % 8 = 0 ∧ (h.block b).size % 8 = 0
  endLt : h.heapEnd < 0x100000000
  endAligned : h.heapEnd % 4096 = 0
  total : h.totalAllocated = (bs.map (usedSize h.block)).sum

namespace Blocks

variable {h : Heap} {bs : List ℕ}

lemma sorted (hb : Blocks h bs) : bs.Pairwise fun a b => a + 16 + (h.block a).size ≤ b :=
  pairwise_of_isChain_adj hb.chain

lemma mem_range (hb : Blocks h bs) {b : ℕ} (hm : b ∈ bs) :
    kernelHeapStart ≤ b ∧ b + 16 + (h.block b).size ≤ h.heapEnd := by
  have hs := hb.sorted
  constructor
  · cases bs with
    | nil => simp at hm
    | cons c l =>
      have hc : c = kernelHeapStart := by simpa [hb.start] using hb.head
      rcases List.mem_cons.mp hm with rfl | hl
      · exact hc.ge
      · have := (List.pairwise_cons.mp hs).1 b hl
        omega
  · obtain ⟨l, c, rfl⟩ : ∃ l c, bs = l ++ [c] := ⟨_, _, (List.dropLast_append_getLast
      (List.ne_nil_of_mem hm)).symm⟩
    have hc := (hb.last c (by simp)).2
    rcases List.mem_append.mp hm with hl | hl
    · have := (List.pairwise_append.mp hs).2.2 b hl c (by simp)
      omega
    · rw [List.mem_singleton.mp hl]
      exact hc

lemma apart (hb : Blocks h bs) {a b : ℕ} (ha : a ∈ bs) (hbm : b ∈ bs) (hne : a ≠ b) :
    a + 16 + (h.block a).size ≤ b ∨ b + 16 + (h.block b).size ≤ a := by
  have hsymm : Std.Symm fun a b =>
      a + 16 + (h.block a).size ≤ b ∨ b + 16 + (h.block b).size ≤ a := ⟨fun _ _ => Or.symm⟩
  have hp : bs.Pairwise fun a b =>
      a + 16 + (h.block a).size ≤ b ∨ b + 16 + (h.block b).size ≤ a := hb.sorted.imp Or.inl
  exact hp.forall ha hbm hne

lemma ne_zero (hb : Blocks h bs) {b : ℕ} (hm : b ∈ bs) : b ≠ 0 := by
  have := (hb.mem_range hm).1
  simp only [kernelHeapStart] at this
  omega

/-- A block `a` with the blocks `l` before and `r` behind it. -/
structure Split (h : Heap) (l : List ℕ) (a : ℕ) (r : List ℕ) : Prop where
  chainL : l.IsChain (Adj h.block)
  chainR : r.IsChain (Adj h.block)
  before : ∀ x ∈ l, x + 16 + (h.block x).size ≤ a
  behind : ∀ y ∈ r, a + 16 + (h.block a).size ≤ y
  left : ∀ x ∈ l.getLast?, Adj h.block x a
  right : ∀ y ∈ r.head?, Adj h.block a y
  headEq : ∀ y ∈ r.head?, (h.block a).next = y
  nextZero : r = [] → (h.block a).next = 0
  prevEq : ∀ x ∈ l.getLast?, (h.block a).prev = x
  prevZero : l = [] → (h.block a).prev = 0

lemma split {l r : List ℕ} {a : ℕ} (hb : Blocks h (l ++ a :: r)) : Split h l a r := by
  obtain ⟨hl, hr, hla, har⟩ := isChain_mid.mp hb.chain
  have hs := hb.sorted
  rw [List.pairwise_append, List.pairwise_cons] at hs
  refine ⟨hl, hr, fun x hx => hs.2.2 x hx a (by simp), fun y hy => hs.2.1.1 y hy, hla, har,
    fun y hy => (har y hy).next, ?_, fun x hx => (hla x hx).prev, ?_⟩
  · rintro rfl
    exact (hb.last a (by simp)).1
  · rintro rfl
    have : a = h.heapStart := by simpa using hb.head
    rw [this]
    exact hb.firstPrev

end Blocks

lemma sum_size_le (g : ℕ → HeapBlock) {hi : ℕ} : ∀ {l : List ℕ} {lo : ℕ}, lo ≤ hi →
    l.Pairwise (fun a b => a + 16 + (g a).size ≤ b) →
    (∀ b ∈ l, lo ≤ b ∧ b + 16 + (g b).size ≤ hi) → (l.map fun b => (g b).size).sum ≤ hi - lo
  | [], lo, _, _, _ => by simp
  | a :: l, lo, hlo, hp, hr => by
    obtain ⟨ha, hl⟩ := List.pairwise_cons.mp hp
    obtain ⟨ha1, ha2⟩ := hr a (by simp)
    have ih := @sum_size_le g hi l (a + 16 + (g a).size) (by omega) hl
      fun b hb => ⟨ha b hb, (hr b (.tail _ hb)).2⟩
    simp only [List.map_cons, List.sum_cons]
    omega

lemma sum_used_le (g : ℕ → HeapBlock) (l : List ℕ) :
    (l.map (usedSize g)).sum ≤ (l.map fun b => (g b).size).sum := by
  refine List.sum_le_sum fun b _ => ?_
  unfold usedSize
  split_ifs
  · exact le_rfl
  · exact Nat.zero_le _

lemma Blocks.sum_size_le {h : Heap} {bs : List ℕ} (hb : Blocks h bs) :
    (bs.map fun b => (h.block b).size).sum ≤ h.heapEnd - kernelHeapStart := by
  refine FrostByte.sum_size_le h.block ?_ hb.sorted fun b hm => hb.mem_range hm
  cases bs with
  | nil => simpa using hb.head
  | cons c l =>
    have := hb.mem_range (b := c) (by simp)
    omega

/-- A step keeps the size and the flag of the block at `x`. -/
def Kept (h h' : Heap) (x : ℕ) : Prop :=
  (h'.block x).size = (h.block x).size ∧ (h'.block x).free = (h.block x).free

lemma sum_used_congr {h h' : Heap} {l : List ℕ} (hk : ∀ x ∈ l, Kept h h' x) :
    (l.map (usedSize h'.block)).sum = (l.map (usedSize h.block)).sum := by
  congr 1
  refine List.map_congr_left fun x hx => ?_
  simp [usedSize, (hk x hx).1, (hk x hx).2]

lemma isChain_append_of_head {α : Type*} {R : α → α → Prop} {u r : List α}
    (hu : (u ++ r.head?.toList).IsChain R) (hr : r.IsChain R) : (u ++ r).IsChain R := by
  cases r with
  | nil => simpa using hu
  | cons y r => exact List.isChain_split.mpr ⟨by simpa using hu, hr⟩

/-- **Rewriting the list behind a block**: `l` up to `a`, new links from `a` through `t` to `r`, and
`r`. -/
lemma Blocks.replace {h h' : Heap} {l u t r : List ℕ} {a : ℕ} (hb : Blocks h (l ++ a :: (u ++ r)))
    (hstart : h'.heapStart = h.heapStart) (hend : h'.heapEnd = h.heapEnd)
    (hl : ∀ x ∈ l, h'.block x = h.block x)
    (hr : ∀ y ∈ r, Kept h h' y ∧ (h'.block y).next = (h.block y).next)
    (hrt : ∀ y ∈ r.tail, (h'.block y).prev = (h.block y).prev)
    (hprev : (h'.block a).prev = (h.block a).prev)
    (hmid : (a :: (t ++ r.head?.toList)).IsChain (Adj h'.block))
    (hleft : ∀ x ∈ l.getLast?, (h.block x).free = 0 ∨ (h'.block a).free = 0)
    (hlast : r = [] → ∀ b ∈ (a :: t).getLast?, (h'.block b).next = 0 ∧
      b + 16 + (h'.block b).size ≤ h.heapEnd)
    (haligned : ∀ b ∈ a :: t, b % 8 = 0 ∧ (h'.block b).size % 8 = 0)
    (htotal : h'.totalAllocated = (l.map (usedSize h.block)).sum +
      ((a :: t).map (usedSize h'.block)).sum + (r.map (usedSize h.block)).sum) :
    Blocks h' (l ++ a :: (t ++ r)) := by
  obtain ⟨hcl, hcr, hla, -⟩ := isChain_mid.mp hb.chain
  constructor
  · rw [hstart, hb.start]
  · rw [hstart, ← hb.head]
    cases l <;> rfl
  · have hcr' : r.IsChain (Adj h'.block) :=
      isChain_adj_congr (List.isChain_append.mp hcr).2.1
        (fun y hy => ⟨(hr y hy).2, (hr y hy).1.1, (hr y hy).1.2⟩) hrt
    have hcl' : l.IsChain (Adj h'.block) :=
      isChain_adj_congr hcl (fun x hx => by simp [hl x hx])
        fun x hx => by rw [hl x (List.mem_of_mem_tail hx)]
    refine List.isChain_split.mpr ⟨isChain_mid.mpr ⟨hcl', List.isChain_nil, ?_, by simp⟩, ?_⟩
    · intro x hx
      have hxl : x ∈ l := List.mem_of_getLast? hx
      have hxa := hla x hx
      refine ⟨?_, ?_, ?_, ?_⟩
      · rw [hl x hxl, hxa.next]
      · rw [hprev, hxa.prev]
      · rw [hl x hxl]; exact hxa.fits
      · rw [hl x hxl]; exact hleft x hx
    · have := isChain_append_of_head (u := a :: t) (by simpa using hmid) hcr'
      simpa using this
  · rw [hstart, ← hb.firstPrev]
    cases l with
    | nil =>
      have ha : a = h.heapStart := by simpa using hb.head
      rw [← ha, hprev]
    | cons c l =>
      have hc : c = h.heapStart := by simpa using hb.head
      rw [← hc, hl c (by simp)]
  · intro b hbm
    rw [hend]
    by_cases hnil : r = []
    · subst hnil
      refine hlast rfl b ?_
      simpa using hbm
    · have hbr : b ∈ r.getLast? := by
        have : (l ++ a :: (t ++ r)).getLast? = r.getLast? := by
          rw [show l ++ a :: (t ++ r) = (l ++ a :: t) ++
            r by simp, List.getLast?_append_of_ne_nil _ hnil]
        rwa [this] at hbm
      have hold := hb.last b (by
        rw [show l ++ a :: (u ++ r) = (l ++ a :: u) ++
          r by simp, List.getLast?_append_of_ne_nil _ hnil]
        exact hbr)
      have hk := hr b (List.mem_of_getLast? hbr)
      rw [hk.2, hk.1.1]
      exact hold
  · intro b hbm
    have hcases : b ∈ l ∨ b ∈ a :: t ∨ b ∈ r := by
      simpa [or_assoc] using hbm
    rcases hcases with hx | hx | hx
    · rw [hl b hx]
      exact hb.aligned b (by simp [hx])
    · exact haligned b hx
    · rw [(hr b hx).1.1]
      exact hb.aligned b (by simp [hx])
  · rw [hend]; exact hb.endLt
  · rw [hend]; exact hb.endAligned
  · have h1 := @sum_used_congr h h' l fun x hx => by simp [Kept, hl x hx]
    have h2 := @sum_used_congr h h' r fun y hy => (hr y hy).1
    rw [htotal]
    simp only [List.map_append, List.map_cons, List.sum_append, List.sum_cons, h2]
    omega

lemma Blocks.of_block_eq {h h' : Heap} {bs : List ℕ} (hb : Blocks h bs)
    (hstart : h'.heapStart = h.heapStart) (htotal : h'.totalAllocated = h.totalAllocated)
    (hblock : ∀ b ∈ bs, h'.block b = h.block b) (hend : h.heapEnd ≤ h'.heapEnd)
    (hlt : h'.heapEnd < 0x100000000) (hal : h'.heapEnd % 4096 = 0) : Blocks h' bs := by
  have hhead : h.heapStart ∈ bs := List.mem_of_head? hb.head
  constructor
  · rw [hstart, hb.start]
  · rw [hstart, hb.head]
  · refine isChain_adj_congr hb.chain (fun b hm => ?_) fun b hm => ?_
    · simp [hblock b hm]
    · rw [hblock b (List.mem_of_mem_tail hm)]
  · rw [hstart, hblock _ hhead, hb.firstPrev]
  · intro b hm
    have hlast := hb.last b hm
    rw [hblock b (List.mem_of_getLast? hm)]
    exact ⟨hlast.1, hlast.2.trans hend⟩
  · intro b hm
    rw [hblock b hm]
    exact hb.aligned b hm
  · exact hlt
  · exact hal
  · rw [htotal, hb.total]
    exact (sum_used_congr fun b hm => by simp [Kept, hblock b hm]).symm

/-- After `heap_init` the heap is one free block. -/
lemma blocks_heapInit {σ : Type} (src : PageSource σ) (h : Heap) (s s' : σ) (page : ℕ → ℕ)
    (ht : h.totalAllocated = 0) (hg : src.grab kernelHeapStart s = (some page, s')) :
    Blocks (heapInit src h s).1 [kernelHeapStart] := by
  have hblock : (heapInit src h s).1.block kernelHeapStart = ⟨4096 - 16, 1, 0, 0⟩ := by
    simp [heapInit, hg, Heap.block, Heap.setBlock]
  have hstart : (heapInit src h s).1.heapStart = kernelHeapStart := by simp [heapInit, hg]
  have hend : (heapInit src h s).1.heapEnd = kernelHeapStart + 4096 := by simp [heapInit, hg]
  have htotal : (heapInit src h s).1.totalAllocated = 0 := by simp [heapInit, hg, ht]
  constructor
  · exact hstart
  · simp [hstart]
  · exact List.isChain_singleton _
  · rw [hstart, hblock]
  · intro b hb
    obtain rfl : kernelHeapStart = b := by simpa using hb
    simp [hblock, hend]
  · intro b hb
    obtain rfl : b = kernelHeapStart := by simpa using hb
    simp [hblock, kernelHeapStart]
  · simp [hend, kernelHeapStart]
  · simp [hend, kernelHeapStart]
  · simp [htotal, usedSize, hblock]

end FrostByte
