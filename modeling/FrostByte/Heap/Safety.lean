import Mathlib.Data.List.Nodup
import FrostByte.Lib.Run
import FrostByte.Heap.Free

/-!
# Safety of the kernel heap

Runs of the allocator from a successful `heap_init`: calls of `kmalloc` and `kfree`, and writes of
the callers into the memory they were given. Nothing is assumed about the source of pages, which
may fail at any point of a growth.

## Main definitions

* `heapSystem` — the runs of the allocator and its callers.
* `HeapSafe` — blocks inside the heap, apart from each other, and counted.

## Main results

* `kmalloc_spec` — one call of `kmalloc` on the list.
* `heap_safe` — the heap is safe in all runs without a wrap.
* `kmalloc_fresh` — a pointer is good for its size.
* `heap_unsafe_after_wrap`, `kmalloc_max_size` — requests that break these.
-/

namespace FrostByte

open Word

/-! ## Requests -/

/-- The blocks met from `heap_start` along `next`. -/
inductive OnList (h : Heap) : ℕ → Prop
  | start : OnList h h.heapStart
  | next {b : ℕ} : OnList h b → (h.block b).next ≠ 0 → OnList h (h.block b).next

/-- Some free block of the list holds at least `size` bytes. -/
def HasFit (h : Heap) (size : ℕ) : Prop := ∃ b, OnList h b ∧ Fits h size b

/-- The size, the header and the rounding of a growth do not wrap. -/
def SizeFits (n : ℕ) : Prop := (n + 7) / 8 * 8 + 16 + 4095 < 0x100000000

/-- If no free block fits, the pages granted end below `2 ^ 32`. -/
def GrowthFits {σ : Type} (src : PageSource σ) (h : Heap) (s : σ) (n : ℕ) : Prop :=
  ¬ HasFit h (roundSize n) → h.heapEnd +
    4096 * pagesGranted src (pagesNeeded (w32 (roundSize n + 16))) h.heapEnd s < 0x100000000

variable {bs : List ℕ} {h : Heap} {n p : ℕ}

lemma Blocks.mem_of_onList (hb : Blocks h bs) {b : ℕ} (ho : OnList h b) : b ∈ bs := by
  induction ho with
  | start => exact List.mem_of_head? hb.head
  | @next b _ hn ih =>
    obtain ⟨l, r, rfl⟩ := List.append_of_mem ih
    have hs := hb.split
    cases r with
    | nil => exact absurd (hs.nextZero rfl) hn
    | cons y r =>
      rw [hs.headEq y (by simp)]
      simp

lemma roundSize_of_fits (hn : SizeFits n) : roundSize n = (n + 7) / 8 * 8 := by
  unfold SizeFits at hn
  unfold roundSize alignDown
  rw [w32_of_lt (by omega)]

lemma le_pagesNeeded (hn : SizeFits n) :
    roundSize n + 16 ≤ 4096 * pagesNeeded (w32 (roundSize n + 16)) := by
  rw [roundSize_of_fits hn]
  unfold SizeFits at hn
  unfold pagesNeeded
  rw [w32_of_lt (n := (n + 7) / 8 * 8 + 16) (by omega), w32_of_lt (by omega)]
  omega

/-! ## One call of `kmalloc` -/

section Kmalloc

variable {σ : Type} (src : PageSource σ)

/-- **One call** keeps the heap well formed and the used blocks, and gives a new one. -/
lemma kmalloc_spec (hb : Blocks h bs) {s : σ} (hn : SizeFits n) (hg : GrowthFits src h s n) :
    ∃ p h' s' bs', kmalloc src n h s = some (p, h', s') ∧ Blocks h' bs' ∧
      (∀ x ∈ bs, (h.block x).free = 0 → x ∈ bs' ∧ Kept h h' x) ∧
      (p ≠ 0 → ∃ b ∈ bs', p = b + 16 ∧ (h'.block b).free = 0 ∧ n ≤ (h'.block b).size ∧
        (b ∈ bs → (h.block b).free ≠ 0)) := by
  have hround := roundSize_of_fits hn
  have hs8 : roundSize n % 8 = 0 := by omega
  by_cases hn0 : n = 0
  · exact ⟨0, h, s, bs, by simp [kmalloc, hn0], hb, fun x hx _ => ⟨hx, rfl, rfl⟩, by simp⟩
  rcases findFree_spec hb (roundSize n) with ⟨hfind, hno⟩ | ⟨a, ha, hfit, hfind⟩
  · -- no block fits: the heap grows
    have hroom := hg fun ⟨b, hob, hfb⟩ => hno b (hb.mem_of_onList hob) hfb
    obtain ⟨hb1, hend, hblk, hall⟩ := expandPages_spec src _ h s hb hroom
    have hbk : ∀ b ∈ bs, (expandPages src (pagesNeeded (w32 (roundSize n + 16))) h s).2.1.block b =
        h.block b := fun b hbm => hblk b (by have := (hb.mem_range hbm).2; omega)
    rcases he : expandPages src (pagesNeeded (w32 (roundSize n + 16))) h s with ⟨_ | _, h1, s1⟩
    · simp only [he] at hb1 hbk
      refine ⟨0, h1, s1, bs, ?_, hb1, fun x hx _ => ⟨hx, ?_⟩, by simp⟩
      · simp [kmalloc, hn0, hfind, expandHeap, he]
      · simp [Kept, hbk x hx]
    · simp only [he] at hb1 hbk hend hall
      have hpages := le_pagesNeeded hn
      have hend' : h1.heapEnd = h.heapEnd + 4096 * pagesNeeded (w32 (roundSize n + 16)) := by
        rw [← hall trivial]; exact hend
      have hold : ∀ b ∈ bs, b + 16 + (h1.block b).size ≤ h.heapEnd := fun b hbm => by
        rw [hbk b hbm]
        exact (hb.mem_range hbm).2
      obtain ⟨h2, happ, hb2, -, hfree, hsize, hkept⟩ := appendBlock_spec hb1 hold
        (by have := hb.endAligned; omega) hs8 (by omega)
      refine ⟨h.heapEnd + 16, h2, s1, bs ++ [h.heapEnd], ?_, hb2, ?_, fun _ => ?_⟩
      · simp [kmalloc, hn0, hfind, expandHeap, he, happ]
      · intro x hx _
        have := hkept x hx
        rw [Kept, hbk x hx] at this
        exact ⟨by simp [hx], this⟩
      · refine ⟨h.heapEnd, by simp, rfl, hfree, by omega, fun hmem => ?_⟩
        have := (hb.mem_range hmem).2
        omega
  · -- a fitting block is taken
    obtain ⟨l, r, rfl⟩ := List.append_of_mem ha
    obtain ⟨hp, -, hfree, hsize, hkept, t, hb'⟩ := takeBlock_spec hb hfit hs8
    refine ⟨a + 16, (takeBlock h a (roundSize n)).2, s, l ++ a :: (t ++ r), ?_, hb', ?_, fun _ =>
      ?_⟩
    · simp [kmalloc, hn0, hfind, hb.ne_zero ha, hp]
    · intro x hx hx0
      have hxa : x ≠ a := by
        rintro rfl
        exact hfit.1 hx0
      have hxlr : x ∈ l ++ r := by simpa [hxa] using hx
      exact ⟨by rcases List.mem_append.mp hxlr with h1 | h1 <;> simp [h1], hkept x hxlr⟩
    · exact ⟨a, by simp, rfl, hfree, by omega, fun _ => hfit.1⟩

end Kmalloc

/-! ## Runs -/

/-- The allocator with the live pointers, and the sizes asked for. -/
structure HeapRun (σ : Type) where
  heap : Heap
  pages : σ
  live : List (ℕ × ℕ)

/-- The callers allocate, free, and write into their memory. -/
inductive HeapOp
  | malloc (size : ℕ)
  | free (ptr : ℕ)
  | write (ptr : ℕ) (data : ℕ → ℕ)

/-- The globals of `heap.c` before `heap_init`. -/
def heapStatics (mem : ℕ → ℕ) : Heap := ⟨mem, 0, kernelHeapStart, 0⟩

/-- A caller writes into its memory. -/
def Heap.fill (h : Heap) (p n : ℕ) (data : ℕ → ℕ) : Heap :=
  { h with mem := fun a => if p ≤ a ∧ a < p + n then data a else h.mem a }

section Runs

variable {σ : Type} (src : PageSource σ)

/-- One step of a run. `kfree` and writes only concern live pointers. -/
inductive HeapStep : HeapRun σ → HeapOp → HeapRun σ → Prop
  | malloc {s : HeapRun σ} {n p : ℕ} {h : Heap} {t : σ} :
      kmalloc src n s.heap s.pages = some (p, h, t) →
      HeapStep s (.malloc n) ⟨h, t, if p = 0 then s.live else (p, n) :: s.live⟩
  | free {s : HeapRun σ} {p n : ℕ} : (p, n) ∈ s.live →
      HeapStep s (.free p) ⟨kfree p s.heap, s.pages, s.live.erase (p, n)⟩
  | write {s : HeapRun σ} {p n : ℕ} {data : ℕ → ℕ} : (p, n) ∈ s.live →
      HeapStep s (.write p data) ⟨s.heap.fill p n data, s.pages, s.live⟩

/-- Runs from `heap_init` in which every request satisfies `ok`. -/
def heapSystem (ok : HeapRun σ → ℕ → Prop) : System (HeapRun σ) HeapOp where
  init s := ∃ mem t page t', src.grab kernelHeapStart t = (some page, t') ∧
    s = ⟨(heapInit src (heapStatics mem) t).1, (heapInit src (heapStatics mem) t).2, []⟩
  guard
    | s, .malloc n => ok s n
    | _, _ => True
  step := HeapStep src

/-- Every live pointer has a used block of its own, large enough. -/
structure LiveOn (h : Heap) (bs : List ℕ) (live : List (ℕ × ℕ)) : Prop where
  block : ∀ x ∈ live, ∃ b ∈ bs, x.1 = b + 16 ∧ (h.block b).free = 0 ∧ x.2 ≤ (h.block b).size
  nodup : (live.map Prod.fst).Nodup

/-- The list is in order, and every live pointer has its block. -/
def HeapInv (s : HeapRun σ) : Prop := ∃ bs, Blocks s.heap bs ∧ LiveOn s.heap bs s.live

variable {src}

lemma LiveOn.of_kept {h' : Heap} {bs' : List ℕ} {live : List (ℕ × ℕ)} (hl : LiveOn h bs live)
    (hk : ∀ x ∈ live, ∀ b ∈ bs, x.1 = b + 16 → (h.block b).free = 0 → b ∈ bs' ∧ Kept h h' b) :
    LiveOn h' bs' live := by
  refine ⟨fun x hx => ?_, hl.nodup⟩
  obtain ⟨b, hb, hxb, hfree, hsize⟩ := hl.block x hx
  obtain ⟨hb', hks, hkf⟩ := hk x hx b hb hxb hfree
  exact ⟨b, hb', hxb, by rw [hkf, hfree], by rw [hks]; exact hsize⟩

lemma heapInv_init {ok : HeapRun σ → ℕ → Prop} {s : HeapRun σ}
    (hs : (heapSystem src ok).init s) : HeapInv s := by
  obtain ⟨mem, t, page, t', hg, rfl⟩ := hs
  exact ⟨_, blocks_heapInit src (heapStatics mem) t t' page rfl hg, by simp, by simp⟩

lemma heapInv_malloc {s : HeapRun σ} {t : σ} (hi : HeapInv s)
    (hn : SizeFits n) (hg : GrowthFits src s.heap s.pages n)
    (hcall : kmalloc src n s.heap s.pages = some (p, h, t)) :
    HeapInv (⟨h, t, if p = 0 then s.live else (p, n) :: s.live⟩ : HeapRun σ) := by
  obtain ⟨bs, hb, hl⟩ := hi
  obtain ⟨p', h', t', bs', hcall', hb', hkept, hnew⟩ := kmalloc_spec src hb hn hg
  obtain ⟨rfl, rfl, rfl⟩ : p' = p ∧ h' = h ∧ t' = t := by
    rw [hcall] at hcall'
    simpa [eq_comm] using hcall'
  have hlive : LiveOn h' bs' s.live := hl.of_kept fun x _ b hbm _ hfree => hkept b hbm hfree
  refine ⟨bs', hb', ?_⟩
  by_cases hp : p' = 0
  · simpa [hp] using hlive
  · obtain ⟨b, hbm, hpb, hfree, hsize, hfresh⟩ := hnew hp
    simp only [if_neg hp]
    refine ⟨List.forall_mem_cons.mpr ⟨⟨b, hbm, hpb, hfree, hsize⟩, hlive.block⟩, ?_⟩
    rw [List.map_cons, List.nodup_cons]
    refine ⟨fun hmem => ?_, hl.nodup⟩
    -- a live pointer belongs to a block that was in use before the call
    obtain ⟨x, hx, hxp⟩ := List.mem_map.mp hmem
    obtain ⟨c, hc, hxc, hcfree, -⟩ := hl.block x hx
    obtain rfl : c = b := by omega
    exact hfresh hc hcfree

lemma heapInv_free {s : HeapRun σ} (hi : HeapInv s) (hp : (p, n) ∈ s.live) :
    HeapInv (⟨kfree p s.heap, s.pages, s.live.erase (p, n)⟩ : HeapRun σ) := by
  obtain ⟨bs, hb, hl⟩ := hi
  obtain ⟨a, ha, hpa, hfree, -⟩ := hl.block _ hp
  subst hpa
  obtain ⟨l, r, rfl⟩ := List.append_of_mem ha
  obtain ⟨-, bs', hb', hkept⟩ := kfree_spec hb hfree
  have hlive : s.live.Nodup := List.Nodup.of_map _ hl.nodup
  have hrest : LiveOn s.heap (l ++ a :: r) (s.live.erase (a + 16, n)) :=
    ⟨fun x hx => hl.block x (List.mem_of_mem_erase hx), hl.nodup.sublist (List.erase_sublist.map _)⟩
  dsimp only [HeapInv]
  refine ⟨bs', hb', hrest.of_kept fun x hx b hbm hxb hbfree => ?_⟩
  have hxl := hlive.mem_erase_iff.mp hx
  have hba : b ≠ a := by
    rintro rfl
    exact hxl.1 (List.inj_on_of_nodup_map hl.nodup hxl.2 hp hxb)
  exact hkept b (by simpa [hba] using hbm) hbfree

lemma heapInv_write {s : HeapRun σ} (data : ℕ → ℕ) (hi : HeapInv s) (hp : (p, n) ∈ s.live) :
    HeapInv (⟨s.heap.fill p n data, s.pages, s.live⟩ : HeapRun σ) := by
  obtain ⟨bs, hb, hl⟩ := hi
  obtain ⟨a, ha, hpa, -, hsize⟩ := hl.block _ hp
  have hblock : ∀ b ∈ bs, (s.heap.fill p n data).block b = s.heap.block b := by
    intro b hbm
    have hapart : b + 16 ≤ p ∨ p + n ≤ b := by
      rcases eq_or_ne b a with rfl | hne
      · omega
      · have := hb.apart hbm ha hne
        omega
    simp only [Heap.block, Heap.fill, HeapBlock.mk.injEq]
    refine ⟨?_, ?_, ?_, ?_⟩ <;> rw [if_neg (by omega)]
  refine ⟨bs, hb.of_block_eq rfl rfl hblock le_rfl hb.endLt hb.endAligned, ?_⟩
  exact hl.of_kept fun x _ b hbm _ _ => ⟨hbm, by simp [Kept, hblock b hbm]⟩

lemma heapInv_of_reach {s : HeapRun σ} (hr : (heapSystem src fun s n => SizeFits n ∧
    GrowthFits src s.heap s.pages n).Reach s) : HeapInv s := by
  refine hr.invariant (I := HeapInv) (fun s hs => heapInv_init hs) fun s a s' hi hg hs => ?_
  cases hs with
  | malloc hcall => exact heapInv_malloc hi hg.1 hg.2 hcall
  | free hp => exact heapInv_free hi hp
  | write hp => exact heapInv_write _ hi hp

end Runs

/-! ## Safety -/

/-- The bytes behind a pointer. -/
def payloadSize (h : Heap) (p : ℕ) : ℕ := (h.block (p - 16)).size

/-- The blocks are ordered, linked and coalesced; live payloads are aligned, in the heap and apart
from each other and the headers; `total_allocated` counts the used blocks. -/
structure HeapSafe (h : Heap) (live : List (ℕ × ℕ)) (bs : List ℕ) : Prop where
  head : bs.head? = some h.heapStart
  linked : bs.IsChain fun a b => (h.block a).next = b ∧ (h.block b).prev = a
  first : ∀ b ∈ bs.head?, (h.block b).prev = 0
  last : ∀ b ∈ bs.getLast?, (h.block b).next = 0
  ordered : bs.IsChain fun a b => a < b ∧ a + 16 + (h.block a).size ≤ b
  coalesced : bs.IsChain fun a b => (h.block a).free = 0 ∨ (h.block b).free = 0
  payload : ∀ x ∈ live, x.1 % 8 = 0 ∧ kernelHeapStart ≤ x.1 ∧ x.2 ≤ payloadSize h x.1 ∧
    x.1 + payloadSize h x.1 ≤ h.heapEnd
  disjoint : live.Pairwise fun x y =>
    x.1 + payloadSize h x.1 ≤ y.1 ∨ y.1 + payloadSize h y.1 ≤ x.1
  headers : ∀ x ∈ live, ∀ b ∈ bs, b + 16 ≤ x.1 ∨ x.1 + payloadSize h x.1 ≤ b
  total : h.totalAllocated =
    ((bs.filter fun b => (h.block b).free = 0).map fun b => (h.block b).size).sum

lemma sum_usedSize (g : ℕ → HeapBlock) (bs : List ℕ) : (bs.map (usedSize g)).sum =
    ((bs.filter fun b => (g b).free = 0).map fun b => (g b).size).sum := by
  induction bs with
  | nil => rfl
  | cons b bs ih =>
    by_cases hb : (g b).free = 0
    · simp [usedSize, hb, ih]
    · simp [usedSize, hb, ih]

lemma heapSafe_of_blocks {live : List (ℕ × ℕ)} (hb : Blocks h bs)
    (hl : LiveOn h bs live) : HeapSafe h live bs := by
  -- each live pointer with its block
  have hpay : ∀ x ∈ live, ∃ b ∈ bs, x.1 = b + 16 ∧ payloadSize h x.1 = (h.block b).size ∧
      x.2 ≤ (h.block b).size := by
    intro x hx
    obtain ⟨b, hbm, hxb, -, hsize⟩ := hl.block x hx
    exact ⟨b, hbm, hxb, by rw [payloadSize, hxb, Nat.add_sub_cancel], hsize⟩
  constructor
  · exact hb.head
  · exact hb.chain.imp fun a b hab => ⟨hab.next, hab.prev⟩
  · intro b hbm
    rw [hb.head] at hbm
    obtain rfl : h.heapStart = b := by simpa using hbm
    exact hb.firstPrev
  · exact fun b hbm => (hb.last b hbm).1
  · refine hb.chain.imp fun a b hab => ?_
    have := hab.fits
    omega
  · exact hb.chain.imp fun a b hab => hab.apart
  · intro x hx
    obtain ⟨b, hbm, hxb, hps, hsize⟩ := hpay x hx
    have hr := hb.mem_range hbm
    have ha := (hb.aligned b hbm).1
    rw [hxb]
    exact ⟨by omega, by omega, hsize, hr.2⟩
  · have hnd := List.pairwise_map.mp hl.nodup
    refine hnd.imp_of_mem fun {x y} hx hy hxy => ?_
    obtain ⟨b, hbm, hxb, hps, -⟩ := hpay x hx
    obtain ⟨c, hcm, hyc, hps', -⟩ := hpay y hy
    have hap := hb.apart hbm hcm (by omega)
    omega
  · intro x hx c hcm
    obtain ⟨b, hbm, hxb, hps, -⟩ := hpay x hx
    rw [hps, hxb]
    rcases eq_or_ne b c with rfl | hne
    · exact .inl le_rfl
    · have hap := hb.apart hbm hcm hne
      omega
  · rw [hb.total, sum_usedSize]

section Results

variable {σ : Type} (src : PageSource σ)

/-- **Safety of the heap** in every run in which no growth passes the end of the address space. -/
theorem heap_safe {s : HeapRun σ} (hr : (heapSystem src fun s n => SizeFits n ∧
    GrowthFits src s.heap s.pages n).Reach s) :
    (∃ bs, HeapSafe s.heap s.live bs) ∧ ∀ n, SizeFits n → GrowthFits src s.heap s.pages n →
      (kmalloc src n s.heap s.pages).isSome := by
  obtain ⟨bs, hb, hl⟩ := heapInv_of_reach hr
  refine ⟨⟨bs, heapSafe_of_blocks hb hl⟩, fun n hn hg => ?_⟩
  obtain ⟨p, h', s', -, hcall, -⟩ := kmalloc_spec src hb hn hg
  rw [hcall]
  rfl

/-- **A pointer is good for its size**, if roundings do not wrap and growth stays below `2 ^ 32`. -/
theorem kmalloc_fresh {s : HeapRun σ} (hr : (heapSystem src fun s n => SizeFits n ∧
    GrowthFits src s.heap s.pages n).Reach s) {n p : ℕ} {h : Heap} {t : σ} (hn : SizeFits n)
    (hg : GrowthFits src s.heap s.pages n)
    (hcall : kmalloc src n s.heap s.pages = some (p, h, t)) (hp : p ≠ 0) :
    kernelHeapStart ≤ p ∧ p + n ≤ h.heapEnd ∧ ∀ x ∈ s.live, p + n ≤ x.1 ∨ x.1 + x.2 ≤ p := by
  obtain ⟨bs, hb, hl⟩ := heapInv_malloc (heapInv_of_reach hr) hn hg hcall
  have hsafe := heapSafe_of_blocks hb hl
  simp only [if_neg hp] at hsafe
  obtain ⟨-, hlow, hsize, hend⟩ := hsafe.payload (p, n) (by simp)
  refine ⟨hlow, by simp only at hsize hend; omega, fun x hx => ?_⟩
  have hdis := (List.pairwise_cons.mp hsafe.disjoint).1 x hx
  have hx2 := (hsafe.payload x (by simp [hx])).2.2.1
  omega

end Results

/-! ## Growth past the end of the address space -/

/-- A source that always has a page of zeros. -/
def plentiful : PageSource Unit := ⟨fun _ s => (some fun _ => 0, s)⟩

/-- The heap after `heap_init`. -/
def freshHeap : Heap := (heapInit plentiful (heapStatics fun _ => 0) ()).1

/-- A run before its first call. -/
def freshRun : HeapRun Unit := ⟨freshHeap, (), []⟩

lemma freshRun_init (ok : HeapRun Unit → ℕ → Prop) : (heapSystem plentiful ok).init freshRun :=
  ⟨fun _ => 0, (), fun _ => 0, (), rfl, rfl⟩

lemma blocks_freshHeap : Blocks freshHeap [kernelHeapStart] :=
  blocks_heapInit plentiful (heapStatics fun _ => 0) () () (fun _ => 0) rfl rfl

lemma freshHeap_heapEnd : freshHeap.heapEnd = 0xC0401000 := rfl

lemma freshHeap_block : freshHeap.block kernelHeapStart = ⟨4080, 1, 0, 0⟩ := by
  simp [freshHeap, heapInit, plentiful, Heap.block, Heap.setBlock]

lemma kmalloc_freshHeap (hn : n ≠ 0) (hle : roundSize n ≤ 4080) :
    ∃ h, kmalloc plentiful n freshHeap () = some (kernelHeapStart + 16, h, ()) ∧
    h.heapEnd = 0xC0401000 := by
  have hfits : Fits freshHeap (roundSize n) kernelHeapStart := by
    simpa [Fits, freshHeap_block] using hle
  have hs8 : roundSize n % 8 = 0 := by
    unfold roundSize alignDown
    omega
  have htake := takeBlock_spec (l := []) blocks_freshHeap hfits hs8
  rcases findFree_spec blocks_freshHeap (roundSize n) with ⟨-, hno⟩ | ⟨a, ha, -, hfind⟩
  · exact absurd hfits (hno _ (by simp))
  · obtain rfl : a = kernelHeapStart := by simpa using ha
    refine ⟨(takeBlock freshHeap kernelHeapStart (roundSize n)).2, ?_, htake.2.1⟩
    simp [kmalloc, hn, hfind, htake.1]

lemma pagesGranted_plentiful (n va : ℕ) : pagesGranted plentiful n va () = n := by
  induction n generalizing va with
  | zero => rfl
  | succ n ih =>
    show pagesGranted plentiful n (w32 (va + 4096)) () + 1 = n + 1
    rw [ih]

lemma expandPages_plentiful_add (n m : ℕ) (h : Heap) : expandPages plentiful (n + m) h () =
      expandPages plentiful m (expandPages plentiful n h ()).2.1 () := by
  induction n generalizing h with
  | zero => simp [expandPages]
  | succ n ih =>
    rw [Nat.succ_add_eq_add_succ]
    exact ih _

lemma expandPages_two_wraps (hend : h.heapEnd = 0xFFFFF000) :
    ∃ h', expandPages plentiful 2 h () = (true, h', ()) ∧ h'.heapEnd = 0x1000 ∧
      h'.heapStart = h.heapStart ∧ ∀ b, 0x1000 ≤ b → b + 16 ≤ 0xFFFFF000 →
      h'.block b = h.block b := by
  have e1 : w32 (0xFFFFF000 + 4096) = 0 := by decide
  have e2 : w32 (0 + 4096) = 0x1000 := by decide
  refine ⟨{ h with
    mem := Heap.overlay (Heap.overlay h.mem 0xFFFFF000 fun _ => 0) 0 fun _ => 0
    heapEnd := 0x1000 }, ?_, rfl, rfl, fun b hb1 hb2 => ?_⟩
  · simp [expandPages, plentiful, hend, e1, e2]
  · simp only [Heap.block, Heap.overlay, HeapBlock.mk.injEq]
    refine ⟨?_, ?_, ?_, ?_⟩ <;> rw [if_neg (by omega), if_neg (by omega)]

/-- A request for almost 1 GiB: the last two pages move `heap_end` to `0x1000`. -/
lemma kmalloc_wraps : ∃ h, kmalloc plentiful 0x3FBFFFF0 freshHeap () = some (0xC0401010, h, ()) ∧
    h.heapEnd = 0x1000 := by
  have hround : roundSize 0x3FBFFFF0 = 0x3FBFFFF0 := by decide
  have hpages : pagesNeeded (w32 (0x3FBFFFF0 + 16)) = 0x3FBFE + 2 := by decide
  obtain ⟨hb1, hend1, hblk1, -⟩ := expandPages_spec plentiful 0x3FBFE freshHeap ()
    blocks_freshHeap (by rw [pagesGranted_plentiful, freshHeap_heapEnd]; decide)
  rw [pagesGranted_plentiful, freshHeap_heapEnd] at hend1
  have hgrow := expandPages_plentiful_add 0x3FBFE 2 freshHeap
  obtain ⟨h2, htwo, hend2, hstart2, hblk2⟩ := expandPages_two_wraps (by rw [hend1])
  have hstart : h2.heapStart = kernelHeapStart := by rw [hstart2, hb1.start]
  have hnext : (h2.block kernelHeapStart).next = 0 := by
    rw [hblk2 _ (by decide) (by decide), hblk1 _ (by rw [freshHeap_heapEnd]; decide),
      freshHeap_block]
  have happend : ∃ h, appendBlock h2 0xC0401000 0x3FBFFFF0 = some (0xC0401010, h) ∧
      h.heapEnd = 0x1000 := by
    have e1 : w32 (0xC0401000 + 16) = 0xC0401010 := by decide
    have e2 : w32 (0xC0401010 + 0x3FBFFFF0) = 0x1000 := by decide
    have hwalk := @lastBlock_chain (h2.setBlock 0xC0401000
      { h2.block 0xC0401000 with size := 0x3FBFFFF0, free := 0, next := 0 }) [] kernelHeapStart
      walkFuel (by decide) (List.isChain_singleton _) (by simp)
      (by rw [Heap.block_setBlock_of_apart _ _ (.inr (by decide)), hnext])
    simp only [List.nil_append, List.head?_cons, Option.getD_some] at hwalk
    simp only [appendBlock, Heap.setBlock_heapStart, hstart, hwalk, e1, e2,
      Heap.setBlock_heapEnd, hend2, lt_irrefl, if_false]
    exact ⟨_, rfl, rfl⟩
  obtain ⟨h3, happ, hend3⟩ := happend
  refine ⟨h3, ?_, hend3⟩
  have hexp : expandHeap plentiful (w32 (0x3FBFFFF0 + 16)) freshHeap () = (true, h2, ()) := by
    rw [expandHeap, hpages, hgrow, htwo]
  simp only [kmalloc, hround, hexp, freshHeap_heapEnd, happ]
  rfl

/-- The request for almost 1 GiB is live, but not below the end of the heap. -/
theorem heap_unsafe_after_wrap : ∃ s, (heapSystem plentiful fun _ n => SizeFits n).Reach s ∧
    ¬ ∃ bs, HeapSafe s.heap s.live bs := by
  obtain ⟨h, hcall, hend⟩ := kmalloc_wraps
  refine ⟨_, .step (.init (freshRun_init _)) (a := .malloc 0x3FBFFFF0)
    (show SizeFits 0x3FBFFFF0 by unfold SizeFits; decide) (HeapStep.malloc hcall), ?_⟩
  rintro ⟨bs, hsafe⟩
  have := (hsafe.payload (0xC0401010, 0x3FBFFFF0) (by simp)).2.2.2
  simp only [hend] at this
  omega

lemma growthFits_fresh : GrowthFits plentiful freshHeap () 100 := fun hno =>
  absurd ⟨kernelHeapStart, .start, by rw [Fits, freshHeap_block]; decide⟩ hno

/-- One pointer of 100 bytes is live. -/
theorem heap_safe_after_kmalloc : ∃ s, s.live = [(0xC0400010, 100)] ∧
    (heapSystem plentiful fun s n => SizeFits n ∧ GrowthFits plentiful s.heap s.pages n).Reach s ∧
    ∃ bs, HeapSafe s.heap s.live bs := by
  obtain ⟨h, hcall, -⟩ := kmalloc_freshHeap (n := 100) (by decide) (by decide)
  have hstep : HeapStep plentiful freshRun (.malloc 100) ⟨h, (), [(0xC0400010, 100)]⟩ :=
    HeapStep.malloc (s := freshRun) hcall
  have hr := System.Reach.step (M := heapSystem plentiful fun s n => SizeFits n ∧
    GrowthFits plentiful s.heap s.pages n) (a := .malloc 100) (.init (freshRun_init _))
    ⟨by unfold SizeFits; decide, growthFits_fresh⟩ hstep
  exact ⟨_, rfl, hr, (heap_safe plentiful hr).1⟩

/-- The largest size rounds to zero, and the pointer is not good for it. -/
theorem kmalloc_max_size : ∃ s, (heapSystem plentiful fun _ n => n < 0x100000000).Reach s ∧
    ∃ p h t, kmalloc plentiful 0xFFFFFFFF s.heap s.pages = some (p, h, t) ∧ p ≠ 0 ∧
      h.heapEnd < p + 0xFFFFFFFF := by
  obtain ⟨h, hcall, hend⟩ := kmalloc_freshHeap (n := 0xFFFFFFFF) (by decide) (by decide)
  refine ⟨freshRun, .init (freshRun_init _), _, _, _, hcall, by decide, ?_⟩
  rw [hend]
  decide

/-- The heap after a request. -/
def heapAfter (n : ℕ) (h : Heap) : Heap := ((kmalloc plentiful n h ()).map fun r => r.2.1).getD h

lemma kmalloc_heapAfter (hp : (kmalloc plentiful n h ()).map (·.1) = some p) :
    kmalloc plentiful n h () = some (p, heapAfter n h, ()) := by
  unfold heapAfter
  generalize kmalloc plentiful n h () = r at hp ⊢
  obtain _ | ⟨q, h', ⟨⟩⟩ := r
  · cases hp
  · obtain rfl : q = p := Option.some.inj hp
    rfl

/-- The runs with requests that do not wrap, where pages never run out. -/
abbrev plentifulRuns : System (HeapRun Unit) HeapOp :=
  heapSystem plentiful fun s n => SizeFits n ∧ GrowthFits plentiful s.heap s.pages n

lemma growthFits_plentiful (hend : h.heapEnd = 0xC0401000) (hn : roundSize n < 0x10000000) :
    GrowthFits plentiful h () n := by
  intro _
  rw [pagesGranted_plentiful, hend]
  unfold pagesNeeded w32
  omega

lemma plentifulRuns_malloc {s : HeapRun Unit} (hr : plentifulRuns.Reach s) (hn : SizeFits n)
    (hg : GrowthFits plentiful s.heap () n) (hp : p ≠ 0)
    (hcall : kmalloc plentiful n s.heap () = some (p, h, ())) :
    plentifulRuns.Reach ⟨h, (), (p, n) :: s.live⟩ := by
  have hstep := HeapStep.malloc (s := s) hcall
  rw [if_neg hp] at hstep
  exact hr.step (a := .malloc n) ⟨hn, hg⟩ hstep

/-- Two blocks are asked for, and the first is freed. -/
def usedHeap : Heap := kfree 0xC0400010 (heapAfter 40 (heapAfter 100 freshHeap))

lemma reach_usedHeap : plentifulRuns.Reach ⟨usedHeap, (), [(0xC0400088, 40)]⟩ := by
  have hfirst :=
    plentifulRuns_malloc (.init (freshRun_init _)) (n := 100) (by unfold SizeFits; decide)
    growthFits_fresh (p := 0xC0400010) (by decide) (kmalloc_heapAfter (by decide +kernel))
  have hsecond := plentifulRuns_malloc hfirst (n := 40) (by unfold SizeFits; decide)
    (growthFits_plentiful (by decide +kernel) (by decide)) (p := 0xC0400088) (by decide)
    (kmalloc_heapAfter (by decide +kernel))
  exact hsecond.step (a := .free 0xC0400010) trivial (.free (n := 100) (by decide))

/-- The block that was freed is too small for 160 bytes, and they come behind the one in use. -/
theorem kmalloc_fresh_used : ∃ h, kmalloc plentiful 160 usedHeap () = some (0xC04000C0, h, ()) ∧
    0xC04000C0 + 160 ≤ h.heapEnd ∧
    ∀ x ∈ [(0xC0400088, 40)], 0xC04000C0 + 160 ≤ x.1 ∨ x.1 + x.2 ≤ 0xC04000C0 := by
  have hend : usedHeap.heapEnd = 0xC0401000 := by decide +kernel
  have hcall : kmalloc plentiful 160 usedHeap () = some (0xC04000C0, heapAfter 160 usedHeap, ()) :=
    kmalloc_heapAfter (by decide +kernel)
  have hreach := reach_usedHeap
  -- the heap is a long term, which is not to be unfolded
  generalize usedHeap = h at *
  have hgrowth := growthFits_plentiful (n := 160) hend (by decide)
  exact ⟨_, hcall,
    (kmalloc_fresh plentiful hreach (by unfold SizeFits; decide) hgrowth hcall (by decide)).2⟩

end FrostByte
