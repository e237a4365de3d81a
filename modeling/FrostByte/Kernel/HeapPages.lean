import FrostByte.Heap.Model
import FrostByte.Kernel.Process

/-!
# The pages of the kernel heap

`kmalloc` of `src/mm/heap.c` grows the heap with frames that it maps in the current directory. Seen
from the memory manager it is one of the functions that `process_create` may be given.

## Main definitions

* `vmPages` — where `expand_heap` gets its pages.
* `heapKmalloc` — `kmalloc` as a step of the memory manager.

## Main results

* `kmallocSpec_heap` — the kernel heap grows in the kernel's part of the address space only.
-/

namespace FrostByte

open Word

/-- A frame for a page of the heap, mapped with `vmm_map_page` and given back when that fails. -/
def vmPages : PageSource Vm where
  grab va s :=
    let physPage := (pmmAllocPage s.pmm).1
    let s := { s with pmm := (pmmAllocPage s.pmm).2 }
    if physPage = 0 then (none, s)
    else
      match vmmMapPage va physPage (pagePresent ||| pageWritable) s with
      | (false, s) => (none, { s with pmm := pmmFreePage physPage s.pmm })
      | (true, s) => (some fun a => s.mem (physPage / 4096) (a / 4), s)

/-- `kmalloc` on the heap that goes with a state of the memory manager. A walk that does not end is
taken as a failure. -/
def heapKmalloc (heap : Vm → Heap) (size : ℕ) (s : Vm) : Bool × Vm :=
  match kmalloc vmPages size (heap s) s with
  | none => (false, s)
  | some (ptr, _, s) => (ptr ≠ 0, s)

variable {s s' s'' : Vm} {k : ℕ} {live : Set ℕ} {role role' role'' : ℕ → Role} {H : Set ℕ}

lemma HeapGrowth.refl (hs : Sep s k live role) : HeapGrowth s s k live role role H :=
  ⟨hs, fun _ _ => rfl, fun _ h => h, rfl, rfl, fun _ _ _ _ => rfl, fun _ _ _ _ => rfl,
    fun _ _ _ _ => rfl, fun _ h h' => absurd h h'⟩

lemma HeapGrowth.trans (h1 : HeapGrowth s s' k live role role' H)
    (h2 : HeapGrowth s' s'' k live role' role'' H) : HeapGrowth s s'' k live role role'' H := by
  refine ⟨h2.sep, fun g hg => ?_, fun g hg => h1.free g (h2.free g hg), ?_, ?_, fun x hx j hp => ?_,
    fun g d v hb => ?_, fun x hx u hu => ?_, fun g hg hg' => ?_⟩
  · rw [h2.roles g (by rwa [h1.roles g hg]), h1.roles g hg]
  · rw [h2.kernelDirectory, h1.kernelDirectory]
  · rw [h2.currentDirectory, h1.currentDirectory]
  · rw [h2.pde x hx j (by rwa [h1.pde x hx j hp]), h1.pde x hx j hp]
  · have hb' : (role' g).Backs d v := by rwa [h1.roles g hb.isData.ne_free]
    rw [h2.backed g d v hb', h1.backed g d v hb]
  · rw [h2.user x hx u hu, h1.user x hx u hu]
  · by_cases hmid : s'.pmm.Free g
    · exact h2.taken g hmid hg'
    · exact h1.taken g hg hmid

lemma HeapGrowth.ready (h : HeapGrowth s s' k live role role' H) (hr : Ready s live) :
    Ready s' live :=
  (hr.congr h.kernelDirectory h.currentDirectory (h.pde _ hr.mem 1 hr.scratch)).1

lemma HeapGrowth.of_grows (h : Grows s s' k live role role')
    (hu : ∀ x ∈ live, ∀ u, ¬ KernelIndex (u / 1024) → s'.lookup x u = s.lookup x u)
    (hH : ∀ g, s.pmm.Free g → g ∈ H) : HeapGrowth s s' k live role role' H :=
  ⟨h.sep, h.roles, h.free, h.kernelDirectory, h.currentDirectory, h.pde,
    fun g _ _ hb => h.data g hb.isData, hu, fun g hg _ => hH g hg⟩

/-- **One page of the heap**, at an address of the kernel: no user page changes, whether or not the
frame and a table for it are found. -/
lemma grab_growth (hs : Sep s k live role) (hr : Ready s live) {va : ℕ}
    (hva : KernelIndex (va / 4096 / 1024)) (hH : ∀ g, s.pmm.Free g → g ∈ H) :
    ∃ role', HeapGrowth s (vmPages.grab va s).2 k live role role' H := by
  have halloc := Grows.of_pmm hs (pmmAllocPage_free_le s.pmm) (pmmAllocPage_spec s.pmm).1
  simp only [vmPages]
  split_ifs with hzero
  · exact ⟨role, HeapGrowth.of_grows halloc (fun _ _ _ _ => rfl) hH⟩
  have hready := halloc.ready hr
  obtain ⟨ok, s2, role', hmap, hm⟩ :=
    mapPage_spec halloc.sep hready.mem hready.reachable pmmFreePage va
    (pmmAllocPage s.pmm).1 (pagePresent ||| pageWritable)
  have hcall : vmmMapPage va (pmmAllocPage s.pmm).1 (pagePresent ||| pageWritable)
      { s with pmm := (pmmAllocPage s.pmm).2 } = (ok, s2) := hmap
  rw [hcall]
  cases ok with
  | true =>
    refine ⟨role', HeapGrowth.of_grows (halloc.trans hm.grows) (fun x hx u hu => ?_) hH⟩
    rw [hm.lookup rfl x hx u, if_neg]
    · rfl
    · rintro ⟨rfl, -⟩
      exact hu hva
  | false =>
    -- the frame goes back, and the state is the one before but for the allocator
    have hs2 := hm.fail rfl
    refine ⟨role, HeapGrowth.of_grows ?_ (fun x hx u hu => ?_) hH⟩
    · rw [hs2]
      refine Grows.of_pmm hs (fun g hg => ?_) ?_
      · rcases (pmmFreePage_free_iff _ _ _).1 hg with hfree | ⟨rfl, -⟩
        · exact pmmAllocPage_free_le _ _ (pmmAllocPage_free_le _ _ hfree)
        · rcases (pmmAllocPage_spec s.pmm).2 with ⟨h0, -⟩ | ⟨p, -, haddr, hp, -⟩
          · exact absurd h0 hzero
          · rwa [haddr, Nat.mul_div_cancel _ (by decide)]
      · rw [pmmFreePage_totalPages, (pmmAllocPage_spec _).1, (pmmAllocPage_spec _).1]
    · rw [hs2]
      rfl

/-- **The loop of `expand_heap`**, as long as the heap stays below 4 GiB. -/
lemma expandPages_growth {n : ℕ} {h : Heap} (hs : Sep s k live role) (hr : Ready s live)
    (hstart : kernelHeapStart ≤ h.heapEnd) (hend : h.heapEnd + n * 4096 ≤ 0x100000000)
    (hH : ∀ g, s.pmm.Free g → g ∈ H) :
    ∃ role', HeapGrowth s (expandPages vmPages n h s).2.2 k live role role' H := by
  induction n generalizing h s role with
  | zero => exact ⟨role, .refl hs⟩
  | succ n ih =>
    have hva : KernelIndex (h.heapEnd / 4096 / 1024) := by
      unfold kernelHeapStart at hstart
      unfold KernelIndex
      omega
    obtain ⟨role₁, hgrab⟩ := grab_growth hs hr hva hH
    rw [expandPages]
    generalize vmPages.grab h.heapEnd s = r at hgrab ⊢
    obtain ⟨_ | page, s₁⟩ := r
    · exact ⟨role₁, hgrab⟩
    · rcases Nat.eq_zero_or_pos n with rfl | hpos
      · exact ⟨role₁, hgrab⟩
      · have hnext : w32 (h.heapEnd + 4096) = h.heapEnd + 4096 := w32_of_lt (by omega)
        obtain ⟨role₂, hrest⟩ := ih (h := { h with
            mem := Heap.overlay h.mem h.heapEnd page, heapEnd := w32 (h.heapEnd + 4096) })
          hgrab.sep (hgrab.ready hr) (by dsimp only; omega) (by dsimp only; omega)
          fun g hg => hH g (hgrab.free g hg)
        exact ⟨role₂, hgrab.trans hrest⟩

/-- `kmalloc` leaves the memory manager alone, or expands the heap. -/
lemma heapKmalloc_state (heap : Vm → Heap) (n : ℕ) (s : Vm) : (heapKmalloc heap n s).2 = s ∨
    (heapKmalloc heap n s).2 =
      (expandPages vmPages (pagesNeeded (w32 (roundSize n + 16))) (heap s) s).2.2 := by
  unfold heapKmalloc kmalloc expandHeap
  split_ifs with hzero
  · exact .inl rfl
  rcases findFree walkFuel (heap s) (heap s).heapStart (roundSize n) with _ | current
  · exact .inl rfl
  dsimp only
  split_ifs with hfound
  · exact .inl rfl
  rcases expandPages vmPages (pagesNeeded (w32 (roundSize n + 16))) (heap s) s with ⟨_ | _, h', s'⟩
  · exact .inr rfl
  · dsimp only
    rcases appendBlock h' (heap s).heapEnd (roundSize n) with _ | r
    · exact .inl rfl
    · exact .inr rfl

/-- **The kernel heap meets what `process_create` and `sys_fork` ask of `kmalloc`**, as long as it
ends five pages below 4 GiB. -/
lemma kmallocSpec_heap (heap : Vm → Heap)
    (hheap : ∀ s, kernelHeapStart ≤ (heap s).heapEnd ∧ (heap s).heapEnd + 0x5000 ≤ 0x100000000)
    (k : ℕ) : KmallocSpec (heapKmalloc heap) k Set.univ := by
  intro n hn s live role hs hr
  obtain ⟨hstart, hend⟩ := hheap s
  have hpages : pagesNeeded (w32 (roundSize n + 16)) ≤ 5 := by
    unfold kernelStackSize at hn
    have hround : roundSize n ≤ n + 7 := by
      unfold roundSize alignDown
      rw [w32_of_lt (by omega)]
      omega
    have hsize : w32 (roundSize n + 16) = roundSize n + 16 := w32_of_lt (by omega)
    unfold pagesNeeded
    rw [hsize, w32_of_lt (by omega)]
    omega
  obtain ⟨role', hgrowth⟩ := expandPages_growth (H := Set.univ)
    (n := pagesNeeded (w32 (roundSize n + 16))) hs hr hstart (by omega) fun _ _ => trivial
  rcases heapKmalloc_state heap n s with hsame | hgrown
  · rw [hsame]
    exact ⟨role, .refl hs⟩
  · rw [hgrown]
    exact ⟨role', hgrowth⟩

end FrostByte
