import Mathlib.Order.Interval.Finset.Nat
import FrostByte.Vmm.Separation

/-!
# The kernel directory after `vmm_init`

A successful `vmm_init` leaves a kernel directory with the first 8 MiB of physical memory at their
own addresses and the first 128 MiB at `KERNEL_VIRTUAL_BASE`, and nothing else.

## Main definitions

* `Booted` — the state after `vmm_init`.
* `machine256` — a machine with 256 MiB.

## Main results

* `booted_vmmInit` — a call that succeeds leaves this state.
* `vmmInit_succeeds` — with enough frames it succeeds.
-/

namespace FrostByte

open Word

/-- The entry of page `v` after `vmm_init`, for the kernel only. -/
def bootEntry (v : ℕ) : ℕ :=
  if v < 0x800 then mkEntry (v * 4096) 3
  else if 0xC0000 ≤ v ∧ v < 0xC8000 then mkEntry ((v - 0xC0000) * 4096) 3
  else 0

/-- The state after `vmm_init` with the page allocator `pmm`. -/
structure Booted (pmm : Pmm) (s : Vm) (k : ℕ) (role : ℕ → Role) : Prop where
  sep : Sep s k {k} role
  kernelDirectory : s.kernelDirectory = physicalToVirtual (k * 4096)
  currentDirectory : s.currentDirectory = physicalToVirtual (k * 4096)
  nonnull : s.kernelDirectory ≠ 0
  kernelFree : pmm.Free k
  totalPages : s.pmm.totalPages = pmm.totalPages
  free : ∀ f, s.pmm.Free f → pmm.Free f
  card : pmm.freeFrames.card ≤ s.pmm.freeFrames.card + 0x8801
  roles : ∀ f, ¬ pmm.Free f → role f = .reserved
  present : ∀ i, Present (s.mem k i) ↔ i < 2 ∨ (768 ≤ i ∧ i < 800)
  absent : ∀ i, ¬ Present (s.mem k i) → s.mem k i = 0
  lookup : ∀ v, s.lookup k v = bootEntry v

section Range

variable {s : Vm} {k : ℕ} {role : ℕ → Role}

lemma reachable_direct (live : Set ℕ) (s : Vm) : Reachable (fun _ _ => true) live s :=
  fun _ _ _ _ _ => rfl

/-- **The mapping loops of `vmm_init`** give the pages of the range their entries. -/
lemma mapRangeDirect_spec (b : ℕ) : ∀ (n a : ℕ) {s : Vm} {role : ℕ → Role}, Sep s k {k} role →
    ∃ ok s' role', mapRangeDirect k (b * 4096) n (a * 4096) s = (ok, s') ∧
      Grows s s' k {k} role role' ∧ s.pmm.freeFrames.card ≤ s'.pmm.freeFrames.card + n ∧
      (¬ s.pmm.Free 0 → n ≤ s.pmm.freeFrames.card → ok = true) ∧ (ok = true → (∀ u, s'.lookup k u =
          if b + a ≤ u ∧ u < b + a + n then mkEntry ((u - b) * 4096) 3 else s.lookup k u) ∧
        (∀ j, Present (s'.mem k j) ↔ Present (s.mem k j) ∨ ∃ u, b + a ≤ u ∧ u < b + a + n ∧
          j = u / 1024) ∧
        ∀ j, ¬ Present (s'.mem k j) → s'.mem k j = s.mem k j)
  | 0, a, s, role, hs => by
    refine ⟨true, s, role, rfl, Grows.refl hs, Nat.le_add_right _ _, fun _ _ => rfl,
      fun _ => ⟨fun u => ?_, fun j => ?_, fun _ _ => rfl⟩⟩
    · rw [if_neg (by omega)]
    · constructor
      · exact .inl
      · rintro (h | ⟨u, h1, h2, -⟩)
        · exact h
        · omega
  | n + 1, a, s, role, hs => by
    have hva : (b * 4096 + a * 4096) / 4096 = b + a := by omega
    obtain ⟨ok, s1, role1, hmap, hm⟩ := mapPage_spec hs (Set.mem_singleton k)
      (reachable_direct {k} s) (fun _ m => m) (b * 4096 + a * 4096) (a * 4096)
      (pagePresent ||| pageWritable)
    rw [hva] at hm
    have hgrow := hm.grows
    have hcard := hm.card_freeFrames
    rw [mapRangeDirect, vmmMapPageDirect, hmap]
    cases ok with
    | false =>
      refine ⟨false, s1, role1, rfl, hgrow, by omega, fun h0 hn => ?_, by simp⟩
      exact hm.ok_of_free h0 (by omega)
    | true =>
      have hp := hm.present rfl
      obtain ⟨ok2, s2, role2, hrest, hgrow2, hcard2, hsucc, hok2⟩ :=
        mapRangeDirect_spec b n (a + 1) hgrow.sep
      rw [Nat.succ_mul] at hrest
      refine ⟨ok2, s2, role2, hrest, hgrow.trans hgrow2, by omega,
        fun h0 hn => hsucc (fun h => h0 (hgrow.free 0 h)) (by omega), fun h2 => ?_⟩
      obtain ⟨hlook2, hpres2, habs2⟩ := hok2 h2
      refine ⟨fun u => ?_, fun j => ?_, fun j hj => ?_⟩
      · rw [hlook2 u, hm.lookup rfl k rfl u]
        have hshare : s1.Shares k k ((b + a) / 1024) := ⟨hp, rfl⟩
        by_cases hu : u = b + a
        · subst hu
          rw [if_neg (by omega), if_pos ⟨rfl, hshare⟩, if_pos (by omega), Nat.add_sub_cancel_left]
          rfl
        · rw [if_neg (by tauto : ¬ (u = b + a ∧ s1.Shares k k ((b + a) / 1024)))]
          exact if_congr (by omega) rfl rfl
      · rw [hpres2 j]
        have hstep : Present (s1.mem k j) ↔ Present (s.mem k j) ∨ j = (b + a) / 1024 := by
          by_cases hj : j = (b + a) / 1024
          · subst hj
            simp [hp]
          · rw [hm.pde k rfl j (by tauto)]
            simp [hj]
        rw [hstep]
        constructor
        · rintro ((h1 | rfl) | ⟨u, h1, h2, h3⟩)
          · exact .inl h1
          · exact .inr ⟨b + a, by omega, by omega, rfl⟩
          · exact .inr ⟨u, by omega, by omega, h3⟩
        · rintro (h1 | ⟨u, h1, h2, h3⟩)
          · exact .inl (.inl h1)
          · rcases Nat.eq_or_lt_of_le h1 with rfl | hlt
            · exact .inl (.inr h3)
            · exact .inr ⟨u, by omega, by omega, h3⟩
      · have hne : j ≠ (b + a) / 1024 := by
          rintro rfl
          exact hj ((hpres2 _).mpr (.inl hp))
        rw [habs2 j hj, hm.pde k rfl j (by tauto)]

end Range

/-! ## `vmm_init` -/

/-- The kernel directory is clear: the allocator's frames are free and the others reserved. -/
def bootRole (pmm : Pmm) (k f : ℕ) : Role :=
  if f = k then .dir else if pmm.Free f then .free else .reserved

lemma sep_bootRole (s : Vm) {pmm : Pmm} {k : ℕ} (hfree : ∀ q, pmm.Free q ↔ s.pmm.Free q ∧ q ≠ k) :
    Sep (({ s with pmm := pmm } : Vm).zeroFrame k) k {k} (bootRole s.pmm k) := by
  refine ⟨⟨Set.mem_singleton k, fun d hd => ?_, fun d hd i hp => ?_⟩, fun f hf => ?_⟩
  · obtain rfl := Set.mem_singleton_iff.mp hd
    simp [bootRole]
  · obtain rfl := Set.mem_singleton_iff.mp hd
    simp [Vm.zeroFrame_mem_same] at hp
  · have hf' := (hfree f).mp hf
    simp [bootRole, hf'.1, hf'.2]

/-- **`vmm_init`** that succeeds leaves the booted state. -/
theorem booted_vmmInit (s : Vm) (h0 : s.kernelDirectory = 0)
    (hok : (vmmInit s).kernelDirectory ≠ 0) : ∃ k role, Booted s.pmm (vmmInit s) k role := by
  obtain ⟨htotal, halloc⟩ := pmmAllocPage_spec s.pmm
  have hcard := card_freeFrames_pmmAllocPage s.pmm
  rcases halloc with ⟨hzero, -, -⟩ | ⟨k, hk0, haddr, hfree, hfree'⟩
  · simp [vmmInit, hzero, h0] at hok
  have hne : k * 4096 ≠ 0 := by omega
  have hdiv : k * 4096 / 4096 = k := Nat.mul_div_cancel _ (by decide)
  set s0 : Vm := ({ s with pmm := (pmmAllocPage s.pmm).2 } : Vm).zeroFrame k with hs0
  have hzero0 : ∀ i, s0.mem k i = 0 := fun i => Vm.zeroFrame_mem_same _ k i
  have habsent : ∀ i, ¬ Present (s0.mem k i) := fun i => by
    simp [hzero0]
  have hsep : Sep s0 k {k} (bootRole s.pmm k) := sep_bootRole s hfree'
  have hpmm : s0.pmm = (pmmAllocPage s.pmm).2 := rfl
  rw [← hpmm] at hcard
  obtain ⟨ok1, s1, role1, hmap1, hgrow1, hcard1, -, hok1⟩ := mapRangeDirect_spec 0 0x800 0 hsep
  obtain ⟨ok2, s2, role2, hmap2, hgrow2, hcard2, -, hok2⟩ :=
    mapRangeDirect_spec 0xC0000 0x8000 0 hgrow1.sep
  have hgrow := hgrow1.trans hgrow2
  have hbase : kernelVirtualBase = 0xC0000 * 4096 := rfl
  have hinit : vmmInit s = if ok1 then (if ok2 then { s2 with
      kernelDirectory := physicalToVirtual (k * 4096)
      currentDirectory := physicalToVirtual (k * 4096) } else s2) else s1 := by
    simp only [vmmInit, haddr, hne, if_false, hdiv, ← hs0, hmap1, hbase]
    cases ok1 with
    | false => rfl
    | true =>
      simp only [hmap2]
      cases ok2 <;> rfl
  have hk1 : s1.kernelDirectory = 0 := by rw [hgrow1.kernelDirectory]; exact h0
  have hk2 : s2.kernelDirectory = 0 := by rw [hgrow.kernelDirectory]; exact h0
  cases ok1 with
  | false => simp [hinit, hk1] at hok
  | true =>
    cases ok2 with
    | false => simp [hinit, hk2] at hok
    | true =>
      simp only [if_true] at hinit
      rw [hinit] at hok ⊢
      obtain ⟨hlook1, hpres1, habs1⟩ := hok1 rfl
      obtain ⟨hlook2, hpres2, habs2⟩ := hok2 rfl
      refine ⟨k, role2, ⟨hgrow.sep.congr (fun _ h => h) fun _ _ => rfl, rfl, rfl, hok,
        hfree, ?_, ?_, ?_, ?_, ?_, ?_, ?_⟩⟩
      · simpa using hgrow.totalPages.trans htotal
      · exact fun f hf => ((hfree' f).mp (hgrow.free f hf)).1
      · show _ ≤ s2.pmm.freeFrames.card + 0x8801
        omega
      · intro f hf
        have hfk : f ≠ k := by
          rintro rfl
          exact hf hfree
        have hrole : bootRole s.pmm k f = .reserved := by simp [bootRole, hfk, hf]
        rw [hgrow.roles f (by simp [hrole]), hrole]
      · intro i
        rw [hpres2 i, hpres1 i]
        constructor
        · rintro ((h | ⟨u, h1, h2, rfl⟩) | ⟨u, h1, h2, rfl⟩)
          · exact absurd h (habsent i)
          · omega
          · omega
        · intro h
          rcases h with h | h
          · exact .inl (.inr ⟨i * 1024, by omega, by omega, by omega⟩)
          · exact .inr ⟨i * 1024, by omega, by omega, by omega⟩
      · intro i hi
        have hi1 : ¬ Present (s1.mem k i) := fun h => hi ((hpres2 i).mpr (.inl h))
        rw [habs2 i hi, habs1 i hi1, hzero0]
      · intro v
        rw [Vm.lookup_pointers, hlook2 v, hlook1 v, Vm.lookup_of_not_present (habsent _), bootEntry]
        simp only [Nat.zero_add, Nat.add_zero, Nat.zero_le, true_and, Nat.sub_zero]
        by_cases h1 : v < 0x800
        · rw [if_neg (by omega), if_pos h1, if_pos h1]
        · rw [if_neg h1, if_neg h1]

/-- `vmm_init` needs a frame for each table of the two ranges and one for the directory. -/
lemma vmmInit_succeeds (s : Vm) (h0 : ¬ s.pmm.Free 0) (hc : 0x8801 ≤ s.pmm.freeFrames.card)
    (hk : physicalToVirtual (pmmAllocPage s.pmm).1 ≠ 0) : (vmmInit s).kernelDirectory ≠ 0 := by
  have hne0 := pmmAllocPage_ne_zero h0 (by omega)
  rcases (pmmAllocPage_spec s.pmm).2 with ⟨hzero, -, -⟩ | ⟨k, -, haddr, -, hfree⟩
  · exact absurd hzero hne0
  rw [haddr] at hk hne0
  have hdiv : k * 4096 / 4096 = k := Nat.mul_div_cancel _ (by decide)
  have hcard := card_freeFrames_pmmAllocPage s.pmm
  obtain ⟨s0, hs0⟩ : ∃ s0, s0 = ({ s with pmm := (pmmAllocPage s.pmm).2 } : Vm).zeroFrame k :=
    ⟨_, rfl⟩
  have hsep : Sep s0 k {k} (bootRole s.pmm k) := hs0 ▸ sep_bootRole s hfree
  have hpmm : s0.pmm = (pmmAllocPage s.pmm).2 := by rw [hs0]; rfl
  have hzero0 : ¬ s0.pmm.Free 0 := by
    rw [hpmm]
    exact fun h => h0 ((hfree 0).mp h).1
  obtain ⟨ok1, s1, role1, hmap1, hgrow1, hcard1, hok1, -⟩ := mapRangeDirect_spec 0 0x800 0 hsep
  obtain rfl := hok1 hzero0 (by rw [hpmm]; omega)
  rw [hpmm] at hcard1
  obtain ⟨ok2, s2, role2, hmap2, -, -, hok2, -⟩ :=
    mapRangeDirect_spec 0xC0000 0x8000 0 hgrow1.sep
  obtain rfl := hok2 (fun h => hzero0 (hgrow1.free 0 h)) (by omega)
  have hbase : kernelVirtualBase = 0xC0000 * 4096 := rfl
  simp only [vmmInit, haddr, hne0, hdiv, ← hs0, hmap1, hbase, hmap2]
  exact hk

lemma Booted.kernelLt {pmm : Pmm} {s : Vm} {k : ℕ} {role : ℕ → Role} (h : Booted pmm s k role) :
    k < 0x100000 := h.kernelFree.2.1

/-! ## A machine that boots -/

/-- 256 MiB of memory of which the first one is in use. -/
def machine256 : Vm :=
  ⟨⟨⟨fun i => if i < 32 then 0xFF#8 else 0#8⟩, 0x10000, 0x100⟩, fun _ _ => 0, 0, 0⟩

lemma machine256_free (f : ℕ) : machine256.pmm.Free f ↔ 0x100 ≤ f ∧ f < 0x10000 := by
  have hmod : f % 8 < 8 := Nat.mod_lt _ (by decide)
  have hbit : machine256.pmm.bitmap.test f = decide (f < 0x100) := by
    rw [Bitmap.test_eq]
    show (if f / 8 < 32 then 0xFF#8 else 0#8).getLsbD (f % 8) = _
    by_cases hf : f / 8 < 32
    · have : f < 0x100 := by omega
      rw [if_pos hf, decide_eq_true this]
      generalize f % 8 = j at hmod
      interval_cases j <;> rfl
    · have : ¬ f < 0x100 := by omega
      rw [if_neg hf, decide_eq_false this]
      exact BitVec.getLsbD_zero
  have htotal : machine256.pmm.totalPages = 0x10000 := rfl
  simp only [Pmm.Free, hbit, bitmapPages, decide_eq_false_iff_not]
  omega

lemma machine256_card : 0xFF00 ≤ machine256.pmm.freeFrames.card := by
  have hsub : Finset.Ico 0x100 0x10000 ⊆ machine256.pmm.freeFrames := by
    intro f hf
    rw [Pmm.mem_freeFrames, machine256_free]
    simpa using hf
  have := Finset.card_le_card hsub
  rwa [Nat.card_Ico] at this

lemma machine256_init : (vmmInit machine256).kernelDirectory ≠ 0 := by
  have hcard := machine256_card
  refine vmmInit_succeeds _ (fun h => ?_) (by omega) ?_
  · have := (machine256_free 0).mp h
    omega
  · rcases (pmmAllocPage_spec machine256.pmm).2 with ⟨hzero, -, -⟩ | ⟨p, -, hp, hfree, -⟩
    · rw [hzero]
      exact physicalToVirtual_ne_zero (f := 0) (by decide)
    · have := (machine256_free p).mp hfree
      rw [hp]
      exact physicalToVirtual_ne_zero (by omega)

end FrostByte
