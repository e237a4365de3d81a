import FrostByte.Kernel.Process

/-!
# Forking a process

`sys_fork` of `src/syscall.c`, as far as the memory manager is concerned. The child is created like
any user process, with two pages of stack, and the parent's user pages are then copied into it; one
that lies where the child has its stack replaces the page of stack.

## Main definitions

* `cloneUserSpace` — the loop over the parent's page tables.
* `Vm.sysFork` — `sys_fork`, for the memory manager.
* `Cloned` — pages that were copied to frames of the child.

## Main results

* `cloneTables_spec` — what the loop copies.
* `sysFork_created` — what a fork that succeeds has built.
* `sysFork_succeeds` — with enough frames a fork succeeds.
-/

namespace FrostByte

open Word

/-- The flags of a copied page. -/
def cloneFlags (pte : ℕ) : ℕ :=
  pagePresent ||| pageUser ||| (if pte &&& pageWritable ≠ 0 then pageWritable else 0)

/-- The inner loop of `clone_user_space`, for page `v` with the entry `pte`. -/
def clonePage (dst v pte : ℕ) (s : Vm) : Bool × Vm :=
  let dstPhys := (pmmAllocPage s.pmm).1
  let s := { s with pmm := (pmmAllocPage s.pmm).2 }
  if dstPhys = 0 then (false, s)
  else if s.canMapTemp then
    let pageBuf := s.mem (entryFrame pte)
    match vmmMapPageInDirectory dst (v * 4096) dstPhys (cloneFlags pte) s with
    | (false, s) => (false, { s with pmm := pmmFreePage dstPhys s.pmm })
    | (true, s) =>
      if s.canMapTemp then (true, s.setFrame (dstPhys / 4096) pageBuf)
      else
        let s := (vmmUnmapPageInDirectory dst (v * 4096) s).2
        (false, { s with pmm := pmmFreePage dstPhys s.pmm })
  else (false, { s with pmm := pmmFreePage dstPhys s.pmm })

/-- The inner loop: `n` more entries of the table of entry `i`. -/
def cloneTable (dst i ptSrc : ℕ) : ℕ → ℕ → Vm → Bool × Vm
  | 0, _, s => (true, s)
  | n + 1, j, s =>
    if ¬ Present (s.mem ptSrc j) then cloneTable dst i ptSrc n (j + 1) s
    else
      match clonePage dst (i * 1024 + j) (s.mem ptSrc j) s with
      | (false, s) => (false, s)
      | (true, s) => cloneTable dst i ptSrc n (j + 1) s

/-- The outer loop: `n` more entries of the directory. -/
def cloneTables (src dst : ℕ) : ℕ → ℕ → Vm → Bool × Vm
  | 0, _, s => (true, s)
  | n + 1, i, s =>
    if ¬ Present (s.mem (dirFrame src) i) then cloneTables src dst n (i + 1) s
    else
      match cloneTable dst i (entryFrame (s.mem (dirFrame src) i)) 1024 0 s with
      | (false, s) => (false, s)
      | (true, s) => cloneTables src dst n (i + 1) s

/-- `clone_user_space`: the entries 2 to 767 are copied. -/
def cloneUserSpace (kmalloc : ℕ → Vm → Bool × Vm) (src dst : ℕ) (s : Vm) : Bool × Vm :=
  if src = 0 ∨ dst = 0 then (false, s)
  else
    match kmalloc 4096 s with
    | (false, s) => (false, s)
    | (true, s) => cloneTables src dst 766 2 s

/-- `sys_fork` for the parent `p`: the child, or nothing for `-1`. -/
def Vm.sysFork (kmalloc : ℕ → Vm → Bool × Vm) (p : Proc) (s : Vm) : Option Proc × Vm :=
  match Vm.processCreate kmalloc s with
  | (none, s) => (none, s)
  | (some child, s) =>
    match cloneUserSpace kmalloc p.pageDirectory child.pageDirectory s with
    | (false, s) => (none, vmmDestroyDirectory child.pageDirectory s)
    | (true, s) => (some child, s)

variable {s : Vm} {k d c : ℕ} {live : Set ℕ} {role : ℕ → Role} {H P : Set ℕ} {p : Proc}

/-! ## Copying the pages -/

lemma cloneFlags_lt (pte : ℕ) : cloneFlags pte < 4096 := by
  unfold cloneFlags
  split_ifs
  · decide
  · decide

lemma present_cloneFlags (pte : ℕ) : Present (cloneFlags pte) := by
  unfold cloneFlags
  split_ifs
  · decide
  · decide

/-- The user pages of `d` below page `v` have been copied to `c`. -/
structure Cloned (s₀ s : Vm) (k d c : ℕ) (live : Set ℕ) (role₀ role : ℕ → Role) (H P : Set ℕ)
    (v : ℕ) : Prop where
  ext : Extends s₀ s k c live role₀ role H P
  pages : ∀ g ∈ P, ∃ u < v, ¬ KernelIndex (u / 1024) ∧ Present (s.lookup c u) ∧
    entryFrame (s.lookup c u) = g
  copied : ∀ u < v, ¬ KernelIndex (u / 1024) → Present (s₀.lookup d u) → ∃ f, s₀.pmm.Free f ∧
    role f = .page c u ∧ s.lookup c u = mkEntry (f * 4096) (cloneFlags (s₀.lookup d u)) ∧
    s.mem f = s₀.mem (entryFrame (s₀.lookup d u))
  rest : ∀ u, ¬ KernelIndex (u / 1024) → ¬ (u < v ∧ Present (s₀.lookup d u)) →
    s.lookup c u = s₀.lookup c u

variable {child : Proc} {dst f m u w : ℕ} {kmalloc : ℕ → Vm → Bool × Vm} {role' : ℕ → Role} {t : Vm}

section Clone

variable {s₀ : Vm} {role₀ : ℕ → Role} {v : ℕ}

lemma Cloned.skip (h : Cloned s₀ s k d c live role₀ role H P v) (hvw : v ≤ w)
    (hnone : ∀ u, v ≤ u → u < w → ¬ KernelIndex (u / 1024) → ¬ Present (s₀.lookup d u)) :
    Cloned s₀ s k d c live role₀ role H P w := by
  refine ⟨h.ext, fun g hg => ?_, fun u hu huser hp => ?_, fun u huser hn => ?_⟩
  · obtain ⟨u, hu, hrest⟩ := h.pages g hg
    exact ⟨u, by omega, hrest⟩
  · by_cases huv : u < v
    · exact h.copied u huv huser hp
    · exact absurd hp (hnone u (by omega) hu huser)
  · exact h.rest u huser fun hc => hn ⟨by omega, hc.2⟩

lemma clonePage_spec (h : Cloned s₀ s k d c live role₀ role H P v) (hr₀ : Ready s₀ live)
    (h0 : ¬ s₀.pmm.Free 0) (hdst : dst ≠ 0) (hc : dirFrame dst = c) (hcl : c ∈ live)
    (hv : ¬ KernelIndex (v / 1024)) (hp : Present (s₀.lookup d v)) {x : ℕ}
    (hb : (role₀ (entryFrame (s₀.lookup d v))).Backs x w) :
    ∃ ok s', clonePage dst v (s₀.lookup d v) s = (ok, s') ∧
      (ok = true → (∃ role' f, Cloned s₀ s' k d c live role₀ role' H (P ∪ {f}) (v + 1)) ∧
        (∀ y ∈ live, ∀ j, Present (s.mem y j) → s'.mem y j = s.mem y j) ∧
        s.pmm.freeFrames.card ≤ s'.pmm.freeFrames.card + 2) ∧ (2 ≤ s.pmm.freeFrames.card →
        ok = true) := by
  have hpage : v * 4096 / 4096 = v := Nat.mul_div_cancel _ (by decide)
  have hr := h.ext.ready hr₀
  have h0s : ¬ s.pmm.Free 0 := fun hf => h0 (h.ext.free 0 hf)
  unfold clonePage
  rcases userPage_cases h.ext.sep hr h0s hdst (by rw [hc]; exact hcl) (v * 4096)
    (cloneFlags (s₀.lookup d v)) with hzero | ⟨f, hf0, haddr, hf, ok, s1, role1, hmap, hfail, hok⟩
  · rw [if_pos hzero]
    refine ⟨false, _, rfl, (fun hcon => by cases hcon), fun hcard => ?_⟩
    exact absurd hzero (pmmAllocPage_ne_zero h0s (by omega))
  have hne : (pmmAllocPage s.pmm).1 ≠ 0 := by omega
  have hpmm : Grows s { s with pmm := (pmmAllocPage s.pmm).2 } k live role role :=
    Grows.of_pmm h.ext.sep (pmmAllocPage_free_le s.pmm) (pmmAllocPage_spec s.pmm).1
  rw [if_neg hne, if_pos (hpmm.ready hr).canMapTemp, haddr, hmap]
  cases ok with
  | false =>
    refine ⟨false, _, rfl, (fun hcon => by cases hcon), fun hcard => ?_⟩
    have := (hfail rfl).2.1
    omega
  | true =>
    obtain ⟨hfresh, htaken⟩ := hok rfl
    rw [hpage, hc] at hfresh htaken
    dsimp only
    rw [if_pos (hfresh.grows.ready hr).canMapTemp, Nat.mul_div_cancel _ (by decide)]
    have hcard := hfresh.card
    generalize hwords : s.mem (entryFrame (s₀.lookup d v)) = words
    have hfill := hfresh.fill h.ext.sep hcl words
    have hcf : c ≠ f := h.ext.sep.free_ne_dir hf hcl
    have htaken' : TakenFor s (s1.setFrame f words) c v f := by
      intro g hg hg' hgf
      rw [Vm.setFrame_mem_frame _ _ hcf]
      exact htaken g hg hg' hgf
    have hstep := hfill.extends (H := H) hcl hv htaken'
    have hself := hfill.lookup_self hcl
    generalize ht : s1.setFrame f words = t at hfill hstep hself ⊢
    have hrole : role1 f = .page c v := by
      rw [hfill.frame, frameRole, if_neg hv]
    refine ⟨true, t, rfl, fun _ => ⟨⟨role1, f, ⟨h.ext.trans hcl hstep, fun g hg => ?_,
      fun u hu huser hpu => ?_, fun u huser hn => ?_⟩⟩, hstep.pde, ?_⟩, fun _ => rfl⟩
    · rcases hg with hg | hg
      · obtain ⟨u, hu, huser, hpu, hframe⟩ := h.pages g hg
        refine ⟨u, by omega, huser, ?_⟩
        rw [hself, if_neg (by omega)]
        exact ⟨hpu, hframe⟩
      · obtain rfl : g = f := hg
        refine ⟨v, by omega, hv, ?_⟩
        rw [hself, if_pos rfl, present_mkEntry (cloneFlags_lt _),
          entryFrame_mkEntry (cloneFlags_lt _),
          Nat.mul_div_cancel _ (by decide)]
        exact ⟨present_cloneFlags _, rfl⟩
    · by_cases huv : u = v
      · subst huv
        refine ⟨f, h.ext.free f hf, hrole, by rw [hself, if_pos rfl], ?_⟩
        rw [← ht, Vm.setFrame_mem_same, ← hwords]
        exact h.ext.backed _ _ _ hb
      · obtain ⟨g, hg, hgrole, hentry, hmem⟩ := h.copied u (by omega) huser hpu
        refine ⟨g, hg, ?_, by rw [hself, if_neg huv, hentry], ?_⟩
        · rw [hstep.roles g (by simp [hgrole]), hgrole]
        · rw [hstep.backed g c u (.inl hgrole), hmem]
    · have huv : u ≠ v := by
        rintro rfl
        exact hn ⟨Nat.lt_succ_self u, hp⟩
      rw [hself, if_neg huv]
      exact h.rest u huser fun hcu => hn ⟨by omega, hcu.2⟩
    · rw [← ht]
      show _ ≤ s1.pmm.freeFrames.card + 2
      split_ifs at hcard
      · omega
      · omega

/-- The number of user pages of `d` from page `v` on. -/
def userPages (s : Vm) (d v : ℕ) : ℕ :=
  ((Finset.Ico v (768 * 1024)).filter fun u => Present (s.lookup d u)).card

lemma userPages_eq (s : Vm) (d : ℕ) {v : ℕ} (hv : v < 768 * 1024) :
    userPages s d v = userPages s d (v + 1) + if Present (s.lookup d v) then 1 else 0 := by
  unfold userPages
  have hico : Finset.Ico v (768 * 1024) = insert v (Finset.Ico (v + 1) (768 * 1024)) := by
    ext u
    simp only [Finset.mem_Ico, Finset.mem_insert]
    omega
  have hnot : v ∉ (Finset.Ico (v + 1) (768 * 1024)).filter fun u => Present (s.lookup d u) := by
    simp
  rw [hico, Finset.filter_insert]
  split_ifs
  · simp
  · rfl

lemma userPages_congr {s s' : Vm} {d : ℕ}
    (h : ∀ u, ¬ KernelIndex (u / 1024) → s'.lookup d u = s.lookup d u) :
    userPages s' d (2 * 1024) = userPages s d (2 * 1024) := by
  apply congrArg Finset.card
  apply Finset.filter_congr
  intro u hu
  rw [Finset.mem_Ico] at hu
  have huser : ¬ KernelIndex (u / 1024) := by
    unfold KernelIndex
    omega
  rw [h u huser]

lemma userPages_le_card {s : Vm} {d : ℕ} {t : Finset ℕ}
    (h : ∀ u, ¬ KernelIndex (u / 1024) → Present (s.lookup d u) → u ∈ t) :
    userPages s d (2 * 1024) ≤ t.card := by
  apply Finset.card_le_card
  intro u hu
  rw [Finset.mem_filter, Finset.mem_Ico] at hu
  apply h u _ hu.2
  unfold KernelIndex
  omega

lemma userPages_anti (s : Vm) (d : ℕ) {v : ℕ} (h : v ≤ w) : userPages s d w ≤ userPages s d v := by
  apply Finset.card_le_card
  apply Finset.filter_subset_filter
  exact Finset.Ico_subset_Ico_left h

/-- **The inner loop** copies one table. Two frames for each page are enough. -/
lemma cloneTable_spec {i ptSrc n j : ℕ} (h : Cloned s₀ s k d c live role₀ role H P (i * 1024 + j))
    (hr₀ : Ready s₀ live) (h0 : ¬ s₀.pmm.Free 0) (hdst : dst ≠ 0) (hc : dirFrame dst = c)
    (hcl : c ∈ live) (hd : d ∈ live) (hdc : d ≠ c) (hi : ¬ KernelIndex i) (hjn : j + n = 1024)
    (hpd : Present (s.mem d i)) (hpt : entryFrame (s.mem d i) = ptSrc)
    (hb : ∀ u, ¬ KernelIndex (u / 1024) → Present (s₀.lookup d u) →
      (role₀ (entryFrame (s₀.lookup d u))).Backs d u) : ∃ ok s', cloneTable dst i ptSrc n j s = (ok,
      s') ∧ (ok = true → ∃ role' Q, Cloned s₀ s' k d c live role₀ role' H Q ((i + 1) * 1024)) ∧
      (2 * userPages s₀ d (i * 1024 + j) ≤ s.pmm.freeFrames.card →
        ok = true ∧ 2 * userPages s₀ d ((i + 1) * 1024) ≤ s'.pmm.freeFrames.card) := by
  induction n generalizing s role P j with
  | zero =>
    have hend : i * 1024 + j = (i + 1) * 1024 := by omega
    rw [hend] at h ⊢
    exact ⟨true, s, rfl, fun _ => ⟨role, P, h⟩, fun hcard => ⟨rfl, hcard⟩⟩
  | succ n ih =>
    have hidx : (i * 1024 + j) / 1024 = i := by omega
    have hpos : (i * 1024 + j) % 1024 = j := by omega
    have huser : ¬ KernelIndex ((i * 1024 + j) / 1024) := by
      rw [hidx]
      exact hi
    have hlt : i * 1024 + j < 768 * 1024 := by
      unfold KernelIndex at hi
      omega
    have hcount := userPages_eq s₀ d hlt
    have hentry : s.mem ptSrc j = s₀.lookup d (i * 1024 + j) := by
      rw [← h.ext.others d hd hdc _ huser, Vm.lookup_of_present (by rwa [hidx]), hidx, hpos, hpt]
    unfold cloneTable
    rw [hentry]
    by_cases hp : Present (s₀.lookup d (i * 1024 + j))
    · rw [if_neg (not_not.mpr hp)]
      rw [if_pos hp, Nat.add_assoc (i * 1024)] at hcount
      obtain ⟨ok, s1, hpage, hok, hsucc⟩ :=
        clonePage_spec h hr₀ h0 hdst hc hcl huser hp (hb _ huser hp)
      rw [hpage]
      cases ok with
      | false =>
        refine ⟨false, s1, rfl, (fun hcon => by cases hcon), fun hcard => ?_⟩
        have := hsucc (by omega)
        cases this
      | true =>
        obtain ⟨⟨role1, f, hnext⟩, hpde, hframes⟩ := hok rfl
        have hsame := hpde d hd i hpd
        rw [Nat.add_assoc] at hnext
        obtain ⟨ok, s', hrun, hcloned, henough⟩ :=
          ih hnext (by omega) (by rwa [hsame]) (by rwa [hsame])
        exact ⟨ok, s', hrun, hcloned, fun hcard => henough (by omega)⟩
    · rw [if_pos hp]
      rw [Nat.add_assoc (i * 1024)] at hcount
      have hskip : Cloned s₀ s k d c live role₀ role H P (i * 1024 + (j + 1)) := by
        refine h.skip (by omega) fun u h1 h2 _ => ?_
        obtain rfl : u = i * 1024 + j := by omega
        exact hp
      obtain ⟨ok, s', hrun, hcloned, henough⟩ := ih hskip (by omega) hpd hpt
      exact ⟨ok, s', hrun, hcloned, fun hcard => henough (by omega)⟩

/-- **The outer loop** copies all tables. Two frames for each page are enough. -/
lemma cloneTables_spec {src n i : ℕ} (h : Cloned s₀ s k d c live role₀ role H P (i * 1024))
    (hr₀ : Ready s₀ live) (h0 : ¬ s₀.pmm.Free 0) (hsrc : dirFrame src = d) (hdst : dst ≠ 0)
    (hc : dirFrame dst = c) (hcl : c ∈ live) (hd : d ∈ live) (hdc : d ≠ c) (hi : 2 ≤ i)
    (hin : i + n = 768) (hb : ∀ u, ¬ KernelIndex (u / 1024) → Present (s₀.lookup d u) →
      (role₀ (entryFrame (s₀.lookup d u))).Backs d u) : ∃ ok s', cloneTables src dst n i s = (ok,
      s') ∧ (ok = true → ∃ role' Q, Cloned s₀ s' k d c live role₀ role' H Q (768 * 1024)) ∧
      (2 * userPages s₀ d (i * 1024) ≤ s.pmm.freeFrames.card → ok = true) := by
  induction n generalizing s role P i with
  | zero =>
    rw [show i = 768 by omega] at h
    exact ⟨true, s, rfl, fun _ => ⟨role, P, h⟩, fun _ => rfl⟩
  | succ n ih =>
    have huser : ¬ KernelIndex i := by
      unfold KernelIndex
      omega
    unfold cloneTables
    rw [hsrc]
    by_cases hp : Present (s.mem d i)
    · rw [if_neg (not_not.mpr hp)]
      rw [← Nat.add_zero (i * 1024)] at h
      obtain ⟨m, hm⟩ : ∃ m, m = 1024 := ⟨_, rfl⟩
      obtain ⟨ok, s1, htable, hok, hsucc⟩ := cloneTable_spec h hr₀ h0 hdst hc hcl hd hdc huser
        (show 0 + m = 1024 by omega) hp rfl hb
      rw [Nat.add_zero] at hsucc
      rw [hm] at htable
      rw [htable]
      cases ok with
      | false =>
        refine ⟨false, s1, rfl, (fun hcon => by cases hcon), fun hcard => ?_⟩
        cases (hsucc hcard).1
      | true =>
        obtain ⟨role1, Q, hnext⟩ := hok rfl
        obtain ⟨ok, s', hrun, hcloned, henough⟩ := ih hnext (by omega) (by omega)
        exact ⟨ok, s', hrun, hcloned, fun hcard => henough (hsucc hcard).2⟩
    · rw [if_pos hp]
      have hskip : Cloned s₀ s k d c live role₀ role H P ((i + 1) * 1024) := by
        refine h.skip (by omega) fun u h1 h2 hu hpu => ?_
        rw [← h.ext.others d hd hdc u hu] at hpu
        have hpd := present_of_lookup hpu
        rw [show u / 1024 = i by omega] at hpd
        exact hp hpd
      have hcount := userPages_anti s₀ d (show i * 1024 ≤ (i + 1) * 1024 by omega)
      obtain ⟨ok, s', hrun, hcloned, henough⟩ := ih hskip (by omega) (by omega)
      exact ⟨ok, s', hrun, hcloned, fun hcard =>
        henough ((Nat.mul_le_mul_left 2 hcount).trans hcard)⟩

lemma Cloned.refl (hs : Sep s k live role) : Cloned s s k d c live role role H ∅ (2 * 1024) := by
  refine ⟨Extends.refl hs, by simp, fun u hu huser => ?_, fun _ _ _ => rfl⟩
  exact absurd (.inl (by omega)) huser

end Clone

/-! ## The call -/

/-- User pages are backed by frames of the process, of shared or of reserved memory. -/
structure ForkParent (p : Proc) (s : Vm) (k : ℕ) (live : Set ℕ) (role : ℕ → Role) : Prop
    extends UserProcess p s k live role where
  backed : ∀ u, ¬ KernelIndex (u / 1024) → Present (s.lookup (dirFrame p.pageDirectory) u) →
    (role (entryFrame (s.lookup (dirFrame p.pageDirectory) u))).Backs (dirFrame p.pageDirectory) u
  flags : ∀ u, ¬ KernelIndex (u / 1024) → Present (s.lookup (dirFrame p.pageDirectory) u) →
    s.lookup (dirFrame p.pageDirectory) u % 4096 = 5 ∨
    s.lookup (dirFrame p.pageDirectory) u % 4096 = 7

/-- A fork that gets as far as the copy: with frames for all user pages and their tables the copy
succeeds, and otherwise the child is destroyed. -/
lemma sysFork_created (h : ForkParent p s k live role) (hkm : KmallocSpec kmalloc k H) {s₁ s₂ : Vm}
    (hcreate : Vm.processCreate kmalloc s = (some child, s₁))
    (hbuf : kmalloc 4096 s₁ = (true, s₂)) : ∃ ok s', Vm.sysFork kmalloc p s = (match ok with
        | false => (none, vmmDestroyDirectory child.pageDirectory s')
        | true => (some child, s')) ∧
      (ok = true → ∃ role₁ role₂ role' f₁ f₂ P,
        child.heapStart = userHeapBase ∧ child.heapEnd = userHeapBase ∧
        Born s s₁ k (dirFrame child.pageDirectory) live role role₁ H f₁ f₂ ∧
        HeapGrowth s₁ s₂ k (insert (dirFrame child.pageDirectory) live) role₁ role₂ H ∧
        Cloned s₂ s' k (dirFrame p.pageDirectory) (dirFrame child.pageDirectory)
          (insert (dirFrame child.pageDirectory) live) role₂ role' H P (768 * 1024)) ∧
      (2 * userPages s (dirFrame p.pageDirectory) (2 * 1024) ≤ s₂.pmm.freeFrames.card →
        ok = true) := by
  obtain ⟨c, f₁, f₂, role₁, hstart, hend, hdir, hptr, hborn⟩ :=
    processCreate_spec h.toUserProcess hkm hcreate
  obtain ⟨role₂, hheap⟩ := hkm 4096 (by decide) s₁ _ _ hborn.sep hborn.ready
  rw [hbuf] at hheap
  have hd := h.live
  have hdc : dirFrame p.pageDirectory ≠ c := ne_of_mem_of_not_mem hd hborn.notLive
  have hdl : dirFrame p.pageDirectory ∈ insert c live := Set.mem_insert_of_mem _ hd
  have hlook : ∀ u, ¬ KernelIndex (u / 1024) →
      s₂.lookup (dirFrame p.pageDirectory) u = s.lookup (dirFrame p.pageDirectory) u := by
    intro u hu
    rw [hheap.user _ hdl u hu, hborn.others _ hd h.own u hu]
  have hb : ∀ u, ¬ KernelIndex (u / 1024) → Present (s₂.lookup (dirFrame p.pageDirectory) u) →
      (role₂ (entryFrame (s₂.lookup (dirFrame p.pageDirectory) u))).Backs
        (dirFrame p.pageDirectory) u := by
    intro u hu hpu
    rw [hlook u hu] at hpu ⊢
    have hback := h.backed u hu hpu
    have hrole := hborn.roles _ hback.isData.ne_free
    rw [hheap.roles _ (by rw [hrole]; exact hback.isData.ne_free), hrole]
    exact hback
  have h0 : ¬ s₂.pmm.Free 0 := fun hf => h.zero_not_free (hborn.free 0 (hheap.free 0 hf))
  generalize hn : 766 = n
  obtain ⟨ok, s', hclone, hcl, hsucc⟩ := cloneTables_spec (Cloned.refl hheap.sep)
    ((hheap.extends (c := c)).ready hborn.ready) h0 rfl hptr hdir
    (Set.mem_insert _ _) hdl hdc le_rfl
    (show 2 + n = 768 by omega) hb
  rw [userPages_congr hlook] at hsucc
  rw [← hn] at hclone
  refine ⟨ok, s', ?_, fun hok => ?_, hsucc⟩
  · unfold Vm.sysFork
    rw [hcreate]
    dsimp only
    unfold cloneUserSpace
    rw [if_neg fun hc => hc.elim h.nonnull hptr, hbuf]
    dsimp only
    rw [hclone]
    cases ok with
    | false => rfl
    | true => rfl
  · obtain ⟨role', P, hcl⟩ := hcl hok
    rw [hdir]
    exact ⟨role₁, role₂, role', f₁, f₂, P, hstart, hend, hborn, hheap, hcl⟩

/-! ## A new process on the machine with 256 MiB -/

lemma kmallocSpec_id (k : ℕ) : KmallocSpec (fun _ s => (true, s)) k ∅ := by
  intro n _ s live role hs _
  exact ⟨role, hs, fun _ _ => rfl, fun _ hg => hg, rfl, rfl, fun _ _ _ _ => rfl, fun _ _ _ _ => rfl,
    fun _ _ _ _ => rfl, fun _ hg hg' => absurd hg hg'⟩

/-- Two frames for each user page and eight more are enough, when `kmalloc` takes none. -/
lemma sysFork_succeeds (h : ForkParent p s k live role)
    (hcard : 2 * userPages s (dirFrame p.pageDirectory) (2 * 1024) + 8 ≤ s.pmm.freeFrames.card)
    (hlow : ∀ g, s.pmm.Free g → g < 0x40000) :
    ∃ child s', Vm.sysFork (fun _ s => (true, s)) p s = (some child, s') := by
  obtain ⟨child, s₁, hcreate, hleft⟩ := processCreate_succeeds h.toUserProcess (by omega) hlow
  obtain ⟨ok, s', hfork, -, hok⟩ := sysFork_created h (kmallocSpec_id k) hcreate rfl
  rw [hok (by omega)] at hfork
  exact ⟨child, s', hfork⟩

lemma NewSpace.forkParent (hn : NewSpace k f s role) {q : Proc}
    (hq : q.pageDirectory = (newProc f).pageDirectory) {s' : Vm}
    (ht : t = { s with currentDirectory := q.pageDirectory }) {v : ℕ}
    (hg : Grown t s' k {f, k} role role' f v m) : ForkParent q s' k {f, k} role' := by
  have hspace := hn.space
  have hdir := hn.dir
  have hnonnull := hspace.nonnull
  have hscratch := hspace.scratch
  rw [← hq] at hnonnull
  rw [hdir] at hscratch
  rw [← hq] at hdir
  have hfl : f ∈ ({f, k} : Set ℕ) := Set.mem_insert _ _
  have hkl : k ∈ ({f, k} : Set ℕ) := Set.mem_insert_of_mem _ rfl
  have hmem : t.mem = s.mem := by rw [ht]
  have hgrows := hg.grows
  have hpde : ∀ x ∈ ({f, k} : Set ℕ), Present (s.mem x 1) → Present (s'.mem x 1) := by
    intro x hx hp
    rw [hgrows.pde x hx 1 (by rw [hmem]; exact hp), hmem]
    exact hp
  have hzero : role' 0 = .reserved := by
    rw [hgrows.roles 0 (by simp [hspace.zero]), hspace.zero]
  have hcurrent : s'.currentDirectory = q.pageDirectory := by
    rw [hgrows.currentDirectory, ht]
  have hkd : s'.kernelDirectory = s.kernelDirectory := by
    rw [hgrows.kernelDirectory, ht]
  -- the user pages are those of the heap
  have huser : ∀ u, ¬ KernelIndex (u / 1024) → Present (s'.lookup (dirFrame q.pageDirectory) u) →
      ∃ g, s'.lookup (dirFrame q.pageDirectory) u = mkEntry (g * 4096) 7 ∧ role' g = .page f u := by
    intro u hu hp
    rw [hdir] at hp ⊢
    by_cases hr : v ≤ u ∧ u < v + m
    · obtain ⟨g, -, hentry, hrole, -⟩ := hg.mapped u hr.1 hr.2
      rw [frameRole, if_neg hu] at hrole
      exact ⟨g, hentry, hrole⟩
    · simp [hg.out f hfl u hr, Vm.lookup_of_mem_eq hmem, hn.user hu] at hp
  refine ⟨⟨⟨hgrows.sep, hzero, hnonnull, ?_, ?_⟩, hcurrent, ?_, ?_, ?_,
    hpde k hkl hn.kernelScratch⟩,
    fun u hu hp => ?_, fun u hu hp => ?_⟩
  · rw [hdir]
    exact hfl
  · rw [hdir]
    exact hpde f hfl hscratch
  · rw [hdir]
    exact hn.ne
  · rw [hkd]
    exact hn.kernel
  · rw [hkd]
    exact hn.kernelNonnull
  · obtain ⟨g, hentry, hrole⟩ := huser u hu hp
    rw [hentry, entryFrame_mkEntry (by decide), Nat.mul_div_cancel _ (by decide), hrole, hdir]
    exact .inl rfl
  · obtain ⟨g, hentry, -⟩ := huser u hu hp
    rw [hentry, mkEntry_eq (by decide), Nat.mul_add_mod']
    exact .inr rfl

lemma NewSpace.userPages_le (hn : NewSpace k f s role) {s' : Vm} (hmem : t.mem = s.mem) {v : ℕ}
    (hg : Grown t s' k {f, k} role role' f v m) : userPages s' f (2 * 1024) ≤ m := by
  have hico : (Finset.Ico v (v + m)).card = m := by
    simp
  rw [← hico]
  refine userPages_le_card fun u hu hp => ?_
  rw [Finset.mem_Ico]
  by_contra hr
  simp [hg.out f (Set.mem_insert _ _) u hr, Vm.lookup_of_mem_eq hmem, hn.user hu] at hp

/-- A process whose heap has grown by a few pages can be forked. -/
lemma NewSpace.sysFork_succeeds (hn : NewSpace k f s role) {q : Proc}
    (hq : q.pageDirectory = (newProc f).pageDirectory) {s' : Vm}
    (ht : t = { s with currentDirectory := q.pageDirectory }) {v : ℕ}
    (hg : Grown t s' k {f, k} role role' f v m) (hm : m ≤ 0x10) :
    ∃ child s'', Vm.sysFork (fun _ s => (true, s)) q s' = (some child, s'') := by
  have hmem : t.mem = s.mem := by rw [ht]
  have hpages := hn.userPages_le hmem hg
  have hleft := hg.card
  have hframes : 0x100 ≤ t.pmm.freeFrames.card ∧ ∀ g, t.pmm.Free g → g < 0x10000 := by
    rw [ht]
    exact hn.frames
  have hdir : dirFrame q.pageDirectory = f := by
    rw [hq]
    exact hn.dir
  refine FrostByte.sysFork_succeeds (hn.forkParent hq ht hg) ?_ fun g hfree => ?_
  · rw [hdir]
    omega
  · have := hframes.2 g (hg.grows.free g hfree)
    omega

lemma machine256_fork : ∃ (k f : ℕ) (s s' : Vm) (role : ℕ → Role) (p child : Proc),
    ForkParent p s k {f, k} role ∧ dirFrame p.pageDirectory = f ∧
    (p.heapStart = 0 ∧ p.heapEnd = 0) ∧ (∀ u, ¬ KernelIndex (u / 1024) → s.lookup f u = 0) ∧
    Vm.sysFork (fun _ s => (true, s)) p s = (some child, s') := by
  obtain ⟨k, f, s, role, p, hn, hp, hspace, hdir, hnew⟩ := machine256_newProc
  have hswitched := hspace.switched.2.1
  obtain ⟨t, ht⟩ : ∃ t : Vm, t = { s with currentDirectory := p.pageDirectory } := ⟨_, rfl⟩
  rw [← ht] at hswitched
  have hgrown : Grown t t k {f, k} role role f 0 0 := Grown.refl hswitched f 0
  have hmem : t.mem = s.mem := by rw [ht]
  have hptr : p.pageDirectory = (newProc f).pageDirectory := by rw [hp]
  obtain ⟨child, s', hcall⟩ := hn.sysFork_succeeds hptr ht hgrown (Nat.zero_le _)
  refine ⟨k, f, t, s', role, p, child, hn.forkParent hptr ht hgrown, hdir, hnew, fun u hu =>
    ?_, hcall⟩
  rw [Vm.lookup_of_mem_eq hmem, hn.user hu]

end FrostByte
