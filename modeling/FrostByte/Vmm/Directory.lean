import FrostByte.Vmm.Boot

/-!
# Creating a page directory

`vmm_create_directory` takes a frame, maps it into the kernel directory and copies the kernel's
entries into it. The new directory is separated from the others and has no user page.

## Main definitions

* `NewFrame`, `Created` — the frame that is taken, and the new directory in it.

## Main results

* `vmmCreateDirectory_cases` — what a call does.
* `Booted.create` — the first directory after boot.
-/

namespace FrostByte

open Word Function

variable {s : Vm} {k : ℕ} {live : Set ℕ} {role : ℕ → Role}

/-! ## Changing the role of one frame -/

/-- A frame that is neither a directory nor a page table. -/
def Role.IsPlain : Role → Prop
  | .dir | .table _ _ => False
  | _ => True

lemma Sep.setRole (hs : Sep s k live role) {f : ℕ} (hf : (role f).IsPlain) {r : Role} {pmm : Pmm}
    (hfree : ∀ g, pmm.Free g → update role f r g = .free) :
    Sep { s with pmm := pmm } k live (update role f r) := by
  have hkeep : ∀ g, ¬ (role g).IsPlain → update role f r g = role g := by
    intro g hg
    refine update_of_ne ?_ _ _
    rintro rfl
    exact hg hf
  refine ⟨⟨hs.kernel, fun d hd => ?_, fun d hd i hp => ?_⟩, hfree⟩
  · rw [hkeep d (by rw [hs.dir d hd]; exact id)]
    exact hs.dir d hd
  · obtain ⟨o, ho⟩ := hs.table_index hd hp
    rw [hkeep _ (by rw [ho]; exact id)]
    exact hs.table d hd i hp

lemma Sep.claim (hs : Sep s k live role) {f : ℕ} (hf : s.pmm.Free f) {pmm : Pmm}
    (hfree : ∀ g, pmm.Free g ↔ s.pmm.Free g ∧ g ≠ f) (r : Role) :
    Sep { s with pmm := pmm } k live (update role f r) := by
  refine hs.setRole (by rw [hs.free f hf]; exact trivial) fun g hg => ?_
  obtain ⟨hg1, hg2⟩ := (hfree g).mp hg
  rw [update_of_ne hg2]
  exact hs.free g hg1

/-! ## The new directory -/

/-- The frame `f` with the kernel's entries of `k`. -/
def newDirectory (k f : ℕ) (s : Vm) : Vm :=
  copyEntries (fun i => (decide (768 ≤ i ∧ i < 1024) || decide (i < 2)) &&
    decide (Present ((s.zeroFrame f).mem k i))) k f (s.zeroFrame f)

lemma newDirectory_mem_other (k : ℕ) {f g : ℕ} (hg : g ≠ f) (s : Vm) :
    (newDirectory k f s).mem g = s.mem g := by
  simp [newDirectory, copyEntries, update_of_ne hg, Vm.zeroFrame_mem_frame _ hg]

lemma newDirectory_mem_self {k f : ℕ} (hk : k ≠ f) (s : Vm) (i : ℕ) : (newDirectory k f s).mem f i =
      if (KernelIndex i ∧ i < 1024) ∧ Present (s.mem k i) then s.mem k i else 0 := by
  simp only [newDirectory, copyEntries, update_self, Vm.zeroFrame_mem_frame _ hk,
    Vm.zeroFrame_mem_same, Bool.and_eq_true, Bool.or_eq_true, decide_eq_true_eq]
  refine if_congr (and_congr ?_ Iff.rfl) rfl rfl
  unfold KernelIndex
  omega

/-- The frame was neither a directory nor a page table. -/
structure NewFrame (s : Vm) (live : Set ℕ) (role : ℕ → Role) (f : ℕ) : Prop where
  held : role f = .held
  used : ¬ s.pmm.Free f

namespace NewFrame

variable {f : ℕ}

section

variable (hf : NewFrame s live role f) (hs : Sep s k live role)

include hf hs

lemma ne_dir {x : ℕ} (hx : x ∈ live) : x ≠ f := by
  rintro rfl
  have := hs.dir _ hx
  rw [hf.held] at this
  cases this

lemma ne_table {x i : ℕ} (hx : x ∈ live) (hp : Present (s.mem x i)) :
    entryFrame (s.mem x i) ≠ f := by
  rintro rfl
  obtain ⟨o, ho⟩ := hs.table_index hx hp
  rw [hf.held] at ho
  cases ho

lemma sep : Sep (newDirectory k f s) k (insert f live) (update role f .dir) := by
  have hkf : k ≠ f := hf.ne_dir hs hs.kernel
  have hkeep : ∀ x ∈ live, ∀ i, Present (s.mem x i) →
      update role f .dir (entryFrame (s.mem x i)) = role (entryFrame (s.mem x i)) :=
    fun x hx i hp => update_of_ne (hf.ne_table hs hx hp) _ _
  refine ⟨⟨Set.mem_insert_of_mem _ hs.kernel, fun d hd => ?_, fun d hd i hp => ?_⟩, fun g hg => ?_⟩
  · rcases Set.mem_insert_iff.mp hd with rfl | hd
    · exact update_self _ _ _
    · rw [update_of_ne (hf.ne_dir hs hd)]
      exact hs.dir d hd
  · rcases Set.mem_insert_iff.mp hd with rfl | hd
    · rw [newDirectory_mem_self hkf] at hp ⊢
      by_cases hi : (KernelIndex i ∧ i < 1024) ∧ Present (s.mem k i)
      · rw [if_pos hi]
        right
        refine ⟨hi.1.1, ?_⟩
        rw [hkeep k hs.kernel i hi.2]
        rcases hs.table k hs.kernel i hi.2 with h | ⟨-, h⟩
        · exact h
        · exact h
      · simp [if_neg hi] at hp
    · rw [newDirectory_mem_other k (hf.ne_dir hs hd)] at hp ⊢
      rw [hkeep d hd i hp]
      exact hs.table d hd i hp
  · have hgf : g ≠ f := by
      rintro rfl
      exact hf.used hg
    rw [update_of_ne hgf]
    exact hs.free g hg

lemma lookup_old {x : ℕ} (hx : x ∈ live) (u : ℕ) :
    (newDirectory k f s).lookup x u = s.lookup x u := by
  have hmem := newDirectory_mem_other k (hf.ne_dir hs hx) s
  by_cases hp : Present (s.mem x (u / 1024))
  · rw [Vm.lookup_of_present hp, Vm.lookup_of_present (by rwa [hmem]), hmem,
      newDirectory_mem_other k (hf.ne_table hs hx hp)]
  · rw [Vm.lookup_of_not_present hp, Vm.lookup_of_not_present (by rwa [hmem])]

lemma lookup_new (u : ℕ) : (newDirectory k f s).lookup f u =
      if KernelIndex (u / 1024) ∧ u / 1024 < 1024 then s.lookup k u else 0 := by
  have hself := newDirectory_mem_self (hf.ne_dir hs hs.kernel) s (u / 1024)
  by_cases hi : (KernelIndex (u / 1024) ∧ u / 1024 < 1024) ∧ Present (s.mem k (u / 1024))
  · rw [if_pos hi] at hself
    rw [if_pos hi.1, Vm.lookup_of_present hi.2, Vm.lookup_of_present (by rw [hself]; exact hi.2),
      hself, newDirectory_mem_other k (hf.ne_table hs hs.kernel hi.2)]
  · rw [if_neg hi] at hself
    rw [Vm.lookup_of_not_present (by rw [hself]; exact not_present_zero)]
    by_cases hu : KernelIndex (u / 1024) ∧ u / 1024 < 1024
    · rw [if_pos hu, Vm.lookup_of_not_present fun hp => hi ⟨hu, hp⟩]
    · rw [if_neg hu]

end

end NewFrame

/-! ## `vmm_create_directory` -/

lemma Grows.claim (hs : Sep s k live role) {f : ℕ} (hf : s.pmm.Free f) {pmm : Pmm}
    (hfree : ∀ g, pmm.Free g ↔ s.pmm.Free g ∧ g ≠ f) (ht : pmm.totalPages = s.pmm.totalPages)
    (r : Role) : Grows s { s with pmm := pmm } k live role (update role f r) := by
  refine ⟨hs.claim hf hfree r, fun g hg => update_of_ne ?_ _ _,
    fun g hg => ((hfree g).mp hg).1, ht, rfl, rfl, fun _ _ _ _ => rfl, fun _ _ => rfl⟩
  rintro rfl
  exact hg (hs.free _ hf)

lemma Grows.restore {a : ℕ} {s' : Vm} {role' : ℕ → Role}
    (h : Grows { s with currentDirectory := a } s' k live role role') :
    Grows s { s' with currentDirectory := s.currentDirectory } k live role role' :=
  ⟨h.sep.congr (fun _ hf => hf) fun _ _ => rfl, h.roles, h.free, h.totalPages, h.kernelDirectory,
    rfl, h.pde, h.data⟩

/-- `vmm_create_directory` has mapped the frame `f` into the kernel directory. -/
structure Created (s s' : Vm) (k : ℕ) (live : Set ℕ) (role role' : ℕ → Role) (f : ℕ) : Prop where
  fresh : s.pmm.Free f
  grows : Grows s s' k live role role'
  frame : NewFrame s' live role' f
  card : s.pmm.freeFrames.card ≤ s'.pmm.freeFrames.card + 2
  pde : ∀ x ∈ live, ∀ j, ¬ (x = k ∧ j = physicalToVirtual (f * 4096) / 4096 / 1024) →
    s'.mem x j = s.mem x j
  present : Present (s'.mem k (physicalToVirtual (f * 4096) / 4096 / 1024))
  lookup : ∀ x ∈ live, ∀ u, s'.lookup x u =
    if u = physicalToVirtual (f * 4096) / 4096 ∧
      s'.Shares x k (physicalToVirtual (f * 4096) / 4096 / 1024) then mkEntry (f * 4096) 3
    else s.lookup x u

/-- **`vmm_create_directory`** fails for want of frames, or turns a free frame into a directory. -/
lemma vmmCreateDirectory_cases (hs : Sep s k live role) (hk : dirFrame s.kernelDirectory = k)
    (hk0 : s.kernelDirectory ≠ 0) (hscratch : Present (s.mem k 1)) :
    (∃ pmm : Pmm, vmmCreateDirectory s = (0, { s with pmm := pmm }) ∧
      pmm.totalPages = s.pmm.totalPages ∧ (∀ g, pmm.Free g → s.pmm.Free g) ∧
      (s.pmm.Free 0 ∨ s.pmm.freeFrames.card ≤ 1)) ∨
    ∃ f s' role', vmmCreateDirectory s = (physicalToVirtual (f * 4096), newDirectory k f s') ∧
      Created s s' k live role role' f := by
  obtain ⟨htotal, halloc⟩ := pmmAllocPage_spec s.pmm
  rcases halloc with ⟨hzero, hfree, -⟩ | ⟨f, hf0, haddr, hf, hfree⟩
  · left
    refine ⟨_, ?_, htotal, fun g hg => ((hfree g).mp hg).1, ?_⟩
    · simp [vmmCreateDirectory, hzero]
    · by_contra hno
      exact pmmAllocPage_ne_zero (fun h => hno (.inl h)) (by omega) hzero
  have hne : f * 4096 ≠ 0 := by omega
  have hlt : f < 0x100000 := hf.2.1
  have hdir := dirFrame_physicalToVirtual hlt
  -- the frame is held while it is mapped into the kernel directory
  obtain ⟨s1, hs1⟩ : ∃ s1 : Vm, s1 =
    { s with pmm := (pmmAllocPage s.pmm).2, currentDirectory := s.kernelDirectory } := ⟨_, rfl⟩
  have hclaim := Grows.claim hs hf hfree htotal .held
  have hsep1 : Sep s1 k live (update role f .held) :=
    hclaim.sep.congr (by simp [hs1]) (by simp [hs1])
  have hactive : s1.active = s.kernelDirectory := by simp [Vm.active, hs1, hk0]
  have hready : Ready s1 live := by
    refine ⟨by rwa [hactive], by rw [hactive, hk]; exact hs.kernel, ?_⟩
    rw [hactive, hk, hs1]
    exact hscratch
  obtain ⟨ok, s2, role2, hmap, hm⟩ := mapPage_spec hsep1 hs.kernel
    hready.reachable pmmFreePage (physicalToVirtual (f * 4096)) (f * 4096)
    (pagePresent ||| pageWritable)
  have hgrow := hm.grows
  have hcall : vmmMapPage (physicalToVirtual (f * 4096)) (f * 4096) (pagePresent ||| pageWritable)
      s1 = (ok, s2) := by
    rw [vmmMapPage, hactive, hk, hmap]
  have hfree2 : ∀ g, s2.pmm.Free g → s.pmm.Free g ∧ g ≠ f := by
    intro g hg
    have := hgrow.free g hg
    rw [hs1] at this
    exact (hfree g).mp this
  have hk2 : dirFrame s2.kernelDirectory = k := by rw [hgrow.kernelDirectory, hs1]; exact hk
  rw [hs1] at hcall
  cases ok with
  | false =>
    left
    have hs2 := hm.fail rfl
    refine ⟨pmmFreePage (f * 4096) s2.pmm, ?_, ?_, fun g hg => ?_, ?_⟩
    · simp only [vmmCreateDirectory, haddr, hne, hcall]
      simp [hs2, hs1]
    · rw [pmmFreePage_totalPages, hgrow.totalPages, hs1]
      exact htotal
    · rcases (pmmFreePage_free_iff _ _ _).mp hg with h | ⟨h, -, -⟩
      · exact (hfree2 g h).1
      · simpa [h] using hf
    · by_contra hno
      have hcard := card_freeFrames_pmmAllocPage s.pmm
      have h0 : ¬ s1.pmm.Free 0 := by
        rw [hs1]
        exact fun h => hno (.inl ((hfree 0).mp h).1)
      have := hm.ok_of_free h0 (by rw [hs1]; show 0 < (pmmAllocPage s.pmm).2.freeFrames.card; omega)
      cases this
  | true =>
    right
    have hpde := hm.pde
    have hlook := hm.lookup rfl
    have hcard := hm.card_freeFrames
    have hcard1 := card_freeFrames_pmmAllocPage s.pmm
    rw [hs1] at hgrow hpde hlook hcard
    refine ⟨f, { s2 with currentDirectory := s.currentDirectory }, role2, ?_, ⟨hf,
      hclaim.trans (Grows.restore hgrow), ⟨?_, fun h => ?_⟩, hcard1.trans ?_, hpde, hm.present rfl,
      hlook⟩⟩
    · simp [vmmCreateDirectory, haddr, hne, hcall, hdir, hk2, newDirectory]
    · have hheld : update role f .held f = .held := update_self _ _ _
      rw [hgrow.roles f (by simp), hheld]
    · exact (hfree2 f h).2 rfl
    · exact Nat.succ_le_succ hcard

/-! ## The first directory after `vmm_init` -/

/-- The first directory after boot: the call takes a frame, or there are too few. -/
lemma Booted.create {pmm : Pmm} (hb : Booted pmm s k role) :
    (∃ pmm' : Pmm, vmmCreateDirectory s = (0, { s with pmm := pmm' }) ∧
      pmm'.totalPages = s.pmm.totalPages ∧ (∀ g, pmm'.Free g → s.pmm.Free g) ∧
      (s.pmm.Free 0 ∨ s.pmm.freeFrames.card ≤ 1)) ∨
    ∃ f s' role', vmmCreateDirectory s = (physicalToVirtual (f * 4096), newDirectory k f s') ∧
      Created s s' k {k} role role' f := by
  refine vmmCreateDirectory_cases hb.sep ?_ hb.nonnull ((hb.present 1).mpr (.inl (by decide)))
  rw [hb.kernelDirectory, dirFrame_physicalToVirtual hb.kernelLt]

lemma machine256_create : ∃ k role f s' role', Booted machine256.pmm (vmmInit machine256) k role ∧
    vmmCreateDirectory (vmmInit machine256) = (physicalToVirtual (f * 4096), newDirectory k f s') ∧
    Created (vmmInit machine256) s' k {k} role role' f ∧ 0x100 ≤ f ∧ f < 0x10000 := by
  obtain ⟨k, role, hb⟩ := booted_vmmInit machine256 rfl machine256_init
  have hcard := machine256_card
  have hcard' := hb.card
  rcases hb.create with ⟨-, -, -, -, hno⟩ | ⟨f, s', role', hcall, hc⟩
  · rcases hno with h | h
    · have := (machine256_free 0).mp (hb.free 0 h)
      omega
    · omega
  · exact ⟨k, role, f, s', role', hb, hcall, hc, (machine256_free f).mp (hb.free f hc.fresh)⟩

end FrostByte
