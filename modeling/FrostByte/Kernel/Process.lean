import FrostByte.Syscall.BrkCorrect
import FrostByte.Kernel.Uaccess

/-!
# Creating a user process

The part of `process_create` of `src/process.c` that sets up the address space of a user process.
The kernel stack comes from the kernel heap: `kmalloc` is a parameter that may take frames and map
them in the kernel's part of the address space. The results of the mapping calls are ignored as in
the source.

## Main definitions

* `Vm.processCreate` — the address space of a new process.
* `KmallocSpec` — what `kmalloc` may do to the memory manager.
* `UserProcess`, `Born` — a process with its own directory, and one that was just created.

## Main results

* `processCreate_spec` — what a call that succeeds has built.
* `processCreate_succeeds` — with enough frames it succeeds.
-/

namespace FrostByte

open Word

/-- The bytes of a kernel stack. -/
def kernelStackSize : ℕ := 16384

/-- One page of the user stack, from the top down. -/
def mapStackPage (dir i phys : ℕ) (s : Vm) : Vm :=
  (vmmMapPageInDirectory dir (userVirtualEnd - (i + 1) * 0x1000) phys
    (pagePresent ||| pageWritable ||| pageUser) s).2

/-- `process_create` for a user process, once a slot has been found. -/
def Vm.processCreate (kmalloc : ℕ → Vm → Bool × Vm) (s : Vm) : Option Proc × Vm :=
  let r := vmmCreateDirectory s
  let dir := r.1
  if dir = 0 then (none, r.2)
  else
    let s := vmmMapKernelSpace dir r.2
    -- the VGA text buffer
    let s := (vmmMapPageInDirectory dir 0xB8000 0xB8000 (pagePresent ||| pageWritable) s).2
    match kmalloc kernelStackSize s with
    | (false, s) => (none, vmmDestroyDirectory dir s)
    | (true, s) =>
      let phys0 := (pmmAllocPage s.pmm).1
      let s := { s with pmm := (pmmAllocPage s.pmm).2 }
      if phys0 = 0 then (none, vmmDestroyDirectory dir s)
      else
        let s := mapStackPage dir 0 phys0 s
        let phys1 := (pmmAllocPage s.pmm).1
        let s := { s with pmm := (pmmAllocPage s.pmm).2 }
        if phys1 = 0 then (none, vmmDestroyDirectory dir { s with pmm := pmmFreePage phys0 s.pmm })
        else (some ⟨dir, userHeapBase, userHeapBase⟩, mapStackPage dir 1 phys1 s)

lemma processCreate_heap {kmalloc : ℕ → Vm → Bool × Vm} {s s' : Vm} {child : Proc}
    (hcall : Vm.processCreate kmalloc s = (some child, s')) :
    child.heapStart = userHeapBase ∧ child.heapEnd = userHeapBase := by
  unfold Vm.processCreate at hcall
  dsimp only at hcall
  split at hcall
  · cases hcall
  split at hcall
  · cases hcall
  split at hcall
  · cases hcall
  split at hcall
  · cases hcall
  · obtain ⟨hch, -⟩ := Prod.mk.inj hcall
    cases hch
    exact ⟨rfl, rfl⟩

variable {s : Vm} {k c : ℕ} {live : Set ℕ} {role : ℕ → Role} {H : Set ℕ}

/-! ## Building up a directory -/

/-- The directory `c` was built up, with the frames `P` of pages and `H` of the heap. -/
structure Extends (s s' : Vm) (k c : ℕ) (live : Set ℕ) (role role' : ℕ → Role) (H P : Set ℕ) :
    Prop where
  sep : Sep s' k live role'
  roles : ∀ g, role g ≠ .free → role' g = role g
  free : ∀ g, s'.pmm.Free g → s.pmm.Free g
  kernelDirectory : s'.kernelDirectory = s.kernelDirectory
  currentDirectory : s'.currentDirectory = s.currentDirectory
  pde : ∀ x ∈ live, ∀ j, Present (s.mem x j) → s'.mem x j = s.mem x j
  backed : ∀ g d v, (role g).Backs d v → s'.mem g = s.mem g
  others : ∀ x ∈ live, x ≠ c → ∀ u, ¬ KernelIndex (u / 1024) → s'.lookup x u = s.lookup x u
  taken : ∀ g, s.pmm.Free g → ¬ s'.pmm.Free g →
    (∃ i, Present (s'.mem c i) ∧ entryFrame (s'.mem c i) = g) ∨ g ∈ P ∨ g ∈ H

namespace Extends

variable {s' s'' : Vm} {role' role'' : ℕ → Role} {P Q : Set ℕ}

lemma refl (hs : Sep s k live role) : Extends s s k c live role role H ∅ :=
  ⟨hs, fun _ _ => rfl, fun _ h => h, rfl, rfl, fun _ _ _ _ => rfl, fun _ _ _ _ => rfl,
    fun _ _ _ _ _ => rfl, fun _ h h' => absurd h h'⟩

lemma trans (hc : c ∈ live) (h1 : Extends s s' k c live role role' H P)
    (h2 : Extends s' s'' k c live role' role'' H Q) :
    Extends s s'' k c live role role'' H (P ∪ Q) := by
  have hbacks : ∀ g d v, (role g).Backs d v → (role' g).Backs d v := by
    intro g d v hb
    rw [h1.roles g hb.isData.ne_free]
    exact hb
  refine ⟨h2.sep, fun g hg => ?_, fun g hg => h1.free g (h2.free g hg), ?_, ?_, fun x hx j hp => ?_,
    fun g d v hb => ?_, fun x hx hxc u hu => ?_, fun g hg hg' => ?_⟩
  · rw [h2.roles g (by rw [h1.roles g hg]; exact hg), h1.roles g hg]
  · rw [h2.kernelDirectory, h1.kernelDirectory]
  · rw [h2.currentDirectory, h1.currentDirectory]
  · rw [h2.pde x hx j (by rw [h1.pde x hx j hp]; exact hp), h1.pde x hx j hp]
  · rw [h2.backed g d v (hbacks g d v hb), h1.backed g d v hb]
  · rw [h2.others x hx hxc u hu, h1.others x hx hxc u hu]
  · by_cases hmid : s'.pmm.Free g
    · rcases h2.taken g hmid hg' with h | h | h
      · exact .inl h
      · exact .inr (.inl (.inr h))
      · exact .inr (.inr h)
    · rcases h1.taken g hg hmid with ⟨i, hp, hframe⟩ | h | h
      · refine .inl ⟨i, ?_⟩
        rw [h2.pde c hc i hp]
        exact ⟨hp, hframe⟩
      · exact .inr (.inl (.inl h))
      · exact .inr (.inr h)

lemma ready (h : Extends s s' k c live role role' H P) (hr : Ready s live) : Ready s' live :=
  (hr.congr h.kernelDirectory h.currentDirectory (h.pde _ hr.mem 1 hr.scratch)).1

lemma mono (h : Extends s s' k c live role role' H P) (hPQ : P ⊆ Q) :
    Extends s s' k c live role role' H Q := by
  refine ⟨h.sep, h.roles, h.free, h.kernelDirectory, h.currentDirectory, h.pde, h.backed, h.others,
    ?_⟩
  intro g hg hg'
  rcases h.taken g hg hg' with ht | ht | ht
  · exact .inl ht
  · exact .inr (.inl (hPQ ht))
  · exact .inr (.inr ht)

lemma of_grows (hg : Grows s s' k live role role')
    (hothers : ∀ x ∈ live, x ≠ c → ∀ u, ¬ KernelIndex (u / 1024) → s'.lookup x u = s.lookup x u)
    (htaken : ∀ g, s.pmm.Free g → ¬ s'.pmm.Free g →
      (∃ i, Present (s'.mem c i) ∧ entryFrame (s'.mem c i) = g) ∨ g ∈ P ∨ g ∈ H) :
    Extends s s' k c live role role' H P :=
  ⟨hg.sep, hg.roles, hg.free, hg.kernelDirectory, hg.currentDirectory, hg.pde,
    fun g _ _ hb => hg.data g hb.isData, hothers, htaken⟩

end Extends

/-- The kernel heap takes frames in `H` and maps them in the kernel's part. -/
structure HeapGrowth (s s' : Vm) (k : ℕ) (live : Set ℕ) (role role' : ℕ → Role) (H : Set ℕ) :
    Prop where
  sep : Sep s' k live role'
  roles : ∀ g, role g ≠ .free → role' g = role g
  free : ∀ g, s'.pmm.Free g → s.pmm.Free g
  kernelDirectory : s'.kernelDirectory = s.kernelDirectory
  currentDirectory : s'.currentDirectory = s.currentDirectory
  pde : ∀ x ∈ live, ∀ j, Present (s.mem x j) → s'.mem x j = s.mem x j
  backed : ∀ g d v, (role g).Backs d v → s'.mem g = s.mem g
  user : ∀ x ∈ live, ∀ u, ¬ KernelIndex (u / 1024) → s'.lookup x u = s.lookup x u
  taken : ∀ g, s.pmm.Free g → ¬ s'.pmm.Free g → g ∈ H

/-- `kmalloc` grows the heap at most, for a block that is not larger than a kernel stack. -/
def KmallocSpec (kmalloc : ℕ → Vm → Bool × Vm) (k : ℕ) (H : Set ℕ) : Prop :=
  ∀ n ≤ kernelStackSize, ∀ s live role, Sep s k live role → Ready s live →
    ∃ role', HeapGrowth s (kmalloc n s).2 k live role role' H

lemma HeapGrowth.extends {s' : Vm} {role' : ℕ → Role} (h : HeapGrowth s s' k live role role' H) :
    Extends s s' k c live role role' H ∅ :=
  ⟨h.sep, h.roles, h.free, h.kernelDirectory, h.currentDirectory, h.pde, h.backed,
    fun x hx _ u hu => h.user x hx u hu, fun g hg hg' => .inr (.inr (h.taken g hg hg'))⟩

lemma mapKernelPage_extends (hs : Sep s k live role) (hr : Ready s live) (h0 : ¬ s.pmm.Free 0)
    {p : ℕ} (hp : p ≠ 0) (hc : dirFrame p ∈ live) {va : ℕ} (hva : KernelIndex (va / 4096 / 1024))
    (pa flags : ℕ) : ∃ role', Extends s (vmmMapPageInDirectory p va pa flags s).2 k
    (dirFrame p) live role
        role' H ∅ ∧ ∀ u, ¬ KernelIndex (u / 1024) →
        (vmmMapPageInDirectory p va pa flags s).2.lookup (dirFrame p) u = s.lookup
        (dirFrame p) u := by
  obtain ⟨ok, s', role', hmap, hm⟩ := mapPage_spec hs hc hr.reachable (fun _ m => m) va pa flags
  have hcall : (vmmMapPageInDirectory p va pa flags s).2 = s' := by
    unfold vmmMapPageInDirectory
    rw [if_neg hp, hmap]
  have hlook : ∀ x ∈ live, ∀ u, ¬ KernelIndex (u / 1024) → s'.lookup x u = s.lookup x u := by
    intro x hx u hu
    cases ok with
    | false =>
      rw [hm.fail rfl]
      rfl
    | true =>
      rw [hm.lookup rfl x hx, if_neg]
      rintro ⟨rfl, -⟩
      exact hu hva
  rw [hcall]
  refine ⟨role', Extends.of_grows hm.grows (fun x hx _ => hlook x hx) fun g hg hg' =>
    ?_, hlook _ hc⟩
  exact .inl ⟨_, mapPage_taken hs hc hr.reachable h0 hmap hg hg'⟩

/-- The frames of a fresh page: its own, and one for its table. -/
def TakenFor (s s' : Vm) (c v f : ℕ) : Prop := ∀ g, s.pmm.Free g → ¬ s'.pmm.Free g → g ≠ f →
  Present (s'.mem c (v / 1024)) ∧ entryFrame (s'.mem c (v / 1024)) = g

lemma Fresh.extends {s' : Vm} {role' : ℕ → Role} {v f w : ℕ} (hc : c ∈ live)
    (hv : ¬ KernelIndex (v / 1024)) (h : Fresh s s' k live role role' c v f w)
    (ht : TakenFor s s' c v f) : Extends s s' k c live role role' H {f} := by
  refine Extends.of_grows h.grows (fun x hx hxc u hu => ?_) fun g hg hg' => ?_
  · rw [h.lookup x hx u, if_neg]
    rintro ⟨rfl, hshare⟩
    exact hxc ((h.grows.sep.shares_user_iff hc hx hv h.present).mp hshare)
  · by_cases hgf : g = f
    · exact .inr (.inl hgf)
    · exact .inl ⟨_, ht g hg hg' hgf⟩

/-- **A fresh user page** of the directory `c`. -/
lemma userPage_cases (hs : Sep s k live role) (hr : Ready s live) (h0 : ¬ s.pmm.Free 0) {p : ℕ}
    (hp : p ≠ 0) (hc : dirFrame p ∈ live) (va flags : ℕ) : (pmmAllocPage s.pmm).1 = 0 ∨
    ∃ f, f ≠ 0 ∧ (pmmAllocPage s.pmm).1 = f * 4096 ∧ s.pmm.Free f ∧ ∃ ok s' role',
      vmmMapPageInDirectory p va (f * 4096) flags { s with pmm := (pmmAllocPage s.pmm).2 } =
        (ok, s') ∧
      (ok = false → ¬ Present (s.mem (dirFrame p) (va / 4096 / 1024)) ∧
        s.pmm.freeFrames.card = 1 ∧ ∀ g, ¬ s'.pmm.Free g) ∧
      (ok = true → Fresh s s' k live role role' (dirFrame p) (va / 4096) f
          (mkEntry (f * 4096) flags) ∧
        TakenFor s s' (dirFrame p) (va / 4096) f) := by
  rcases allocMap_cases hs hr h0 hp hc va flags with
    ⟨-, hzero, -⟩ | ⟨f, hf0, haddr, hf, ok, s', role', hmap, hfail, hok⟩
  · exact .inl hzero
  right
  refine ⟨f, hf0, haddr, hf, ok, s', role', hmap, fun hfalse => ?_, fun htrue => ⟨hok htrue, ?_⟩⟩
  · obtain ⟨hcard, hpd, hg, -, hrole⟩ := hfail hfalse
    refine ⟨hpd, hcard, fun g hfree => ?_⟩
    -- the only free frame has been taken for the page
    obtain ⟨a, ha⟩ := Finset.card_eq_one.mp hcard
    have hmem : ∀ q, s.pmm.Free q → q = a := by
      intro q hq
      rw [← Pmm.mem_freeFrames, ha, Finset.mem_singleton] at hq
      exact hq
    have hgf : g = f := (hmem g (hg.free g hfree)).trans (hmem f hf).symm
    have := hg.sep.free g hfree
    rw [hgf, hrole] at this
    exact (frameRole_isData _ _).ne_free this
  · intro g hg hg' hgf
    have hpmm := pmmAllocPage_spec s.pmm
    rcases hpmm.2 with ⟨hzero, -, -⟩ | ⟨q, hq0, hqaddr, -, hfree⟩
    · omega
    have hqf : q = f := by omega
    subst hqf
    have hgrow : Grows s { s with pmm := (pmmAllocPage s.pmm).2 } k live role role :=
      Grows.of_pmm hs (pmmAllocPage_free_le s.pmm) hpmm.1
    unfold vmmMapPageInDirectory at hmap
    rw [if_neg hp] at hmap
    exact mapPage_taken hgrow.sep hc (hgrow.ready hr).reachable
      (fun h => h0 (pmmAllocPage_free_le s.pmm 0 h)) hmap ((hfree g).mpr ⟨hg, hgf⟩) hg'

lemma Fresh.lookup_self {s' : Vm} {role' : ℕ → Role} {v f w : ℕ} (hc : c ∈ live)
    (h : Fresh s s' k live role role' c v f w) (u : ℕ) :
    s'.lookup c u = if u = v then w else s.lookup c u := by
  rw [h.lookup c hc u]
  exact if_congr ⟨fun hu => hu.1, fun hu => ⟨hu, h.present, rfl⟩⟩ rfl rfl

/-! ## The new directory -/

/-- **The frames that `vmm_create_directory` takes**: the directory, and a page table in the kernel
directory. -/
lemma vmmCreateDirectory_taken (hs : Sep s k live role) (hk : dirFrame s.kernelDirectory = k)
    (hk0 : s.kernelDirectory ≠ 0) (hscratch : Present (s.mem k 1)) (h0 : ¬ s.pmm.Free 0) {f : ℕ}
    {t : Vm} (hf : f < 0x100000) (hne : physicalToVirtual (f * 4096) ≠ 0)
    (hcall : vmmCreateDirectory s = (physicalToVirtual (f * 4096), newDirectory k f t))
    (hkf : k ≠ f) {g : ℕ} (hg : s.pmm.Free g) (hg' : ¬ t.pmm.Free g) :
    g = f ∨ (Present (t.mem k (physicalToVirtual (f * 4096) / 4096 / 1024)) ∧
      entryFrame (t.mem k (physicalToVirtual (f * 4096) / 4096 / 1024)) = g) := by
  obtain ⟨htotal, halloc⟩ := pmmAllocPage_spec s.pmm
  unfold vmmCreateDirectory at hcall
  rcases halloc with ⟨hzero, -, -⟩ | ⟨q, hq0, haddr, hq, hfree⟩
  · rw [if_pos hzero] at hcall
    exact absurd (Prod.mk.inj hcall).1.symm hne
  rw [if_neg (by omega)] at hcall
  obtain ⟨s1, hs1⟩ : ∃ s1 : Vm, s1 =
    { s with pmm := (pmmAllocPage s.pmm).2, currentDirectory := s.kernelDirectory } := ⟨_, rfl⟩
  rw [haddr] at hcall
  dsimp only at hcall
  rw [← hs1] at hcall
  have hsep1 : Sep s1 k live role := by
    rw [hs1]
    exact hs.congr (pmmAllocPage_free_le s.pmm) fun _ _ => rfl
  have hactive : s1.active = s.kernelDirectory := by simp [Vm.active, hs1, hk0]
  have hready : Ready s1 live := by
    refine ⟨by rwa [hactive], by rw [hactive, hk]; exact hs.kernel, ?_⟩
    rw [hactive, hk, hs1]
    exact hscratch
  generalize hmap : vmmMapPage (physicalToVirtual (q * 4096)) (q * 4096)
    (pagePresent ||| pageWritable)
    s1 = r at hcall
  obtain ⟨ok, s2⟩ := r
  unfold vmmMapPage at hmap
  rw [hactive, hk] at hmap
  cases ok with
  | false => exact absurd (Prod.mk.inj hcall).1.symm hne
  | true =>
    obtain ⟨hptr, hstate⟩ := Prod.mk.inj hcall
    have hqf : q = f := by
      rw [← dirFrame_physicalToVirtual hq.2.1, hptr, dirFrame_physicalToVirtual hf]
    subst hqf
    rw [dirFrame_physicalToVirtual hf] at hstate
    have hpmm : s2.pmm = t.pmm := by
      have : _ = (newDirectory k q t).pmm := congrArg Vm.pmm hstate
      exact this
    have hmem : s2.mem k = t.mem k := by
      have : _ = (newDirectory k q t).mem k := congrFun (congrArg Vm.mem hstate) k
      rw [newDirectory_mem_other _ hkf] at this
      rw [← this]
      simp only [copyEntries, Vm.zeroFrame, Function.update_of_ne hkf]
    by_cases hgq : g = q
    · exact .inl hgq
    right
    rw [← hmem]
    refine mapPage_taken hsep1 hs.kernel hready.reachable ?_ hmap ?_ (by rwa [hpmm])
    · rw [hs1]
      exact fun h => h0 ((hfree 0).mp h).1
    · rw [hs1]
      exact (hfree g).mpr ⟨hg, hgq⟩

/-- A user process that runs, in its own directory; new directories can be created. -/
structure UserProcess (p : Proc) (s : Vm) (k : ℕ) (live : Set ℕ) (role : ℕ → Role) : Prop
    extends HeapSpace p s k live role where
  current : s.currentDirectory = p.pageDirectory
  own : dirFrame p.pageDirectory ≠ k
  kernel : dirFrame s.kernelDirectory = k
  kernelNonnull : s.kernelDirectory ≠ 0
  kernelScratch : Present (s.mem k 1)

/-- The directory `c` has been created, without user pages. -/
structure NewBorn (s s' : Vm) (k c : ℕ) (live : Set ℕ) (role role' : ℕ → Role) : Prop where
  sep : Sep s' k (insert c live) role'
  ready : Ready s' (insert c live)
  fresh : s.pmm.Free c
  notLive : c ∉ live
  roles : ∀ g, role g ≠ .free → role' g = role g
  free : ∀ g, s'.pmm.Free g → s.pmm.Free g
  kernelDirectory : s'.kernelDirectory = s.kernelDirectory
  backed : ∀ g d v, (role g).Backs d v → s'.mem g = s.mem g
  others : ∀ x ∈ live, x ≠ k → ∀ u, ¬ KernelIndex (u / 1024) → s'.lookup x u = s.lookup x u
  tables : ∀ i, ¬ KernelIndex i → ¬ Present (s'.mem c i)
  kernelEntries : ∀ i, Present (s'.mem c i) → s'.mem c i = s'.mem k i
  copied : ∀ i < 2, Present (s.mem k i) → Present (s'.mem k i) ∧ s'.mem c i = s'.mem k i
  card : s.pmm.freeFrames.card ≤ s'.pmm.freeFrames.card + 2
  /-- The kernel's part: the kernel directory, with the page of the new one. -/
  visible : ∀ x, x = c ∨ x = k → ∀ u, s'.lookup x u = 0 ∨ s'.lookup x u = mkEntry (c * 4096) 3 ∨
    s'.lookup x u = s.lookup k u
  taken : ∀ g, s.pmm.Free g → ¬ s'.pmm.Free g → g = c ∨
    (∃ i, Present (s'.mem c i) ∧ entryFrame (s'.mem c i) = g) ∨
    (0x40000 ≤ c ∧ ∃ i, Present (s'.mem k i) ∧ entryFrame (s'.mem k i) = g)

lemma UserProcess.newBorn {p : Proc} (h : UserProcess p s k live role)
    (hne : (vmmCreateDirectory s).1 ≠ 0) :
    ∃ c role', (vmmCreateDirectory s).1 = physicalToVirtual (c * 4096) ∧
      dirFrame (physicalToVirtual (c * 4096)) = c ∧
      NewBorn s (vmmCreateDirectory s).2 k c live role role' := by
  rcases vmmCreateDirectory_cases h.sep h.kernel h.kernelNonnull h.kernelScratch with
    ⟨pmm, hcall, -⟩ | ⟨c, s1, role1, hcall, hcr⟩
  · rw [hcall] at hne
    exact absurd rfl hne
  have hclt : c < 0x100000 := hcr.fresh.2.1
  have hsep1 := hcr.grows.sep
  have hkc : k ≠ c := hcr.frame.ne_dir hsep1 hsep1.kernel
  have hnc : c ∉ live := fun hc => hcr.frame.ne_dir hsep1 hc rfl
  have hmem : ∀ g, g ≠ c → (newDirectory k c s1).mem g = s1.mem g := fun g hg =>
    newDirectory_mem_other k hg s1
  have hself := newDirectory_mem_self hkc s1
  have hfreeRole : role c = .free := h.sep.free c hcr.fresh
  have hpd : dirFrame p.pageDirectory ≠ c := hcr.frame.ne_dir hsep1 h.live
  have hptr : physicalToVirtual (c * 4096) ≠ 0 := by
    rw [hcall] at hne
    exact hne
  refine ⟨c, Function.update role1 c .dir, by rw [hcall], dirFrame_physicalToVirtual hclt, ?_⟩
  rw [hcall]
  have hactive : (newDirectory k c s1).active = p.pageDirectory := by
    have hcur : (newDirectory k c s1).currentDirectory = s.currentDirectory :=
      hcr.grows.currentDirectory
    unfold Vm.active
    rw [hcur, h.current, if_pos h.nonnull]
  refine ⟨hcr.frame.sep hsep1, ⟨?_, ?_, ?_⟩, hcr.fresh, hnc, fun g hg => ?_, fun g hg =>
    hcr.grows.free g hg,
    hcr.grows.kernelDirectory, fun g d v hb => ?_, fun x hx hxk u hu => ?_, fun i hi =>
    ?_, fun i hp => ?_,
    fun i hi hp => ?_, hcr.card, fun x hx u => ?_, fun g hg hg' => ?_⟩
  · rw [hactive]
    exact h.nonnull
  · rw [hactive]
    exact Set.mem_insert_of_mem _ h.live
  · rw [hactive, hmem _ hpd, hcr.grows.pde _ h.live 1 h.scratch]
    exact h.scratch
  · have hgc : g ≠ c := by
      rintro rfl
      exact hg hfreeRole
    rw [Function.update_of_ne hgc, hcr.grows.roles g hg]
  · have hgc : g ≠ c := by
      rintro rfl
      exact hb.isData.ne_free hfreeRole
    rw [hmem g hgc, hcr.grows.data g hb.isData]
  · rw [hcr.frame.lookup_old hsep1 hx, hcr.lookup x hx, if_neg]
    rintro ⟨rfl, hshare⟩
    exact hxk ((hsep1.shares_user_iff hsep1.kernel hx hu hcr.present).mp hshare)
  · rw [hself, if_neg fun hc => hi hc.1.1]
    exact not_present_zero
  · rw [hself] at hp ⊢
    rw [hmem k hkc]
    split_ifs at hp ⊢ with hi
    · rfl
    · exact absurd hp not_present_zero
  · have hk : Present (s1.mem k i) := by
      rw [hcr.grows.pde k h.sep.kernel i hp]
      exact hp
    rw [hmem k hkc, hself, if_pos ⟨⟨.inl hi, by omega⟩, hk⟩]
    exact ⟨hk, rfl⟩
  · have hk := hcr.lookup k hsep1.kernel u
    have hold : s1.lookup k u = mkEntry (c * 4096) 3 ∨ s1.lookup k u = s.lookup k u := by
      split_ifs at hk
      · exact .inl hk
      · exact .inr hk
    rcases hx with rfl | rfl
    · rw [hcr.frame.lookup_new hsep1]
      split_ifs
      · exact .inr hold
      · exact .inl rfl
    · rw [hcr.frame.lookup_old hsep1 hsep1.kernel]
      exact .inr hold
  · rcases vmmCreateDirectory_taken h.sep h.kernel h.kernelNonnull h.kernelScratch h.zero_not_free
      hclt
      hptr hcall hkc hg hg' with rfl | ⟨hp, hframe⟩
    · exact .inl rfl
    right
    by_cases hlow : c < 0x40000
    · -- the address of the directory is in the kernel half
      left
      refine ⟨physicalToVirtual (c * 4096) / 4096 / 1024, ?_⟩
      have hpage := physicalToVirtual_page c
      rw [hself, if_pos ⟨⟨.inr (by omega), by omega⟩, hp⟩]
      exact ⟨hp, hframe⟩
    · right
      refine ⟨by omega, physicalToVirtual (c * 4096) / 4096 / 1024, ?_⟩
      rw [hmem k hkc]
      exact ⟨hp, hframe⟩

lemma vmmMapKernelSpace_pmm (p : ℕ) (s : Vm) : (vmmMapKernelSpace p s).pmm = s.pmm := by
  unfold vmmMapKernelSpace
  split_ifs
  · rfl
  · rfl

lemma vmmMapKernelSpace_extends (hs : Sep s k live role) {p : ℕ} (hp : p ≠ 0)
    (hc : dirFrame p ∈ live) (hk : dirFrame s.kernelDirectory = k) (hk0 : s.kernelDirectory ≠ 0)
    (hsame : ∀ i, Present (s.mem (dirFrame p) i) → s.mem (dirFrame p) i = s.mem k i) :
    Extends s (vmmMapKernelSpace p s) k (dirFrame p) live role role H ∅ ∧
    (∀ u, ¬ KernelIndex (u / 1024) →
        (vmmMapKernelSpace p s).lookup (dirFrame p) u = s.lookup (dirFrame p) u) ∧
      ∀ u, (vmmMapKernelSpace p s).lookup (dirFrame p) u = s.lookup (dirFrame p) u ∨
        (vmmMapKernelSpace p s).lookup (dirFrame p) u = s.lookup k u := by
  obtain ⟨t, ht⟩ : ∃ t, t = vmmMapKernelSpace p s := ⟨_, rfl⟩
  have hdef : t = copyEntries (fun i => decide (768 ≤ i ∧ i < 1024)) k (dirFrame p) s := by
    rw [ht]
    unfold vmmMapKernelSpace
    rw [if_neg fun hc => hc.elim hp hk0, hk]
  have hmem : ∀ g, g ≠ dirFrame p → t.mem g = s.mem g := by
    intro g hg
    rw [hdef]
    exact Function.update_of_ne hg _ _
  have hself : ∀ i, t.mem (dirFrame p) i =
      if 768 ≤ i ∧ i < 1024 then s.mem k i else s.mem (dirFrame p) i := by
    intro i
    rw [hdef]
    simp [copyEntries]
  have hpmm : t.pmm = s.pmm := by rw [hdef]; rfl
  have hpde : ∀ x ∈ live, ∀ j, Present (s.mem x j) → t.mem x j = s.mem x j := by
    intro x hx j hpx
    by_cases hxp : x = dirFrame p
    · subst hxp
      rw [hself]
      split_ifs
      · exact (hsame j hpx).symm
      · rfl
    · rw [hmem x hxp]
  have hsep : Sep t k live role := by
    refine ⟨⟨hs.kernel, hs.dir, fun d hd i hpi => ?_⟩, fun f hf => hs.free f (by rwa [hpmm] at hf)⟩
    by_cases hdp : d = dirFrame p
    · subst hdp
      rw [hself] at hpi ⊢
      split_ifs at hpi ⊢ with hi
      · right
        refine ⟨.inr hi.1, ?_⟩
        rcases hs.table k hs.kernel i hpi with h | ⟨-, h⟩
        · exact h
        · exact h
      · exact hs.table _ hc i hpi
    · rw [hmem d hdp] at hpi ⊢
      exact hs.table d hd i hpi
  -- a page is looked up in the same table when the entries of the directories agree
  have hcopy : ∀ x, ∀ y ∈ live, ∀ u, t.mem x (u / 1024) = s.mem y (u / 1024) →
    t.lookup x u = s.lookup y u := by
    intro x y hy u hentry
    by_cases hpy : Present (s.mem y (u / 1024))
    · rw [Vm.lookup_of_present hpy, Vm.lookup_of_present (by rwa [hentry]), hentry,
        hmem _ (hs.table_ne_dir hy hpy hc).symm]
    · rw [Vm.lookup_of_not_present hpy, Vm.lookup_of_not_present (by rwa [hentry])]
  have hlook : ∀ x ∈ live, ∀ u, ¬ KernelIndex (u / 1024) → t.lookup x u = s.lookup x u := by
    intro x hx u hu
    refine hcopy x x hx u ?_
    by_cases hxp : x = dirFrame p
    · rw [hxp, hself, if_neg fun hi => hu (.inr hi.1)]
    · rw [hmem x hxp]
  rw [← ht]
  refine ⟨⟨hsep, fun _ _ =>
    rfl, fun g hg => by rwa [hpmm] at hg, by rw [hdef]; rfl, by rw [hdef]; rfl,
    hpde, fun g d v hb => ?_, fun x hx _ => hlook x hx, fun g hg hg' => ?_⟩, hlook _ hc, fun u =>
    ?_⟩
  · apply hmem
    rintro rfl
    have := hs.dir _ hc
    rcases hb with hb | ⟨slot, hb⟩ | hb
    · rw [hb] at this
      cases this
    · rw [hb] at this
      cases this
    · rw [hb] at this
      cases this
  · rw [hpmm] at hg'
    exact absurd hg hg'
  · have hentry := hself (u / 1024)
    split_ifs at hentry
    · exact .inr (hcopy _ k hs.kernel u hentry)
    · exact .inl (hcopy _ _ hc u hentry)

/-! ## `process_create` -/

/-- The process with the directory `c` has two user pages, its stack in `f₁` and `f₂`. -/
structure Born (s s' : Vm) (k c : ℕ) (live : Set ℕ) (role role' : ℕ → Role) (H : Set ℕ)
    (f₁ f₂ : ℕ) : Prop where
  sep : Sep s' k (insert c live) role'
  ready : Ready s' (insert c live)
  fresh : s.pmm.Free c
  notLive : c ∉ live
  roles : ∀ g, role g ≠ .free → role' g = role g
  free : ∀ g, s'.pmm.Free g → s.pmm.Free g
  backed : ∀ g d v, (role g).Backs d v → s'.mem g = s.mem g
  others : ∀ x ∈ live, x ≠ k → ∀ u, ¬ KernelIndex (u / 1024) → s'.lookup x u = s.lookup x u
  stack : s.pmm.Free f₁ ∧ s.pmm.Free f₂
  child : ∀ u, ¬ KernelIndex (u / 1024) → s'.lookup c u =
    if u = 0xBFFFD then mkEntry (f₂ * 4096) 7
    else if u = 0xBFFFE then mkEntry (f₁ * 4096) 7 else 0
  taken : ∀ g, s.pmm.Free g → ¬ s'.pmm.Free g → g = c ∨
    (∃ i, Present (s'.mem c i) ∧ entryFrame (s'.mem c i) = g) ∨
    (0x40000 ≤ c ∧ ∃ i, Present (s'.mem k i) ∧ entryFrame (s'.mem k i) = g) ∨
    g = f₁ ∨ g = f₂ ∨ g ∈ H

lemma NewBorn.born {s₁ s' : Vm} {role₁ role' : ℕ → Role} {f₁ f₂ : ℕ}
    (h : NewBorn s s₁ k c live role role₁)
    (he : Extends s₁ s' k c (insert c live) role₁ role' H {f₁, f₂})
    (hstack : s.pmm.Free f₁ ∧ s.pmm.Free f₂)
    (hchild : ∀ u, ¬ KernelIndex (u / 1024) →
      s'.lookup c u = if u = 0xBFFFD then mkEntry (f₂ * 4096) 7
      else if u = 0xBFFFE then mkEntry (f₁ * 4096) 7 else s₁.lookup c u) :
    Born s s' k c live role role' H f₁ f₂ := by
  have hk : k ∈ insert c live := h.sep.kernel
  have hbacks : ∀ g d v, (role g).Backs d v → (role₁ g).Backs d v := by
    intro g d v hb
    rw [h.roles g hb.isData.ne_free]
    exact hb
  refine ⟨he.sep, he.ready h.ready, h.fresh, h.notLive, fun g hg => ?_, fun g hg =>
    h.free g (he.free g hg),
    fun g d v hb => ?_, fun x hx hxk u hu => ?_, hstack, fun u hu => ?_, fun g hg hg' => ?_⟩
  · rw [he.roles g (by rw [h.roles g hg]; exact hg), h.roles g hg]
  · rw [he.backed g d v (hbacks g d v hb), h.backed g d v hb]
  · have hxc : x ≠ c := ne_of_mem_of_not_mem hx h.notLive
    rw [he.others x (Set.mem_insert_of_mem _ hx) hxc u hu, h.others x hx hxk u hu]
  · rw [hchild u hu, Vm.lookup_of_not_present (h.tables _ hu)]
  · by_cases hmid : s₁.pmm.Free g
    · rcases he.taken g hmid hg' with ht | ht | ht
      · exact .inr (.inl ht)
      · rcases ht with rfl | rfl
        · exact .inr (.inr (.inr (.inl rfl)))
        · exact .inr (.inr (.inr (.inr (.inl rfl))))
      · exact .inr (.inr (.inr (.inr (.inr ht))))
    · rcases h.taken g hg hmid with rfl | ⟨i, hp, hf⟩ | ⟨hlow, i, hp, hf⟩
      · exact .inl rfl
      · refine .inr (.inl ⟨i, ?_⟩)
        rw [he.pde c (Set.mem_insert _ _) i hp]
        exact ⟨hp, hf⟩
      · refine .inr (.inr (.inl ⟨hlow, i, ?_⟩))
        rw [he.pde k hk i hp]
        exact ⟨hp, hf⟩

/-- A call that succeeds has made a directory with the kernel's entries and two pages of stack, and
nothing else of the process has changed. -/
lemma processCreate_spec {p : Proc} (h : UserProcess p s k live role) {kmalloc : ℕ → Vm → Bool × Vm}
    (hkm : KmallocSpec kmalloc k H) {child : Proc} {s' : Vm}
    (hcall : Vm.processCreate kmalloc s = (some child, s')) :
    ∃ c f₁ f₂ role', child.heapStart = userHeapBase ∧ child.heapEnd = userHeapBase ∧
      dirFrame child.pageDirectory = c ∧ child.pageDirectory ≠ 0 ∧
      Born s s' k c live role role' H f₁ f₂ := by
  unfold Vm.processCreate at hcall
  dsimp only at hcall
  by_cases hne : (vmmCreateDirectory s).1 = 0
  · rw [if_pos hne] at hcall
    cases hcall
  rw [if_neg hne] at hcall
  obtain ⟨c, role1, hptr, hdir, hnb⟩ := h.newBorn hne
  obtain ⟨dir, hdef⟩ : ∃ dir, dir = physicalToVirtual (c * 4096) := ⟨_, rfl⟩
  rw [← hdef] at hptr hdir
  rw [hptr] at hne hcall
  generalize (vmmCreateDirectory s).2 = s1 at hcall hnb
  have hc : dirFrame dir ∈ insert c live := by
    rw [hdir]
    exact Set.mem_insert _ _
  -- the kernel's entries
  obtain ⟨he2, hl2, -⟩ := vmmMapKernelSpace_extends (H := H) hnb.sep hne hc
    (by rw [hnb.kernelDirectory]; exact h.kernel)
    (by rw [hnb.kernelDirectory]; exact h.kernelNonnull)
    (by rw [hdir]; exact hnb.kernelEntries)
  generalize vmmMapKernelSpace dir s1 = s2 at hcall he2 hl2
  have h01 : ¬ s1.pmm.Free 0 := fun h' => h.zero_not_free (hnb.free 0 h')
  have hr2 := he2.ready hnb.ready
  have h02 : ¬ s2.pmm.Free 0 := fun h' => h01 (he2.free 0 h')
  -- the VGA text buffer
  obtain ⟨role3, he3, hl3⟩ := mapKernelPage_extends (H := H) he2.sep hr2 h02 hne hc
    (show KernelIndex (0xB8000 / 4096 / 1024) by decide) 0xB8000 (pagePresent ||| pageWritable)
  generalize (vmmMapPageInDirectory dir 0xB8000 0xB8000
    (pagePresent ||| pageWritable) s2).2 = s3 at hcall he3 hl3
  have hr3 := he3.ready hr2
  -- the kernel stack
  obtain ⟨role4, hheap⟩ := hkm kernelStackSize le_rfl s3 _ _ he3.sep hr3
  generalize kmalloc kernelStackSize s3 = r at hcall hheap
  obtain ⟨ok, s4⟩ := r
  cases ok with
  | false => cases hcall
  | true =>
    dsimp only at hcall hheap
    have he4 := hheap.extends (c := dirFrame dir)
    have hr4 := he4.ready hr3
    have h04 : ¬ s4.pmm.Free 0 := fun h' => h02 (he3.free 0 (he4.free 0 h'))
    have hbuild := (he2.trans hc he3).trans hc he4
    -- the first page of stack
    rcases userPage_cases he4.sep hr4 h04 hne hc (userVirtualEnd - (0 + 1) * 0x1000)
      (pagePresent ||| pageWritable ||| pageUser) with
      hzero | ⟨f₁, hf₁, haddr, hfree₁, ok, s5, role5, hmap, hfail, hok⟩
    · rw [if_pos hzero] at hcall
      cases hcall
    have hne₁ : (pmmAllocPage s4.pmm).1 ≠ 0 := by omega
    rw [if_neg hne₁, haddr] at hcall
    unfold mapStackPage at hcall
    rw [hmap] at hcall
    cases ok with
    | false =>
      -- there is no frame for the second page
      obtain ⟨-, -, hnone⟩ := hfail rfl
      have hzero : (pmmAllocPage s5.pmm).1 = 0 := by
        rcases (pmmAllocPage_spec s5.pmm).2 with ⟨hzero, -⟩ | ⟨q, -, -, hq, -⟩
        · exact hzero
        · exact absurd hq (hnone q)
      rw [if_pos hzero] at hcall
      cases hcall
    | true =>
      obtain ⟨hfresh5, htaken5⟩ := hok rfl
      have he5 := hfresh5.extends (H := H) hc (by decide) htaken5
      have hr5 := he5.ready hr4
      have h05 : ¬ s5.pmm.Free 0 := fun h' => h04 (he5.free 0 h')
      rcases userPage_cases he5.sep hr5 h05 hne hc (userVirtualEnd - (1 + 1) * 0x1000)
        (pagePresent ||| pageWritable ||| pageUser) with
        hzero | ⟨f₂, hf₂, haddr₂, hfree₂, ok, s6, role6, hmap₂, hfail₂, hok₂⟩
      · rw [if_pos hzero] at hcall
        cases hcall
      have hne₂ : (pmmAllocPage s5.pmm).1 ≠ 0 := by omega
      rw [if_neg hne₂, haddr₂, hmap₂] at hcall
      obtain ⟨hchild, rfl⟩ := Prod.mk.inj hcall
      cases hchild
      cases ok with
      | false =>
        -- the table of the first page is there
        exact absurd hfresh5.present (hfail₂ rfl).1
      | true =>
        obtain ⟨hfresh6, htaken6⟩ := hok₂ rfl
        have he6 := hfresh6.extends (H := H) hc (by decide) htaken6
        have hall := (hbuild.trans hc he5).trans hc he6
        rw [hdir] at hall hl2 hl3 hfresh5 hfresh6
        refine ⟨c, f₁, f₂, role6, rfl, rfl, hdir, hne, hnb.born (hall.mono ?_) ⟨?_, ?_⟩ fun u hu =>
          ?_⟩
        · intro g hg
          simp only [Set.mem_union, Set.mem_empty_iff_false, false_or] at hg
          exact hg
        · exact hnb.free f₁ (hbuild.free f₁ hfree₁)
        · exact hnb.free f₂ (hbuild.free f₂ (he5.free f₂ hfree₂))
        · have hin : c ∈ insert c live := Set.mem_insert _ _
          rw [hfresh6.lookup_self hin, hfresh5.lookup_self hin, hheap.user c hin u hu, hl3 u hu,
            hl2 u hu]
          rfl

lemma UserProcess.createDirectory_ne_zero {p : Proc} (h : UserProcess p s k live role)
    (hcard : 2 ≤ s.pmm.freeFrames.card) (hlow : ∀ g, s.pmm.Free g → g < 0x40000) :
    (vmmCreateDirectory s).1 ≠ 0 := by
  rcases vmmCreateDirectory_cases h.sep h.kernel h.kernelNonnull h.kernelScratch with
    ⟨-, -, -, -, hno⟩ | ⟨c, s1, role1, hcall, hcr⟩
  · rcases hno with hno | hno
    · exact absurd hno h.zero_not_free
    · omega
  · rw [hcall]
    exact physicalToVirtual_ne_zero (hlow c hcr.fresh)

lemma mapStackPage_succeeds (hs : Sep s k live role) (hr : Ready s live) (h0 : ¬ s.pmm.Free 0)
    {dir : ℕ}
    (hne : dir ≠ 0) (hc : dirFrame dir ∈ live) (i : ℕ) (hcard : 2 ≤ s.pmm.freeFrames.card) :
    (pmmAllocPage s.pmm).1 ≠ 0 ∧ ∃ role' s', s' = mapStackPage dir i (pmmAllocPage s.pmm).1
        { s with pmm := (pmmAllocPage s.pmm).2 } ∧ Grows s s' k live role role' ∧
      s.pmm.freeFrames.card ≤ s'.pmm.freeFrames.card + 2 := by
  rcases allocMap_cases hs hr h0 hne hc (userVirtualEnd - (i + 1) * 0x1000)
    (pagePresent ||| pageWritable ||| pageUser) with
    ⟨hzero, -⟩ | ⟨f, hf0, haddr, -, ok, s', role', hmap, hfail, hok⟩
  · omega
  cases ok with
  | false =>
    have := (hfail rfl).1
    omega
  | true =>
    have hfresh := hok rfl
    have hfrom := hfresh.card
    refine ⟨by omega, role', s', ?_, hfresh.grows, ?_⟩
    · unfold mapStackPage
      rw [haddr, hmap]
    · split_ifs at hfrom
      · omega
      · omega

/-- Eight frames are enough, when `kmalloc` takes none. -/
lemma processCreate_succeeds {p : Proc} (h : UserProcess p s k live role)
    (hcard : 8 ≤ s.pmm.freeFrames.card) (hlow : ∀ g, s.pmm.Free g → g < 0x40000) :
    ∃ child s', Vm.processCreate (fun _ s => (true, s)) s = (some child, s') ∧
      s.pmm.freeFrames.card ≤ s'.pmm.freeFrames.card + 7 := by
  have hne := h.createDirectory_ne_zero (by omega) hlow
  obtain ⟨c, role1, hptr, hdir, hnb⟩ := h.newBorn hne
  generalize hdef : physicalToVirtual (c * 4096) = dir at hptr hdir
  unfold Vm.processCreate
  dsimp only
  rw [if_neg hne]
  rw [hptr] at hne ⊢
  generalize (vmmCreateDirectory s).2 = s1 at hnb ⊢
  have hcard1 := hnb.card
  have hc : dirFrame dir ∈ insert c live := by
    rw [hdir]
    exact Set.mem_insert _ _
  obtain ⟨he2, -⟩ := vmmMapKernelSpace_extends (H := ∅) hnb.sep hne hc
    (by rw [hnb.kernelDirectory]; exact h.kernel)
    (by rw [hnb.kernelDirectory]; exact h.kernelNonnull)
    (by rw [hdir]; exact hnb.kernelEntries)
  have hcard2 : (vmmMapKernelSpace dir s1).pmm.freeFrames.card = s1.pmm.freeFrames.card := by
    rw [vmmMapKernelSpace_pmm]
  generalize vmmMapKernelSpace dir s1 = s2 at he2 hcard2 ⊢
  have hr2 := he2.ready hnb.ready
  have h02 : ¬ s2.pmm.Free 0 := fun h' => h.zero_not_free (hnb.free 0 (he2.free 0 h'))
  obtain ⟨ok, s3, role3, hmap3, hm3⟩ := mapPage_spec he2.sep hc hr2.reachable (fun _ m => m) 0xB8000
    0xB8000 (pagePresent ||| pageWritable)
  have hcall3 : vmmMapPageInDirectory dir 0xB8000 0xB8000 (pagePresent ||| pageWritable) s2 =
      (ok, s3) := by
    unfold vmmMapPageInDirectory
    rw [if_neg hne, hmap3]
  have hcard3 := hm3.card_freeFrames
  have hr3 := hm3.grows.ready hr2
  have h03 : ¬ s3.pmm.Free 0 := fun h' => h02 (hm3.grows.free 0 h')
  rw [hcall3]
  obtain ⟨hne1, role4, s4, hs4, hg4, hcard4⟩ :=
    mapStackPage_succeeds hm3.grows.sep hr3 h03 hne hc 0 (by omega)
  have h04 : ¬ s4.pmm.Free 0 := fun h' => h03 (hg4.free 0 h')
  obtain ⟨hne2, role5, s5, hs5, -, hcard5⟩ :=
    mapStackPage_succeeds hg4.sep (hg4.ready hr3) h04 hne hc 1 (by omega)
  rw [if_neg hne1, ← hs4, if_neg hne2, ← hs5]
  exact ⟨_, s5, rfl, by omega⟩

end FrostByte
