import Mathlib.Tactic.IntervalCases
import FrostByte.Vmm.Model

/-!
# Separation of page directories and page tables

Every frame has one role: free, a directory, the page table of one entry of one directory, or memory
of some other kind. So page tables of different entries are different frames. Only the tables of the
kernel's part of the address space are shared.

## Main definitions

* `Role`, `Tables`, `Sep` — the roles of frames, and that memory agrees with them.
* `Ready` — the state between two calls of the memory manager.
* `Grows` — what a step may change for the pages that exist.

## Main results

* `mapPage_spec` — mapping changes one translation.
* `clearEntry_spec` — so does unmapping.
* `vmmMapPageInDirectory_user`, `vmmUnmapPageInDirectory_user` — the same for user pages.
-/

namespace FrostByte

open Word Vm

/-! ## Entries -/

lemma present_iff (e : ℕ) : Present e ↔ e % 2 = 1 := by
  rw [Present, pagePresent, Nat.and_one_is_mod]
  omega

@[simp] lemma not_present_zero : ¬ Present 0 := by decide

lemma page_or {f b : ℕ} (hb : b < 4096) : f * 4096 ||| b = f * 4096 + b := by
  have := Nat.two_pow_add_eq_or_of_lt (i := 12) hb f
  rw [Nat.mul_comm]
  exact this.symm

lemma mkTableEntry_eq (f flags : ℕ) :
    ∃ b, b < 4096 ∧ b % 2 = 1 ∧ mkTableEntry (f * 4096) flags = f * 4096 + b := by
  have hand : flags &&& 4 = 0 ∨ flags &&& 4 = 4 := by
    have hle : flags &&& 4 ≤ 4 := Nat.and_le_right
    have hbit : (flags &&& 4) &&& 3 = 0 := by
      rw [Nat.and_assoc]
      exact Nat.and_zero _
    generalize flags &&& 4 = x at hle hbit
    interval_cases x <;> simp_all
  simp only [mkTableEntry, pagePresent, pageUser, Nat.or_assoc]
  rcases hand with h | h
  · rw [h]
    exact ⟨3, by decide, by decide, page_or (by decide)⟩
  · rw [h]
    exact ⟨7, by decide, by decide, page_or (by decide)⟩

lemma present_mkTableEntry (f flags : ℕ) : Present (mkTableEntry (f * 4096) flags) := by
  obtain ⟨b, hb, hodd, h⟩ := mkTableEntry_eq f flags
  rw [present_iff]
  omega

lemma entryFrame_mkTableEntry (f flags : ℕ) : entryFrame (mkTableEntry (f * 4096) flags) = f := by
  obtain ⟨b, hb, -, h⟩ := mkTableEntry_eq f flags
  rw [entryFrame]
  omega

variable {flags g v va w x : ℕ} {s' : Vm}

lemma mkEntry_eq (hf : flags < 4096) (pa : ℕ) : mkEntry pa flags = pa / 4096 * 4096 + flags :=
  page_or hf

lemma present_mkEntry (hf : flags < 4096) (pa : ℕ) :
    Present (mkEntry pa flags) ↔ Present flags := by
  rw [present_iff, present_iff, mkEntry_eq hf]
  omega

lemma entryFrame_mkEntry (hf : flags < 4096) (pa : ℕ) :
    entryFrame (mkEntry pa flags) = pa / 4096 := by
  rw [entryFrame, mkEntry_eq hf]
  omega

lemma pageDirectoryIndex_eq (va : ℕ) : pageDirectoryIndex va = va / 4096 / 1024 := by
  unfold pageDirectoryIndex
  omega

lemma dirFrame_physicalToVirtual {f : ℕ} (hf : f < 0x100000) :
    dirFrame (physicalToVirtual (f * 4096)) = f := by
  unfold dirFrame physicalToVirtual virtualToPhysical sub32 w32 kernelVirtualBase
  omega

lemma physicalToVirtual_page (f : ℕ) :
    physicalToVirtual (f * 4096) / 4096 = (f + 0xC0000) % 0x100000 := by
  unfold physicalToVirtual kernelVirtualBase w32
  omega

lemma physicalToVirtual_ne_zero {f : ℕ} (hf : f < 0x40000) : physicalToVirtual (f * 4096) ≠ 0 := by
  intro h
  have := physicalToVirtual_page f
  omega

/-! ## Memory -/

namespace Vm

@[simp] lemma setWord_mem_same (s : Vm) (f i w : ℕ) : (s.setWord f i w).mem f i = w := by
  simp [setWord]

lemma setWord_mem_index (s : Vm) {f i j : ℕ} (w : ℕ) (h : j ≠ i) :
    (s.setWord f i w).mem f j = s.mem f j := by
  simp [setWord, h]

lemma setWord_mem_frame (s : Vm) {f i : ℕ} (w : ℕ) (h : g ≠ f) :
    (s.setWord f i w).mem g = s.mem g := by
  simp [setWord, h]

@[simp] lemma zeroFrame_mem_same (s : Vm) (f i : ℕ) : (s.zeroFrame f).mem f i = 0 := by
  simp [zeroFrame]

lemma zeroFrame_mem_frame (s : Vm) {f : ℕ} (h : g ≠ f) : (s.zeroFrame f).mem g = s.mem g := by
  simp [zeroFrame, h]

@[simp] lemma setFrame_mem_same (s : Vm) (f : ℕ) (words : ℕ → ℕ) :
    (s.setFrame f words).mem f = words := by
  simp [setFrame]

lemma setFrame_mem_frame (s : Vm) {f : ℕ} (words : ℕ → ℕ) (h : g ≠ f) :
    (s.setFrame f words).mem g = s.mem g := by
  simp [setFrame, h]

/-- The entry of page `v` in `d`, `0` without a page table. -/
def lookup (s : Vm) (d v : ℕ) : ℕ :=
  if Present (s.mem d (v / 1024)) then s.mem (entryFrame (s.mem d (v / 1024))) (v % 1024) else 0

lemma lookup_of_mem_eq {s : Vm} (h : s'.mem = s.mem) (d v : ℕ) : s'.lookup d v = s.lookup d v := by
  simp [lookup, h]

lemma lookup_pointers (s : Vm) (a b d v : ℕ) :
    ({ s with kernelDirectory := a, currentDirectory := b } : Vm).lookup d v = s.lookup d v := rfl

lemma lookup_of_present {s : Vm} {d : ℕ} (h : Present (s.mem d (v / 1024))) :
    s.lookup d v = s.mem (entryFrame (s.mem d (v / 1024))) (v % 1024) := if_pos h

lemma lookup_of_not_present {s : Vm} {d : ℕ} (h : ¬ Present (s.mem d (v / 1024))) :
    s.lookup d v = 0 := if_neg h

end Vm

lemma vmmSwitchDirectory_mem (p : ℕ) (s : Vm) : (vmmSwitchDirectory p s).mem = s.mem := by
  unfold vmmSwitchDirectory
  split_ifs
  · rfl
  · rfl

lemma vmmSwitchDirectory_lookup (p : ℕ) (s : Vm) (d v : ℕ) :
    (vmmSwitchDirectory p s).lookup d v = s.lookup d v :=
  lookup_of_mem_eq (vmmSwitchDirectory_mem p s) d v

lemma present_of_lookup {s : Vm} {d : ℕ} (h : Present (s.lookup d v)) :
    Present (s.mem d (v / 1024)) := by
  by_contra hp
  simp [lookup_of_not_present hp] at h

/-! ## Roles -/

/-- What a frame is used for. -/
inductive Role
  /-- It may be handed out by the page allocator. -/
  | free
  /-- A page directory. -/
  | dir
  /-- The page table installed at entry `i` of the directory `d`. -/
  | table (d i : ℕ)
  /-- The memory of page `v` of the directory `d`. -/
  | page (d v : ℕ)
  /-- A shared memory segment. -/
  | shm (slot : ℕ)
  /-- Handed out for some other use. -/
  | held
  /-- Never handed out. -/
  | reserved
  deriving DecidableEq

/-- The kernel's part: the identity map and the upper gigabyte. -/
def KernelIndex (i : ℕ) : Prop := i < 2 ∨ 768 ≤ i

instance (i : ℕ) : Decidable (KernelIndex i) := inferInstanceAs (Decidable (_ ∨ _))

/-- The roles agree with the live directories and their page tables; `k` is the kernel directory. -/
structure Tables (s : Vm) (k : ℕ) (live : Set ℕ) (role : ℕ → Role) : Prop where
  kernel : k ∈ live
  dir : ∀ d ∈ live, role d = .dir
  table : ∀ d ∈ live, ∀ i, Present (s.mem d i) →
    role (entryFrame (s.mem d i)) = .table d i ∨
      (KernelIndex i ∧ role (entryFrame (s.mem d i)) = .table k i)

/-- The roles agree with directories, page tables and free frames. -/
structure Sep (s : Vm) (k : ℕ) (live : Set ℕ) (role : ℕ → Role) : Prop
    extends Tables s k live role where
  free : ∀ f, s.pmm.Free f → role f = .free

namespace Tables

variable {s : Vm} {k : ℕ} {live : Set ℕ} {role : ℕ → Role}

section

variable (hs : Tables s k live role)

include hs

lemma table_index {d i : ℕ} (hd : d ∈ live) (hp : Present (s.mem d i)) :
    ∃ o, role (entryFrame (s.mem d i)) = .table o i := by
  rcases hs.table d hd i hp with h | ⟨-, h⟩
  · exact ⟨d, h⟩
  · exact ⟨k, h⟩

lemma table_ne_dir {d i : ℕ} (hd : d ∈ live)
    (hp : Present (s.mem d i)) (hx : x ∈ live) : x ≠ entryFrame (s.mem d i) := by
  rintro rfl
  obtain ⟨o, ho⟩ := hs.table_index hd hp
  rw [hs.dir _ hx] at ho
  cases ho

lemma table_index_inj {d d' i i' : ℕ} (hd : d ∈ live) (hd' : d' ∈ live)
    (hp : Present (s.mem d i)) (hp' : Present (s.mem d' i'))
    (h : entryFrame (s.mem d i) = entryFrame (s.mem d' i')) : i = i' := by
  obtain ⟨o, ho⟩ := hs.table_index hd hp
  obtain ⟨o', ho'⟩ := hs.table_index hd' hp'
  rw [h, ho'] at ho
  exact (Role.table.inj ho).2.symm

lemma table_user_inj {d d' i i' : ℕ} (hd : d ∈ live) (hd' : d' ∈ live)
    (hi : ¬ KernelIndex i) (hp : Present (s.mem d i)) (hp' : Present (s.mem d' i'))
    (h : entryFrame (s.mem d i) = entryFrame (s.mem d' i')) : d = d' ∧ i = i' := by
  obtain rfl := hs.table_index_inj hd hd' hp hp' h
  have h1 := (hs.table d hd i hp).resolve_right fun hk => hi hk.1
  have h2 := (hs.table d' hd' i hp').resolve_right fun hk => hi hk.1
  rw [h, h2] at h1
  exact ⟨(Role.table.inj h1).1.symm, rfl⟩

lemma congr (hmem : ∀ d ∈ live, s'.mem d = s.mem d) : Tables s' k live role := by
  refine ⟨hs.kernel, hs.dir, fun d hd i hp => ?_⟩
  rw [hmem d hd] at hp ⊢
  exact hs.table d hd i hp

end

end Tables

namespace Sep

variable {s : Vm} {k : ℕ} {live : Set ℕ} {role : ℕ → Role}

lemma free_ne_dir (hs : Sep s k live role) {f : ℕ} (hf : s.pmm.Free f) (hx : x ∈ live) : x ≠ f := by
  rintro rfl
  have := hs.dir _ hx
  rw [hs.free _ hf] at this
  cases this

lemma free_ne_table (hs : Sep s k live role) {f d i : ℕ} (hf : s.pmm.Free f) (hd : d ∈ live)
    (hp : Present (s.mem d i)) : entryFrame (s.mem d i) ≠ f := by
  rintro rfl
  obtain ⟨o, ho⟩ := hs.table_index hd hp
  rw [hs.free _ hf] at ho
  cases ho

lemma congr (hs : Sep s k live role) (hfree : ∀ f, s'.pmm.Free f → s.pmm.Free f)
    (hmem : ∀ d ∈ live, s'.mem d = s.mem d) : Sep s' k live role :=
  ⟨hs.toTables.congr hmem, fun f hf => hs.free f (hfree f hf)⟩

end Sep

/-! ## Mapping -/

/-- **Allocation**, by the address returned, `0` for frame `0` too. -/
lemma pmmAllocPage_spec (m : Pmm) : (pmmAllocPage m).2.totalPages = m.totalPages ∧
    (((pmmAllocPage m).1 = 0 ∧ (∀ q, (pmmAllocPage m).2.Free q ↔ m.Free q ∧ q ≠ 0) ∧
        (m.Free 0 ∨ ∀ q, ¬ m.Free q)) ∨ ∃ p, p ≠ 0 ∧ (pmmAllocPage m).1 = p * 4096 ∧ m.Free p ∧
        ∀ q, (pmmAllocPage m).2.Free q ↔ m.Free q ∧ q ≠ p) := by
  rcases pmmAllocPage_cases m with ⟨h, hno⟩ | ⟨p, m', h, hp, ht, hfree⟩
  · rw [h]
    exact ⟨rfl, .inl ⟨rfl, fun q => by simp [hno q], .inr hno⟩⟩
  · rw [h]
    refine ⟨ht, ?_⟩
    rcases eq_or_ne p 0 with rfl | hp0
    · exact .inl ⟨rfl, hfree, .inl hp⟩
    · exact .inr ⟨p, hp0, rfl, hp, hfree⟩

/-- The state after a new page table in frame `f` has been installed. -/
def installTable (pmm : Pmm) (d i f flags : ℕ) (s : Vm) : Vm :=
  (({ s with pmm := pmm } : Vm).setWord d i (mkTableEntry (f * 4096) flags)).zeroFrame f

section Mapping

variable {s : Vm} {k : ℕ} {live : Set ℕ} {role : ℕ → Role}

/-- Page tables can be reached in all states that keep the pointers and present entries. -/
def Reachable (reach : Vm → ℕ → Bool) (live : Set ℕ) (s : Vm) : Prop :=
  ∀ s' : Vm, s'.currentDirectory = s.currentDirectory → s'.kernelDirectory = s.kernelDirectory →
    (∀ x ∈ live, ∀ j, Present (s.mem x j) → s'.mem x j = s.mem x j) → ∀ pt, reach s' pt = true

/-- The active directory is live and maps the scratch pages. -/
structure Ready (s : Vm) (live : Set ℕ) : Prop where
  active : s.active ≠ 0
  mem : dirFrame s.active ∈ live
  scratch : Present (s.mem (dirFrame s.active) 1)

lemma Ready.reachable (hr : Ready s live) : Reachable Vm.canMapPt live s := by
  intro s' hc hk hmem pt
  have hactive : s'.active = s.active := by simp only [Vm.active, hc, hk]
  have hpde := hmem _ hr.mem 1 hr.scratch
  simp only [Vm.canMapPt, hactive, hpde]
  simp [hr.active, hr.scratch]

lemma Ready.canMapTemp (hr : Ready s live) : s.canMapTemp = true := by
  simp [Vm.canMapTemp, hr.active, hr.scratch]

/-- **The mapping functions** find no frame for a table, or write the entry. -/
lemma mapPage_cases {reach : Vm → ℕ → Bool} (hs : Sep s k live role) {d : ℕ} (hd : d ∈ live)
    (hr : Reachable reach live s) (drop : ℕ → Pmm → Pmm) (va pa flags : ℕ) :
    (¬ Present (s.mem d (pageDirectoryIndex va)) ∧ (pmmAllocPage s.pmm).1 = 0 ∧
      mapPage reach drop d va pa flags s = (false, { s with pmm := (pmmAllocPage s.pmm).2 })) ∨
    (Present (s.mem d (pageDirectoryIndex va)) ∧
      mapPage reach drop d va pa flags s = (true,
        s.setWord (entryFrame (s.mem d (pageDirectoryIndex va))) (pageTableIndex va)
          (mkEntry pa flags))) ∨
    ∃ f, ¬ Present (s.mem d (pageDirectoryIndex va)) ∧ f ≠ 0 ∧ (pmmAllocPage s.pmm).1 = f * 4096 ∧
      s.pmm.Free f ∧ (∀ q, (pmmAllocPage s.pmm).2.Free q ↔ s.pmm.Free q ∧ q ≠ f) ∧
      mapPage reach drop d va pa flags s = (true,
        (installTable (pmmAllocPage s.pmm).2 d (pageDirectoryIndex va) f flags s).setWord f
          (pageTableIndex va) (mkEntry pa flags)) := by
  by_cases hp : Present (s.mem d (pageDirectoryIndex va))
  · right; left
    refine ⟨hp, ?_⟩
    have hreach := hr s rfl rfl (fun _ _ _ _ => rfl)
      (entryFrame (s.mem d (pageDirectoryIndex va)))
    simp [mapPage, if_pos hp, writeEntry, hreach]
  · obtain ⟨-, h⟩ := pmmAllocPage_spec s.pmm
    rcases h with ⟨hzero, -, -⟩ | ⟨f, hf0, haddr, hfree, hfree'⟩
    · left
      refine ⟨hp, hzero, ?_⟩
      simp [mapPage, if_neg hp, newTable, hzero]
    · right; right
      refine ⟨f, hp, hf0, haddr, hfree, hfree', ?_⟩
      have hdf : d ≠ f := hs.free_ne_dir hfree hd
      -- neither the new entry nor the cleared table hides a present entry
      have hkeep : ∀ x ∈ live, ∀ j, Present (s.mem x j) →
          (({ s with pmm := (pmmAllocPage s.pmm).2 } : Vm).setWord d (pageDirectoryIndex va)
            (mkTableEntry (f * 4096) flags)).mem x j = s.mem x j := by
        intro x _ j hpj
        by_cases hxd : x = d
        · subst hxd
          exact setWord_mem_index _ _ fun hj => hp (hj ▸ hpj)
        · rw [setWord_mem_frame _ _ hxd]
      have hreach1 := hr (({ s with pmm := (pmmAllocPage s.pmm).2 } : Vm).setWord d
        (pageDirectoryIndex va) (mkTableEntry (f * 4096) flags)) rfl rfl hkeep f
      have hreach2 : reach (installTable (pmmAllocPage s.pmm).2 d (pageDirectoryIndex va) f
          flags s) f = true := by
        refine hr (installTable _ d _ f flags s) rfl rfl (fun x hx j hpj => ?_) f
        rw [installTable, zeroFrame_mem_frame _ (hs.free_ne_dir hfree hx)]
        exact hkeep x hx j hpj
      have hpde : (installTable (pmmAllocPage s.pmm).2 d (pageDirectoryIndex va) f flags s).mem d
          (pageDirectoryIndex va) = mkTableEntry (f * 4096) flags := by
        rw [installTable, zeroFrame_mem_frame _ hdf, setWord_mem_same]
      have hne : f * 4096 ≠ 0 := by omega
      have hdiv : f * 4096 / 4096 = f := Nat.mul_div_cancel _ (by decide)
      have hnew : newTable reach drop d (pageDirectoryIndex va) flags s =
          (true, installTable (pmmAllocPage s.pmm).2 d (pageDirectoryIndex va) f flags s) := by
        simp [newTable, haddr, hne, hdiv, hreach1, installTable]
      simp only [mapPage, if_neg hp, hnew, writeEntry, hpde, entryFrame_mkTableEntry, hreach2,
        if_true]

/-! ### Effects -/

/-- A frame that is neither free nor part of the paging structures. -/
def Role.IsData : Role → Prop
  | .free | .dir | .table _ _ => False
  | .page _ _ | .shm _ | .held | .reserved => True

lemma Role.IsData.ne_free {r : Role} (h : r.IsData) : r ≠ .free := by
  rintro rfl
  exact h

/-- `s'` arises from `s` by using free frames for page tables and writing these. -/
structure Grows (s s' : Vm) (k : ℕ) (live : Set ℕ) (role role' : ℕ → Role) : Prop where
  sep : Sep s' k live role'
  roles : ∀ f, role f ≠ .free → role' f = role f
  free : ∀ f, s'.pmm.Free f → s.pmm.Free f
  totalPages : s'.pmm.totalPages = s.pmm.totalPages
  kernelDirectory : s'.kernelDirectory = s.kernelDirectory
  currentDirectory : s'.currentDirectory = s.currentDirectory
  pde : ∀ x ∈ live, ∀ j, Present (s.mem x j) → s'.mem x j = s.mem x j
  data : ∀ g, (role g).IsData → s'.mem g = s.mem g

lemma Grows.refl (hs : Sep s k live role) : Grows s s k live role role :=
  ⟨hs, fun _ _ => rfl, fun _ h => h, rfl, rfl, rfl, fun _ _ _ _ => rfl, fun _ _ => rfl⟩

lemma Grows.trans {s'' : Vm} {role' role'' : ℕ → Role} (h1 : Grows s s' k live role role')
    (h2 : Grows s' s'' k live role' role'') : Grows s s'' k live role role'' := by
  constructor
  · exact h2.sep
  · intro f hf
    rw [h2.roles f (by rwa [h1.roles f hf]), h1.roles f hf]
  · exact fun f hf => h1.free f (h2.free f hf)
  · rw [h2.totalPages, h1.totalPages]
  · rw [h2.kernelDirectory, h1.kernelDirectory]
  · rw [h2.currentDirectory, h1.currentDirectory]
  · intro x hx j hp
    rw [h2.pde x hx j (by rwa [h1.pde x hx j hp]), h1.pde x hx j hp]
  · intro g hg
    rw [h2.data g (by rwa [h1.roles g hg.ne_free]), h1.data g hg]

lemma Ready.congr (hr : Ready s live) (hk : s'.kernelDirectory = s.kernelDirectory)
    (hc : s'.currentDirectory = s.currentDirectory)
    (hmem : s'.mem (dirFrame s.active) 1 = s.mem (dirFrame s.active) 1) :
    Ready s' live ∧ s'.active = s.active := by
  have hactive : s'.active = s.active := by simp only [Vm.active, hc, hk]
  refine ⟨⟨by rw [hactive]; exact hr.active, by rw [hactive]; exact hr.mem, ?_⟩, hactive⟩
  rw [hactive, hmem]
  exact hr.scratch

lemma Grows.ready {role' : ℕ → Role} (h : Grows s s' k live role role')
    (hr : Ready s live) : Ready s' live :=
  (hr.congr h.kernelDirectory h.currentDirectory (h.pde _ hr.mem 1 hr.scratch)).1

lemma Grows.of_pmm (hs : Sep s k live role) {pmm : Pmm} (hfree : ∀ f, pmm.Free f → s.pmm.Free f)
    (ht : pmm.totalPages = s.pmm.totalPages) : Grows s { s with pmm := pmm } k live role role :=
  ⟨hs.congr hfree fun _ _ => rfl, fun _ _ => rfl, hfree, ht, rfl, rfl, fun _ _ _ _ =>
    rfl, fun _ _ => rfl⟩

section Install

variable {pmm : Pmm} {d i f : ℕ}

lemma installTable_mem_dir (hs : Sep s k live role) (hf : s.pmm.Free f) (hx : x ∈ live)
    (flags j : ℕ) : (installTable pmm d i f flags s).mem x j =
      if x = d ∧ j = i then mkTableEntry (f * 4096) flags else s.mem x j := by
  rw [installTable, zeroFrame_mem_frame _ (hs.free_ne_dir hf hx)]
  by_cases hxd : x = d
  · subst hxd
    by_cases hj : j = i
    · subst hj
      simp
    · simp [setWord_mem_index _ _ hj, hj]
  · simp [setWord_mem_frame _ _ hxd, hxd]

lemma installTable_mem_other (flags : ℕ) (hgd : g ≠ d) (hgf : g ≠ f) :
    (installTable pmm d i f flags s).mem g = s.mem g := by
  rw [installTable, zeroFrame_mem_frame _ hgf, setWord_mem_frame _ _ hgd]

lemma Grows.installTable (hs : Sep s k live role) (hd : d ∈ live) (hf : s.pmm.Free f)
    (hp : ¬ Present (s.mem d i)) (hfree : ∀ q, pmm.Free q ↔ s.pmm.Free q ∧ q ≠ f)
    (ht : pmm.totalPages = s.pmm.totalPages) (flags : ℕ) :
    Grows s (installTable pmm d i f flags s) k live role (Function.update role f (.table d i)) := by
  have hrole : ∀ g, role g ≠ .free → Function.update role f (.table d i) g = role g := by
    intro g hg
    refine Function.update_of_ne ?_ _ _
    rintro rfl
    exact hg (hs.free _ hf)
  have hpde : ∀ x ∈ live, ∀ j, Present (s.mem x j) →
      (FrostByte.installTable pmm d i f flags s).mem x j = s.mem x j := by
    intro x hx j hpj
    rw [installTable_mem_dir hs hf hx, if_neg]
    rintro ⟨rfl, rfl⟩
    exact hp hpj
  constructor
  · refine ⟨⟨hs.kernel, fun x hx => ?_, fun x hx j hpj => ?_⟩, fun g hg => ?_⟩
    · rw [hrole x (by simp [hs.dir x hx])]
      exact hs.dir x hx
    · rw [installTable_mem_dir hs hf hx] at hpj ⊢
      by_cases hxj : x = d ∧ j = i
      · obtain ⟨rfl, rfl⟩ := hxj
        left
        simp [entryFrame_mkTableEntry]
      · rw [if_neg hxj] at hpj ⊢
        obtain ⟨o, ho⟩ := hs.table_index hx hpj
        rw [hrole _ (by simp [ho])]
        exact hs.table x hx j hpj
    · have hg' := (hfree g).mp hg
      rw [Function.update_of_ne hg'.2]
      exact hs.free g hg'.1
  · exact hrole
  · exact fun q hq => ((hfree q).mp hq).1
  · exact ht
  · rfl
  · rfl
  · exact hpde
  · intro g hg
    refine installTable_mem_other flags ?_ ?_
    · rintro rfl
      rw [hs.dir _ hd] at hg
      exact hg
    · rintro rfl
      rw [hs.free _ hf] at hg
      exact hg

lemma lookup_installTable (hs : Sep s k live role) (hd : d ∈ live) (hf : s.pmm.Free f)
    (hp : ¬ Present (s.mem d i)) (hx : x ∈ live) (flags v : ℕ) :
    (installTable pmm d i f flags s).lookup x v = s.lookup x v := by
  by_cases hxv : x = d ∧ v / 1024 = i
  · obtain ⟨rfl, rfl⟩ := hxv
    have hpde : (installTable pmm x (v / 1024) f flags s).mem x (v / 1024) =
        mkTableEntry (f * 4096) flags := by
      rw [installTable_mem_dir hs hf hx]
      simp
    rw [lookup_of_not_present hp, lookup_of_present (by
      rw [hpde]; exact present_mkTableEntry f flags), hpde, entryFrame_mkTableEntry, installTable,
      zeroFrame_mem_same]
  · have hpde : (installTable pmm d i f flags s).mem x (v / 1024) = s.mem x (v / 1024) := by
      rw [installTable_mem_dir hs hf hx, if_neg hxv]
    by_cases hpx : Present (s.mem x (v / 1024))
    · rw [lookup_of_present hpx, lookup_of_present (by rwa [hpde]), hpde,
        installTable_mem_other flags (hs.table_ne_dir hx hpx hd).symm (hs.free_ne_table hf hx hpx)]
    · rw [lookup_of_not_present hpx, lookup_of_not_present (by rwa [hpde])]

end Install

/-! ### Writing an entry -/

/-- The directory `x` leads to the same page table as `d` at index `i`. -/
def Vm.Shares (s : Vm) (x d i : ℕ) : Prop :=
  Present (s.mem x i) ∧ entryFrame (s.mem x i) = entryFrame (s.mem d i)

instance (s : Vm) (x d i : ℕ) : Decidable (s.Shares x d i) := inferInstanceAs (Decidable (_ ∧ _))

lemma Grows.writeTable (hs : Sep s k live role) {d i : ℕ} (hd : d ∈ live)
    (hp : Present (s.mem d i)) (j w : ℕ) :
    Grows s (s.setWord (entryFrame (s.mem d i)) j w) k live role role := by
  have hmem : ∀ x ∈ live, (s.setWord (entryFrame (s.mem d i)) j w).mem x = s.mem x :=
    fun x hx => setWord_mem_frame _ _ (hs.table_ne_dir hd hp hx)
  refine ⟨hs.congr (fun _ h => h) hmem, fun _ _ => rfl, fun _ h => h, rfl, rfl,
    rfl, fun x hx j _ => by rw [hmem x hx], fun g hg => setWord_mem_frame _ _ ?_⟩
  rintro rfl
  obtain ⟨o, ho⟩ := hs.table_index hd hp
  rw [ho] at hg
  exact hg

lemma lookup_writeTable (hs : Tables s k live role) {d : ℕ} (hd : d ∈ live)
    (hp : Present (s.mem d (v / 1024))) (w : ℕ) (hx : x ∈ live) (u : ℕ) :
    (s.setWord (entryFrame (s.mem d (v / 1024))) (v % 1024) w).lookup x u =
      if u = v ∧ s.Shares x d (v / 1024) then w else s.lookup x u := by
  have hmem : (s.setWord (entryFrame (s.mem d (v / 1024))) (v % 1024) w).mem x = s.mem x :=
    setWord_mem_frame _ _ (hs.table_ne_dir hd hp hx)
  by_cases hpx : Present (s.mem x (u / 1024))
  · rw [lookup_of_present hpx, lookup_of_present (by rwa [hmem]), hmem]
    by_cases hframe : entryFrame (s.mem x (u / 1024)) = entryFrame (s.mem d (v / 1024))
    · have hidx : u / 1024 = v / 1024 := hs.table_index_inj hx hd hpx hp hframe
      rw [hframe]
      by_cases hoff : u % 1024 = v % 1024
      · obtain rfl : u = v := by omega
        rw [setWord_mem_same, if_pos ⟨rfl, hpx, hframe⟩]
      · rw [setWord_mem_index _ _ hoff, if_neg]
        rintro ⟨rfl, -⟩
        exact hoff rfl
    · rw [setWord_mem_frame _ _ hframe, if_neg]
      rintro ⟨rfl, -, h⟩
      exact hframe h
  · rw [lookup_of_not_present hpx, lookup_of_not_present (by rwa [hmem]), if_neg]
    rintro ⟨rfl, h, -⟩
    exact hpx h

/-- Page `v` of `d` has the entry `w`, where the page table is shared; or there was no frame for the
table. -/
structure Mapped (s s' : Vm) (k : ℕ) (live : Set ℕ) (role role' : ℕ → Role) (d v w : ℕ)
    (ok : Bool) : Prop where
  grows : Grows s s' k live role role'
  ok_iff : ok = true ↔ Present (s.mem d (v / 1024)) ∨ (pmmAllocPage s.pmm).1 ≠ 0
  pmm : s'.pmm = if Present (s.mem d (v / 1024)) then s.pmm else (pmmAllocPage s.pmm).2
  pde : ∀ x ∈ live, ∀ j, ¬ (x = d ∧ j = v / 1024) → s'.mem x j = s.mem x j
  present : ok = true → Present (s'.mem d (v / 1024))
  lookup : ok = true → ∀ x ∈ live, ∀ u, s'.lookup x u =
    if u = v ∧ s'.Shares x d (v / 1024) then w else s.lookup x u
  fail : ok = false → s' = { s with pmm := (pmmAllocPage s.pmm).2 }

section

variable {reach : Vm → ℕ → Bool} (hs : Sep s k live role) {d : ℕ} (hd : d ∈ live)
    (hr : Reachable reach live s)

include hs hd hr

/-- Mapping a page, with or without a new table, gives it the entry and leaves the other pages as
they are. -/
lemma mapPage_spec (drop : ℕ → Pmm → Pmm) (va pa flags : ℕ) :
    ∃ ok s' role', mapPage reach drop d va pa flags s = (ok, s') ∧
      Mapped s s' k live role role' d (va / 4096) (mkEntry pa flags) ok := by
  have hpd := pageDirectoryIndex_eq va
  have halloc := pmmAllocPage_spec s.pmm
  rcases mapPage_cases hs hd hr drop va pa flags with
    ⟨hp, hzero, h⟩ | ⟨hp, h⟩ | ⟨f, hp, hf0, haddr, hfree, hfree', h⟩
  · rw [hpd] at hp
    refine ⟨_, _, role, h, ⟨Grows.of_pmm hs (fun f hf => ?_) halloc.1, by simp [hp, hzero],
      by rw [if_neg hp], fun _ _ _ _ => rfl, by simp, by simp, fun _ => rfl⟩⟩
    rcases halloc.2 with ⟨-, hfree, -⟩ | ⟨p, -, -, -, hfree⟩
    · exact ((hfree f).mp hf).1
    · exact ((hfree f).mp hf).1
  · rw [hpd] at hp h
    have hgrow := Grows.writeTable hs hd hp (pageTableIndex va) (mkEntry pa flags)
    have hmem : ∀ y ∈ live, (s.setWord (entryFrame (s.mem d (va / 4096 / 1024)))
        (pageTableIndex va) (mkEntry pa flags)).mem y = s.mem y := fun y hy =>
      setWord_mem_frame _ _ (hs.table_ne_dir hd hp hy)
    refine ⟨_, _, role, h, ⟨hgrow, by simp [hp], by rw [if_pos hp]; rfl,
      fun x hx j _ => by rw [hmem x hx], fun _ => by rwa [hmem d hd], fun _ x hx u => ?_, by simp⟩⟩
    simp only [Vm.Shares, hmem x hx, hmem d hd]
    exact lookup_writeTable hs.toTables hd hp _ hx u
  · rw [hpd] at hp h
    have hgrow := Grows.installTable hs hd hfree hp hfree' halloc.1 flags
    have hne : (pmmAllocPage s.pmm).1 ≠ 0 := by omega
    set s1 := installTable (pmmAllocPage s.pmm).2 d (va / 4096 / 1024) f flags s with hs1
    have hpde : s1.mem d (va / 4096 / 1024) = mkTableEntry (f * 4096) flags := by
      rw [installTable_mem_dir hs hfree hd]
      simp
    have hp1 : Present (s1.mem d (va / 4096 / 1024)) := by
      rw [hpde]
      exact present_mkTableEntry f flags
    have hframe : entryFrame (s1.mem d (va / 4096 / 1024)) = f := by
      rw [hpde, entryFrame_mkTableEntry]
    have hwrite := Grows.writeTable hgrow.sep hd hp1 (pageTableIndex va) (mkEntry pa flags)
    rw [hframe] at hwrite
    have hmem : ∀ y ∈ live, (s1.setWord f (pageTableIndex va) (mkEntry pa flags)).mem y =
        s1.mem y := fun y hy =>
      setWord_mem_frame _ _ (by rw [← hframe]; exact hgrow.sep.table_ne_dir hd hp1 hy)
    refine ⟨_, _, _, h, ⟨hgrow.trans hwrite, by simp [hne], by rw [if_neg hp]; rfl,
      fun x hx j hxj => ?_, fun _ => by rwa [hmem d hd], fun _ x hx u => ?_, by simp⟩⟩
    · rw [hmem x hx, installTable_mem_dir hs hfree hx, if_neg hxj]
    · have hlook := lookup_writeTable hgrow.sep.toTables hd hp1 (mkEntry pa flags) hx u
      rw [hframe, lookup_installTable hs hd hfree hp hx flags u] at hlook
      simp only [Vm.Shares, hmem x hx, hmem d hd]
      exact hlook

lemma mapPage_taken (h0 : ¬ s.pmm.Free 0) {drop : ℕ → Pmm → Pmm} {pa : ℕ}
    {ok : Bool} (h : mapPage reach drop d va pa flags s = (ok, s'))
    (hg : s.pmm.Free g) (hg' : ¬ s'.pmm.Free g) :
    Present (s'.mem d (va / 4096 / 1024)) ∧ entryFrame (s'.mem d (va / 4096 / 1024)) = g := by
  rcases mapPage_cases hs hd hr drop va pa flags with
    ⟨-, hzero, hmap⟩ | ⟨-, hmap⟩ | ⟨f, -, hf0, haddr, hf, hfree, hmap⟩
  · -- no frame is left
    rcases (pmmAllocPage_spec s.pmm).2 with ⟨-, -, hno⟩ | ⟨f, hf0, haddr, -⟩
    · exact absurd hg (hno.resolve_left h0 g)
    · omega
  · rw [hmap] at h
    cases h
    exact absurd hg hg'
  · rw [hmap] at h
    cases h
    have hgf : g = f := by
      by_contra hne
      exact hg' ((hfree g).mpr ⟨hg, hne⟩)
    subst hgf
    rw [← pageDirectoryIndex_eq, setWord_mem_frame _ _ (hs.free_ne_dir hf hd),
      installTable_mem_dir hs hf hd, if_pos ⟨rfl, rfl⟩]
    exact ⟨present_mkTableEntry g flags, entryFrame_mkTableEntry g flags⟩

end

section

variable {role' : ℕ → Role} {d : ℕ} {ok : Bool} (h : Mapped s s' k live role role' d v w ok)

include h

lemma Mapped.card_freeFrames : s.pmm.freeFrames.card ≤ s'.pmm.freeFrames.card + 1 := by
  rw [h.pmm]
  split_ifs
  · exact Nat.le_succ _
  · exact card_freeFrames_pmmAllocPage s.pmm

lemma Mapped.ok_of_free (h0 : ¬ s.pmm.Free 0) (hc : 0 < s.pmm.freeFrames.card) : ok = true :=
  h.ok_iff.mpr (.inr (pmmAllocPage_ne_zero h0 hc))

end

/-! ## Unmapping -/

lemma findEntry_eq (hr : Ready s live) (d va : ℕ) : findEntry d va s =
    if Present (s.lookup d (va / 4096)) then some (s.lookup d (va / 4096)) else none := by
  have hreach := hr.reachable s rfl rfl fun _ _ _ _ => rfl
  simp only [findEntry, hreach, and_true, pageDirectoryIndex_eq, pageTableIndex]
  by_cases hp : Present (s.mem d (va / 4096 / 1024))
  · simp [if_pos hp, lookup_of_present hp]
  · simp [hp, lookup_of_not_present hp]

/-- **`vmm_get_physical_addr`**, with reachable tables. -/
lemma vmmGetPhysicalAddr_eq (hr : Ready s live) (va : ℕ) : vmmGetPhysicalAddr va s =
    if Present (s.lookup (dirFrame s.active) (va / 4096)) then
      entryFrame (s.lookup (dirFrame s.active) (va / 4096)) * 4096 + va % 4096 else 0 := by
  rw [vmmGetPhysicalAddr, findEntry_eq hr]
  split_ifs
  · rfl
  · rfl

/-- Page `v` of `d` has been unmapped, where the page table is shared. -/
structure Cleared (s s' : Vm) (live : Set ℕ) (role : ℕ → Role) (d v : ℕ) : Prop where
  pmm : s'.pmm = s.pmm
  kernelDirectory : s'.kernelDirectory = s.kernelDirectory
  currentDirectory : s'.currentDirectory = s.currentDirectory
  dir : ∀ x ∈ live, s'.mem x = s.mem x
  data : ∀ g, (role g).IsData → s'.mem g = s.mem g
  lookup : ∀ x ∈ live, ∀ u, s'.lookup x u =
    if Present (s.lookup d v) ∧ u = v ∧ s.Shares x d (v / 1024) then 0 else s.lookup x u

/-- Unmapping clears the entry of one page, if it is present. -/
lemma clearEntry_spec (hs : Tables s k live role) {d : ℕ} (hd : d ∈ live) (hr : Ready s live)
    (va : ℕ) : ∃ s', Cleared s s' live role d (va / 4096) ∧
      clearEntry d va s = (if Present (s.lookup d (va / 4096)) then
        some (s.lookup d (va / 4096)) else none, s') := by
  rw [clearEntry, findEntry_eq hr]
  by_cases hp : Present (s.lookup d (va / 4096))
  · have hpd : Present (s.mem d (va / 4096 / 1024)) := present_of_lookup hp
    simp only [if_pos hp, pageDirectoryIndex_eq]
    refine ⟨s.setWord (entryFrame (s.mem d (va / 4096 / 1024))) (va / 4096 % 1024) 0,
      ⟨rfl, rfl, rfl, fun x hx => ?_, fun g hg => ?_, fun x hx u => ?_⟩, rfl⟩
    · exact setWord_mem_frame _ _ (hs.table_ne_dir hd hpd hx)
    · refine setWord_mem_frame _ _ ?_
      rintro rfl
      obtain ⟨o, ho⟩ := hs.table_index hd hpd
      rw [ho] at hg
      exact hg
    · rw [lookup_writeTable hs hd hpd 0 hx u]
      simp [hp]
  · simp only [if_neg hp]
    exact ⟨s, ⟨rfl, rfl, rfl, fun _ _ => rfl, fun _ _ => rfl, fun x _ u => by simp [hp]⟩, rfl⟩

lemma Cleared.grows {d : ℕ} (h : Cleared s s' live role d v) (hs : Sep s k live role) :
    Grows s s' k live role role := by
  have hfree : ∀ f, s'.pmm.Free f → s.pmm.Free f := by
    rw [h.pmm]
    exact fun _ hf => hf
  exact ⟨hs.congr hfree h.dir, fun _ _ => rfl, hfree, by rw [h.pmm], h.kernelDirectory,
    h.currentDirectory, fun x hx j _ => by rw [h.dir x hx], h.data⟩

/-! ## User pages -/

lemma Tables.shares_user_iff (hs : Tables s k live role) {d i : ℕ} (hd : d ∈ live) (hx : x ∈ live)
    (hi : ¬ KernelIndex i) (hp : Present (s.mem d i)) : s.Shares x d i ↔ x = d := by
  constructor
  · rintro ⟨hpx, hframe⟩
    exact (hs.table_user_inj hx hd hi hpx hp hframe).1
  · rintro rfl
    exact ⟨hp, rfl⟩

lemma Mapped.lookup_user {role' : ℕ → Role} {d : ℕ} {ok : Bool}
    (h : Mapped s s' k live role role' d v w ok) (hd : d ∈ live) (hv : ¬ KernelIndex (v / 1024))
    (hx : x ∈ live) (u : ℕ) :
    s'.lookup x u = if ok = true ∧ x = d ∧ u = v then w else s.lookup x u := by
  cases ok with
  | false =>
    rw [h.fail rfl]
    rfl
  | true =>
    rw [h.lookup rfl x hx u]
    refine if_congr ?_ rfl rfl
    rw [h.grows.sep.shares_user_iff hd hx hv (h.present rfl)]
    tauto

section

variable (hs : Sep s k live role) (hr : Ready s live) {p : ℕ} (hp : p ≠ 0) (hd : dirFrame p ∈ live)
    (hva : ¬ KernelIndex (va / 4096 / 1024))

include hs hr hp hd hva

/-- **`vmm_map_page_in_directory`** on a user page. -/
lemma vmmMapPageInDirectory_user (pa flags : ℕ) :
    ∃ ok s' role', vmmMapPageInDirectory p va pa flags s = (ok, s') ∧
      Mapped s s' k live role role' (dirFrame p) (va / 4096) (mkEntry pa flags) ok ∧
      ∀ x ∈ live, ∀ u, s'.lookup x u =
        if ok = true ∧ x = dirFrame p ∧ u = va / 4096 then mkEntry pa flags else s.lookup x u := by
  obtain ⟨ok, s', role', hmap, hm⟩ := mapPage_spec hs hd hr.reachable (fun _ m => m) va pa flags
  refine ⟨ok, s', role', ?_, hm, fun x hx u => hm.lookup_user hd hva hx u⟩
  rw [vmmMapPageInDirectory, if_neg hp, hmap]

/-- **`vmm_unmap_page_in_directory`** on a user page. -/
lemma vmmUnmapPageInDirectory_user : ∃ s', vmmUnmapPageInDirectory p va s =
        (decide (Present (s.lookup (dirFrame p) (va / 4096))), s') ∧
      Grows s s' k live role role ∧ s'.pmm = s.pmm ∧ (∀ x ∈ live, s'.mem x = s.mem x) ∧
      ∀ x ∈ live, ∀ u, s'.lookup x u =
        if Present (s.lookup (dirFrame p) (va / 4096)) ∧ x = dirFrame p ∧ u = va / 4096 then 0
        else s.lookup x u := by
  obtain ⟨s', hc, hclear⟩ := clearEntry_spec hs.toTables hd hr va
  refine ⟨s', ?_, hc.grows hs, hc.pmm, hc.dir, fun x hx u => ?_⟩
  · rw [vmmUnmapPageInDirectory, if_neg hp, hclear]
    by_cases h : Present (s.lookup (dirFrame p) (va / 4096))
    · simp [h]
    · simp [h]
  · rw [hc.lookup x hx u]
    refine if_congr (and_congr_right fun h => ?_) rfl rfl
    rw [hs.shares_user_iff hd hx hva (present_of_lookup h)]
    tauto

end

end Mapping

end FrostByte
