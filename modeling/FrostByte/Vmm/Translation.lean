import FrostByte.Lib.Run
import FrostByte.Vmm.Directory

/-!
# Address spaces

After `vmm_init`, directories are created, and their user pages are mapped and unmapped with
whichever directory current. A page then has the entry that the last successful call for it gave it,
and user page tables are never shared.

## Main definitions

* `spacesSystem` — runs of creations, switches, mappings and unmappings.
* `SpacesCorrect` — each page has the entry of the last call for it.

## Main results

* `spacesInv_of_reach` — directories stay separated.
* `translation_eq_last` — translations are right in every run.
-/

namespace FrostByte

open Word

/-! ## Runs -/

/-- A call that gave page `page` of the directory `dir` a new entry. -/
structure MapEvent where
  dir : ℕ
  page : ℕ
  entry : ℕ

/-- The memory manager, the directories created, and the calls that succeeded, the last one
first. -/
structure Spaces where
  vm : Vm
  dirs : List ℕ
  log : List MapEvent

/-- The entry that the last successful call gave a page, or `0`. -/
def lastEntry : List MapEvent → ℕ → ℕ → ℕ
  | [], _, _ => 0
  | e :: log, p, v => if p = e.dir ∧ v = e.page then e.entry else lastEntry log p v

/-- The calls on directories. -/
inductive SpaceOp
  | create
  | map (p va pa flags : ℕ)
  | unmap (p va : ℕ)
  | switch (p : ℕ)

/-- The state after a call, with a log of the mappings. -/
def Spaces.call (st : Spaces) : SpaceOp → Spaces
  | .create =>
    let r := vmmCreateDirectory st.vm
    ⟨r.2, if r.1 = 0 then st.dirs else r.1 :: st.dirs, st.log⟩
  | .map p va pa flags =>
    let r := vmmMapPageInDirectory p va pa flags st.vm
    ⟨r.2, st.dirs, if r.1 then ⟨p, va / 4096, mkEntry pa flags⟩ :: st.log else st.log⟩
  | .unmap p va =>
    let r := vmmUnmapPageInDirectory p va st.vm
    ⟨r.2, st.dirs, if r.1 then ⟨p, va / 4096, 0⟩ :: st.log else st.log⟩
  | .switch p => ⟨vmmSwitchDirectory p st.vm, st.dirs, st.log⟩

/-- The call is made for one of the directories, on a page with index `2` to `767`. -/
def Spaces.Allowed (st : Spaces) : SpaceOp → Prop
  | .create => True
  | .map p va _ _ => p ∈ st.dirs ∧ ¬ KernelIndex (pageDirectoryIndex va)
  | .unmap p va => p ∈ st.dirs ∧ ¬ KernelIndex (pageDirectoryIndex va)
  | .switch p => p = st.vm.kernelDirectory ∨ p ∈ st.dirs

/-- The runs, from a successful `vmm_init` on. -/
def spacesSystem : System Spaces SpaceOp where
  init st := ∃ s : Vm, s.kernelDirectory = 0 ∧ (vmmInit s).kernelDirectory ≠ 0 ∧
    st = ⟨vmmInit s, [], []⟩
  guard := Spaces.Allowed
  step st op st' := st' = st.call op

/-! ## The invariant -/

/-- The invariant of the runs. The kernel directory `k` maps each directory pointer to its frame. -/
structure SpacesInv (st : Spaces) (k : ℕ) (live : Set ℕ) (role : ℕ → Role) : Prop where
  sep : Sep st.vm k live role
  kernel : dirFrame st.vm.kernelDirectory = k
  nonnull : st.vm.kernelDirectory ≠ 0
  active : st.vm.active ≠ 0 ∧ dirFrame st.vm.active ∈ live
  scratch : ∀ d ∈ live, Present (st.vm.mem d 1)
  dirs : ∀ p ∈ st.dirs, p ≠ 0 ∧ ∃ d ∈ live, d ≠ k ∧ d < 0x100000 ∧ p = physicalToVirtual (d * 4096)
  logged : ∀ e ∈ st.log, e.dir ∈ st.dirs
  entries : ∀ p ∈ st.dirs, ∀ v, ¬ KernelIndex (v / 1024) →
    st.vm.lookup (dirFrame p) v = lastEntry st.log p v
  pointers : ∀ p ∈ st.dirs, st.vm.lookup k (p / 4096) = mkEntry (dirFrame p * 4096) 3

lemma lastEntry_of_not_mem {log : List MapEvent} {p : ℕ} (h : ∀ e ∈ log, e.dir ≠ p) (v : ℕ) :
    lastEntry log p v = 0 := by
  induction log with
  | nil => rfl
  | cons e log ih =>
    rw [lastEntry, if_neg fun hp => h e List.mem_cons_self hp.1.symm]
    exact ih fun e he => h e (.tail _ he)

namespace SpacesInv

variable {st : Spaces} {k : ℕ} {live : Set ℕ} {role : ℕ → Role}

section

variable (hi : SpacesInv st k live role)

include hi

lemma ready : Ready st.vm live :=
  ⟨hi.active.1, hi.active.2, hi.scratch _ hi.active.2⟩

lemma frame {p : ℕ} (hp : p ∈ st.dirs) : dirFrame p ∈ live ∧ dirFrame p ≠ k := by
  obtain ⟨-, d, hd, hdk, hlt, hpd⟩ := hi.dirs p hp
  rw [hpd, dirFrame_physicalToVirtual hlt]
  exact ⟨hd, hdk⟩

lemma frame_inj {p q : ℕ} (hp : p ∈ st.dirs) (hq : q ∈ st.dirs) (h : dirFrame p = dirFrame q) :
    p = q := by
  obtain ⟨-, d, -, -, hdlt, hpd⟩ := hi.dirs p hp
  obtain ⟨-, e, -, -, helt, hqe⟩ := hi.dirs q hq
  rw [hpd, hqe, dirFrame_physicalToVirtual hdlt, dirFrame_physicalToVirtual helt] at h
  rw [hpd, hqe, h]

lemma of_write {p v w : ℕ} (hp : p ∈ st.dirs) (hv : ¬ KernelIndex (v / 1024)) {s' : Vm}
    {role' : ℕ → Role}
    (hg : Grows st.vm s' k live role role') {ok : Bool} (hlook : ∀ x ∈ live, ∀ u, s'.lookup x u =
      if ok = true ∧ x = dirFrame p ∧ u = v then w else st.vm.lookup x u) :
    SpacesInv ⟨s', st.dirs, if ok then ⟨p, v, w⟩ :: st.log else st.log⟩ k live role' := by
  have hready := hg.ready hi.ready
  refine ⟨hg.sep, ?_, ?_, ⟨hready.active, hready.mem⟩, fun d hd => ?_, hi.dirs, fun e he => ?_,
    fun q hq u hu => ?_, fun q hq => ?_⟩
  · rw [← hi.kernel, hg.kernelDirectory]
  · rw [hg.kernelDirectory]
    exact hi.nonnull
  · rw [hg.pde d hd 1 (hi.scratch d hd)]
    exact hi.scratch d hd
  · cases ok with
    | false => exact hi.logged e he
    | true =>
      rcases List.mem_cons.mp he with rfl | he
      · exact hp
      · exact hi.logged e he
  · rw [hlook _ (hi.frame hq).1 u, hi.entries q hq u hu]
    cases ok with
    | false => rfl
    | true =>
      refine if_congr ⟨?_, ?_⟩ rfl rfl
      · rintro ⟨-, hqp, rfl⟩
        exact ⟨hi.frame_inj hq hp hqp, rfl⟩
      · rintro ⟨rfl, rfl⟩
        exact ⟨rfl, rfl, rfl⟩
  · rw [hlook k hi.sep.kernel, if_neg fun h => (hi.frame hp).2 h.2.1.symm]
    exact hi.pointers q hq

lemma map {p va : ℕ} (pa flags : ℕ) (h : st.Allowed (.map p va pa flags)) :
    ∃ role', SpacesInv (st.call (.map p va pa flags)) k live role' := by
  obtain ⟨hp, hva⟩ := h
  rw [pageDirectoryIndex_eq] at hva
  obtain ⟨ok, s', role', hcall, hm, hlook⟩ := vmmMapPageInDirectory_user hi.sep hi.ready
    (hi.dirs p hp).1 (hi.frame hp).1 hva pa flags
  have hinv := hi.of_write hp hva hm.grows hlook
  rw [Spaces.call, hcall]
  exact ⟨role', hinv⟩

lemma unmap {p va : ℕ} (h : st.Allowed (.unmap p va)) :
    SpacesInv (st.call (.unmap p va)) k live role := by
  obtain ⟨hp, hva⟩ := h
  rw [pageDirectoryIndex_eq] at hva
  obtain ⟨s', hcall, hg, -, -, hlook⟩ := vmmUnmapPageInDirectory_user hi.sep hi.ready
    (hi.dirs p hp).1 (hi.frame hp).1 hva
  rw [Spaces.call, hcall]
  refine hi.of_write hp hva hg fun x hx u => ?_
  rw [hlook x hx u]
  simp

lemma create : ∃ live' role', SpacesInv (st.call .create) k live' role' := by
  rcases vmmCreateDirectory_cases hi.sep hi.kernel hi.nonnull
      (hi.scratch k hi.sep.kernel) with
    ⟨pmm, hcall, -, hfree, -⟩ | ⟨f, s', role', hcall, hc⟩
  · rw [Spaces.call, hcall]
    exact ⟨live, role, hi.sep.congr hfree fun _ _ => rfl, hi.kernel, hi.nonnull, hi.active,
      hi.scratch, hi.dirs, hi.logged, hi.entries, hi.pointers⟩
  have hlt : f < 0x100000 := hc.fresh.2.1
  have hsep := hc.grows.sep
  have hk := hsep.kernel
  have hkf : k ≠ f := hc.frame.ne_dir hsep hk
  have hold := fun {x : ℕ} (hx : x ∈ live) (u : ℕ) => hc.frame.lookup_old hsep hx u
  -- the directories created before are live, so the new one is none of them
  have hnew : ∀ q ∈ st.dirs, dirFrame q ≠ f := fun q hq => hc.frame.ne_dir hsep (hi.frame hq).1
  -- user pages of the old directories are not touched
  have huser : ∀ q ∈ st.dirs, ∀ v, ¬ KernelIndex (v / 1024) →
      s'.lookup (dirFrame q) v = st.vm.lookup (dirFrame q) v := by
    intro q hq v hv
    rw [hc.lookup _ (hi.frame hq).1 v, if_neg]
    rintro ⟨rfl, hshare⟩
    have := (hsep.shares_user_iff hk (hi.frame hq).1 hv hc.present).mp hshare
    exact (hi.frame hq).2 this
  have hpointer : ∀ q ∈ st.dirs, s'.lookup k (q / 4096) = mkEntry (dirFrame q * 4096) 3 := by
    intro q hq
    rw [hc.lookup k hk, if_neg]
    · exact hi.pointers q hq
    · rintro ⟨hpage, -⟩
      obtain ⟨-, d, -, -, hdlt, hqd⟩ := hi.dirs q hq
      have hqf := hnew q hq
      rw [hqd, dirFrame_physicalToVirtual hdlt] at hqf
      rw [hqd, physicalToVirtual_page, physicalToVirtual_page] at hpage
      omega
  have hmem : ∀ p ∈ (if physicalToVirtual (f * 4096) = 0 then st.dirs
      else physicalToVirtual (f * 4096) :: st.dirs),
      p ∈ st.dirs ∨ (p = physicalToVirtual (f * 4096) ∧ p ≠ 0) := by
    intro p hp
    by_cases h0 : physicalToVirtual (f * 4096) = 0
    · rw [if_pos h0] at hp
      exact .inl hp
    · rw [if_neg h0] at hp
      rcases List.mem_cons.mp hp with hp | hp
      · exact .inr ⟨hp, by rwa [hp]⟩
      · exact .inl hp
  rw [Spaces.call, hcall]
  have hscratch : ∀ d ∈ live, Present (s'.mem d 1) := by
    intro d hd
    rw [hc.grows.pde d hd 1 (hi.scratch d hd)]
    exact hi.scratch d hd
  have hready := hc.grows.ready hi.ready
  refine ⟨insert f live, _, hc.frame.sep hsep, ?_, ?_,
    ⟨hready.active, Set.mem_insert_of_mem _ hready.mem⟩, fun d hd => ?_, fun p hp => ?_,
    fun e he => ?_, fun p hp v hv => ?_, fun p hp => ?_⟩
  · rw [← hi.kernel, ← hc.grows.kernelDirectory]
    rfl
  · have := hi.nonnull
    rwa [← hc.grows.kernelDirectory] at this
  · rcases Set.mem_insert_iff.mp hd with rfl | hd
    · rw [newDirectory_mem_self hkf, if_pos ⟨⟨.inl (by decide), by decide⟩, hscratch k hk⟩]
      exact hscratch k hk
    · rw [newDirectory_mem_other k (hc.frame.ne_dir hsep hd)]
      exact hscratch d hd
  · rcases hmem p hp with hp | ⟨rfl, hp0⟩
    · obtain ⟨h0, d, hd, hrest⟩ := hi.dirs p hp
      exact ⟨h0, d, Set.mem_insert_of_mem _ hd, hrest⟩
    · exact ⟨hp0, f, Set.mem_insert _ _, hkf.symm, hlt, rfl⟩
  · split_ifs
    · exact hi.logged e he
    · exact .tail _ (hi.logged e he)
  · rcases hmem p hp with hp | ⟨rfl, -⟩
    · rw [hold (hi.frame hp).1, huser p hp v hv, hi.entries p hp v hv]
    · rw [dirFrame_physicalToVirtual hlt, hc.frame.lookup_new hsep, if_neg fun h => hv h.1,
        lastEntry_of_not_mem]
      rintro e he hef
      exact hnew _ (hi.logged e he) (by rw [hef, dirFrame_physicalToVirtual hlt])
  · rw [hold hk]
    rcases hmem p hp with hp | ⟨rfl, -⟩
    · exact hpointer p hp
    · rw [dirFrame_physicalToVirtual hlt, hc.lookup k hk, if_pos ⟨rfl, hc.present, rfl⟩]

lemma switch {p : ℕ} (h : st.Allowed (.switch p)) :
    SpacesInv (st.call (.switch p)) k live role := by
  have hp : p ≠ 0 ∧ dirFrame p ∈ live := by
    rcases h with rfl | hp
    · exact ⟨hi.nonnull, by rw [hi.kernel]; exact hi.sep.kernel⟩
    · exact ⟨(hi.dirs p hp).1, (hi.frame hp).1⟩
  have hactive : (vmmSwitchDirectory p st.vm).active = p := by
    simp [vmmSwitchDirectory, Vm.active, hp.1]
  have hcall : st.call (.switch p) = ⟨{ st.vm with currentDirectory := p }, st.dirs, st.log⟩ := by
    simp [Spaces.call, vmmSwitchDirectory, hp.1]
  rw [hcall]
  rw [vmmSwitchDirectory, if_neg hp.1] at hactive
  refine ⟨hi.sep.congr (fun _ h => h) fun _ _ => rfl, hi.kernel, hi.nonnull, ?_, hi.scratch,
    hi.dirs,
    hi.logged, hi.entries, hi.pointers⟩
  rw [hactive]
  exact hp

end

end SpacesInv

lemma spacesInv_init {st : Spaces} (h : spacesSystem.init st) :
    ∃ k live role, SpacesInv st k live role := by
  obtain ⟨s, h0, hok, rfl⟩ := h
  obtain ⟨k, role, hb⟩ := booted_vmmInit s h0 hok
  have hk : dirFrame (vmmInit s).kernelDirectory = k := by
    rw [hb.kernelDirectory, dirFrame_physicalToVirtual hb.kernelLt]
  have hactive : (vmmInit s).active = (vmmInit s).kernelDirectory := by
    rw [Vm.active, hb.currentDirectory, ← hb.kernelDirectory, if_pos hb.nonnull]
  refine ⟨k, {k}, role, hb.sep, hk, hb.nonnull, ⟨?_, ?_⟩, fun d hd =>
    ?_, by simp, by simp, by simp, by simp⟩
  · rw [hactive]
    exact hb.nonnull
  · rw [hactive, hk]
    rfl
  · obtain rfl := Set.mem_singleton_iff.mp hd
    exact (hb.present 1).mpr (.inl (by decide))

/-- Directories and tables stay separated along every run. -/
lemma spacesInv_of_reach {st : Spaces} (h : spacesSystem.Reach st) :
    ∃ k live role, SpacesInv st k live role := by
  refine h.invariant
    (fun st => spacesInv_init) fun st op st' hi hg hst => ?_
  obtain ⟨k, live, role, hi⟩ := hi
  obtain rfl : st' = st.call op := hst
  cases op with
  | create => exact ⟨k, hi.create⟩
  | map p va pa flags => exact ⟨k, live, hi.map pa flags hg⟩
  | unmap p va => exact ⟨k, live, role, hi.unmap hg⟩
  | switch p => exact ⟨k, live, role, hi.switch hg⟩

/-! ## Translations -/

/-- Each user page has the entry of the last successful call for it, a call changes nothing else,
user page tables are apart, and directory pointers mapped. -/
structure SpacesCorrect (st : Spaces) : Prop where
  entries : ∀ p ∈ st.dirs, ∀ v, ¬ KernelIndex (v / 1024) →
    st.vm.lookup (dirFrame p) v = lastEntry st.log p v
  map_frame : ∀ p va pa flags, st.Allowed (.map p va pa flags) →
    ∀ q, q = st.vm.kernelDirectory ∨ q ∈ st.dirs → ∀ v, ¬ (q = p ∧ v = va / 4096) →
      (vmmMapPageInDirectory p va pa flags st.vm).2.lookup (dirFrame q) v =
        st.vm.lookup (dirFrame q) v
  unmap_frame : ∀ p va, st.Allowed (.unmap p va) →
    ∀ q, q = st.vm.kernelDirectory ∨ q ∈ st.dirs → ∀ v, ¬ (q = p ∧ v = va / 4096) →
      (vmmUnmapPageInDirectory p va st.vm).2.lookup (dirFrame q) v = st.vm.lookup (dirFrame q) v
  tables : ∀ p ∈ st.dirs, ∀ q ∈ st.dirs, ∀ i j, ¬ KernelIndex i → ¬ KernelIndex j →
    Present (st.vm.mem (dirFrame p) i) → Present (st.vm.mem (dirFrame q) j) →
    entryFrame (st.vm.mem (dirFrame p) i) = entryFrame (st.vm.mem (dirFrame q) j) → p = q ∧ i = j
  pointers : ∀ p ∈ st.dirs, st.vm.lookup (dirFrame st.vm.kernelDirectory) (p / 4096) =
    mkEntry (dirFrame p * 4096) 3

lemma SpacesInv.eq_of_frame {st : Spaces} {k : ℕ} {live : Set ℕ} {role : ℕ → Role}
    (hi : SpacesInv st k live role) {p q : ℕ} (hp : p ∈ st.dirs)
    (hq : q = st.vm.kernelDirectory ∨ q ∈ st.dirs) :
    dirFrame q ∈ live ∧ (dirFrame q = dirFrame p → q = p) := by
  rcases hq with rfl | hq
  · rw [hi.kernel]
    exact ⟨hi.sep.kernel, fun h => absurd h.symm (hi.frame hp).2⟩
  · exact ⟨(hi.frame hq).1, hi.frame_inj hq hp⟩

/-- **Translations** are right in every run of creations, switches, mappings and unmappings. -/
theorem translation_eq_last {st : Spaces} (h : spacesSystem.Reach st) : SpacesCorrect st := by
  obtain ⟨k, live, role, hi⟩ := spacesInv_of_reach h
  refine ⟨hi.entries, fun p va pa flags ha q hq v hv => ?_, fun p va ha q hq v hv => ?_,
    fun p hp q hq i j hni hnj hpi hpj hframe => ?_, ?_⟩
  · obtain ⟨hp, hva⟩ := ha
    obtain ⟨hlive, hinj⟩ := hi.eq_of_frame hp hq
    rw [pageDirectoryIndex_eq] at hva
    obtain ⟨ok, s', role', hcall, -, hlook⟩ := vmmMapPageInDirectory_user hi.sep hi.ready
      (hi.dirs p hp).1 (hi.frame hp).1 hva pa flags
    rw [hcall, hlook _ hlive v, if_neg fun hw => hv ⟨hinj hw.2.1, hw.2.2⟩]
  · obtain ⟨hp, hva⟩ := ha
    obtain ⟨hlive, hinj⟩ := hi.eq_of_frame hp hq
    rw [pageDirectoryIndex_eq] at hva
    obtain ⟨s', hcall, -, -, -, hlook⟩ := vmmUnmapPageInDirectory_user hi.sep hi.ready
      (hi.dirs p hp).1 (hi.frame hp).1 hva
    rw [hcall, hlook _ hlive v, if_neg fun hw => hv ⟨hinj hw.2.1, hw.2.2⟩]
  · obtain ⟨hpq, hij⟩ := hi.sep.table_user_inj (hi.frame hp).1 (hi.frame hq).1 hni hpi hpj hframe
    exact ⟨hi.frame_inj hp hq hpq, hij⟩
  · rw [hi.kernel]
    exact hi.pointers

/-- On the machine with 256 MiB a directory is created, and one of its pages is mapped. -/
theorem translation_eq_last_machine256 : ∃ (st : Spaces) (p : ℕ), spacesSystem.Reach st ∧
    st.dirs = [p] ∧ st.log = [⟨p, 0x10000, mkEntry 0x500000 7⟩] ∧
    st.vm.lookup (dirFrame p) 0x10000 = mkEntry 0x500000 7 ∧ SpacesCorrect st := by
  have hinit : spacesSystem.init ⟨vmmInit machine256, [], []⟩ := ⟨_, rfl, machine256_init, rfl⟩
  have hguard : spacesSystem.guard ⟨vmmInit machine256, [], []⟩ .create := trivial
  obtain ⟨k, role, f, s', role', hb, hcreate, hc, hf⟩ := machine256_create
  have hne : physicalToVirtual (f * 4096) ≠ 0 := physicalToVirtual_ne_zero (by omega)
  have hcall : Spaces.call ⟨vmmInit machine256, [], []⟩ .create =
      ⟨newDirectory k f s', [physicalToVirtual (f * 4096)], []⟩ := by
    rw [Spaces.call, hcreate]
    simp only [if_neg hne]
  have hnew := System.Reach.step (.init hinit) hguard hcall.symm
  obtain ⟨_, live, role, hi⟩ := spacesInv_of_reach hnew
  have huser : ¬ KernelIndex (0x10000000 / 4096 / 1024) := by decide
  obtain ⟨ok, s'', role'', hmap, hm, hlook⟩ := vmmMapPageInDirectory_user hi.sep hi.ready hne
    (hi.frame (List.mem_singleton_self _)).1 huser 0x500000 7
  -- the frames that the creation left serve as the page table
  have hzero : ¬ (newDirectory k f s').pmm.Free 0 := fun h => by
    have := (machine256_free 0).mp (hb.free 0 (hc.grows.free 0 h))
    omega
  have hleft : 0 < (newDirectory k f s').pmm.freeFrames.card := by
    have hcard := machine256_card
    have hboot := hb.card
    have hused := hc.card
    show 0 < s'.pmm.freeFrames.card
    omega
  obtain rfl := hm.ok_of_free hzero hleft
  have hallowed : spacesSystem.guard ⟨newDirectory k f s', [physicalToVirtual (f * 4096)], []⟩
      (.map (physicalToVirtual (f * 4096)) 0x10000000 0x500000 7) :=
    ⟨List.mem_singleton_self _, by decide⟩
  have hreach := hnew.step hallowed rfl
  refine ⟨_, _, hreach, rfl, ?_, ?_, translation_eq_last hreach⟩
  · rw [Spaces.call, hmap]
    rfl
  · rw [Spaces.call, hmap, hlook _ (hi.frame (List.mem_singleton_self _)).1, if_pos ⟨rfl, rfl, rfl⟩]

end FrostByte
