import FrostByte.Vmm.Fill

/-!
# The program break

`sys_brk` and `sys_sbrk` of `src/syscall.c`. The break is a byte address; pages are mapped and
unmapped between its old and its new value, both rounded up to a page. A growth that runs out of
frames returns with the pages mapped so far.

## Main definitions

* `Proc` — the fields of a process that the break depends on.
* `sysBrk`, `sysSbrk` — the two calls.
* `Grown`, `Shrunk` — what the loops have done to the directory.

## Main results

* `growHeap_spec` — growing maps pages until the frames run out.
* `shrinkHeap_spec` — shrinking unmaps them.
-/

namespace FrostByte

open Word

/-- `USER_HEAP_BASE`. -/
def userHeapBase : ℕ := 0x03000000

/-- A process: its page directory (`0` for none) and its heap. -/
structure Proc where
  pageDirectory : ℕ
  heapStart : ℕ
  heapEnd : ℕ

/-- The first call sets both ends. -/
def Proc.initHeap (p : Proc) : Proc :=
  if p.heapStart = 0 ∧ p.heapEnd = 0 then
    { p with heapStart := userHeapBase, heapEnd := userHeapBase }
  else p

/-- `page_align_up`, with its wrap. -/
def pageAlignUp (addr : ℕ) : ℕ := alignUp 4096 addr

/-- The growing loop of `sys_brk`: map `n` pages from `va` on. -/
def growHeap (dir : ℕ) : ℕ → ℕ → Vm → Bool × Vm
  | 0, _, s => (true, s)
  | n + 1, va, s =>
    let phys := (pmmAllocPage s.pmm).1
    let s := { s with pmm := (pmmAllocPage s.pmm).2 }
    if phys = 0 then (false, s)
    else
      match vmmMapPageInDirectory dir va phys (pagePresent ||| pageUser ||| pageWritable) s with
      | (false, s) => (false, s)
      | (true, s) =>
        growHeap dir n (va + 4096) (if s.canMapTemp then s.zeroFrame (phys / 4096) else s)

/-- The shrinking loop of `sys_brk`: unmap `n` pages from `va` on. -/
def shrinkHeap : ℕ → ℕ → Vm → Vm
  | 0, _, s => s
  | n + 1, va, s =>
    let phys := vmmGetPhysicalAddr va s
    shrinkHeap n (va + 4096)
      (if phys ≠ 0 then
        let s := (vmmUnmapPage va s).2
        { s with pmm := pmmFreePage phys s.pmm }
      else s)

/-- `sys_brk`: whether it returned `0` or `-1`. -/
def sysBrk (newEnd : ℕ) (p : Proc) (s : Vm) : Bool × Proc × Vm :=
  if p.pageDirectory = 0 then (false, p, s)
  else
    let p := p.initHeap
    if newEnd = 0 then (true, p, s)
    else
      let newEnd := if newEnd < p.heapStart then p.heapStart else newEnd
      let oldTop := pageAlignUp p.heapEnd
      let newTop := pageAlignUp newEnd
      let s := vmmSwitchDirectory p.pageDirectory s
      if oldTop < newTop then
        match growHeap p.pageDirectory ((newTop - oldTop) / 4096) oldTop s with
        | (false, s) => (false, p, s)
        | (true, s) => (true, { p with heapEnd := newEnd }, s)
      else if newTop < oldTop then
        (true, { p with heapEnd := newEnd }, shrinkHeap ((oldTop - newTop) / 4096) newTop s)
      else (true, { p with heapEnd := newEnd }, s)

/-- `sys_sbrk`: the address returned, or nothing for `-1`. -/
def sysSbrk (increment : ℤ) (p : Proc) (s : Vm) : Option ℕ × Proc × Vm :=
  if p.pageDirectory = 0 then (none, p, s)
  else
    let p := p.initHeap
    let oldEnd := p.heapEnd
    let newEnd := if 0 ≤ increment then w32 (p.heapEnd + increment.toNat)
      else sub32 p.heapEnd (-increment).toNat
    match sysBrk newEnd p s with
    | (true, p, s) => (some oldEnd, p, s)
    | (false, p, s) => (none, p, s)

variable {s : Vm} {k : ℕ} {live : Set ℕ} {role : ℕ → Role}

/-! ## Growing -/

/-- The page tables missing for the `n` pages from `v` on. -/
def missingTables (s : Vm) (d v n : ℕ) : ℕ :=
  (((Finset.Ico v (v + n)).image (· / 1024)).filter fun i => ¬ Present (s.mem d i)).card

lemma missingTables_le (s : Vm) (d v n : ℕ) : missingTables s d v n ≤ n := by
  refine (Finset.card_filter_le _ _).trans (Finset.card_image_le.trans ?_)
  simp

variable {d n v : ℕ} {s' : Vm}

lemma missingTables_succ (n : ℕ) (hp : Present (s'.mem d (v / 1024)))
    (hother : ∀ i, i ≠ v / 1024 → s'.mem d i = s.mem d i) : missingTables s d v (n + 1) =
      missingTables s' d (v + 1) n + if Present (s.mem d (v / 1024)) then 0 else 1 := by
  unfold missingTables
  have hico : Finset.Ico v (v + (n + 1)) = insert v (Finset.Ico (v + 1) (v + 1 + n)) := by
    ext u
    simp only [Finset.mem_Ico, Finset.mem_insert]
    omega
  have hrest : ((Finset.Ico (v + 1) (v + 1 + n)).image (· / 1024)).filter
      (fun i => ¬ Present (s'.mem d i)) =
      (((Finset.Ico (v + 1) (v + 1 + n)).image (· / 1024)).filter
        (fun i => ¬ Present (s.mem d i))).erase (v / 1024) := by
    ext i
    simp only [Finset.mem_filter, Finset.mem_erase]
    by_cases hi : i = v / 1024
    · subst hi
      simp [hp]
    · simp [hi, hother i hi]
  rw [hico, Finset.image_insert, Finset.filter_insert, hrest]
  by_cases hpv : Present (s.mem d (v / 1024))
  · have hnot : v / 1024 ∉ ((Finset.Ico (v + 1) (v + 1 + n)).image (· / 1024)).filter
        fun i => ¬ Present (s.mem d i) := by
      intro h
      exact (Finset.mem_filter.mp h).2 hpv
    rw [if_neg (not_not.mpr hpv), if_pos hpv, Finset.erase_eq_of_notMem hnot]
    rfl
  · rw [if_pos hpv, if_neg hpv]
    by_cases hmem : v / 1024 ∈ ((Finset.Ico (v + 1) (v + 1 + n)).image (· / 1024)).filter
        (fun i => ¬ Present (s.mem d i))
    · rw [Finset.insert_eq_of_mem hmem, Finset.card_erase_add_one hmem]
    · rw [Finset.card_insert_of_notMem hmem, Finset.erase_eq_of_notMem hmem]

/-- The `m` pages from `v` on have been mapped to fresh, cleared frames. -/
structure Grown (s s' : Vm) (k : ℕ) (live : Set ℕ) (role role' : ℕ → Role) (d v m : ℕ) :
    Prop where
  grows : Grows s s' k live role role'
  out : ∀ x ∈ live, ∀ u, ¬ (v ≤ u ∧ u < v + m) → s'.lookup x u = s.lookup x u
  other : ∀ x ∈ live, x ≠ d → ∀ u, ¬ KernelIndex (u / 1024) → s'.lookup x u = s.lookup x u
  mapped : ∀ u, v ≤ u → u < v + m → ∃ f, s.pmm.Free f ∧ s'.lookup d u = mkEntry (f * 4096) 7 ∧
    role' f = frameRole d u ∧ ∀ j, s'.mem f j = 0
  /-- A page takes two frames at most, and one more may be lost when the growth fails. -/
  card : s.pmm.freeFrames.card ≤ s'.pmm.freeFrames.card + 2 * m + 1

lemma Grown.refl (hs : Sep s k live role) (d v : ℕ) : Grown s s k live role role d v 0 :=
  ⟨Grows.refl hs, fun _ _ _ _ => rfl, fun _ _ _ _ _ => rfl, fun u h1 h2 => by omega, by omega⟩

lemma Grown.cons {s₁ : Vm} {role₁ role' : ℕ → Role} {m f : ℕ} (hd : d ∈ live)
    (h : Fresh s s₁ k live role role₁ d v f (mkEntry (f * 4096) 7)) (hzero : ∀ j, s₁.mem f j = 0)
    (hrest : Grown s₁ s' k live role₁ role' d (v + 1) m) :
    Grown s s' k live role role' d v (m + 1) := by
  refine ⟨h.grows.trans hrest.grows, fun x hx u hu => ?_, fun x hx hxd u hu => ?_, fun u h1 h2 =>
    ?_, ?_⟩
  · rw [hrest.out x hx u (by omega), h.lookup x hx u, if_neg]
    rintro ⟨rfl, -⟩
    exact hu ⟨le_rfl, by omega⟩
  · rw [hrest.other x hx hxd u hu, h.lookup x hx u, if_neg]
    rintro ⟨rfl, hshare⟩
    exact hxd ((h.grows.sep.shares_user_iff hd hx hu h.present).mp hshare)
  · rcases Nat.eq_or_lt_of_le h1 with rfl | hlt
    · have hdata := frameRole_isData d v
      rw [← h.frame] at hdata
      refine ⟨f, h.fresh, ?_, ?_, fun j => ?_⟩
      · rw [hrest.out d hd v (by omega), h.lookup d hd v, if_pos ⟨rfl, h.present, rfl⟩]
      · rw [hrest.grows.roles f hdata.ne_free, h.frame]
      · rw [hrest.grows.data f hdata, hzero j]
    · obtain ⟨g, hg, hrest'⟩ := hrest.mapped u hlt (by omega)
      exact ⟨g, h.grows.free g hg, hrest'⟩
  · have hfirst := h.card
    have hothers := hrest.card
    split_ifs at hfirst
    · omega
    · omega

/-- Growing maps `m` of the pages, all of them when there are frames for them and for the missing
tables. By induction on the pages that are left. -/
lemma growHeap_spec {p : ℕ} (hp : p ≠ 0) (hd : dirFrame p ∈ live) (n v : ℕ)
    (hs : Sep s k live role) (hr : Ready s live) (h0 : ¬ s.pmm.Free 0) :
    ∃ ok s' role' m, growHeap p n (v * 4096) s = (ok, s') ∧
      Grown s s' k live role role' (dirFrame p) v m ∧ (ok = true → m = n) ∧
      (ok = true ↔ n + missingTables s (dirFrame p) v n ≤ s.pmm.freeFrames.card) ∧
      (0 < m ↔ 0 < n ∧ (1 + if Present (s.mem (dirFrame p) (v / 1024)) then 0 else 1) ≤
        s.pmm.freeFrames.card) := by
  induction n generalizing s role v with
  | zero =>
    refine ⟨true, s, role, 0, rfl, Grown.refl hs _ v, fun _ => rfl, ?_, by simp⟩
    simp [missingTables]
  | succ n ih =>
    have hdiv : v * 4096 / 4096 = v := Nat.mul_div_cancel _ (by decide)
    have hcases := allocMap_cases hs hr h0 hp hd (v * 4096)
      (pagePresent ||| pageUser ||| pageWritable)
    rw [hdiv] at hcases
    rw [growHeap]
    rcases hcases with ⟨hcard, hzero, -⟩ | ⟨f, hf0, haddr, hf, ok, s1, role1, hmap, hfail, hok⟩
    · -- no frame for the page
      rw [if_pos hzero]
      refine ⟨false, _, role, 0, rfl, ⟨Grows.of_pmm hs (pmmAllocPage_free_le s.pmm)
        (pmmAllocPage_spec s.pmm).1, fun _ _ _ _ => rfl, fun _ _ _ _ _ => rfl,
        fun u h1 h2 => by omega, by omega⟩, by simp, ?_, ?_⟩
      · simp only [Bool.false_eq_true, false_iff]
        omega
      · omega
    rw [if_neg (by omega), haddr, hmap]
    cases ok with
    | false =>
      -- no frame for its page table
      obtain ⟨hcard, hpd, hgrow, hmem, -⟩ := hfail rfl
      refine ⟨false, s1, role1, 0, rfl, ⟨hgrow, fun _ _ _ _ => Vm.lookup_of_mem_eq hmem _ _,
        fun _ _ _ _ _ => Vm.lookup_of_mem_eq hmem _ _,
        fun u h1 h2 => by omega, by omega⟩, by simp, ?_, ?_⟩
      · simp only [Bool.false_eq_true, false_iff]
        have hmiss : v / 1024 ∈ ((Finset.Ico v (v + (n + 1))).image (· / 1024)).filter
            fun i => ¬ Present (s.mem (dirFrame p) i) :=
          Finset.mem_filter.mpr ⟨Finset.mem_image_of_mem _ (by simp), hpd⟩
        have := Finset.card_pos.mpr ⟨_, hmiss⟩
        unfold missingTables
        omega
      · rw [if_neg hpd]
        omega
    | true =>
      have hfresh := (hok rfl).zero hs hd
      have htemp : s1.canMapTemp = true := ((hok rfl).grows.ready hr).canMapTemp
      have hfdiv : f * 4096 / 4096 = f := Nat.mul_div_cancel _ (by decide)
      generalize hs2 : s1.zeroFrame f = s2 at hfresh
      obtain ⟨ok, s', role', m, hcall, hgrown, hall, hok', hsome⟩ := ih (v + 1) hfresh.grows.sep
        (hfresh.grows.ready hr) fun h => h0 (hfresh.grows.free 0 h)
      have hzero : ∀ j, s2.mem f j = 0 := fun j => by rw [← hs2, Vm.zeroFrame_mem_same]
      have hcard := hfresh.card
      have hmiss := missingTables_succ n hfresh.present fun i hi =>
        hfresh.pde _ hd i fun h => hi h.2
      refine ⟨ok, s', role', m + 1, ?_, Grown.cons hd hfresh hzero hgrown,
        fun h => by rw [hall h], ?_, ?_⟩
      · simp only [htemp, hfdiv, hs2]
        rw [Nat.succ_mul] at hcall
        exact hcall
      · rw [hok']
        omega
      · omega

/-! ## Shrinking -/

/-- Page `u` of `d` is mapped, and not to frame `0`. -/
def Unmaps (s : Vm) (d u : ℕ) : Prop :=
  Present (s.lookup d u) ∧ entryFrame (s.lookup d u) ≠ 0

instance (s : Vm) (d u : ℕ) : Decidable (Unmaps s d u) := inferInstanceAs (Decidable (_ ∧ _))

/-- The `n` pages from `v` on have been unmapped and their frames given back. -/
structure Shrunk (s s' : Vm) (live : Set ℕ) (role : ℕ → Role) (d v n : ℕ) : Prop where
  kernelDirectory : s'.kernelDirectory = s.kernelDirectory
  currentDirectory : s'.currentDirectory = s.currentDirectory
  dir : ∀ x ∈ live, s'.mem x = s.mem x
  data : ∀ g, (role g).IsData → s'.mem g = s.mem g
  free : ∀ g, s'.pmm.Free g → s.pmm.Free g ∨
    ∃ u, v ≤ u ∧ u < v + n ∧ Unmaps s d u ∧ g = entryFrame (s.lookup d u)
  lookup : ∀ x ∈ live, ∀ u, s'.lookup x u =
    if (v ≤ u ∧ u < v + n) ∧ Unmaps s d u ∧ s.Shares x d (u / 1024) then 0 else s.lookup x u

/-- **The shrinking loop** gives the frame of a page back twice. -/
lemma shrinkHeap_unmapped (ht : Tables s k live role) (hr : Ready s live) (n v : ℕ) :
    Unmapped s (shrinkHeap n (v * 4096) s) live role (dirFrame s.active) (Set.Ico v (v + n)) := by
  induction n generalizing s v with
  | zero =>
    rw [Nat.add_zero, Set.Ico_self]
    exact Unmapped.refl s live role _
  | succ n ih =>
    have hdiv : v * 4096 / 4096 = v := Nat.mul_div_cancel _ (by decide)
    have hmod : v * 4096 % 4096 = 0 := Nat.mul_mod_left _ _
    have hphys := vmmGetPhysicalAddr_eq hr (v * 4096)
    have hseen := vmmGetPhysicalAddr_page hr hmod
    have hone := unmapPage_spec ht hr hmod
    rw [hdiv] at hphys hseen hone
    have hset : {v} ∪ Set.Ico (v + 1) (v + 1 + n) = Set.Ico v (v + (n + 1)) := by
      ext u
      simp only [Set.mem_union, Set.mem_singleton_iff, Set.mem_Ico]
      omega
    rw [shrinkHeap, ← Nat.succ_mul, ← hset]
    split_ifs at hone ⊢ with hne
    · have hv := hseen.mp hne
      have hframe : vmmGetPhysicalAddr (v * 4096) s / 4096 = entryFrame
        (s.lookup (dirFrame s.active) v) := by
        simp [hphys, if_pos hv.1, hmod]
      have htwice := hone.freePage rfl hv hframe
      obtain ⟨hr1, hactive⟩ := htwice.ready hr
      have hrest := ih (ht.congr htwice.dir) hr1 (v + 1)
      rw [hactive] at hrest
      exact htwice.trans hr.mem hrest
    · exact hone.trans hr.mem (ih ht hr (v + 1))

/-- Shrinking unmaps the pages that are visible, one iteration after the other. -/
lemma shrinkHeap_spec (ht : Tables s k live role) (hr : Ready s live) (hd : dirFrame s.active = d)
    (n v : ℕ) : Shrunk s (shrinkHeap n (v * 4096) s) live role d v n := by
  have h := shrinkHeap_unmapped ht hr n v
  rw [hd] at h
  refine ⟨h.kernelDirectory, h.currentDirectory, h.dir, h.data, fun g hg => ?_, fun x hx u => ?_⟩
  · rcases h.free g hg with hg | ⟨u, hu, hv, hframe⟩
    · exact .inl hg
    · exact .inr ⟨u, hu.1, hu.2, hv, hframe⟩
  · split_ifs with hc
    · exact h.cleared x hx u hc.1 hc.2.1 hc.2.2
    · exact h.other x hx u hc

end FrostByte
