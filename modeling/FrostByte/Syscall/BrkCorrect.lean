import FrostByte.Lib.Run
import FrostByte.Syscall.Brk
import FrostByte.Vmm.Access

/-!
# One call that moves the program break

A call of `sys_brk` either maps the pages between the two rounded breaks, as far as there are
frames, or unmaps them. `sys_sbrk` is `sys_brk` of the sum. The calls run on the first process of a
machine with 256 MiB.

## Main definitions

* `HeapSpace` — what a call assumes of the directory of the process.
* `BrkState.call` — the two calls as one step on the process and on memory.

## Main results

* `sysBrk_cases` — what one call of `sys_brk` does, by the two rounded breaks.
* `machine256_process` — a new directory on the machine with 256 MiB meets the assumptions.
-/

namespace FrostByte

open Word

variable {s : Vm} {k : ℕ} {live : Set ℕ} {role : ℕ → Role} {p : Proc}

/-! ## One call -/

/-- The directory of the process is live and maps the scratch pages; frame `0` is never handed
out. -/
structure HeapSpace (p : Proc) (s : Vm) (k : ℕ) (live : Set ℕ) (role : ℕ → Role) : Prop where
  sep : Sep s k live role
  zero : role 0 = .reserved
  nonnull : p.pageDirectory ≠ 0
  live : dirFrame p.pageDirectory ∈ live
  scratch : Present (s.mem (dirFrame p.pageDirectory) 1)

/-- Requests below the start of the heap are raised to it. -/
def Proc.clampEnd (p : Proc) (newEnd : ℕ) : ℕ :=
  if newEnd < p.heapStart then p.heapStart else newEnd

/-- The number of the page at which the rounded address lies. -/
def topPage (addr : ℕ) : ℕ := pageAlignUp addr / 4096

lemma pageAlignUp_eq (addr : ℕ) : pageAlignUp addr = topPage addr * 4096 := by
  unfold topPage pageAlignUp alignUp alignDown
  omega

lemma Proc.initHeap_pageDirectory (p : Proc) : p.initHeap.pageDirectory = p.pageDirectory := by
  unfold Proc.initHeap
  split_ifs
  · rfl
  · rfl

lemma Proc.initHeap_new (h : p.heapStart = 0 ∧ p.heapEnd = 0) :
    p.initHeap.heapStart = userHeapBase ∧ p.initHeap.heapEnd = userHeapBase := by
  rw [Proc.initHeap, if_pos h]
  exact ⟨rfl, rfl⟩

namespace HeapSpace

lemma switched (h : HeapSpace p s k live role) :
    vmmSwitchDirectory p.pageDirectory s = { s with currentDirectory := p.pageDirectory } ∧
      Sep { s with currentDirectory := p.pageDirectory } k live role ∧
      Ready { s with currentDirectory := p.pageDirectory } live ∧
      ({ s with currentDirectory := p.pageDirectory } : Vm).active = p.pageDirectory := by
  have hactive : ({ s with currentDirectory := p.pageDirectory } : Vm).active =
    p.pageDirectory := by
    simp [Vm.active, h.nonnull]
  refine ⟨by rw [vmmSwitchDirectory, if_neg h.nonnull], h.sep.congr (fun _ hf => hf)
    fun _ _ => rfl, ⟨by rw [hactive]; exact h.nonnull, by rw [hactive]; exact h.live, ?_⟩, hactive⟩
  rw [hactive]
  exact h.scratch

lemma zero_not_free (h : HeapSpace p s k live role) : ¬ s.pmm.Free 0 := by
  intro hf
  have := h.sep.free 0 hf
  rw [h.zero] at this
  cases this

end HeapSpace

/-- **One call of `sys_brk`**, by the two rounded breaks. -/
lemma sysBrk_cases (h : HeapSpace p s k live role) {newEnd : ℕ} (hne : newEnd ≠ 0) :
    (topPage p.initHeap.heapEnd < topPage (p.initHeap.clampEnd newEnd) ∧
      ∃ ok s' role' m, sysBrk newEnd p s = (ok, if ok then
          { p.initHeap with heapEnd := p.initHeap.clampEnd newEnd } else p.initHeap, s') ∧
        Grown { s with currentDirectory := p.pageDirectory } s' k live role role'
          (dirFrame p.pageDirectory) (topPage p.initHeap.heapEnd) m ∧
        (ok = true → m = topPage (p.initHeap.clampEnd newEnd) - topPage p.initHeap.heapEnd) ∧
        (ok = true ↔ topPage (p.initHeap.clampEnd newEnd) - topPage p.initHeap.heapEnd +
          missingTables s (dirFrame p.pageDirectory) (topPage p.initHeap.heapEnd)
            (topPage (p.initHeap.clampEnd newEnd) - topPage p.initHeap.heapEnd) ≤
          s.pmm.freeFrames.card) ∧
        (0 < m ↔ (1 + if Present (s.mem (dirFrame p.pageDirectory)
          (topPage p.initHeap.heapEnd / 1024)) then 0 else 1) ≤ s.pmm.freeFrames.card)) ∨
    (topPage (p.initHeap.clampEnd newEnd) ≤ topPage p.initHeap.heapEnd ∧
      ∃ s', sysBrk newEnd p s =
          (true, { p.initHeap with heapEnd := p.initHeap.clampEnd newEnd }, s') ∧
        Shrunk { s with currentDirectory := p.pageDirectory } s' live role
          (dirFrame p.pageDirectory) (topPage (p.initHeap.clampEnd newEnd))
          (topPage p.initHeap.heapEnd - topPage (p.initHeap.clampEnd newEnd))) := by
  obtain ⟨hswitch, hsep, hready, hactive⟩ := h.switched
  have hold := pageAlignUp_eq p.initHeap.heapEnd
  have hnew := pageAlignUp_eq (p.initHeap.clampEnd newEnd)
  generalize hto : topPage p.initHeap.heapEnd = old at hold ⊢
  generalize htn : topPage (p.initHeap.clampEnd newEnd) = new at hnew ⊢
  have hcount : ∀ a b : ℕ, (a * 4096 - b * 4096) / 4096 = a - b := by
    intro a b
    omega
  obtain ⟨r, hr⟩ : ∃ r, r = growHeap p.pageDirectory (new - old) (old * 4096)
    { s with currentDirectory := p.pageDirectory } := ⟨_, rfl⟩
  have hcall : sysBrk newEnd p s = if old * 4096 < new * 4096 then
      (r.1, if r.1 then { p.initHeap with heapEnd := p.initHeap.clampEnd newEnd } else p.initHeap,
        r.2)
      else if new * 4096 < old * 4096 then
        (true, { p.initHeap with heapEnd := p.initHeap.clampEnd newEnd },
          shrinkHeap (old - new) (new * 4096) { s with currentDirectory := p.pageDirectory })
      else (true, { p.initHeap with heapEnd := p.initHeap.clampEnd newEnd },
        { s with currentDirectory := p.pageDirectory }) := by
    rw [← hcount new old, ← hold, ← hnew] at hr
    rw [← hcount old new, ← hold, ← hnew]
    simp only [sysBrk, if_neg h.nonnull, if_neg hne, Proc.initHeap_pageDirectory, hswitch]
    rw [Proc.clampEnd] at hr ⊢
    rw [← hr]
    rcases r with ⟨ok, s'⟩
    cases ok <;> rfl
  rw [hcall]
  rcases Nat.lt_or_ge old new with hlt | hge
  · left
    refine ⟨hlt, ?_⟩
    obtain ⟨ok, s', role', m, hgrow, hgrown, hall, hok, hsome⟩ := growHeap_spec h.nonnull h.live
      (new - old) old hsep hready h.zero_not_free
    refine ⟨ok, s', role', m, ?_, hgrown, hall, hok, ?_⟩
    · rw [if_pos (by omega), hr, hgrow]
    · rw [hsome]
      exact and_iff_right (by omega)
  · right
    refine ⟨hge, ?_⟩
    have hshrunk := shrinkHeap_spec hsep.toTables hready (by rw [hactive]) (old - new) new
    rcases Nat.eq_or_lt_of_le hge with heq | hlt
    · refine ⟨_, by rw [if_neg (by omega), if_neg (by omega)], ?_⟩
      rw [heq, Nat.sub_self] at hshrunk
      rw [heq, Nat.sub_self]
      exact hshrunk
    · exact ⟨_, by rw [if_neg (by omega), if_pos (by omega)], hshrunk⟩

/-! ## Runs -/

variable {e v : ℕ}

lemma Proc.initHeap_initHeap (p : Proc) : p.initHeap.initHeap = p.initHeap := by
  unfold Proc.initHeap
  split_ifs with h1 h2
  · exact absurd (show userHeapBase = 0 from h2.1) (by decide)
  · rfl
  · rfl

/-- **`sys_sbrk`** without a wrap is `sys_brk` of the sum. -/
lemma sysSbrk_eq (hd : p.pageDirectory ≠ 0) {n : ℤ} (he : (e : ℤ) = p.initHeap.heapEnd + n)
    (hlt : e < 0x100000000) (hold : p.initHeap.heapEnd < 0x100000000) (s : Vm) :
    sysSbrk n p s =
    (if (sysBrk e p s).1 then some p.initHeap.heapEnd else none, (sysBrk e p s).2) := by
  have hbrk : sysBrk e p.initHeap s = sysBrk e p s := by
    unfold sysBrk
    rw [p.initHeap_initHeap, p.initHeap_pageDirectory]
    rw [if_neg hd, if_neg hd]
  have harg : (if 0 ≤ n then w32 (p.initHeap.heapEnd + n.toNat)
      else sub32 p.initHeap.heapEnd (-n).toNat) = e := by
    split_ifs with hn
    · rw [w32_of_lt (by omega)]
      omega
    · rw [sub32_of_le (by omega) hold]
      omega
  rw [sysSbrk, if_neg hd]
  simp only [harg, hbrk]
  obtain ⟨ok, r⟩ := sysBrk e p s
  cases ok
  · rfl
  · rfl

/-- The process and the memory. -/
structure BrkState where
  proc : Proc
  vm : Vm

/-- The calls of a program that move the break. -/
inductive BrkOp
  | brk (newEnd : ℕ)
  | sbrk (increment : ℤ)

namespace BrkState

/-- The break; it is set on the first call. -/
def heapEnd (st : BrkState) : ℕ := st.proc.initHeap.heapEnd

/-- What a call returns, nothing standing for `-1`, and the state. -/
def call (st : BrkState) : BrkOp → Option ℕ × BrkState
  | .brk newEnd =>
    (if (sysBrk newEnd st.proc st.vm).1 then some 0 else none,
      ⟨(sysBrk newEnd st.proc st.vm).2.1, (sysBrk newEnd st.proc st.vm).2.2⟩)
  | .sbrk increment =>
    ((sysSbrk increment st.proc st.vm).1,
      ⟨(sysSbrk increment st.proc st.vm).2.1, (sysSbrk increment st.proc st.vm).2.2⟩)

/-- The break that a call asks for. -/
def requested (st : BrkState) : BrkOp → ℤ
  | .brk newEnd => newEnd
  | .sbrk increment => st.heapEnd + increment

end BrkState

/-- The process with the directory in frame `f`. -/
def newProc (f : ℕ) : Proc := ⟨physicalToVirtual (f * 4096), 0, 0⟩

/-- A new directory `f`: the pages below 8 MiB, no user pages, and the direct map of 256 MiB. -/
structure NewSpace (k f : ℕ) (s : Vm) (role : ℕ → Role) : Prop where
  space : HeapSpace (newProc f) s k {f, k} role
  dir : dirFrame (newProc f).pageDirectory = f
  tables : ∀ i, ¬ KernelIndex i → ¬ Present (s.mem f i)
  low : ∀ v < 0x800, s.lookup f v = mkEntry (v * 4096) 3
  high : ∀ v, 0xD0000 ≤ v → v < 0x100000 → s.lookup f v = 0
  card : 2 ≤ s.pmm.freeFrames.card
  ne : f ≠ k
  kernel : dirFrame s.kernelDirectory = k
  kernelNonnull : s.kernelDirectory ≠ 0
  kernelScratch : Present (s.mem k 1)
  kernelLow : Present (s.mem k 0)
  /-- The kernel's pages are closed to user mode. -/
  closed : ∀ v, s.lookup k v / 4 % 2 = 0
  /-- There are many frames left, all of them in the direct map of the first gigabyte. -/
  frames : 0x100 ≤ s.pmm.freeFrames.card ∧ ∀ g, s.pmm.Free g → g < 0x10000

lemma NewSpace.user {k f : ℕ} {s : Vm} {role : ℕ → Role} (h : NewSpace k f s role)
    (hv : ¬ KernelIndex (v / 1024)) : s.lookup f v = 0 := Vm.lookup_of_not_present (h.tables _ hv)

/-- On the machine with 256 MiB a directory can be created after `vmm_init`. -/
lemma machine256_process : ∃ (k f : ℕ) (s : Vm) (role : ℕ → Role), NewSpace k f s role := by
  obtain ⟨k, role, f, s', role', hb, -, hc, hf⟩ := machine256_create
  have hdir := dirFrame_physicalToVirtual (f := f) (by omega)
  have hgrows := hc.grows
  have hkf := hc.frame.ne_dir hgrows.sep hgrows.sep.kernel
  have hlow : ∀ v < 0x800, (newDirectory k f s').lookup f v = mkEntry (v * 4096) 3 := by
    intro v hv
    rw [hc.frame.lookup_new hgrows.sep v, if_pos ⟨.inl (by omega), by omega⟩,
      hc.lookup k rfl v, if_neg, hb.lookup v, bootEntry, if_pos hv]
    rintro ⟨hpage, -⟩
    rw [physicalToVirtual_page] at hpage
    omega
  have hpresent : ∀ i < 2, Present ((newDirectory k f s').mem k i) := by
    intro i hi
    have hp := (hb.present i).mpr (.inl hi)
    rw [newDirectory_mem_other k hkf, hgrows.pde k rfl i hp]
    exact hp
  refine ⟨k, f, newDirectory k f s', Function.update role' f .dir, ⟨hc.frame.sep hgrows.sep, ?_,
    physicalToVirtual_ne_zero (by omega), ?_, ?_⟩, hdir, fun i hi => ?_, hlow, fun v h1 h2 =>
    ?_, ?_,
    hkf.symm, ?_, ?_, hpresent 1 (by decide), hpresent 0 (by decide), fun v => ?_, ?_, fun g hg =>
    ?_⟩
  · have hzero : role 0 = .reserved := hb.roles 0 fun h => by
      have := (machine256_free 0).mp h
      omega
    rw [Function.update_of_ne (by omega), hgrows.roles 0 (by simp [hzero]), hzero]
  · show dirFrame (physicalToVirtual (f * 4096)) ∈ _
    rw [hdir]
    exact Set.mem_insert _ _
  · show Present ((newDirectory k f s').mem (dirFrame (physicalToVirtual (f * 4096))) 1)
    rw [hdir]
    have hpage : Present ((newDirectory k f s').lookup f 1024) := by
      rw [hlow 1024 (by omega)]
      decide
    exact present_of_lookup hpage
  · rw [newDirectory_mem_self hkf, if_neg fun h => hi h.1.1]
    exact not_present_zero
  · rw [hc.frame.lookup_new hgrows.sep v, if_pos ⟨.inr (by omega), by omega⟩, hc.lookup k rfl v,
      if_neg,
      hb.lookup v, bootEntry, if_neg (by omega), if_neg (by omega)]
    rintro ⟨hpage, -⟩
    rw [physicalToVirtual_page] at hpage
    omega
  · have hcard := machine256_card
    have hboot := hb.card
    have hcreate := hc.card
    show 2 ≤ s'.pmm.freeFrames.card
    omega
  · show dirFrame s'.kernelDirectory = k
    rw [hgrows.kernelDirectory, hb.kernelDirectory, dirFrame_physicalToVirtual hb.kernelLt]
  · show s'.kernelDirectory ≠ 0
    rw [hgrows.kernelDirectory]
    exact hb.nonnull
  · rw [hc.frame.lookup_old hgrows.sep rfl, hc.lookup k rfl v, hb.lookup v, bootEntry]
    have hclosed : ∀ f, mkEntry (f * 4096) 3 / 4 % 2 = 0 := by
      intro f
      rw [mkEntry_eq (by decide)]
      omega
    split_ifs
    · exact hclosed f
    · exact hclosed v
    · exact hclosed _
    · rfl
  · have hcard := machine256_card
    have hboot := hb.card
    have hcreate := hc.card
    show 0x100 ≤ s'.pmm.freeFrames.card
    omega
  · exact ((machine256_free g).mp (hb.free g (hgrows.free g hg))).2

lemma machine256_newProc : ∃ (k f : ℕ) (s : Vm) (role : ℕ → Role) (p : Proc), NewSpace k f s role ∧
    p = newProc f ∧ HeapSpace p s k {f, k} role ∧ dirFrame p.pageDirectory = f ∧
    p.heapStart = 0 ∧ p.heapEnd = 0 := by
  obtain ⟨k, f, s, role, hn⟩ := machine256_process
  exact ⟨k, f, s, role, _, hn, rfl, hn.space, hn.dir, rfl, rfl⟩

end FrostByte
