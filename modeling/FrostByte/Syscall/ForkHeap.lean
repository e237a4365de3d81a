import FrostByte.Syscall.Fork

/-!
# The heap of a child

`sys_fork` copies the pages of the heap, but the record of the child is the one that
`process_create` has set up. The break of the child is the parent's exactly when the parent's heap
is empty.

## Main definitions

* `heapRuns` — runs of `sys_brk` and `sys_sbrk`.
* `HeapInherited` — the child has the break and the pages of its parent.

## Main results

* `heapBounds_of_reach` — the break stays above the start of the heap.
* `sysFork_heapInherited_iff` — when a child inherits the heap.
* `sysFork_loses_break` — a child whose break is lost.
-/

namespace FrostByte

open Word

variable {s s' : Vm} {p child : Proc}

/-! ## Runs -/

/-- Unsigned arguments for `sys_brk`, signed ones for `sys_sbrk`. -/
def BrkOp.Fits : BrkOp → Prop
  | .brk newEnd => newEnd < 0x100000000
  | .sbrk increment => -0x80000000 ≤ increment ∧ increment < 0x80000000

/-- The calls that move the break, with any memory at each call. -/
def heapRuns : System Proc (BrkOp × Vm) where
  init p := p.heapStart = 0 ∧ p.heapEnd = 0 ∨ p.heapStart = userHeapBase ∧ p.heapEnd = userHeapBase
  guard _ c := c.1.Fits
  step p c p' := p' = (BrkState.call ⟨p, c.2⟩ c.1).2.proc

/-- The runs from `st₀` whose calls move the break up. -/
def growthRuns (st₀ : BrkState) : System BrkState BrkOp where
  init st := st = st₀
  guard st op := op.Fits ∧ st.heapEnd ≤ st.requested op ∧ st.requested op ≤ 0xC0000000
  step st op st' := st' = (st.call op).2

/-- The heap of `p` starts at the base and its end is a 32-bit address. -/
structure Proc.HeapBounds (p : Proc) : Prop where
  start : p.initHeap.heapStart = userHeapBase
  le : userHeapBase ≤ p.initHeap.heapEnd
  lt : p.initHeap.heapEnd < 0x100000000

lemma Proc.HeapBounds.initHeap (h : p.HeapBounds) : p.initHeap.HeapBounds := by
  refine ⟨?_, ?_, ?_⟩
  · rw [p.initHeap_initHeap]
    exact h.start
  · rw [p.initHeap_initHeap]
    exact h.le
  · rw [p.initHeap_initHeap]
    exact h.lt

lemma Proc.HeapBounds.moved (h : p.HeapBounds) {newEnd : ℕ} (hlt : newEnd < 0x100000000) :
    ({ p.initHeap with heapEnd := p.initHeap.clampEnd newEnd } : Proc).HeapBounds := by
  have hstart := h.start
  have hbase : userHeapBase ≤ p.initHeap.clampEnd newEnd ∧
    p.initHeap.clampEnd newEnd < 0x100000000 := by
    unfold Proc.clampEnd
    rw [hstart]
    unfold userHeapBase
    split_ifs
    · omega
    · omega
  have hsame : ({ p.initHeap with heapEnd := p.initHeap.clampEnd newEnd } : Proc).initHeap =
      { p.initHeap with heapEnd := p.initHeap.clampEnd newEnd } := by
    refine if_neg fun hz => ?_
    have hzero : p.initHeap.heapStart = 0 := hz.1
    rw [hstart] at hzero
    cases hzero
  refine ⟨?_, ?_, ?_⟩
  · rw [hsame]
    exact hstart
  · rw [hsame]
    exact hbase.1
  · rw [hsame]
    exact hbase.2

lemma Proc.HeapBounds.sysBrk (h : p.HeapBounds) {newEnd : ℕ} (hlt : newEnd < 0x100000000) (s : Vm) :
    (FrostByte.sysBrk newEnd p s).2.1.HeapBounds := by
  have hmoved := h.moved hlt
  have hinit := h.initHeap
  unfold FrostByte.sysBrk
  dsimp only
  rw [← Proc.clampEnd]
  split_ifs
  · exact h
  · exact hinit
  · split
    · exact hinit
    · exact hmoved
  · exact hmoved
  · exact hmoved

/-- **One call** of `sys_sbrk`: the sum and the difference wrap. -/
lemma Proc.HeapBounds.sysSbrk (h : p.HeapBounds) (increment : ℤ) (s : Vm) :
    (FrostByte.sysSbrk increment p s).2.1.HeapBounds := by
  unfold FrostByte.sysSbrk
  dsimp only
  by_cases hd : p.pageDirectory = 0
  · rw [if_pos hd]
    exact h
  rw [if_neg hd]
  generalize hend : (if 0 ≤ increment then w32 (p.initHeap.heapEnd + increment.toNat)
    else sub32 p.initHeap.heapEnd (-increment).toNat) = newEnd
  have hlt : newEnd < 0x100000000 := by
    rw [← hend]
    split_ifs
    · exact w32_lt _
    · exact w32_lt _
  have hbrk := h.initHeap.sysBrk hlt s
  generalize FrostByte.sysBrk newEnd p.initHeap s = r at hbrk
  obtain ⟨ok, q, t⟩ := r
  cases ok with
  | false => exact hbrk
  | true => exact hbrk

/-- The break is a 32-bit word above the start of the heap, as each call keeps it. -/
lemma heapBounds_of_reach (h : heapRuns.Reach p) : p.HeapBounds := by
  refine h.invariant (fun p hinit => ?_) fun p c p' hb hfit hstep => ?_
  · have hnew : p.initHeap.heapStart = userHeapBase ∧ p.initHeap.heapEnd = userHeapBase := by
      rcases hinit with hzero | ⟨hs, he⟩
      · exact Proc.initHeap_new hzero
      · rw [Proc.initHeap, if_neg fun hz => absurd (hs.symm.trans hz.1) (by decide)]
        exact ⟨hs, he⟩
    refine ⟨hnew.1, hnew.2.ge, ?_⟩
    rw [hnew.2]
    decide
  · obtain ⟨op, t⟩ := c
    obtain rfl : p' = _ := hstep
    cases op with
    | brk newEnd => exact hb.sysBrk hfit t
    | sbrk increment => exact hb.sysSbrk increment t

/-- **`sbrk(0)`** returns the break. -/
lemma Proc.HeapBounds.sbrk_zero (h : p.HeapBounds) (hd : p.pageDirectory ≠ 0) (s : Vm) :
    (FrostByte.sysSbrk 0 p s).1 = some p.initHeap.heapEnd := by
  have hle := h.le
  have hne : p.initHeap.heapEnd ≠ 0 := by
    unfold userHeapBase at hle
    omega
  have hclamp : ¬ p.initHeap.heapEnd < p.initHeap.heapStart := by
    rw [h.start]
    omega
  have hbrk : (FrostByte.sysBrk p.initHeap.heapEnd p s).1 = true := by
    unfold FrostByte.sysBrk
    rw [if_neg hd]
    rw [if_neg hne, if_neg hclamp, if_neg (lt_irrefl _), if_neg (lt_irrefl _)]
  rw [sysSbrk_eq hd (n := 0) (by omega) h.lt h.lt, hbrk]
  rfl

/-! ## The child -/

lemma sysFork_heap {kmalloc : ℕ → Vm → Bool × Vm}
    (hcall : Vm.sysFork kmalloc p s = (some child, s')) :
    p.pageDirectory ≠ 0 ∧ child.pageDirectory ≠ 0 ∧
      child.heapStart = userHeapBase ∧ child.heapEnd = userHeapBase := by
  unfold Vm.sysFork at hcall
  split at hcall
  · cases hcall
  · rename_i ch s₁ hcreate
    split at hcall
    · cases hcall
    · rename_i s₂ hclone
      obtain ⟨hch, -⟩ := Prod.mk.inj hcall
      obtain rfl := Option.some.inj hch
      have hptr : ¬ (p.pageDirectory = 0 ∨ ch.pageDirectory = 0) := by
        intro hz
        rw [cloneUserSpace, if_pos hz] at hclone
        cases hclone
      refine ⟨fun hz => hptr (.inl hz), fun hz => hptr (.inr hz), processCreate_heap hcreate⟩

/-- A page of the heap that is mapped. -/
def Proc.HeapPage (p : Proc) (s : Vm) (u : ℕ) : Prop :=
  userHeapBase ≤ u * 4096 ∧ u * 4096 < p.initHeap.heapEnd ∧
    Present (s.lookup (dirFrame p.pageDirectory) u)

/-- The child has the heap of `p`; `s` and `s'` are memory before and after the fork. -/
structure HeapInherited (p : Proc) (s : Vm) (child : Proc) (s' : Vm) : Prop where
  sbrk : (sysSbrk 0 child s').1 = (sysSbrk 0 p s').1
  /-- The heap pages of the parent keep their contents while the child's heap grows, in the child
  and in the parent. -/
  contents : ∀ st, (growthRuns ⟨child, s'⟩).Reach st → ∀ u, p.HeapPage s u →
    ∀ d, d = dirFrame child.pageDirectory ∨ d = dirFrame p.pageDirectory →
      st.vm.mem (entryFrame (st.vm.lookup d u)) =
        s.mem (entryFrame (s.lookup (dirFrame p.pageDirectory) u))

/-- **The heap of a child** is the parent's exactly when that is empty. -/
theorem sysFork_heapInherited_iff (hrun : heapRuns.Reach p) {kmalloc : ℕ → Vm → Bool × Vm}
    (hcall : Vm.sysFork kmalloc p s = (some child, s')) :
    HeapInherited p s child s' ↔ p.initHeap.heapEnd = userHeapBase := by
  obtain ⟨hd, hdc, hstart, hend⟩ := sysFork_heap hcall
  have hchild : child.HeapBounds := heapBounds_of_reach (.init (.inr ⟨hstart, hend⟩))
  have hbreak : child.initHeap.heapEnd = userHeapBase := by
    rw [Proc.initHeap, if_neg fun hz => absurd (hstart.symm.trans hz.1) (by decide)]
    exact hend
  have hp := heapBounds_of_reach hrun
  constructor
  · intro h
    have hsbrk := h.sbrk
    rw [hchild.sbrk_zero hdc, hp.sbrk_zero hd, hbreak] at hsbrk
    exact (Option.some.inj hsbrk).symm
  · intro hempty
    refine ⟨?_, fun st _ u hu => ?_⟩
    · rw [hchild.sbrk_zero hdc, hp.sbrk_zero hd, hbreak, hempty]
    · obtain ⟨hlow, hhigh, -⟩ := hu
      omega

/-- A new process has an empty heap. -/
theorem sysFork_heapInherited_machine256 : ∃ (p child : Proc) (s s' : Vm), heapRuns.Reach p ∧
    Vm.sysFork (fun _ s => (true, s)) p s = (some child, s') ∧ HeapInherited p s child s' := by
  obtain ⟨k, f, s, s', role, p, child, -, -, hnew, -, hcall⟩ := machine256_fork
  have hrun : heapRuns.Reach p := .init (.inl hnew)
  exact ⟨p, child, s, s', hrun, hcall, (sysFork_heapInherited_iff hrun hcall).mpr
    (Proc.initHeap_new hnew).2⟩

/-- A new process calls `sbrk(1)` and forks. The break of the child is at the start of the heap. -/
theorem sysFork_loses_break : ∃ (p₀ p child : Proc) (s₀ s s' : Vm) (k f : ℕ) (role : ℕ → Role),
    heapRuns.init p₀ ∧ BrkState.call ⟨p₀, s₀⟩ (.sbrk 1) = (some userHeapBase, ⟨p, s⟩) ∧
    heapRuns.Reach p ∧ ForkParent p s k {f, k} role ∧
    Vm.sysFork (fun _ s => (true, s)) p s = (some child, s') ∧
    (sysSbrk 0 p s').1 = some (userHeapBase + 1) ∧ (sysSbrk 0 child s').1 = some userHeapBase := by
  obtain ⟨k, f, s, role, p, hn, hp, hspace, hdir, hnew⟩ := machine256_newProc
  obtain ⟨hstart, hend⟩ := Proc.initHeap_new hnew
  have hclamp : p.initHeap.clampEnd (userHeapBase + 1) = userHeapBase + 1 := by
    rw [Proc.clampEnd, hstart]
    decide
  have htop : topPage userHeapBase = 0x3000 ∧ topPage (userHeapBase + 1) = 0x3001 := by decide
  have hcases := sysBrk_cases hspace (show userHeapBase + 1 ≠ 0 by decide)
  rw [hend, hclamp, htop.1, htop.2, hdir] at hcases
  have hcard := hn.card
  obtain ⟨-, ok, s₁, role₁, m, hcall, hgrown, hm, hok, -⟩ | ⟨hlt, -⟩ := hcases
  · have htables := missingTables_le s f 0x3000 (0x3001 - 0x3000)
    obtain rfl : ok = true := hok.mpr (by omega)
    obtain rfl := hm rfl
    generalize hq : { p.initHeap with heapEnd := userHeapBase + 1 } = q
    obtain ⟨t, ht⟩ : ∃ t : Vm, t = { s with currentDirectory := p.pageDirectory } := ⟨_, rfl⟩
    rw [hq] at hcall
    rw [← ht] at hgrown
    have hptr : q.pageDirectory = p.pageDirectory := by
      rw [← hq]
      exact p.initHeap_pageDirectory
    have hnewptr : q.pageDirectory = (newProc f).pageDirectory := by rw [hptr, hp]
    rw [← hptr] at ht
    obtain ⟨child, s₂, hfork⟩ := hn.sysFork_succeeds hnewptr ht hgrown (by decide)
    have hsbrk : BrkState.call ⟨p, s⟩ (.sbrk 1) = (some userHeapBase, ⟨q, s₁⟩) := by
      have heq := sysSbrk_eq hspace.nonnull (n := 1) (by rw [hend]; rfl)
        (by decide) (by rw [hend]; decide) s
      rw [hcall, hend] at heq
      rw [BrkState.call, heq]
      rfl
    have hrun : heapRuns.Reach q := by
      refine .step (.init (.inl hnew)) (a := (.sbrk 1, s)) ⟨by decide, by decide⟩ ?_
      show q = _
      rw [hsbrk]
    have hbreak : q.initHeap.heapEnd = userHeapBase + 1 := by
      rw [Proc.initHeap, if_neg fun hz => ?_, ← hq]
      have hzero := hz.2
      rw [← hq] at hzero
      exact absurd (show userHeapBase + 1 = 0 from hzero) (by decide)
    obtain ⟨hd, hdc, hcs, hce⟩ := sysFork_heap hfork
    have hchild : child.HeapBounds := heapBounds_of_reach (.init (.inr ⟨hcs, hce⟩))
    refine ⟨p, q, child, s, s₁, s₂, k, f, role₁, .inl hnew, hsbrk, hrun,
      hn.forkParent hnewptr ht hgrown,
      hfork, ?_, ?_⟩
    · rw [(heapBounds_of_reach hrun).sbrk_zero hd, hbreak]
    · rw [hchild.sbrk_zero hdc, Proc.initHeap, if_neg fun hz =>
        absurd (hcs.symm.trans hz.1) (by decide), hce]
  · omega

end FrostByte
