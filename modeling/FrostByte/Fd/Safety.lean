import FrostByte.Lib.Run
import FrostByte.Fd.Processes

/-!
# Reference counts over whole runs

Any interleaving of the descriptor and process calls, from the state after boot. The counts are
exact unless `sys_fork` loses a terminal, or `sys_creat`, `sys_socket` or `fd_pipe` closes a node
again after `fd_alloc` has failed and closed it.

## Main definitions

* `FdOp`, `FdState.call` — the calls, and the state after one.
* `fdCalls`, `fdClean` — all runs, and those without the three slips.
* `FdCorrect` — counts are numbers of descriptors, and nodes are closed once.

## Main results

* `fd_counts` — it holds along all clean runs.
* `fork_loses_terminal` — a fork after which a slot is never given back.
-/

namespace FrostByte

open Function RefCount FdState

/-- A call of a process, the start of a program, or the reaping of orphans. -/
inductive FdOp
  /-- `process_create` by the kernel process. -/
  | spawn (userMode memory tty : Bool)
  | openFile (c flags : ℕ) (opened : Bool)
  | creat (c : ℕ) (outcome : CreatOutcome)
  | pipe (c : ℕ) (m : PipeMemory) (writable copied : Bool)
  | socket (c : ℕ) (sock node : Bool)
  | dup (c : ℕ) (fd : ℤ)
  | dup2 (c : ℕ) (oldfd newfd : ℤ)
  | close (c : ℕ) (fd : ℤ)
  | fork (c : ℕ) (memory tty clone : Bool)
  | exit (c : ℕ)
  | wait (c : ℕ)
  | waitpid (c : ℕ) (pid : ℤ)
  /-- `process_reap_zombies` while `c` is current. -/
  | reap (c : ℕ)

/-- The state after a call, whatever the answer is. -/
def FdState.call (s : FdState) : FdOp → FdState
  | .spawn userMode memory tty => (processCreate 0 userMode memory tty s).2
  | .openFile c flags opened => (sysOpen c flags opened s).2
  | .creat c outcome => (sysCreat c outcome s).2
  | .pipe c m writable copied => (sysPipe c m writable copied s).2
  | .socket c sock node => (sysSocket c sock node s).2
  | .dup c fd => (fdDup c fd s).2
  | .dup2 c oldfd newfd => (fdDup2 c oldfd newfd s).2
  | .close c fd => fdClose c fd s
  | .fork c memory tty clone => (sysFork c memory tty clone s).2
  | .exit c => processExit c s
  | .wait c => (sysWait c s).2
  | .waitpid c pid => (sysWaitpid c pid s).2
  | .reap c => processReapZombies c s

/-- A process other than the kernel process that the scheduler may run. -/
def FdState.CanRun (s : FdState) (c : ℕ) : Prop :=
  1 ≤ c ∧ ((s.procs c).state = .runnable ∨ (s.procs c).state = .running)

/-- A call is made by a process that can run. -/
def FdOp.Enabled (s : FdState) : FdOp → Prop
  | .spawn _ _ _ | .reap _ => True
  | .openFile c _ _ | .creat c _ | .pipe c _ _ _ | .socket c _ _ | .dup c _ | .dup2 c _ _
  | .close c _ | .fork c _ _ _ | .exit c | .wait c | .waitpid c _ => s.CanRun c

/-- The calls that free a node after a failed `fd_alloc` have room. -/
def FdOp.HasRoom (s : FdState) : FdOp → Prop
  | .creat c outcome => outcome = .opened → Room s c 1
  | .pipe c m writable _ =>
    writable = true → m.pipe = true → m.readNode = true → m.writeNode = true → Room s c 2
  | .socket c sock node => sock = true → node = true → Room s c 1
  | _ => True

/-- A fork that succeeds finds no terminal, or no slot for it. -/
def FdOp.KeepsTerminal (s : FdState) : FdOp → Prop
  | .fork c memory tty clone => clone = false ∨ memory = false ∨ tty = false ∨
      freeSlots (processReapZombies c s) = 0
  | _ => True

/-- The calls of processes that can run, from boot on. -/
def fdCalls : System FdState FdOp where
  init s := s = FdState.boot
  guard s op := op.Enabled s
  step s op s' := s' = s.call op

/-- The calls that take no path on which the counts go wrong. -/
def fdClean : System FdState FdOp where
  init s := s = FdState.boot
  guard s op := op.Enabled s ∧ op.HasRoom s ∧ op.KeepsTerminal s
  step s op s' := s' = s.call op

/-- Counts, free slots and closed nodes agree with the tables. -/
structure FdCorrect (s : FdState) : Prop where
  /-- The count of a slot in use is the number of descriptors that hold it. -/
  count : ∀ i < maxOpenFiles, (s.files i).node ≠ none → (s.files i).refCount = s.holders i
  /-- A slot is free exactly when no descriptor holds it. -/
  free : ∀ i < maxOpenFiles, (s.files i).node = none ↔ s.holders i = 0
  /-- A node is closed at most once, and is open as long as its slot is held. -/
  closed : ∀ n < s.nextNode, s.closes n ≤ 1 ∧
    (s.closes n = 0 ↔ ∃ i < maxOpenFiles, (s.files i).node = some n ∧ 0 < s.holders i)

variable {s : FdState}

lemma FdState.CanRun.used {c : ℕ} (h : s.CanRun c) : (s.procs c).state ≠ .unused := by
  rcases h.2 with hr | hr
  · rw [hr]
    decide
  · rw [hr]
    decide

lemma FdInv.call {lost : ℕ → ℕ} (h : FdInv lost (fun _ => 0) ∅ s) {op : FdOp} (he : op.Enabled s)
    (hroom : op.HasRoom s) :
    ∃ lost', FdInv lost' (fun _ => 0) ∅ (s.call op) ∧ (op.KeepsTerminal s → lost' = lost) := by
  cases op with
  | spawn userMode memory tty =>
    exact ⟨lost, (h.processCreate h.kernel.1 userMode memory tty).1, fun _ => rfl⟩
  | openFile c flags opened => exact ⟨lost, h.sysOpen he.1 he.used flags opened, fun _ => rfl⟩
  | creat c outcome => exact ⟨lost, h.sysCreat he.1 he.used hroom, fun _ => rfl⟩
  | pipe c m writable copied => exact ⟨lost, h.sysPipe he.1 he.used hroom, fun _ => rfl⟩
  | socket c sock node => exact ⟨lost, h.sysSocket he.1 he.used hroom, fun _ => rfl⟩
  | dup c fd => exact ⟨lost, (h.fdDup he.1 he.used fd).1, fun _ => rfl⟩
  | dup2 c oldfd newfd => exact ⟨lost, (h.fdDup2 he.1 he.used oldfd newfd).1, fun _ => rfl⟩
  | close c fd => exact ⟨lost, (h.fdClose he.1 he.used fd).1, fun _ => rfl⟩
  | fork c memory tty clone => exact h.sysFork he.1 he.used memory tty clone
  | exit c => exact ⟨lost, h.processExit he.1 he.used, fun _ => rfl⟩
  | wait c => exact ⟨lost, h.reapChild c _, fun _ => rfl⟩
  | waitpid c pid => exact ⟨lost, h.reapChild c _, fun _ => rfl⟩
  | reap c => exact ⟨lost, (h.processReapZombies c).1, fun _ => rfl⟩

lemma FdInv.correct (h : FdInv (fun _ => 0) (fun _ => 0) ∅ s) : FdCorrect s := by
  have hrefs : ∀ i < maxOpenFiles, (s.files i).refs = s.holders i := fun i hi => h.refs i hi
  have hin : ∀ i < maxOpenFiles, (s.files i).node.isSome → 0 < s.holders i := by
    intro i hi hsome
    rw [← hrefs i hi]
    unfold OpenFile.refs
    rw [if_pos hsome]
    exact h.pos i hi hsome
  refine ⟨fun i hi hnode => ?_, fun i hi => ?_, fun n hn => ?_⟩
  · rw [← hrefs i hi]
    exact (if_pos (Option.isSome_iff_ne_none.mpr hnode)).symm
  · constructor
    · intro hnone
      rw [← hrefs i hi]
      unfold OpenFile.refs
      rw [hnone]
      rfl
    · intro h0
      by_contra hnode
      exact absurd (hin i hi (Option.isSome_iff_ne_none.mpr hnode)) (by omega)
  · have hcount := h.nodes n
    rw [if_pos hn, if_neg (Finset.notMem_empty n)] at hcount
    refine ⟨by omega, ?_⟩
    have hslot : s.closes n = 0 ↔ 0 < s.slots n := by omega
    rw [hslot]
    constructor
    · intro hpos
      obtain ⟨i, hi, hnode⟩ := (uses_pos_iff _).mp hpos
      have hi' := Finset.mem_range.mp hi
      refine ⟨i, hi', hnode, hin i hi' ?_⟩
      rw [hnode]
      rfl
    · rintro ⟨i, hi, hnode, -⟩
      exact (uses_pos_iff _).mpr ⟨i, Finset.mem_range.mpr hi, hnode⟩

/-- In every run in which no fork loses a terminal and no node is closed twice, counts are numbers
of descriptors, and a node is open as long as its slot is held and then closed once. -/
theorem fd_counts (h : fdClean.Reach s) : FdCorrect s := by
  have hinv : FdInv (fun _ => 0) (fun _ => 0) ∅ s := by
    apply System.Reach.invariant ?_ ?_ h
    · intro _ hboot
      rw [hboot]
      exact FdInv.boot
    · rintro s op _ hs ⟨he, hroom, hkeep⟩ rfl
      obtain ⟨lost', h', hlost⟩ := hs.call he hroom
      rwa [hlost hkeep] at h'
  exact hinv.correct

/-- The kernel starts one program on a terminal. -/
def FdState.started : FdState := FdState.boot.call (.spawn true true true)

lemma FdState.started_canRun : started.CanRun 1 := ⟨le_rfl, Or.inl (by decide +kernel)⟩

/-- A program and its child share one terminal in six descriptors. -/
theorem fd_counts_started : ∃ s, fdClean.Reach s ∧ (s.files 0).refCount = 6 ∧ FdCorrect s := by
  have h1 : fdClean.Reach started := by
    have hguard : fdClean.guard boot (.spawn true true true) :=
      ⟨trivial, trivial, trivial⟩
    exact .step (.init rfl) hguard rfl
  have h2 : fdClean.Reach (started.call (.fork 1 true false true)) := by
    have hguard : fdClean.guard started (.fork 1 true false true) :=
      ⟨started_canRun, trivial, Or.inr (Or.inr (Or.inl rfl))⟩
    exact .step h1 hguard rfl
  exact ⟨_, h2, by decide +kernel, fd_counts h2⟩

/-- One fork leaves a slot with three references and no holder. -/
theorem fork_loses_terminal : ∃ s, fdCalls.Reach s ∧ (s.files 1).node ≠ none ∧
    (s.files 1).refCount = 3 ∧ s.holders 1 = 0 := by
  have h1 : fdCalls.Reach started := by
    have hguard : fdCalls.guard boot (.spawn true true true) := trivial
    exact .step (.init rfl) hguard rfl
  have h2 : fdCalls.Reach (started.call (.fork 1 true true true)) := by
    have hguard : fdCalls.guard started (.fork 1 true true true) := started_canRun
    exact .step h1 hguard rfl
  have hused : ∀ p < 64, p = 0 ∨ p = 1 ∨ p = 2 ∨
      ((started.call (.fork 1 true true true)).procs p).state = .unused := by decide +kernel
  have hnone : ∀ fd < 16, (started.call (.fork 1 true true true)).held (1, fd) ≠ 1 ∧
      (started.call (.fork 1 true true true)).held (2, fd) ≠ 1 := by decide +kernel
  refine ⟨_, h2, by decide +kernel, by decide +kernel, ?_⟩
  apply (uses_eq_zero_iff _).mpr
  rintro ⟨p, fd⟩ hk
  obtain ⟨⟨hpos, hp⟩, hfd⟩ := mem_descriptors.mp hk
  rcases hused p hp with rfl | rfl | rfl | h
  · omega
  · exact (hnone fd hfd).1
  · exact (hnone fd hfd).2
  · unfold held Process.row
    rw [if_pos h]
    decide

end FrostByte
