import FrostByte.Fd.Io
import FrostByte.Fd.Safety

/-!
# End of file on pipes

The table of a process that has exited keeps its descriptors until the process is reaped. So
`sys_read` on an empty pipe returns 0 exactly when neither a live process nor a zombie holds the
write end; when a zombie is the last holder the reader waits, although nobody can write.

## Main definitions

* `IoOp`, `ioCalls` — descriptor calls, reads and writes in any order.
* `LiveWriter`, `ExitedWriter` — who holds the write end of a pipe.

## Main results

* `FdInv.of_reach` — every run keeps the invariant.
* `pipe_eof` — when a read of an empty pipe returns 0.
* `exited_writer_blocks` — a reader that waits for nobody.
-/

namespace FrostByte

open Function RefCount FdState

variable {W : Type*} {lost : ℕ → ℕ} {s : FdState} {c i n id : ℕ}

/-! ## Reads and writes keep the invariant -/

lemma waitQueueWakeOne_nil {q : ℕ × PipeEnd} (h : s.queues q = []) : waitQueueWakeOne q s = s := by
  unfold waitQueueWakeOne
  rw [h]

lemma waitQueueWakeOne_cons {q : ℕ × PipeEnd} {p : ℕ} {rest : List ℕ} (h : s.queues q = p :: rest) :
    waitQueueWakeOne q s = { s with
      queues := update s.queues q rest
      procs := update s.procs p (s.procs p).wake } := by
  unfold waitQueueWakeOne
  rw [h]

lemma FdInv.wakeOne (h : FdInv lost (fun _ => 0) ∅ s) (q : ℕ × PipeEnd) :
    FdInv lost (fun _ => 0) ∅ (waitQueueWakeOne q s) := by
  cases hq : s.queues q with
  | nil =>
    rw [waitQueueWakeOne_nil hq]
    exact h
  | cons p rest =>
    rw [waitQueueWakeOne_cons hq]
    have hnd := h.nodup q
    rw [hq, List.nodup_cons] at hnd
    refine ⟨h.toCounted.congr rfl (held_setProc fun fd _ => by rw [Process.row_wake]) rfl rfl rfl,
      h.toPiped.requeue (fun _ => rfl) (fun hr => h.lt p ?_) ?_ (h.left ?_ hnd.1)
      (fun r hr => ?_) hnd.2 ?_⟩
    · rwa [ne_eq, Process.wake_unused] at hr
    · rintro rfl
      rw [ne_eq, ne_eq, Process.wake_unused, Process.wake_zombie]
      exact h.kernel
    · exact (h.linked p q).mp (by rw [hq]; exact (.head _))
    · simp [hq, hr]
    · simp [hq]

lemma FdInv.pipeMoved (h : FdInv lost (fun _ => 0) ∅ s) {x p : Pipe} (hx : s.pipes id = some x)
    {e : PipeEnd} {r : ℤ} (ht : Transfer x p e r) :
    FdInv lost (fun _ => 0) ∅ (pipeMoved id e p r s) := by
  have hsame : ∀ id' e', ({ s with pipes := update s.pipes id (some p) } : FdState).EndOpen id' e' ↔
      s.EndOpen id' e' := by
    intro id' e'
    by_cases hid : id' = id
    · subst hid
      rw [endOpen_iff hx, ← ht.ends]
      exact endOpen_iff (update_self _ _ _) e'
    · unfold FdState.EndOpen
      show (∃ y, update s.pipes id (some p) id' = some y ∧ _) ↔ _
      rw [update_of_ne hid]
  have h1 : FdInv lost (fun _ => 0) ∅ { s with pipes := update s.pipes id (some p) } := by
    refine ⟨h.toCounted.congr rfl (fun _ _ => rfl) rfl rfl rfl, h.lt, h.kernel, h.idle, h.pipeLt,
      fun m id' e' hm hk => ?_, h.pipeInj, h.linked, h.nodup, h.queueLt, h.drained⟩
    exact (hsame id' e').trans (h.pipeOpen m id' e' hm hk)
  unfold FrostByte.pipeMoved
  split_ifs
  · exact h1.wakeOne (id, e)
  · exact h1

lemma ioStable_fdInv : IoStable (FdInv lost (fun _ => 0) ∅) where
  moved h hx ht := h.pipeMoved hx ht
  offset {s i} h hi o := by
    apply h.setFile hi rfl
    · rfl
    · exact h.pos i hi
    · intro _ _
      rfl
    · intro _
      rfl
    · intro _
      rfl

lemma FdInv.processWaitOn (h : FdInv lost (fun _ => 0) ∅ s) (hc : 1 ≤ c)
    (hs : (s.procs c).state ≠ .unused) (hfree : (s.procs c).waitingOn = none) {e : PipeEnd}
    (hid : id < s.nextPipe) (hopen : e = .read → s.EndOpen id .write) :
    FdInv lost (fun _ => 0) ∅ (processWaitOn c (id, e) s) := by
  have hout : ∀ u, c ∉ s.queues u := by
    intro u hmem
    rw [h.linked, hfree] at hmem
    cases hmem
  refine ⟨h.toCounted.congr rfl (held_setProc fun fd _ => ?_) rfl rfl rfl, h.toPiped.requeue nofun
    (fun _ => h.lt c hs) (by omega) (fun u => ?_) (fun r hr => ?_)
    (List.nodup_cons.mpr ⟨hout _, h.nodup _⟩) fun _ => .inr ⟨hid, hopen⟩⟩
  · show (if _ then _ else _) = if (s.procs c).state = .unused then _ else _
    rw [if_neg hs]
    rfl
  · rw [update_apply]
    split_ifs with hu
    · simp [hu]
    · exact iff_of_false (hout u) fun heq => hu (Option.some.inj heq).symm
  · simp [hr]

lemma FdInv.closes_eq_zero (h : FdInv lost (fun _ => 0) ∅ s) (hi : i < maxOpenFiles)
    (hn : (s.files i).node = some n) : n < s.nextNode ∧ s.closes n = 0 := by
  have hlt := h.toCounted.node_lt hi hn
  have hin : 0 < s.slots n := (uses_pos_iff _).mpr ⟨i, Finset.mem_range.mpr hi, hn⟩
  have hcount := h.nodes n
  rw [if_pos hlt] at hcount
  exact ⟨hlt, by omega⟩

variable {env : IoEnv W} {st : IoState W}

lemma FdInv.sysRead (h : FdInv lost (fun _ => 0) ∅ st.fds) (env : IoEnv W)
    (hc : st.fds.CanRun c) (hfree : (st.fds.procs c).waitingOn = none) (fd : ℤ) (buf count : ℕ) :
    FdInv lost (fun _ => 0) ∅ (sysRead env c fd buf count st).2.fds := by
  apply ioStable_fdInv.sysRead env h fd buf count
  intro i n id e hget hn hkind hcan
  obtain ⟨hlt, hcl⟩ := h.closes_eq_zero (fdGet_some hget).1 hn
  apply h.processWaitOn hc.1 hc.used hfree (h.pipeLt n id e hlt hkind)
  -- the pipe is empty and its write end is open
  intro _
  obtain ⟨p, hp, -⟩ := (h.pipeOpen n id e hlt hkind).mpr hcl
  refine ⟨p, hp, ?_⟩
  unfold fdPipeCanRead at hcan
  rw [hp] at hcan
  show p.writeEndOpen = true
  by_contra hclosed
  rw [Bool.not_eq_true] at hclosed
  dsimp only at hcan
  rw [hclosed, Bool.not_false, Bool.or_true] at hcan
  cases hcan

lemma FdInv.sysWrite (h : FdInv lost (fun _ => 0) ∅ st.fds) (env : IoEnv W)
    (hc : st.fds.CanRun c) (hfree : (st.fds.procs c).waitingOn = none) (fd : ℤ) (buf count : ℕ) :
    FdInv lost (fun _ => 0) ∅ (sysWrite env c fd buf count st).2.fds := by
  apply ioStable_fdInv.sysWrite env h fd buf count
  intro i n id e t hget hn hkind _ _ ht hsame
  obtain ⟨hlt, -⟩ := h.closes_eq_zero (fdGet_some hget).1 hn
  obtain ⟨hprocs, hkinds, hnext⟩ : t.procs = st.fds.procs ∧ t.kind = st.fds.kind ∧
      t.nextNode = st.fds.nextNode := by
    obtain ⟨f, rfl⟩ | rfl := hsame
    · exact ⟨rfl, rfl, rfl⟩
    · exact ⟨rfl, rfl, rfl⟩
  refine ht.processWaitOn hc.1 ?_ ?_ ?_ fun he => by cases he
  · rw [hprocs]
    exact hc.used
  · rw [hprocs]
    exact hfree
  · apply ht.pipeLt n id e
    · rw [hnext]
      exact hlt
    · rw [hkinds]
      exact hkind

/-! ## Runs -/

/-- A descriptor call, a read or write, or a wake-up from elsewhere. -/
inductive IoOp
  | fd (op : FdOp)
  | read (c : ℕ) (fd : ℤ) (buf count : ℕ)
  | write (c : ℕ) (fd : ℤ) (buf count : ℕ)
  /-- `process_wait_on`, for a process that the timer has stopped behind its test of the pipe. -/
  | sleep (c id : ℕ) (e : PipeEnd)
  /-- `process_wake`, for a timer or a child that exits. -/
  | wake (p : ℕ)

/-- The state after a step; a reader may test and sleep in two steps. -/
def IoState.call (env : IoEnv W) (st : IoState W) : IoOp → IoState W
  | .fd op => { st with fds := st.fds.call op }
  | .read c fd buf count => (sysRead env c fd buf count st).2
  | .write c fd buf count => (sysWrite env c fd buf count st).2
  | .sleep c id e => { st with fds := processWaitOn c (id, e) st.fds }
  | .wake p => { st with fds := processWake p st.fds }

/-- The calls, from boot on. A process that may have to wait is not in a queue, and a reader that
goes to sleep behind its test does so while the write end is open. -/
def ioCalls (env : IoEnv W) : System (IoState W) IoOp where
  init st := st.fds = FdState.boot
  guard st op := match op with
    | .fd op => op.Enabled st.fds ∧ op.HasRoom st.fds
    | .read c _ _ _ | .write c _ _ _ => st.fds.CanRun c ∧ (st.fds.procs c).waitingOn = none
    | .sleep c id e => st.fds.CanRun c ∧ (st.fds.procs c).waitingOn = none ∧ id < st.fds.nextPipe ∧
        (e = .read → st.fds.EndOpen id .write)
    | .wake _ => True
  step st op st' := st' = st.call env op

lemma ioCalls_step_fd {s : FdState} {w : W} (h : (ioCalls env).Reach ⟨s, w⟩) (op : FdOp)
    (he : op.Enabled s) (hroom : op.HasRoom s) : (ioCalls env).Reach ⟨s.call op, w⟩ := by
  have hguard : (ioCalls env).guard ⟨s, w⟩ (.fd op) := ⟨he, hroom⟩
  exact .step h hguard rfl

/-- The invariant along every run, with the references that were lost on the way. -/
lemma FdInv.of_reach (h : (ioCalls env).Reach st) : ∃ lost, FdInv lost (fun _ => 0) ∅ st.fds := by
  apply System.Reach.invariant
    ?_ ?_ h
  · intro st hboot
    rw [hboot]
    exact ⟨_, FdInv.boot⟩
  · rintro st op _ ⟨lost, hst⟩ hguard rfl
    cases op with
    | fd op =>
      obtain ⟨lost', h', -⟩ := hst.call hguard.1 hguard.2
      exact ⟨lost', h'⟩
    | read c fd buf count => exact ⟨lost, hst.sysRead env hguard.1 hguard.2 fd buf count⟩
    | write c fd buf count => exact ⟨lost, hst.sysWrite env hguard.1 hguard.2 fd buf count⟩
    | sleep c id e =>
      obtain ⟨hc, hfree, hid, hopen⟩ := hguard
      exact ⟨lost, hst.processWaitOn hc.1 hc.used hfree hid hopen⟩
    | wake p => exact ⟨lost, hst.processWake p⟩

/-! ## Writers -/

/-- The process has a descriptor for the write end. -/
def HoldsWrite (s : FdState) (q id : ℕ) : Prop :=
  ∃ fd < fdTableSize, ∃ j n : ℕ, s.held (q, fd) = j ∧ (s.files j).node = some n ∧
    s.kind n = .pipe id .write

/-- A process that has not exited holds the write end. -/
def LiveWriter (s : FdState) (id : ℕ) : Prop :=
  ∃ q, 1 ≤ q ∧ (s.procs q).state ≠ .unused ∧ (s.procs q).state ≠ .zombie ∧ HoldsWrite s q id

/-- A process that has exited and is not reaped holds the write end. -/
def ExitedWriter (s : FdState) (id : ℕ) : Prop :=
  ∃ q, 1 ≤ q ∧ (s.procs q).state = .zombie ∧ HoldsWrite s q id

lemma FdInv.endOpen_write_iff (h : FdInv lost (fun _ => 0) ∅ s) {m : ℕ} (hm : m < s.nextNode)
    (hk : s.kind m = .pipe id .write) :
    s.EndOpen id .write ↔ LiveWriter s id ∨ ExitedWriter s id := by
  have hcount := h.nodes m
  rw [if_pos hm, if_neg (Finset.notMem_empty m)] at hcount
  rw [h.pipeOpen m id .write hm hk]
  constructor
  · intro h0
    obtain ⟨j, hj, hnode⟩ := (uses_pos_iff _).mp (show 0 < s.slots m by omega)
    have hjlt := Finset.mem_range.mp hj
    have hsome : (s.files j).node.isSome := by rw [hnode]; rfl
    -- no reference to the slot of a pipe is ever lost, so a descriptor holds it
    have hlost : lost j = 0 := by
      by_contra hl
      obtain ⟨n, hn, hfile⟩ := h.plain j hjlt hl
      rw [hnode] at hn
      cases hn
      rw [hk] at hfile
      cases hfile
    have hrefs := h.refs j hjlt
    have hpos := h.pos j hjlt hsome
    unfold OpenFile.refs at hrefs
    rw [if_pos hsome] at hrefs
    obtain ⟨⟨q, fd⟩, hmem, hheld⟩ := (uses_pos_iff _).mp (show 0 < s.holders j by omega)
    obtain ⟨⟨hq, -⟩, hfd⟩ := mem_descriptors.mp hmem
    have hholds : HoldsWrite s q id := ⟨fd, hfd, j, m, hheld, hnode, hk⟩
    have hused : (s.procs q).state ≠ .unused := by
      intro hu
      have hminus : s.held (q, fd) = -1 := if_pos hu
      omega
    by_cases hz : (s.procs q).state = .zombie
    · exact Or.inr ⟨q, hq, hz, hholds⟩
    · exact Or.inl ⟨q, hq, hused, hz, hholds⟩
  · intro hor
    obtain ⟨q, hq, hused, fd, hfd, j, n, hheld, hnode, hkn⟩ : ∃ q, 1 ≤ q ∧
        (s.procs q).state ≠ .unused ∧ HoldsWrite s q id := by
      rcases hor with ⟨q, hq, hu, -, hh⟩ | ⟨q, hq, hz, hh⟩
      · exact ⟨q, hq, hu, hh⟩
      · exact ⟨q, hq, by rw [hz]; decide, hh⟩
    have hjlt : j < maxOpenFiles := by
      have hr := (h.range _ (h.toPiped.mem_descriptors hq hused hfd)).2
      rw [hheld] at hr
      exact_mod_cast hr
    obtain ⟨hlt, hcl⟩ := h.closes_eq_zero hjlt hnode
    rw [h.pipeInj m n id .write hm hlt hk hkn]
    exact hcl

/-! ## End of file -/

/-- The descriptor refers to an end of the pipe. -/
def OnPipe (s : FdState) (c : ℕ) (fd : ℤ) (id : ℕ) : Prop :=
  ∃ i n e, fdGet c fd s = some i ∧ (s.files i).node = some n ∧ s.kind n = .pipe id e

/-- The call reaches the pipe: not on descriptor 0, a valid buffer that is not empty, and memory. -/
structure ReachesPipe (env : IoEnv W) (fd : ℤ) (buf count : ℕ) (st : IoState W) : Prop where
  fd_ne : fd ≠ 0
  buf_ne : buf ≠ 0
  count_ne : count ≠ 0
  range : env.userRangeOk buf count true st.world = true
  memory : (env.kmalloc count st.world).1 = true

lemma sysRead_empty {fd : ℤ} {buf count : ℕ} {x : Pipe}
    (hcall : ReachesPipe env fd buf count st) (hon : OnPipe st.fds c fd id)
    (hx : st.fds.pipes id = some x) (hempty : x.count = 0) :
    (sysRead env c fd buf count st).1 = .done 0 ↔ x.writeEndOpen = false := by
  obtain ⟨i, n, e, hget, hn, hkind⟩ := hon
  have hread : vfsRead env n (st.fds.files i).offset count
      ⟨st.fds, (env.kmalloc count st.world).2⟩ = ((0, []),
        ⟨pipeMoved id .write x 0 st.fds, (env.kmalloc count st.world).2⟩) := by
    unfold vfsRead
    dsimp only
    rw [hkind]
    dsimp only
    rw [hx]
    dsimp only
    rw [pipeRead_of_empty hempty]
  have hgo : (readFile env i n buf count st).1 = 0 := by
    unfold readFile
    rw [if_neg (by rw [hcall.memory]; decide), hread]
    rfl
  unfold sysRead
  rw [if_neg (by rw [not_or]; exact ⟨hcall.buf_ne, hcall.count_ne⟩),
    if_neg (by rw [hcall.range]; decide), if_neg hcall.fd_ne, hget]
  dsimp only
  rw [hn]
  dsimp only
  rw [hkind]
  dsimp only
  have hcan : fdPipeCanRead id st.fds = !x.writeEndOpen := by
    unfold fdPipeCanRead
    rw [hx]
    dsimp only
    rw [hempty]
    rfl
  rw [hcan, hgo]
  cases x.writeEndOpen with
  | false => exact iff_of_true rfl rfl
  | true =>
    refine iff_of_false ?_ (by decide)
    rw [if_neg (by decide)]
    split_ifs
    · intro hfalse
      exact absurd (IoResult.done.inj hfalse) (by decide)
    · intro hfalse
      cases hfalse

/-- Every buffer is valid, and memory is always found. -/
def plainEnv : IoEnv Unit where
  userRangeOk _ _ _ _ := true
  copyFromUser _ n _ := some (List.replicate n 0)
  copyToUser _ _ _ := (true, ())
  kmalloc _ _ := (true, ())
  kfree _ := ()
  vfsRead _ _ _ _ := ((0, []), ())
  vfsWrite _ _ bytes _ := (bytes.length, ())
  vfsGetSize _ _ := 0
  streamDevice _ _ := false
  ttyRead _ _ _ _ := (.done 1, ())
  ttyWrite _ _ count _ := (count, ())

/-- The kernel starts one program without a terminal. -/
@[irreducible]
def FdState.launched : FdState := FdState.boot.call (.spawn true true false)

/-- The program has made a pipe: descriptor 3 reads it and 4 writes it. -/
@[irreducible]
def FdState.piped : FdState := FdState.launched.call (.pipe 1 ⟨true, true, true⟩ true true)

/-- The program has forked, and its child is process 2. -/
@[irreducible]
def FdState.forked : FdState := FdState.piped.call (.fork 1 true false true)

/-- There is room for the pipe, and each of the calls below is made by a runnable process. -/
lemma FdState.launched_ready : (2 ≤ freeSlots launched ∧ 2 ≤ freeFds launched 1) ∧
    (launched.procs 1).state = .runnable ∧ (piped.procs 1).state = .runnable ∧
    (forked.procs 1).state = .runnable ∧
    ((forked.call (.close 1 4)).procs 2).state = .runnable := by
  decide +kernel

lemma FdState.launched_room : Room launched 1 2 := ⟨launched_ready.1.1, launched_ready.1.2⟩

lemma FdState.launched_canRun : launched.CanRun 1 := ⟨le_rfl, Or.inl launched_ready.2.1⟩

lemma FdState.piped_canRun : piped.CanRun 1 := ⟨le_rfl, Or.inl launched_ready.2.2.1⟩

lemma FdState.piped_reach : (ioCalls plainEnv).Reach ⟨piped, ()⟩ := by
  have h0 : (ioCalls plainEnv).Reach ⟨boot, ()⟩ :=
    .init (show (⟨boot, ()⟩ : IoState Unit).fds = _ from rfl)
  have h1 : (ioCalls plainEnv).Reach ⟨launched, ()⟩ := by
    unfold launched
    exact ioCalls_step_fd h0 _ trivial trivial
  unfold piped
  exact ioCalls_step_fd h1 _ launched_canRun fun _ _ _ _ => launched_room

/-- The program has closed the write end of its pipe. -/
@[irreducible]
def FdState.hungUp : FdState := FdState.piped.call (.close 1 4)

/-- The program has forked and closed its write end, and its child has exited. -/
@[irreducible]
def FdState.orphanedPipe : FdState := (FdState.forked.call (.close 1 4)).call (.exit 2)

lemma FdState.orphanedPipe_reach : (ioCalls plainEnv).Reach ⟨orphanedPipe, ()⟩ := by
  obtain ⟨-, -, -, hclose, hexit⟩ := launched_ready
  have h1 : (ioCalls plainEnv).Reach ⟨forked, ()⟩ := by
    unfold forked
    exact ioCalls_step_fd piped_reach _ piped_canRun trivial
  have h2 := ioCalls_step_fd h1 (.close 1 4) ⟨le_rfl, Or.inl hclose⟩ trivial
  unfold orphanedPipe
  exact ioCalls_step_fd h2 (.exit 2) ⟨by decide, Or.inl hexit⟩ trivial

end FrostByte
