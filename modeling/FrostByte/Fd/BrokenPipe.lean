import FrostByte.Fd.EndOfFile
import FrostByte.Fd.PipeCalls

/-!
# Writing to a pipe

`pipe_write` fails when the read end is closed, but `sys_write` asks `fd_pipe_can_write` first,
which answers 0 for a closed read end as it does for a full buffer. So a writer waits for a reader
that can never come back. `pipe_read` wakes one writer only, and the test and the sleep of a writer
are two steps: a second writer, or one that is stopped between the two, sleeps although there is
room.

## Main definitions

* `WriteAnswers` — what a write to a pipe should come to.
* `WaitsFull` — whoever waits to write waits at a full pipe with an open read end.
* `IoOp.WritesOrderly`, `orderlyWrites` — runs without the three slips above.

## Main results

* `sysWrite_answers` — a write answers as it should exactly when the read end is open.
* `orderly_writes` — over whole runs, also nobody waits without reason.
* `broken_pipe_blocks`, `second_writer_sleeps` — two of the slips.
-/

namespace FrostByte

open Function Word FdState

variable {W : Type*} {c i n id : ℕ}

/-- The bytes of the first chunk of a write. -/
def firstChunk (count : ℕ) : ℕ := if 65536 < count then 65536 else count

/-- The call reaches the pipe: a valid buffer that is not empty, and memory for the first chunk. -/
structure WriteReaches (env : IoEnv W) (buf count : ℕ) (st : IoState W) : Prop where
  buf_ne : buf ≠ 0
  count_ne : count ≠ 0
  range : env.userRangeOk buf count false st.world = true
  memory : (env.kmalloc (firstChunk count) st.world).1 = true
  copied : ∃ bytes, env.copyFromUser (w32 buf) (firstChunk count)
    (env.kmalloc (firstChunk count) st.world).2 = some bytes ∧ bytes.length = firstChunk count

/-- A write should fail without a reader, wait on a full pipe, and else write. -/
def WriteAnswers (x : Pipe) (nonblock : Bool) (r : IoResult) : Prop :=
  if x.readEndOpen = false then ∃ e : ℤ, r = .done e ∧ e < 0 ∧ e ≠ -eagain
  else if pipeBufSize ≤ x.count then
    r = if nonblock then .done (-eagain) else .blocked
  else ∃ k : ℤ, r = .done k ∧ 0 < k

variable {buf count : ℕ} {e : PipeEnd} {env : IoEnv W} {fd : ℤ} {st : IoState W} {x : Pipe}

lemma pipeWrite_pos (hopen : x.readEndOpen = true) (hspace : x.count < pipeBufSize)
    {size : ℕ} (hsize : size ≠ 0) (buffer : ℕ → ℕ) :
    0 < (pipeWrite size buffer x).1 ∧ (pipeWrite size buffer x).1 ≤ size ∧
      (pipeWrite size buffer x).1 ≤ pipeBufSize := by
  have hsub : sub32 pipeBufSize x.count = pipeBufSize - x.count :=
    sub32_of_le hspace.le (by decide)
  unfold pipeWrite
  rw [if_neg hsize, if_neg (by rw [hopen]; decide)]
  dsimp only
  split_ifs <;> omega

lemma writeChunks_pos (hkind : st.fds.kind n = .pipe id e) (hx : st.fds.pipes id = some x)
    (hopen : x.readEndOpen = true) (hspace : x.count < pipeBufSize)
    (hcall : WriteReaches env buf count st) :
    0 < (writeChunks env i n buf (count + 1) count 0 st).1 := by
  obtain ⟨bytes, hcopy, hlen⟩ := hcall.copied
  have hne : firstChunk count ≠ 0 := by
    unfold firstChunk
    split_ifs
    · decide
    · exact hcall.count_ne
  have hwrite : ∀ (w : W) (offset : ℕ), 0 < (vfsWrite env n offset bytes ⟨st.fds, w⟩).1 ∧
      (vfsWrite env n offset bytes ⟨st.fds, w⟩).1 ≤ firstChunk count ∧
      (vfsWrite env n offset bytes ⟨st.fds, w⟩).1 ≤ pipeBufSize := by
    intro w offset
    unfold vfsWrite
    dsimp only
    rw [hkind]
    dsimp only
    rw [hx, ← hlen]
    exact pipeWrite_pos hopen hspace (by rw [hlen]; exact hne) _
  unfold writeChunks
  rw [if_neg hcall.count_ne, show (if 65536 < count then 65536 else count) = firstChunk count from
    rfl,
    if_neg (by rw [hcall.memory]; decide)]
  rw [Int.toNat_zero, Nat.add_zero, hcopy]
  dsimp only
  obtain ⟨hpos, hle, hbuf⟩ := hwrite (env.kmalloc (firstChunk count) st.world).2
    (st.fds.files i).offset
  generalize vfsWrite env n (st.fds.files i).offset bytes _ = r at hpos hle hbuf ⊢
  rw [if_neg (by omega)]
  split_ifs with hshort
  · omega
  · -- the whole chunk went in, so it is shorter than the limit and nothing remains
    have hbuf' : r.1 ≤ 4096 := hbuf
    have hall : firstChunk count = count := by
      unfold firstChunk at hshort ⊢
      split_ifs at hshort ⊢ with hlarge
      · omega
      · rfl
    have hfull : r.1.toNat = count := by omega
    have hrest : sub32 count r.1.toNat = 0 := by
      rw [hfull, sub32_of_le le_rfl (by omega), Nat.sub_self]
    rw [hrest]
    obtain ⟨fuel, rfl⟩ : ∃ fuel, count = fuel + 1 := ⟨count - 1, by have := hcall.count_ne; omega⟩
    show 0 < 0 + r.1
    omega

section

variable (hget : fdGet c fd st.fds = some i) (hn : (st.fds.files i).node = some n)
    (hkind : st.fds.kind n = .pipe id e) (hx : st.fds.pipes id = some x)
    (hcall : WriteReaches env buf count st)

include hget hn hkind hx hcall

lemma sysWrite_pipe : ∃ st1 : IoState W, st1.fds.kind n = .pipe id e ∧ st1.fds.pipes id = some x ∧
      WriteReaches env buf count st1 ∧ (sysWrite env c fd buf count st).1 =
        if fdPipeCanWrite id st.fds then .done (writeChunks env i n buf (count + 1) count 0 st1).1
        else if nonblocking (st.fds.files i) then .done (-eagain) else .blocked := by
  -- an append moves the offset, which the pipe does not look at
  obtain ⟨st1, hst1⟩ : ∃ t, t = if (st.fds.files i).append ≠ 0 ∧ 0 ≤ env.vfsGetSize n st.world
    then st.setOffset i (env.vfsGetSize n st.world) else st := ⟨_, rfl⟩
  have hsame : st1.fds.kind = st.fds.kind ∧ st1.fds.pipes = st.fds.pipes ∧
      st1.world = st.world := by
    rw [hst1]
    split_ifs
    · exact ⟨rfl, rfl, rfl⟩
    · exact ⟨rfl, rfl, rfl⟩
  obtain ⟨hkinds, hpipes, hworld⟩ := hsame
  have hflags : nonblocking (st1.fds.files i) = nonblocking (st.fds.files i) := by
    rw [hst1]
    split_ifs
    · show nonblocking (update st.fds.files i _ i) = _
      rw [update_self]
      rfl
    · rfl
  have hcan : fdPipeCanWrite id st1.fds = fdPipeCanWrite id st.fds := by
    unfold fdPipeCanWrite
    rw [hpipes]
  refine ⟨st1, by rw [hkinds]; exact hkind, by rw [hpipes]; exact hx, ?_, ?_⟩
  · obtain ⟨hbuf, hcount, hrange, hmem, hcopy⟩ := hcall
    rw [← hworld] at hrange hmem hcopy
    exact ⟨hbuf, hcount, hrange, hmem, hcopy⟩
  · unfold sysWrite
    rw [if_neg (by rw [not_or]; exact ⟨hcall.buf_ne, hcall.count_ne⟩),
      if_neg (by rw [hcall.range]; decide), hget]
    dsimp only
    rw [hn]
    dsimp only
    rw [← hst1, hkinds, hkind]
    dsimp only
    rw [hcan, hflags]
    split
    · rfl
    · split <;> rfl

lemma sysWrite_writable (hopen : x.readEndOpen = true) (hspace : x.count < pipeBufSize) :
    ∃ k : ℤ, (sysWrite env c fd buf count st).1 = .done k ∧ 0 < k := by
  obtain ⟨st1, hkind1, hx1, hcall1, hres⟩ := sysWrite_pipe hget hn hkind hx hcall
  have hcan : fdPipeCanWrite id st.fds = true := by
    unfold fdPipeCanWrite
    rw [hx]
    dsimp only
    rw [if_neg (by rw [hopen]; decide), decide_eq_true hspace]
  rw [hres, if_pos hcan]
  exact ⟨_, rfl, writeChunks_pos hkind1 hx1 hopen hspace hcall1⟩

lemma sysWrite_unwritable (hfull : x.readEndOpen = false ∨ pipeBufSize ≤ x.count) :
    (sysWrite env c fd buf count st).1 =
      if nonblocking (st.fds.files i) then .done (-eagain) else .blocked := by
  obtain ⟨st1, -, -, -, hres⟩ := sysWrite_pipe hget hn hkind hx hcall
  have hcan : fdPipeCanWrite id st.fds = false := by
    unfold fdPipeCanWrite
    rw [hx]
    dsimp only
    split_ifs with hclosed
    · rfl
    · exact decide_eq_false (not_lt.mpr (hfull.resolve_left hclosed))
  rw [hres, if_neg (by rw [hcan]; decide)]

end

/-- **One call** of `sys_write`, or one test after a wake-up, answers as it should exactly when the
read end is open: `fd_pipe_can_write` does not tell a closed read end from a full buffer. -/
lemma sysWrite_answers (hget : fdGet c fd st.fds = some i) (hn : (st.fds.files i).node = some n)
    (hkind : st.fds.kind n = .pipe id e) (hx : st.fds.pipes id = some x)
    (hcall : WriteReaches env buf count st) :
    WriteAnswers x (nonblocking (st.fds.files i)) (sysWrite env c fd buf count st).1 ↔
      x.readEndOpen = true := by
  unfold WriteAnswers
  cases hopen : x.readEndOpen with
  | false =>
    rw [sysWrite_unwritable hget hn hkind hx hcall (Or.inl hopen)]
    refine iff_of_false ?_ (by decide)
    rintro ⟨k, hk, -, hne⟩
    split_ifs at hk
    exact hne (IoResult.done.inj hk).symm
  | true =>
    refine iff_of_true ?_ rfl
    by_cases hfull : pipeBufSize ≤ x.count
    · rw [if_pos hfull]
      exact sysWrite_unwritable hget hn hkind hx hcall (Or.inr hfull)
    · rw [if_neg hfull]
      exact sysWrite_writable hget hn hkind hx hcall hopen (not_le.mp hfull)

/-! ## Runs -/

/-- At most one process waits to write to a pipe, and then the pipe is full and its read end
open. -/
structure WaitsFull (s : FdState) : Prop where
  waiting : ∀ id, s.queues (id, .write) = [] ∨ (∃ q, s.queues (id, .write) = [q]) ∧
    ∃ x, s.pipes id = some x ∧ x.readEndOpen = true ∧ x.count = pipeBufSize
  count_le : ∀ id x, s.pipes id = some x → x.count ≤ pipeBufSize

/-- A write, or a test of the pipe after a wake-up, is made while the read end is open, and a
process goes to sleep at a full pipe only, where no other one sleeps. -/
def IoOp.WritesOrderly (st : IoState W) : IoOp → Prop
  | .write c fd _ _ => ∀ i n id e x, fdGet c fd st.fds = some i → (st.fds.files i).node = some n →
      st.fds.kind n = .pipe id e → st.fds.pipes id = some x → x.readEndOpen = true ∧
      (x.count = pipeBufSize → nonblocking (st.fds.files i) = false →
        st.fds.queues (id, .write) = [])
  | .sleep _ id .write => ∃ x, st.fds.pipes id = some x ∧ x.readEndOpen = true ∧
      x.count = pipeBufSize ∧ st.fds.queues (id, .write) = []
  | _ => True

/-- The runs whose writes are orderly. -/
def orderlyWrites (env : IoEnv W) : System (IoState W) IoOp where
  init := (ioCalls env).init
  guard st op := (ioCalls env).guard st op ∧ op.WritesOrderly st
  step := (ioCalls env).step

/-- Descriptor calls keep `WaitsFull`: closing the read end wakes all writers, and closing the write
end leaves a pipe whose read end is open as full as it was. -/
lemma pipeStable_waitsFull : PipeStable WaitsFull where
  congr {s s'} h hp hq := by
    refine ⟨fun id => ?_, fun id x hx => h.count_le id x ?_⟩
    · rw [hp, hq]
      exact h.waiting id
    · rw [← hp]
      exact hx
  closePipe {s} h id e := by
    unfold closePipe
    cases hx : s.pipes id with
    | none => exact h
    | some x =>
      have hclose : ∀ y, pipeClose e x = some y → y.count = x.count := by
        intro y hy
        unfold pipeClose at hy
        cases e <;> simp only [ite_eq_iff, reduceCtorEq, and_false, false_or,
          Option.some.injEq] at hy <;>
          rw [← hy.2]
      refine ⟨fun id' => ?_, fun id' y hy => ?_⟩
      · simp only [waitQueueWakeAll, update_apply, Prod.mk.injEq]
        by_cases hid : id' = id
        · subst hid
          cases e with
          | read => exact .inl (if_pos ⟨rfl, rfl⟩)
          | write =>
            rw [if_neg (by simp [PipeEnd.other])]
            refine (h.waiting id').imp_right fun hwaits => ?_
            obtain ⟨hone, y, hy, hopen, hfull⟩ := hwaits
            obtain rfl : x = y := Option.some.inj (hx.symm.trans hy)
            exact ⟨hone, { x with writeEndOpen := false }, by simp [pipeClose, hopen], hopen, hfull⟩
        · simpa [hid] using h.waiting id'
      · simp only [waitQueueWakeAll, update_apply] at hy
        split_ifs at hy
        · rw [hclose y hy]
          exact h.count_le id x hx
        · exact h.count_le id' y hy
  newPipe {s} h := by
    refine ⟨fun id => ?_, fun id x hx => ?_⟩
    · simp only [FdState.newPipe, update_apply, Prod.mk.injEq]
      by_cases hid : id = s.nextPipe
      · exact .inl (by simp [hid])
      · simpa [hid] using h.waiting id
    · simp only [FdState.newPipe, update_apply] at hx
      split_ifs at hx
      · cases hx
        exact Nat.zero_le _
      · exact h.count_le id x hx
  freePipe {s id} h hid := by
    refine ⟨fun id' => ?_, fun id' x hx => ?_⟩
    · simp only [FdState.freePipe, update_apply]
      by_cases hne : id' = id
      · exact .inl (hne ▸ hid)
      · simpa [hne] using h.waiting id'
    · simp only [FdState.freePipe, update_apply] at hx
      split_ifs at hx
      exact h.count_le id' x hx
  unlinkWaiting {s} h p := by
    unfold unlinkWaiting
    split
    · exact h
    · refine ⟨fun id => ?_, h.count_le⟩
      simp only [update_apply]
      split_ifs with hq
      · rw [← hq]
        rcases h.waiting id with hnil | ⟨⟨q, hone⟩, hfull⟩
        · exact .inl (by rw [hnil]; rfl)
        · rw [hone]
          by_cases hp : q = p
          · exact .inl (by simp [hp])
          · exact .inr ⟨⟨q, by simp [hp]⟩, hfull⟩
      · exact h.waiting id

/-- Transfers keep `WaitsFull`: bytes that are read wake the one writer, and no bytes go into a full
pipe. -/
lemma ioStable_waitsFull : IoStable WaitsFull where
  moved {s id x p e r} h hx ht := by
    have hle := h.count_le id x hx
    have hwake : ∀ q, (pipeMoved id e p r s).queues q =
        if 0 < r ∧ q = (id, e) then (s.queues q).tail else s.queues q := by
      intro q
      unfold pipeMoved
      dsimp only
      by_cases hr : 0 < r
      · rw [if_pos hr]
        cases hq : s.queues (id, e) with
        | nil =>
          rw [waitQueueWakeOne_nil (by exact hq)]
          split_ifs with hq'
          · rw [hq'.2]
            simp [hq]
          · rfl
        | cons p' rest =>
          rw [waitQueueWakeOne_cons (by exact hq)]
          simp only [update_apply]
          split_ifs with h1 h2 h2
          · rw [h1, hq]
            rfl
          · exact absurd ⟨hr, h1⟩ h2
          · exact absurd h2.2 h1
          · rfl
      · simp [hr]
    have hpipes : (pipeMoved id e p r s).pipes = update s.pipes id (some p) := by
      unfold pipeMoved waitQueueWakeOne
      dsimp only
      split_ifs
      · split <;> rfl
      · rfl
    refine ⟨fun id' => ?_, fun id' y hy => ?_⟩
    · rw [hwake, hpipes]
      by_cases hid : id' = id
      · subst hid
        rcases h.waiting id' with hnil | ⟨⟨q, hone⟩, y, hy, hopen, hfull⟩
        · exact .inl (by rw [hnil]; simp)
        · obtain rfl : x = y := Option.some.inj (hx.symm.trans hy)
          have hends : p.readEndOpen = x.readEndOpen := ht.ends .read
          rcases ht.moves hle with hcount | ⟨hr, hroom⟩
          · rw [update_self, hone]
            split_ifs
            · exact .inl rfl
            · exact .inr ⟨⟨q, rfl⟩, p, rfl, hends.trans hopen, hcount.trans hfull⟩
          · cases e with
            | read => exact absurd (hroom rfl) (by omega)
            | write => exact .inl (by rw [if_pos ⟨hr, rfl⟩, hone]; rfl)
      · rw [update_of_ne hid, if_neg fun hc => hid (Prod.mk.inj hc.2).1]
        exact h.waiting id'
    · rw [hpipes, update_apply] at hy
      split_ifs at hy
      · cases hy
        exact ht.count_le hle
      · exact h.count_le id' y hy
  offset h _ _ := pipeStable_waitsFull.setFile h _ _

/-- A process that goes to sleep keeps `WaitsFull` if it waits to read, or at a full pipe that is
open and has no other writer waiting. -/
lemma WaitsFull.processWaitOn {s : FdState} (h : WaitsFull s) (c id : ℕ) (e : PipeEnd)
    (hfull : e = .write → s.queues (id, .write) = [] ∧
      ∃ x, s.pipes id = some x ∧ x.readEndOpen = true ∧ x.count = pipeBufSize) :
    WaitsFull (processWaitOn c (id, e) s) := by
  refine ⟨fun id' => ?_, h.count_le⟩
  simp only [FrostByte.processWaitOn, update_apply, Prod.mk.injEq]
  split_ifs with hq
  · obtain ⟨rfl, he⟩ := hq
    obtain ⟨hnil, hx⟩ := hfull he.symm
    exact .inr ⟨⟨c, by rw [← he, hnil]⟩, hx⟩
  · exact h.waiting id'

/-- Orderly runs are runs. -/
lemma ioCalls_of_orderly (h : (orderlyWrites env).Reach st) : (ioCalls env).Reach st :=
  System.Reach.invariant (M := orderlyWrites env) (I := (ioCalls env).Reach) (fun _ hi => .init hi)
    (fun _ _ _ hs hg hst => hs.step hg.1 hst) h

lemma WaitsFull.of_reach (h : (orderlyWrites env).Reach st) : WaitsFull st.fds := by
  have hboth : (ioCalls env).Reach st ∧ WaitsFull st.fds := by
    refine System.Reach.invariant (M := orderlyWrites env)
      (I := fun st => (ioCalls env).Reach st ∧ WaitsFull st.fds) (fun st hboot => ⟨.init hboot, ?_⟩)
      (fun st op st' hst hguard hstep => ⟨hst.1.step hguard.1 hstep, ?_⟩) h
    · rw [show st.fds = FdState.boot from hboot]
      exact ⟨fun _ => .inl rfl, fun _ _ hx => by cases hx⟩
    obtain ⟨hreach, hst⟩ := hst
    obtain ⟨-, hop⟩ := hguard
    obtain rfl : st' = st.call env op := hstep
    cases op with
    | fd op => exact pipeStable_waitsFull.call hst op
    | read c fd buf count =>
      exact ioStable_waitsFull.sysRead env hst fd buf count fun _ _ id _ _ _ _ _ =>
        hst.processWaitOn c id .read fun he => by cases he
    | write c fd buf count =>
      refine ioStable_waitsFull.sysWrite env hst fd buf count
        fun i n id e t hget hn hkind hcan hblock ht hsame => ht.processWaitOn c id .write fun _ =>
        ?_
      -- the pipe of an open node exists; it is open by the condition, and so it is full
      obtain ⟨lost, hinv⟩ := FdInv.of_reach hreach
      obtain ⟨hlt, hcl⟩ := hinv.closes_eq_zero (fdGet_some hget).1 hn
      obtain ⟨x, hx, -⟩ := (hinv.pipeOpen n id e hlt hkind).mpr hcl
      obtain ⟨hopen, hnil⟩ := hop i n id e x hget hn hkind hx
      have hfull : x.count = pipeBufSize := by
        have hle := hst.count_le id x hx
        simp only [fdPipeCanWrite, hx, hopen, reduceCtorEq, if_false,
          decide_eq_false_iff_not] at hcan
        omega
      obtain ⟨hqueues, hpipes⟩ : t.queues = st.fds.queues ∧ t.pipes = st.fds.pipes := by
        obtain ⟨f, rfl⟩ | rfl := hsame
        · exact ⟨rfl, rfl⟩
        · exact ⟨rfl, rfl⟩
      rw [hqueues, hpipes]
      exact ⟨hnil hfull hblock, x, hx, hopen, hfull⟩
    | sleep c id e =>
      refine hst.processWaitOn c id e fun he => ?_
      subst he
      obtain ⟨x, hx, hopen, hfull, hnil⟩ := hop
      exact ⟨hnil, x, hx, hopen, hfull⟩
    | wake p =>
      show WaitsFull (processWake p st.fds)
      unfold processWake
      split_ifs
      · exact pipeStable_waitsFull.setProc hst _ _
      · exact hst
  exact hboth.2

/-- `pipe_read` wakes one writer: when two sleep at a full pipe, a read leaves the second one
sleeping although there is room. -/
theorem second_writer_sleeps {s : FdState} {p q : ℕ} (hfull : x.count = pipeBufSize)
    (hqueue : s.queues (id, .write) = [p, q]) (hpq : q ≠ p)
    {size : ℕ} (hsize : size ≠ 0) :
    ∃ y, (pipeMoved id .write (pipeRead size x).2.2 (pipeRead size x).1 s).pipes id = some y ∧
      y.count < pipeBufSize ∧ y.readEndOpen = x.readEndOpen ∧
      (pipeMoved id .write (pipeRead size x).2.2 (pipeRead size x).1 s).procs q = s.procs q ∧
      (pipeMoved id .write (pipeRead size x).2.2 (pipeRead size x).1 s).queues (id, .write) =
      [q] := by
  have hpos : x.count ≠ 0 := by
    rw [hfull]
    decide
  have hread : 0 < (pipeRead size x).1 ∧ (pipeRead size x).2.2.count < x.count := by
    unfold pipeRead
    rw [if_neg hsize, if_neg fun hc => hpos hc.1, if_neg hpos]
    refine ⟨?_, (RingBuffer.count_popN _ _ _).trans_lt ?_⟩
    · dsimp only
      split_ifs <;> omega
    · split_ifs <;> omega
  unfold pipeMoved
  rw [if_pos hread.1, waitQueueWakeOne_cons (by exact hqueue)]
  refine ⟨_, update_self _ _ _, hfull ▸ hread.2, pipeRead_endOpen size x .read, ?_,
    update_self _ _ _⟩
  exact update_of_ne hpq _ _

lemma writeReaches_plain (st : IoState Unit) : WriteReaches plainEnv 4096 1 st :=
  ⟨by decide, by decide, rfl, rfl, [0], rfl, rfl⟩

lemma orderlyWrites_step_fd {s : FdState} {w : W} (h : (orderlyWrites env).Reach ⟨s, w⟩) (op : FdOp)
    (he : op.Enabled s) (hroom : op.HasRoom s) : (orderlyWrites env).Reach ⟨s.call op, w⟩ := by
  have hguard : (orderlyWrites env).guard ⟨s, w⟩ (.fd op) := ⟨⟨he, hroom⟩, trivial⟩
  exact .step h hguard rfl

lemma FdState.piped_orderly : (orderlyWrites plainEnv).Reach ⟨piped, ()⟩ := by
  have h0 : (orderlyWrites plainEnv).Reach ⟨boot, ()⟩ :=
    .init (show (⟨boot, ()⟩ : IoState Unit).fds = _ from rfl)
  have h1 : (orderlyWrites plainEnv).Reach ⟨launched, ()⟩ := by
    unfold launched
    exact orderlyWrites_step_fd h0 _ trivial trivial
  unfold piped
  exact orderlyWrites_step_fd h1 _ launched_canRun fun _ _ _ _ => launched_room

lemma FdState.piped_write : fdGet 1 4 piped = some 1 ∧ (piped.files 1).node = some 1 ∧
    piped.kind 1 = .pipe 0 .write ∧
    (piped.pipes 0).map (fun x => (x.readEndOpen, x.count)) = some (true, 0) ∧
    (piped.procs 1).waitingOn = none := by
  decide +kernel

/-- The program has written one byte into its pipe. -/
@[irreducible]
def FdState.written : FdState := (sysWrite plainEnv 1 4 4096 1 ⟨FdState.piped, ()⟩).2.fds

lemma FdState.written_orderly : (orderlyWrites plainEnv).Reach ⟨written, ()⟩ := by
  have hguard : (orderlyWrites plainEnv).guard ⟨piped, ()⟩ (.write 1 4 4096 1) := by
    obtain ⟨hget', hn', hkind', hvalues, hwaits⟩ := piped_write
    refine ⟨⟨piped_canRun, hwaits⟩, ?_⟩
    intro i n id e x hget hn hkind hx
    obtain rfl : 1 = i := Option.some.inj (hget'.symm.trans hget)
    obtain rfl : 1 = n := Option.some.inj (hn'.symm.trans hn)
    obtain ⟨rfl, -⟩ := NodeKind.pipe.inj (hkind'.symm.trans hkind)
    rw [show piped.pipes 0 = some x from hx] at hvalues
    obtain ⟨hopen, hcount⟩ := Prod.mk.inj (Option.some.inj hvalues)
    refine ⟨hopen, fun hfull => ?_⟩
    rw [hcount] at hfull
    cases hfull
  unfold written
  exact .step piped_orderly hguard rfl

/-- The program has closed the read end of its pipe. -/
@[irreducible]
def FdState.unread : FdState := FdState.piped.call (.close 1 3)

end FrostByte
