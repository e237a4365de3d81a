import FrostByte.Fd.Safety

/-!
# What descriptor calls do to pipes

The descriptor and process calls touch pipes and their wait queues in four ways only: they close an
end, make a pipe, free a pipe at which nobody waits, and take a process off its queue. A property of
pipes and queues that these four keep is kept by every call.

## Main definitions

* `PipeStable` — such a property.

## Main results

* `PipeStable.call` — every call keeps it.
-/

namespace FrostByte

open Function FdState

/-- A property of the pipes and their queues, kept by what descriptor and process calls do to
them. -/
structure PipeStable (P : FdState → Prop) : Prop where
  congr : ∀ {s s' : FdState}, P s → s'.pipes = s.pipes → s'.queues = s.queues → P s'
  closePipe : ∀ {s : FdState}, P s → ∀ id e, P (closePipe id e s)
  newPipe : ∀ {s : FdState}, P s → P s.newPipe
  freePipe : ∀ {s : FdState} {id : ℕ}, P s → s.queues (id, .write) = [] → P (s.freePipe id)
  unlinkWaiting : ∀ {s : FdState}, P s → ∀ p, P (unlinkWaiting p s)

namespace PipeStable

variable {P : FdState → Prop} (hP : PipeStable P) {s : FdState} (h : P s)

include hP h

lemma setFile (i : ℕ) (f : OpenFile) : P (s.setFile i f) := hP.congr h rfl rfl

lemma setProc (p : ℕ) (x : Process) : P (s.setProc p x) := hP.congr h rfl rfl

lemma setFd (p fd : ℕ) (v : ℤ) : P (s.setFd p fd v) := hP.congr h rfl rfl

lemma newNode (k : NodeKind) : P (s.newNode k) := hP.congr h rfl rfl

lemma vfsClose (n : ℕ) : P (vfsClose n s) := by
  have hcloses : P { s with closes := update s.closes n (s.closes n + 1) } := hP.congr h rfl rfl
  unfold FrostByte.vfsClose
  dsimp only
  split
  · exact hP.closePipe hcloses _ _
  · exact hcloses

lemma ofDrop (idx : ℤ) : P (ofDrop idx s) := by
  unfold FrostByte.ofDrop
  dsimp only
  split
  · exact h
  split
  · exact h
  split
  · split
    · exact hP.setFile (hP.vfsClose (hP.setFile h _ _) _) _ _
    · exact hP.setFile h _ _
  · exact h

lemma closeEntry (p fd : ℕ) : P (closeEntry p s fd) := by
  unfold FrostByte.closeEntry
  dsimp only
  split_ifs
  · exact hP.ofDrop (hP.setFd h p fd (-1)) _
  · exact h

lemma fdClose (c : ℕ) (fd : ℤ) : P (fdClose c fd s) := by
  unfold FrostByte.fdClose
  split_ifs
  · exact hP.closeEntry h c _
  · exact h

lemma fdAlloc (c n flags append : ℕ) : P (fdAlloc c n flags append s).2 := by
  unfold FrostByte.fdAlloc FrostByte.ofAlloc
  cases (List.range maxOpenFiles).find? fun i => (s.files i).node.isNone with
  | none => exact hP.vfsClose h n
  | some i =>
    have hfile := hP.setFile h i ⟨some n, 0, flags, 1, append⟩
    dsimp only
    split
    · exact hP.ofDrop hfile i
    · exact hP.setFd hfile _ _ _

lemma ofRetain (idx : ℤ) : P (ofRetain idx s) := by
  unfold FrostByte.ofRetain
  split_ifs
  · exact hP.setFile h _ _
  · exact h

lemma processDestroy (p : ℕ) : P (processDestroy p s) := by
  have hclosed : P (fdCloseAllFor p (FrostByte.unlinkWaiting p s)) :=
    List.foldlRecOn _ _ (hP.unlinkWaiting h p) fun _ hs fd _ => hP.closeEntry hs p fd
  unfold FrostByte.processDestroy
  split_ifs
  · exact h
  · unfold unlinkChild
    split
    · exact hP.setProc hclosed _ _
    · exact hP.setProc (hP.setProc hclosed _ _) _ _

lemma processReapZombies (c : ℕ) : P (processReapZombies c s) := by
  refine List.foldlRecOn _ _ h fun s hs i _ => ?_
  unfold reapZombie
  split_ifs
  · exact hP.processDestroy hs i
  · exact hs

lemma fdInitProcessStdio (p : ℕ) (tty : Bool) : P (fdInitProcessStdio p tty s) := by
  unfold FrostByte.fdInitProcessStdio
  dsimp only
  generalize hx : ({ s.procs p with fdTable := _ } : Process) = x
  have hproc := hP.setProc h p x
  split
  · exact hproc
  have hnode := hP.newNode hproc .file
  unfold FrostByte.ofAlloc
  cases (List.range maxOpenFiles).find? fun i =>
      (((s.setProc p x).newNode .file).files i).node.isNone with
  | none => exact hP.vfsClose hnode _
  | some i =>
    have hfile :=
      hP.setFile hnode i ⟨some (s.setProc p x).nextNode, 0, vfsFlagRead + vfsFlagWrite, 1, 0⟩
    exact hP.setFd (hP.setFd (hP.setFd (hP.setFile hfile _ _) _ _ _) _ _ _) _ _ _

lemma processCreate (c : ℕ) (userMode memory tty : Bool) :
    P (processCreate c userMode memory tty s).2 := by
  have hreaped := hP.processReapZombies h c
  unfold FrostByte.processCreate
  dsimp only
  generalize FrostByte.processReapZombies c s = t at hreaped ⊢
  split
  · exact hreaped
  split
  · exact hP.setProc hreaped _ _
  have hborn := fun p x q y => hP.setProc (hP.setProc hreaped p x) q y
  split
  · exact hP.setProc (hP.fdInitProcessStdio (hborn _ _ _ _) _ tty) _ _
  · exact hP.setProc (hborn _ _ _ _) _ _

lemma processExit (c : ℕ) : P (processExit c s) := by
  have hchildren : ∀ (init : Option ℕ) (l : List ℕ),
      P (l.foldl (reparent init) (s.setProc c { s.procs c with children := [] })) := by
    intro init l
    refine List.foldlRecOn l _ (hP.setProc h _ _) fun t ht child _ => ?_
    cases init with
    | none => exact hP.setProc ht _ _
    | some i => exact hP.setProc (hP.setProc ht _ _) _ _
  unfold FrostByte.processExit
  split
  · exact h
  dsimp only
  have hzombie := fun x => hP.setProc (hchildren (processGetByPid 1 s) (s.procs c).children) c x
  split
  · exact hzombie _
  · unfold processWake
    split
    · exact hP.setProc (hzombie _) _ _
    · exact hzombie _

lemma reapChild (c : ℕ) (which : ℕ → Bool) : P (reapChild c which s).2 := by
  unfold FrostByte.reapChild
  split
  · exact h
  · exact hP.processDestroy h _

lemma discardNode : P (discardNode s) := hP.vfsClose (hP.newNode h .file) _

lemma fdDup (c : ℕ) (fd : ℤ) : P (fdDup c fd s).2 := by
  unfold FrostByte.fdDup
  dsimp only
  split
  · split
    · exact h
    · split
      · exact h
      · exact hP.ofRetain (hP.setFd h _ _ _) _
  · exact h

lemma fdDup2 (c : ℕ) (oldfd newfd : ℤ) : P (fdDup2 c oldfd newfd s).2 := by
  unfold FrostByte.fdDup2
  dsimp only
  split
  · split
    · exact h
    · split
      · exact h
      · split
        · exact hP.ofRetain (hP.setFd (hP.fdClose h c newfd) _ _ _) _
        · exact hP.ofRetain (hP.setFd h _ _ _) _
  · exact h

lemma sysOpen (c flags : ℕ) (opened : Bool) : P (sysOpen c flags opened s).2 := by
  unfold FrostByte.sysOpen
  split
  · exact h
  · exact hP.fdAlloc (hP.newNode h _) _ _ _ _

lemma sysCreat (c : ℕ) (outcome : CreatOutcome) : P (sysCreat c outcome s).2 := by
  have hparent := hP.newNode h .file
  unfold FrostByte.sysCreat
  cases outcome with
  | failed => exact h
  | notFound => exact hP.vfsClose hparent _
  | notOpened => exact hP.vfsClose (hP.discardNode hparent) _
  | opened =>
    have hchild := hP.fdAlloc (hP.newNode hparent .file) c
      (s.newNode .file).nextNode 1 0
    refine hP.vfsClose ?_ _
    dsimp only
    split
    · exact hP.vfsClose hchild _
    · exact hchild

lemma sysSocket (c : ℕ) (socket node : Bool) : P (sysSocket c socket node s).2 := by
  have halloc := hP.fdAlloc (hP.newNode h .file) c s.nextNode 2 0
  unfold FrostByte.sysSocket
  split
  · exact h
  · dsimp only
    split
    · exact hP.vfsClose halloc _
    · exact halloc

lemma sysFork (c : ℕ) (memory tty clone : Bool) : P (sysFork c memory tty clone s).2 := by
  have hcreate := hP.processCreate h c true memory tty
  unfold FrostByte.sysFork
  generalize FrostByte.processCreate c true memory tty s = r at hcreate ⊢
  obtain ⟨_ | p, t⟩ := r
  · exact hcreate
  · dsimp only
    split
    · exact hP.processDestroy hcreate p
    · refine List.foldlRecOn _ _ hcreate fun t ht fd _ => ?_
      exact hP.ofRetain (hP.setFd ht _ _ _) _

omit h in
/-- Beside such a property one may keep that nobody waits to write to one pipe. -/
lemma nobody (id : ℕ) :
    PipeStable fun s => P s ∧ s.queues (id, .write) = [] where
  congr h hp hq := ⟨hP.congr h.1 hp hq, by rw [hq]; exact h.2⟩
  closePipe {s} h id' e := by
    refine ⟨hP.closePipe h.1 id' e, ?_⟩
    unfold FrostByte.closePipe
    split
    · exact h.2
    · simp only [waitQueueWakeAll, update_apply]
      split_ifs
      · rfl
      · exact h.2
  newPipe {s} h := by
    refine ⟨hP.newPipe h.1, ?_⟩
    simp only [FdState.newPipe, update_apply]
    split_ifs
    · rfl
    · rfl
    · exact h.2
  freePipe h hid := ⟨hP.freePipe h.1 hid, h.2⟩
  unlinkWaiting {s} h p := by
    refine ⟨hP.unlinkWaiting h.1 p, ?_⟩
    unfold FrostByte.unlinkWaiting
    split
    · exact h.2
    · simp only [update_apply]
      split_ifs with hq
      · rw [← hq, h.2]
        rfl
      · exact h.2

lemma fdPipe (c : ℕ) (m : PipeMemory) : P (fdPipe c m s).2 := by
  -- nobody waits at the new pipe, so it may be freed on each failure
  have hQ := hP.nobody s.nextPipe
  have hnew : P s.newPipe ∧ s.newPipe.queues (s.nextPipe, .write) = [] :=
    ⟨hP.newPipe h, update_self _ _ _⟩
  unfold FrostByte.fdPipe
  dsimp only
  split
  · exact h
  split
  · have hread : ∀ b : Bool, ∀ t : FdState, (P t ∧ t.queues (s.nextPipe, .write) = []) →
        P (if b then FrostByte.discardNode t else t) ∧
          (if b then FrostByte.discardNode t else t).queues (s.nextPipe, .write) = [] := by
      intro b t ht
      cases b with
      | false => exact ht
      | true => exact hQ.discardNode ht
    have hboth := hread m.writeNode _ (hread m.readNode _ hnew)
    exact hP.freePipe hboth.1 hboth.2
  have hnodes := hQ.newNode (hQ.newNode hnew (.pipe s.nextPipe .read)) (.pipe s.nextPipe .write)
  have hread := hQ.fdAlloc hnodes c s.newPipe.nextNode vfsFlagRead 0
  split
  · have hclosed := hQ.vfsClose (hQ.vfsClose hread s.newPipe.nextNode)
      (s.newPipe.newNode (.pipe s.nextPipe .read)).nextNode
    exact hP.freePipe hclosed.1 hclosed.2
  · have hwrite := hQ.fdAlloc hread c (s.newPipe.newNode (.pipe s.nextPipe .read)).nextNode
      vfsFlagWrite 0
    split
    · have hclosed := fun fd => hQ.vfsClose (hQ.fdClose hwrite c fd)
        (s.newPipe.newNode (.pipe s.nextPipe .read)).nextNode
      exact hP.freePipe (hclosed _).1 (hclosed _).2
    · exact hwrite.1

lemma sysPipe (c : ℕ) (m : PipeMemory) (writable copied : Bool) :
    P (sysPipe c m writable copied s).2 := by
  have hpipe := hP.fdPipe h c m
  unfold FrostByte.sysPipe
  split
  · exact h
  generalize FrostByte.fdPipe c m s = r at hpipe ⊢
  obtain ⟨_ | ⟨readFd, writeFd⟩, t⟩ := r
  · exact hpipe
  · dsimp only
    split
    · exact hpipe
    · exact hP.fdClose (hP.fdClose hpipe c readFd) c writeFd

/-- **Every descriptor or process call** keeps such a property. -/
lemma call (op : FdOp) : P (s.call op) := by
  cases op with
  | spawn userMode memory tty => exact hP.processCreate h 0 userMode memory tty
  | openFile c flags opened => exact hP.sysOpen h c flags opened
  | creat c outcome => exact hP.sysCreat h c outcome
  | pipe c m writable copied => exact hP.sysPipe h c m writable copied
  | socket c sock node => exact hP.sysSocket h c sock node
  | dup c fd => exact hP.fdDup h c fd
  | dup2 c oldfd newfd => exact hP.fdDup2 h c oldfd newfd
  | close c fd => exact hP.fdClose h c fd
  | fork c memory tty clone => exact hP.sysFork h c memory tty clone
  | exit c => exact hP.processExit h c
  | wait c => exact hP.reapChild h c _
  | waitpid c pid => exact hP.reapChild h c _
  | reap c => exact hP.processReapZombies h c

end PipeStable

end FrostByte
