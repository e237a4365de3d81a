import FrostByte.Fd.Pipe

/-!
# Open files, descriptors and processes

The open-file table of `fd.c`, the descriptor table of each process, and the parts of `process.c`
and `syscall.c` that create, copy and release descriptors. `closes` counts how often a node was
closed; the answers of the allocator and of the file systems are inputs of the calls.

## Main definitions

* `FdState` — open files, processes, nodes, pipes and wait queues.
* `fdAlloc`, `fdClose`, `fdDup2`, `fdPipe` — the functions of `fd.c`.
* `processCreate`, `processExit`, `sysFork`, `sysWait` — the life of a process.
* `sysOpen`, `sysCreat`, `sysPipe`, `sysSocket` — the calls that make a descriptor.
-/

namespace FrostByte

open Function

/-- `MAX_OPEN_FILES`. -/
def maxOpenFiles : ℕ := 256

/-- The entries of `fd_table`. -/
def fdTableSize : ℕ := 16

/-- `MAX_PROCESSES`. -/
def maxProcesses : ℕ := 64

/-- `VFS_FLAG_READ`. -/
def vfsFlagRead : ℕ := 1

/-- `VFS_FLAG_WRITE`. -/
def vfsFlagWrite : ℕ := 2

/-- `vfs_file_t`; a slot is free when its node is `NULL`. -/
structure OpenFile where
  node : Option ℕ
  offset : ℕ
  flags : ℕ
  refCount : ℕ
  append : ℕ

/-- What a node is, as far as descriptors depend on it. -/
inductive NodeKind
  /-- `pipe_ops`, on one end of a pipe. -/
  | pipe (id : ℕ) (e : PipeEnd)
  /-- A file, device or socket, or a node whose operations are not set yet. -/
  | file
  deriving DecidableEq

/-- `proc_state_t`. -/
inductive ProcState
  | unused
  | embryo
  | runnable
  | running
  | sleeping
  | zombie
  deriving DecidableEq, Repr

/-- The fields of `process_t` that descriptors depend on, with the list of children. -/
structure Process where
  pid : ℕ
  state : ProcState
  parent : Option ℕ
  children : List ℕ
  fdTable : ℕ → ℤ
  waitingOn : Option (ℕ × PipeEnd)

/-- A slot of the process table that is not used. -/
def Process.zeroed : Process where
  pid := 0
  state := .unused
  parent := none
  children := []
  fdTable := fun _ => 0
  waitingOn := none

/-- The state behind the descriptors. The queues of the pipe `id` are `(id, .read)` and `(id,
.write)`. -/
structure FdState where
  files : ℕ → OpenFile
  procs : ℕ → Process
  kind : ℕ → NodeKind
  closes : ℕ → ℕ
  nextNode : ℕ
  pipes : ℕ → Option Pipe
  nextPipe : ℕ
  queues : ℕ × PipeEnd → List ℕ

namespace FdState

/-- One slot of the open-file table replaced. -/
def setFile (s : FdState) (i : ℕ) (f : OpenFile) : FdState :=
  { s with files := update s.files i f }

/-- One slot of the process table replaced. -/
def setProc (s : FdState) (p : ℕ) (x : Process) : FdState :=
  { s with procs := update s.procs p x }

/-- One entry of a descriptor table replaced. -/
def setFd (s : FdState) (p fd : ℕ) (v : ℤ) : FdState :=
  s.setProc p { s.procs p with fdTable := update (s.procs p).fdTable fd v }

/-- A node returned by `vfs_open` or `vfs_create_node`. -/
def newNode (k : NodeKind) (s : FdState) : FdState :=
  { s with kind := update s.kind s.nextNode k, nextNode := s.nextNode + 1 }

/-- A pipe returned by `pipe_alloc`, with empty queues. -/
def newPipe (s : FdState) : FdState :=
  { s with
    pipes := update s.pipes s.nextPipe (some pipeAlloc)
    nextPipe := s.nextPipe + 1
    queues := update (update s.queues (s.nextPipe, .read) []) (s.nextPipe, .write) [] }

/-- The memory of a pipe is given back. -/
def freePipe (id : ℕ) (s : FdState) : FdState := { s with pipes := update s.pipes id none }

end FdState

/-! ## Wait queues and nodes -/

/-- A process that leaves its queue; only a sleeping one becomes runnable. -/
def Process.wake (p : Process) : Process :=
  { p with waitingOn := none, state := if p.state = .sleeping then .runnable else p.state }

/-- `wait_queue_wake_all`. -/
def waitQueueWakeAll (q : ℕ × PipeEnd) (s : FdState) : FdState :=
  { s with
    queues := update s.queues q []
    procs := fun p => if p ∈ s.queues q then (s.procs p).wake else s.procs p }

/-- `wait_queue_wake_one`, the process that waits longest. -/
def waitQueueWakeOne (q : ℕ × PipeEnd) (s : FdState) : FdState :=
  match s.queues q with
  | [] => s
  | p :: rest => { s with
      queues := update s.queues q rest
      procs := update s.procs p (s.procs p).wake }

/-- The end whose waiters a close wakes. -/
def PipeEnd.other : PipeEnd → PipeEnd
  | .read => .write
  | .write => .read

/-- `pipe_close` of one end, which wakes those at the other end. -/
def closePipe (id : ℕ) (e : PipeEnd) (s : FdState) : FdState :=
  match s.pipes id with
  | none => s
  | some p =>
    let s := waitQueueWakeAll (id, e.other) s
    { s with pipes := update s.pipes id (pipeClose e p) }

/-- `vfs_close`, which is `vfs_destroy_node` of the only reference. -/
def vfsClose (n : ℕ) (s : FdState) : FdState :=
  let s := { s with closes := update s.closes n (s.closes n + 1) }
  match s.kind n with
  | .pipe id e => closePipe id e s
  | .file => s

/-! ## Open files -/

/-- `of_alloc`: the first slot without a node. -/
def ofAlloc (n flags append : ℕ) (s : FdState) : Option ℕ × FdState :=
  match (List.range maxOpenFiles).find? fun i => (s.files i).node.isNone with
  | some i => (some i, s.setFile i ⟨some n, 0, flags, 1, append⟩)
  | none => (none, s)

/-- `of_drop`: the last reference closes the node. -/
def ofDrop (idx : ℤ) (s : FdState) : FdState :=
  if idx < 0 ∨ (maxOpenFiles : ℤ) ≤ idx then s
  else
    let i := idx.toNat
    match (s.files i).node with
    | none => s
    | some n =>
      if 0 < (s.files i).refCount then
        let s := s.setFile i { s.files i with refCount := (s.files i).refCount - 1 }
        if (s.files i).refCount = 0 then
          let s := vfsClose n s
          s.setFile i { s.files i with node := none }
        else s
      else s

/-- The increment of `ref_count`. -/
def ofRetain (idx : ℤ) (s : FdState) : FdState :=
  if 0 ≤ idx ∧ idx < (maxOpenFiles : ℤ) ∧ (s.files idx.toNat).node.isSome then
    s.setFile idx.toNat
      { s.files idx.toNat with refCount := (s.files idx.toNat).refCount + 1 }
  else s

/-! ## Descriptors -/

/-- `find_free_fd_slot`; descriptors 0 to 2 are never given out. -/
def findFreeFdSlot (p : Process) : Option ℕ :=
  (List.range' 3 (fdTableSize - 3)).find? fun i => p.fdTable i < 0

/-- `fd_alloc` for the current process `c`. -/
def fdAlloc (c n flags append : ℕ) (s : FdState) : ℤ × FdState :=
  match ofAlloc n flags append s with
  | (none, s) => (-1, vfsClose n s)
  | (some i, s) =>
    match findFreeFdSlot (s.procs c) with
    | none => (-1, ofDrop i s)
    | some fd => (fd, s.setFd c fd i)

/-- The number of an entry of the table. -/
def ValidFd (fd : ℤ) : Prop := 0 ≤ fd ∧ fd < (fdTableSize : ℤ)

instance (fd : ℤ) : Decidable (ValidFd fd) := inferInstanceAs (Decidable (_ ∧ _))

/-- `fd_get`: the slot of a descriptor of `c`, if it is in use. -/
def fdGet (c : ℕ) (fd : ℤ) (s : FdState) : Option ℕ :=
  if ValidFd fd then
    let idx := (s.procs c).fdTable fd.toNat
    if 0 ≤ idx ∧ idx < (maxOpenFiles : ℤ) ∧ (s.files idx.toNat).node.isSome then some idx.toNat
    else none
  else none

/-- The body of `fd_close` and of the loop of `fd_close_all_for`. -/
def closeEntry (p : ℕ) (s : FdState) (fd : ℕ) : FdState :=
  let idx := (s.procs p).fdTable fd
  if 0 ≤ idx then ofDrop idx (s.setFd p fd (-1)) else s

/-- `fd_close`. -/
def fdClose (c : ℕ) (fd : ℤ) (s : FdState) : FdState :=
  if ValidFd fd then closeEntry c s fd.toNat else s

/-- `fd_close_all_for`. -/
def fdCloseAllFor (p : ℕ) (s : FdState) : FdState :=
  (List.range fdTableSize).foldl (closeEntry p) s

/-- `fd_init_process_stdio`; `tty` says whether `/dev/tty0` opens. -/
def fdInitProcessStdio (p : ℕ) (tty : Bool) (s : FdState) : FdState :=
  let table := fun i => if (s.procs p).fdTable i ≠ -1 ∧ (s.procs p).fdTable i < maxOpenFiles
    then (s.procs p).fdTable i else -1
  let s := s.setProc p { s.procs p with fdTable := table }
  if tty = false then s
  else
    let n := s.nextNode
    match ofAlloc n (vfsFlagRead + vfsFlagWrite) 0 (s.newNode .file) with
    | (none, s) => vfsClose n s
    | (some i, s) =>
      let s := s.setFile i { s.files i with refCount := 3 }
      ((s.setFd p 0 i).setFd p 1 i).setFd p 2 i

/-- The body of the loop of `fd_copy_on_fork`. -/
def copyEntry (parent child : ℕ) (s : FdState) (fd : ℕ) : FdState :=
  let idx := (s.procs parent).fdTable fd
  ofRetain idx (s.setFd child fd idx)

/-- `fd_copy_on_fork`. -/
def fdCopyOnFork (parent child : ℕ) (s : FdState) : FdState :=
  (List.range fdTableSize).foldl (copyEntry parent child) s

/-- `fd_dup`. -/
def fdDup (c : ℕ) (oldfd : ℤ) (s : FdState) : ℤ × FdState :=
  if ValidFd oldfd then
    let idx := (s.procs c).fdTable oldfd.toNat
    if idx < 0 then (-1, s)
    else
      match findFreeFdSlot (s.procs c) with
      | none => (-1, s)
      | some newfd => (newfd, ofRetain idx (s.setFd c newfd idx))
  else (-1, s)

/-- `fd_dup2`; the answer is the new descriptor. -/
def fdDup2 (c : ℕ) (oldfd newfd : ℤ) (s : FdState) : ℤ × FdState :=
  if ValidFd oldfd ∧ ValidFd newfd then
    let idx := (s.procs c).fdTable oldfd.toNat
    if idx < 0 then (-1, s)
    else if oldfd = newfd then (newfd, s)
    else
      let s := if 0 ≤ (s.procs c).fdTable newfd.toNat then fdClose c newfd s else s
      (newfd, ofRetain idx (s.setFd c newfd.toNat idx))
  else (-1, s)

/-- Which allocations of `fd_pipe` succeed. -/
structure PipeMemory where
  pipe : Bool
  readNode : Bool
  writeNode : Bool

/-- A node without operations, created and destroyed. -/
def discardNode (s : FdState) : FdState := vfsClose s.nextNode (s.newNode .file)

/-- `fd_pipe`: the two descriptors, or `none` for `-1`. -/
def fdPipe (c : ℕ) (m : PipeMemory) (s : FdState) : Option (ℤ × ℤ) × FdState :=
  if m.pipe = false then (none, s)
  else
    let id := s.nextPipe
    let s := s.newPipe
    if m.readNode = false ∨ m.writeNode = false then
      let s := if m.readNode then discardNode s else s
      let s := if m.writeNode then discardNode s else s
      (none, s.freePipe id)
    else
      let readNode := s.nextNode
      let s := s.newNode (.pipe id .read)
      let writeNode := s.nextNode
      let s := s.newNode (.pipe id .write)
      match fdAlloc c readNode vfsFlagRead 0 s with
      | (readFd, s) =>
        if readFd < 0 then (none, (vfsClose writeNode (vfsClose readNode s)).freePipe id)
        else
          match fdAlloc c writeNode vfsFlagWrite 0 s with
          | (writeFd, s) =>
            if writeFd < 0 then
              (none, (vfsClose writeNode (fdClose c readFd s)).freePipe id)
            else (some (readFd, writeFd), s)

/-! ## Processes -/

/-- `process_get_by_pid`. -/
def processGetByPid (pid : ℕ) (s : FdState) : Option ℕ :=
  if maxProcesses ≤ pid then none
  else (List.range maxProcesses).find? fun i =>
    (s.procs i).state ≠ .unused ∧ (s.procs i).pid = pid

/-- `process_get_next_pid`: the smallest one that is not in use. -/
def processGetNextPid (s : FdState) : ℕ :=
  ((List.range' 1 (maxProcesses - 1)).find? fun pid => (processGetByPid pid s).isNone).getD 1

/-- Take a process off the queue it is linked in. -/
def unlinkWaiting (p : ℕ) (s : FdState) : FdState :=
  match (s.procs p).waitingOn with
  | none => s
  | some q => { s with
      queues := update s.queues q ((s.queues q).erase p)
      procs := update s.procs p { s.procs p with waitingOn := none } }

/-- Take a process off the list of its parent. -/
def unlinkChild (p : ℕ) (s : FdState) : FdState :=
  match (s.procs p).parent with
  | none => s
  | some q => s.setProc q { s.procs q with children := (s.procs q).children.erase p }

/-- `process_destroy`, as far as descriptors and queues go. -/
def processDestroy (p : ℕ) (s : FdState) : FdState :=
  if (s.procs p).state = .unused then s
  else (unlinkChild p (fdCloseAllFor p (unlinkWaiting p s))).setProc p Process.zeroed

/-- The test of `process_reap_zombies` on the parent of a zombie. -/
def orphaned (s : FdState) (p : ℕ) : Bool :=
  match (s.procs p).parent with
  | none => true
  | some q => (s.procs q).state = .unused

/-- Destroy a zombie without a parent, unless it is the current process. -/
def reapZombie (c : ℕ) (s : FdState) (i : ℕ) : FdState :=
  if (s.procs i).state = .zombie ∧ i ≠ c ∧ orphaned s i then processDestroy i s else s

/-- `process_reap_zombies`, with `c` the current process. -/
def processReapZombies (c : ℕ) (s : FdState) : FdState :=
  (List.range maxProcesses).foldl (reapZombie c) s

/-- `process_create` by `c`; `memory` and `tty` say whether memory is found and `/dev/tty0`
opens. -/
def processCreate (c : ℕ) (userMode memory tty : Bool) (s : FdState) : Option ℕ × FdState :=
  let s := processReapZombies c s
  match (List.range' 1 (maxProcesses - 1)).find? fun i => (s.procs i).state = .unused with
  | none => (none, s)
  | some p =>
    let new := { Process.zeroed with pid := processGetNextPid s }
    if memory = false then (none, s.setProc p new)
    else
      let s := s.setProc p { new with
        state := .embryo, parent := some c, fdTable := fun _ => -1 }
      let s := s.setProc c { s.procs c with children := p :: (s.procs c).children }
      let s := if userMode then fdInitProcessStdio p tty s else s
      (some p, s.setProc p { s.procs p with state := .runnable })

/-- Give a child to the init process, if there is one. -/
def reparent (init : Option ℕ) (s : FdState) (child : ℕ) : FdState :=
  let s := s.setProc child { s.procs child with parent := init }
  match init with
  | none => s
  | some i => s.setProc i { s.procs i with children := child :: (s.procs i).children }

/-- `process_wake`; the process stays in its queue. -/
def processWake (p : ℕ) (s : FdState) : FdState :=
  if (s.procs p).state = .sleeping then s.setProc p { s.procs p with state := .runnable } else s

/-- `process_exit` of the current process `c`. -/
def processExit (c : ℕ) (s : FdState) : FdState :=
  if (s.procs c).pid = 0 then s
  else
    let init := processGetByPid 1 s
    let children := (s.procs c).children
    let s := s.setProc c { s.procs c with children := [] }
    let s := children.foldl (reparent init) s
    let s := s.setProc c { s.procs c with state := .zombie }
    match (s.procs c).parent with
    | none => s
    | some q => processWake q s

/-! ## System calls -/

/-- `sys_open`; `opened` says whether the path opens, created or not. -/
def sysOpen (c : ℕ) (flags : ℕ) (opened : Bool) (s : FdState) : ℤ × FdState :=
  if opened = false then (-1, s)
  else
    let vfsFlags := match flags % 4 with
      | 0 => vfsFlagRead
      | 1 => vfsFlagWrite
      | 2 => vfsFlagRead + vfsFlagWrite
      | _ => 0
    let append := if flags.testBit 10 then 1 else 0
    fdAlloc c s.nextNode vfsFlags append (s.newNode .file)

/-- How far `sys_creat` gets with the file system. -/
inductive CreatOutcome
  /-- The file is not created, or its parent does not open. -/
  | failed
  /-- The new file is not found in its parent. -/
  | notFound
  /-- The new file does not open for writing. -/
  | notOpened
  /-- The new file is open. -/
  | opened
  deriving DecidableEq

/-- `sys_creat`: the node of the parent is made and closed on the way. -/
def sysCreat (c : ℕ) (outcome : CreatOutcome) (s : FdState) : ℤ × FdState :=
  if outcome = .failed then (-1, s)
  else
    let parent := s.nextNode
    let s := s.newNode .file
    let r : ℤ × FdState := match outcome with
      | .failed | .notFound => (-1, s)
      | .notOpened => (-1, discardNode s)
      | .opened =>
        let child := s.nextNode
        let r := fdAlloc c child 1 0 (s.newNode .file)
        if r.1 < 0 then (r.1, vfsClose child r.2) else r
    (r.1, vfsClose parent r.2)

/-- `sys_pipe`; the pointer is valid if `writable`, and `copied` says whether the copy succeeds. -/
def sysPipe (c : ℕ) (m : PipeMemory) (writable copied : Bool) (s : FdState) : ℤ × FdState :=
  if writable = false then (-1, s)
  else
    match fdPipe c m s with
    | (none, s) => (-1, s)
    | (some (readFd, writeFd), s) =>
      if copied then (0, s) else (-1, fdClose c writeFd (fdClose c readFd s))

/-- `sys_socket`; `socket` and `node` say what can be allocated. Errors are `-1` here. -/
def sysSocket (c : ℕ) (socket node : Bool) (s : FdState) : ℤ × FdState :=
  if socket = false ∨ node = false then (-1, s)
  else
    let n := s.nextNode
    let r := fdAlloc c n 2 0 (s.newNode .file)
    if r.1 < 0 then (-1, vfsClose n r.2) else r

/-- `sys_fork`; `clone` says whether the address space is copied. -/
def sysFork (c : ℕ) (memory tty clone : Bool) (s : FdState) : ℤ × FdState :=
  match processCreate c true memory tty s with
  | (none, s) => (-1, s)
  | (some p, s) =>
    if clone = false then (-1, processDestroy p s)
    else
      let s := fdCopyOnFork c p s
      ((s.procs p).pid, s)

/-- Reap a zombie child of `c` with a property, if there is one. -/
def reapChild (c : ℕ) (which : ℕ → Bool) (s : FdState) : Option ℤ × FdState :=
  match (s.procs c).children.find? fun q => which (s.procs q).pid ∧ (s.procs q).state = .zombie with
  | none => (none, s)
  | some q => (some (s.procs q).pid, processDestroy q s)

/-- One scan of `sys_wait`. -/
def sysWait (c : ℕ) (s : FdState) : Option ℤ × FdState := reapChild c (fun _ => true) s

/-- One scan of `sys_waitpid`. -/
def sysWaitpid (c : ℕ) (pid : ℤ) (s : FdState) : Option ℤ × FdState :=
  reapChild c (fun p => pid = -1 ∨ pid = p) s

/-- The state after boot: the kernel process alone. -/
def FdState.boot : FdState where
  files := fun _ => ⟨none, 0, 0, 0, 0⟩
  procs := update (fun _ => Process.zeroed) 0 { Process.zeroed with state := .running }
  kind := fun _ => .file
  closes := fun _ => 0
  nextNode := 0
  pipes := fun _ => none
  nextPipe := 0
  queues := fun _ => []

end FrostByte
