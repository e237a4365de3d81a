import FrostByte.Fd.Model

/-!
# Reading and writing descriptors

`sys_read` and `sys_write` over the descriptor tables. What lies below them is an environment. A
call that has to wait joins the wait queue of its pipe and returns `blocked`; when the process is
woken it makes the same call again.

## Main definitions

* `IoEnv`, `IoState` — what lies below the calls, and its state beside the descriptors.
* `sysRead`, `sysWrite` — the two system calls.
* `IoStable` — a property that the steps of these calls keep.

## Main results

* `IoStable.sysRead`, `IoStable.sysWrite` — so the calls keep it.
-/

namespace FrostByte

open Function Word

/-- What a call comes to: it returns, or its process waits. -/
inductive IoResult
  | done (r : ℤ)
  | blocked
  deriving DecidableEq

/-- What reads and writes rest on, acting on a world `W`. -/
structure IoEnv (W : Type*) where
  /-- `user_range_ok(ptr, size, write)`. -/
  userRangeOk : ℕ → ℕ → Bool → W → Bool
  /-- `copy_from_user`: the bytes, or `none` when it fails. -/
  copyFromUser : ℕ → ℕ → W → Option (List ℕ)
  /-- `copy_to_user`: whether it succeeds. -/
  copyToUser : ℕ → List ℕ → W → Bool × W
  /-- `kmalloc`: whether a block of the size is found. -/
  kmalloc : ℕ → W → Bool × W
  /-- `kfree` of the last block of `kmalloc`. -/
  kfree : W → W
  /-- `vfs_read` of a node that is not a pipe: the result and the bytes stored. -/
  vfsRead : ℕ → ℕ → ℕ → W → (ℤ × List ℕ) × W
  /-- `vfs_write` of a node that is not a pipe. -/
  vfsWrite : ℕ → ℕ → List ℕ → W → ℤ × W
  /-- `vfs_get_size`. -/
  vfsGetSize : ℕ → W → ℤ
  /-- Whether a node is a device with a driver that is not for storage. -/
  streamDevice : ℕ → W → Bool
  /-- Reading the controlling terminal of a process. -/
  ttyRead : ℕ → ℕ → ℕ → W → IoResult × W
  /-- Writing to the controlling terminal of a process, and to the console when it has none. -/
  ttyWrite : ℕ → ℕ → ℕ → W → ℤ × W

/-- The descriptors and the state of everything below them. -/
structure IoState (W : Type*) where
  fds : FdState
  world : W

variable {W : Type*}

/-- `EAGAIN`. -/
def eagain : ℤ := 11

/-- The test of `O_NONBLOCK` in the flags of an open file. -/
def nonblocking (f : OpenFile) : Bool := f.flags.testBit 11

/-- `fd_pipe_can_read`: bytes, or nobody who could write. -/
def fdPipeCanRead (id : ℕ) (s : FdState) : Bool :=
  match s.pipes id with
  | none => false
  | some p => 0 < p.count || !p.writeEndOpen

/-- `fd_pipe_can_write`; a pipe without readers cannot be written. -/
def fdPipeCanWrite (id : ℕ) (s : FdState) : Bool :=
  match s.pipes id with
  | none => false
  | some p => if p.readEndOpen = false then false else p.count < pipeBufSize

/-- `process_wait_on`, for a process that is not linked in a queue. -/
def processWaitOn (c : ℕ) (q : ℕ × PipeEnd) (s : FdState) : FdState :=
  { s with
    queues := update s.queues q (c :: s.queues q)
    procs := update s.procs c { s.procs c with waitingOn := some q, state := .sleeping } }

/-- A pipe after a transfer of `r` bytes, which wakes one process at `e`. -/
def pipeMoved (id : ℕ) (e : PipeEnd) (p : Pipe) (r : ℤ) (s : FdState) : FdState :=
  let s := { s with pipes := update s.pipes id (some p) }
  if 0 < r then waitQueueWakeOne (id, e) s else s

/-- `vfs_read`, on a pipe by `pipe_read`. -/
def vfsRead (env : IoEnv W) (n offset size : ℕ) (st : IoState W) : (ℤ × List ℕ) × IoState W :=
  match st.fds.kind n with
  | .file =>
    let r := env.vfsRead n offset size st.world
    (r.1, { st with world := r.2 })
  | .pipe id _ =>
    match st.fds.pipes id with
    | none => ((-1, []), st)
    | some p =>
      let r := pipeRead size p
      ((r.1, r.2.1), { st with fds := pipeMoved id .write r.2.2 r.1 st.fds })

/-- `vfs_write`, on a pipe by `pipe_write`. -/
def vfsWrite (env : IoEnv W) (n offset : ℕ) (bytes : List ℕ) (st : IoState W) : ℤ × IoState W :=
  match st.fds.kind n with
  | .file =>
    let r := env.vfsWrite n offset bytes st.world
    (r.1, { st with world := r.2 })
  | .pipe id _ =>
    match st.fds.pipes id with
    | none => (-1, st)
    | some p =>
      let r := pipeWrite bytes.length (fun i => bytes.getD i 0) p
      (r.1, { st with fds := pipeMoved id .read r.2 r.1 st.fds })

/-- The offset of an open file, cut to 32 bits. -/
def IoState.setOffset (st : IoState W) (i : ℕ) (offset : ℤ) : IoState W :=
  { st with fds := st.fds.setFile i { st.fds.files i with offset := w32 offset.toNat } }

/-- The read of `sys_read` through a kernel buffer. -/
def readFile (env : IoEnv W) (i n buf count : ℕ) (st : IoState W) : ℤ × IoState W :=
  let m := env.kmalloc count st.world
  let st := { st with world := m.2 }
  if m.1 = false then (-1, st)
  else
    let r := vfsRead env n (st.fds.files i).offset count st
    let st := r.2
    if 0 < r.1.1 then
      let w := env.copyToUser buf (r.1.2.take r.1.1.toNat) st.world
      let st := { st with world := w.2 }
      if w.1 then
        let st := st.setOffset i ((st.fds.files i).offset + r.1.1)
        (r.1.1, { st with world := env.kfree st.world })
      else (-1, { st with world := env.kfree st.world })
    else (r.1.1, { st with world := env.kfree st.world })

/-- `sys_read`: descriptor 0 is the terminal, whatever it refers to. -/
def sysRead (env : IoEnv W) (c : ℕ) (fd : ℤ) (buf count : ℕ) (st : IoState W) :
    IoResult × IoState W :=
  if buf = 0 ∨ count = 0 then (.done 0, st)
  else if env.userRangeOk buf count true st.world = false then (.done (-1), st)
  else if fd = 0 then
    let r := env.ttyRead c buf count st.world
    (r.1, { st with world := r.2 })
  else
    match fdGet c fd st.fds with
    | none => (.done (-1), st)
    | some i =>
      match (st.fds.files i).node with
      | none => (.done (-1), st)
      | some n =>
        let go :=
          let r := readFile env i n buf count st
          (IoResult.done r.1, r.2)
        match st.fds.kind n with
        | .file => go
        | .pipe id _ =>
          if fdPipeCanRead id st.fds then go
          else if nonblocking (st.fds.files i) then (.done (-eagain), st)
          else (.blocked, { st with fds := processWaitOn c (id, .read) st.fds })

/-- The chunks of `sys_write`: what is written, and what remains. -/
def writeChunks (env : IoEnv W) (i n buf : ℕ) : ℕ → ℕ → ℤ → IoState W → ℤ × IoState W
  | 0, _, total, st => (total, st)
  | fuel + 1, remaining, total, st =>
    if remaining = 0 then (total, st)
    else
      let chunk := if 65536 < remaining then 65536 else remaining
      let failed : ℤ := if 0 < total then total else -1
      let m := env.kmalloc chunk st.world
      let st := { st with world := m.2 }
      if m.1 = false then (failed, st)
      else
        match env.copyFromUser (w32 (buf + total.toNat)) chunk st.world with
        | none => (failed, { st with world := env.kfree st.world })
        | some bytes =>
          let r := vfsWrite env n (st.fds.files i).offset bytes st
          let st := { r.2 with world := env.kfree r.2.world }
          if r.1 ≤ 0 then (if r.1 < 0 ∧ total = 0 then r.1 else total, st)
          else
            let st := st.setOffset i ((st.fds.files i).offset + r.1)
            if r.1 < chunk then (total + r.1, st)
            else writeChunks env i n buf fuel (sub32 remaining r.1.toNat) (total + r.1) st

/-- `sys_write`, in chunks through a buffer of the kernel. -/
def sysWrite (env : IoEnv W) (c : ℕ) (fd : ℤ) (buf count : ℕ) (st : IoState W) :
    IoResult × IoState W :=
  if buf = 0 ∨ count = 0 then (.done 0, st)
  else if env.userRangeOk buf count false st.world = false then (.done (-1), st)
  else
    match fdGet c fd st.fds with
    | none =>
      if fd = 1 ∨ fd = 2 then
        let r := env.ttyWrite c buf count st.world
        (.done (if r.1 < 0 then r.1 else count), { st with world := r.2 })
      else (.done (-1), st)
    | some i =>
      match (st.fds.files i).node with
      | none => (.done (-1), st)
      | some n =>
        -- with `O_APPEND` the write starts at the end of the file
        let st := if (st.fds.files i).append ≠ 0 ∧ 0 ≤ env.vfsGetSize n st.world then
          st.setOffset i (env.vfsGetSize n st.world) else st
        let go :=
          let r := writeChunks env i n buf (count + 1) count 0 st
          let st := if env.streamDevice n r.2.world then r.2.setOffset i 0 else r.2
          (IoResult.done r.1, st)
        match st.fds.kind n with
        | .file => go
        | .pipe id _ =>
          if fdPipeCanWrite id st.fds then go
          else if nonblocking (st.fds.files i) then (.done (-eagain), st)
          else (.blocked, { st with fds := processWaitOn c (id, .write) st.fds })

/-! ## What reads and writes do to the descriptor layer -/

lemma fdGet_some {c i : ℕ} {fd : ℤ} {s : FdState} (h : fdGet c fd s = some i) :
    i < maxOpenFiles ∧ ∃ n, (s.files i).node = some n := by
  unfold fdGet at h
  dsimp only at h
  split_ifs at h with hv hidx
  cases h
  obtain ⟨h0, hlt, hsome⟩ := hidx
  exact ⟨by omega, Option.isSome_iff_exists.mp hsome⟩

lemma fdGet_table {c i : ℕ} {fd : ℤ} {s : FdState} (h : fdGet c fd s = some i) :
    (s.procs c).fdTable fd.toNat = i := by
  unfold fdGet at h
  dsimp only at h
  split_ifs at h with hv hidx
  cases h
  exact (Int.toNat_of_nonneg hidx.1).symm

/-- A property that bytes moving through a pipe and offsets leave alone. -/
structure IoStable (P : FdState → Prop) : Prop where
  moved : ∀ {s : FdState} {id : ℕ} {x p : Pipe} {e : PipeEnd} {r : ℤ}, P s → s.pipes id = some x →
    Transfer x p e r → P (pipeMoved id e p r s)
  offset : ∀ {s : FdState} {i : ℕ}, P s → i < maxOpenFiles → ∀ o : ℕ,
    P (s.setFile i { s.files i with offset := o })

namespace IoStable

variable {P : FdState → Prop} (hP : IoStable P) (env : IoEnv W) {st : IoState W} {c i : ℕ}

include hP

lemma vfsRead (h : P st.fds) (n offset size : ℕ) : P (vfsRead env n offset size st).2.fds := by
  unfold FrostByte.vfsRead
  split
  · exact h
  · split
    · exact h
    · rename_i id _ _ p hp
      exact hP.moved h hp (pipeRead_transfer size p)

lemma vfsWrite (h : P st.fds) (n offset : ℕ) (bytes : List ℕ) :
    P (vfsWrite env n offset bytes st).2.fds := by
  unfold FrostByte.vfsWrite
  split
  · exact h
  · split
    · exact h
    · rename_i id _ _ p hp
      exact hP.moved h hp (pipeWrite_transfer _ _ p)

lemma setOffset (h : P st.fds) (hi : i < maxOpenFiles) (offset : ℤ) :
    P (st.setOffset i offset).fds := hP.offset h hi _

lemma readFile (h : P st.fds) (hi : i < maxOpenFiles) (n buf count : ℕ) :
    P (readFile env i n buf count st).2.fds := by
  have hr : P (FrostByte.vfsRead env n (st.fds.files i).offset count
      ⟨st.fds, (env.kmalloc count st.world).2⟩).2.fds := by
    apply hP.vfsRead
    exact h
  unfold FrostByte.readFile
  dsimp only
  split_ifs
  · exact h
  · exact hP.offset hr hi _
  · exact hr
  · exact hr

lemma writeChunks (hi : i < maxOpenFiles) (n buf fuel remaining : ℕ) (total : ℤ) (h : P st.fds) :
    P (writeChunks env i n buf fuel remaining total st).2.fds := by
  induction fuel generalizing remaining total st with
  | zero => exact h
  | succ fuel ih =>
    unfold FrostByte.writeChunks
    dsimp only
    generalize (if 65536 < remaining then 65536 else remaining) = chunk
    split
    · exact h
    split
    · exact h
    split
    · exact h
    rename_i bytes _
    have hw : P (FrostByte.vfsWrite env n (st.fds.files i).offset bytes
        ⟨st.fds, (env.kmalloc chunk st.world).2⟩).2.fds := by
      apply hP.vfsWrite
      exact h
    split
    · exact hw
    split
    · exact hP.offset hw hi _
    · exact ih _ _ (hP.offset hw hi _)

/-- A stable property survives a read, if it survives the wait at an empty pipe. -/
lemma sysRead (h : P st.fds) (fd : ℤ) (buf count : ℕ)
    (hwait : ∀ i n id e, fdGet c fd st.fds = some i → (st.fds.files i).node = some n →
      st.fds.kind n = .pipe id e → fdPipeCanRead id st.fds = false →
      P (processWaitOn c (id, .read) st.fds)) : P (sysRead env c fd buf count st).2.fds := by
  unfold FrostByte.sysRead
  split
  · exact h
  split
  · exact h
  split
  · exact h
  cases hget : fdGet c fd st.fds with
  | none => exact h
  | some i =>
    obtain ⟨hi, n, hn⟩ := fdGet_some hget
    dsimp only
    rw [hn]
    dsimp only
    cases hkind : st.fds.kind n with
    | file => exact hP.readFile env h hi n buf count
    | pipe id e =>
      dsimp only
      split
      · exact hP.readFile env h hi n buf count
      · rename_i hcan
        split
        · exact h
        · exact hwait i n id e hget hn hkind (Bool.not_eq_true _ ▸ hcan)

/-- A stable property survives a write, if it survives the wait at a full pipe. -/
lemma sysWrite (h : P st.fds) (fd : ℤ) (buf count : ℕ)
    (hwait : ∀ i n id e (t : FdState), fdGet c fd st.fds = some i → (st.fds.files i).node = some n →
      st.fds.kind n = .pipe id e → fdPipeCanWrite id st.fds = false →
      nonblocking (st.fds.files i) = false → P t → (∃ f, t = st.fds.setFile i f) ∨ t = st.fds →
      P (processWaitOn c (id, .write) t)) :
    P (sysWrite env c fd buf count st).2.fds := by
  unfold FrostByte.sysWrite
  split
  · exact h
  split
  · exact h
  cases hget : fdGet c fd st.fds with
  | none =>
    dsimp only
    split
    · exact h
    · exact h
  | some i =>
    obtain ⟨hi, n, hn⟩ := fdGet_some hget
    dsimp only
    rw [hn]
    dsimp only
    obtain ⟨st1, hst1⟩ : ∃ t, t = if (st.fds.files i).append ≠ 0 ∧ 0 ≤ env.vfsGetSize n st.world
      then st.setOffset i (env.vfsGetSize n st.world) else st := ⟨_, rfl⟩
    rw [← hst1]
    have h1 : P st1.fds := by
      rw [hst1]
      split_ifs
      · exact hP.setOffset h hi _
      · exact h
    have hsame : (∃ f, st1.fds = st.fds.setFile i f) ∨ st1.fds = st.fds := by
      rw [hst1]
      split_ifs
      · exact .inl ⟨_, rfl⟩
      · exact .inr rfl
    have hflags : nonblocking (st1.fds.files i) = nonblocking (st.fds.files i) := by
      rw [hst1]
      split_ifs
      · simp [IoState.setOffset, FdState.setFile, nonblocking]
      · rfl
    have hkinds : st1.fds.kind = st.fds.kind ∧ st1.fds.pipes = st.fds.pipes := by
      obtain ⟨f, hf⟩ | hf := hsame
      · rw [hf]
        exact ⟨rfl, rfl⟩
      · rw [hf]
        exact ⟨rfl, rfl⟩
    have hgo : P (if env.streamDevice n
        (FrostByte.writeChunks env i n buf (count + 1) count 0 st1).2.world then
        (FrostByte.writeChunks env i n buf (count + 1) count 0 st1).2.setOffset i 0
        else (FrostByte.writeChunks env i n buf (count + 1) count 0 st1).2).fds := by
      have hw := hP.writeChunks env hi n buf (count + 1) count 0 h1
      split_ifs
      · exact hP.setOffset hw hi 0
      · exact hw
    cases hkind : st1.fds.kind n with
    | file => exact hgo
    | pipe id e =>
      dsimp only
      split
      · exact hgo
      rename_i hcan
      split
      · exact h1
      rename_i hblock
      rw [hflags, Bool.not_eq_true] at hblock
      rw [fdPipeCanWrite, hkinds.2, ← fdPipeCanWrite, Bool.not_eq_true] at hcan
      exact hwait i n id e st1.fds hget hn (by rw [← hkinds.1]; exact hkind) hcan hblock h1 hsame

end IoStable

end FrostByte
