import FrostByte.Fd.EndOfFile

/-!
# Duplicated descriptors

After `dup2(a, b)` both descriptors name one open-file slot until the owner closes or rebinds one of
them. They are interchangeable exactly when neither is 0: `sys_read` on descriptor 0 goes to the
controlling terminal.

## Main definitions

* `Fixed` — entries of a process that a step leaves alone.
* `keeping` — the runs in which nobody rebinds two descriptors.
* `Interchangeable` — calls on one give the same as on the other, in all these runs.

## Main results

* `Fixed.call` — a call changes only the entries it names.
* `dup2_interchangeable_iff` — when `dup2` makes two names for one thing.
* `dup2_stdin_reads_terminal` — descriptor 0 is not one of them.
-/

namespace FrostByte

open Function RefCount FdState

variable {W : Type*} {c p i n fd : ℕ} {D : ℕ → Prop} {idx : ℤ} {s : FdState}

/-- The process exists and has not exited. -/
def FdState.Alive (s : FdState) (c : ℕ) : Prop :=
  (s.procs c).state ≠ .unused ∧ (s.procs c).state ≠ .zombie

/-- The live process `c` has the descriptors in `D` on the slot `idx`. -/
def Fixed (c : ℕ) (D : ℕ → Prop) (idx : ℤ) (s : FdState) : Prop :=
  s.Alive c ∧ ∀ fd, D fd → (s.procs c).fdTable fd = idx

/-! ## Steps that leave the tables alone -/

section

variable (h : Fixed c D idx s)

include h

lemma Fixed.of_procs {s' : FdState} (hp : s'.procs c = s.procs c) : Fixed c D idx s' := by
  unfold Fixed FdState.Alive
  rw [hp]
  exact h

lemma Fixed.of_wake {s' : FdState}
    (hp : s'.procs c = s.procs c ∨ s'.procs c = (s.procs c).wake) : Fixed c D idx s' := by
  rcases hp with hp | hp
  · exact h.of_procs hp
  · unfold Fixed FdState.Alive
    rw [hp, ne_eq, ne_eq, Process.wake_unused, Process.wake_zombie]
    exact h

lemma Fixed.setProc {x : Process}
    (hx : p = c → (x.state ≠ .unused ∧ x.state ≠ .zombie) ∧ x.fdTable = (s.procs p).fdTable) :
    Fixed c D idx (s.setProc p x) := by
  by_cases hp : p = c
  · obtain ⟨hstate, htable⟩ := hx hp
    subst hp
    unfold Fixed FdState.Alive
    rw [setProc_self, htable]
    exact ⟨hstate, h.2⟩
  · exact h.of_procs (setProc_of_ne (Ne.symm hp) s x)

lemma Fixed.setProc_same {x : Process}
    (hstate : x.state = (s.procs p).state) (htable : x.fdTable = (s.procs p).fdTable) :
    Fixed c D idx (s.setProc p x) := by
  apply h.setProc
  rintro rfl
  rw [hstate]
  exact ⟨h.1, htable⟩

lemma Fixed.wakeAll (q : ℕ × PipeEnd) : Fixed c D idx (waitQueueWakeAll q s) := by
  apply h.of_wake
  rw [waitQueueWakeAll_procs]
  split_ifs
  · exact Or.inr rfl
  · exact Or.inl rfl

lemma Fixed.wakeOne (q : ℕ × PipeEnd) : Fixed c D idx (waitQueueWakeOne q s) := by
  cases hq : s.queues q with
  | nil =>
    rw [waitQueueWakeOne_nil hq]
    exact h
  | cons p rest =>
    rw [waitQueueWakeOne_cons hq]
    apply h.of_wake
    show update s.procs p _ c = _ ∨ update s.procs p _ c = _
    by_cases hc : c = p
    · subst hc
      rw [update_self]
      exact Or.inr rfl
    · rw [update_of_ne hc]
      exact Or.inl rfl

lemma Fixed.vfsClose (n : ℕ) : Fixed c D idx (vfsClose n s) := by
  cases hkind : s.kind n with
  | file =>
    rw [vfsClose_file hkind]
    exact h
  | pipe id e =>
    rw [vfsClose_pipe hkind]
    cases hpipe : s.pipes id with
    | none =>
      rw [closePipe_none (by exact hpipe)]
      exact h
    | some x =>
      rw [closePipe_some (by exact hpipe)]
      exact h.wakeAll (id, e.other)

lemma Fixed.ofDrop (v : ℤ) : Fixed c D idx (ofDrop v s) := by
  unfold FrostByte.ofDrop
  dsimp only
  split
  · exact h
  split
  · exact h
  split
  · split
    · exact (Fixed.vfsClose (s := s.setFile _ _) h _).of_procs rfl
    · exact h
  · exact h

lemma Fixed.ofRetain (v : ℤ) : Fixed c D idx (ofRetain v s) :=
  h.of_procs (by rw [ofRetain_procs])

/-! ## Steps on one entry -/

lemma Fixed.setFd (hfd : p = c → ¬D fd) (v : ℤ) : Fixed c D idx (s.setFd p fd v) := by
  by_cases hp : p = c
  · subst hp
    refine ⟨?_, fun j hj => ?_⟩
    · show (update s.procs p _ p).state ≠ _ ∧ (update s.procs p _ p).state ≠ _
      rw [update_self]
      exact h.1
    · show (update s.procs p _ p).fdTable j = idx
      rw [update_self]
      show update (s.procs p).fdTable fd v j = idx
      rw [update_of_ne]
      · exact h.2 j hj
      · rintro rfl
        exact hfd rfl hj
  · exact h.of_procs (setProc_of_ne (Ne.symm hp) s _)

lemma Fixed.closeEntry (hfd : p = c → ¬D fd) : Fixed c D idx (closeEntry p s fd) := by
  unfold FrostByte.closeEntry
  dsimp only
  split_ifs
  · exact (h.setFd hfd (-1)).ofDrop _
  · exact h

lemma Fixed.fdClose {v : ℤ} (hfd : p = c → ValidFd v → ¬D v.toNat) :
    Fixed c D idx (fdClose p v s) := by
  unfold FrostByte.fdClose
  split_ifs with hv
  · exact h.closeEntry fun hp => hfd hp hv
  · exact h

lemma Fixed.fdCloseAllFor (hp : p ≠ c) : Fixed c D idx (fdCloseAllFor p s) := by
  unfold FrostByte.fdCloseAllFor
  generalize List.range fdTableSize = l
  induction l generalizing s with
  | nil => exact h
  | cons a l ih => exact ih (h.closeEntry hp.elim)

lemma Fixed.free (hidx : 0 ≤ idx) (hfree : findFreeFdSlot (s.procs c) = some fd) : ¬D fd := by
  intro hD
  have hneg := (findFreeFdSlot_some hfree).2.2
  rw [h.2 fd hD] at hneg
  omega

lemma Fixed.fdAlloc (hidx : 0 ≤ idx) (p n flags append : ℕ) :
    Fixed c D idx (fdAlloc p n flags append s).2 ∧
      (p = c → ∀ fd : ℕ, (fdAlloc p n flags append s).1 = fd → ¬D fd) := by
  unfold FrostByte.fdAlloc
  cases halloc : FrostByte.ofAlloc n flags append s with
  | mk r s1 =>
    cases r with
    | none =>
      obtain ⟨rfl, -⟩ := ofAlloc_none halloc
      refine ⟨h.vfsClose n, fun _ fd hfd => ?_⟩
      dsimp only at hfd
      omega
    | some i =>
      obtain ⟨-, -, hs1⟩ := ofAlloc_some halloc
      have h1 : Fixed c D idx s1 := h.of_procs (by rw [hs1]; rfl)
      dsimp only
      cases hfree : findFreeFdSlot (s1.procs p) with
      | none =>
        refine ⟨h1.ofDrop i, fun _ fd hfd => ?_⟩
        dsimp only at hfd
        omega
      | some fd =>
        have hnot : p = c → ¬D fd := by
          rintro rfl
          exact h1.free hidx hfree
        refine ⟨h1.setFd hnot i, fun hp fd' hfd => ?_⟩
        dsimp only at hfd
        obtain rfl : fd = fd' := by exact_mod_cast hfd
        exact hnot hp

lemma Fixed.fdDup (hidx : 0 ≤ idx) (p : ℕ) (oldfd : ℤ) : Fixed c D idx (fdDup p oldfd s).2 := by
  unfold FrostByte.fdDup
  dsimp only
  split
  · split
    · exact h
    · split
      · exact h
      · rename_i newfd hfree
        refine (h.setFd ?_ _).ofRetain _
        rintro rfl
        exact h.free hidx hfree
  · exact h

lemma Fixed.fdDup2 {oldfd newfd : ℤ}
    (hfd : p = c → ValidFd newfd → oldfd ≠ newfd → ¬D newfd.toNat) :
    Fixed c D idx (fdDup2 p oldfd newfd s).2 := by
  unfold FrostByte.fdDup2
  dsimp only
  split
  · rename_i hv
    split
    · exact h
    · split
      · exact h
      · rename_i hne
        have h1 : Fixed c D idx (if 0 ≤ (s.procs p).fdTable newfd.toNat then
            FrostByte.fdClose p newfd s else s) := by
          split_ifs
          · exact h.fdClose fun hp hvn => hfd hp hvn hne
          · exact h
        exact (h1.setFd (fun hp => hfd hp hv.2 hne) _).ofRetain _
  · exact h

/-! ## Calls -/

lemma Fixed.discardNode : Fixed c D idx (discardNode s) :=
  Fixed.vfsClose (s := s.newNode .file) h _

lemma Fixed.fdPipe (hidx : 0 ≤ idx) (p : ℕ) (m : PipeMemory) : Fixed c D idx (fdPipe p m s).2 ∧
      (p = c → ∀ r w : ℤ, (fdPipe p m s).1 = some (r, w) → ∀ fd : ℕ, r = fd ∨ w = fd → ¬D fd) := by
  unfold FrostByte.fdPipe
  dsimp only
  split
  · exact ⟨h, fun _ r w hrw => by cases hrw⟩
  split
  · refine ⟨?_, fun _ r w hrw => by cases hrw⟩
    have hstep : ∀ (b : Bool) (t : FdState), Fixed c D idx t →
        Fixed c D idx (if b then FrostByte.discardNode t else t) := by
      intro b t ht
      cases b with
      | false => exact ht
      | true => exact ht.discardNode
    exact hstep m.writeNode _ (hstep m.readNode s.newPipe h)
  · obtain ⟨h1, hnew1⟩ := Fixed.fdAlloc (s := (s.newPipe.newNode (.pipe s.nextPipe .read)).newNode
      (.pipe s.nextPipe .write)) h hidx p s.newPipe.nextNode vfsFlagRead 0
    split
    · refine ⟨?_, fun _ r w hrw => by cases hrw⟩
      exact ((h1.vfsClose _).vfsClose _).of_procs rfl
    · rename_i hneg1
      obtain ⟨h2, hnew2⟩ := h1.fdAlloc hidx p
        (s.newPipe.newNode (.pipe s.nextPipe .read)).nextNode vfsFlagWrite 0
      split
      · refine ⟨?_, fun _ r w hrw => by cases hrw⟩
        refine ((h2.fdClose fun hp hv => ?_).vfsClose _).of_procs rfl
        exact hnew1 hp _ (Int.toNat_of_nonneg hv.1).symm
      · refine ⟨h2, fun hp r w hrw fd hor => ?_⟩
        cases hrw
        rcases hor with hr | hw
        · exact hnew1 hp fd hr
        · exact hnew2 hp fd hw

lemma Fixed.sysPipe (hidx : 0 ≤ idx) (p : ℕ) (m : PipeMemory)
    (writable copied : Bool) : Fixed c D idx (sysPipe p m writable copied s).2 := by
  obtain ⟨h1, hnew⟩ := h.fdPipe hidx p m
  unfold FrostByte.sysPipe
  split
  · exact h
  · generalize FrostByte.fdPipe p m s = r at h1 hnew ⊢
    obtain ⟨fds, t⟩ := r
    cases fds with
    | none => exact h1
    | some fds =>
      obtain ⟨readFd, writeFd⟩ := fds
      dsimp only
      split
      · exact h1
      · refine (h1.fdClose fun hp hv => ?_).fdClose fun hp hv => ?_
        · exact hnew hp readFd writeFd rfl _ (Or.inl (Int.toNat_of_nonneg hv.1).symm)
        · exact hnew hp readFd writeFd rfl _ (Or.inr (Int.toNat_of_nonneg hv.1).symm)

lemma Fixed.sysOpen (hidx : 0 ≤ idx) (p flags : ℕ) (opened : Bool) :
    Fixed c D idx (sysOpen p flags opened s).2 := by
  unfold FrostByte.sysOpen
  split
  · exact h
  · exact (Fixed.fdAlloc (s := s.newNode .file) h hidx p _ _ _).1

lemma Fixed.sysCreat (hidx : 0 ≤ idx) (p : ℕ) (outcome : CreatOutcome) :
    Fixed c D idx (sysCreat p outcome s).2 := by
  unfold FrostByte.sysCreat
  cases outcome with
  | failed => exact h
  | notFound => exact Fixed.vfsClose (s := s.newNode .file) h _
  | notOpened => exact (Fixed.discardNode (s := s.newNode .file) h).vfsClose _
  | opened =>
    have h1 := (Fixed.fdAlloc (s := (s.newNode .file).newNode .file) h hidx p
      (s.newNode .file).nextNode 1 0).1
    rw [if_neg (by decide)]
    dsimp only
    split_ifs
    · exact (h1.vfsClose _).vfsClose _
    · exact h1.vfsClose _

lemma Fixed.sysSocket (hidx : 0 ≤ idx) (p : ℕ) (sock node : Bool) :
    Fixed c D idx (sysSocket p sock node s).2 := by
  have h1 := (Fixed.fdAlloc (s := s.newNode .file) h hidx p s.nextNode 2 0).1
  unfold FrostByte.sysSocket
  split
  · exact h
  · dsimp only
    split_ifs
    · exact h1.vfsClose _
    · exact h1

/-! ## Processes -/

lemma Fixed.processDestroy (hp : p ≠ c) : Fixed c D idx (processDestroy p s) := by
  unfold FrostByte.processDestroy
  split_ifs
  · exact h
  · have h1 : Fixed c D idx (unlinkWaiting p s) := by
      unfold unlinkWaiting
      split
      · exact h
      · exact h.of_procs (update_of_ne (Ne.symm hp) _ _)
    have h2 := h1.fdCloseAllFor hp
    have h3 : Fixed c D idx (unlinkChild p (FrostByte.fdCloseAllFor p (unlinkWaiting p s))) := by
      unfold unlinkChild
      split
      · exact h2
      · exact h2.setProc_same rfl rfl
    exact h3.of_procs (setProc_of_ne (Ne.symm hp) _ _)

lemma Fixed.processReapZombies (q : ℕ) : Fixed c D idx (processReapZombies q s) := by
  unfold FrostByte.processReapZombies
  generalize List.range maxProcesses = l
  induction l generalizing s with
  | nil => exact h
  | cons a l ih =>
    apply ih
    unfold FrostByte.reapZombie
    split_ifs with hz
    · apply h.processDestroy
      rintro rfl
      exact h.1.2 hz.1
    · exact h

lemma Fixed.reapChild (q : ℕ) (which : ℕ → Bool) : Fixed c D idx (reapChild q which s).2 := by
  unfold FrostByte.reapChild
  cases hfind : (s.procs q).children.find? fun r =>
      which (s.procs r).pid ∧ (s.procs r).state = .zombie with
  | none => exact h
  | some r =>
    have hfound := List.find?_some hfind
    have hz := of_decide_eq_true hfound
    apply h.processDestroy
    rintro rfl
    exact h.1.2 hz.2

lemma Fixed.fdInitProcessStdio (hp : p ≠ c) (tty : Bool) :
    Fixed c D idx (fdInitProcessStdio p tty s) := by
  unfold FrostByte.fdInitProcessStdio
  dsimp only
  have h0 : ∀ x, Fixed c D idx (s.setProc p x) := fun x => h.setProc hp.elim
  generalize hdef : s.setProc p _ = t
  have ht : Fixed c D idx t := by
    rw [← hdef]
    exact h0 _
  split
  · exact ht
  · cases halloc : FrostByte.ofAlloc t.nextNode (vfsFlagRead + vfsFlagWrite) 0
      (t.newNode .file) with
    | mk r s1 =>
      cases r with
      | none =>
        obtain ⟨rfl, -⟩ := ofAlloc_none halloc
        exact Fixed.vfsClose (s := t.newNode .file) ht _
      | some i =>
        obtain ⟨-, -, hs1⟩ := ofAlloc_some halloc
        have hne : p = c → ∀ fd, ¬D fd := hp.elim
        have h1 : Fixed c D idx (s1.setFile i { s1.files i with refCount := 3 }) :=
          ht.of_procs (by rw [hs1]; rfl)
        exact ((h1.setFd (fun hpc => hne hpc 0) i).setFd (fun hpc => hne hpc 1) i).setFd
          (fun hpc => hne hpc 2) i

lemma Fixed.processCreate (q : ℕ) (userMode memory tty : Bool) :
    Fixed c D idx (processCreate q userMode memory tty s).2 ∧
      ∀ p, (processCreate q userMode memory tty s).1 = some p → p ≠ c := by
  have h1 := h.processReapZombies q
  unfold FrostByte.processCreate
  dsimp only
  generalize FrostByte.processReapZombies q s = t at h1 ⊢
  cases hfind : (List.range' 1 (maxProcesses - 1)).find? fun i => (t.procs i).state = .unused with
  | none => exact ⟨h1, fun p hp => by cases hp⟩
  | some p =>
    have hpc : p ≠ c := by
      rintro rfl
      exact h1.1.1 (processCreate_find hfind).2.2
    have hset : ∀ (t : FdState) (x : Process), Fixed c D idx t → Fixed c D idx (t.setProc p x) :=
      fun t x ht => ht.setProc hpc.elim
    dsimp only
    split
    · exact ⟨hset _ _ h1, fun r hr => by cases hr⟩
    · refine ⟨hset _ _ ?_, fun r hr => ?_⟩
      · have h2 : ∀ x, Fixed c D idx ((t.setProc p x).setProc q
            { (t.setProc p x).procs q with children := p :: ((t.setProc p x).procs q).children }) :=
          fun x => (hset t x h1).setProc_same rfl rfl
        cases userMode with
        | false => exact h2 _
        | true => exact (h2 _).fdInitProcessStdio hpc tty
      · cases hr
        exact hpc

lemma Fixed.sysFork (q : ℕ) (memory tty clone : Bool) :
    Fixed c D idx (sysFork q memory tty clone s).2 := by
  obtain ⟨h1, hnew⟩ := h.processCreate q true memory tty
  unfold FrostByte.sysFork
  generalize FrostByte.processCreate q true memory tty s = r at h1 hnew ⊢
  obtain ⟨child, t⟩ := r
  cases child with
  | none => exact h1
  | some p =>
    have hpc := hnew p rfl
    dsimp only at h1 ⊢
    split
    · exact h1.processDestroy hpc
    · unfold fdCopyOnFork
      generalize List.range fdTableSize = l
      clear hnew
      induction l generalizing t with
      | nil => exact h1
      | cons a l ih =>
        apply ih
        exact (h1.setFd hpc.elim _).ofRetain _

lemma Fixed.processWake (p : ℕ) : Fixed c D idx (processWake p s) := by
  unfold FrostByte.processWake
  split_ifs
  · refine h.setProc fun _ => ⟨⟨?_, ?_⟩, rfl⟩
    · exact ProcState.noConfusion
    · exact ProcState.noConfusion
  · exact h

lemma Fixed.reparentAll (init : Option ℕ) (l : List ℕ) :
    Fixed c D idx (l.foldl (reparent init) s) := by
  induction l generalizing s with
  | nil => exact h
  | cons q l ih =>
    apply ih
    have h1 : Fixed c D idx (s.setProc q { s.procs q with parent := init }) :=
      h.setProc_same rfl rfl
    cases init with
    | none => exact h1
    | some i => exact h1.setProc_same rfl rfl

lemma Fixed.processExit (hp : p ≠ c) : Fixed c D idx (processExit p s) := by
  unfold FrostByte.processExit
  split_ifs
  · exact h
  · dsimp only
    have h1 : Fixed c D idx (s.setProc p { s.procs p with children := [] }) :=
      h.setProc_same rfl rfl
    have h2 := h1.reparentAll (processGetByPid 1 s) (s.procs p).children
    generalize (s.procs p).children.foldl (FrostByte.reparent (processGetByPid 1 s)) _ = t at h2 ⊢
    have h3 : Fixed c D idx (t.setProc p { t.procs p with state := .zombie }) :=
      h2.setProc hp.elim
    split
    · exact h3
    · exact h3.processWake _

lemma Fixed.processWaitOn (p : ℕ) (q : ℕ × PipeEnd) : Fixed c D idx (processWaitOn p q s) := by
  have h1 : Fixed c D idx
    (s.setProc p { s.procs p with waitingOn := some q, state := .sleeping }) := by
    refine h.setProc fun _ => ⟨⟨?_, ?_⟩, rfl⟩
    · exact ProcState.noConfusion
    · exact ProcState.noConfusion
  exact h1.of_procs rfl

end

lemma ioStable_fixed : IoStable (Fixed c D idx) where
  moved {s id x p e r} h _ _ := by
    unfold pipeMoved
    split_ifs
    · exact Fixed.wakeOne (s := { s with pipes := update s.pipes id (some p) }) h _
    · exact h
  offset h _ _ := h

/-! ## Runs -/

/-- A call of `c` that closes or rebinds a descriptor in `D`, or exits. -/
def IoOp.Rebinds (c : ℕ) (D : ℕ → Prop) : IoOp → Prop
  | .fd (.close c' fd) => c' = c ∧ ValidFd fd ∧ D fd.toNat
  | .fd (.dup2 c' oldfd newfd) => c' = c ∧ ValidFd newfd ∧ oldfd ≠ newfd ∧ D newfd.toNat
  | .fd (.exit c') => c' = c
  | _ => False

lemma Fixed.fdCall (h : Fixed c D idx s) (hidx : 0 ≤ idx) {op : FdOp}
    (hop : ¬(IoOp.fd op).Rebinds c D) : Fixed c D idx (s.call op) := by
  cases op with
  | spawn userMode memory tty => exact (h.processCreate 0 userMode memory tty).1
  | openFile p flags opened => exact h.sysOpen hidx p flags opened
  | creat p outcome => exact h.sysCreat hidx p outcome
  | pipe p m writable copied => exact h.sysPipe hidx p m writable copied
  | socket p sock node => exact h.sysSocket hidx p sock node
  | dup p fd => exact h.fdDup hidx p fd
  | dup2 p oldfd newfd => exact h.fdDup2 fun hp hv hne hD => hop ⟨hp, hv, hne, hD⟩
  | close p fd => exact h.fdClose fun hp hv hD => hop ⟨hp, hv, hD⟩
  | fork p memory tty clone => exact h.sysFork p memory tty clone
  | exit p => exact h.processExit hop
  | wait p => exact h.reapChild p _
  | waitpid p pid => exact h.reapChild p _
  | reap p => exact h.processReapZombies p

variable {a b : ℤ} {env : IoEnv W} {st : IoState W}

/-- A call that does not rebind the entries leaves them alone, whatever other processes do. -/
lemma Fixed.call (h : Fixed c D idx st.fds) (hidx : 0 ≤ idx) {op : IoOp}
    (hop : ¬op.Rebinds c D) : Fixed c D idx (st.call env op).fds := by
  cases op with
  | read p fd buf count =>
    exact ioStable_fixed.sysRead env h fd buf count fun _ _ _ _ _ _ _ _ => h.processWaitOn _ _
  | write p fd buf count =>
    exact ioStable_fixed.sysWrite env h fd buf count fun _ _ _ _ _ _ _ _ _ _ ht _ =>
      ht.processWaitOn _ _
  | sleep p id e => exact h.processWaitOn p (id, e)
  | wake p => exact h.processWake p
  | fd op => exact h.fdCall hidx hop

/-- The runs from `st0` in which `c` keeps its descriptors in `D`. -/
def keeping (env : IoEnv W) (c : ℕ) (D : ℕ → Prop) (st0 : IoState W) : System (IoState W) IoOp where
  init st := st = st0
  guard st op := (ioCalls env).guard st op ∧ ¬op.Rebinds c D
  step := (ioCalls env).step

/-- After `dup2(a, b)`, until one of the two is closed or rebound, a call on `b` is that on `a`. -/
def Interchangeable (a b : ℤ) : Prop :=
  ∀ (W : Type) (env : IoEnv W) (c : ℕ) (st : IoState W), (ioCalls env).Reach st → st.fds.CanRun c →
    (fdGet c a st.fds).isSome →
    ∀ st', (keeping env c (fun fd => fd = a.toNat ∨ fd = b.toNat)
        { st with fds := (fdDup2 c a b st.fds).2 }).Reach st' →
      (∃ i, fdGet c a st'.fds = some i ∧ fdGet c b st'.fds = some i) ∧
      ∀ buf count, sysRead env c b buf count st' = sysRead env c a buf count st' ∧
        sysWrite env c b buf count st' = sysWrite env c a buf count st'

lemma calls_eq (ha : fdGet c a st.fds = some i)
    (hb : fdGet c b st.fds = some i) (ha0 : a ≠ 0) (hb0 : b ≠ 0) (buf count : ℕ) :
    sysRead env c b buf count st = sysRead env c a buf count st ∧
      sysWrite env c b buf count st = sysWrite env c a buf count st := by
  constructor
  · unfold sysRead
    rw [if_neg ha0, if_neg hb0, ha, hb]
  · unfold sysWrite
    rw [ha, hb]

lemma FdInv.fdGet_eq {lost : ℕ → ℕ} (h : FdInv lost (fun _ => 0) ∅ s) (hc : 1 ≤ c)
    (hs : (s.procs c).state ≠ .unused) {fd : ℤ} (hv : ValidFd fd)
    (hidx : (s.procs c).fdTable fd.toNat = i) : fdGet c fd s = some i := by
  have hmem : (c, fd.toNat) ∈ descriptors := by
    obtain ⟨h0, h16⟩ := hv
    exact h.toPiped.mem_descriptors hc hs (by omega)
  have hheld : s.held (c, fd.toNat) = i := by
    rw [held_of_used hs, hidx]
  have hrange := (h.range _ hmem).2
  rw [hheld] at hrange
  have hi : i < maxOpenFiles := by exact_mod_cast hrange
  have hsome : (s.files i).node.isSome := by
    have hpos : 0 < s.holders i := (uses_pos_iff _).mpr ⟨_, hmem, hheld⟩
    have hrefs := h.refs i hi
    by_contra hnone
    rw [Bool.not_eq_true, Option.isSome_eq_false_iff, Option.isNone_iff_eq_none] at hnone
    unfold OpenFile.refs at hrefs
    rw [hnone, if_neg (by decide)] at hrefs
    omega
  unfold fdGet
  rw [if_pos hv, hidx, if_pos ⟨Int.natCast_nonneg i, by exact_mod_cast hi, hsome⟩]
  rfl

lemma FdState.setFd_fdTable (s : FdState) (p fd : ℕ) (v : ℤ) :
    ((s.setFd p fd v).procs p).fdTable fd = v := by
  unfold setFd
  rw [setProc_self]
  exact update_self _ _ _

lemma fixed_dup2 (hc : s.CanRun c) (ha : ValidFd a) (hb : ValidFd b) (hab : a ≠ b)
    (hget : fdGet c a s = some i) :
    Fixed c (fun fd => fd = a.toNat ∨ fd = b.toNat) i (fdDup2 c a b s).2 := by
  have htable := fdGet_table hget
  have hne : a.toNat ≠ b.toNat := by
    obtain ⟨ha0, -⟩ := ha
    obtain ⟨hb0, -⟩ := hb
    omega
  have halive : Fixed c (fun fd => fd = a.toNat) i s := by
    refine ⟨⟨hc.used, ?_⟩, fun fd hfd => ?_⟩
    · rcases hc.2 with hr | hr
      · rw [hr]
        exact ProcState.noConfusion
      · rw [hr]
        exact ProcState.noConfusion
    · rw [hfd, htable]
  have hafter : Fixed c (fun fd => fd = a.toNat) i (fdDup2 c a b s).2 :=
    halive.fdDup2 fun _ _ _ hD => hne hD.symm
  refine ⟨hafter.1, ?_⟩
  rintro fd (rfl | rfl)
  · exact hafter.2 _ rfl
  · unfold fdDup2
    rw [if_pos ⟨ha, hb⟩, htable, if_neg (by omega), if_neg hab]
    rw [ofRetain_procs]
    exact setFd_fdTable _ _ _ _

lemma keeping_reach {st' : IoState W} (h : (ioCalls env).Reach st)
    (hc : st.fds.CanRun c) (ha : ValidFd a) (hb : ValidFd b) (hab : a ≠ b)
    (hget : fdGet c a st.fds = some i)
    (hrun : (keeping env c (fun fd => fd = a.toNat ∨ fd = b.toNat)
      { st with fds := (fdDup2 c a b st.fds).2 }).Reach st') :
    fdGet c a st'.fds = some i ∧ fdGet c b st'.fds = some i := by
  have hinv : (ioCalls env).Reach st' ∧
      Fixed c (fun fd => fd = a.toNat ∨ fd = b.toNat) i st'.fds := by
    induction hrun with
    | init hinit =>
      obtain rfl : _ = _ := hinit
      exact ⟨ioCalls_step_fd h (.dup2 c a b) hc trivial, fixed_dup2 hc ha hb hab hget⟩
    | step _ hguard hstep ih =>
      refine ⟨.step ih.1 hguard.1 hstep, ?_⟩
      obtain rfl : _ = _ := hstep
      exact ih.2.call (Int.natCast_nonneg i) hguard.2
  obtain ⟨hreach, halive, htable⟩ := hinv
  obtain ⟨lost, hst⟩ := FdInv.of_reach hreach
  exact ⟨hst.fdGet_eq hc.1 halive.1 ha (htable _ (Or.inl rfl)),
    hst.fdGet_eq hc.1 halive.1 hb (htable _ (Or.inr rfl))⟩

/-- The pipe of `FdState.piped` also read through `a`. -/
@[irreducible]
def FdState.readThrough (a : ℤ) : FdState := FdState.piped.call (.dup2 1 3 a)

lemma FdState.readThrough_reach (a : ℤ) : (ioCalls plainEnv).Reach ⟨readThrough a, ()⟩ := by
  unfold readThrough
  exact ioCalls_step_fd piped_reach (.dup2 1 3 a) piped_canRun trivial

lemma FdState.readThrough_open : ∀ a : Fin 16, ((readThrough a).procs 1).state = .runnable ∧
    (fdGet 1 a (readThrough a)).isSome = true := by
  decide +kernel

lemma readThrough_ne : ∀ a b : Fin 16, a = b ∨ (a ≠ 0 ∧ b ≠ 0) ∨
    (sysRead plainEnv 1 b 4096 1 ⟨(fdDup2 1 a b (readThrough a)).2, ()⟩).1 ≠
      (sysRead plainEnv 1 a 4096 1 ⟨(fdDup2 1 a b (readThrough a)).2, ()⟩).1 := by
  decide +kernel

lemma ValidFd.eq_fin {fd : ℤ} (h : ValidFd fd) : ∃ k : Fin 16, fd = k := by
  obtain ⟨h0, h16⟩ := h
  have hlt : fd.toNat < 16 := by
    unfold fdTableSize at h16
    omega
  exact ⟨⟨fd.toNat, hlt⟩, (Int.toNat_of_nonneg h0).symm⟩

/-- `dup2(a, b)` makes `b` another name for `a`, in every run, exactly when neither of them is
descriptor 0. -/
theorem dup2_interchangeable_iff {a b : ℤ} (ha : ValidFd a) (hb : ValidFd b) (hab : a ≠ b) :
    Interchangeable a b ↔ a ≠ 0 ∧ b ≠ 0 := by
  constructor
  · intro h
    obtain ⟨k, rfl⟩ := ha.eq_fin
    obtain ⟨l, rfl⟩ := hb.eq_fin
    obtain ⟨hstate, hopen⟩ := readThrough_open k
    have hsame := (h Unit plainEnv 1 _ (readThrough_reach k) ⟨le_rfl, Or.inl hstate⟩ hopen _
      (.init rfl)).2 4096 1
    rcases readThrough_ne k l with heq | hne | hne
    · exact absurd (congrArg (fun k : Fin 16 => ((k : ℕ) : ℤ)) heq) hab
    · refine ⟨fun hk => hne.1 ?_, fun hl => hne.2 ?_⟩
      · exact_mod_cast hk
      · exact_mod_cast hl
    · exact absurd (congrArg Prod.fst hsame.1) hne
  · rintro ⟨ha0, hb0⟩ W env c st hst hc hget st' hrun
    obtain ⟨i, hi⟩ := Option.isSome_iff_exists.mp hget
    obtain ⟨hga, hgb⟩ := keeping_reach hst hc ha hb hab hi hrun
    exact ⟨⟨i, hga, hgb⟩, calls_eq hga hgb ha0 hb0⟩

/-- Standard output may be sent elsewhere. -/
theorem dup2_interchangeable_iff_three_one : Interchangeable 3 1 :=
  (dup2_interchangeable_iff ⟨by decide, by decide⟩ ⟨by decide, by decide⟩ (by decide)).mpr
    ⟨by decide, by decide⟩

/-- With the read end of a pipe on 3 and 0, a read of 3 waits for the pipe, and a read of 0 is
answered by the terminal. -/
theorem dup2_stdin_reads_terminal : (ioCalls plainEnv).Reach ⟨FdState.piped, ()⟩ ∧
    (fdDup2 1 3 0 FdState.piped).1 = 0 ∧
    fdGet 1 0 (fdDup2 1 3 0 FdState.piped).2 = fdGet 1 3 (fdDup2 1 3 0 FdState.piped).2 ∧
    (sysRead plainEnv 1 3 4096 1 ⟨(fdDup2 1 3 0 FdState.piped).2, ()⟩).1 = .blocked ∧
    (sysRead plainEnv 1 0 4096 1 ⟨(fdDup2 1 3 0 FdState.piped).2, ()⟩).1 = .done 1 :=
  ⟨piped_reach, by decide +kernel, by decide +kernel, by decide +kernel, by decide +kernel⟩

end FrostByte
