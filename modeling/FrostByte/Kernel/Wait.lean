import FrostByte.Fd.Model
import FrostByte.Lib.Run
import Mathlib.Data.Int.Notation

/-!
# Waiting for a child

`sys_wait` and a blocking `sys_waitpid` of `src/syscall.c` look at the children one by one and then
go to sleep, while the timer may let another process run. A child that exits in between finds its
parent awake, and nobody wakes the parent later. `process_exit` of `src/process.c` hands the
children of the exiting process over to init, which is not woken for the zombies among them.

## Main definitions

* `WaitState.act` — one step of the parent, of an exit, or of another wake-up.
* `LeftSleeping` — the parent sleeps, and nobody will wake it for a zombie that it waits for.
* `WaitState.Orderly` — when a step cannot lose a wake-up.
* `View` — the part of the process table that a parent and its children see.

## Main results

* `not_leftSleeping` — orderly runs never leave the parent sleeping.
* `wake_lost`, `adopted_left_sleeping` — two runs that do.
* `reapChild_scan`, `processExit_view` — the steps refine one scan of `sys_wait` and `process_exit`
  on the process table of `FrostByte.Fd.Model`.
-/

namespace FrostByte.Wait

open Function

/-- The two calls that wait for a child. -/
inductive WaitCall
  | wait
  | waitpid (pid : ℤ)
  deriving DecidableEq

/-- The children that a call waits for, by their process number; `-1` stands for any child. -/
def WaitCall.wants : WaitCall → ℕ → Bool
  | .wait, _ => true
  | .waitpid pid, c => pid = -1 || (c : ℤ) = pid

/-- Where the parent is: in no call, at a child of the list, behind the scan, or in `schedule`. -/
inductive WaitPc
  | idle
  | scan (rest : List ℕ)
  | decided
  | scheduled
  deriving DecidableEq

/-- A parent and its children, which are named by their place in the process table. -/
structure WaitState where
  children : List ℕ
  pid : ℕ → ℕ
  zombie : ℕ → Bool
  /-- Zombies that have not come to `process_wake` yet. -/
  waking : ℕ → Bool
  /-- The process whose `process_wake` is still to come for a zombie. -/
  owed : ℕ → Option ℕ
  asleep : Bool
  call : WaitCall
  pc : WaitPc

/-- The parent waits for the child `c`. -/
def WaitState.wants (s : WaitState) (c : ℕ) : Bool := s.call.wants (s.pid c)

/-- A step of the parent, one of the exit of a process, or another wake-up of the parent. -/
inductive WaitAct
  | enter (call : WaitCall)
  | parent
  /-- `sys_fork` of the parent. -/
  | fork (c : ℕ)
  /-- The exit of `q` hands its child `c`, a zombie or not, over to the parent, which is init. -/
  | adopt (q c : ℕ) (dead : Bool)
  /-- A child becomes a zombie, with its own children handed over before. -/
  | exit (q : ℕ)
  /-- The call of `process_wake` at the end of the exit. -/
  | wake (q : ℕ)
  | wakeOther

/-- The next step of the parent in its call; a parent asleep in `schedule` has none. -/
def WaitState.next (s : WaitState) : Option WaitState :=
  match s.pc with
  | .idle => none
  | .scan (c :: rest) =>
    if s.wants c && s.zombie c then some { s with children := s.children.erase c, pc := .idle }
    else some { s with pc := .scan rest }
  | .scan [] =>
    -- only `sys_wait` returns when there is no child
    some { s with pc := if s.call = .wait ∧ s.children = [] then .idle else .decided }
  | .decided => some { s with asleep := true, pc := .scheduled }
  | .scheduled => if s.asleep then none else some { s with pc := .scan s.children }

/-- The effect of an action; `none` when it is not possible. -/
def WaitState.act (s : WaitState) : WaitAct → Option WaitState
  | .enter call => if s.pc = .idle then some { s with call, pc := .scan s.children } else none
  | .parent => s.next
  | .fork c =>
    if s.pc = .idle ∧ c ∉ s.children then
      some { s with
        children := c :: s.children
        zombie := update s.zombie c false }
    else none
  | .adopt q c dead =>
    if c ∉ s.children then
      -- a child of the parent in the middle of its exit will come to `process_wake`
      some { s with
        children := c :: s.children
        zombie := update s.zombie c dead
        owed := update s.owed c (if q ∈ s.children ∧ s.zombie q = false then some q else none) }
    else none
  | .exit q =>
    if q ∈ s.children ∧ s.zombie q = false then
      some { s with
        zombie := update s.zombie q true
        waking := update s.waking q true
        owed := update s.owed q (some q) }
    else none
  | .wake q =>
    if s.waking q then
      some { s with
        waking := update s.waking q false
        owed := fun c => if s.owed c = some q then none else s.owed c
        asleep := false }
    else none
  | .wakeOther => some { s with asleep := false }

/-- Every interleaving of the calls of the parent with exits and other wake-ups. -/
def waitCalls : System WaitState WaitAct where
  init s := s.asleep = false ∧ s.pc = .idle
  guard _ _ := True
  step s a s' := s.act a = some s'

/-- The parent sleeps, and a child that it waits for is a zombie for which nobody will wake it. -/
def LeftSleeping (s : WaitState) : Prop :=
  s.asleep = true ∧ ∃ c ∈ s.children, s.wants c = true ∧ s.zombie c = true ∧ s.owed c = none

/-- The parent is behind the child in its scan and has not gone to sleep yet. -/
def WaitState.passed (s : WaitState) (c : ℕ) : Bool :=
  match s.pc with
  | .scan rest => c ∉ rest
  | .decided => true
  | .idle | .scheduled => false

/-- A process comes to `process_wake` when the parent is not behind any of the zombies that it is to
be woken for, and a zombie without such a process is handed over only between two scans. -/
def WaitState.Orderly (s : WaitState) : WaitAct → Prop
  | .wake q => ∀ c ∈ s.children, s.owed c = some q → s.wants c = true → s.passed c = false
  | .adopt q c dead => dead = true → s.wants c = true → ¬ (q ∈ s.children ∧ s.zombie q = false) →
      s.asleep = false ∧ (s.pc = .idle ∨ s.pc = .scheduled)
  | _ => True

instance (s : WaitState) : (a : WaitAct) → Decidable (s.Orderly a)
  | .wake _ | .adopt .. => inferInstanceAs (Decidable (∀ _, _))
  | .enter _ | .parent | .fork _ | .exit _ | .wakeOther => inferInstanceAs (Decidable True)

/-- The interleavings whose steps are all orderly. -/
def orderlyWaits : System WaitState WaitAct := { waitCalls with guard := WaitState.Orderly }

/-- A parent that sleeps is in `schedule`, and a zombie for which nobody will wake it is still to be
looked at. -/
structure WaitInv (s : WaitState) : Prop where
  scheduled : s.asleep = true → s.pc = .scheduled
  kept : ∀ c ∈ s.children, s.wants c = true → s.zombie c = true → s.owed c = none →
    s.asleep = false ∧ s.passed c = false

variable {s s' : WaitState}

/-- A step of the parent keeps the invariant: it passes only children that it does not collect, and
after it has slept it starts again with all of them. -/
lemma WaitInv.next (hi : WaitInv s) (h : s.next = some s') : WaitInv s' := by
  obtain ⟨hsched, hkept⟩ := hi
  unfold WaitState.next at h
  split at h
  case h_1 => cases h
  case h_2 c rest hpc =>
    have hawake : s.asleep = false := by simpa [hpc] using hsched
    split_ifs at h with hzombie
    · cases h
      exact ⟨by simp [hawake], fun _ _ _ _ _ => ⟨hawake, by simp [WaitState.passed]⟩⟩
    · cases h
      refine ⟨by simp [hawake], fun c' hc hw hz hk => ⟨hawake, ?_⟩⟩
      -- the child just looked at is not a zombie that the call waits for
      have hne : c' ≠ c := by
        rintro rfl
        exact hzombie (Bool.and_eq_true_iff.mpr ⟨hw, hz⟩)
      have := (hkept c' hc hw hz hk).2
      simp_all [WaitState.passed]
  case h_3 hpc =>
    have hawake : s.asleep = false := by simpa [hpc] using hsched
    cases h
    refine ⟨by simp [hawake], fun c hc hw hz hk => ?_⟩
    have := (hkept c hc hw hz hk).2
    simp [WaitState.passed, hpc] at this
  case h_4 hpc =>
    cases h
    refine ⟨fun _ => rfl, fun c hc hw hz hk => ?_⟩
    have := (hkept c hc hw hz hk).2
    simp [WaitState.passed, hpc] at this
  case h_5 hpc =>
    split_ifs at h with hasleep
    cases h
    have hawake : s.asleep = false := by simpa using hasleep
    exact ⟨by simp [hawake], fun c hc _ _ _ => ⟨hawake, by simpa [WaitState.passed] using hc⟩⟩

/-- An orderly step keeps the invariant. An exit leaves its zombie to be announced; the announcement
and the adoption of a zombie are where the condition is used. -/
lemma WaitInv.act (hi : WaitInv s) {a : WaitAct} (hg : s.Orderly a) (h : s.act a = some s') :
    WaitInv s' := by
  obtain ⟨hsched, hkept⟩ := id hi
  cases a with
  | enter call =>
    simp only [WaitState.act, Option.ite_none_right_eq_some, Option.some.injEq] at h
    obtain ⟨hpc, rfl⟩ := h
    have hawake : s.asleep = false := by simpa [hpc] using hsched
    exact ⟨by simp [hawake], fun c hc _ _ _ => ⟨hawake, by simpa [WaitState.passed] using hc⟩⟩
  | parent => exact hi.next h
  | fork c =>
    simp only [WaitState.act, Option.ite_none_right_eq_some, Option.some.injEq] at h
    obtain ⟨⟨hpc, -⟩, rfl⟩ := h
    have hawake : s.asleep = false := by simpa [hpc] using hsched
    exact ⟨hsched, fun c' _ _ _ _ => ⟨hawake, by simp [WaitState.passed, hpc]⟩⟩
  | adopt q c dead =>
    simp only [WaitState.act, Option.ite_none_right_eq_some, Option.some.injEq] at h
    obtain ⟨-, rfl⟩ := h
    refine ⟨hsched, fun c' hc hw hz hk => ?_⟩
    by_cases hne : c' = c
    · subst hne
      have hdead : dead = true := by simpa using hz
      have hq : ¬ (q ∈ s.children ∧ s.zombie q = false) := by simpa using hk
      obtain ⟨hawake, hpc | hpc⟩ := hg hdead hw hq
      · exact ⟨hawake, by simp [WaitState.passed, hpc]⟩
      · exact ⟨hawake, by simp [WaitState.passed, hpc]⟩
    · exact hkept c' (List.mem_of_ne_of_mem hne hc) hw (by simpa [hne] using hz)
        (by simpa [hne] using hk)
  | exit q =>
    simp only [WaitState.act, Option.ite_none_right_eq_some, Option.some.injEq] at h
    obtain ⟨-, rfl⟩ := h
    refine ⟨hsched, fun c hc hw hz hk => ?_⟩
    have hne : c ≠ q := by
      rintro rfl
      simp at hk
    exact hkept c hc hw (by simpa [hne] using hz) (by simpa [hne] using hk)
  | wake q =>
    simp only [WaitState.act, Option.ite_none_right_eq_some, Option.some.injEq] at h
    obtain ⟨-, rfl⟩ := h
    refine ⟨by simp, fun c hc hw hz hk => ⟨rfl, ?_⟩⟩
    by_cases howed : s.owed c = some q
    · exact hg c hc howed hw
    · exact (hkept c hc hw hz (by simpa [howed] using hk)).2
  | wakeOther =>
    cases h
    exact ⟨by simp, fun c hc hw hz hk => ⟨rfl, (hkept c hc hw hz hk).2⟩⟩

/-- A parent with the one child `1`, which runs. -/
def WaitState.start : WaitState where
  children := [1]
  pid := id
  zombie := fun _ => false
  waking := fun _ => false
  owed := fun _ => none
  asleep := false
  call := .wait
  pc := .idle

/-- A list of actions that meet the guard, one after the other. -/
def WaitState.run (g : WaitState → WaitAct → Prop) [∀ s a, Decidable (g s a)] (s : WaitState) :
    List WaitAct → Option WaitState
  | [] => some s
  | a :: as => if g s a then (s.act a).bind fun s => s.run g as else none

section Run

variable {g : WaitState → WaitAct → Prop} [∀ s a, Decidable (g s a)]

/-- Two runs, one after the other. -/
lemma WaitState.run_append (as bs : List WaitAct) :
    s.run g (as ++ bs) = (s.run g as).bind fun t => t.run g bs := by
  induction as generalizing s with
  | nil => rfl
  | cons a as ih =>
    simp only [List.cons_append, WaitState.run]
    split_ifs
    · simp [Option.bind_assoc, ih]
    · rfl

/-- A run from a reachable state leads to a reachable state. -/
lemma reach_run (as : List WaitAct)
    (hs : ({ waitCalls with guard := g } : System WaitState WaitAct).Reach s)
    (h : s.run g as = some s') :
    ({ waitCalls with guard := g } : System WaitState WaitAct).Reach s' := by
  induction as generalizing s with
  | nil => exact Option.some.inj h ▸ hs
  | cons a as ih =>
    rw [WaitState.run, Option.ite_none_right_eq_some] at h
    obtain ⟨hg, h⟩ := h
    obtain ⟨s₁, hact, h⟩ := Option.bind_eq_some_iff.mp h
    exact ih (.step hs hg hact) h

end Run

/-- Init sleeps in `sys_wait` when a process that is not its child exits and leaves the zombie `2`
to it. -/
theorem adopted_left_sleeping : ∃ s, waitCalls.Reach s ∧ LeftSleeping s ∧ s.children = [2, 1] := by
  have hrun : (WaitState.start.run (fun _ _ => True)
      [.enter .wait, .parent, .parent, .parent, .adopt 3 2 true]).map
        (fun s => (s.asleep, s.children, s.call, s.zombie 2, s.owed 2)) =
      some (true, [2, 1], .wait, true, none) := by decide
  obtain ⟨s, hrun, hs⟩ := Option.map_eq_some_iff.mp hrun
  simp only [Prod.mk.injEq] at hs
  obtain ⟨hasleep, hchildren, hcall, hzombie, howed⟩ := hs
  refine ⟨s, reach_run _ (.init ⟨rfl, rfl⟩) hrun, ⟨hasleep, 2, ?_⟩, hchildren⟩
  simp [hchildren, hcall, hzombie, howed, WaitState.wants, WaitCall.wants]

/-! ## The process table -/

/-- The state `w` shows what the process `p` sees of the process table. -/
structure View (p : ℕ) (t : FdState) (w : WaitState) : Prop where
  children : w.children = (t.procs p).children
  pid : ∀ c, w.pid c = (t.procs c).pid
  zombie : ∀ c, w.zombie c = decide ((t.procs c).state = .zombie)
  asleep : w.asleep = decide ((t.procs p).state = .sleeping)

/-- Actions without a condition. -/
def WaitState.acts (w : WaitState) (as : List WaitAct) : Option WaitState :=
  w.run (fun _ _ => True) as

/-- The steps of a scan take the first zombie of the list that the call waits for, or come to the
end of the list. -/
lemma acts_scan (w : WaitState) (l : List ℕ) (hpc : w.pc = .scan l) :
    ∃ n, w.acts (.replicate n .parent) = some (match l.find? fun c => w.wants c && w.zombie c with
      | some c => { w with children := w.children.erase c, pc := .idle }
      | none => { w with pc := .scan [] }) := by
  induction l generalizing w with
  | nil =>
    refine ⟨0, ?_⟩
    rw [List.find?_nil, ← hpc]
    rfl
  | cons c rest ih =>
    have hstep : w.act .parent = some (if w.wants c && w.zombie c then
        { w with children := w.children.erase c, pc := .idle } else
          { w with pc := .scan rest }) := by
      simp only [WaitState.act, WaitState.next, hpc]
      split_ifs
      · rfl
      · rfl
    cases hc : w.wants c && w.zombie c with
    | true =>
      refine ⟨1, ?_⟩
      simp only [hc] at hstep
      simp [WaitState.acts, WaitState.run, hstep, hc]
    | false =>
      obtain ⟨n, hn⟩ := ih { w with pc := .scan rest } rfl
      refine ⟨n + 1, ?_⟩
      simp only [hc] at hstep
      rw [List.find?_cons, hc, List.replicate_succ, WaitState.acts, WaitState.run, if_pos trivial,
        hstep]
      exact hn

variable {p q : ℕ} {t : FdState} {w : WaitState}

/-- **One scan of `sys_wait` or `sys_waitpid`** on the process table is a scan in steps: both
collect the same child, or none. -/
theorem reapChild_scan (hv : View p t w) (hpc : w.pc = .scan w.children) :
    ∃ n w', w.acts (.replicate n .parent) = some w' ∧
      match (reapChild p w.call.wants t).1 with
      | some pid => ∃ c, w' = { w with children := w.children.erase c, pc := .idle } ∧
          pid = (w.pid c : ℤ)
      | none => w' = { w with pc := .scan [] } := by
  obtain ⟨n, hn⟩ := acts_scan w w.children hpc
  refine ⟨n, _, hn, ?_⟩
  have hfind : ((t.procs p).children.find? fun c =>
      w.call.wants (t.procs c).pid ∧ (t.procs c).state = .zombie) =
      w.children.find? fun c => w.wants c && w.zombie c := by
    rw [← hv.children]
    refine congrArg (List.find? · w.children) (funext fun c => ?_)
    simp [WaitState.wants, hv.pid, hv.zombie]
  unfold reapChild
  rw [hfind]
  cases w.children.find? fun c => w.wants c && w.zombie c with
  | none => rfl
  | some c => exact ⟨c, rfl, by rw [hv.pid]⟩

/-- A change of the table that keeps numbers and states, and the children of `p`, is not seen. -/
lemma View.congr (hv : View p t w) {t' : FdState}
    (hchildren : (t'.procs p).children = (t.procs p).children)
    (hsame : ∀ c, (t'.procs c).pid = (t.procs c).pid ∧ (t'.procs c).state = (t.procs c).state) :
    View p t' w :=
  ⟨by rw [hchildren, hv.children], fun c => by rw [(hsame c).1, hv.pid],
    fun c => by rw [(hsame c).2, hv.zombie], by rw [(hsame p).2, hv.asleep]⟩

/-- Handing a child over changes parent and lists of children only. -/
lemma reparent_same (init : Option ℕ) (t : FdState) (c x : ℕ) :
    ((reparent init t c).procs x).pid = (t.procs x).pid ∧
      ((reparent init t c).procs x).state = (t.procs x).state ∧
      (x ≠ c → ((reparent init t c).procs x).parent = (t.procs x).parent) := by
  cases init with
  | none =>
    simp only [reparent, FdState.setProc, update_apply]
    split_ifs <;> simp_all
  | some i =>
    simp only [reparent, FdState.setProc, update_apply]
    split_ifs <;> simp_all

/-- The children of `p` after a child has been handed over: it is prepended if `p` is init. -/
lemma reparent_children (init : Option ℕ) (t : FdState) (c p : ℕ) :
    ((reparent init t c).procs p).children =
      if init = some p then c :: (t.procs p).children else (t.procs p).children := by
  cases init with
  | none =>
    simp only [reparent, FdState.setProc, update_apply]
    split_ifs <;> simp_all
  | some i =>
    simp only [reparent, FdState.setProc, update_apply]
    split_ifs <;> simp_all

/-- The children of an exiting process, handed over one by one, are adoptions in the view of init
and no actions in the view of another process. -/
lemma View.reparentAll (init : Option ℕ) (l : List ℕ) (hv : View p t w)
    (hnew : ∀ c ∈ l, c ∉ w.children) (hnodup : l.Nodup) :
    ∃ w', w.acts (if init = some p then l.map fun c => .adopt q c (w.zombie c) else []) = some w' ∧
      View p (l.foldl (reparent init) t) w' ∧ w'.zombie = w.zombie ∧
      ∀ x ∈ w.children, x ∈ w'.children := by
  induction l generalizing t w with
  | nil => exact ⟨w, by simp [WaitState.acts, WaitState.run], hv, rfl, fun _ h => h⟩
  | cons c l ih =>
    have hsame := reparent_same init t c
    have hchildren := reparent_children init t c p
    obtain ⟨hcl, hnodup⟩ := List.nodup_cons.mp hnodup
    by_cases hinit : init = some p
    · obtain ⟨w₁, hact, hw₁⟩ : ∃ w₁, w.act (.adopt q c (w.zombie c)) = some w₁ ∧
          w₁.children = c :: w.children ∧ w₁.pid = w.pid ∧ w₁.zombie = w.zombie ∧
          w₁.asleep = w.asleep := by
        rw [WaitState.act, if_pos (hnew c (.head _))]
        exact ⟨_, rfl, rfl, rfl, update_eq_self c w.zombie, rfl⟩
      obtain ⟨hc₁, hp₁, hz₁, ha₁⟩ := hw₁
      have hv₁ : View p (reparent init t c) w₁ := by
        refine ⟨?_, fun x => ?_, fun x => ?_, ?_⟩
        · rw [hchildren, if_pos hinit, hc₁, hv.children]
        · rw [(hsame x).1, hp₁, hv.pid]
        · rw [(hsame x).2.1, hz₁, hv.zombie]
        · rw [(hsame p).2.1, ha₁, hv.asleep]
      have hnew₁ : ∀ x ∈ l, x ∉ w₁.children := by
        intro x hx hmem
        rw [hc₁] at hmem
        rcases List.mem_cons.mp hmem with rfl | hmem
        · exact hcl hx
        · exact hnew x (.tail _ hx) hmem
      obtain ⟨w', hacts, hview, hz', hc'⟩ := ih hv₁ hnew₁ hnodup
      rw [if_pos hinit, hz₁] at hacts
      refine ⟨w', ?_, hview, hz'.trans hz₁, fun x hx => hc' x (hc₁ ▸ .tail _ hx)⟩
      rw [if_pos hinit, List.map_cons, WaitState.acts, WaitState.run, if_pos trivial, hact]
      exact hacts
    · have hv₁ : View p (reparent init t c) w :=
        hv.congr (hchildren.trans (if_neg hinit)) fun x => ⟨(hsame x).1, (hsame x).2.1⟩
      have hrest := ih hv₁ (fun x hx => hnew x (.tail _ hx)) hnodup
      rw [if_neg hinit] at hrest ⊢
      exact hrest

/-- The parent of a process that is not handed over stays. -/
lemma reparentAll_parent (init : Option ℕ) (l : List ℕ) (hq : q ∉ l) :
    ((l.foldl (reparent init) t).procs q).parent = (t.procs q).parent := by
  induction l generalizing t with
  | nil => rfl
  | cons c l ih =>
    rw [List.foldl_cons, ih fun h => hq (.tail _ h)]
    exact (reparent_same init t c q).2.2 fun h => hq (h ▸ .head _)

/-- **`process_exit`** of a child `q` on the process table is, in the view of its parent, the
adoption of the children of `q` if the parent is init, then the exit and the wake-up. -/
theorem processExit_view (hv : View p t w) (hpid : (t.procs q).pid ≠ 0)
    (hparent : (t.procs q).parent = some p) (hqp : q ≠ p) (hq : q ∈ w.children)
    (halive : w.zombie q = false) (hnew : ∀ c ∈ (t.procs q).children, c ∉ w.children)
    (hnodup : (t.procs q).children.Nodup) :
    ∃ w', w.acts ((if processGetByPid 1 t = some p then
        (t.procs q).children.map fun c => .adopt q c (w.zombie c) else []) ++ [.exit q, .wake q]) =
          some w' ∧ View p (processExit q t) w' := by
  have hv₁ : View p (t.setProc q { t.procs q with children := [] }) w := by
    refine hv.congr ?_ fun c => ?_
    · simp [FdState.setProc, Ne.symm hqp]
    · simp only [FdState.setProc, update_apply]
      split_ifs <;> simp_all
  obtain ⟨w₂, hacts, hv₂, hz₂, hc₂⟩ :=
    hv₁.reparentAll (q := q) (processGetByPid 1 t) (t.procs q).children hnew hnodup
  have hparent₂ := reparentAll_parent (t := t.setProc q { t.procs q with children := [] })
    (processGetByPid 1 t) (t.procs q).children fun h => hnew q h hq
  unfold processExit
  rw [if_neg hpid]
  dsimp only
  generalize (t.procs q).children.foldl (reparent (processGetByPid 1 t)) _ = t₂ at hv₂ hparent₂ ⊢
  have hself : ((t₂.setProc q { t₂.procs q with state := .zombie }).procs q).parent = some p := by
    simpa [FdState.setProc, hparent] using hparent₂
  rw [hself]
  obtain ⟨hchildren, hpids, hzombie, hasleep⟩ := hv₂
  refine ⟨{ w₂ with
    zombie := update w₂.zombie q true
    waking := update (update w₂.waking q true) q false
    owed := fun c => if update w₂.owed q (some q) c = some q then none
      else update w₂.owed q (some q) c
    asleep := false }, ?_, ?_⟩
  · have hexit : q ∈ w₂.children ∧ w₂.zombie q = false := ⟨hc₂ q hq, by rw [hz₂, halive]⟩
    rw [WaitState.acts] at hacts ⊢
    rw [WaitState.run_append, hacts]
    simp [WaitState.run, WaitState.act, hexit]
  · have hstate : ∀ x,
      ((processWake p (t₂.setProc q { t₂.procs q with state := .zombie })).procs x) =
        if x = p ∧ (t₂.procs p).state = .sleeping then { t₂.procs p with state := .runnable }
        else if x = q then { t₂.procs q with state := .zombie } else t₂.procs x := by
      intro x
      simp only [processWake, FdState.setProc, update_apply]
      split_ifs <;> simp_all
    refine ⟨?_, fun x => ?_, fun x => ?_, ?_⟩
    all_goals simp only [hstate]
    · split_ifs <;> simp_all
    · split_ifs <;> simp_all
    · simp only [update_apply, hzombie]
      split_ifs <;> simp_all
    · split_ifs <;> simp_all

end FrostByte.Wait
