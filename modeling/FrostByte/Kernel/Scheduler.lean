import FrostByte.Fd.Model
import FrostByte.Lib.Run
import Mathlib.Algebra.Group.Fin.Basic
import Mathlib.Algebra.Order.Field.Basic
import Mathlib.Algebra.Order.Field.Rat
import Mathlib.Data.Fintype.Card
import Mathlib.Data.List.MinMax
import Mathlib.Data.Prod.Lex

/-!
# The scheduler

`src/scheduler.c`, and the functions of `src/process.c` that put processes to sleep and wake them. A
step is what runs without interruption: `process_sleep` marks the process, and `schedule` is a later
step. The links of the wait queues are left out, and so is `process_reap_zombies` at the start of
`schedule`: it destroys zombies without a living parent, which is the step `reap`, and may wake
sleepers by closing their ends of pipes, which are steps `wake` before the choice.

## Main definitions

* `Sched`, `Task` — the process table, and what the scheduler reads in it.
* `Sched.schedule`, `Sched.tick` — the choice of a process, and the timer.
* `schedRuns`, `timedRuns` — all runs, and those in which no sleep wraps or is left behind.

## Main results

* `schedule_oneRunner_iff` — when one process runs after `schedule`.
* `schedule_best` — which process is chosen.
* `tick_wakes_iff` — when a tick ends a sleep.
* `schedule_keeps_runnable`, `stale_wakeup` — runs in which these go wrong.
* `Sched.Shows.wakeAll` — the wake-ups of the wait queues are steps of the scheduler.
-/

namespace FrostByte.Scheduler

open Function Word Task

/-- A slot of `process_table`. -/
abbrev Slot := Fin 64

/-- The fields that the scheduler uses. `slept` is not in the source: the tick at which
`process_sleep` started the current sleep, and the number asked for. -/
structure Task where
  pid : ℕ := 0
  state : ProcState := .unused
  timeSlice : ℕ := 0
  wakeupTick : ℕ := 0
  basePriority : ℕ := 0
  agingScore : ℤ := 0
  weight : ℕ := 0
  slept : Option (ℕ × ℕ) := none

/-- The scheduler between two steps. -/
structure Sched where
  task : Slot → Task
  current : Slot
  /-- The ticks of the timer. -/
  now : ℕ

/-- `SCHED_DEFAULT_TIMESLICE`. -/
def defaultTimeslice : ℕ := 10

/-- `SCHED_AGING_MAX`. -/
def agingMax : ℤ := 32

/-- `scheduler_make_runnable`. -/
def Task.makeRunnable (t : Task) : Task :=
  { t with
    state := if t.state ≠ .runnable ∧ t.state ≠ .running then .runnable else t.state
    timeSlice :=
      if t.timeSlice = 0 ∨ defaultTimeslice < t.timeSlice then defaultTimeslice else t.timeSlice
    agingScore := max t.agingScore 0 }

/-- `process_wake`. -/
def Task.wake (t : Task) : Task := if t.state = .sleeping then t.makeRunnable else t

/-- Another tick that a runnable process has to wait. -/
def Task.age (t : Task) : Task :=
  if t.agingScore < agingMax then { t with agingScore := t.agingScore + 1 } else t

/-- The time of a sleep is over. -/
def Task.Due (t : Task) (now : ℕ) : Prop := t.state = .sleeping ∧ t.wakeupTick ≠ 0 ∧
    t.wakeupTick ≤ w32 now

instance (t : Task) (now : ℕ) : Decidable (t.Due now) := inferInstanceAs (Decidable (_ ∧ _ ∧ _))

/-- What the loop of `scheduler_tick` does to a process. -/
def Task.tick (now : ℕ) (isCurrent : Bool) (t : Task) : Task :=
  if t.Due now then { t with wakeupTick := 0 }.makeRunnable
  else if t.state = .runnable ∧ isCurrent = false then t.age else t

/-- The numerator of what is compared. -/
def Task.score (t : Task) : ℤ := (t.basePriority - t.agingScore) * 1024

/-- The weight, or that of the default priority. -/
def Task.weightOf (t : Task) : ℤ := if t.weight = 0 then 160 else t.weight

/-- `t` replaces `u` as the best process so far. -/
def Task.Better (t u : Task) : Prop := t.score * u.weightOf < u.score * t.weightOf ∨
  t.score * u.weightOf = u.score * t.weightOf ∧ t.pid < u.pid

instance (t u : Task) : Decidable (t.Better u) := inferInstanceAs (Decidable (_ ∨ _ ∧ _))

namespace Sched

/-- Change the process in a slot. -/
def modify (s : Sched) (p : Slot) (f : Task → Task) : Sched :=
  { s with task := update s.task p (f (s.task p)) }

/-- The end of a time slice, when another process is `RUNNABLE`. -/
def expire (s : Sched) : Sched :=
  if ∃ p, p ≠ s.current ∧ (s.task p).state = .runnable then
    s.modify s.current fun t => { t with timeSlice := defaultTimeslice, state := .runnable }
  else s.modify s.current fun t => { t with timeSlice := defaultTimeslice }

/-- The tick is counted, and the loop of `scheduler_tick` goes over the processes. -/
def tickAll (s : Sched) : Sched :=
  { s with
    now := s.now + 1
    task := fun p => (s.task p).tick (s.now + 1) (p = s.current) }

/-- A timer interrupt: `scheduler_tick`. -/
def tick (s : Sched) : Sched :=
  let s := s.tickAll
  let t := s.task s.current
  if t.state ≠ .running then s
  else if t.timeSlice ≤ 1 then s.expire
  else s.modify s.current fun t => { t with timeSlice := t.timeSlice - 1 }

/-- The `RUNNABLE` processes, from the one after the current one on. -/
def candidates (s : Sched) : List Slot :=
  ((List.finRange 64).map fun i => s.current + 1 + i).filter fun p => (s.task p).state = .runnable

/-- The loop of `schedule`. -/
def select (s : Sched) : Option Slot :=
  s.candidates.foldl (List.argAux fun p b => (s.task p).Better (s.task b)) none

/-- Switch to `next`, unless it is the current process. -/
def switchTo (s : Sched) (next : Slot) : Sched :=
  if next = s.current then s
  else
    { (s.modify s.current fun t =>
      if t.state = .running then { t with state := .runnable }.age else t).modify next
        fun t => { t with state := .running, timeSlice := defaultTimeslice, agingScore := 0 } with
      current := next }

/-- `schedule`: without a candidate the current process goes on if it is running. -/
def schedule (s : Sched) : Sched :=
  match s.select with
  | some next => s.switchTo next
  | none =>
    if (s.task s.current).state = .running then
      s.modify s.current fun t => { t with timeSlice := defaultTimeslice }
    else s.switchTo 0

end Sched

/-! ## Runs -/

/-- `block` is what `sys_wait` and `process_wait_on` do, `yield` and `exit` what these calls do
before `schedule`. -/
inductive Act
  | tick
  | schedule
  | yield
  | sleep (ticks : ℕ)
  | block
  | wake (p : Slot)
  | exit
  | reap (p : Slot)

/-- The state after a step. -/
def Sched.act (s : Sched) : Act → Sched
  | .tick => s.tick
  | .schedule => s.schedule
  | .yield => s.modify s.current fun t => { t with timeSlice := 0 }
  | .sleep ticks => s.modify s.current fun t =>
      { t with wakeupTick := w32 (s.now + ticks), state := .sleeping, slept := some (s.now, ticks) }
  | .block => s.modify s.current fun t => { t with state := .sleeping, slept := none }
  | .wake p => s.modify p Task.wake
  | .exit => s.modify s.current fun t => if t.pid = 0 then t else { t with state := .zombie }
  | .reap p => s.modify p fun t => if t.state = .zombie then {} else t

/-- The current process runs, and nobody sleeps. -/
structure Sched.Start (s : Sched) : Prop where
  state : ∀ p, (s.task p).state ≠ .sleeping ∧ ((s.task p).state = .running ↔ p = s.current)
  wakeupTick : ∀ p, (s.task p).wakeupTick = 0

/-- All runs. -/
def schedRuns : System Sched Act where
  init := Sched.Start
  guard _ _ := True
  step s a s' := s' = s.act a

variable {s : Sched} {t : Task} {p : Slot} {now : ℕ} {P : Slot → Task → Prop}

/-! ## What holds of all processes -/

lemma Sched.modify_task (s : Sched) (p r : Slot) (f : Task → Task) :
    (s.modify p f).task r = if r = p then f (s.task p) else s.task r := update_apply ..

lemma Sched.forall_modify {f : Task → Task} (h : ∀ r, P r (s.task r)) (hf : P p (f (s.task p)))
    (r : Slot) : P r ((s.modify p f).task r) := by
  rw [modify_task]
  split_ifs with hr
  · exact hr ▸ hf
  · exact h r

/-- What comes after the loop ends the time slice of the current process. -/
lemma Sched.forall_tick (h : ∀ r, P r (s.tickAll.task r))
    (hend : (s.tickAll.task s.current).state = .running →
      ∀ n, P s.current { s.tickAll.task s.current with timeSlice := n } ∧
      P s.current { s.tickAll.task s.current with timeSlice := n, state := .runnable }) (r : Slot) :
    P r (s.tick.task r) := by
  unfold tick expire
  dsimp only
  split_ifs with hrun
  · exact h r
  · exact forall_modify h (hend (not_not.mp hrun) _).2 r
  · exact forall_modify h (hend (not_not.mp hrun) _).1 r
  · exact forall_modify h (hend (not_not.mp hrun) _).1 r

lemma Task.state_wake (t : Task) :
    t.wake.state = if t.state = .sleeping then .runnable else t.state := by
  unfold wake
  split_ifs with h
  · simp [makeRunnable, h]
  · rfl

lemma Task.state_tick (t : Task) (c : Bool) :
    (t.tick now c).state = if t.Due now then .runnable else t.state := by
  unfold tick age
  split_ifs with hdue
  · simp [makeRunnable, hdue.1]
  · rfl
  · rfl
  · rfl

lemma Sched.tickAll_state (s : Sched) (p : Slot) :
    (s.tickAll.task p).state = if (s.task p).Due (s.now + 1) then .runnable else (s.task p).state :=
  Task.state_tick _ _

/-! ## Who runs -/

lemma Sched.switchTo_current (s : Sched) (next : Slot) : (s.switchTo next).current = next := by
  unfold switchTo
  split_ifs with h
  · exact h.symm
  · rfl

section

variable (hs : ∀ p, (s.task p).state = .running → p = s.current)

include hs

lemma Sched.switchTo_state {next : Slot} (hne : next ≠ s.current) (p : Slot) :
    ((s.switchTo next).task p).state = .running ↔ p = next := by
  unfold switchTo
  rw [if_neg hne]
  rw [modify_task]
  split_ifs with hp
  · simp [hp]
  · simp only [hp, iff_false]
    rw [modify_task]
    split_ifs with hc hrun
    · unfold Task.age
      split_ifs <;> simp
    · exact hrun
    · exact fun h => hc (hs p h)

lemma schedule_runner (p : Slot) (hp : (s.schedule.task p).state = .running) :
    p = s.schedule.current := by
  have hswitch : ∀ next, ((s.switchTo next).task p).state = .running →
    p = (s.switchTo next).current := by
    intro next hp
    rw [Sched.switchTo_current]
    by_cases hne : next = s.current
    · unfold Sched.switchTo at hp
      rw [if_pos hne] at hp
      exact hne ▸ hs p hp
    · exact (Sched.switchTo_state hs hne p).mp hp
  unfold Sched.schedule at hp ⊢
  split at hp
  · exact hswitch _ hp
  · split_ifs at hp ⊢
    · exact Sched.forall_modify (P := fun r t => t.state = .running → r = s.current) hs
        (fun _ => rfl) p hp
    · exact hswitch _ hp

/-- The current process, and no other, is `RUNNING`. -/
def OneRunner (s : Sched) : Prop := ∀ p, (s.task p).state = .running ↔ p = s.current

lemma oneRunner_switchTo {next : Slot} :
    OneRunner (s.switchTo next) ↔ (s.task s.current).state = .running ∨ next ≠ s.current := by
  by_cases hne : next = s.current
  · have hsame : s.switchTo next = s := if_pos hne
    rw [hsame]
    refine ⟨fun h => .inl ((h _).mpr rfl), fun h p => ⟨hs p, ?_⟩⟩
    rintro rfl
    exact h.resolve_right (not_not.mpr hne)
  · refine iff_of_true (fun p => ?_) (.inr hne)
    rw [Sched.switchTo_state hs hne, Sched.switchTo_current]

end

lemma Sched.tick_frame (s : Sched) : s.tick.current = s.current ∧ s.tick.now = s.now + 1 := by
  unfold tick expire
  dsimp only
  split_ifs <;> exact ⟨rfl, rfl⟩

/-- Only the current process runs, in every run. -/
lemma runner_of_reach (h : schedRuns.Reach s) :
    ∀ p, (s.task p).state = .running → p = s.current := by
  refine System.Reach.invariant (M := schedRuns) (fun s h0 p => ((h0.state p).2).mp) ?_ h
  rintro s a _ hs - rfl
  have hcurrent : ∀ f r, ((s.modify s.current f).task r).state = .running → r = s.current :=
    fun f =>
    Sched.forall_modify (P := fun r t => t.state = .running → r = s.current) hs fun _ => rfl
  have hother : ∀ p f, ((f (s.task p)).state = .running → (s.task p).state = .running) → ∀ r,
      ((s.modify p f).task r).state = .running → r = s.current := fun p f hf =>
    Sched.forall_modify (P := fun r t => t.state = .running → r = s.current) hs fun h => hs p (hf h)
  cases a
  all_goals dsimp only [Sched.act]
  case tick =>
    rw [s.tick_frame.1]
    refine Sched.forall_tick (P := fun r t => t.state = .running → r = s.current)
      (fun r hr => hs r ?_)
      (fun _ _ => ⟨fun _ => rfl, fun _ => rfl⟩)
    rw [Sched.tickAll_state] at hr
    split_ifs at hr
    exact hr
  case schedule => exact schedule_runner hs
  case yield => exact hcurrent _
  case sleep n => exact hcurrent _
  case block => exact hcurrent _
  case exit => exact hcurrent _
  case wake p =>
    refine hother p _ fun h => ?_
    rw [Task.state_wake] at h
    split_ifs at h
    exact h
  case reap p =>
    refine hother p _ fun h => ?_
    split_ifs at h
    exact h

/-- The ratio of score and weight, and then the identifier. -/
def Task.key (t : Task) : ℚ ×ₗ ℕ := toLex ((t.score : ℚ) / t.weightOf, t.pid)

lemma Task.weightOf_pos (t : Task) : 0 < t.weightOf := by
  unfold weightOf
  split_ifs <;> omega

lemma Task.better_iff (t u : Task) : t.Better u ↔ t.key < u.key := by
  have ht : (0 : ℚ) < t.weightOf := by exact_mod_cast t.weightOf_pos
  have hu : (0 : ℚ) < u.weightOf := by exact_mod_cast u.weightOf_pos
  unfold Task.Better key
  rw [Prod.Lex.toLex_lt_toLex, div_lt_div_iff₀ ht hu, div_eq_div_iff ht.ne' hu.ne']
  norm_cast

lemma Sched.select_eq (s : Sched) : s.select = s.candidates.argmin fun p => (s.task p).key := by
  unfold select List.argmin
  congr 1
  funext best p
  cases best with
  | none => rfl
  | some b => exact if_congr (Task.better_iff _ _) rfl rfl

/-- **The loop** visits the current process last, which has to be better than all others. -/
lemma Sched.select_eq_current (s : Sched) :
    s.select = some s.current ↔ (s.task s.current).state = .runnable ∧
    ∀ p, p ≠ s.current → (s.task p).state = .runnable → (s.task s.current).Better (s.task p) := by
  obtain ⟨l, hl⟩ : ∃ l, l = ((List.finRange 63).map fun i => s.current + 1 + i.castSucc).filter
    fun p => (s.task p).state = .runnable := ⟨_, rfl⟩
  have hlast : s.current + 1 + Fin.last 63 = s.current := by
    simp [add_assoc]
  have hcand : s.candidates = l ++ [s.current].filter fun p => (s.task p).state = .runnable := by
    rw [candidates, List.finRange_succ_last, List.map_append, List.filter_append, List.map_map, hl,
      List.map_singleton, hlast]
    rfl
  have hmem : ∀ p, p ∈ l ↔ p ≠ s.current ∧ (s.task p).state = .runnable := by
    intro p
    rw [hl, List.mem_filter, List.mem_map, decide_eq_true_eq]
    refine and_congr_left' ⟨?_, fun hne => ?_⟩
    · rintro ⟨i, -, rfl⟩ heq
      exact i.castSucc_lt_last.ne (add_left_cancel (heq.trans hlast.symm))
    · have hi : p - (s.current + 1) ≠ Fin.last 63 :=
        fun h => hne (by rw [← hlast, ← h, add_sub_cancel])
      exact ⟨(p - (s.current + 1)).castPred hi, List.mem_finRange _, by simp⟩
  rw [select_eq, hcand]
  by_cases hrun : (s.task s.current).state = .runnable
  · rw [List.filter_singleton, decide_eq_true hrun, cond_true, List.argmin_concat]
    cases hbest : l.argmin fun p => (s.task p).key with
    | none =>
      rw [List.argmin_eq_none] at hbest
      refine iff_of_true rfl ⟨hrun, fun p hne hp => ?_⟩
      have hin := (hmem p).mpr ⟨hne, hp⟩
      rw [hbest] at hin
      cases hin
    | some b =>
      have hb := (hmem b).mp (List.argmin_mem hbest)
      dsimp only
      split_ifs with hbetter
      · refine iff_of_true rfl ⟨hrun, fun p hne hp => (Task.better_iff _ _).mpr ?_⟩
        have hle := List.le_of_mem_argmin ((hmem p).mpr ⟨hne, hp⟩) hbest
        exact hbetter.trans_le hle
      · refine iff_of_false (fun h => hb.1 (Option.some.inj h)) fun h => hbetter ?_
        exact (Task.better_iff _ _).mp (h.2 b hb.1 hb.2)
  · simpa [decide_eq_false hrun, cond_false] using iff_of_false
      (fun h => ((hmem _).mp (List.argmin_mem h)).1 rfl) fun h => hrun h.1

lemma Sched.mem_candidates (s : Sched) (p : Slot) :
    p ∈ s.candidates ↔ (s.task p).state = .runnable := by
  simp only [candidates, List.mem_filter, List.mem_map, List.mem_finRange, true_and,
    decide_eq_true_eq,
    and_iff_right_iff_imp]
  exact fun _ => ⟨p - (s.current + 1), add_sub_cancel _ _⟩

lemma Sched.select_eq_none (s : Sched) : s.select = none ↔ ∀ p, (s.task p).state ≠ .runnable := by
  simp only [select_eq, List.argmin_eq_none, List.eq_nil_iff_forall_not_mem, mem_candidates, ne_eq]

/-- The current process runs, or another one is chosen. -/
def Sched.Settles (s : Sched) : Prop :=
  (s.task s.current).state = .running ∨
    if (s.task s.current).state = .runnable then
      ∃ p, p ≠ s.current ∧ (s.task p).state = .runnable ∧ ¬ (s.task s.current).Better (s.task p)
    else s.current ≠ 0 ∨ ∃ p, (s.task p).state = .runnable

/-- **A call of `schedule`** in any run leaves the current process, and no other, running exactly
when it ran before, or another one is chosen. -/
theorem schedule_oneRunner_iff (h : schedRuns.Reach s) : OneRunner s.schedule ↔ s.Settles := by
  have hs := runner_of_reach h
  have hchosen := s.select_eq_current
  have hnone := s.select_eq_none
  unfold Sched.schedule Sched.Settles
  split
  next next hnext =>
    rw [oneRunner_switchTo hs]
    refine or_congr_right ?_
    rw [hnext, Option.some_inj] at hchosen
    rw [hnext] at hnone
    split_ifs with hrun
    · rw [Ne, hchosen, and_iff_right hrun]
      push Not
      rfl
    · refine iff_of_true (fun h => hrun (hchosen.mp h).1) (.inr ?_)
      by_contra hall
      exact absurd (hnone.mpr (not_exists.mp hall)) nofun
  next hnext =>
    have hall := hnone.mp hnext
    split_ifs with hrunning hrun
    · exact absurd hrun (hall _)
    · refine iff_of_true (fun p => ?_) (.inl hrunning)
      rw [Sched.modify_task]
      split_ifs with hp
      · exact iff_of_true hrunning hp
      · exact iff_of_false (fun h => hp (hs p h)) hp
    · exact absurd ‹_› (hall _)
    · rw [oneRunner_switchTo hs]
      refine or_congr_right ⟨fun h => .inl h.symm, fun h => ?_⟩
      rcases h with h | ⟨p, hp⟩
      · exact h.symm
      · exact absurd hp (hall p)

/-- The quotient that the products compare. -/
def Task.ratio (t : Task) : ℚ := (t.basePriority - t.agingScore) / t.weightOf

/-- `p` is the `RUNNABLE` process with the lowest ratio, and of those with the lowest identifier. -/
def Sched.Best (s : Sched) (p : Slot) : Prop := (s.task p).state = .runnable ∧
  ∀ q, q ≠ p → (s.task q).state = .runnable → (s.task p).ratio < (s.task q).ratio ∨
    (s.task p).ratio = (s.task q).ratio ∧ (s.task p).pid < (s.task q).pid

lemma Task.key_lt_iff (t u : Task) :
    t.key < u.key ↔ t.ratio < u.ratio ∨ t.ratio = u.ratio ∧ t.pid < u.pid := by
  have hkey : ∀ t : Task, (t.score : ℚ) / t.weightOf = t.ratio * 1024 := by
    intro t
    unfold score ratio
    push_cast
    exact mul_div_right_comm _ _ _
  simp [key, Prod.Lex.toLex_lt_toLex, hkey]

lemma Sched.best_of_select
    (hpid : ∀ p q, (s.task p).state = .runnable → (s.task q).state = .runnable →
    (s.task p).pid = (s.task q).pid → p = q) (h : s.select = some p) : s.Best p := by
  rw [select_eq] at h
  have hp := (s.mem_candidates p).mp (List.argmin_mem h)
  refine ⟨hp, fun q hne hq => (Task.key_lt_iff _ _).mp ?_⟩
  have hle := List.le_of_mem_argmin ((s.mem_candidates q).mpr hq) h
  refine lt_of_le_of_ne hle fun heq => hne ?_
  exact hpid q p hq hp (Prod.ext_iff.mp heq).2.symm

/-- **The choice of `schedule`**, wherever the current process is in the table. The products that it
compares are below 2⁵⁸. -/
theorem schedule_best (hpid : ∀ p q, (s.task p).state = .runnable → (s.task q).state = .runnable →
    (s.task p).pid = (s.task q).pid → p = q) :
    if ∃ p, (s.task p).state = .runnable then s.Best s.schedule.current
    else s.schedule.current = if (s.task s.current).state = .running then s.current else 0 := by
  have hnone := s.select_eq_none
  unfold Sched.schedule
  cases hnext : s.select with
  | some next =>
    rw [hnext] at hnone
    rw [if_pos (by simpa using hnone), Sched.switchTo_current]
    exact Sched.best_of_select hpid hnext
  | none =>
    rw [if_neg (by simpa using hnone.mp hnext)]
    dsimp only
    split_ifs
    · rfl
    · exact s.switchTo_current 0

/-- The idle process runs; another one has the default priority. -/
def Sched.boot : Sched where
  task p :=
    if p = 0 then { state := .running, timeSlice := 1, weight := 256 }
    else if p = 1 then
      { pid := 1, state := .runnable, timeSlice := 10, basePriority := 3, weight := 160 }
    else {}
  current := 0
  now := 0

lemma start_boot : Sched.boot.Start where
  state := by decide
  wakeupTick := by decide

/-- The idle process goes on. -/
theorem schedule_oneRunner_boot : OneRunner Sched.boot.schedule :=
  (schedule_oneRunner_iff (.init start_boot)).mpr (.inl rfl)

/-- Process 3 runs, and four others are `RUNNABLE`. Processes 7 and 4 have the ratio 1 / 32: the
priority of the first is 4, that of the second is 6, and it has waited for three ticks. The ratios
of processes 2 and 9 are 7 / 80 and 5 / 112. -/
def Sched.busy : Sched where
  task p :=
    if p = 1 then { pid := 2, state := .runnable, basePriority := 7, weight := 80 }
    else if p = 2 then { pid := 3, state := .running, timeSlice := 1, basePriority := 3, weight :=
      160 }
    else if p = 3 then { pid := 7, state := .runnable, basePriority := 4, weight := 128 }
    else if p = 5 then
      { pid := 4, state := .runnable, basePriority := 6, agingScore := 3, weight := 96 }
    else if p = 6 then { pid := 9, state := .runnable, basePriority := 5, weight := 112 }
    else {}
  current := 2
  now := 0

/-- The process in slot 3 comes first, and the tie goes to the lower identifier in slot 5. -/
theorem schedule_best_busy : Sched.busy.schedule.current = 5 ∧ Sched.busy.Best 5 ∧
    (Sched.busy.task 3).ratio = (Sched.busy.task 5).ratio ∧
    (Sched.busy.task 5).ratio < (Sched.busy.task 1).ratio := by
  have hcurrent : Sched.busy.schedule.current = 5 := by decide +kernel
  have hbest := schedule_best (s := Sched.busy) (by decide +kernel)
  rw [if_pos ⟨5, rfl⟩, hcurrent] at hbest
  exact ⟨hcurrent, hbest, by decide +kernel, by decide +kernel⟩

/-- The slice of the idle process ends, and `schedule` keeps it, `RUNNABLE`. -/
theorem schedule_keeps_runnable : ∃ s, schedRuns.Reach s ∧ ¬ OneRunner s.schedule := by
  refine ⟨Sched.boot.tick, .step (.init start_boot) (a := .tick) trivial rfl, fun h => ?_⟩
  have hidle : Sched.boot.tick.schedule.current = 0 ∧
      (Sched.boot.tick.schedule.task 0).state = .runnable := by decide +kernel
  have := (h 0).mpr hidle.1.symm
  rw [hidle.2] at this
  cases this

/-! ## Timed sleeps -/

/-- When a process sleeps, its `wakeup_tick` belongs to this sleep and has not come yet. -/
def Task.Timed (now : ℕ) (t : Task) : Prop := t.state = .sleeping →
  (t.slept = none ∧ t.wakeupTick = 0) ∨ ∃ start n, t.slept = some (start, n) ∧
    t.wakeupTick = w32 (start + n) ∧ t.wakeupTick ≠ 0 ∧ start ≤ now ∧ now < start + max n 1 ∧
    w32 start + max n 1 < 0x100000000

/-- No sleep reaches a multiple of 2³² ticks, and no process blocks while its `wakeup_tick` is
set. -/
def timedRuns : System Sched Act :=
  { schedRuns with guard := fun s a => match a with
      | .sleep n => w32 s.now + max n 1 < 0x100000000 ∧ w32 (s.now + n) ≠ 0
      | .block => (s.task s.current).wakeupTick = 0
      | _ => True }

/-- **The timer** wakes a process at the first tick when its time is over. -/
lemma Task.Timed.due_iff (h : t.Timed now) (hsleep : t.state = .sleeping) :
    t.Due (now + 1) ↔ ∃ start n, t.slept = some (start, n) ∧ start + n ≤ now + 1 := by
  unfold Task.Due
  rcases h hsleep with ⟨hnone, hzero⟩ | ⟨start, n, hslept, hwake, hne, hle, hlt, hsmall⟩
  · simp [hnone, hzero]
  · simp only [hsleep, hne, hslept, Option.some.injEq, Prod.mk.injEq, true_and, ne_eq,
      not_false_eq_true]
    rw [hwake]
    unfold w32 at hsmall ⊢
    constructor
    · intro h
      exact ⟨start, n, ⟨rfl, rfl⟩, by omega⟩
    · rintro ⟨_, _, ⟨rfl, rfl⟩, h⟩
      omega

lemma Task.Timed.tick (h : t.Timed now) (c : Bool) : (t.tick (now + 1) c).Timed (now + 1) := by
  intro hs
  rw [Task.state_tick] at hs
  split_ifs at hs with hdue
  have hsame : (t.tick (now + 1) c).slept = t.slept ∧
    (t.tick (now + 1) c).wakeupTick = t.wakeupTick := by
    unfold Task.tick
    rw [if_neg hdue, if_neg (by simp [hs])]
    exact ⟨rfl, rfl⟩
  rw [hsame.1, hsame.2]
  rw [h.due_iff hs] at hdue
  rcases h hs with hnone | ⟨start, n, hslept, hwake, hne, hle, hlt, hsmall⟩
  · exact .inl hnone
  · have : ¬ start + n ≤ now + 1 := fun hc => hdue ⟨start, n, hslept, hc⟩
    exact .inr ⟨start, n, hslept, hwake, hne, by omega, by omega, hsmall⟩

lemma Sched.schedule_timed (h : ∀ p, (s.task p).Timed s.now) (p : Slot) :
    (s.schedule.task p).Timed s.schedule.now := by
  have hswitch : ∀ next, ((s.switchTo next).task p).Timed (s.switchTo next).now := by
    intro next
    unfold switchTo
    split_ifs
    · exact h p
    · dsimp only
      refine forall_modify (P := fun _ t => t.Timed s.now)
        (forall_modify (P := fun _ t => t.Timed s.now) h ?_) ?_ p
      · split_ifs
        · unfold Task.age
          split_ifs <;> exact nofun
        · exact h _
      · exact nofun
  unfold schedule
  split
  · exact hswitch _
  · split_ifs
    · exact forall_modify (P := fun _ t => t.Timed s.now) h (h s.current) p
    · exact hswitch _

lemma timed_of_reach (h : timedRuns.Reach s) : ∀ p, (s.task p).Timed s.now := by
  refine System.Reach.invariant (M := timedRuns) (I := fun s => ∀ p, (s.task p).Timed s.now)
    (fun s h0 p => (h0.state p).1.elim) ?_ h
  rintro s a _ hs hg rfl
  have hmodify : ∀ p f, (f (s.task p)).Timed s.now → ∀ r, ((s.modify p f).task r).Timed s.now :=
    fun p f =>
    Sched.forall_modify (P := fun _ t => t.Timed s.now) hs
  cases a
  all_goals dsimp only [Sched.act]
  case tick =>
    rw [s.tick_frame.2]
    have hall : ∀ r, (s.tickAll.task r).Timed (s.now + 1) := fun r => (hs r).tick _
    exact Sched.forall_tick (P := fun _ t => t.Timed (s.now + 1)) hall fun _ _ => ⟨hall _, nofun⟩
  case schedule => exact Sched.schedule_timed hs
  case yield => exact hmodify _ _ (hs _)
  case sleep n => exact hmodify _ _ fun _ => .inr ⟨s.now, n, rfl, rfl, hg.2, le_rfl, by omega, hg.1⟩
  case block => exact hmodify _ _ fun _ => .inl ⟨rfl, hg⟩
  case wake p =>
    refine hmodify _ _ fun h => ?_
    rw [Task.state_wake] at h
    split_ifs at h with hsleep
    exact absurd h hsleep
  case exit =>
    refine hmodify _ _ ?_
    split_ifs
    · exact hs _
    · exact nofun
  case reap p =>
    refine hmodify _ _ ?_
    split_ifs
    · exact nofun
    · exact hs _

/-- **Timed sleeps**: a tick wakes a process exactly when its sleep was started by `process_sleep`
and the ticks asked for have passed. -/
theorem tick_wakes_iff (h : timedRuns.Reach s) (p : Slot) :
    (s.task p).state = .sleeping ∧ (s.tick.task p).state = .runnable ↔
      (s.task p).state = .sleeping ∧ ∃ start n, (s.task p).slept = some (start, n) ∧
      start + n ≤ s.now + 1 := by
  refine and_congr_right fun hsleep => ?_
  have hstate := Sched.forall_tick (s := s)
    (P := fun r t => (s.tickAll.task r).state ≠ .running → t.state = (s.tickAll.task r).state)
    (fun _ _ => rfl) (fun hrun _ => ⟨fun h => absurd hrun h, fun h => absurd hrun h⟩) p
  rw [s.tickAll_state, hsleep] at hstate
  rw [← (timed_of_reach h p).due_iff hsleep]
  split_ifs at hstate with hdue
  · exact iff_of_true (hstate nofun) hdue
  · rw [hstate nofun]
    exact iff_of_false nofun hdue

/-- Process 1 asks for two ticks, the idle process runs, and one tick passes. -/
theorem tick_wakes_two : ∃ s, timedRuns.Reach s ∧ (s.task 1).slept = some (0, 2) ∧
    (s.tick.task 1).state = .runnable := by
  have hstart : timedRuns.Reach Sched.boot := .init start_boot
  have hschedule : ∀ s, timedRuns.guard s .schedule := fun _ => trivial
  have hsleep : timedRuns.guard Sched.boot.schedule (.sleep 2) := ⟨by decide, by decide⟩
  have htick : ∀ s, timedRuns.guard s .tick := fun _ => trivial
  have hreach := (((hstart.step (hschedule _) rfl).step hsleep rfl).step (hschedule _) rfl).step
    (htick _) rfl
  refine ⟨_, hreach, by decide +kernel,
    ((tick_wakes_iff hreach 1).mpr ⟨by decide +kernel, 0, 2, ?_⟩).2⟩
  exact ⟨by decide +kernel, by decide +kernel⟩

instance (s : Sched) (a : Act) : Decidable (schedRuns.guard s a) := inferInstanceAs (Decidable True)

/-- Process 1 asks for three ticks, a signal wakes it at once, and it waits for a child with
`sys_wait`. The tick at which its sleep would have ended wakes it. -/
theorem stale_wakeup : ∃ s, schedRuns.Reach s ∧ (s.task 1).state = .sleeping ∧
    (s.task 1).slept = none ∧ (s.tick.task 1).state = .runnable := by
  refine ⟨_, System.Reach.foldl (f := Sched.act) (fun _ _ => rfl) (.init start_boot)
    [.schedule, .sleep 3, .schedule, .wake 1, .schedule, .block, .schedule, .tick, .tick] rfl, ?_⟩
  decide +kernel

/-! ## The wait queues -/

/-- The table of the scheduler has the states of the processes that the descriptors depend on. -/
def Sched.Shows (s : Sched) (f : FdState) : Prop := ∀ p : Slot, (s.task p).state = (f.procs p).state

lemma Sched.act_wake_state (s : Sched) (p r : Slot) :
    ((s.act (.wake p)).task r).state =
      if r = p ∧ (s.task r).state = .sleeping then .runnable else (s.task r).state := by
  have h : (s.act (.wake p)).task r = if r = p then (s.task p).wake else s.task r :=
    s.modify_task p r Task.wake
  rw [h]
  by_cases hr : r = p
  · rw [if_pos hr, Task.state_wake, hr]
    simp only [true_and]
  · simp only [hr, if_false, false_and]

/-- A list of wake steps makes the sleepers of the list `RUNNABLE`. -/
lemma Sched.wakes_state (l : List Slot) (s : Sched) (r : Slot) :
    (((l.map Act.wake).foldl Sched.act s).task r).state =
      if r ∈ l ∧ (s.task r).state = .sleeping then .runnable else (s.task r).state := by
  induction l generalizing s with
  | nil => simp
  | cons p l ih =>
    rw [List.map_cons, List.foldl_cons, ih, s.act_wake_state]
    by_cases hr : r = p
    · subst hr
      by_cases hsleep : (s.task r).state = .sleeping <;> simp [hsleep]
    · simp only [hr, false_and, if_false, List.mem_cons, false_or]

/-- **`process_wake`**: `wait_queue_wake_all` of the descriptors is a run of the scheduler, one wake
step for each process of the queue. -/
theorem Sched.Shows.wakeAll {f : FdState} (h : s.Shows f) (q : ℕ × PipeEnd) (l : List Slot)
    (hl : f.queues q = l.map Fin.val) :
    ((l.map Act.wake).foldl Sched.act s).Shows (waitQueueWakeAll q f) := by
  intro r
  have hmem : (r : ℕ) ∈ f.queues q ↔ r ∈ l := by
    rw [hl, List.mem_map]
    exact ⟨fun ⟨p, hp, hpr⟩ => Fin.ext hpr ▸ hp, fun hr => ⟨r, hr, rfl⟩⟩
  rw [s.wakes_state, h r]
  simp only [waitQueueWakeAll, hmem]
  split_ifs <;> simp_all [Process.wake]

end FrostByte.Scheduler
