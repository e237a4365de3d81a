import FrostByte.Fd.Calls

/-!
# Process creation, exit and reaping keep the invariant

A destroyed process gives up every entry before its slot is cleared. A forked process is created
with a terminal and then receives a copy of its parent's table over it.

## Main results

* `FdInv.processDestroy`, `FdInv.processExit` — the end of a process.
* `FdInv.processCreate`, `FdInv.sysFork` — a new process, and one made by `sys_fork`.
-/

namespace FrostByte

open Function RefCount FdState

variable {lost : ℕ → ℕ} {pending : Finset ℕ} {s : FdState} {c p fd i n : ℕ} {extra : ℕ → ℕ}

/-! ## The end of a process -/

lemma FdInv.unlinkWaiting (h : FdInv lost extra pending s) (p : ℕ) :
    FdInv lost extra pending (unlinkWaiting p s) ∧ Calm s (unlinkWaiting p s) ∧
      ((unlinkWaiting p s).procs p).waitingOn = none := by
  unfold FrostByte.unlinkWaiting
  cases hw : (s.procs p).waitingOn with
  | none => exact ⟨h, Calm.refl s, hw⟩
  | some q =>
    have hcalm : Calm s (s.setProc p { s.procs p with waitingOn := none }) :=
      Calm.setProc rfl fun _ => rfl
    refine ⟨⟨h.toCounted.congr rfl (held_setProc fun _ _ => rfl) rfl rfl rfl,
      h.toPiped.requeue (fun _ => rfl)
      (h.lt p) ?_ (h.left hw ?_) (fun r hr => List.mem_erase_of_ne hr) ((h.nodup q).erase p) ?_⟩,
      ⟨hcalm.unused, hcalm.waiting⟩, ?_⟩
    · rintro rfl
      exact h.kernel
    · rw [(h.nodup q).mem_erase_iff]
      exact fun hmem => hmem.1 rfl
    · intro hnil
      simp [hnil]
    · simp

lemma FdInv.unlinkChild (h : FdInv lost extra pending s) (p : ℕ) :
    FdInv lost extra pending (unlinkChild p s) ∧ Calm s (unlinkChild p s) ∧
      (unlinkChild p s).held = s.held := by
  unfold FrostByte.unlinkChild
  cases (s.procs p).parent with
  | none => exact ⟨h, Calm.refl s, rfl⟩
  | some q =>
    refine ⟨h.setProc_same rfl rfl rfl, Calm.setProc rfl id, ?_⟩
    funext k
    unfold held
    by_cases hk : k.1 = q
    · rw [hk, setProc_self]
      rfl
    · rw [setProc_of_ne hk]

/-- The entries are closed one by one before the slot is cleared. -/
lemma FdInv.processDestroy (h : FdInv lost extra pending s) (hp : 1 ≤ p) :
    FdInv lost extra pending (processDestroy p s) ∧
      ∀ q, q ≠ p →
      (((processDestroy p s).procs q).state = .unused ↔ (s.procs q).state = .unused) := by
  unfold FrostByte.processDestroy
  by_cases hu : (s.procs p).state = .unused
  · rw [if_pos hu]
    exact ⟨h, fun _ _ => Iff.rfl⟩
  rw [if_neg hu]
  obtain ⟨h1, hcalm1, hwait1⟩ := h.unlinkWaiting p
  obtain ⟨h2, hcalm2, hheld2⟩ := h1.fdCloseAllFor hp (hcalm1.used hu)
  obtain ⟨h3, hcalm3, hheld3⟩ := h2.unlinkChild p
  have hcalm := hcalm1.trans (hcalm2.trans hcalm3)
  constructor
  · apply h3.setProc
    · intro fd hfd
      have hminus := hheld2 fd hfd
      rw [← hheld3] at hminus
      exact hminus.symm
    · exact (hcalm3.waiting p (hcalm2.waiting p hwait1)).symm
    · intro _
      rfl
    · intro hne
      exact absurd rfl hne
    · intro h0
      omega
  · intro q hq
    rw [← hcalm.unused q, setProc_of_ne hq]

lemma Piped.one_le_of_zombie (h : Piped s) (hz : (s.procs p).state = .zombie) : 1 ≤ p := by
  by_contra hlt
  obtain rfl : p = 0 := by omega
  exact h.kernel.2 hz

lemma FdInv.reapZombie (h : FdInv lost extra pending s) (c i : ℕ) :
    FdInv lost extra pending (reapZombie c s i) ∧
      (((reapZombie c s i).procs c).state = .unused ↔ (s.procs c).state = .unused) := by
  unfold FrostByte.reapZombie
  split_ifs with hz
  · obtain ⟨h1, hothers⟩ := h.processDestroy (h.toPiped.one_le_of_zombie hz.1)
    exact ⟨h1, hothers c (Ne.symm hz.2.1)⟩
  · exact ⟨h, Iff.rfl⟩

lemma FdInv.processReapZombies (h : FdInv lost extra pending s) (c : ℕ) :
    FdInv lost extra pending (processReapZombies c s) ∧
      (((processReapZombies c s).procs c).state = .unused ↔ (s.procs c).state = .unused) := by
  unfold FrostByte.processReapZombies
  generalize List.range maxProcesses = l
  induction l generalizing s with
  | nil => exact ⟨h, Iff.rfl⟩
  | cons i l ih =>
    obtain ⟨h1, hc1⟩ := h.reapZombie c i
    obtain ⟨h2, hc2⟩ := ih h1
    exact ⟨h2, hc2.trans hc1⟩

lemma FdInv.reapChild (h : FdInv lost extra pending s) (c : ℕ) (which : ℕ → Bool) :
    FdInv lost extra pending (reapChild c which s).2 := by
  unfold FrostByte.reapChild
  cases hfind : (s.procs c).children.find? fun q =>
      which (s.procs q).pid ∧ (s.procs q).state = .zombie with
  | none => exact h
  | some q =>
    have hfound := List.find?_some hfind
    have hz := of_decide_eq_true hfound
    exact (h.processDestroy (h.toPiped.one_le_of_zombie hz.2)).1

lemma FdInv.reparent (h : FdInv lost extra pending s) (init : Option ℕ) (child : ℕ) :
    FdInv lost extra pending (reparent init s child) ∧ Calm s (reparent init s child) := by
  have h1 : FdInv lost extra pending (s.setProc child { s.procs child with parent := init }) :=
    h.setProc_same rfl rfl rfl
  have hc1 : Calm s (s.setProc child { s.procs child with parent := init }) := Calm.setProc rfl id
  cases init with
  | none => exact ⟨h1, hc1⟩
  | some i => exact ⟨h1.setProc_same rfl rfl rfl, hc1.trans (Calm.setProc rfl id)⟩

lemma FdInv.reparentAll (l : List ℕ) (init : Option ℕ) (h : FdInv lost extra pending s) :
    FdInv lost extra pending (l.foldl (FrostByte.reparent init) s) ∧
      Calm s (l.foldl (FrostByte.reparent init) s) := by
  induction l generalizing s with
  | nil => exact ⟨h, Calm.refl s⟩
  | cons q l ih =>
    obtain ⟨h1, hc1⟩ := h.reparent init q
    obtain ⟨h2, hc2⟩ := ih h1
    exact ⟨h2, hc1.trans hc2⟩

lemma FdInv.setState (h : FdInv lost extra pending s) (hs : (s.procs p).state ≠ .unused)
    {st : ProcState} (hst : st ≠ .unused) (hkernel : p = 0 → st ≠ .zombie) :
    FdInv lost extra pending (s.setProc p { s.procs p with state := st }) := by
  apply h.setProc
  · intro fd _
    show (if st = .unused then _ else _) = if (s.procs p).state = .unused then _ else _
    rw [if_neg hst, if_neg hs]
  · rfl
  · intro hu
    exact absurd hu hst
  · intro _
    exact h.lt p hs
  · intro h0
    exact ⟨hst, hkernel h0⟩

lemma FdInv.processWake (h : FdInv lost extra pending s) (q : ℕ) :
    FdInv lost extra pending (processWake q s) := by
  unfold FrostByte.processWake
  split_ifs with hsleep
  · exact h.setState (by rw [hsleep]; decide) (by decide) fun _ => by decide
  · exact h

/-- An exit keeps the entries and hands the children over to init. -/
lemma FdInv.processExit (h : FdInv lost extra pending s) (hp : 1 ≤ p)
    (hs : (s.procs p).state ≠ .unused) : FdInv lost extra pending (processExit p s) := by
  unfold FrostByte.processExit
  by_cases hpid : (s.procs p).pid = 0
  · rw [if_pos hpid]
    exact h
  rw [if_neg hpid]
  dsimp only
  have h1 : FdInv lost extra pending (s.setProc p { s.procs p with children := [] }) :=
    h.setProc_same rfl rfl rfl
  have hs1 : ((s.setProc p { s.procs p with children := [] }).procs p).state ≠ .unused := by
    rw [setProc_self]
    exact hs
  obtain ⟨h2, hcalm⟩ := h1.reparentAll (s.procs p).children (processGetByPid 1 s)
  generalize (s.procs p).children.foldl (FrostByte.reparent (processGetByPid 1 s)) _ =
    t at h2 hcalm ⊢
  have hs2 := hcalm.used hs1
  have h3 : FdInv lost extra pending (t.setProc p { t.procs p with state := .zombie }) :=
    h2.setState hs2 (by decide) fun h0 => by omega
  split
  · exact h3
  · exact h3.processWake _

/-! ## A new process -/

/-- Every entry of a process holds a file or terminal, or nothing. -/
def FdState.PlainEntries (s : FdState) (p : ℕ) : Prop :=
  ∀ fd i : ℕ, s.held (p, fd) = i → ∃ n, (s.files i).node = some n ∧ s.kind n = .file

/-- The table of the process is empty. -/
def FdState.NoEntries (s : FdState) (p : ℕ) : Prop := ∀ fd : ℕ, s.held (p, fd) = -1

lemma FdState.NoEntries.plain (h : s.NoEntries p) : s.PlainEntries p := by
  intro fd i hi
  rw [h fd] at hi
  omega

lemma FdInv.bindStdio (h : FdInv lost extra pending s) (hp : 1 ≤ p)
    (hs : (s.procs p).state ≠ .unused) (hnone : s.NoEntries p) {flags append : ℕ} {s1 : FdState}
    (ha : FrostByte.ofAlloc s.nextNode flags append (s.newNode .file) = (some i, s1)) :
    FdInv lost extra pending
        ((((s1.setFile i { s1.files i with refCount := 3 }).setFd p 0 i).setFd p 1 i).setFd p 2 i) ∧
      Calm s
        ((((s1.setFile i { s1.files i with refCount := 3 }).setFd p 0 i).setFd p 1 i).setFd p 2 i) ∧
      FdState.PlainEntries
        ((((s1.setFile i { s1.files i with refCount := 3 }).setFd p 0 i).setFd p 1 i).setFd p 2 i)
        p := by
  have h1 := h.newNode_file.ofAlloc (Finset.mem_insert_self _ _) ha
  rw [Finset.erase_insert h.toCounted.nextNode_notMem] at h1
  obtain ⟨hi, -, hs1⟩ := ofAlloc_some ha
  have hfile : s1.files i = ⟨some s.nextNode, 0, flags, 1, append⟩ := by
    rw [hs1]
    exact update_self _ _ _
  have hkind1 : s1.kind s.nextNode = .file := by
    rw [hs1]
    exact update_self _ _ _
  obtain ⟨s2, hs2⟩ : ∃ t, t = s1.setFile i { s1.files i with refCount := 3 } := ⟨_, rfl⟩
  have hprocs : s2.procs = s.procs := by
    rw [hs2, hs1]
    rfl
  have hheld : s2.held = s.held := by
    funext k
    unfold held
    rw [hprocs]
  have hnode : (s2.files i).node = some s.nextNode := by
    rw [hs2]
    show (update s1.files i _ i).node = _
    rw [update_self, hfile]
  have hkind2 : s2.kind s.nextNode = .file := by
    rw [hs2]
    exact hkind1
  have h2 : FdInv lost (bump (bump (bump extra i) i) i) pending s2 := by
    apply h1.setFile hi hs2
    · rw [hfile]
      show 3 + _ = 1 + _
      rw [bump_apply (bump (bump extra i) i), bump_apply (bump extra i), if_pos rfl]
      omega
    · intro _
      exact Nat.succ_pos _
    · intro j hj
      rw [bump_apply _ i j, bump_apply _ i j, if_neg (Ne.symm hj)]
      rfl
    · intro _
      rfl
    · intro m
      rfl
  have hu0 : (s2.procs p).state ≠ .unused := by
    rw [hprocs]
    exact hs
  have hu1 := (Calm.setFd s2 p 0 i).used hu0
  have hu2 := (Calm.setFd (s2.setFd p 0 i) p 1 i).used hu1
  have hk : ∀ fd < fdTableSize, (p, fd) ∈ descriptors := fun fd hfd =>
    h.toPiped.mem_descriptors hp hs hfd
  have hheld0 := held_setFd hu0 0 i
  have hheld1 := held_setFd hu1 1 i
  have hheld2 := held_setFd hu2 2 i
  have hne : ∀ {a b : ℕ}, a ≠ b → (p, a) ≠ (p, b) := fun hab hpq => hab (Prod.mk.inj hpq).2
  have h3 := h2.bind hu0 (hk 0 (by decide)) (by rw [hheld]; exact hnone 0) hi
  have h4 := h3.bind hu1 (hk 1 (by decide))
    (by rw [hheld0, update_of_ne (hne (by decide)), hheld]; exact hnone 1) hi
  have h5 := h4.bind hu2 (hk 2 (by decide))
    (by rw [hheld1, update_of_ne (hne (by decide)), hheld0, update_of_ne (hne (by decide)), hheld]
        exact hnone 2) hi
  rw [← hs2]
  refine ⟨h5, (Calm.of_procs hprocs).trans ((Calm.setFd s2 p 0 i).trans
    ((Calm.setFd _ p 1 i).trans (Calm.setFd _ p 2 i))), fun fd j hj => ?_⟩
  have hij : j = i := by
    rw [hheld2, hheld1, hheld0, hheld] at hj
    by_cases hf2 : fd = 2
    · rw [hf2, update_self] at hj
      exact_mod_cast hj.symm
    rw [update_of_ne (hne hf2)] at hj
    by_cases hf1 : fd = 1
    · rw [hf1, update_self] at hj
      exact_mod_cast hj.symm
    rw [update_of_ne (hne hf1)] at hj
    by_cases hf0 : fd = 0
    · rw [hf0, update_self] at hj
      exact_mod_cast hj.symm
    rw [update_of_ne (hne hf0), hnone fd] at hj
    omega
  rw [hij]
  exact ⟨s.nextNode, hnode, hkind2⟩

lemma FdInv.fdInitProcessStdio (h : FdInv lost extra pending s) (hp : 1 ≤ p)
    (hs : (s.procs p).state ≠ .unused) (htable : (s.procs p).fdTable = fun _ => -1) (tty : Bool) :
    FdInv lost extra pending (fdInitProcessStdio p tty s) ∧ Calm s (fdInitProcessStdio p tty s) ∧
      (fdInitProcessStdio p tty s).PlainEntries p ∧
      (tty = false ∨ freeSlots s = 0 → (fdInitProcessStdio p tty s).NoEntries p) := by
  have hnone : s.NoEntries p := by
    intro fd
    rw [FdState.held_of_used hs, htable]
  have htable' : (fun i => if (s.procs p).fdTable i ≠ -1 ∧ (s.procs p).fdTable i < maxOpenFiles
      then (s.procs p).fdTable i else -1) = (s.procs p).fdTable := by
    funext i
    rw [htable]
    rfl
  have hsame : s.setProc p (s.procs p) = s := by
    unfold FdState.setProc
    rw [update_eq_self]
  unfold FrostByte.fdInitProcessStdio
  dsimp only
  rw [htable', hsame]
  cases tty with
  | false => exact ⟨h, Calm.refl s, hnone.plain, fun _ => hnone⟩
  | true =>
    cases ha : FrostByte.ofAlloc s.nextNode (vfsFlagRead + vfsFlagWrite) 0 (s.newNode .file) with
    | mk r s1 =>
      cases r with
      | none =>
        obtain ⟨rfl, -⟩ := ofAlloc_none ha
        have h1 := h.newNode_file.vfsClose (Finset.mem_insert_self _ _)
        rw [Finset.erase_insert h.toCounted.nextNode_notMem] at h1
        have hheld : (FrostByte.vfsClose s.nextNode (s.newNode .file)).held = s.held :=
          (vfsClose_frame s.nextNode (s.newNode .file)).2.1
        have hnone' : (FrostByte.vfsClose s.nextNode (s.newNode .file)).NoEntries p := by
          intro fd
          rw [hheld]
          exact hnone fd
        refine ⟨h1, Calm.trans ?_ (Calm.vfsClose s.nextNode (s.newNode .file)), hnone'.plain,
          fun _ => hnone'⟩
        exact Calm.of_procs rfl
      | some i =>
        obtain ⟨h1, hcalm, hplain⟩ := h.bindStdio hp hs hnone ha
        refine ⟨h1, hcalm, hplain, fun hor => ?_⟩
        rcases hor with hfalse | hfull
        · cases hfalse
        · obtain ⟨hi, hfree, -⟩ := ofAlloc_some ha
          exact absurd hfree ((uses_eq_zero_iff _).mp hfull i (Finset.mem_range.mpr hi))

lemma processCreate_find {t : FdState}
    (h : ((List.range' 1 (maxProcesses - 1)).find? fun i => (t.procs i).state = .unused) = some p) :
    1 ≤ p ∧ p < maxProcesses ∧ (t.procs p).state = .unused := by
  have hmem := List.mem_of_find?_eq_some h
  have hfound := List.find?_some h
  rw [List.mem_range'_1] at hmem
  refine ⟨hmem.1, ?_, of_decide_eq_true hfound⟩
  omega

lemma FdInv.take (h : FdInv lost extra pending s) (hp : 1 ≤ p) (hlt : p < maxProcesses)
    (hu : (s.procs p).state = .unused) {x : Process} (hrow : ∀ fd, x.row fd = -1)
    (hwait : x.waitingOn = none) : FdInv lost extra pending (s.setProc p x) := by
  apply h.setProc
  · intro fd _
    rw [hrow]
    exact (if_pos hu).symm
  · rw [hwait, h.idle p hu]
  · intro _
    exact hwait
  · intro _
    exact hlt
  · intro h0
    omega

/-- A new process has a terminal in its first three entries, or none. -/
lemma FdInv.processCreate (h : FdInv lost extra pending s) (hs : (s.procs c).state ≠ .unused)
    (userMode memory tty : Bool) :
    FdInv lost extra pending (processCreate c userMode memory tty s).2 ∧
      ∀ p, (processCreate c userMode memory tty s).1 = some p → memory = true ∧ 1 ≤ p ∧ p ≠ c ∧
        ((processCreate c userMode memory tty s).2.procs c).state ≠ .unused ∧
        ((processCreate c userMode memory tty s).2.procs p).state ≠ .unused ∧
        (processCreate c userMode memory tty s).2.PlainEntries p ∧
        (tty = false ∨ freeSlots (FrostByte.processReapZombies c s) = 0 →
          (processCreate c userMode memory tty s).2.NoEntries p) := by
  obtain ⟨h1, hc1⟩ := h.processReapZombies c
  unfold FrostByte.processCreate
  dsimp only
  generalize FrostByte.processReapZombies c s = t at h1 hc1 ⊢
  have hct : (t.procs c).state ≠ .unused := mt hc1.mp hs
  cases hfind : (List.range' 1 (maxProcesses - 1)).find? fun i => (t.procs i).state = .unused with
  | none => exact ⟨h1, fun p hp => by cases hp⟩
  | some q =>
    obtain ⟨hq, hlt, hu⟩ := processCreate_find hfind
    have hqc : q ≠ c := by
      rintro rfl
      exact hct hu
    dsimp only
    cases memory with
    | false => exact ⟨h1.take hq hlt hu (fun _ => rfl) rfl, fun p hp => by cases hp⟩
    | true =>
      rw [if_neg (by decide)]
      -- the process, linked to its parent
      obtain ⟨x, hx⟩ : ∃ x : Process, x = { Process.zeroed with
        pid := processGetNextPid t, state := .embryo, parent := some c, fdTable := fun _ => -1 } :=
        ⟨_, rfl⟩
      have hxs : x.state = .embryo := by rw [hx]
      have hxt : x.fdTable = fun _ => -1 := by rw [hx]
      have h2 : FdInv lost extra pending (t.setProc q x) := by
        apply h1.take hq hlt hu
        · intro fd
          unfold Process.row
          rw [hxt, hxs]
          rfl
        · rw [hx]
          rfl
      obtain ⟨t2, ht2⟩ : ∃ t2, t2 = (t.setProc q x).setProc c
        { (t.setProc q x).procs c with children := q :: ((t.setProc q x).procs c).children } :=
        ⟨_, rfl⟩
      have h3 : FdInv lost extra pending t2 := by
        rw [ht2]
        exact h2.setProc_same rfl rfl rfl
      have hq2 : t2.procs q = x := by
        rw [ht2, setProc_of_ne hqc, setProc_self]
      have hc2 : (t2.procs c).state ≠ .unused := by
        rw [ht2, setProc_self, setProc_of_ne (Ne.symm hqc)]
        exact hct
      have hu2 : (t2.procs q).state ≠ .unused := by
        rw [hq2, hxs]
        decide
      have htab2 : (t2.procs q).fdTable = fun _ => -1 := by rw [hq2, hxt]
      have hfree : freeSlots t2 = freeSlots t := by
        rw [ht2]
        rfl
      obtain ⟨t3, ht3⟩ : ∃ t3,
        t3 = if userMode then FrostByte.fdInitProcessStdio q tty t2 else t2 :=
        ⟨_, rfl⟩
      have h4 : FdInv lost extra pending t3 ∧ Calm t2 t3 ∧ t3.PlainEntries q ∧
          (tty = false ∨ freeSlots t = 0 → t3.NoEntries q) := by
        cases userMode with
        | true =>
          rw [ht3, ← hfree]
          exact h3.fdInitProcessStdio hq hu2 htab2 tty
        | false =>
          have hnone : t2.NoEntries q := by
            intro fd
            rw [held_of_used hu2, htab2]
          rw [ht3]
          exact ⟨h3, Calm.refl t2, hnone.plain, fun _ => hnone⟩
      obtain ⟨hinv, hcalm, hplain, hno⟩ := h4
      have hu3 := hcalm.used hu2
      have h5 : FdInv _ _ _ (t3.setProc q { t3.procs q with state := .runnable }) :=
        hinv.setState hu3 (by decide) fun h0 => by omega
      have hheld : (t3.setProc q { t3.procs q with state := .runnable }).held = t3.held := by
        funext k
        unfold held
        by_cases hk : k.1 = q
        · rw [hk, setProc_self]
          show (if _ then _ else _) = if (t3.procs q).state = .unused then _ else _
          rw [if_neg hu3]
          rfl
        · rw [setProc_of_ne hk]
      rw [← hx, ← ht2, ← ht3]
      refine ⟨h5, fun p hp => ?_⟩
      cases hp
      refine ⟨rfl, hq, hqc, ?_, ?_, ?_, fun hor fd => ?_⟩
      · rw [setProc_of_ne (Ne.symm hqc)]
        exact hcalm.used hc2
      · rw [setProc_self]
        exact fun hfalse => by cases hfalse
      · intro fd i hi
        rw [hheld] at hi
        exact hplain fd i hi
      · rw [hheld]
        exact hno hor fd

/-! ## Fork -/

lemma FdState.setFd_setFd (s : FdState) (p fd : ℕ) (v w : ℤ) :
    (s.setFd p fd v).setFd p fd w = s.setFd p fd w := by
  unfold setFd
  rw [setProc_self]
  unfold setProc
  rw [update_idem, update_idem]

lemma FdInv.forget (h : FdInv lost extra pending s) (hs : (s.procs p).state ≠ .unused)
    (hk : (p, fd) ∈ descriptors)
    (hplain : ∀ i : ℕ, s.held (p, fd) = i → ∃ n, (s.files i).node = some n ∧ s.kind n = .file) :
    ∃ lost', FdInv lost' extra pending (s.setFd p fd (-1)) ∧
    (s.held (p, fd) = -1 → lost' = lost) := by
  have hge := (h.range _ hk).1
  by_cases hneg : 0 ≤ s.held (p, fd)
  · obtain ⟨i, hi⟩ := Int.eq_ofNat_of_zero_le hneg
    obtain ⟨n, hn, hkind⟩ := hplain i hi
    refine ⟨bump lost i, (h.unbind hs hk hi).lose hn hkind, fun hminus => ?_⟩
    omega
  · have hminus : s.held (p, fd) = -1 := by omega
    refine ⟨lost, h.setFd hs hk ⟨le_rfl, by decide⟩ fun i _ => ?_, fun _ => rfl⟩
    rw [hminus]

lemma FdInv.copyEntry (h : FdInv lost extra pending s) (hc : 1 ≤ c) (hp : 1 ≤ p) (hne : p ≠ c)
    (hsc : (s.procs c).state ≠ .unused) (hsp : (s.procs p).state ≠ .unused) (hfd : fd < fdTableSize)
    (hplain : ∀ i : ℕ, s.held (p, fd) = i → ∃ n, (s.files i).node = some n ∧ s.kind n = .file) :
    ∃ lost', FdInv lost' extra pending (copyEntry c p s fd) ∧ Calm s (copyEntry c p s fd) ∧
      (s.held (p, fd) = -1 → lost' = lost) ∧
      (∀ j, j ≠ fd → (copyEntry c p s fd).held (p, j) = s.held (p, j)) ∧
      (∀ i, ((copyEntry c p s fd).files i).node = (s.files i).node) ∧
      (copyEntry c p s fd).kind = s.kind := by
  have hkp := h.toPiped.mem_descriptors hp hsp hfd
  have hkc := h.toPiped.mem_descriptors hc hsc hfd
  obtain ⟨lost', h1, hlost⟩ := h.forget hsp hkp hplain
  have hcalm1 := Calm.setFd s p fd (-1)
  have hsp1 := hcalm1.used hsp
  have hheld1 := held_setFd hsp fd (-1)
  have hself : (s.setFd p fd (-1)).held (p, fd) = -1 := by rw [hheld1, update_self]
  have hparent : (s.setFd p fd (-1)).held (c, fd) = s.held (c, fd) := by
    rw [hheld1, update_of_ne]
    intro heq
    exact hne (Prod.mk.inj heq).1.symm
  have hv := held_of_used hsc fd
  generalize hveq : s.held (c, fd) = v
  have heq : FrostByte.copyEntry c p s fd = FrostByte.ofRetain v
    ((s.setFd p fd (-1)).setFd p fd v) := by
    unfold FrostByte.copyEntry
    rw [setFd_setFd, ← hv, hveq]
  have hheld : ∀ j, j ≠ fd → (FrostByte.copyEntry c p s fd).held (p, j) = s.held (p, j) := by
    intro j hj
    rw [heq, ofRetain_setFd, held_setFd (by rw [ofRetain_procs]; exact hsp1),
      update_of_ne fun hpq => hj (Prod.mk.inj hpq).2]
    unfold held
    rw [ofRetain_procs]
    show (s.setFd p fd (-1)).held (p, j) = _
    rw [hheld1, update_of_ne fun hpq => hj (Prod.mk.inj hpq).2]
    rfl
  have hnode : ∀ (v : ℤ) (t : FdState), (∀ i, ((FrostByte.ofRetain v t).files i).node =
      (t.files i).node) ∧ (FrostByte.ofRetain v t).kind = t.kind := by
    intro v t
    unfold FrostByte.ofRetain
    split_ifs
    · refine ⟨fun i => ?_, rfl⟩
      show (update t.files v.toNat _ i).node = _
      by_cases hi : i = v.toNat
      · rw [hi, update_self]
      · rw [update_of_ne hi]
    · exact ⟨fun _ => rfl, rfl⟩
  refine ⟨lost', ?_, ?_, hlost, hheld, ?_, ?_⟩
  · rw [heq]
    by_cases hneg : 0 ≤ v
    · obtain ⟨i, hi⟩ := Int.eq_ofNat_of_zero_le hneg
      rw [hi]
      exact (h1.share hsp1 hkp hself hkc (by rw [hparent, hveq]; exact hi)).1
    · have hge := (h.range _ hkc).1
      have hminus : v = -1 := by omega
      rw [hminus, setFd_setFd]
      exact h1
  · rw [heq]
    refine hcalm1.trans ((Calm.setFd _ p fd v).trans (Calm.of_procs ?_))
    exact ofRetain_procs v _
  · intro i
    rw [heq, (hnode v _).1]
    rfl
  · rw [heq, (hnode v _).2]
    rfl

lemma FdInv.copyEntries (l : List ℕ) (hl : ∀ fd ∈ l, fd < fdTableSize) (hnd : l.Nodup)
    (h : FdInv lost extra pending s) (hc : 1 ≤ c) (hp : 1 ≤ p) (hne : p ≠ c)
    (hsc : (s.procs c).state ≠ .unused) (hsp : (s.procs p).state ≠ .unused)
    (hplain : ∀ fd ∈ l, ∀ i : ℕ, s.held (p, fd) = i → ∃ n, (s.files i).node = some n ∧
      s.kind n = .file) :
    ∃ lost', FdInv lost' extra pending (l.foldl (FrostByte.copyEntry c p) s) ∧
      ((∀ fd ∈ l, s.held (p, fd) = -1) → lost' = lost) := by
  induction l generalizing s lost with
  | nil => exact ⟨lost, h, fun _ => rfl⟩
  | cons a l ih =>
    obtain ⟨hal, hnd'⟩ := List.nodup_cons.mp hnd
    obtain ⟨lost1, h1, hcalm1, hlost1, hheld1, hnode1, hkind1⟩ := h.copyEntry hc hp hne hsc hsp
      (hl a (.head _)) (hplain a (.head _))
    have hkeep : ∀ fd ∈ l, (FrostByte.copyEntry c p s a).held (p, fd) = s.held (p, fd) := by
      intro fd hfd
      apply hheld1
      rintro rfl
      exact hal hfd
    obtain ⟨lost2, h2, hlost2⟩ := ih (fun fd hfd => hl fd (.tail _ hfd)) hnd' h1
      (hcalm1.used hsc) (hcalm1.used hsp) (by
        intro fd hfd i hi
        rw [hkeep fd hfd] at hi
        rw [hnode1, hkind1]
        exact hplain fd (.tail _ hfd) i hi)
    refine ⟨lost2, h2, fun hnone => ?_⟩
    rw [hlost2 fun fd hfd => (hkeep fd hfd).trans (hnone fd (.tail _ hfd)),
      hlost1 (hnone a List.mem_cons_self)]

/-- The parent's entries are copied over the child's terminal, whose references are lost. -/
lemma FdInv.sysFork (h : FdInv lost extra pending s) (hc : 1 ≤ c)
    (hs : (s.procs c).state ≠ .unused) (memory tty clone : Bool) :
    ∃ lost', FdInv lost' extra pending (sysFork c memory tty clone s).2 ∧
      (clone = false ∨ memory = false ∨ tty = false ∨
        freeSlots (FrostByte.processReapZombies c s) = 0 → lost' = lost) := by
  obtain ⟨h1, hnew⟩ := h.processCreate hs true memory tty
  unfold FrostByte.sysFork
  cases hcreate : FrostByte.processCreate c true memory tty s with
  | mk r t =>
    rw [hcreate] at h1 hnew
    cases r with
    | none => exact ⟨lost, h1, fun _ => rfl⟩
    | some p =>
      obtain ⟨hmem, hp, hne, hsc, hsp, hplain, hno⟩ := hnew p rfl
      cases clone with
      | false => exact ⟨lost, (h1.processDestroy hp).1, fun _ => rfl⟩
      | true =>
        obtain ⟨lost', h2, hlost⟩ := FdInv.copyEntries (List.range fdTableSize)
          (fun fd hfd => List.mem_range.mp hfd) List.nodup_range h1 hc hp hne hsc hsp
          fun fd _ i hi => hplain fd i hi
        refine ⟨lost', h2, fun hor => hlost fun fd _ => ?_⟩
        rcases hor with hfalse | hfalse | hor
        · cases hfalse
        · rw [hmem] at hfalse
          cases hfalse
        · exact hno hor fd

end FrostByte
