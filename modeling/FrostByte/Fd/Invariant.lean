import Mathlib.Order.Interval.Finset.Nat
import FrostByte.Lib.RefCount
import FrostByte.Fd.Model

/-!
# The invariant of the descriptor layer

A reference count is the number of table entries that name the slot, plus the references that no
entry stands for: those of a step in progress, and those of lost terminals. A node that exists is in
one slot, is about to be put in one, or has been closed once; and nobody waits at the closed end of
a pipe.

## Main definitions

* `FdState.holders` — the descriptors that name a slot.
* `Counted` — reference counts and nodes, with the references no descriptor stands for.
* `Piped` — processes, pipes and wait queues.
* `FdInv` — both parts together.

## Main results

* `FdInv.boot` — the state after boot.
* `FdInv.bind`, `FdInv.unbind`, `FdInv.ofDrop`, `FdInv.vfsClose` — the primitive steps keep it.
-/

namespace FrostByte

open Function RefCount FdState

/-- The pairs of a process and a descriptor number. -/
@[irreducible]
def descriptors : Finset (ℕ × ℕ) := Finset.Ico 1 maxProcesses ×ˢ Finset.range fdTableSize

lemma mem_descriptors {k : ℕ × ℕ} :
    k ∈ descriptors ↔ (1 ≤ k.1 ∧ k.1 < maxProcesses) ∧ k.2 < fdTableSize := by
  unfold descriptors
  simp

/-- What the entries of a process refer to; an unused slot holds nothing. -/
def Process.row (p : Process) (fd : ℕ) : ℤ := if p.state = .unused then -1 else p.fdTable fd

/-- The references that a slot stands for. -/
def OpenFile.refs (f : OpenFile) : ℕ := if f.node.isSome then f.refCount else 0

namespace FdState

/-- What a pair of a process and a descriptor refers to. -/
def held (s : FdState) (k : ℕ × ℕ) : ℤ := (s.procs k.1).row k.2

/-- The number of pairs of a process and a descriptor that hold a slot. -/
def holders (s : FdState) (i : ℕ) : ℕ := uses descriptors s.held i

/-- The number of slots that have a node. -/
def slots (s : FdState) (n : ℕ) : ℕ :=
  uses (Finset.range maxOpenFiles) (fun i => (s.files i).node) (some n)

/-- The pipe exists and this end of it is open. -/
def EndOpen (s : FdState) (id : ℕ) (e : PipeEnd) : Prop :=
  ∃ p, s.pipes id = some p ∧ p.endOpen e = true

end FdState

/-- One more reference to `i` beyond the tables. -/
def bump (extra : ℕ → ℕ) (i : ℕ) : ℕ → ℕ := update extra i (extra i + 1)

lemma bump_apply (extra : ℕ → ℕ) (i j : ℕ) : bump extra i j = extra j + if i = j then 1 else 0 := by
  rw [bump, update_apply]
  grind

/-- With `lost` references, those of the step in progress, and nodes not in a slot yet. -/
structure Counted (lost extra : ℕ → ℕ) (pending : Finset ℕ) (s : FdState) : Prop where
  refs : ∀ i < maxOpenFiles, (s.files i).refs = s.holders i + lost i + extra i
  plain : ∀ i < maxOpenFiles, lost i ≠ 0 → ∃ n, (s.files i).node = some n ∧ s.kind n = .file
  pos : ∀ i < maxOpenFiles, (s.files i).node.isSome → 0 < (s.files i).refCount
  range : ∀ k ∈ descriptors, -1 ≤ s.held k ∧ s.held k < maxOpenFiles
  nodes : ∀ n, s.closes n + s.slots n + (if n ∈ pending then 1 else 0) =
    if n < s.nextNode then 1 else 0

/-- The part about processes, pipes and wait queues. -/
structure Piped (s : FdState) : Prop where
  lt : ∀ p, (s.procs p).state ≠ .unused → p < maxProcesses
  kernel : (s.procs 0).state ≠ .unused ∧ (s.procs 0).state ≠ .zombie
  idle : ∀ p, (s.procs p).state = .unused → (s.procs p).waitingOn = none
  pipeLt : ∀ n id e, n < s.nextNode → s.kind n = .pipe id e → id < s.nextPipe
  pipeOpen : ∀ n id e, n < s.nextNode → s.kind n = .pipe id e →
    (s.EndOpen id e ↔ s.closes n = 0)
  pipeInj : ∀ m n id e, m < s.nextNode → n < s.nextNode → s.kind m = .pipe id e →
    s.kind n = .pipe id e → m = n
  linked : ∀ p q, p ∈ s.queues q ↔ (s.procs p).waitingOn = some q
  nodup : ∀ q, (s.queues q).Nodup
  queueLt : ∀ q, s.nextPipe ≤ q.1 → s.queues q = []
  drained : ∀ n id, n < s.nextNode → s.kind n = .pipe id .write → s.closes n ≠ 0 →
    s.queues (id, .read) = []

/-- The invariant of the descriptor layer. -/
structure FdInv (lost extra : ℕ → ℕ) (pending : Finset ℕ) (s : FdState) : Prop
    extends Counted lost extra pending s, Piped s

variable {lost extra : ℕ → ℕ} {pending : Finset ℕ} {s : FdState} {p fd i n : ℕ}

/-! ## The initial state -/

lemma FdState.boot_procs (h : p ≠ 0) : boot.procs p = Process.zeroed := by
  show update (fun _ => Process.zeroed) 0 _ p = _
  rw [update_of_ne h]

lemma FdState.boot_waitingOn (p : ℕ) : (boot.procs p).waitingOn = none := by
  by_cases h : p = 0
  · rw [h]
    rfl
  · rw [boot_procs h]
    rfl

lemma FdState.held_boot (k : ℕ × ℕ) (hk : k ∈ descriptors) : boot.held k = -1 := by
  have hne : k.1 ≠ 0 := Nat.one_le_iff_ne_zero.mp (mem_descriptors.mp hk).1.1
  unfold held
  rw [boot_procs hne]
  rfl

/-- After boot there are no descriptors, nodes or pipes. -/
lemma FdInv.boot : FdInv (fun _ => 0) (fun _ => 0) ∅ FdState.boot where
  refs i _ := by
    have h0 : FdState.boot.holders i = 0 := by
      apply (uses_eq_zero_iff _).mpr
      intro k hk
      rw [FdState.held_boot k hk]
      omega
    rw [h0]
    rfl
  plain _ _ h := absurd rfl h
  pos _ _ h := absurd h Bool.false_ne_true
  range k hk := by rw [FdState.held_boot k hk]; decide
  nodes n := by
    rfl
  lt p hp := by
    by_cases h : p = 0
    · rw [h]
      decide
    · rw [FdState.boot_procs h] at hp
      exact absurd rfl hp
  kernel := ⟨by decide, by decide⟩
  idle p _ := FdState.boot_waitingOn p
  pipeLt _ _ _ h := absurd h (Nat.not_lt_zero _)
  pipeOpen _ _ _ h := absurd h (Nat.not_lt_zero _)
  pipeInj _ _ _ _ h := absurd h (Nat.not_lt_zero _)
  linked p q := by
    rw [FdState.boot_waitingOn]
    constructor
    · intro h
      cases h
    · intro h
      cases h
  nodup _ := List.nodup_nil
  queueLt _ _ := rfl
  drained _ _ h := absurd h (Nat.not_lt_zero _)

/-! ## Table entries -/

lemma FdState.setProc_self (s : FdState) (p : ℕ) (x : Process) : (s.setProc p x).procs p = x :=
  update_self _ _ _

lemma FdState.setProc_of_ne {q : ℕ} (h : q ≠ p) (s : FdState) (x : Process) :
    (s.setProc p x).procs q = s.procs q := update_of_ne h _ _

variable {append flags id : ℕ} {s' : FdState} {x : Process}

lemma FdState.held_setProc
    (h : ∀ fd < fdTableSize, x.row fd = (s.procs p).row fd) (k : ℕ × ℕ) (hk : k ∈ descriptors) :
    (s.setProc p x).held k = s.held k := by
  show (update s.procs p x k.1).row k.2 = (s.procs k.1).row k.2
  by_cases hkp : k.1 = p
  · rw [hkp, update_self, h k.2 (mem_descriptors.mp hk).2]
  · rw [update_of_ne hkp]

lemma FdState.held_setFd (h : (s.procs p).state ≠ .unused) (fd : ℕ) (v : ℤ) :
    (s.setFd p fd v).held = update s.held (p, fd) v := by
  funext k
  obtain ⟨q, j⟩ := k
  show (update s.procs p _ q).row j = update s.held (p, fd) v (q, j)
  by_cases hq : q = p
  · subst hq
    rw [update_self]
    show (if (s.procs q).state = .unused then -1 else update (s.procs q).fdTable fd v j) = _
    rw [if_neg h]
    by_cases hj : j = fd
    · rw [hj, update_self, update_self]
    · rw [update_of_ne hj, update_of_ne (by rintro ⟨⟩; exact hj rfl)]
      exact (if_neg h).symm
  · rw [update_of_ne hq, update_of_ne (by rintro ⟨⟩; exact hq rfl)]
    rfl

lemma Counted.isSome (h : Counted lost extra pending s) {k : ℕ × ℕ} (hk : k ∈ descriptors)
    (hi : s.held k = i) (hlt : i < maxOpenFiles) : (s.files i).node.isSome := by
  have hpos : 0 < s.holders i := (uses_pos_iff _).mpr ⟨k, hk, hi⟩
  have hrefs := h.refs i hlt
  unfold OpenFile.refs at hrefs
  by_contra hnone
  rw [if_neg hnone] at hrefs
  omega

lemma Counted.node_lt (h : Counted lost extra pending s) (hi : i < maxOpenFiles)
    (hn : (s.files i).node = some n) : n < s.nextNode := by
  have hin : 0 < s.slots n := (uses_pos_iff _).mpr ⟨i, Finset.mem_range.mpr hi, hn⟩
  have hcount := h.nodes n
  by_contra hge
  rw [if_neg hge] at hcount
  omega

/-- A process changes, and with it the wait queue `q`, which the other processes stay in. -/
lemma Piped.requeue (h : Piped s) {q : ℕ × PipeEnd} {l : List ℕ}
    (hidle : x.state = .unused → x.waitingOn = none) (hlt : x.state ≠ .unused → p < maxProcesses)
    (hkernel : p = 0 → x.state ≠ .unused ∧ x.state ≠ .zombie)
    (hself : ∀ u, p ∈ update s.queues q l u ↔ x.waitingOn = some u)
    (hothers : ∀ r, r ≠ p → (r ∈ l ↔ r ∈ s.queues q)) (hnodup : l.Nodup)
    (hempty : s.queues q = [] → l = [] ∨ q.1 < s.nextPipe ∧ (q.2 = .read → s.EndOpen q.1 .write)) :
    Piped { s.setProc p x with queues := update s.queues q l } := by
  have hx := s.setProc_self p x
  have hother : ∀ r, r ≠ p → (s.setProc p x).procs r = s.procs r := fun r hr => setProc_of_ne hr s x
  refine ⟨fun r hr => ?_, ?_, fun r hr => ?_, h.pipeLt, h.pipeOpen, h.pipeInj, fun r u => ?_,
    fun u => ?_, fun u hu => ?_, fun m id hm hk hc => ?_⟩
  · by_cases hrp : r = p
    · rw [hrp] at hr ⊢
      rw [hx] at hr
      exact hlt hr
    · rw [hother r hrp] at hr
      exact h.lt r hr
  · by_cases hp : 0 = p
    · rw [hp, hx]
      exact hkernel hp.symm
    · rw [hother 0 hp]
      exact h.kernel
  · by_cases hrp : r = p
    · rw [hrp] at hr ⊢
      rw [hx] at hr ⊢
      exact hidle hr
    · rw [hother r hrp] at hr ⊢
      exact h.idle r hr
  · by_cases hrp : r = p
    · rw [hrp, hx]
      exact hself u
    · rw [hother r hrp, ← h.linked]
      dsimp only
      rw [update_apply]
      split_ifs with hu
      · rw [hu]
        exact hothers r hrp
      · rfl
  · dsimp only
    rw [update_apply]
    split_ifs
    · exact hnodup
    · exact h.nodup u
  · dsimp only
    rw [update_apply]
    split_ifs with huq
    · subst huq
      exact (hempty (h.queueLt u hu)).resolve_right fun hlt => absurd hlt.1 (not_lt.mpr hu)
    · exact h.queueLt u hu
  · dsimp only
    rw [update_apply]
    split_ifs with huq
    · subst huq
      refine (hempty (h.drained m id hm hk hc)).resolve_right fun hopen => hc ?_
      exact (h.pipeOpen m id .write hm hk).mp (hopen.2 rfl)
    · exact h.drained m id hm hk hc

/-- Out of the only queue that it was in, a process waits for nothing. -/
lemma Piped.left (h : Piped s) {q : ℕ × PipeEnd} {l : List ℕ} (hw : (s.procs p).waitingOn = some q)
    (hl : p ∉ l) (u : ℕ × PipeEnd) : p ∈ update s.queues q l u ↔ none = some u := by
  rw [update_apply]
  refine iff_of_false ?_ (by rintro ⟨⟩)
  split_ifs with hu
  · exact hl
  · rw [h.linked, hw]
    exact fun heq => hu (Option.some.inj heq).symm

lemma Piped.setProc (h : Piped s) (hwait : x.waitingOn = (s.procs p).waitingOn)
    (hidle : x.state = .unused → x.waitingOn = none) (hlt : x.state ≠ .unused → p < maxProcesses)
    (hkernel : p = 0 → x.state ≠ .unused ∧ x.state ≠ .zombie) : Piped (s.setProc p x) := by
  have hsame := update_eq_self (0, PipeEnd.read) s.queues
  have hset := h.requeue (q := (0, .read)) (l := s.queues (0, .read)) hidle hlt hkernel
    (fun u => by rw [hsame, hwait]; exact h.linked p u) (fun _ _ => Iff.rfl) (h.nodup _) .inl
  rwa [hsame] at hset

lemma Counted.congr (h : Counted lost extra pending s) (hfiles : s'.files = s.files)
    (hheld : ∀ k ∈ descriptors, s'.held k = s.held k) (hkind : s'.kind = s.kind)
    (hcloses : s'.closes = s.closes) (hnext : s'.nextNode = s.nextNode) :
    Counted lost extra pending s' := by
  have hh : ∀ i, s'.holders i = s.holders i := fun i => uses_congr hheld _
  have hs : ∀ n, s'.slots n = s.slots n := by
    intro n
    unfold slots
    rw [hfiles]
  refine ⟨fun i hi => ?_, fun i hi => ?_, fun i hi => ?_, fun k hk => ?_, fun n => ?_⟩
  · rw [hfiles, hh]
    exact h.refs i hi
  · rw [hfiles, hkind]
    exact h.plain i hi
  · rw [hfiles]
    exact h.pos i hi
  · rw [hheld k hk]
    exact h.range k hk
  · rw [hcloses, hs, hnext]
    exact h.nodes n

lemma FdInv.setProc (h : FdInv lost extra pending s)
    (hrow : ∀ fd < fdTableSize, x.row fd = (s.procs p).row fd)
    (hwait : x.waitingOn = (s.procs p).waitingOn) (hidle : x.state = .unused → x.waitingOn = none)
    (hlt : x.state ≠ .unused → p < maxProcesses)
    (hkernel : p = 0 → x.state ≠ .unused ∧ x.state ≠ .zombie) :
    FdInv lost extra pending (s.setProc p x) :=
  ⟨h.toCounted.congr rfl (held_setProc hrow) rfl rfl rfl, h.toPiped.setProc hwait hidle hlt hkernel⟩

lemma FdInv.setProc_same (h : FdInv lost extra pending s)
    (hstate : x.state = (s.procs p).state) (htable : x.fdTable = (s.procs p).fdTable)
    (hwait : x.waitingOn = (s.procs p).waitingOn) : FdInv lost extra pending (s.setProc p x) := by
  apply h.setProc
  · intro fd _
    unfold Process.row
    rw [hstate, htable]
  · exact hwait
  · intro hu
    rw [hwait]
    exact h.idle p (hstate ▸ hu)
  · intro hu
    exact h.lt p (hstate ▸ hu)
  · rintro rfl
    rw [hstate]
    exact h.kernel

lemma FdInv.setFd (h : FdInv lost extra pending s) (hp : (s.procs p).state ≠ .unused)
    (hk : (p, fd) ∈ descriptors) {v : ℤ} (hv : -1 ≤ v ∧ v < maxOpenFiles) {extra' : ℕ → ℕ}
    (hextra : ∀ i < maxOpenFiles, extra' i + (if v = i then 1 else 0) =
      extra i + if s.held (p, fd) = i then 1 else 0) : FdInv lost extra' pending
      (s.setFd p fd v) := by
  have hheld := held_setFd hp fd v
  refine ⟨⟨fun i hi => ?_, h.plain, h.pos, fun k hk' => ?_, h.nodes⟩,
    h.toPiped.setProc rfl (h.idle p) (h.lt p) (by rintro rfl; exact h.kernel)⟩
  · have hmove := uses_update (T := s.held) hk v (i : ℤ)
    have hrefs := h.refs i hi
    have hx := hextra i hi
    show (s.files i).refs = uses descriptors (s.setFd p fd v).held i + lost i + extra' i
    rw [hheld]
    have hold : s.holders i = uses descriptors s.held i := rfl
    omega
  · rw [hheld]
    by_cases hkk : k = (p, fd)
    · rw [hkk, update_self]
      exact hv
    · rw [update_of_ne hkk]
      exact h.range k hk'

/-- A free entry takes over a reference of the step in progress. -/
lemma FdInv.bind (h : FdInv lost (bump extra i) pending s) (hp : (s.procs p).state ≠ .unused)
    (hk : (p, fd) ∈ descriptors) (hfree : s.held (p, fd) = -1) (hi : i < maxOpenFiles) :
    FdInv lost extra pending (s.setFd p fd i) := by
  apply h.setFd hp hk ⟨by omega, by exact_mod_cast hi⟩
  intro j _
  rw [hfree, bump_apply, if_neg (show ¬(-1 : ℤ) = (j : ℤ) by omega), Nat.add_zero]
  simp only [Int.natCast_inj]

/-- An entry gives its reference to the step in progress. -/
lemma FdInv.unbind (h : FdInv lost extra pending s) (hp : (s.procs p).state ≠ .unused)
    (hk : (p, fd) ∈ descriptors) (hi : s.held (p, fd) = i) :
    FdInv lost (bump extra i) pending (s.setFd p fd (-1)) := by
  apply h.setFd hp hk ⟨le_rfl, by decide⟩
  intro j _
  rw [hi, bump_apply, if_neg (show ¬(-1 : ℤ) = (j : ℤ) by omega), Nat.add_zero]
  simp only [Int.natCast_inj]

/-! ## Open-file slots -/

lemma FdInv.setFile (h : FdInv lost extra pending s) (hi : i < maxOpenFiles) {f : OpenFile}
    {extra' : ℕ → ℕ} {pending' : Finset ℕ} (hs' : s' = s.setFile i f)
    (hrefs : f.refs + extra i = (s.files i).refs + extra' i) (hpos : f.node.isSome → 0 < f.refCount)
    (hother : ∀ j, j ≠ i → extra' j = extra j) (hplain : lost i ≠ 0 → f.node = (s.files i).node)
    (hnodes : ∀ n, (if f.node = some n then 1 else 0) + (if n ∈ pending' then 1 else 0) =
      (if (s.files i).node = some n then 1 else 0) + if n ∈ pending then 1 else 0) :
    FdInv lost extra' pending' s' := by
  subst hs'
  have hupd : (fun j => ((s.setFile i f).files j).node) =
      update (fun j => (s.files j).node) i f.node := by
    funext j
    show (update s.files i f j).node = _
    rw [update_apply, update_apply, apply_ite OpenFile.node]
  refine ⟨⟨fun j hj => ?_, fun j hj hl => ?_, fun j hj => ?_, h.range, fun n => ?_⟩, h.toPiped.lt,
    h.kernel, h.idle, h.pipeLt, h.pipeOpen, h.pipeInj, h.linked, h.nodup, h.queueLt, h.drained⟩
  · show (update s.files i f j).refs = s.holders j + lost j + extra' j
    have hold := h.refs j hj
    by_cases hji : j = i
    · subst hji
      rw [update_self]
      omega
    · rw [update_of_ne hji, hother j hji, hold]
  · show ∃ n, (update s.files i f j).node = some n ∧ s.kind n = .file
    by_cases hji : j = i
    · subst hji
      rw [update_self, hplain hl]
      exact h.plain j hj hl
    · rw [update_of_ne hji]
      exact h.plain j hj hl
  · show (update s.files i f j).node.isSome → 0 < (update s.files i f j).refCount
    by_cases hji : j = i
    · rw [hji, update_self]
      exact hpos
    · rw [update_of_ne hji]
      exact h.pos j hj
  · have hmove := uses_update (T := fun j => (s.files j).node) (Finset.mem_range.mpr hi) f.node
      (some n)
    have hold := h.nodes n
    have hnew := hnodes n
    have hslots : s.slots n =
      uses (Finset.range maxOpenFiles) (fun j => (s.files j).node) (some n) := rfl
    show s.closes n + uses (Finset.range maxOpenFiles) (fun j => ((s.setFile i f).files j).node)
      (some n) + _ = if n < s.nextNode then 1 else 0
    rw [hupd]
    omega

lemma FdInv.ofRetain (h : FdInv lost extra pending s) (hi : i < maxOpenFiles)
    (hsome : (s.files i).node.isSome) : FdInv lost (bump extra i) pending (ofRetain i s) := by
  apply h.setFile hi
  · show (if _ then _ else _) = _
    rw [if_pos ⟨by omega, by exact_mod_cast hi, hsome⟩]
    rfl
  · show (if (s.files i).node.isSome then (s.files i).refCount + 1 else 0) + extra i =
      (if (s.files i).node.isSome then (s.files i).refCount else 0) + bump extra i i
    rw [if_pos hsome, if_pos hsome, bump_apply, if_pos rfl]
    omega
  · intro _
    exact Nat.succ_pos _
  · intro j hj
    simp [bump_apply, if_neg (Ne.symm hj)]
  · intro _
    rfl
  · intro n
    rfl

lemma ofAlloc_some (h : ofAlloc n flags append s = (some i, s')) :
    i < maxOpenFiles ∧ (s.files i).node = none ∧
    s' = s.setFile i ⟨some n, 0, flags, 1, append⟩ := by
  unfold FrostByte.ofAlloc at h
  cases hfind : (List.range maxOpenFiles).find? fun i => (s.files i).node.isNone with
  | none =>
    rw [hfind] at h
    cases h
  | some j =>
    rw [hfind] at h
    obtain ⟨rfl, rfl⟩ : j = i ∧ s.setFile j ⟨some n, 0, flags, 1, append⟩ = s' := by
      cases h
      exact ⟨rfl, rfl⟩
    have hnone := List.find?_some hfind
    exact ⟨List.mem_range.mp (List.mem_of_find?_eq_some hfind), Option.isNone_iff_eq_none.mp hnone,
      rfl⟩

lemma ofAlloc_none (h : ofAlloc n flags append s = (none, s')) :
    s' = s ∧ ∀ i < maxOpenFiles, (s.files i).node ≠ none := by
  unfold FrostByte.ofAlloc at h
  cases hfind : (List.range maxOpenFiles).find? fun i => (s.files i).node.isNone with
  | none =>
    rw [hfind] at h
    cases h
    refine ⟨rfl, fun i hi hnone => ?_⟩
    have := List.find?_eq_none.mp hfind i (List.mem_range.mpr hi)
    rw [hnone] at this
    exact this rfl
  | some j =>
    rw [hfind] at h
    cases h

lemma FdInv.ofAlloc (h : FdInv lost extra pending s) (hn : n ∈ pending)
    (ha : ofAlloc n flags append s = (some i, s')) :
    FdInv lost (bump extra i) (pending.erase n) s' := by
  obtain ⟨hi, hnone, hs'⟩ := ofAlloc_some ha
  apply h.setFile hi hs'
  · show 1 + extra i = (if (s.files i).node.isSome then (s.files i).refCount else 0) +
      bump extra i i
    rw [hnone, bump_apply, if_pos rfl]
    show _ = 0 + _
    omega
  · intro _
    exact Nat.one_pos
  · intro j hj
    simp [bump_apply, if_neg (Ne.symm hj)]
  · intro hl
    obtain ⟨n, hn, -⟩ := h.plain i hi hl
    rw [hnone] at hn
    cases hn
  · intro m
    rw [hnone, if_neg (show ¬(none : Option ℕ) = some m by rintro ⟨⟩)]
    by_cases hm : n = m
    · subst hm
      rw [if_pos rfl, if_neg (Finset.notMem_erase _ _), if_pos hn]
    · rw [if_neg (by rintro ⟨⟩; exact hm rfl)]
      simp [Ne.symm hm]

/-! ## Wait queues -/

lemma Process.wake_unused (x : Process) : x.wake.state = .unused ↔ x.state = .unused := by
  show (if x.state = .sleeping then .runnable else x.state) = .unused ↔ _
  by_cases h : x.state = .sleeping
  · rw [h]
    decide
  · rw [if_neg h]

lemma Process.wake_zombie (x : Process) : x.wake.state = .zombie ↔ x.state = .zombie := by
  show (if x.state = .sleeping then .runnable else x.state) = .zombie ↔ _
  by_cases h : x.state = .sleeping
  · rw [h]
    decide
  · rw [if_neg h]

lemma Process.row_wake (x : Process) : x.wake.row = x.row := by
  funext fd
  exact if_congr x.wake_unused rfl rfl

lemma waitQueueWakeAll_procs (q : ℕ × PipeEnd) (s : FdState) (p : ℕ) :
    (waitQueueWakeAll q s).procs p = if p ∈ s.queues q then (s.procs p).wake else s.procs p := rfl

lemma FdState.held_wakeAll (q : ℕ × PipeEnd) (s : FdState) :
    (waitQueueWakeAll q s).held = s.held := by
  funext k
  unfold held
  rw [waitQueueWakeAll_procs]
  split_ifs
  · rw [Process.row_wake]
  · rfl

lemma Piped.wakeAll (h : Piped s) (q : ℕ × PipeEnd) : Piped (waitQueueWakeAll q s) := by
  have hqueue : ∀ r, (waitQueueWakeAll q s).queues r = if r = q then [] else s.queues r := by
    intro r
    exact update_apply _ _ _ _
  refine ⟨fun p hp => h.lt p ?_, ⟨?_, ?_⟩, fun p hp => ?_, h.pipeLt, h.pipeOpen, h.pipeInj,
    fun p r => ?_, fun r => ?_, fun r hr => ?_, fun n id hn hk hc => ?_⟩
  · rw [waitQueueWakeAll_procs] at hp
    split_ifs at hp
    · rwa [ne_eq, Process.wake_unused] at hp
    · exact hp
  · rw [waitQueueWakeAll_procs]
    split_ifs
    · simpa [Process.wake_unused] using h.kernel.1
    · exact h.kernel.1
  · rw [waitQueueWakeAll_procs]
    split_ifs
    · simpa [Process.wake_zombie] using h.kernel.2
    · exact h.kernel.2
  · rw [waitQueueWakeAll_procs] at hp ⊢
    split_ifs at hp ⊢
    · rfl
    · exact h.idle p hp
  · -- a woken process was linked in `q` and in no other queue
    rw [hqueue, waitQueueWakeAll_procs]
    by_cases hp : p ∈ s.queues q
    · have hw := (h.linked p q).mp hp
      rw [if_pos hp]
      constructor
      · intro hmem
        split_ifs at hmem with hr
        · cases hmem
        · rw [h.linked, hw] at hmem
          cases hmem
          exact absurd rfl hr
      · intro hnone
        cases hnone
    · rw [if_neg hp, ← h.linked]
      split_ifs with hr
      · rw [hr]
        exact iff_of_false List.not_mem_nil hp
      · exact Iff.rfl
  · rw [hqueue]
    split_ifs
    · exact List.nodup_nil
    · exact h.nodup r
  · rw [hqueue]
    split_ifs
    · rfl
    · exact h.queueLt r hr
  · rw [hqueue]
    split_ifs
    · rfl
    · exact h.drained n id hn hk hc

/-! ## Nodes and pipes -/

lemma FdState.endOpen_iff {x : Pipe} (h : s.pipes id = some x) (e : PipeEnd) :
    s.EndOpen id e ↔ x.endOpen e = true := by
  constructor
  · rintro ⟨y, hy, hye⟩
    rw [h] at hy
    cases hy
    exact hye
  · intro hx
    exact ⟨x, h, hx⟩

lemma vfsClose_file (h : s.kind n = .file) :
    vfsClose n s = { s with closes := update s.closes n (s.closes n + 1) } := by
  simp [vfsClose, h]

lemma vfsClose_pipe {e : PipeEnd} (h : s.kind n = .pipe id e) :
    vfsClose n s = closePipe id e { s with closes := update s.closes n (s.closes n + 1) } := by
  simp [vfsClose, h]

lemma closePipe_none (h : s.pipes id = none) (e : PipeEnd) : closePipe id e s = s := by
  unfold closePipe
  rw [h]

lemma closePipe_some {x : Pipe} (h : s.pipes id = some x) (e : PipeEnd) :
    closePipe id e s = { waitQueueWakeAll (id, e.other) s with
      pipes := update s.pipes id (pipeClose e x) } := by
  unfold closePipe
  rw [h]
  rfl

lemma Piped.recount (h : Piped s) {closes : ℕ → ℕ}
    (hzero : ∀ m id e, m < s.nextNode → s.kind m = .pipe id e →
      (closes m = 0 ↔ s.closes m = 0)) : Piped { s with closes := closes } := by
  refine ⟨h.lt, h.kernel, h.idle, h.pipeLt, fun m id e hm hk => ?_, h.pipeInj, h.linked, h.nodup,
    h.queueLt, fun m id hm hk hc => ?_⟩
  · rw [hzero m id e hm hk]
    exact h.pipeOpen m id e hm hk
  · apply h.drained m id hm hk
    simpa [← hzero m id _ hm hk] using hc

lemma Piped.closeEnd (h : Piped s) {e : PipeEnd} {x : Pipe} (hn : n < s.nextNode)
    (hkind : s.kind n = .pipe id e) (hpipe : s.pipes id = some x)
    (hempty : s.queues (id, e.other) = [])
    {closes : ℕ → ℕ} (hself : closes n ≠ 0) (hother : ∀ m, m ≠ n → closes m = s.closes m) :
    Piped { s with closes := closes, pipes := update s.pipes id (pipeClose e x) } := by
  have hcase : ∀ m id' e', s.kind m = .pipe id' e' → m = n → id' = id ∧ e' = e := by
    rintro m id' e' hm rfl
    rw [hkind] at hm
    cases hm
    exact ⟨rfl, rfl⟩
  refine ⟨h.lt, h.kernel, h.idle, h.pipeLt, fun m id' e' hm hk => ?_, h.pipeInj, h.linked, h.nodup,
    h.queueLt, fun m id' hm hk hc => ?_⟩
  · show (∃ y, update s.pipes id (pipeClose e x) id' = some y ∧ y.endOpen e' = true) ↔ closes m = 0
    by_cases hid : id' = id
    · subst hid
      rw [update_self, pipeClose_endOpen]
      by_cases hm' : m = n
      · rw [hm']
        exact iff_of_false (fun hh => hh.1 (hcase m id' e' hk hm').2) hself
      · rw [hother m hm', ← h.pipeOpen m id' e' hm hk, endOpen_iff hpipe]
        refine and_iff_right ?_
        intro he
        exact hm' (h.pipeInj m n id' e hm hn (he ▸ hk) hkind)
    · rw [update_of_ne hid, hother m fun hm' => hid (hcase m id' e' hk hm').1]
      exact h.pipeOpen m id' e' hm hk
  · by_cases hm' : m = n
    · obtain ⟨rfl, rfl⟩ := hcase m id' .write hk hm'
      exact hempty
    · apply h.drained m id' hm hk
      rw [← hother m hm']
      exact hc

/-- Closing an end of a pipe wakes those who wait at the other one. -/
lemma Piped.vfsClose (h : Piped s) (hn : n < s.nextNode) : Piped (vfsClose n s) := by
  have hself : update s.closes n (s.closes n + 1) n ≠ 0 := by
    rw [update_self]
    exact Nat.succ_ne_zero _
  cases hkind : s.kind n with
  | file =>
    rw [vfsClose_file hkind]
    apply h.recount
    intro m id e _ hk
    rw [update_of_ne]
    rintro rfl
    rw [hkind] at hk
    cases hk
  | pipe id e =>
    rw [vfsClose_pipe hkind]
    cases hpipe : s.pipes id with
    | none =>
      -- the pipe is freed, so its node was closed before
      rw [closePipe_none (by exact hpipe)]
      apply h.recount
      intro m id' e' hm hk
      by_cases hmn : m = n
      · subst hmn
        refine iff_of_false hself fun h0 => ?_
        obtain ⟨x, hx, -⟩ := (h.pipeOpen m id e hm hkind).mpr h0
        rw [hpipe] at hx
        cases hx
      · rw [update_of_ne hmn]
    | some x =>
      rw [closePipe_some (by exact hpipe)]
      exact (h.wakeAll (id, e.other)).closeEnd hn hkind hpipe (update_self _ _ _) hself
        fun m hm => update_of_ne hm _ _

lemma vfsClose_frame (n : ℕ) (s : FdState) :
    (vfsClose n s).files = s.files ∧ (vfsClose n s).held = s.held ∧
      (vfsClose n s).closes = update s.closes n (s.closes n + 1) ∧
      (vfsClose n s).nextNode = s.nextNode ∧ (vfsClose n s).kind = s.kind := by
  cases hkind : s.kind n with
  | file =>
    rw [vfsClose_file hkind]
    exact ⟨rfl, rfl, rfl, rfl, rfl⟩
  | pipe id e =>
    rw [vfsClose_pipe hkind]
    cases hpipe : s.pipes id with
    | none =>
      rw [closePipe_none (by exact hpipe)]
      exact ⟨rfl, rfl, rfl, rfl, rfl⟩
    | some x =>
      rw [closePipe_some (by exact hpipe)]
      exact ⟨rfl, held_wakeAll (id, e.other) _, rfl, rfl, rfl⟩

section

variable (h : FdInv lost extra pending s)

include h

/-- A node that is in no slot is closed. -/
lemma FdInv.vfsClose (hn : n ∈ pending) : FdInv lost extra (pending.erase n) (vfsClose n s) := by
  obtain ⟨hfiles, hheld, hcloses, hnext, hkind⟩ := vfsClose_frame n s
  have hcount := h.nodes n
  rw [if_pos hn] at hcount
  have hlt : n < s.nextNode := by
    by_contra hge
    rw [if_neg hge] at hcount
    omega
  refine ⟨⟨fun i hi => ?_, fun i hi => ?_, fun i hi => ?_, fun k hk => ?_, fun m => ?_⟩,
    h.toPiped.vfsClose hlt⟩
  · unfold holders
    rw [hfiles, hheld]
    exact h.refs i hi
  · rw [hfiles, hkind]
    exact h.plain i hi
  · rw [hfiles]
    exact h.pos i hi
  · rw [hheld]
    exact h.range k hk
  · unfold slots
    rw [hcloses, hfiles, hnext]
    by_cases hm : m = n
    · subst hm
      rw [update_self, if_neg (Finset.notMem_erase _ _), ← hcount]
      unfold slots
      omega
    · rw [update_of_ne hm]
      simp only [Finset.mem_erase, ne_eq, hm, not_false_eq_true, true_and]
      exact h.nodes m

lemma FdInv.newNode {k : NodeKind} (hk : ∀ id e, k = .pipe id e → id < s.nextPipe ∧ s.EndOpen id e ∧
      ∀ m < s.nextNode, s.kind m ≠ .pipe id e) :
    FdInv lost extra (insert s.nextNode pending) (s.newNode k) := by
  have hfresh := h.nodes s.nextNode
  rw [if_neg (lt_irrefl _)] at hfresh
  have hkind : ∀ m, m < s.nextNode → (s.newNode k).kind m = s.kind m := fun m hm =>
    update_of_ne hm.ne _ _
  have hnew : (s.newNode k).kind s.nextNode = k := update_self _ _ _
  have hcase : ∀ m, m < s.nextNode + 1 → m < s.nextNode ∨ m = s.nextNode := fun m hm => by omega
  refine ⟨⟨h.refs, fun i hi hl => ?_, h.pos, h.range, fun m => ?_⟩, h.lt, h.kernel, h.idle,
    fun m id e hm hkm => ?_, fun m id e hm hkm => ?_, fun m m' id e hm hm' hkm hkm' => ?_, h.linked,
    h.nodup, h.queueLt, fun m id hm hkm hc => ?_⟩
  · obtain ⟨m, hm, hkm⟩ := h.plain i hi hl
    exact ⟨m, hm, (hkind m (h.node_lt hi hm)).trans hkm⟩
  · show s.closes m + s.slots m + _ = if m < s.nextNode + 1 then 1 else 0
    by_cases hm : m = s.nextNode
    · subst hm
      rw [if_pos (Finset.mem_insert_self _ _), if_pos (Nat.lt_succ_self _)]
      omega
    · rw [if_congr (Finset.mem_insert.trans (or_iff_right hm)) rfl rfl,
        if_congr (show m < s.nextNode + 1 ↔ m < s.nextNode by omega) rfl rfl]
      exact h.nodes m
  · rcases hcase m hm with hlt | rfl
    · exact h.pipeLt m id e hlt (hkind m hlt ▸ hkm)
    · exact (hk id e (hnew.symm.trans hkm)).1
  · rcases hcase m hm with hlt | rfl
    · exact h.pipeOpen m id e hlt (hkind m hlt ▸ hkm)
    · refine iff_of_true (hk id e (hnew.symm.trans hkm)).2.1 ?_
      show s.closes s.nextNode = 0
      omega
  · rcases hcase m hm with hlt | rfl
    · rcases hcase m' hm' with hlt' | rfl
      · exact h.pipeInj m m' id e hlt hlt' (hkind m hlt ▸ hkm) (hkind m' hlt' ▸ hkm')
      · exact absurd (hkind m hlt ▸ hkm) ((hk id e (hnew.symm.trans hkm')).2.2 m hlt)
    · rcases hcase m' hm' with hlt' | rfl
      · exact absurd (hkind m' hlt' ▸ hkm') ((hk id e (hnew.symm.trans hkm)).2.2 m' hlt')
      · rfl
  · rcases hcase m hm with hlt | rfl
    · exact h.drained m id hlt (hkind m hlt ▸ hkm) hc
    · have hc' : s.closes s.nextNode ≠ 0 := hc
      omega

lemma FdInv.newNode_file : FdInv lost extra (insert s.nextNode pending) (s.newNode .file) :=
  h.newNode fun _ _ hk => by cases hk

lemma FdInv.newPipe : FdInv lost extra pending s.newPipe := by
  have hold : ∀ id, id < s.nextPipe → s.newPipe.pipes id = s.pipes id := fun id hid =>
    update_of_ne hid.ne _ _
  have hqueue : s.newPipe.queues = s.queues := by
    funext q
    obtain ⟨id, e⟩ := q
    show update (update s.queues (s.nextPipe, .read) []) (s.nextPipe, .write) [] (id, e) = _
    by_cases hid : id = s.nextPipe
    · subst hid
      rw [h.queueLt (s.nextPipe, e) le_rfl]
      cases e with
      | read => rw [update_of_ne (by rintro ⟨⟩), update_self]
      | write => rw [update_self]
    · rw [update_of_ne (by rintro ⟨⟩; exact hid rfl), update_of_ne (by rintro ⟨⟩; exact hid rfl)]
  refine ⟨h.toCounted.congr rfl (fun _ _ => rfl) rfl rfl rfl, h.lt, h.kernel, h.idle,
    fun m id e hm hk => ?_,
    fun m id e hm hk => ?_, h.pipeInj, fun p q => ?_, fun q => ?_, fun q hq => ?_,
    fun m id hm hk hc => ?_⟩
  · exact (h.pipeLt m id e hm hk).trans (Nat.lt_succ_self _)
  · refine Iff.trans ?_ (h.pipeOpen m id e hm hk)
    unfold FdState.EndOpen
    rw [hold id (h.pipeLt m id e hm hk)]
  · rw [hqueue]
    exact h.linked p q
  · rw [hqueue]
    exact h.nodup q
  · rw [hqueue]
    exact h.queueLt q ((Nat.le_succ _).trans hq)
  · rw [hqueue]
    exact h.drained m id hm hk hc

lemma FdInv.freePipe
    (hid : ∀ m < s.nextNode, ∀ e, s.kind m ≠ .pipe id e) :
    FdInv lost extra pending (s.freePipe id) := by
  refine ⟨h.toCounted.congr rfl (fun _ _ => rfl) rfl rfl rfl, h.lt, h.kernel, h.idle, h.pipeLt,
    fun m id' e hm hk => ?_, h.pipeInj, h.linked, h.nodup, h.queueLt, h.drained⟩
  refine Iff.trans ?_ (h.pipeOpen m id' e hm hk)
  have hne : id' ≠ id := by
    rintro rfl
    exact hid m hm e hk
  unfold FdState.EndOpen
  show (∃ p, update s.pipes id none id' = some p ∧ _) ↔ _
  rw [update_of_ne hne]

end

lemma vfsClose_setFile (n i : ℕ) (f : OpenFile) (s : FdState) :
    vfsClose n (s.setFile i f) = (vfsClose n s).setFile i f := by
  cases hkind : s.kind n with
  | file =>
    rw [vfsClose_file hkind, vfsClose_file (by exact hkind)]
    rfl
  | pipe id e =>
    rw [vfsClose_pipe hkind, vfsClose_pipe (by exact hkind)]
    cases hpipe : s.pipes id with
    | none =>
      rw [closePipe_none (by exact hpipe), closePipe_none (by exact hpipe)]
      rfl
    | some x =>
      rw [closePipe_some (by exact hpipe), closePipe_some (by exact hpipe)]
      rfl

lemma FdState.setFile_setFile (s : FdState) (i : ℕ) (f g : OpenFile) :
    (s.setFile i f).setFile i g = s.setFile i g := by
  unfold setFile
  rw [update_idem]

lemma ofDrop_eq (hi : i < maxOpenFiles) (hn : (s.files i).node = some n)
    (hpos : 0 < (s.files i).refCount) :
    ofDrop i s = if (s.files i).refCount = 1 then
        vfsClose n (s.setFile i { s.files i with node := none, refCount := 0 })
      else s.setFile i { s.files i with refCount := (s.files i).refCount - 1 } := by
  unfold ofDrop
  rw [if_neg (by rw [not_or, not_le]; exact ⟨by omega, by exact_mod_cast hi⟩)]
  dsimp only [Int.toNat_natCast]
  generalize hf : s.files i = f at hn hpos ⊢
  obtain ⟨node, offset, flags, refCount, append⟩ := f
  obtain rfl : node = some n := hn
  obtain ⟨g, hg⟩ : ∃ g : OpenFile, g = ⟨some n, offset, flags, refCount - 1, append⟩ := ⟨_, rfl⟩
  dsimp only at hpos ⊢
  rw [if_pos hpos, ← hg]
  have hfile : (s.setFile i g).files i = g := update_self _ _ _
  rw [hfile, vfsClose_setFile, vfsClose_setFile, setFile_setFile]
  have hfile' : ((vfsClose n s).setFile i g).files i = g := update_self _ _ _
  rw [hfile', hg]
  dsimp only
  by_cases h1 : refCount = 1
  · rw [if_pos h1, if_pos (by omega), h1]
  · rw [if_neg h1, if_neg (by omega)]

/-- A reference of the step in progress is dropped, and the last one closes the node. -/
lemma FdInv.ofDrop (h : FdInv lost (bump extra i) pending s) (hi : i < maxOpenFiles) :
    FdInv lost extra pending (ofDrop i s) := by
  have hrefs := h.refs i hi
  have hbump : bump extra i i = extra i + 1 := by rw [bump_apply, if_pos rfl]
  have hother : ∀ j, j ≠ i → extra j = bump extra i j := by
    intro j hj
    simp [bump_apply, if_neg (Ne.symm hj)]
  have hsome : (s.files i).node.isSome := by
    by_contra hnone
    unfold OpenFile.refs at hrefs
    rw [if_neg hnone] at hrefs
    omega
  obtain ⟨n, hn⟩ := Option.isSome_iff_exists.mp hsome
  have hcount : (s.files i).refs = (s.files i).refCount := if_pos hsome
  rw [ofDrop_eq hi hn (h.pos i hi hsome)]
  by_cases hlast : (s.files i).refCount = 1
  · -- the node leaves the slot and is closed
    rw [if_pos hlast]
    have hin : 0 < s.slots n := (uses_pos_iff _).mpr ⟨i, Finset.mem_range.mpr hi, hn⟩
    have hnot : n ∉ pending := by
      intro hmem
      have hcount' := h.nodes n
      rw [if_pos hmem, if_pos (h.node_lt hi hn)] at hcount'
      omega
    have hfreed : FdInv lost extra (insert n pending)
        (s.setFile i { s.files i with node := none, refCount := 0 }) := by
      apply h.setFile hi rfl
      · show 0 + _ = _
        omega
      · intro hfalse
        cases hfalse
      · exact hother
      · intro hl
        exact absurd (by omega) hl
      · intro m
        rw [hn, if_neg (show ¬(none : Option ℕ) = some m by rintro ⟨⟩)]
        by_cases hm : m = n
        · subst hm
          rw [if_pos (Finset.mem_insert_self _ _), if_pos rfl, if_neg hnot]
        · have hne : ¬some n = some m := fun hs => hm (Option.some.inj hs).symm
          rw [if_congr (Finset.mem_insert.trans (or_iff_right hm)) rfl rfl, if_neg hne]
    have hclosed := hfreed.vfsClose (Finset.mem_insert_self n pending)
    rwa [Finset.erase_insert hnot] at hclosed
  · rw [if_neg hlast]
    apply h.setFile hi rfl
    · have hnew : OpenFile.refs { s.files i with refCount := (s.files i).refCount - 1 } =
        (s.files i).refCount - 1 := if_pos hsome
      omega
    · intro _
      show 0 < (s.files i).refCount - 1
      omega
    · exact hother
    · intro _
      rfl
    · intro m
      rfl

lemma FdInv.lose (h : FdInv lost (bump extra i) pending s)
    (hn : (s.files i).node = some n) (hkind : s.kind n = .file) :
    FdInv (bump lost i) extra pending s := by
  refine ⟨⟨fun j hj => ?_, fun j hj hl => ?_, h.pos, h.range, h.nodes⟩, h.toPiped⟩
  · have hrefs := h.refs j hj
    rw [bump_apply] at hrefs ⊢
    omega
  · by_cases hji : j = i
    · rw [hji]
      exact ⟨n, hn, hkind⟩
    · rw [bump_apply, if_neg (Ne.symm hji)] at hl
      exact h.plain j hj hl

end FrostByte
