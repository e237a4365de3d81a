import FrostByte.Fd.Invariant

/-!
# The descriptor calls keep the invariant

Each function of `fd.c` and each call above it, from the primitive steps. The failure paths that
close a node a second time are kept out by asking for room, and are described at the end.

## Main definitions

* `Calm` — what a step may do to processes that take no part in it.
* `Room` — free slots and descriptors for what a call makes.
* `ReleasesOnce` — a call that fails releases each node it made once.

## Main results

* `FdInv.fdClose`, `FdInv.fdDup2`, `FdInv.sysOpen`, `FdInv.sysPipe` — the calls keep the invariant.
* `releasesOnce_iff` — a call that fails for want of a slot never does.
* `sysSocket_closes_twice` — a node that is closed twice.
-/

namespace FrostByte

open Function RefCount FdState

variable {lost extra : ℕ → ℕ} {pending : Finset ℕ} {s : FdState} {c p fd i n : ℕ}

/-! ## What the steps do to the processes -/

/-- No process slot is taken or given up, and nobody joins a queue. -/
structure Calm (s s' : FdState) : Prop where
  unused : ∀ q, (s'.procs q).state = .unused ↔ (s.procs q).state = .unused
  waiting : ∀ q, (s.procs q).waitingOn = none → (s'.procs q).waitingOn = none

lemma Calm.of_procs {s' : FdState} (h : s'.procs = s.procs) : Calm s s' := by
  constructor
  · intro q
    rw [h]
  · intro q
    rw [h]
    exact id

lemma Calm.refl (s : FdState) : Calm s s := Calm.of_procs rfl

lemma Calm.trans {s1 s2 : FdState} (h : Calm s s1) (h' : Calm s1 s2) : Calm s s2 :=
  ⟨fun q => (h'.unused q).trans (h.unused q), fun q => h'.waiting q ∘ h.waiting q⟩

lemma Calm.used {s' : FdState} (h : Calm s s') (hp : (s.procs p).state ≠ .unused) :
    (s'.procs p).state ≠ .unused := mt (h.unused p).mp hp

lemma Calm.setProc {x : Process} (hstate : x.state = (s.procs p).state)
    (hwait : (s.procs p).waitingOn = none → x.waitingOn = none) : Calm s (s.setProc p x) := by
  constructor
  · intro q
    by_cases hq : q = p
    · rw [hq, setProc_self, hstate]
    · rw [setProc_of_ne hq]
  · intro q hq
    by_cases hqp : q = p
    · rw [hqp, setProc_self]
      exact hwait (hqp ▸ hq)
    · rw [setProc_of_ne hqp]
      exact hq

lemma Calm.setFd (s : FdState) (p fd : ℕ) (v : ℤ) : Calm s (s.setFd p fd v) :=
  Calm.setProc rfl id

lemma Calm.wakeAll (q : ℕ × PipeEnd) (s : FdState) : Calm s (waitQueueWakeAll q s) := by
  constructor
  · intro p
    rw [waitQueueWakeAll_procs]
    split_ifs
    · exact Process.wake_unused _
    · exact Iff.rfl
  · intro p hp
    rw [waitQueueWakeAll_procs]
    split_ifs
    · rfl
    · exact hp

lemma Calm.vfsClose (n : ℕ) (s : FdState) : Calm s (vfsClose n s) := by
  cases hkind : s.kind n with
  | file =>
    rw [vfsClose_file hkind]
    exact Calm.of_procs rfl
  | pipe id e =>
    rw [vfsClose_pipe hkind]
    cases hpipe : s.pipes id with
    | none =>
      rw [closePipe_none (by exact hpipe)]
      exact Calm.of_procs rfl
    | some x =>
      rw [closePipe_some (by exact hpipe)]
      exact (Calm.wakeAll (id, e.other) s).trans (Calm.of_procs rfl)

lemma Calm.ofDrop (h : Counted lost extra pending s) (hi : i < maxOpenFiles)
    (hsome : (s.files i).node.isSome) : Calm s (ofDrop i s) ∧ (ofDrop i s).held = s.held := by
  obtain ⟨n, hn⟩ := Option.isSome_iff_exists.mp hsome
  rw [ofDrop_eq hi hn (h.pos i hi hsome)]
  split_ifs
  · obtain ⟨-, hheld, -⟩ := vfsClose_frame n
      (s.setFile i { s.files i with node := none, refCount := 0 })
    refine ⟨Calm.trans ?_ (Calm.vfsClose n _), hheld⟩
    exact Calm.of_procs rfl
  · exact ⟨Calm.of_procs rfl, rfl⟩

lemma Piped.mem_descriptors (h : Piped s) (hp : 1 ≤ p) (hs : (s.procs p).state ≠ .unused)
    (hfd : fd < fdTableSize) : (p, fd) ∈ descriptors :=
  FrostByte.mem_descriptors.mpr ⟨⟨hp, h.lt p hs⟩, hfd⟩

lemma FdState.held_of_used (hs : (s.procs p).state ≠ .unused) (fd : ℕ) :
    s.held (p, fd) = (s.procs p).fdTable fd := if_neg hs

/-! ## Releasing entries -/

lemma FdInv.closeEntry (h : FdInv lost extra pending s) (hp : 1 ≤ p)
    (hs : (s.procs p).state ≠ .unused) (hfd : fd < fdTableSize) :
    FdInv lost extra pending (closeEntry p s fd) ∧ Calm s (closeEntry p s fd) ∧
      (closeEntry p s fd).held = update s.held (p, fd) (-1) := by
  have hk := h.toPiped.mem_descriptors hp hs hfd
  have hheld := held_of_used hs fd
  obtain ⟨hge, hlt⟩ := h.range _ hk
  unfold FrostByte.closeEntry
  rw [← hheld]
  by_cases hneg : 0 ≤ s.held (p, fd)
  · obtain ⟨i, hi⟩ := Int.eq_ofNat_of_zero_le hneg
    have hilt : i < maxOpenFiles := by
      rw [hi] at hlt
      exact_mod_cast hlt
    have hun := h.unbind hs hk hi
    have hsome : ((s.setFd p fd (-1)).files i).node.isSome := h.toCounted.isSome hk hi hilt
    obtain ⟨hcalm, hheld'⟩ := Calm.ofDrop hun.toCounted hilt hsome
    rw [hi]
    refine ⟨hun.ofDrop hilt, (Calm.setFd s p fd (-1)).trans hcalm, ?_⟩
    rw [← held_setFd hs]
    exact hheld'
  · have hminus : s.held (p, fd) = -1 := by omega
    rw [if_neg hneg]
    refine ⟨h, Calm.refl s, ?_⟩
    rw [← hminus, update_eq_self]

lemma FdInv.closeEntries (l : List ℕ) (hl : ∀ fd ∈ l, fd < fdTableSize)
    (h : FdInv lost extra pending s) (hp : 1 ≤ p) (hs : (s.procs p).state ≠ .unused) :
    FdInv lost extra pending (l.foldl (FrostByte.closeEntry p) s) ∧
      Calm s (l.foldl (FrostByte.closeEntry p) s) ∧
      ∀ fd, fd ∈ l ∨ s.held (p, fd) = -1 →
      (l.foldl (FrostByte.closeEntry p) s).held (p, fd) = -1 := by
  induction l generalizing s with
  | nil =>
    refine ⟨h, Calm.refl s, fun fd hfd => ?_⟩
    exact hfd.resolve_left List.not_mem_nil
  | cons a l ih =>
    obtain ⟨h1, hcalm1, hheld1⟩ := h.closeEntry hp hs (hl a (.head _))
    obtain ⟨h2, hcalm2, hheld2⟩ := ih (fun fd hfd => hl fd (.tail _ hfd)) h1
      (hcalm1.used hs)
    refine ⟨h2, hcalm1.trans hcalm2, fun fd hfd => hheld2 fd ?_⟩
    rw [hheld1]
    by_cases hfa : fd = a
    · right
      rw [hfa, update_self]
    · rw [update_of_ne (by rintro ⟨⟩; exact hfa rfl)]
      exact hfd.imp_left fun hmem => (List.mem_cons.mp hmem).resolve_left hfa

lemma FdInv.fdCloseAllFor (h : FdInv lost extra pending s) (hp : 1 ≤ p)
    (hs : (s.procs p).state ≠ .unused) :
    FdInv lost extra pending (fdCloseAllFor p s) ∧ Calm s (fdCloseAllFor p s) ∧
      ∀ fd < fdTableSize, (fdCloseAllFor p s).held (p, fd) = -1 := by
  obtain ⟨h1, hcalm, hheld⟩ := FdInv.closeEntries (List.range fdTableSize)
    (fun fd hfd => List.mem_range.mp hfd) h hp hs
  exact ⟨h1, hcalm, fun fd hfd => hheld fd (Or.inl (List.mem_range.mpr hfd))⟩

/-- Closing gives up the entry and then its reference. -/
lemma FdInv.fdClose (h : FdInv lost extra pending s) (hp : 1 ≤ p)
    (hs : (s.procs p).state ≠ .unused) (fd : ℤ) :
    FdInv lost extra pending (fdClose p fd s) ∧ Calm s (fdClose p fd s) ∧
      (ValidFd fd → (fdClose p fd s).held = update s.held (p, fd.toNat) (-1)) := by
  unfold FrostByte.fdClose
  by_cases hv : ValidFd fd
  · have hlt : fd.toNat < fdTableSize := by
      obtain ⟨h0, h16⟩ := hv
      omega
    obtain ⟨h1, hcalm, hheld⟩ := h.closeEntry hp hs hlt
    rw [if_pos hv]
    exact ⟨h1, hcalm, fun _ => hheld⟩
  · rw [if_neg hv]
    exact ⟨h, Calm.refl s, hv.elim⟩

/-! ## Taking entries -/

lemma findFreeFdSlot_some {x : Process} (h : findFreeFdSlot x = some fd) :
    3 ≤ fd ∧ fd < fdTableSize ∧ x.fdTable fd < 0 := by
  have hmem := List.mem_of_find?_eq_some h
  have hneg := List.find?_some h
  rw [List.mem_range'_1] at hmem
  exact ⟨hmem.1, by have := hmem.2; unfold fdTableSize at this ⊢; omega, of_decide_eq_true hneg⟩

lemma FdInv.held_free (h : FdInv lost extra pending s) (hp : 1 ≤ p)
    (hs : (s.procs p).state ≠ .unused) (hfd : findFreeFdSlot (s.procs p) = some fd) :
    (p, fd) ∈ descriptors ∧ s.held (p, fd) = -1 := by
  obtain ⟨-, hlt, hneg⟩ := findFreeFdSlot_some hfd
  have hk := h.toPiped.mem_descriptors hp hs hlt
  have hge := (h.range _ hk).1
  rw [held_of_used hs] at hge ⊢
  exact ⟨hk, by omega⟩

lemma FdInv.fdAlloc (h : FdInv lost extra pending s) (hp : 1 ≤ p)
    (hs : (s.procs p).state ≠ .unused) (hn : n ∈ pending) (flags append : ℕ) :
    FdInv lost extra (pending.erase n) (fdAlloc p n flags append s).2 ∧
      Calm s (fdAlloc p n flags append s).2 := by
  unfold FrostByte.fdAlloc
  cases halloc : FrostByte.ofAlloc n flags append s with
  | mk r s1 =>
    cases r with
    | none =>
      obtain ⟨rfl, -⟩ := ofAlloc_none halloc
      exact ⟨h.vfsClose hn, Calm.vfsClose n s1⟩
    | some i =>
      have h1 := h.ofAlloc hn halloc
      obtain ⟨hi, -, hs1⟩ := ofAlloc_some halloc
      have hcalm1 : Calm s s1 := Calm.of_procs (by rw [hs1]; rfl)
      have hu : (s1.procs p).state ≠ .unused := hcalm1.used hs
      have hsome : (s1.files i).node.isSome := by
        rw [hs1]
        show (update s.files i _ i).node.isSome
        rw [update_self]
        rfl
      dsimp only
      cases hfree : findFreeFdSlot (s1.procs p) with
      | none => exact ⟨h1.ofDrop hi, hcalm1.trans (Calm.ofDrop h1.toCounted hi hsome).1⟩
      | some fd =>
        obtain ⟨hk, hheld⟩ := h1.held_free hp hu hfree
        exact ⟨h1.bind hu hk hheld hi, hcalm1.trans (Calm.setFd s1 p fd i)⟩

lemma ofRetain_setFd (v : ℤ) (s : FdState) (p fd : ℕ) (w : ℤ) :
    ofRetain v (s.setFd p fd w) = (ofRetain v s).setFd p fd w := by
  unfold ofRetain
  by_cases h : 0 ≤ v ∧ v < (maxOpenFiles : ℤ) ∧ (s.files v.toNat).node.isSome
  · rw [if_pos h, if_pos (by exact h)]
    rfl
  · rw [if_neg h, if_neg (by exact h)]

lemma ofRetain_procs (v : ℤ) (s : FdState) : (ofRetain v s).procs = s.procs := by
  unfold ofRetain
  split_ifs <;> rfl

lemma FdInv.share (h : FdInv lost extra pending s) {q j : ℕ} (hs : (s.procs p).state ≠ .unused)
    (hk : (p, fd) ∈ descriptors) (hfree : s.held (p, fd) = -1) (hkq : (q, j) ∈ descriptors)
    (hi : s.held (q, j) = i) : FdInv lost extra pending (FrostByte.ofRetain i (s.setFd p fd i)) ∧
      Calm s (FrostByte.ofRetain i (s.setFd p fd i)) := by
  have hilt : i < maxOpenFiles := by
    have := (h.range _ hkq).2
    rw [hi] at this
    exact_mod_cast this
  have h1 := h.ofRetain hilt (h.toCounted.isSome hkq hi hilt)
  have hprocs := ofRetain_procs i s
  have hheld : (FrostByte.ofRetain i s).held = s.held := by
    funext k
    unfold held
    rw [hprocs]
  rw [ofRetain_setFd]
  constructor
  · exact h1.bind (by rw [hprocs]; exact hs) hk (by rw [hheld]; exact hfree) hilt
  · exact (Calm.of_procs hprocs).trans (Calm.setFd (FrostByte.ofRetain i s) p fd i)

lemma FdInv.fdDup (h : FdInv lost extra pending s) (hp : 1 ≤ p)
    (hs : (s.procs p).state ≠ .unused) (oldfd : ℤ) :
    FdInv lost extra pending (fdDup p oldfd s).2 ∧ Calm s (fdDup p oldfd s).2 := by
  unfold FrostByte.fdDup
  by_cases hv : ValidFd oldfd
  swap
  · rw [if_neg hv]
    exact ⟨h, Calm.refl s⟩
  rw [if_pos hv]
  by_cases hneg : (s.procs p).fdTable oldfd.toNat < 0
  · rw [if_pos hneg]
    exact ⟨h, Calm.refl s⟩
  rw [if_neg hneg]
  have hold : (p, oldfd.toNat) ∈ descriptors := by
    obtain ⟨h0, h16⟩ := hv
    exact h.toPiped.mem_descriptors hp hs (by omega)
  obtain ⟨i, hi⟩ := Int.eq_ofNat_of_zero_le (not_lt.mp hneg)
  cases hfree : findFreeFdSlot (s.procs p) with
  | none => exact ⟨h, Calm.refl s⟩
  | some newfd =>
    obtain ⟨hk, hheld⟩ := h.held_free hp hs hfree
    have hshare := h.share hs hk hheld hold ((held_of_used hs _).trans hi)
    rw [hi]
    dsimp only
    exact hshare

/-- The old reference of `newfd` is dropped before the new one is taken. -/
lemma FdInv.fdDup2 (h : FdInv lost extra pending s) (hp : 1 ≤ p)
    (hs : (s.procs p).state ≠ .unused) (oldfd newfd : ℤ) :
    FdInv lost extra pending (fdDup2 p oldfd newfd s).2 ∧ Calm s (fdDup2 p oldfd newfd s).2 := by
  unfold FrostByte.fdDup2
  by_cases hv : ValidFd oldfd ∧ ValidFd newfd
  swap
  · rw [if_neg hv]
    exact ⟨h, Calm.refl s⟩
  rw [if_pos hv]
  by_cases hneg : (s.procs p).fdTable oldfd.toNat < 0
  · rw [if_pos hneg]
    exact ⟨h, Calm.refl s⟩
  rw [if_neg hneg]
  by_cases heq : oldfd = newfd
  · rw [if_pos heq]
    exact ⟨h, Calm.refl s⟩
  rw [if_neg heq]
  obtain ⟨⟨ho0, ho16⟩, hn0, hn16⟩ := hv
  have hold : (p, oldfd.toNat) ∈ descriptors := h.toPiped.mem_descriptors hp hs (by omega)
  have hnew : (p, newfd.toNat) ∈ descriptors := h.toPiped.mem_descriptors hp hs (by omega)
  have hne : (p, oldfd.toNat) ≠ (p, newfd.toNat) := by
    intro hpq
    have := (Prod.mk.injEq _ _ _ _ ▸ hpq).2
    omega
  obtain ⟨i, hi⟩ := Int.eq_ofNat_of_zero_le (not_lt.mp hneg)
  have hheldold : s.held (p, oldfd.toNat) = i := (held_of_used hs _).trans hi
  -- the new descriptor is released first, whether it was open or not
  obtain ⟨s1, hs1⟩ : ∃ t, t = if 0 ≤ (s.procs p).fdTable newfd.toNat then
    FrostByte.fdClose p newfd s else s := ⟨_, rfl⟩
  have h1 : FdInv lost extra pending s1 ∧ Calm s s1 ∧
      s1.held = update s.held (p, newfd.toNat) (-1) := by
    by_cases hopen : 0 ≤ (s.procs p).fdTable newfd.toNat
    · rw [hs1, if_pos hopen]
      obtain ⟨h1, hcalm, hheld⟩ := h.fdClose hp hs newfd
      exact ⟨h1, hcalm, hheld ⟨hn0, hn16⟩⟩
    · rw [hs1, if_neg hopen]
      have hge := (h.range _ hnew).1
      have hminus : s.held (p, newfd.toNat) = -1 := by
        rw [held_of_used hs] at hge ⊢
        omega
      refine ⟨h, Calm.refl s, ?_⟩
      rw [← hminus, update_eq_self]
  obtain ⟨hinv, hcalm, hheld⟩ := h1
  rw [← hs1, hi]
  have hshare := hinv.share (hcalm.used hs) hnew (by rw [hheld, update_self]) hold
    (by rw [hheld, update_of_ne hne]; exact hheldold)
  dsimp only
  exact ⟨hshare.1, hcalm.trans hshare.2⟩

/-! ## Room for new descriptors -/

/-- The slots of the open-file table without a node. -/
def freeSlots (s : FdState) : ℕ :=
  uses (Finset.range maxOpenFiles) (fun i => (s.files i).node) none

/-- The free entries of a process from 3 on. -/
def freeFds (s : FdState) (c : ℕ) : ℕ :=
  ((Finset.Ico 3 fdTableSize).filter fun fd => (s.procs c).fdTable fd < 0).card

/-- There is room for `k` new descriptors of `c`. -/
structure Room (s : FdState) (c k : ℕ) : Prop where
  slots : k ≤ freeSlots s
  fds : k ≤ freeFds s c

lemma freeSlots_of_none (h : ∀ i < maxOpenFiles, (s.files i).node ≠ none) : freeSlots s = 0 := by
  by_contra hne
  obtain ⟨j, hj, hnone⟩ := (uses_pos_iff _).mp (Nat.pos_of_ne_zero hne)
  exact h j (Finset.mem_range.mp hj) hnone

lemma freeFds_of_none (h : findFreeFdSlot (s.procs c) = none) : freeFds s c = 0 := by
  refine Finset.card_eq_zero.mpr (Finset.filter_eq_empty_iff.mpr fun j hj hneg => ?_)
  rw [Finset.mem_Ico] at hj
  refine absurd (decide_eq_true hneg) (List.find?_eq_none.mp h j ?_)
  rw [List.mem_range'_1]
  omega

/-- **`fd_alloc`** takes a slot and a descriptor, or fails and has closed the node. -/
lemma fdAlloc_cases (c n flags append : ℕ) (s : FdState) :
    (0 ≤ (fdAlloc c n flags append s).1 ∧ Room s c 1 ∧
      freeSlots s = freeSlots (fdAlloc c n flags append s).2 + 1 ∧
      freeFds s c = freeFds (fdAlloc c n flags append s).2 c + 1 ∧
      (fdAlloc c n flags append s).2.closes = s.closes ∧
      (fdAlloc c n flags append s).2.nextNode = s.nextNode) ∨
    ((fdAlloc c n flags append s).1 < 0 ∧ ¬ Room s c 1 ∧
      (fdAlloc c n flags append s).2.closes = update s.closes n (s.closes n + 1) ∧
      (fdAlloc c n flags append s).2.nextNode = s.nextNode) := by
  unfold FrostByte.fdAlloc
  cases halloc : FrostByte.ofAlloc n flags append s with
  | mk r s1 =>
    cases r with
    | none =>
      obtain ⟨rfl, hused⟩ := ofAlloc_none halloc
      have hfree := freeSlots_of_none hused
      obtain ⟨-, -, hcloses, hnext, -⟩ := vfsClose_frame n s1
      exact .inr ⟨Int.negSucc_lt_zero 0, fun hroom => by have := hroom.slots; omega, hcloses, hnext⟩
    | some i =>
      obtain ⟨hi, hnone, hs1⟩ := ofAlloc_some halloc
      have hprocs : s1.procs = s.procs := by rw [hs1]; rfl
      have hfile : s1.files i = ⟨some n, 0, flags, 1, append⟩ := by
        rw [hs1]; exact update_self _ _ _
      dsimp only
      rw [hprocs]
      cases hfd : findFreeFdSlot (s.procs c) with
      | none =>
        have hfree := freeFds_of_none hfd
        have hdrop : FrostByte.ofDrop i s1 =
            vfsClose n (s1.setFile i { s1.files i with node := none, refCount := 0 }) := by
          rw [ofDrop_eq (n := n) hi (by rw [hfile]) (by rw [hfile]; exact Nat.one_pos)]
          exact if_pos (by rw [hfile])
        obtain ⟨-, -, hcloses, hnext, -⟩ :=
          vfsClose_frame n (s1.setFile i { s1.files i with node := none, refCount := 0 })
        dsimp only
        rw [hdrop, hcloses, hnext, hs1]
        exact .inr ⟨by decide, fun hroom => by have := hroom.fds; omega, rfl, rfl⟩
      | some fd =>
        obtain ⟨h3, hlt, hneg⟩ := findFreeFdSlot_some hfd
        have hslots : freeSlots s = freeSlots (s1.setFd c fd i) + 1 := by
          have hmove := uses_update (T := fun j => (s.files j).node) (Finset.mem_range.mpr hi)
            (some n) none
          have hupd : (fun j => ((s1.setFd c fd i).files j).node) =
              update (fun j => (s.files j).node) i (some n) := by
            funext j
            rw [hs1]
            exact apply_update (fun _ f => f.node) s.files i _ j
          unfold freeSlots
          rw [hupd]
          rw [if_pos hnone, if_neg (by simp)] at hmove
          omega
        have hfds : freeFds s c = freeFds (s1.setFd c fd i) c + 1 := by
          have hself : ((s1.setFd c fd i).procs c).fdTable = update (s.procs c).fdTable fd i := by
            show (update s1.procs c _ c).fdTable = _
            rw [update_self, hprocs]
          have hset : ((Finset.Ico 3 fdTableSize).filter fun j =>
              ((s1.setFd c fd i).procs c).fdTable j < 0) =
              ((Finset.Ico 3 fdTableSize).filter fun j => (s.procs c).fdTable j < 0).erase fd := by
            ext j
            rw [Finset.mem_erase, Finset.mem_filter, Finset.mem_filter, hself]
            by_cases hj : j = fd
            · simp [hj]
            · simp [hj]
          unfold freeFds
          rw [hset, Finset.card_erase_add_one]
          exact Finset.mem_filter.mpr ⟨Finset.mem_Ico.mpr ⟨h3, hlt⟩, hneg⟩
        refine .inl ⟨Int.natCast_nonneg fd, ⟨by omega, by omega⟩, hslots, hfds, ?_, ?_⟩ <;>
        · rw [hs1]
          rfl

lemma fdAlloc_room {k : ℕ} (h : Room s c (k + 1)) (n flags append : ℕ) :
    0 ≤ (fdAlloc c n flags append s).1 ∧ Room (fdAlloc c n flags append s).2 c k := by
  have hslots := h.slots
  have hfds := h.fds
  rcases fdAlloc_cases c n flags append s with ⟨hok, -, h1, h2, -⟩ | ⟨-, hno, -⟩
  · exact ⟨hok, by omega, by omega⟩
  · exact absurd ⟨by omega, by omega⟩ hno

/-! ## New nodes -/

lemma Counted.nextNode_notMem (h : Counted lost extra pending s) : s.nextNode ∉ pending := by
  intro hmem
  have hcount := h.nodes s.nextNode
  rw [if_pos hmem, if_neg (lt_irrefl _)] at hcount
  omega

lemma FdInv.discardNode (h : FdInv lost extra pending s) :
    FdInv lost extra pending (discardNode s) ∧ Calm s (discardNode s) := by
  have h1 := h.newNode_file.vfsClose (Finset.mem_insert_self _ _)
  rw [Finset.erase_insert h.toCounted.nextNode_notMem] at h1
  refine ⟨h1, Calm.trans ?_ (Calm.vfsClose s.nextNode (s.newNode .file))⟩
  exact Calm.of_procs rfl

/-- No node is an end of this pipe. -/
def FdState.NoNodes (s : FdState) (id : ℕ) : Prop := ∀ m < s.nextNode, ∀ e, s.kind m ≠ .pipe id e

lemma FdState.NoNodes.discardNode {id : ℕ} (h : s.NoNodes id) : (discardNode s).NoNodes id := by
  obtain ⟨-, -, -, hnext, hkind⟩ := vfsClose_frame s.nextNode (s.newNode .file)
  intro m hm e
  unfold FrostByte.discardNode at hm ⊢
  rw [hnext] at hm
  rw [hkind]
  show update s.kind s.nextNode .file m ≠ _
  by_cases hmn : m = s.nextNode
  · rw [hmn, update_self]
    intro hk
    cases hk
  · rw [update_of_ne hmn]
    exact h m (lt_of_le_of_ne (Nat.le_of_lt_succ hm) hmn) e

section

variable (h : FdInv lost extra pending s) (hp : 1 ≤ p) (hs : (s.procs p).state ≠ .unused)

include h hp hs

lemma FdInv.fdAlloc_file (flags append : ℕ) :
    FdInv lost extra pending (FrostByte.fdAlloc p s.nextNode flags append (s.newNode .file)).2 := by
  have h1 := h.newNode_file.fdAlloc hp (by exact hs) (Finset.mem_insert_self _ _) flags append
  rw [Finset.erase_insert h.toCounted.nextNode_notMem] at h1
  exact h1.1

/-- Opening a file, also when there is no slot for it: `fd_alloc` closes the node then. -/
lemma FdInv.sysOpen (flags : ℕ) (opened : Bool) :
    FdInv lost extra pending (sysOpen p flags opened s).2 := by
  cases opened with
  | false => exact h
  | true => exact h.fdAlloc_file hp hs _ _

lemma FdInv.sysSocket {socket node : Bool} (hroom : socket = true → node = true → Room s p 1) :
    FdInv lost extra pending (sysSocket p socket node s).2 := by
  unfold FrostByte.sysSocket
  by_cases hfail : socket = false ∨ node = false
  · rw [if_pos hfail]
    exact h
  · rw [not_or, Bool.not_eq_false, Bool.not_eq_false] at hfail
    have hr := hroom hfail.1 hfail.2
    have hok : 0 ≤ (FrostByte.fdAlloc p s.nextNode 2 0 (s.newNode .file)).1 :=
      (fdAlloc_room (s := s.newNode .file) ⟨hr.slots, hr.fds⟩ s.nextNode 2 0).1
    rw [if_neg (by rw [hfail.1, hfail.2]; decide)]
    rw [if_neg (not_lt.mpr hok)]
    exact h.fdAlloc_file hp hs 2 0

lemma FdInv.sysCreat {outcome : CreatOutcome} (hroom : outcome = .opened → Room s p 1) :
    FdInv lost extra pending (sysCreat p outcome s).2 := by
  have h1 := h.newNode_file
  have hparent : s.nextNode ∈ insert s.nextNode pending := Finset.mem_insert_self _ _
  -- closing the parent ends every path that opened it
  have hclose : ∀ t, FdInv lost extra (insert s.nextNode pending) t →
      FdInv lost extra pending (FrostByte.vfsClose s.nextNode t) := by
    intro t ht
    have h2 := ht.vfsClose hparent
    rwa [Finset.erase_insert h.toCounted.nextNode_notMem] at h2
  unfold FrostByte.sysCreat
  cases outcome with
  | failed => exact h
  | notFound => exact hclose _ h1
  | notOpened => exact hclose _ h1.discardNode.1
  | opened =>
    have hr := hroom rfl
    have hok : 0 ≤ (FrostByte.fdAlloc p (s.newNode .file).nextNode 1 0
        ((s.newNode .file).newNode .file)).1 :=
      (fdAlloc_room (s := (s.newNode .file).newNode .file) ⟨hr.slots, hr.fds⟩ _ 1 0).1
    dsimp only
    rw [if_neg (not_lt.mpr hok)]
    exact hclose _ (h1.fdAlloc_file hp (by exact hs) 1 0)

end

lemma FdInv.pipeNodes (h : FdInv lost extra pending s) :
    FdInv lost extra (insert (s.nextNode + 1) (insert s.nextNode pending))
      ((s.newPipe.newNode (.pipe s.nextPipe .read)).newNode (.pipe s.nextPipe .write)) := by
  have hnone : ∀ m < s.nextNode, ∀ e, s.kind m ≠ .pipe s.nextPipe e := by
    intro m hm e hk
    exact lt_irrefl _ (h.pipeLt m _ e hm hk)
  have hopen : ∀ e, s.newPipe.EndOpen s.nextPipe e := by
    intro e
    refine ⟨pipeAlloc, update_self _ _ _, ?_⟩
    cases e <;> rfl
  have h1 := h.newPipe.newNode (k := .pipe s.nextPipe .read) (by
    rintro id e hk
    cases hk
    exact ⟨Nat.lt_succ_self _, hopen _, fun m hm => hnone m hm _⟩)
  apply h1.newNode
  intro id e hk
  cases hk
  refine ⟨Nat.lt_succ_self _, hopen _, fun m hm => ?_⟩
  show update s.kind s.nextNode (.pipe s.nextPipe .read) m ≠ _
  by_cases hmn : m = s.nextNode
  · rw [hmn, update_self]
    intro hk
    cases hk
  · rw [update_of_ne hmn]
    exact hnone m (lt_of_le_of_ne (Nat.le_of_lt_succ hm) hmn) _

section

variable (h : FdInv lost extra pending s) (hp : 1 ≤ p) (hs : (s.procs p).state ≠ .unused)
    {m : PipeMemory}

include h hp hs

lemma FdInv.fdPipe (hroom : m.pipe = true → m.readNode = true → m.writeNode = true → Room s p 2) :
    FdInv lost extra pending (fdPipe p m s).2 ∧ Calm s (fdPipe p m s).2 := by
  unfold FrostByte.fdPipe
  by_cases hm : m.pipe = false
  · rw [if_pos hm]
    exact ⟨h, Calm.refl s⟩
  rw [if_neg hm]
  by_cases hnodes : m.readNode = false ∨ m.writeNode = false
  · -- the nodes that were allocated are destroyed, then the pipe is freed
    rw [if_pos hnodes]
    have hstep : ∀ (b : Bool) (t : FdState), FdInv lost extra pending t → t.NoNodes s.nextPipe →
        FdInv lost extra pending (if b then FrostByte.discardNode t else t) ∧
        Calm t (if b then FrostByte.discardNode t else t) ∧
        (if b then FrostByte.discardNode t else t).NoNodes s.nextPipe := by
      intro b t ht hnone
      cases b with
      | false => exact ⟨ht, Calm.refl t, hnone⟩
      | true => exact ⟨ht.discardNode.1, ht.discardNode.2, hnone.discardNode⟩
    have hnone : s.newPipe.NoNodes s.nextPipe := fun m hm e hk =>
      absurd (h.pipeLt m _ e hm hk) (lt_irrefl _)
    obtain ⟨h1, hcalm1, hnone1⟩ := hstep m.readNode s.newPipe h.newPipe hnone
    obtain ⟨h2, hcalm2, hnone2⟩ := hstep m.writeNode _ h1 hnone1
    refine ⟨h2.freePipe hnone2, Calm.trans ?_ (hcalm1.trans (hcalm2.trans (Calm.of_procs rfl)))⟩
    exact Calm.of_procs rfl
  · rw [if_neg hnodes]
    rw [not_or, Bool.not_eq_false, Bool.not_eq_false] at hnodes
    have hr := hroom (by simpa using hm) hnodes.1 hnodes.2
    obtain ⟨t, ht⟩ : ∃ t, t = (s.newPipe.newNode (.pipe s.nextPipe .read)).newNode
      (.pipe s.nextPipe .write) := ⟨_, rfl⟩
    have h0 : FdInv lost extra (insert (s.nextNode + 1) (insert s.nextNode pending)) t := by
      rw [ht]
      exact h.pipeNodes
    have hcalm0 : Calm s t := by
      rw [ht]
      exact Calm.of_procs rfl
    have hroom0 : Room t p 2 := by
      rw [ht]
      exact ⟨hr.slots, hr.fds⟩
    -- both calls of `fd_alloc` succeed
    obtain ⟨hok1, hroom1⟩ := fdAlloc_room hroom0 s.nextNode vfsFlagRead 0
    obtain ⟨h1, hcalm1⟩ := h0.fdAlloc hp (hcalm0.used hs)
      (Finset.mem_insert_of_mem (Finset.mem_insert_self _ _)) vfsFlagRead 0
    have hne : s.nextNode + 1 ≠ s.nextNode := Nat.succ_ne_self _
    obtain ⟨hok2, -⟩ := fdAlloc_room hroom1 (s.nextNode + 1) vfsFlagWrite 0
    obtain ⟨h2, hcalm2⟩ := h1.fdAlloc hp ((hcalm0.trans hcalm1).used hs)
      (Finset.mem_erase_of_ne_of_mem hne (Finset.mem_insert_self _ _)) vfsFlagWrite 0
    have hfresh : s.nextNode + 1 ∉ insert s.nextNode pending := by
      intro hmem
      have hcount := h.newNode_file.nodes (s.nextNode + 1)
      rw [if_pos hmem, if_neg (by exact lt_irrefl _)] at hcount
      omega
    rw [Finset.erase_right_comm, Finset.erase_insert hfresh,
      Finset.erase_insert h.toCounted.nextNode_notMem] at h2
    dsimp only
    rw [← ht, show (s.newPipe.newNode (.pipe s.nextPipe .read)).nextNode = s.nextNode + 1 from rfl,
      show s.newPipe.nextNode = s.nextNode from rfl, if_neg (not_lt.mpr hok1),
      if_neg (not_lt.mpr hok2)]
    exact ⟨h2, hcalm0.trans (hcalm1.trans hcalm2)⟩

/-- Making a pipe, with room for both ends or a failure before the first one. -/
lemma FdInv.sysPipe {writable copied : Bool}
    (hroom : writable = true → m.pipe = true → m.readNode = true → m.writeNode = true →
      Room s p 2) :
    FdInv lost extra pending (sysPipe p m writable copied s).2 := by
  unfold FrostByte.sysPipe
  cases writable with
  | false => exact h
  | true =>
    obtain ⟨h1, hcalm⟩ := h.fdPipe hp hs (hroom rfl)
    cases hpipe : FrostByte.fdPipe p m s with
    | mk r s1 =>
      rw [hpipe] at h1 hcalm
      cases r with
      | none => exact h1
      | some fds =>
        cases copied with
        | true => exact h1
        | false =>
          obtain ⟨h2, hcalm2, -⟩ := h1.fdClose hp (hcalm.used hs) fds.1
          exact (h2.fdClose hp (hcalm2.used (hcalm.used hs)) fds.2).1

end

/-! ## Calls that fail for want of a slot -/

/-- The calls that release what they created when `fd_alloc` fails. -/
inductive SlotCall
  | pipe
  | socket
  | creat

/-- The slots that a call needs. -/
def SlotCall.slots : SlotCall → ℕ
  | .pipe => 2
  | .socket | .creat => 1

/-- A call for which everything but a slot is there. -/
def SlotCall.run (c : ℕ) (s : FdState) : SlotCall → Bool × FdState
  | .pipe => let r := fdPipe c ⟨true, true, true⟩ s; (r.1.isSome, r.2)
  | .socket => let r := sysSocket c true true s; (decide (0 ≤ r.1), r.2)
  | .creat => let r := sysCreat c .opened s; (decide (0 ≤ r.1), r.2)

/-- Each new node is closed once, new pipes are freed, and both tables are as before. -/
structure ReleasesOnce (c : ℕ) (s s' : FdState) : Prop where
  nodes : ∀ n, s.nextNode ≤ n → n < s'.nextNode → s'.closes n = s.closes n + 1
  pipes : ∀ id, s.nextPipe ≤ id → id < s'.nextPipe → s'.pipes id = none
  files : ∀ i, (s'.files i).node = (s.files i).node
  fds : (s'.procs c).fdTable = (s.procs c).fdTable

lemma ofDrop_closes (idx : ℤ) (s : FdState) (m : ℕ) :
    s.closes m ≤ (ofDrop idx s).closes m ∧ (ofDrop idx s).nextNode = s.nextNode := by
  have hclose : ∀ n s, s.closes m ≤ (vfsClose n s).closes m ∧
    (vfsClose n s).nextNode = s.nextNode := by
    intro n s
    obtain ⟨-, -, hcloses, hnext, -⟩ := vfsClose_frame n s
    rw [hcloses, update_apply]
    exact ⟨by split_ifs with h <;> simp [h], hnext⟩
  unfold ofDrop
  split_ifs
  · exact ⟨le_rfl, rfl⟩
  · dsimp only
    split
    · exact ⟨le_rfl, rfl⟩
    · split_ifs
      · exact hclose _ (s.setFile _ _)
      · exact ⟨le_rfl, rfl⟩
      · exact ⟨le_rfl, rfl⟩

lemma fdClose_closes (c : ℕ) (fd : ℤ) (s : FdState) (m : ℕ) :
    s.closes m ≤ (fdClose c fd s).closes m ∧ (fdClose c fd s).nextNode = s.nextNode := by
  unfold fdClose closeEntry
  dsimp only
  split_ifs
  · exact ofDrop_closes _ (s.setFd _ _ _) m
  · exact ⟨le_rfl, rfl⟩
  · exact ⟨le_rfl, rfl⟩

@[simp] lemma vfsClose_closes (n : ℕ) (s : FdState) :
    (vfsClose n s).closes = update s.closes n (s.closes n + 1) := (vfsClose_frame n s).2.2.1

@[simp] lemma vfsClose_nextNode (n : ℕ) (s : FdState) : (vfsClose n s).nextNode = s.nextNode :=
  (vfsClose_frame n s).2.2.2.1

@[simp] lemma FdState.newNode_nextNode (k : NodeKind) (s : FdState) :
    (s.newNode k).nextNode = s.nextNode + 1 := rfl

@[simp] lemma FdState.newNode_closes (k : NodeKind) (s : FdState) :
    (s.newNode k).closes = s.closes := rfl

/-- **A call succeeds if there is room**; otherwise it closes a node twice. -/
lemma SlotCall.run_cases (call : SlotCall) (c : ℕ) (s : FdState) :
    ((call.run c s).1 = true ∧ Room s c call.slots) ∨
      ((call.run c s).1 = false ∧ ¬ Room s c call.slots ∧ ∃ n, s.nextNode ≤ n ∧
        n < (call.run c s).2.nextNode ∧ s.closes n + 2 ≤ (call.run c s).2.closes n) := by
  cases call with
  | socket =>
    unfold run FrostByte.sysSocket slots
    rw [if_neg (by decide)]
    rcases fdAlloc_cases c s.nextNode 2 0 (s.newNode .file) with
      ⟨hok, hroom, -⟩ | ⟨hno, hroom, hcloses, hnext⟩
    · rw [if_neg (not_lt.mpr hok)]
      exact .inl ⟨decide_eq_true hok, hroom.slots, hroom.fds⟩
    · rw [if_pos hno]
      refine .inr ⟨rfl, fun h => hroom ⟨h.slots, h.fds⟩, s.nextNode, le_rfl, ?_, ?_⟩
      · simp [hnext]
      · simp [hcloses]
  | creat =>
    unfold run FrostByte.sysCreat slots
    rw [if_neg (by decide)]
    dsimp only
    rw [newNode_nextNode]
    rcases fdAlloc_cases c (s.nextNode + 1) 1 0 ((s.newNode .file).newNode .file) with
      ⟨hok, hroom, -⟩ | ⟨hno, hroom, hcloses, hnext⟩
    · rw [if_neg (not_lt.mpr hok)]
      exact .inl ⟨decide_eq_true hok, hroom.slots, hroom.fds⟩
    · rw [if_pos hno]
      refine .inr
        ⟨decide_eq_false (not_le.mpr hno), fun h => hroom ⟨h.slots, h.fds⟩, s.nextNode + 1,
        Nat.le_succ _, ?_, ?_⟩
      · simp [hnext]
      · simp [hcloses]
  | pipe =>
    unfold run FrostByte.fdPipe slots
    rw [if_neg (by decide), if_neg (by decide)]
    dsimp only
    obtain ⟨s0, hs0⟩ : ∃ s0, s0 = ((s.newPipe.newNode (.pipe s.nextPipe .read)).newNode
      (.pipe s.nextPipe .write)) := ⟨_, rfl⟩
    have hnodes : s.newPipe.nextNode = s.nextNode ∧
        (s.newPipe.newNode (.pipe s.nextPipe .read)).nextNode = s.nextNode + 1 ∧
        s0.nextNode = s.nextNode + 2 ∧ s0.closes = s.closes ∧ freeSlots s0 = freeSlots s ∧
        freeFds s0 c = freeFds s c := by
      rw [hs0]
      exact ⟨rfl, rfl, rfl, rfl, rfl, rfl⟩
    obtain ⟨hn, hn', hnext0, hcloses0, hslots, hfds⟩ := hnodes
    rw [← hs0, hn, hn']
    rcases fdAlloc_cases c s.nextNode vfsFlagRead 0 s0 with
      ⟨hok, hroom, h1, h2, hcloses, hnext⟩ | ⟨hno, hroom, hcloses, hnext⟩
    · rw [if_neg (not_lt.mpr hok)]
      rcases fdAlloc_cases c (s.nextNode + 1) vfsFlagWrite 0
        (fdAlloc c s.nextNode vfsFlagRead 0 s0).2 with
        ⟨hok', hroom', -⟩ | ⟨hno', hroom', hcloses', hnext'⟩
      · rw [if_neg (not_lt.mpr hok')]
        have := hroom'.slots
        have := hroom'.fds
        exact .inl ⟨rfl, by omega, by omega⟩
      · rw [if_pos hno']
        refine .inr ⟨rfl, fun h => hroom' ⟨?_, ?_⟩, s.nextNode + 1, Nat.le_succ _, ?_, ?_⟩
        · have := h.slots
          omega
        · have := h.fds
          omega
        · simp [freePipe, (fdClose_closes c _ _ 0).2, hnext', hnext, hnext0]
        · have hle := (fdClose_closes c (fdAlloc c s.nextNode vfsFlagRead 0 s0).1
            (fdAlloc c (s.nextNode + 1) vfsFlagWrite 0
              (fdAlloc c s.nextNode vfsFlagRead 0 s0).2).2 (s.nextNode + 1)).1
          rw [hcloses', hcloses, hcloses0, update_self] at hle
          simpa [freePipe] using hle
    · rw [if_pos hno]
      refine .inr ⟨rfl, fun h => hroom ⟨?_, ?_⟩, s.nextNode, le_rfl, ?_, ?_⟩
      · have := h.slots
        omega
      · have := h.fds
        omega
      · simp [freePipe, hnext, hnext0]
      · simp [freePipe, hcloses, hcloses0]

/-- **A call that fails for want of a slot** never releases what it created once: `fd_alloc` has
closed the node already. -/
theorem releasesOnce_iff (call : SlotCall) (c : ℕ) (s : FdState) :
    ((call.run c s).1 = false → ReleasesOnce c s (call.run c s).2) ↔ Room s c call.slots := by
  rcases call.run_cases c s with ⟨hok, hroom⟩ | ⟨hfail, hroom, n, h1, h2, hcloses⟩
  · exact iff_of_true (fun hfail => by simp [hok] at hfail) hroom
  · refine iff_of_false (fun h => ?_) hroom
    have := (h hfail).nodes n h1 h2
    omega

/-- A program on a terminal has opened sockets until its table of descriptors was full. -/
def FdState.crowded : FdState :=
  (List.range (fdTableSize - 3)).foldl (fun s _ => (sysSocket 1 true true s).2)
    (processCreate 0 true true true boot).2

/-- The next socket finds no descriptor, and its node is closed twice: by `fd_alloc` and by
`sys_socket`. -/
theorem sysSocket_closes_twice : let s := FdState.crowded
    (s.procs 1).state = .runnable ∧ findFreeFdSlot (s.procs 1) = none ∧
      (sysSocket 1 true true s).1 = -1 ∧ (sysSocket 1 true true s).2.closes s.nextNode = 2 := by
  decide +kernel

end FrostByte
