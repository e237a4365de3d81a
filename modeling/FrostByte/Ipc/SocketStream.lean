import FrostByte.Ipc.SocketLinks

/-!
# Streams between sockets

What one side of a pair that `sys_accept` has linked writes is what the other side reads, as long as
nobody else has either socket as its peer, waits to write to its buffer, or can be linked to it. A
client that connects again keeps what its old peer sent it.

## Main definitions

* `PairLinks` — two sockets that are peers, and of nobody else.
* `Traced` — sockets with the bytes that each one accepted and returned.
* `Stream` — what was accepted is what was returned and what is in the buffer.
* `pairCalls` — the runs after two sockets were linked.

## Main results

* `PairLinks.sysAccept` — other calls leave the pair alone.
* `StreamInv.call` — one call keeps both streams.
* `socket_stream` — the bytes of a pair arrive in order.
* `leftover_breaks_stream` — bytes of an old peer are read.
-/

namespace FrostByte.Ipc

open Function Sockets

variable {s t : Sockets} {a b i : ℕ}

/-! ## Buffers -/

/-- Some bytes into the buffer of a socket. -/
def Sockets.store (rb : ℕ) (bytes : List ℕ) (s : Sockets) : Sockets :=
  s.set rb { s.sockets rb with
    recvBuffer := (s.sockets rb).recvBuffer.pushAll sockBufferSize bytes }

lemma Sockets.store_nil (rb : ℕ) (s : Sockets) : s.store rb [] = s := by
  exact congrArg (fun f => ({ s with sockets := f } : Sockets)) (update_eq_self rb s.sockets)

lemma Sockets.store_cons (rb b : ℕ) (bs : List ℕ) (s : Sockets) :
    s.store rb (b :: bs) = (s.push rb b).store rb bs := by
  unfold store push
  rw [set_self, set_set]
  rfl

lemma socketWriteLoop_spec (i rb : ℕ) (bytes : List ℕ) (written : ℕ) (s : Sockets)
    (hcount : (s.sockets rb).recvBuffer.count ≤ sockBufferSize) :
    ∃ k ≤ bytes.length, (socketWriteLoop i rb bytes written s).rest = bytes.drop k ∧
      (socketWriteLoop i rb bytes written s).sockets = s.store rb (bytes.take k) ∧
      (s.sockets rb).recvBuffer.count + k ≤ sockBufferSize := by
  induction bytes generalizing written s with
  | nil => exact ⟨0, le_rfl, rfl, (store_nil rb s).symm, hcount⟩
  | cons b bs ih =>
    rw [socketWriteLoop]
    split
    · exact ⟨0, Nat.zero_le _, rfl, (store_nil rb s).symm, hcount⟩
    split
    · split
      · exact ⟨0, Nat.zero_le _, rfl, (store_nil rb s).symm, hcount⟩
      · exact ⟨0, Nat.zero_le _, rfl, (store_nil rb s).symm, hcount⟩
    · rename_i hroom
      have hpush : ((s.push rb b).sockets rb).recvBuffer.count = (s.sockets rb).recvBuffer.count +
        1 := by
        rw [push, set_self]
        rfl
      obtain ⟨k, hk, hrest, hstore, hfits⟩ := ih (written + 1) (s.push rb b) (by omega)
      refine ⟨k + 1, by rw [List.length_cons]; omega, hrest, ?_, by omega⟩
      simp [hstore, store_cons]

/-- Every buffer is a ring in order. -/
def RingsWf (s : Sockets) : Prop := ∀ i, (s.sockets i).recvBuffer.Wf sockBufferSize

/-- Moreover the flags of all sockets are in `F`. -/
def RingsWfIn (F : Set ℕ) (s : Sockets) : Prop :=
  ∀ i, (s.sockets i).recvBuffer.Wf sockBufferSize ∧ (s.sockets i).flags ∈ F

variable {bytes : List ℕ} {rb : ℕ} {x : Socket} {F : Set ℕ}

lemma RingsWfIn.set (h : RingsWfIn F s) (hx : x.recvBuffer.Wf sockBufferSize ∧ x.flags ∈ F) :
    RingsWfIn F (s.set i x) := by
  intro j
  by_cases hj : j = i
  · rw [hj, set_self]
    exact hx
  · rw [set_of_ne _ hj]
    exact h j

lemma RingsWfIn.modify (h : RingsWfIn F s) (hx : (x.recvBuffer, x.flags) =
    ((s.sockets i).recvBuffer, (s.sockets i).flags)) : RingsWfIn F (s.set i x) := by
  obtain ⟨hbuffer, hflags⟩ := Prod.mk.inj hx
  refine h.set ?_
  rw [hbuffer, hflags]
  exact h i

lemma Socket.zero_wf : Socket.zero.recvBuffer.Wf sockBufferSize := ⟨by decide, by decide, rfl⟩

lemma RingsWfIn.boot (h0 : 0 ∈ F) : RingsWfIn F boot := fun _ => ⟨Socket.zero_wf, h0⟩

lemma RingsWfIn.store (h : RingsWfIn F s)
    (hfits : (s.sockets rb).recvBuffer.count + bytes.length ≤ sockBufferSize) :
    RingsWfIn F (s.store rb bytes) :=
  h.set ⟨(RingBuffer.toList_pushAll bytes (h rb).1 hfits).1, (h rb).2⟩

lemma RingsWfIn.socketWriteLoop (h : RingsWfIn F s) (i rb : ℕ) (bytes : List ℕ) (written : ℕ) :
    RingsWfIn F (socketWriteLoop i rb bytes written s).sockets := by
  obtain ⟨k, hk, -, hstore, hfits⟩ := socketWriteLoop_spec i rb bytes written s (h rb).1.count_le
  rw [hstore]
  apply h.store
  rw [List.length_take_of_le hk]
  exact hfits

lemma RingsWfIn.keep {w : WriteStep} (h : RingsWfIn F w.sockets) (i rb : ℕ) :
    RingsWfIn F (w.keep i rb) := by
  unfold WriteStep.keep
  split
  · exact h
  · exact h

lemma RingsWfIn.socketReadLoop (h : RingsWfIn F s) (i size : ℕ) :
    RingsWfIn F (socketReadLoop i size s).2 := by
  unfold Ipc.socketReadLoop
  dsimp only
  split
  · split
    · exact h
    split
    · exact h
    · exact h
  · refine h.set ⟨(RingBuffer.popN_spec _ (h i).1 ?_).1, (h i).2⟩
    split <;> omega

lemma RingsWfIn.close (h : RingsWfIn F s) (i : ℕ) : RingsWfIn F (socketVfsClose i s) := by
  unfold socketVfsClose
  split
  · exact h
  split
  · exact h.modify rfl
  · refine RingsWfIn.modify ?_ rfl
    refine RingsWfIn.modify ?_ rfl
    exact h.modify rfl

lemma RingsWfIn.linkPeers (h : RingsWfIn F s) (server client : ℕ) (l : Socket) :
    RingsWfIn F (linkPeers server client l s) := by
  refine RingsWfIn.modify ?_ rfl
  exact h.modify rfl

lemma RingsWfIn.allocSocket (h : RingsWfIn F s) (h0 : 0 ∈ F) {b : ℕ}
    (halloc : allocSocket s = some (b, t)) : RingsWfIn F t := by
  obtain ⟨-, rfl⟩ := allocSocket_some halloc
  exact h.set ⟨Socket.zero_wf, h0⟩

lemma RingsWfIn.call (h : RingsWfIn F s) (h0 : 0 ∈ F) (op : SocketOp)
    (hop : ∀ i arg, op = .setFlags i arg → arg ∈ F) : RingsWfIn F (s.call op) := by
  cases op with
  | socket domain type protocol nodeOk fdOk =>
    show RingsWfIn F (sysSocket domain type protocol nodeOk fdOk s).2
    unfold sysSocket
    split
    · exact h
    split
    · exact h
    split
    · exact h
    · rename_i j t halloc
      have h1 := h.allocSocket h0 halloc
      split
      · refine RingsWfIn.modify ?_ rfl
        exact h1.modify rfl
      split
      · refine RingsWfIn.modify (RingsWfIn.close ?_ j) rfl
        exact h1.modify rfl
      · exact h1.modify rfl
  | bind i family sunPath =>
    show RingsWfIn F (sysBind i family sunPath s).2
    unfold sysBind
    split
    · exact h
    split
    · exact h
    · exact h.modify rfl
  | listen i backlog =>
    show RingsWfIn F (sysListen i backlog s).2
    unfold sysListen
    split
    · exact h
    split
    · exact h
    · exact h.modify rfl
  | accept i nodeOk fdOk =>
    show RingsWfIn F (sysAccept i nodeOk fdOk s).2
    unfold sysAccept
    split
    · exact h
    split
    · exact h
    · rename_i client rest _
      dsimp only
      split
      · exact h.modify rfl
      · rename_i server t halloc
        have h1 : RingsWfIn F (s.set i { s.sockets i with listenQueue := rest }) := h.modify rfl
        have h2 := (h1.allocSocket h0 halloc).linkPeers server client (t.sockets i)
        split
        · refine RingsWfIn.modify ?_ rfl
          exact h2.modify rfl
        split
        · refine RingsWfIn.modify ?_ rfl
          exact (h2.close server).modify rfl
        · exact h2
  | connect i family sunPath =>
    show RingsWfIn F (sysConnect i family sunPath s).2
    unfold sysConnect
    split
    · exact h
    split
    · exact h
    split
    · exact h
    split
    · exact h
    · have h1 : RingsWfIn F (s.set i { s.sockets i with state := .connected, peer := none }) :=
        h.modify rfl
      dsimp only
      split
      · exact h1.modify rfl
      · exact h1.modify rfl
  | connectResume i =>
    show RingsWfIn F (connectResume i s).2
    unfold connectResume
    split
    · exact h
    dsimp only
    split
    · exact RingsWfIn.modify h rfl
    · exact h
  | close i => exact h.close i
  | setFlags i arg => exact h.set ⟨(h i).1, hop i arg rfl⟩
  | read i size =>
    show RingsWfIn F (socketVfsRead i size s).2
    unfold socketVfsRead
    split
    · exact h
    split
    · exact h
    · exact h.socketReadLoop i size
  | readResume i size =>
    show RingsWfIn F (socketReadResume i size s).2
    unfold socketReadResume
    split
    · exact h
    · exact h.socketReadLoop i size
  | write i bytes =>
    show RingsWfIn F (socketVfsWrite i bytes s).2.2
    unfold socketVfsWrite
    split
    · exact h
    split
    · exact h
    split
    · exact h
    · exact RingsWfIn.keep (h.socketWriteLoop i _ bytes 0) i _
  | writeResume k =>
    show RingsWfIn F (socketWriteResume k s).2.2
    unfold socketWriteResume
    split
    · exact h
    · rename_i p _
      have h1 : RingsWfIn F { s with pending := s.pending.eraseIdx k } := h
      exact RingsWfIn.keep (h1.socketWriteLoop p.sock p.rb p.rest p.written) p.sock p.rb
  | abandon k => exact h

lemma ringsWf_iff : RingsWf s ↔ RingsWfIn Set.univ s := forall_congr' fun _ =>
    (and_iff_left trivial).symm

/-- Every call keeps the buffers in order. -/
lemma RingsWf.call (h : RingsWf s) (op : SocketOp) : RingsWf (s.call op) :=
  ringsWf_iff.mpr ((ringsWf_iff.mp h).call trivial op fun _ _ _ => trivial)

lemma RingsWf.of_reach (h : socketCalls.Reach s) : RingsWf s := by
  apply System.Reach.invariant ?_ ?_ h
  · intro s hs
    rw [show s = boot from hs]
    exact fun _ => Socket.zero_wf
  · rintro s op _ hs - rfl
    exact hs.call op

/-! ## Pairs -/

/-- Two connected sockets are peers, nobody else's peer, and in no queue. -/
structure PairLinks (a b : ℕ) (f : ℕ → Link) : Prop where
  ne : a ≠ b
  validA : (f a).valid = true
  validB : (f b).valid = true
  stateA : (f a).state = .connected
  stateB : (f b).state = .connected
  peerA : (f a).peer = some b
  peerB : (f b).peer = some a
  others : ∀ c, c ≠ a → c ≠ b → (f c).valid = true → (f c).peer ≠ some a ∧ (f c).peer ≠ some b
  queues : ∀ l, (f l).valid = true → a ∉ (f l).queue ∧ b ∉ (f l).queue

lemma PairLinks.symm {f : ℕ → Link} (h : PairLinks a b f) : PairLinks b a f :=
  ⟨h.ne.symm, h.validB, h.validA, h.stateB, h.stateA, h.peerB, h.peerA,
    fun c hb ha hv => (h.others c ha hb hv).symm, fun l hv => (h.queues l hv).symm⟩

/-- A step beside the pair: both sockets are as before. -/
structure PairFrame (a b : ℕ) (s t : Sockets) : Prop where
  links : PairLinks a b t.links
  sameA : t.sockets a = s.sockets a
  sameB : t.sockets b = s.sockets b
  pending : t.pending = s.pending

lemma PairFrame.refl (h : PairLinks a b s.links) : PairFrame a b s s := ⟨h, rfl, rfl, rfl⟩

lemma PairFrame.set (h : PairFrame a b s t) (ha : i ≠ a) (hb : i ≠ b)
    (hpeer : x.valid = true → x.peer ≠ some a ∧ x.peer ≠ some b)
    (hqueue : x.valid = true → a ∉ x.listenQueue ∧ b ∉ x.listenQueue) :
    PairFrame a b s (t.set i x) := by
  have hlinks := h.links
  have hfa : (t.set i x).links a = t.links a := by
    rw [links_set, update_of_ne ha.symm]
  have hfb : (t.set i x).links b = t.links b := by
    rw [links_set, update_of_ne hb.symm]
  refine ⟨⟨hlinks.ne, by rw [hfa]; exact hlinks.validA, by rw [hfb]; exact hlinks.validB,
    by rw [hfa]; exact hlinks.stateA, by rw [hfb]; exact hlinks.stateB,
    by rw [hfa]; exact hlinks.peerA, by rw [hfb]; exact hlinks.peerB, fun c hca hcb hv => ?_,
    fun l hv => ?_⟩, ?_, ?_, h.pending⟩
  · rw [links_set] at hv ⊢
    by_cases hc : c = i
    · rw [hc, update_self] at hv ⊢
      exact hpeer hv
    · rw [update_of_ne hc] at hv ⊢
      exact hlinks.others c hca hcb hv
  · rw [links_set] at hv ⊢
    by_cases hl : l = i
    · rw [hl, update_self] at hv ⊢
      exact hqueue hv
    · rw [update_of_ne hl] at hv ⊢
      exact hlinks.queues l hv
  · rw [set_of_ne _ ha.symm]
    exact h.sameA
  · rw [set_of_ne _ hb.symm]
    exact h.sameB

lemma PairFrame.peer (h : PairFrame a b s t) (ha : i ≠ a) (hb : i ≠ b)
    (hv : (t.sockets i).valid = true) :
    (t.sockets i).peer ≠ some a ∧ (t.sockets i).peer ≠ some b := h.links.others i ha hb hv

lemma PairFrame.queue (h : PairFrame a b s t) (hv : (t.sockets i).valid = true) :
    a ∉ (t.sockets i).listenQueue ∧ b ∉ (t.sockets i).listenQueue := h.links.queues i hv

lemma PairFrame.close (h : PairFrame a b s t) (ha : i ≠ a) (hb : i ≠ b) :
    PairFrame a b s (socketVfsClose i t) := by
  cases hv : (t.sockets i).valid with
  | false =>
    unfold socketVfsClose
    rw [if_pos hv]
    exact h
  | true =>
    unfold socketVfsClose
    rw [if_neg (by rw [hv]; decide)]
    obtain ⟨hpa, hpb⟩ := h.peer ha hb hv
    cases hp : (t.sockets i).peer with
    | none =>
      exact h.set ha hb (fun hf => by cases hf) fun hf => by cases hf
    | some p =>
      rw [hp] at hpa hpb
      have hpa' : p ≠ a := fun hf => hpa (congrArg some hf)
      have hpb' : p ≠ b := fun hf => hpb (congrArg some hf)
      have h1 := h.set ha hb (x := { t.sockets i with peer := none })
        (fun _ => ⟨nofun, nofun⟩) fun hv' => h.queue hv'
      have h2 := h1.set hpa' hpb' (x := { (t.set i { t.sockets i with peer := none }).sockets p with
        peer := none, state := .closed })
        (fun _ => ⟨nofun, nofun⟩) fun hv' => h1.queue hv'
      exact h2.set ha hb (fun hf => by cases hf) fun hf => by cases hf

lemma PairFrame.allocSocket (h : PairFrame a b s t) {t' : Sockets}
    (halloc : allocSocket t = some (i, t')) : i ≠ a ∧ i ≠ b ∧ PairFrame a b s t' := by
  obtain ⟨hfree, rfl⟩ := allocSocket_some halloc
  have ha : i ≠ a := by
    rintro rfl
    have hv : (t.sockets i).valid = true := h.links.validA
    rw [hfree] at hv
    cases hv
  have hb : i ≠ b := by
    rintro rfl
    have hv : (t.sockets i).valid = true := h.links.validB
    rw [hfree] at hv
    cases hv
  refine ⟨ha, hb, h.set ha hb (fun _ => ⟨nofun, nofun⟩) fun _ => ?_⟩
  exact ⟨List.not_mem_nil, List.not_mem_nil⟩

lemma PairLinks.ne_of_state (h : PairLinks a b s.links) (hs : (s.sockets i).state ≠ .connected) :
    i ≠ a ∧ i ≠ b := by
  constructor
  · rintro rfl
    exact hs h.stateA
  · rintro rfl
    exact hs h.stateB

lemma PairFrame.modify (h : PairFrame a b s t) (ha : i ≠ a) (hb : i ≠ b)
    (hv : x.valid = true → (t.sockets i).valid = true)
    (hpeer : x.peer = (t.sockets i).peer ∨ x.peer = none)
    (hqueue : x.listenQueue ⊆ (t.sockets i).listenQueue) : PairFrame a b s (t.set i x) := by
  refine h.set ha hb (fun hx => ?_) fun hx => ?_
  · rcases hpeer with hp | hp
    · rw [hp]
      exact h.peer ha hb (hv hx)
    · rw [hp]
      exact ⟨nofun, nofun⟩
  · obtain ⟨hqa, hqb⟩ := h.queue (hv hx)
    exact ⟨fun hf => hqa (hqueue hf), fun hf => hqb (hqueue hf)⟩

section Calls

variable (h : PairLinks a b s.links)

include h

lemma PairLinks.sysSocket (domain type protocol : ℤ) (nodeOk fdOk : Bool) :
    PairFrame a b s (sysSocket domain type protocol nodeOk fdOk s).2 := by
  have h0 := PairFrame.refl h
  unfold Ipc.sysSocket
  split
  · exact h0
  split
  · exact h0
  split
  · exact h0
  · rename_i j t halloc
    obtain ⟨hja, hjb, h1⟩ := h0.allocSocket halloc
    have h2 : PairFrame a b s (t.set j { t.sockets j with
        domain := domain, type := type, protocol := protocol, state := .unbound }) :=
      h1.modify hja hjb id (Or.inl rfl) (List.Subset.refl _)
    split
    · exact h2.modify hja hjb (fun hf => by cases hf) (Or.inl rfl) (List.Subset.refl _)
    split
    · exact (h2.close hja hjb).modify hja hjb (fun hf => by cases hf) (Or.inl rfl)
        (List.Subset.refl _)
    · exact h2

lemma PairLinks.sysBind (i family : ℕ) (sunPath : List ℕ) :
    PairFrame a b s (sysBind i family sunPath s).2 := by
  have h0 := PairFrame.refl h
  unfold Ipc.sysBind
  split
  · exact h0
  rename_i hs
  rw [not_not] at hs
  split
  · exact h0
  · obtain ⟨hia, hib⟩ := h.ne_of_state (by rw [hs]; decide)
    exact h0.modify hia hib id (Or.inl rfl) (List.Subset.refl _)

lemma PairLinks.sysListen (i : ℕ) (backlog : ℤ) : PairFrame a b s (sysListen i backlog s).2 := by
  have h0 := PairFrame.refl h
  unfold Ipc.sysListen
  split
  · exact h0
  rename_i hs
  rw [not_not] at hs
  split
  · exact h0
  · obtain ⟨hia, hib⟩ := h.ne_of_state (by rw [hs]; decide)
    exact h0.modify hia hib id (Or.inl rfl) (List.Subset.refl _)

lemma PairLinks.sysConnect (hia : i ≠ a) (hib : i ≠ b) (family : ℕ) (sunPath : List ℕ) :
    PairFrame a b s (sysConnect i family sunPath s).2 := by
  have h0 := PairFrame.refl h
  unfold Ipc.sysConnect
  split
  · exact h0
  split
  · exact h0
  split
  · exact h0
  split
  · exact h0
  · rename_i l hfind _
    obtain ⟨hla, hlb⟩ := h.ne_of_state
      (by rw [show (s.sockets l).state = _ from (findListeningSocket_some hfind).2]; decide)
    obtain ⟨t, ht⟩ : ∃ t, t = s.set i { s.sockets i with state := .connected, peer := none } :=
      ⟨_, rfl⟩
    have h1 : PairFrame a b s t := by
      rw [ht]
      exact h0.modify hia hib id (Or.inr rfl) (List.Subset.refl _)
    have h2 : PairFrame a b s (t.set l { t.sockets l with
        listenQueue := (t.sockets l).listenQueue ++ [i] }) := by
      refine h1.set hla hlb (fun hv => h1.peer hla hlb hv) fun hv => ?_
      obtain ⟨hqa, hqb⟩ := h1.queue (i := l) hv
      constructor
      · intro hf
        rcases List.mem_append.mp hf with hf | hf
        · exact hqa hf
        · exact hia (List.mem_singleton.mp hf).symm
      · intro hf
        rcases List.mem_append.mp hf with hf | hf
        · exact hqb hf
        · exact hib (List.mem_singleton.mp hf).symm
    dsimp only
    rw [← ht]
    split
    · exact h2
    · exact ⟨h2.links, h2.sameA, h2.sameB, h2.pending⟩

lemma PairLinks.connectResume (i : ℕ) : PairFrame a b s (connectResume i s).2 := by
  have h0 := PairFrame.refl h
  unfold Ipc.connectResume
  split
  · exact h0
  rename_i hwait
  have h1 : PairFrame a b s { s with connecting := s.connecting.erase i } := ⟨h, rfl, rfl, rfl⟩
  dsimp only
  split
  · rename_i hp
    obtain ⟨hia, hib⟩ := h.ne_of_state fun hs => hwait ⟨hp, hs⟩
    exact h1.modify hia hib id (Or.inl rfl) (List.Subset.refl _)
  · exact h1

/-- Accepting a client links two other sockets, since those of the pair are not in a queue. -/
lemma PairLinks.sysAccept (hv : (s.sockets i).valid = true) (nodeOk fdOk : Bool) :
    PairFrame a b s (sysAccept i nodeOk fdOk s).2 := by
  have h0 := PairFrame.refl h
  unfold Ipc.sysAccept
  split
  · exact h0
  rename_i hs
  rw [not_not] at hs
  obtain ⟨hia, hib⟩ := h.ne_of_state (by rw [hs]; decide)
  split
  · exact h0
  · rename_i c rest hq
    -- the client of this queue is not one of the pair
    obtain ⟨hqa, hqb⟩ := h0.queue hv
    rw [hq] at hqa hqb
    have hca : c ≠ a := fun hf => hqa (hf ▸ (.head _))
    have hcb : c ≠ b := fun hf => hqb (hf ▸ (.head _))
    have h1 : PairFrame a b s (s.set i { s.sockets i with listenQueue := rest }) := by
      refine h0.modify hia hib id (Or.inl rfl) ?_
      rw [hq]
      exact List.subset_cons_self c rest
    dsimp only
    split
    · exact h1
    · rename_i x t halloc
      obtain ⟨hxa, hxb, h2⟩ := h1.allocSocket halloc
      have h3 : PairFrame a b s (linkPeers x c (t.sockets i) t) := by
        have hx := h2.set hxa hxb (x := { t.sockets x with
          domain := (t.sockets i).domain, type := (t.sockets i).type,
          protocol := (t.sockets i).protocol, state := .connected, peer := some c })
          (fun _ => ⟨fun hf => hca (Option.some.inj hf), fun hf => hcb (Option.some.inj hf)⟩)
          fun hv' => h2.queue hv'
        exact hx.set hca hcb
          (fun _ => ⟨fun hf => hxa (Option.some.inj hf), fun hf => hxb (Option.some.inj hf)⟩)
          fun hv' => hx.queue hv'
      split
      · have h4 := h3.modify hxa hxb (x := { (linkPeers x c (t.sockets i) t).sockets x with
          valid := false }) (fun hf => by cases hf) (Or.inl rfl) (List.Subset.refl _)
        exact h4.modify hca hcb id (Or.inr rfl) (List.Subset.refl _)
      split
      · have h4 := (h3.close hxa hxb).modify hxa hxb (x := { (socketVfsClose x
          (linkPeers x c (t.sockets i) t)).sockets x with
          valid := false }) (fun hf => by cases hf) (Or.inl rfl) (List.Subset.refl _)
        exact h4.modify hca hcb id (Or.inr rfl) (List.Subset.refl _)
      · exact h3

end Calls

/-! ## Streams -/

/-- The table, with the bytes accepted and returned on each socket. -/
structure Traced where
  sys : Sockets
  accepted : ℕ → List ℕ
  returned : ℕ → List ℕ

/-- More bytes of one socket. -/
def addBytes (f : ℕ → List ℕ) (i : ℕ) (bytes : List ℕ) : ℕ → List ℕ := update f i (f i ++ bytes)

/-- The bytes that a write of `bytes` accepted, when `rest` remain. -/
def acceptedBytes (bytes rest : List ℕ) : List ℕ := bytes.take (bytes.length - rest.length)

/-- A step. A write accepts the bytes it stores, also before a wait. -/
def Traced.call (t : Traced) (op : SocketOp) : Traced where
  sys := t.sys.call op
  accepted := match op with
    | .write i bytes =>
    addBytes t.accepted i (acceptedBytes bytes (socketVfsWrite i bytes t.sys).2.1)
    | .writeResume k =>
      match t.sys.pending[k]? with
      | none => t.accepted
      | some p => addBytes t.accepted p.sock (acceptedBytes p.rest (socketWriteResume k t.sys).2.1)
    | _ => t.accepted
  returned := match op with
    | .read i size => addBytes t.returned i (socketVfsRead i size t.sys).1.2
    | .readResume i size => addBytes t.returned i (socketReadResume i size t.sys).1.2
    | _ => t.returned

/-- What `b` holds is what `a` sent and `b` has not read. -/
def Stream (a b : ℕ) (accepted returned : ℕ → List ℕ) (s : Sockets) : Prop :=
  accepted a = returned b ++ (s.sockets b).recvBuffer.toList sockBufferSize

/-- A write that waits belongs to the pair or to neither of the two. -/
def PairPending (a b : ℕ) (p : PendingWrite) : Prop :=
  (p.sock = a ↔ p.rb = b) ∧ (p.sock = b ↔ p.rb = a)

/-- The pair, with a stream in each direction. -/
structure StreamInv (a b : ℕ) (accepted returned : ℕ → List ℕ) (s : Sockets) : Prop where
  links : PairLinks a b s.links
  rings : RingsWf s
  pending : ∀ p ∈ s.pending, PairPending a b p
  streamAB : Stream a b accepted returned s
  streamBA : Stream b a accepted returned s

lemma acceptedBytes_drop {k : ℕ} (hk : k ≤ bytes.length) :
    acceptedBytes bytes (bytes.drop k) = bytes.take k := by
  unfold acceptedBytes
  rw [List.length_drop, Nat.sub_sub_self hk]

lemma addBytes_nil (f : ℕ → List ℕ) (i : ℕ) : addBytes f i [] = f := by
  unfold addBytes
  simp

variable {accepted returned : ℕ → List ℕ}

lemma Stream.store (h : Stream a b accepted returned s) (hwf : RingsWf s) (hrb : i = a ↔ rb = b)
    (hfits : (s.sockets rb).recvBuffer.count + bytes.length ≤ sockBufferSize) :
    Stream a b (addBytes accepted i bytes) returned (s.store rb bytes) := by
  unfold Stream at h ⊢
  unfold addBytes Sockets.store
  by_cases hi : i = a
  · have hb := hrb.mp hi
    rw [hi, hb, update_self, Sockets.set_self]
    rw [hb] at hfits
    simp [h, (RingBuffer.toList_pushAll bytes (hwf b) hfits).2]
  · rw [update_of_ne (Ne.symm hi), Sockets.set_of_ne _ fun hb => hi (hrb.mpr hb.symm)]
    exact h

lemma Stream.socketReadLoop (h : Stream a b accepted returned s) (hwf : RingsWf s) (i size : ℕ) :
    Stream a b accepted (addBytes returned i (socketReadLoop i size s).1.2)
    (socketReadLoop i size s).2 := by
  unfold Ipc.socketReadLoop
  dsimp only
  split
  · split
    · rw [addBytes_nil]
      exact h
    split
    · rw [addBytes_nil]
      exact h
    · rw [addBytes_nil]
      exact h
  · obtain ⟨n, hn, hle⟩ : ∃ n, n = (if size < (s.sockets i).recvBuffer.count then size
        else (s.sockets i).recvBuffer.count) ∧ n ≤ (s.sockets i).recvBuffer.count :=
      ⟨_, rfl, by split <;> omega⟩
    rw [← hn]
    unfold Stream addBytes at *
    by_cases hi : i = b
    · subst hi
      simpa [update_self, set_self, ← (RingBuffer.popN_spec n (hwf i) hle).2.2] using h
    · rw [update_of_ne (Ne.symm hi), set_of_ne _ (Ne.symm hi)]
      exact h

lemma StreamInv.socketWriteLoop (h : StreamInv a b accepted returned s)
    (hab : i = a ↔ rb = b) (hba : i = b ↔ rb = a) (bytes : List ℕ) (written : ℕ) :
    StreamInv a b (addBytes accepted i
        (acceptedBytes bytes (socketWriteLoop i rb bytes written s).rest)) returned
      ((socketWriteLoop i rb bytes written s).keep i rb) := by
  obtain ⟨k, hk, hrest, hstore, hfits⟩ :=
    socketWriteLoop_spec i rb bytes written s (h.rings rb).count_le
  have hlen : (s.sockets rb).recvBuffer.count + (bytes.take k).length ≤ sockBufferSize := by
    rw [List.length_take_of_le hk]
    exact hfits
  have hrings := RingsWfIn.keep ((ringsWf_iff.mp h.rings).socketWriteLoop i rb bytes written) i rb
  have hlinks : ((Ipc.socketWriteLoop i rb bytes written s).keep i rb).links = s.links :=
    (WriteStep.keep_links ..).trans (socketWriteLoop_links ..)
  have hsockets : ((Ipc.socketWriteLoop i rb bytes written s).keep i rb).sockets =
      (s.store rb (bytes.take k)).sockets := by
    rw [← hstore]
    unfold WriteStep.keep
    split <;> rfl
  have hAB := h.streamAB.store h.rings hab hlen
  have hBA := h.streamBA.store h.rings hba hlen
  rw [hrest, acceptedBytes_drop hk]
  refine ⟨by rw [hlinks]; exact h.links, ringsWf_iff.mpr hrings, fun p hp => ?_, ?_, ?_⟩
  · have hpend : (Ipc.socketWriteLoop i rb bytes written s).sockets.pending = s.pending := by
      rw [hstore]
      rfl
    unfold WriteStep.keep at hp
    split at hp
    · rw [hpend] at hp
      exact h.pending p hp
    · rcases List.mem_append.mp hp with hp | hp
      · rw [hpend] at hp
        exact h.pending p hp
      · rw [List.mem_singleton.mp hp]
        exact ⟨hab, hba⟩
  · unfold Stream at hAB ⊢
    rw [hsockets]
    exact hAB
  · unfold Stream at hBA ⊢
    rw [hsockets]
    exact hBA

lemma StreamInv.socketReadLoop (h : StreamInv a b accepted returned s) (i size : ℕ) :
    StreamInv a b accepted (addBytes returned i (socketReadLoop i size s).1.2)
      (socketReadLoop i size s).2 where
  links := by
    rw [socketReadLoop_links]
    exact h.links
  rings := ringsWf_iff.mpr ((ringsWf_iff.mp h.rings).socketReadLoop i size)
  pending := by
    have hpend : (Ipc.socketReadLoop i size s).2.pending = s.pending := by
      unfold Ipc.socketReadLoop
      dsimp only
      split
      · split
        · rfl
        split
        · rfl
        · rfl
      · rfl
    rw [hpend]
    exact h.pending
  streamAB := h.streamAB.socketReadLoop h.rings i size
  streamBA := h.streamBA.socketReadLoop h.rings i size

lemma PairLinks.peer_iff (h : PairLinks a b s.links) {p : ℕ} (hv : (s.sockets i).valid = true)
    (hp : (s.sockets i).peer = some p) : i = a ↔ p = b := by
  have hpb : (s.sockets b).peer = some a := h.peerB
  constructor
  · rintro rfl
    have hpa : (s.sockets i).peer = some b := h.peerA
    rw [hpa] at hp
    exact (Option.some.inj hp).symm
  · rintro rfl
    by_contra hia
    have hib : i ≠ p := by
      rintro rfl
      rw [hpb] at hp
      exact h.ne (Option.some.inj hp)
    exact (h.others i hia hib hv).2 hp

lemma StreamInv.frame (h : StreamInv a b accepted returned s) (hf : PairFrame a b s t)
    (hr : RingsWf t) : StreamInv a b accepted returned t where
  links := hf.links
  rings := hr
  pending := by
    rw [hf.pending]
    exact h.pending
  streamAB := by
    unfold Stream
    rw [hf.sameB]
    exact h.streamAB
  streamBA := by
    unfold Stream
    rw [hf.sameA]
    exact h.streamBA

lemma StreamInv.same (h : StreamInv a b accepted returned s) (hl : t.links = s.links)
    (hbuf : ∀ j, (t.sockets j).recvBuffer = (s.sockets j).recvBuffer)
    (hpend : ∀ p ∈ t.pending, p ∈ s.pending) : StreamInv a b accepted returned t where
  links := by
    rw [hl]
    exact h.links
  rings j := by
    rw [hbuf j]
    exact h.rings j
  pending p hp := h.pending p (hpend p hp)
  streamAB := by
    unfold Stream
    rw [hbuf b]
    exact h.streamAB
  streamBA := by
    unfold Stream
    rw [hbuf a]
    exact h.streamBA

lemma socketWriteResume_some {k : ℕ} {p : PendingWrite} (hk : s.pending[k]? = some p) :
    (socketWriteResume k s).2 = ((socketWriteLoop p.sock p.rb p.rest p.written
        { s with pending := s.pending.eraseIdx k }).rest,
      (socketWriteLoop p.sock p.rb p.rest p.written
        { s with pending := s.pending.eraseIdx k }).keep p.sock p.rb) := by
  unfold socketWriteResume
  rw [hk]

/-- One of a pair is closed or connected again. -/
def SocketOp.Breaks (a b : ℕ) : SocketOp → Prop
  | .close i | .connect i _ _ => i = a ∨ i = b
  | _ => False

/-- One call keeps both streams: bytes go through the buffer of the reader, and the others do not
reach it. -/
lemma StreamInv.call {t : Traced} (h : StreamInv a b t.accepted t.returned t.sys) {op : SocketOp}
    (he : op.Enabled t.sys) (hop : ¬op.Breaks a b) :
    StreamInv a b (t.call op).accepted (t.call op).returned (t.call op).sys := by
  have hr := h.rings.call op
  cases op with
  | socket domain type protocol nodeOk fdOk =>
    exact h.frame (h.links.sysSocket domain type protocol nodeOk fdOk) hr
  | bind i family sunPath => exact h.frame (h.links.sysBind i family sunPath) hr
  | listen i backlog => exact h.frame (h.links.sysListen i backlog) hr
  | accept i nodeOk fdOk => exact h.frame (h.links.sysAccept he nodeOk fdOk) hr
  | connect i family sunPath =>
    exact h.frame (h.links.sysConnect (fun hf => hop (Or.inl hf)) (fun hf => hop (Or.inr hf))
      family sunPath) hr
  | connectResume i => exact h.frame (h.links.connectResume i) hr
  | close i =>
    exact h.frame ((PairFrame.refl h.links).close (fun hf => hop (Or.inl hf))
      fun hf => hop (Or.inr hf)) hr
  | setFlags i arg =>
    refine h.same (@call_links_of_movesBytes t.sys (.setFlags i arg) rfl) (fun j => ?_) fun p hp =>
      hp
    show ((t.sys.set i _).sockets j).recvBuffer = _
    by_cases hj : j = i
    · rw [hj, set_self]
    · rw [set_of_ne _ hj]
  | read i size =>
    show StreamInv a b t.accepted (addBytes t.returned i (socketVfsRead i size t.sys).1.2)
      (socketVfsRead i size t.sys).2
    unfold socketVfsRead
    split
    · rw [addBytes_nil]
      exact h
    split
    · rw [addBytes_nil]
      exact h
    · exact h.socketReadLoop i size
  | readResume i size =>
    show StreamInv a b t.accepted (addBytes t.returned i (socketReadResume i size t.sys).1.2)
      (socketReadResume i size t.sys).2
    unfold socketReadResume
    split
    · rw [addBytes_nil]
      exact h
    · exact h.socketReadLoop i size
  | write i bytes =>
    show StreamInv a b (addBytes t.accepted i
      (acceptedBytes bytes (socketVfsWrite i bytes t.sys).2.1)) t.returned
      (socketVfsWrite i bytes t.sys).2.2
    have hnone : addBytes t.accepted i (acceptedBytes bytes bytes) = t.accepted := by
      unfold acceptedBytes
      simp [addBytes_nil]
    unfold socketVfsWrite
    split
    · rw [hnone]
      exact h
    rename_i hv
    rw [Bool.not_eq_false] at hv
    split
    · rw [hnone]
      exact h
    rename_i p hp
    split
    · rw [hnone]
      exact h
    · exact h.socketWriteLoop (h.links.peer_iff hv hp) (h.links.symm.peer_iff hv hp) bytes 0
  | writeResume k =>
    cases hk : t.sys.pending[k]? with
    | none =>
      have hcall : (socketWriteResume k t.sys).2.2 = t.sys := by
        unfold socketWriteResume
        rw [hk]
      show StreamInv a b (match t.sys.pending[k]? with | none => _ | some p => _) t.returned
        (socketWriteResume k t.sys).2.2
      rw [hcall, hk]
      exact h
    | some p =>
      obtain ⟨hab, hba⟩ := h.pending p (List.mem_of_getElem? hk)
      have h1 : StreamInv a b t.accepted t.returned
          { t.sys with pending := t.sys.pending.eraseIdx k } :=
        h.same rfl (fun _ => rfl) fun q hq => List.mem_of_mem_eraseIdx hq
      show StreamInv a b (match t.sys.pending[k]? with
        | none => t.accepted
        | some p => addBytes t.accepted p.sock
          (acceptedBytes p.rest (socketWriteResume k t.sys).2.1)) t.returned
        (socketWriteResume k t.sys).2.2
      rw [socketWriteResume_some hk, hk]
      exact h1.socketWriteLoop hab hba p.rest p.written
  | abandon k => exact h.same rfl (fun _ => rfl) fun q hq => List.mem_of_mem_eraseIdx hq

/-- The steps that leave a pair linked, from when it was linked. -/
def pairCalls (a b : ℕ) (s : Sockets) : System Traced SocketOp where
  init t := t = ⟨s, fun _ => [], fun _ => []⟩
  guard t op := op.Enabled t.sys ∧ ¬op.Breaks a b
  step t op t' := t' = t.call op

/-- `sys_accept` on `l` is about to link `a` to a new socket in the slot `b`, and nothing is left of
what the two were before. -/
structure LinkClean (s : Sockets) (l a b : ℕ) : Prop where
  listening : (s.sockets l).state = .listening
  valid : (s.sockets l).valid = true
  head : (s.sockets l).listenQueue.head? = some a
  slot : (List.range maxSockets).find? (fun i => !(s.sockets i).valid) = some b
  clientValid : (s.sockets a).valid = true
  clientState : (s.sockets a).state = .connected
  clientEmpty : (s.sockets a).recvBuffer.count = 0
  peers : ∀ c, (s.sockets c).valid = true → (s.sockets c).peer ≠ some a ∧
    (s.sockets c).peer ≠ some b
  queues : ∀ k, (s.sockets k).valid = true → (k ≠ l → a ∉ (s.sockets k).listenQueue) ∧
    b ∉ (s.sockets k).listenQueue
  once : a ∉ (s.sockets l).listenQueue.tail
  pending : ∀ p ∈ s.pending, p.sock ≠ a ∧ p.sock ≠ b ∧ p.rb ≠ a ∧ p.rb ≠ b

lemma LinkClean.accept {l : ℕ} (h : LinkClean s l a b) (hr : RingsWf s) :
    (sysAccept l true true s).1 = .done b ∧
      StreamInv a b (fun _ => []) (fun _ => []) (sysAccept l true true s).2 := by
  obtain ⟨rest, hq⟩ : ∃ rest, (s.sockets l).listenQueue = a :: rest := by
    obtain ⟨rest, hrest⟩ := List.head?_eq_some_iff.mp h.head
    exact ⟨rest, hrest⟩
  have honce := h.once
  rw [hq] at honce
  have hal : a ≠ l := by
    rintro rfl
    have hs := h.clientState
    rw [h.listening] at hs
    cases hs
  have hbfree : (s.sockets b).valid = false := by
    have := List.find?_some h.slot
    simpa using this
  have hab : a ≠ b := by
    rintro rfl
    have hv := h.clientValid
    rw [hbfree] at hv
    cases hv
  generalize ht : s.set l { s.sockets l with listenQueue := rest } = t
  have htl : t.sockets l = { s.sockets l with listenQueue := rest } := by
    rw [← ht, set_self]
  have hto : ∀ j, j ≠ l → t.sockets j = s.sockets j := by
    intro j hj
    rw [← ht, set_of_ne _ hj]
  have hvalid : ∀ j, (t.sockets j).valid = (s.sockets j).valid := by
    intro j
    by_cases hj : j = l
    · rw [hj, htl]
    · rw [hto j hj]
  -- taking the client out of the queue does not change which slot is free
  have halloc : allocSocket t = some (b, t.set b { Socket.zero with valid := true }) := by
    unfold allocSocket
    have hslot : (List.range maxSockets).find? (fun i => !(t.sockets i).valid) = some b := by
      simp only [hvalid]
      exact h.slot
    rw [hslot]
  obtain ⟨x, hx, hxv, hxs, hxp, hxq, hxr⟩ : ∃ x : Socket, linkPeers b a
      ((t.set b { Socket.zero with valid := true }).sockets l)
      (t.set b { Socket.zero with valid := true }) =
        (t.set b x).set a { t.sockets a with peer := some b } ∧ x.valid = true ∧
      x.state = .connected ∧ x.peer = some a ∧ x.listenQueue = [] ∧
      x.recvBuffer = Socket.zero.recvBuffer :=
    ⟨_, linkPeers_set hab _ _, rfl, rfl, rfl, rfl, rfl⟩
  have hacc : sysAccept l true true s =
      (.done b, (t.set b x).set a { t.sockets a with peer := some b }) := by
    unfold sysAccept
    rw [if_neg (not_not.mpr h.listening), hq]
    dsimp only
    rw [ht, halloc]
    dsimp only
    rw [hx]
    rfl
  have hrings : RingsWf (sysAccept l true true s).2 := hr.call (.accept l true true)
  rw [hacc] at hrings ⊢
  obtain ⟨u, hu⟩ : ∃ u, u = (t.set b x).set a { t.sockets a with peer := some b } := ⟨_, rfl⟩
  have hua : u.sockets a = { s.sockets a with peer := some b } := by
    rw [hu, set_self, hto a hal]
  have hub : u.sockets b = x := by
    rw [hu, set_of_ne _ hab.symm, set_self]
  have huo : ∀ j, j ≠ a → j ≠ b → u.sockets j = t.sockets j := by
    intro j hja hjb
    rw [hu, set_of_ne _ hja, set_of_ne _ hjb]
  have hpend : u.pending = s.pending := by
    rw [hu, ← ht]
    rfl
  rw [← hu] at hrings ⊢
  refine ⟨rfl, ⟨hab, ?_, ?_, ?_, ?_, ?_, ?_, fun c hca hcb hv => ?_, fun k hv => ?_⟩, hrings,
    fun p hp => ?_, ?_, ?_⟩
  · show (u.sockets a).valid = true
    rw [hua]
    exact h.clientValid
  · show (u.sockets b).valid = true
    rw [hub]
    exact hxv
  · show (u.sockets a).state = .connected
    rw [hua]
    exact h.clientState
  · show (u.sockets b).state = .connected
    rw [hub]
    exact hxs
  · show (u.sockets a).peer = some b
    rw [hua]
  · show (u.sockets b).peer = some a
    rw [hub]
    exact hxp
  · change (u.sockets c).valid = true at hv
    show (u.sockets c).peer ≠ some a ∧ (u.sockets c).peer ≠ some b
    rw [huo c hca hcb] at hv ⊢
    rw [hvalid] at hv
    by_cases hcl : c = l
    · subst hcl
      rw [htl]
      exact h.peers c hv
    · rw [hto c hcl]
      exact h.peers c hv
  · change (u.sockets k).valid = true at hv
    show a ∉ (u.sockets k).listenQueue ∧ b ∉ (u.sockets k).listenQueue
    by_cases hka : k = a
    · rw [hka, hua]
      obtain ⟨hqa, hqb⟩ := h.queues a h.clientValid
      exact ⟨hqa hal, hqb⟩
    · by_cases hkb : k = b
      · rw [hkb, hub, hxq]
        exact ⟨List.not_mem_nil, List.not_mem_nil⟩
      · rw [huo k hka hkb] at hv ⊢
        rw [hvalid] at hv
        obtain ⟨hqa, hqb⟩ := h.queues k hv
        by_cases hkl : k = l
        · subst hkl
          rw [hq] at hqb
          rw [htl]
          exact ⟨honce, fun hf => hqb (.tail a hf)⟩
        · rw [hto k hkl]
          exact ⟨hqa hkl, hqb⟩
  · rw [hpend] at hp
    obtain ⟨hsa, hsb, hra, hrb⟩ := h.pending p hp
    exact ⟨iff_of_false hsa hrb, iff_of_false hsb hra⟩
  · unfold Stream
    rw [hub, hxr]
    rfl
  · unfold Stream RingBuffer.toList
    rw [hua]
    rw [h.clientEmpty]
    rfl

/-- For every pair linked in a clean state, until one of the two is closed or connected: the bytes
returned are the first of those accepted, and the buffers are rings of at most 8192 bytes. -/
theorem socket_stream {s : Sockets} (hs : socketCalls.Reach s) {l a b : ℕ} (h : LinkClean s l a b)
    {t : Traced} (ht : (pairCalls a b (sysAccept l true true s).2).Reach t) :
    t.returned b <+: t.accepted a ∧ t.returned a <+: t.accepted b ∧
      ∀ c, c = a ∨ c = b → (t.sys.sockets c).recvBuffer.count ≤ 8192 ∧
      (t.sys.sockets c).recvBuffer.writePos =
          ((t.sys.sockets c).recvBuffer.readPos + (t.sys.sockets c).recvBuffer.count) % 8192 := by
  have hinv : StreamInv a b t.accepted t.returned t.sys := by
    apply System.Reach.invariant
      ?_ ?_ ht
    · intro t hinit
      rw [show t = _ from hinit]
      exact (h.accept (RingsWf.of_reach hs)).2
    · rintro t op _ hinv ⟨he, hop⟩ rfl
      exact hinv.call he hop
  refine ⟨⟨_, hinv.streamAB.symm⟩, ⟨_, hinv.streamBA.symm⟩, fun c _ => ?_⟩
  exact ⟨(hinv.rings c).count_le, (hinv.rings c).writePos_eq⟩

/-- Slot 0 listens, and the client in slot 1 waits to be accepted. -/
@[irreducible]
def Sockets.asking : Sockets :=
  [.socket 1 1 0 true true, .bind 0 1 [47], .listen 0 5, .socket 1 1 0 true true,
    .connect 1 1 [47]].foldl Sockets.call Sockets.boot

lemma Sockets.asking_reach : socketCalls.Reach asking := by
  unfold asking
  exact System.Reach.foldl (fun _ _ => rfl) (.init rfl) _ (by decide +kernel)

lemma Sockets.asking_zero (n : ℕ) : asking.sockets (n + 2) = Socket.zero := by
  unfold asking
  rfl

lemma Sockets.asking_clean : LinkClean asking 0 1 2 := by
  have hnone : ∀ n, (asking.sockets n).peer = none := by
    rintro (_ | _ | n)
    · decide +kernel
    · decide +kernel
    · rw [asking_zero]
      rfl
  refine ⟨by decide +kernel, by decide +kernel, by decide +kernel, by decide +kernel,
    by decide +kernel, by decide +kernel, by decide +kernel, fun c _ => ?_, ?_, by decide +kernel,
    ?_⟩
  · rw [hnone]
    exact ⟨nofun, nofun⟩
  · rintro (_ | _ | n) hv
    · exact ⟨fun hf => absurd rfl hf, by decide +kernel⟩
    · exact ⟨fun _ => by decide +kernel, by decide +kernel⟩
    · rw [asking_zero] at hv
      cases hv
  · have hpend : asking.pending.length = 0 := by decide +kernel
    rw [List.length_eq_zero_iff.mp hpend]
    intro p hp
    cases hp

/-- The pair of `Sockets.asking` is linked. -/
def Traced.linked : Traced := ⟨(sysAccept 0 true true Sockets.asking).2, fun _ => [], fun _ => []⟩

/-- The accepted socket has written two bytes. -/
def Traced.sent : Traced := Traced.linked.call (.write 2 [104, 105])

/-- The client has read the first of them. -/
def Traced.greeted : Traced := Traced.sent.call (.read 1 1)

lemma pairCalls_step {s : Sockets} {t : Traced} (h : (pairCalls a b s).Reach t) (op : SocketOp)
    (he : op.Enabled t.sys) (hop : ¬op.Breaks a b) : (pairCalls a b s).Reach (t.call op) :=
  .step h ⟨he, hop⟩ rfl

/-- One of two bytes was read, and it is the first. -/
theorem socket_stream_greeted :
    Traced.greeted.returned 1 = [104] ∧ Traced.greeted.accepted 2 = [104, 105] ∧
    Traced.greeted.returned 1 <+: Traced.greeted.accepted 2 := by
  have h0 : (pairCalls 1 2 (sysAccept 0 true true asking).2).Reach Traced.linked := .init rfl
  have h1 := pairCalls_step h0 (.write 2 [104, 105])
    (show (Traced.linked.sys.sockets 2).valid = true by decide +kernel) id
  have h2 := pairCalls_step h1 (.read 1 1)
    (show (Traced.sent.sys.sockets 1).valid = true by decide +kernel) id
  exact ⟨by decide +kernel, by decide +kernel,
    (socket_stream asking_reach asking_clean h2).2.1⟩

/-- The peer has sent the client a byte, and the client connects again. -/
@[irreducible]
def Sockets.leftover : Sockets :=
  (Sockets.paired.call (.write 2 [120])).call (.connect 1 1 [47])

lemma Sockets.leftover_reach : socketCalls.Reach leftover := by
  unfold leftover
  exact (reach_of_orderly paired_reach).foldl (f := call) (fun _ _ => rfl)
    [.write 2 [120], .connect 1 1 [47]] (by decide +kernel)

/-- The client is linked to a new socket in slot 3. -/
def Traced.relinked : Traced :=
  ⟨(sysAccept 0 true true Sockets.leftover).2, fun _ => [], fun _ => []⟩

/-- The client reads a byte that its new peer did not send. -/
theorem leftover_breaks_stream : socketCalls.Reach Sockets.leftover ∧
    (sysAccept 0 true true Sockets.leftover).1 = .done 3 ∧
    (Traced.relinked.sys.sockets 1).peer = some 3 ∧ (Traced.relinked.sys.sockets 3).peer = some 1 ∧
    (pairCalls 1 3 (sysAccept 0 true true Sockets.leftover).2).Reach
    (Traced.relinked.call (.read 1 1)) ∧ (Traced.relinked.call (.read 1 1)).returned 1 = [120] ∧
    (Traced.relinked.call (.read 1 1)).accepted 3 = [] ∧
    ¬(Traced.relinked.call (.read 1 1)).returned 1 <+:
      (Traced.relinked.call (.read 1 1)).accepted 3 := by
  have h0 : (pairCalls 1 3 (sysAccept 0 true true leftover).2).Reach Traced.relinked :=
    .init rfl
  have h1 := pairCalls_step h0 (.read 1 1)
    (show (Traced.relinked.sys.sockets 1).valid = true by decide +kernel) id
  refine ⟨leftover_reach, by decide +kernel, by decide +kernel, by decide +kernel, h1,
    by decide +kernel, by decide +kernel, by decide +kernel⟩

end FrostByte.Ipc
