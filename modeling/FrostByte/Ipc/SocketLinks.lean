import Mathlib.Data.List.Nodup
import FrostByte.Ipc.Socket

/-!
# Links between sockets

Peers should point at each other, and a queue should hold connected clients without a peer, each in
one place. `sys_connect` on a connected socket and closing a socket that waits in a queue break
this; in runs without these two the links stay as they should be.

## Main definitions

* `Link`, `Sockets.links` — what links depend on in a socket.
* `LinkInv` — peers are mutual and queues are sound.
* `SocketOp.Orderly`, `orderlyCalls` — runs without the two slips.

## Main results

* `LinkInv.call` — an orderly call keeps the links.
* `orderly_links` — so do whole runs.
* `reconnected_links` — a second `sys_connect` leaves a peer without a partner.
-/

namespace FrostByte.Ipc

open Function Sockets

/-- The fields of a socket that links depend on. -/
structure Link where
  valid : Bool
  state : SockState
  peer : Option ℕ
  queue : List ℕ
  maxBacklog : ℤ

/-- The link of a socket. -/
def Socket.link (x : Socket) : Link := ⟨x.valid, x.state, x.peer, x.listenQueue, x.maxBacklog⟩

/-- A socket that clients can queue at. -/
def Link.Listening (x : Link) : Prop := x.valid = true ∧ x.state = .listening

/-- The links of all sockets. -/
def Sockets.links (s : Sockets) (i : ℕ) : Link := (s.sockets i).link

@[simp] lemma Sockets.links_set (s : Sockets) (i : ℕ) (x : Socket) :
    (s.set i x).links = update s.links i x.link := by
  funext j
  by_cases h : j = i
  · subst h
    rw [update_self, links, set_self]
  · rw [update_of_ne h, links, set_of_ne _ h, links]

/-- Peers point at each other and are connected; queues hold clients without a peer, each once. -/
structure LinkInv (f : ℕ → Link) : Prop where
  peer : ∀ a b, (f a).valid = true → (f a).peer = some b →
    (f b).valid = true ∧ (f b).peer = some a ∧ a ≠ b ∧ (f a).state = .connected
  idle : ∀ a, (f a).valid = true → (f a).state = .unbound ∨ (f a).state = .bound → (f a).queue = []
  queued : ∀ l, (f l).Listening → ∀ q ∈ (f l).queue,
    (f q).valid = true ∧ (f q).state = .connected ∧ (f q).peer = none
  nodup : ∀ l, (f l).Listening → (f l).queue.Nodup
  once : ∀ l l' q, (f l).Listening → (f l').Listening → q ∈ (f l).queue → q ∈ (f l').queue → l = l'
  length : ∀ l, (f l).Listening → ((f l).queue.length : ℤ) ≤ (f l).maxBacklog ∧
    (f l).maxBacklog ≤ 32

/-- No socket has the slot as its peer, and it waits in no queue. -/
structure Unlinked (f : ℕ → Link) (i : ℕ) : Prop where
  peer : ∀ a, (f a).valid = true → (f a).peer ≠ some i
  queue : ∀ l, (f l).Listening → i ∉ (f l).queue

variable {b c l : ℕ}

namespace LinkInv

variable {f : ℕ → Link} {i : ℕ}

section

variable (h : LinkInv f)

include h

lemma peer_state {a : ℕ} (hv : (f a).valid = true) (hp : (f a).peer = some b) :
    (f b).state = .connected := by
  obtain ⟨hvb, hpb, -, -⟩ := h.peer a b hv hp
  exact (h.peer b a hvb hpb).2.2.2

lemma peer_none (hv : (f i).valid = true) (hs : (f i).state ≠ .connected) : (f i).peer = none := by
  cases hp : (f i).peer with
  | none => rfl
  | some p => exact absurd (h.peer i p hv hp).2.2.2 hs

lemma unlinked_of_invalid (hi : (f i).valid = false) : Unlinked f i where
  peer a hv hp := by
    have := (h.peer a i hv hp).1
    rw [hi] at this
    cases this
  queue l hl hq := by
    have := (h.queued l hl i hq).1
    rw [hi] at this
    cases this

lemma unlinked_of_state (hi : (f i).state ≠ .connected) : Unlinked f i where
  peer _ hv hp := hi (h.peer_state hv hp)
  queue l hl hq := hi (h.queued l hl i hq).2.1

lemma unlinked_of_peer (hi : (f i).peer = none)
    (hq : ∀ l, (f l).Listening → i ∉ (f l).queue) : Unlinked f i where
  peer a hv hp := by
    have := (h.peer a i hv hp).2.1
    rw [hi] at this
    cases this
  queue := hq

/-- The sockets in `X` change, and no other one has them as its peer or in its queue. -/
lemma patch {X : Set ℕ} {g : ℕ → Link} (hother : ∀ j, j ∉ X → g j = f j)
    (hpeers : ∀ a, (f a).valid = true → a ∉ X → ∀ b ∈ X, (f a).peer ≠ some b)
    (hqueues : ∀ l, (f l).Listening → ∀ q ∈ X, q ∉ (f l).queue)
    (hlisten : ∀ l ∈ X, (g l).Listening → (g l).queue = [] ∧ 0 ≤ (g l).maxBacklog ∧
      (g l).maxBacklog ≤ 32)
    (hidle : ∀ a ∈ X, (g a).valid = true → (g a).state = .unbound ∨ (g a).state = .bound →
      (g a).queue = [])
    (hpeer : ∀ a ∈ X, (g a).valid = true → ∀ b, (g a).peer = some b →
      (g b).valid = true ∧ (g b).peer = some a ∧ a ≠ b ∧ (g a).state = .connected) : LinkInv g := by
  -- a queue that is not empty is one of the others
  have hold : ∀ l q, (g l).Listening → q ∈ (g l).queue → g l = f l := by
    intro l q hl hq
    refine hother l fun hX => ?_
    rw [(hlisten l hX hl).1] at hq
    exact List.not_mem_nil hq
  refine ⟨fun a b hv hp => ?_, fun a hv hs => ?_, fun l hl q hq => ?_, fun l hl => ?_,
    fun l l' q hl hl' hq hq' => ?_, fun l hl => ?_⟩
  · by_cases ha : a ∈ X
    · exact hpeer a ha hv b hp
    · rw [hother a ha] at hv hp ⊢
      rw [hother b fun hb => hpeers a hv ha b hb hp]
      exact h.peer a b hv hp
  · by_cases ha : a ∈ X
    · exact hidle a ha hv hs
    · rw [hother a ha] at hv hs ⊢
      exact h.idle a hv hs
  · have hlf := hold l q hl hq
    rw [hlf] at hl hq
    rw [hother q fun hX => hqueues l hl q hX hq]
    exact h.queued l hl q hq
  · by_cases ha : l ∈ X
    · rw [(hlisten l ha hl).1]
      exact List.nodup_nil
    · rw [hother l ha] at hl ⊢
      exact h.nodup l hl
  · have hlf := hold l q hl hq
    have hlf' := hold l' q hl' hq'
    rw [hlf] at hl hq
    rw [hlf'] at hl' hq'
    exact h.once l l' q hl hl' hq hq'
  · by_cases ha : l ∈ X
    · rw [(hlisten l ha hl).1]
      exact (hlisten l ha hl).2
    · rw [hother l ha] at hl ⊢
      exact h.length l hl

lemma set (hi : Unlinked f i) {x : Link} (hpeer : x.valid = true → x.peer = none)
    (hidle : x.valid = true → x.state = .unbound ∨ x.state = .bound → x.queue = [])
    (hlisten : x.Listening → x.queue = [] ∧ 0 ≤ x.maxBacklog ∧ x.maxBacklog ≤ 32) :
    LinkInv (update f i x) := by
  refine h.patch (X := {i}) (fun j hj => update_of_ne hj _ _) ?_ ?_ ?_ ?_ ?_
  · rintro a hv - _ rfl
    exact hi.peer a hv
  · rintro l hl _ rfl
    exact hi.queue l hl
  · rintro _ rfl
    rwa [update_self]
  · rintro _ rfl
    rwa [update_self]
  · rintro _ rfl hv b hp
    rw [update_self] at hv hp
    rw [hpeer hv] at hp
    cases hp

lemma setQueue (hl : (f l).Listening) {queue : List ℕ}
    (hq : ∀ q ∈ queue, q ∈ (f l).queue ∨ ((f q).valid = true ∧ (f q).state = .connected ∧
      (f q).peer = none ∧ ∀ l', (f l').Listening → q ∉ (f l').queue))
    (hnodup : queue.Nodup) (hlen : (queue.length : ℤ) ≤ (f l).maxBacklog) :
    LinkInv (update f l { f l with queue := queue }) := by
  obtain ⟨g, hg⟩ : ∃ g, g = update f l { f l with queue := queue } := ⟨_, rfl⟩
  have hself : g l = { f l with queue := queue } := by
    rw [hg]
    exact update_self _ _ _
  have hother : ∀ j, j ≠ l → g j = f j := by
    intro j hj
    rw [hg]
    exact update_of_ne hj _ _
  -- nothing but the one queue changes
  have hsame : ∀ j, (g j).valid = (f j).valid ∧ (g j).state = (f j).state ∧
      (g j).peer = (f j).peer ∧ (g j).maxBacklog = (f j).maxBacklog := by
    intro j
    by_cases hj : j = l
    · rw [hj, hself]
      exact ⟨rfl, rfl, rfl, rfl⟩
    · rw [hother j hj]
      exact ⟨rfl, rfl, rfl, rfl⟩
  have hlisten : ∀ j, (g j).Listening ↔ (f j).Listening := by
    intro j
    unfold Link.Listening
    rw [(hsame j).1, (hsame j).2.1]
  have hstate := hl.2
  rw [← hg]
  refine ⟨fun a b hv hp => ?_, fun a hv hs => ?_, fun j hj q hqm => ?_, fun j hj => ?_,
    fun j j' q hj hj' hqm hqm' => ?_, fun j hj => ?_⟩
  · obtain ⟨hva, hsa, hpa, -⟩ := hsame a
    obtain ⟨hvb, hsb, hpb, -⟩ := hsame b
    rw [hva] at hv
    rw [hpa] at hp
    rw [hvb, hpb, hsa]
    exact h.peer a b hv hp
  · rw [(hsame a).1] at hv
    rw [(hsame a).2.1] at hs
    have ha : a ≠ l := by
      rintro rfl
      rw [hstate] at hs
      rcases hs with hs | hs <;> cases hs
    rw [hother a ha]
    exact h.idle a hv hs
  · rw [hlisten] at hj
    obtain ⟨hvq, hsq, hpq, -⟩ := hsame q
    rw [hvq, hsq, hpq]
    by_cases hjl : j = l
    · rw [hjl, hself] at hqm
      rcases hq q hqm with hin | ⟨hv, hs, hp, -⟩
      · exact h.queued l hl q hin
      · exact ⟨hv, hs, hp⟩
    · rw [hother j hjl] at hqm
      exact h.queued j hj q hqm
  · rw [hlisten] at hj
    by_cases hjl : j = l
    · rw [hjl, hself]
      exact hnodup
    · rw [hother j hjl]
      exact h.nodup j hj
  · rw [hlisten] at hj hj'
    -- a client that is new in this queue is in no other one
    have hcase : ∀ k, (f k).Listening → k ≠ l → q ∈ (g k).queue → q ∈ (g l).queue → False := by
      intro k hk hkl hqk hql
      rw [hother k hkl] at hqk
      rw [hself] at hql
      rcases hq q hql with hin | ⟨-, -, -, hnone⟩
      · exact hkl (h.once k l q hk hl hqk hin)
      · exact hnone k hk hqk
    by_cases hjl : j = l
    · by_cases hjl' : j' = l
      · rw [hjl, hjl']
      · rw [hjl] at hqm
        exact (hcase j' hj' hjl' hqm' hqm).elim
    · by_cases hjl' : j' = l
      · rw [hjl'] at hqm'
        exact (hcase j hj hjl hqm hqm').elim
      · rw [hother j hjl] at hqm
        rw [hother j' hjl'] at hqm'
        exact h.once j j' q hj hj' hqm hqm'
  · rw [hlisten] at hj
    by_cases hjl : j = l
    · rw [hjl, hself]
      exact ⟨hlen, (h.length l hl).2⟩
    · rw [hother j hjl]
      exact h.length j hj

lemma enqueue (hl : (f l).Listening) (hv : (f i).valid = true)
    (hi : (f i).state = .unbound) (hroom : ((f l).queue.length : ℤ) < (f l).maxBacklog) :
    LinkInv (update (update f i { f i with state := .connected, peer := none }) l
      { f l with queue := (f l).queue ++ [i] }) := by
  have hun : Unlinked f i := h.unlinked_of_state (by rw [hi]; decide)
  have hli : l ≠ i := by
    rintro rfl
    rw [hl.2] at hi
    cases hi
  obtain ⟨g, hg⟩ : ∃ g, g = update f i { f i with state := .connected, peer := none } := ⟨_, rfl⟩
  have hgl : g l = f l := by
    rw [hg]
    exact update_of_ne hli _ _
  have hgi : g i = { f i with state := .connected, peer := none } := by
    rw [hg]
    exact update_self _ _ _
  have hinv : LinkInv g := by
    rw [hg]
    refine h.set hun (fun _ => rfl) (fun _ hs => ?_) fun hc => ?_
    · rcases hs with hs | hs <;> cases hs
    · cases hc.2
  have hnone : ∀ k, (g k).Listening → i ∉ (g k).queue := by
    intro k hk
    have hki : k ≠ i := by
      rintro rfl
      rw [hgi] at hk
      cases hk.2
    have hgk : g k = f k := by
      rw [hg]
      exact update_of_ne hki _ _
    rw [hgk] at hk ⊢
    exact hun.queue k hk
  have hgL : (g l).Listening := by
    rw [hgl]
    exact hl
  rw [← hg, ← hgl]
  refine hinv.setQueue hgL (fun q hq => ?_) ?_ ?_
  · rcases List.mem_append.mp hq with hq | hq
    · exact Or.inl hq
    · rw [List.mem_singleton.mp hq, hgi]
      exact Or.inr ⟨hv, rfl, rfl, hnone⟩
  · refine List.nodup_append.mpr ⟨hinv.nodup l hgL, List.nodup_singleton i, fun a ha b hb hab => ?_⟩
    rw [hab, List.mem_singleton.mp hb] at ha
    exact hnone l hgL ha
  · rw [hgl, List.length_append, List.length_singleton]
    omega

lemma dequeue {rest : List ℕ} (hl : (f l).Listening) (hq : (f l).queue = c :: rest) :
    LinkInv (update f l { f l with queue := rest }) ∧
      Unlinked (update f l { f l with queue := rest }) c ∧
      c ≠ l ∧ (f c).valid = true ∧ (f c).state = .connected ∧ (f c).peer = none := by
  obtain ⟨hv, hs, hp⟩ := h.queued l hl c (by rw [hq]; exact (.head _))
  have hnodup := h.nodup l hl
  rw [hq, List.nodup_cons] at hnodup
  have hlen := (h.length l hl).1
  rw [hq, List.length_cons] at hlen
  have hcl : c ≠ l := by
    rintro rfl
    rw [hl.2] at hs
    cases hs
  have hinv : LinkInv (update f l { f l with queue := rest }) := by
    refine h.setQueue hl (fun q hqm => Or.inl ?_) hnodup.2 (by push_cast at hlen; omega)
    rw [hq]
    exact .tail c hqm
  refine ⟨hinv, hinv.unlinked_of_peer ?_ fun k hk => ?_, hcl, hv, hs, hp⟩
  · rw [update_of_ne hcl]
    exact hp
  · by_cases hkl : k = l
    · rw [hkl, update_self]
      exact hnodup.1
    · rw [update_of_ne hkl] at hk ⊢
      intro hmem
      exact hkl (h.once k l c hk hl hmem (by rw [hq]; exact (.head _)))

lemma link {server client : ℕ} (hserver : (f server).valid = false)
    (hc : Unlinked f client) (hv : (f client).valid = true) (hs : (f client).state = .connected)
    {x : Link} (hx : x.state = .connected) (hxv : x.valid = true) (hxp : x.peer = some client) :
    LinkInv (update (update f server x) client { f client with peer := some server }) := by
  have hne : client ≠ server := by
    rintro rfl
    rw [hv] at hserver
    cases hserver
  have hfree := h.unlinked_of_invalid hserver
  obtain ⟨g, hg⟩ : ∃ g, g = update (update f server x) client
    { f client with peer := some server } := ⟨_, rfl⟩
  have hgc : g client = { f client with peer := some server } := by
    rw [hg]
    exact update_self _ _ _
  have hgs : g server = x := by
    rw [hg, update_of_ne hne.symm, update_self]
  rw [← hg]
  refine h.patch (X := {server, client}) (fun j hj => ?_) ?_ ?_ ?_ ?_ ?_
  · rw [hg, update_of_ne fun he => hj (.inr he), update_of_ne fun he => hj (.inl he)]
  · rintro a hva - _ (rfl | rfl)
    · exact hfree.peer a hva
    · exact hc.peer a hva
  · rintro l hl _ (rfl | rfl)
    · exact hfree.queue l hl
    · exact hc.queue l hl
  · -- the two are connected
    rintro _ (rfl | rfl) hl
    · rw [hgs, Link.Listening, hx] at hl
      cases hl.2
    · rw [hgc, Link.Listening, hs] at hl
      cases hl.2
  · rintro _ (rfl | rfl) - hsa
    · rw [hgs, hx] at hsa
      rcases hsa with hsa | hsa <;> cases hsa
    · rw [hgc, hs] at hsa
      rcases hsa with hsa | hsa <;> cases hsa
  · rintro _ (rfl | rfl) - b hp
    · rw [hgs, hxp] at hp
      cases hp
      rw [hgc, hgs]
      exact ⟨hv, rfl, hne.symm, hx⟩
    · rw [hgc] at hp
      cases hp
      rw [hgs, hgc]
      exact ⟨hxv, hxp, hne, hs⟩

lemma unlink {p : ℕ} (hv : (f i).valid = true) (hp : (f i).peer = some p) :
    LinkInv (update (update f i { f i with peer := none }) p
        { f p with peer := none, state := .closed }) ∧
      Unlinked (update (update f i { f i with peer := none }) p
        { f p with peer := none, state := .closed }) i := by
  obtain ⟨hvp, hpp, hne, hsi⟩ := h.peer i p hv hp
  obtain ⟨g, hg⟩ : ∃ g, g = update (update f i { f i with peer := none }) p
    { f p with peer := none, state := .closed } := ⟨_, rfl⟩
  have hgp : g p = { f p with peer := none, state := .closed } := by
    rw [hg]
    exact update_self _ _ _
  have hgi : g i = { f i with peer := none } := by
    rw [hg, update_of_ne hne, update_self]
  have hqueue : ∀ l, (f l).Listening → ∀ q ∈ ({i, p} : Set ℕ), q ∉ (f l).queue := by
    rintro l hl _ (rfl | rfl) hq
    · have hnone := (h.queued l hl _ hq).2.2
      rw [hp] at hnone
      cases hnone
    · have hnone := (h.queued l hl _ hq).2.2
      rw [hpp] at hnone
      cases hnone
  have hlisten : ∀ l ∈ ({i, p} : Set ℕ), ¬ (g l).Listening := by
    rintro _ (rfl | rfl) hl
    · rw [hgi, Link.Listening, hsi] at hl
      cases hl.2
    · rw [hgp] at hl
      cases hl.2
  have hother : ∀ j, j ∉ ({i, p} : Set ℕ) → g j = f j := by
    intro j hj
    rw [hg, update_of_ne fun he => hj (.inr he), update_of_ne fun he => hj (.inl he)]
  have hinv : LinkInv g := by
    refine h.patch hother ?_ hqueue (fun l hX => (hlisten l hX).elim) ?_ ?_
    · rintro a hva ha _ (rfl | rfl) hpa
      · have hback := (h.peer a _ hva hpa).2.1
        rw [hp] at hback
        exact ha (.inr (Option.some.inj hback).symm)
      · have hback := (h.peer a _ hva hpa).2.1
        rw [hpp] at hback
        exact ha (.inl (Option.some.inj hback).symm)
    · rintro _ (rfl | rfl) - hsa
      · rw [hgi, hsi] at hsa
        rcases hsa with hsa | hsa <;> cases hsa
      · rw [hgp] at hsa
        rcases hsa with hsa | hsa <;> cases hsa
    · rintro _ (rfl | rfl) - b hpa
      · rw [hgi] at hpa
        cases hpa
      · rw [hgp] at hpa
        cases hpa
  rw [← hg]
  refine ⟨hinv, hinv.unlinked_of_peer (by rw [hgi]) fun l hl hq => ?_⟩
  have hlf := hother l fun hX => hlisten l hX hl
  rw [hlf] at hl hq
  exact hqueue l hl i (.inl rfl) hq

end

end LinkInv

/-! ## The calls -/

/-- No queue has this socket. -/
def NotQueued (s : Sockets) (i : ℕ) : Prop :=
  ∀ l, (s.links l).Listening → i ∉ (s.links l).queue

variable {s : Sockets} {i : ℕ}

lemma allocSocket_some {t : Sockets} (h : allocSocket s = some (b, t)) :
    (s.sockets b).valid = false ∧ t = s.set b { Socket.zero with valid := true } := by
  unfold allocSocket at h
  split at h
  · cases h
  · rename_i j hfind
    cases h
    have hv := List.find?_some hfind
    exact ⟨by simpa using hv, rfl⟩

lemma socketVfsClose_alone (hv : (s.sockets i).valid = true) (hp : (s.sockets i).peer = none) :
    socketVfsClose i s = s.set i { s.sockets i with state := .closed, valid := false } := by
  unfold socketVfsClose
  rw [if_neg (by rw [hv]; decide), hp]

lemma socketVfsClose_peer {p : ℕ} (hv : (s.sockets i).valid = true)
    (hp : (s.sockets i).peer = some p)
    (hne : p ≠ i) : socketVfsClose i s = ((s.set i { s.sockets i with peer := none }).set p
      { s.sockets p with peer := none, state := .closed }).set i
      { s.sockets i with peer := none, state := .closed, valid := false } := by
  unfold socketVfsClose
  rw [if_neg (by rw [hv]; decide), hp]
  dsimp only
  rw [set_of_ne _ hne, set_of_ne _ hne.symm, set_self]

lemma LinkInv.close (h : LinkInv s.links) (hq : NotQueued s i) :
    LinkInv (socketVfsClose i s).links := by
  cases hv : (s.sockets i).valid with
  | false =>
    unfold socketVfsClose
    rw [if_pos hv]
    exact h
  | true =>
    cases hp : (s.sockets i).peer with
    | none =>
      rw [socketVfsClose_alone hv hp, links_set]
      refine h.set (h.unlinked_of_peer hp hq) (fun _ => hp) (fun hf => ?_) fun hf => ?_
      · cases hf
      · cases hf.1
    | some p =>
      obtain ⟨hinv, hun⟩ := h.unlink hv hp
      rw [socketVfsClose_peer hv hp (h.peer i p hv hp).2.2.1.symm, links_set,
        links_set, links_set]
      refine hinv.set hun (fun _ => rfl) (fun hf => ?_) fun hf => ?_
      · cases hf
      · cases hf.1

lemma Sockets.links_push (rb b : ℕ) (s : Sockets) : (s.push rb b).links = s.links := by
  rw [push, links_set]
  exact update_eq_self rb s.links

lemma socketReadLoop_links (i size : ℕ) (s : Sockets) :
    (socketReadLoop i size s).2.links = s.links := by
  unfold socketReadLoop
  dsimp only
  split_ifs
  · rfl
  · rfl
  · rfl
  · rw [links_set]
    exact update_eq_self i s.links
  · rw [links_set]
    exact update_eq_self i s.links

lemma socketWriteLoop_links (i rb : ℕ) (bytes : List ℕ) (written : ℕ) (s : Sockets) :
    (socketWriteLoop i rb bytes written s).sockets.links = s.links := by
  induction bytes generalizing written s with
  | nil => rfl
  | cons b bs ih =>
    rw [socketWriteLoop]
    split
    · rfl
    split
    · split <;> rfl
    · rw [ih, links_push]

lemma WriteStep.keep_links (i rb : ℕ) (w : WriteStep) : (w.keep i rb).links = w.sockets.links := by
  unfold WriteStep.keep
  split
  · rfl
  · rfl

/-- The steps that move bytes leave the links alone. -/
def SocketOp.MovesBytes : SocketOp → Bool
  | .setFlags .. | .read .. | .readResume .. | .write .. | .writeResume _ | .abandon _ => true
  | _ => false

lemma call_links_of_movesBytes {op : SocketOp} (h : op.MovesBytes = true) :
    (s.call op).links = s.links := by
  cases op with
  | setFlags i arg =>
    show (s.set i _).links = _
    rw [links_set]
    exact update_eq_self i s.links
  | read i size =>
    show (socketVfsRead i size s).2.links = _
    unfold socketVfsRead
    split_ifs
    · rfl
    · rfl
    · exact socketReadLoop_links i size s
  | readResume i size =>
    show (socketReadResume i size s).2.links = _
    unfold socketReadResume
    split_ifs
    · rfl
    · exact socketReadLoop_links i size s
  | write i bytes =>
    show (socketVfsWrite i bytes s).2.2.links = _
    unfold socketVfsWrite
    split_ifs
    · rfl
    · split
      · rfl
      · split_ifs
        · rfl
        · exact (WriteStep.keep_links ..).trans (socketWriteLoop_links ..)
  | writeResume k =>
    show (socketWriteResume k s).2.2.links = _
    unfold socketWriteResume
    split
    · rfl
    · exact (WriteStep.keep_links ..).trans (socketWriteLoop_links ..)
  | abandon k => rfl
  | socket | bind | listen | accept | connect | connectResume | close => cases h

/-- A connected socket is not connected again, one in a queue not closed, and no backlog
negative. -/
def SocketOp.Orderly (s : Sockets) : SocketOp → Prop
  | .connect i _ _ => (s.sockets i).state ≠ .connected
  | .close i => NotQueued s i
  | .listen _ backlog => 0 ≤ backlog
  | _ => True

lemma LinkInv.setSocket (h : LinkInv s.links) (hi : Unlinked s.links i) {x : Socket}
    (hp : x.peer = none)
    (hq : x.listenQueue = []) (hs : x.state ≠ .listening) : LinkInv (s.set i x).links := by
  rw [links_set]
  exact h.set hi (fun _ => hp) (fun _ _ => hq) fun hl => absurd hl.2 hs

lemma LinkInv.sysSocket (h : LinkInv s.links) (domain type protocol : ℤ) (nodeOk fdOk : Bool) :
    LinkInv (sysSocket domain type protocol nodeOk fdOk s).2.links := by
  unfold Ipc.sysSocket
  split
  · exact h
  split
  · exact h
  cases halloc : allocSocket s with
  | none => exact h
  | some r =>
    obtain ⟨b, t⟩ := r
    obtain ⟨hfree, rfl⟩ := allocSocket_some halloc
    have hun := h.unlinked_of_invalid hfree
    dsimp only
    split
    · rw [set_set, set_self, set_self, set_set]
      exact h.setSocket hun rfl rfl (by intro hf; cases hf)
    split
    · rw [socketVfsClose_alone (by rw [set_self, set_self])
          (by rw [set_self, set_self]; rfl)]
      simp only [set_self, set_set]
      exact h.setSocket hun rfl rfl (by intro hf; cases hf)
    · rw [set_set, set_self]
      exact h.setSocket hun rfl rfl (by intro hf; cases hf)

lemma LinkInv.sysBind (h : LinkInv s.links) (i family : ℕ) (sunPath : List ℕ)
    (hv : (s.sockets i).valid = true) : LinkInv (sysBind i family sunPath s).2.links := by
  unfold Ipc.sysBind
  split
  · exact h
  rename_i hs
  rw [not_not] at hs
  split
  · exact h
  · have hne : (s.links i).state ≠ .connected := by
      show (s.sockets i).state ≠ _
      rw [hs]
      decide
    exact h.setSocket (h.unlinked_of_state hne) (h.peer_none hv hne) (h.idle i hv (Or.inl hs))
      (by intro hf; cases hf)

lemma LinkInv.sysListen (h : LinkInv s.links) (i : ℕ) {backlog : ℤ} (hback : 0 ≤ backlog)
    (hv : (s.sockets i).valid = true) : LinkInv (sysListen i backlog s).2.links := by
  unfold Ipc.sysListen
  split
  · exact h
  rename_i hs
  rw [not_not] at hs
  split
  · exact h
  · have hne : (s.links i).state ≠ .connected := by
      show (s.sockets i).state ≠ _
      rw [hs]
      decide
    rw [links_set]
    refine h.set (h.unlinked_of_state hne) (fun _ => h.peer_none hv hne) (fun _ hf => ?_) fun _ =>
      ?_
    · rcases hf with hf | hf <;> cases hf
    · refine ⟨h.idle i hv (Or.inr hs), ?_⟩
      show 0 ≤ (if maxPendingConnections < backlog then maxPendingConnections else backlog) ∧
        (if maxPendingConnections < backlog then maxPendingConnections else backlog) ≤ 32
      unfold maxPendingConnections
      split_ifs <;> omega

lemma findListeningSocket_some {path : List ℕ} (h : findListeningSocket path s = some l) :
    (s.links l).Listening := by
  have hl := List.find?_some h
  rw [Bool.and_eq_true, Bool.and_eq_true, decide_eq_true_eq] at hl
  exact ⟨hl.1.1, hl.1.2⟩

lemma LinkInv.sysConnect (h : LinkInv s.links) (i family : ℕ) (sunPath : List ℕ)
    (hv : (s.sockets i).valid = true) (hs : (s.sockets i).state ≠ .connected) :
    LinkInv (sysConnect i family sunPath s).2.links := by
  unfold Ipc.sysConnect
  split
  · exact h
  rename_i hstate
  have hunbound : (s.sockets i).state = .unbound := by
    by_contra hne
    exact hstate ⟨hne, hs⟩
  split
  · exact h
  cases hfind : findListeningSocket sunPath s with
  | none => exact h
  | some l =>
    have hl := findListeningSocket_some hfind
    dsimp only
    split
    · exact h
    rename_i hroom
    have hli : l ≠ i := by
      rintro rfl
      have hls : (s.sockets l).state = .listening := hl.2
      rw [hls] at hunbound
      cases hunbound
    have hinv := h.enqueue hl hv hunbound (not_le.mp hroom)
    rw [set_of_ne _ hli]
    have hgoal : LinkInv ((s.set i { s.sockets i with state := .connected, peer := none }).set l
        { s.sockets l with listenQueue := (s.sockets l).listenQueue ++ [i] }).links := by
      rw [links_set, links_set]
      exact hinv
    split
    · exact hgoal
    · exact hgoal

lemma LinkInv.connectResume (h : LinkInv s.links) (i : ℕ) :
    LinkInv (connectResume i s).2.links := by
  unfold Ipc.connectResume
  split
  · exact h
  rename_i hwait
  dsimp only
  split
  · rename_i hp
    have hs : (s.links i).state ≠ .connected := fun hs => hwait ⟨hp, hs⟩
    rw [links_set]
    refine h.set (h.unlinked_of_state hs) (fun _ => hp) (fun _ hf => ?_) fun hf => ?_
    · rcases hf with hf | hf <;> cases hf
    · cases hf.2
  · exact h

lemma Sockets.links_set_same {x : Socket} (h : x.link = (s.sockets i).link) :
    (s.set i x).links = s.links := by
  rw [links_set, h]
  exact update_eq_self i s.links

lemma linkPeers_set (hcb : c ≠ b) (x l : Socket) : linkPeers b c l (s.set b x) = (s.set b { x with
      domain := l.domain, type := l.type, protocol := l.protocol, state := .connected,
      peer := some c }).set c { s.sockets c with peer := some b } := by
  unfold linkPeers
  dsimp only
  rw [set_self, set_set, set_of_ne _ hcb]

lemma LinkInv.accept (h : LinkInv s.links) (hun : Unlinked s.links c)
    (hb : (s.sockets b).valid = false) (hcv : (s.sockets c).valid = true)
    (hcs : (s.sockets c).state = .connected) (hcp : (s.sockets c).peer = none) (l : Socket)
    {u : Sockets} (hu : u = linkPeers b c l (s.set b { Socket.zero with valid := true })) :
    LinkInv u.links ∧
      LinkInv ((u.set b { u.sockets b with valid := false }).set c
        { (u.set b { u.sockets b with valid := false }).sockets c with peer := none }).links ∧
      LinkInv
        (((socketVfsClose b u).set b { (socketVfsClose b u).sockets b with valid := false }).set c
        { ((socketVfsClose b u).set b
          { (socketVfsClose b u).sockets b with valid := false }).sockets c with
          peer := none }).links := by
  have hcb : c ≠ b := by
    rintro rfl
    rw [hb] at hcv
    cases hcv
  have hfree := h.unlinked_of_invalid hb
  rw [linkPeers_set hcb] at hu
  have hub : u.sockets b = { Socket.zero with
      valid := true, domain := l.domain, type := l.type, protocol := l.protocol,
      state := .connected, peer := some c } := by
    rw [hu, set_of_ne _ hcb.symm, set_self]
  have huc : u.sockets c = { s.sockets c with peer := some b } := by
    rw [hu, set_self]
  have hlinked : LinkInv u.links := by
    rw [hu, links_set, links_set]
    exact h.link hb hun hcv hcs rfl rfl rfl
  refine ⟨hlinked, ?_, ?_⟩
  · -- the new socket is freed again, and the client is as it was
    have hlinks : ((u.set b { u.sockets b with valid := false }).set c
        { (u.set b { u.sockets b with valid := false }).sockets c with peer := none }).links =
        update s.links b ({ u.sockets b with valid := false } : Socket).link := by
      rw [set_of_ne _ hcb, huc]
      funext j
      by_cases hjc : j = c
      · rw [hjc, update_of_ne hcb, links, set_self]
        show Link.mk _ _ _ _ _ = Link.mk _ _ _ _ _
        rw [hcp]
      · rw [links, set_of_ne _ hjc]
        by_cases hjb : j = b
        · rw [hjb, set_self, update_self]
        · rw [set_of_ne _ hjb, update_of_ne hjb, hu, set_of_ne _ hjc, set_of_ne _ hjb]
          rfl
    rw [hlinks]
    refine h.set hfree (fun hf => ?_) (fun hf => ?_) fun hf => ?_
    · cases hf
    · cases hf
    · cases hf.1
  · have hclosed : LinkInv (socketVfsClose b u).links := by
      apply hlinked.close
      intro k hk hmem
      have := (hlinked.queued k hk b hmem).2.2
      rw [links, hub] at this
      cases this
    have hvb : (u.sockets b).valid = true := by rw [hub]
    have hpb : (u.sockets b).peer = some c := by rw [hub]
    rw [socketVfsClose_peer hvb hpb hcb] at hclosed ⊢
    rw [links_set_same, links_set_same]
    · exact hclosed
    · rw [set_self]
    · rw [set_of_ne _ hcb, set_of_ne _ hcb, set_self]

lemma LinkInv.sysAccept (h : LinkInv s.links) (i : ℕ) (nodeOk fdOk : Bool)
    (hv : (s.sockets i).valid = true) : LinkInv (sysAccept i nodeOk fdOk s).2.links := by
  unfold Ipc.sysAccept
  split
  · exact h
  rename_i hs
  rw [not_not] at hs
  have hl : (s.links i).Listening := ⟨hv, hs⟩
  cases hq : (s.sockets i).listenQueue with
  | nil => exact h
  | cons c rest =>
    obtain ⟨hinv, hun, hci, hcv, hcs, hcp⟩ := h.dequeue hl hq
    generalize ht : s.set i { s.sockets i with listenQueue := rest } = t
    have htl : t.links = update s.links i { s.links i with queue := rest } := by
      rw [← ht, links_set]
      rfl
    rw [← htl] at hinv hun
    have htc : t.sockets c = s.sockets c := by
      rw [← ht, set_of_ne _ hci]
    dsimp only
    rw [ht]
    cases halloc : allocSocket t with
    | none => exact hinv
    | some r =>
      obtain ⟨b, t'⟩ := r
      obtain ⟨hfree, rfl⟩ := allocSocket_some halloc
      dsimp only
      obtain ⟨hok, hnode, hfd⟩ := hinv.accept hun hfree (by rw [htc]; exact hcv)
        (by rw [htc]; exact hcs) (by rw [htc]; exact hcp)
        ((t.set b { Socket.zero with valid := true }).sockets i) rfl
      split
      · exact hnode
      split
      · exact hfd
      · exact hok

/-- One orderly call keeps the links, by cases on the call. -/
lemma LinkInv.call (h : LinkInv s.links) {op : SocketOp} (he : op.Enabled s) (ho : op.Orderly s) :
    LinkInv (s.call op).links := by
  cases op with
  | socket domain type protocol nodeOk fdOk => exact h.sysSocket domain type protocol nodeOk fdOk
  | bind i family sunPath => exact h.sysBind i family sunPath he
  | listen i backlog => exact h.sysListen i ho he
  | accept i nodeOk fdOk => exact h.sysAccept i nodeOk fdOk he
  | connect i family sunPath => exact h.sysConnect i family sunPath he ho
  | connectResume i => exact h.connectResume i
  | close i => exact h.close ho
  | setFlags | read | readResume | write | writeResume | abandon =>
    rw [call_links_of_movesBytes rfl]
    exact h

/-! ## Runs -/

/-- The calls under the conditions of `SocketOp.Orderly`. -/
def orderlyCalls : System Sockets SocketOp where
  init := socketCalls.init
  guard s op := socketCalls.guard s op ∧ op.Orderly s
  step := socketCalls.step

lemma reach_of_orderly (h : orderlyCalls.Reach s) : socketCalls.Reach s :=
  System.Reach.mono (M := orderlyCalls) (g := socketCalls.guard) (fun _ _ hg => hg.1) h

/-- Peers are symmetric, and the queues of listening sockets are sound. -/
structure LinksOk (s : Sockets) : Prop where
  /-- Peers point at each other, and are two connected sockets. -/
  symmetric : ∀ a b, (s.sockets a).valid = true → (s.sockets b).valid = true →
    (s.sockets a).peer = some b → (s.sockets b).peer = some a ∧ a ≠ b ∧
      (s.sockets a).state = .connected ∧ (s.sockets b).state = .connected
  /-- A client in a queue is valid, connected and without a peer. -/
  waiting : ∀ l, (s.sockets l).valid = true → (s.sockets l).state = .listening →
    ∀ q ∈ (s.sockets l).listenQueue, (s.sockets q).valid = true ∧
      (s.sockets q).state = .connected ∧ (s.sockets q).peer = none
  /-- It stands in one position of one queue. -/
  once : ∀ l l', (s.sockets l).valid = true → (s.sockets l).state = .listening →
    (s.sockets l').valid = true → (s.sockets l').state = .listening →
    ∀ k k' q : ℕ, (s.sockets l).listenQueue[k]? = some q →
    (s.sockets l').listenQueue[k']? = some q →
      l = l' ∧ k = k'
  /-- A queue is not longer than the backlog. -/
  length : ∀ l, (s.sockets l).valid = true → (s.sockets l).state = .listening →
    ((s.sockets l).listenQueue.length : ℤ) ≤ (s.sockets l).maxBacklog ∧
      (s.sockets l).listenQueue.length ≤ 32

lemma LinkInv.linksOk (h : LinkInv s.links) : LinksOk s where
  symmetric a b hva _ hp := by
    obtain ⟨-, hpb, hne, hsa⟩ := h.peer a b hva hp
    exact ⟨hpb, hne, hsa, h.peer_state hva hp⟩
  waiting l hv hs := h.queued l ⟨hv, hs⟩
  once l l' hv hs hv' hs' k k' q hk hk' := by
    obtain rfl := h.once l l' q ⟨hv, hs⟩ ⟨hv', hs'⟩ (List.mem_of_getElem? hk)
      (List.mem_of_getElem? hk')
    obtain ⟨hlt, hget⟩ := List.getElem?_eq_some_iff.mp hk
    exact ⟨rfl, (List.getElem?_inj hlt (h.nodup l ⟨hv, hs⟩)).mp (hk.trans hk'.symm)⟩
  length l hv hs := by
    have hlen := h.length l ⟨hv, hs⟩
    refine ⟨hlen.1, ?_⟩
    have : ((s.links l).queue.length : ℤ) ≤ 32 := hlen.1.trans hlen.2
    exact_mod_cast this

lemma LinkInv.boot : LinkInv boot.links where
  peer _ _ hv _ := by cases hv
  idle _ hv _ := by cases hv
  queued _ hl _ _ := by cases hl.1
  nodup _ hl := by cases hl.1
  once _ _ _ hl _ _ _ := by cases hl.1
  length _ hl := by cases hl.1

/-- In every orderly run, peers are symmetric and the queues are sound. -/
theorem orderly_links {s : Sockets} (h : orderlyCalls.Reach s) : LinksOk s := by
  apply LinkInv.linksOk
  apply System.Reach.invariant ?_ ?_ h
  · intro s hs
    rw [show s = boot from hs]
    exact LinkInv.boot
  · rintro s op _ hinv ⟨he, ho⟩ rfl
    exact hinv.call he ho

/-- A client in slot 1 is accepted at slot 0: it and the new socket in slot 2 are peers. -/
@[irreducible]
def Sockets.paired : Sockets :=
  [.socket 1 1 0 true true, .bind 0 1 [47], .listen 0 5, .socket 1 1 0 true true, .connect 1 1 [47],
    .accept 0 true true].foldl Sockets.call Sockets.boot

lemma orderlyCalls_step {s : Sockets} (h : orderlyCalls.Reach s) (op : SocketOp) (he : op.Enabled s)
    (ho : op.Orderly s) : orderlyCalls.Reach (s.call op) :=
  .step h ⟨he, ho⟩ rfl

lemma Sockets.paired_reach : orderlyCalls.Reach paired := by
  have h0 : orderlyCalls.Reach boot := .init rfl
  have h1 := orderlyCalls_step h0 (.socket 1 1 0 true true) trivial trivial
  have h2 := orderlyCalls_step h1 (.bind 0 1 [47]) rfl trivial
  have h3 := orderlyCalls_step h2 (.listen 0 5) rfl (show (0 : ℤ) ≤ 5 by decide)
  have h4 := orderlyCalls_step h3 (.socket 1 1 0 true true) trivial trivial
  have h5 := orderlyCalls_step h4 (.connect 1 1 [47]) rfl (show _ ≠ _ by decide)
  unfold paired
  exact orderlyCalls_step h5 (.accept 0 true true) rfl trivial

/-- A client and the socket that accepted it. -/
theorem orderly_links_paired : (Sockets.paired.sockets 1).peer = some 2 ∧
    (Sockets.paired.sockets 2).peer = some 1 ∧ LinksOk Sockets.paired :=
  ⟨by decide +kernel, by decide +kernel, orderly_links paired_reach⟩

/-- The client connects once more. -/
@[irreducible]
def Sockets.reconnected : Sockets := Sockets.paired.call (.connect 1 1 [47])

/-- The new socket still has the client as its peer, which has none. -/
theorem reconnected_links : socketCalls.Reach Sockets.reconnected ∧
    (Sockets.reconnected.sockets 2).valid = true ∧ (Sockets.reconnected.sockets 1).valid = true ∧
    (Sockets.reconnected.sockets 2).peer = some 1 ∧ (Sockets.reconnected.sockets 1).peer = none ∧
    ¬LinksOk Sockets.reconnected := by
  have hpeer : (reconnected.sockets 2).peer = some 1 := by decide +kernel
  have hnone : (reconnected.sockets 1).peer = none := by decide +kernel
  have hv : (reconnected.sockets 2).valid = true := by decide +kernel
  have hv' : (reconnected.sockets 1).valid = true := by decide +kernel
  have hreach : socketCalls.Reach reconnected := by
    have he : socketCalls.guard paired (.connect 1 1 [47]) :=
      show (paired.sockets 1).valid = true by decide +kernel
    unfold reconnected
    exact .step (reach_of_orderly paired_reach) he rfl
  refine ⟨hreach, hv, hv', hpeer, hnone, fun h => ?_⟩
  have hback := (h.symmetric 2 1 hv hv' hpeer).1
  rw [hnone] at hback
  cases hback

end FrostByte.Ipc
