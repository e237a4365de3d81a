import FrostByte.Ipc.SocketStream

/-!
# Closing one side of a connection

`socket_vfs_close` sets the state of the peer to closed, and `socket_vfs_read` asks for a connected
socket before it looks at the buffer: the bytes are still there, but every read fails.

## Main definitions

* `writeAll`, `readAll` — some writes and some reads one after the other.
* `drain` — what reads of the bytes that were sent should give.

## Main results

* `closed_peer_iff` — after a close the reads are right only if there are none.
* `closed_peer_loses_bytes` — two bytes that are never read.
-/

namespace FrostByte.Ipc

open Sockets

variable {s t : Sockets} {a b : ℕ}

/-- Two connected sockets are peers. -/
structure Connected (a b : ℕ) (s : Sockets) : Prop where
  ne : a ≠ b
  validA : (s.sockets a).valid = true
  validB : (s.sockets b).valid = true
  stateA : (s.sockets a).state = .connected
  stateB : (s.sockets b).state = .connected
  peerA : (s.sockets a).peer = some b
  peerB : (s.sockets b).peer = some a

/-- The writes of one side: the bytes accepted and the state. -/
def writeAll (a : ℕ) : List (List ℕ) → Sockets → List ℕ × Sockets
  | [], s => ([], s)
  | bytes :: ws, s =>
    let r := socketVfsWrite a bytes s
    let rest := writeAll a ws r.2.2
    (acceptedBytes bytes r.2.1 ++ rest.1, rest.2)

/-- The reads of one side: what each returns and stores. -/
def readAll (b : ℕ) : List ℕ → Sockets → List (IoResult × List ℕ)
  | [], _ => []
  | size :: sizes, s =>
    let r := socketVfsRead b size s
    r.1 :: readAll b sizes r.2

/-- What reads should return of a stream that has ended: all of it, and then the end of the file. -/
def drain : List ℕ → List ℕ → List (IoResult × List ℕ)
  | _, [] => []
  | bytes, size :: sizes =>
    (.done (min size bytes.length : ℕ), bytes.take size) :: drain (bytes.drop size) sizes

lemma writeAll_links (a : ℕ) (ws : List (List ℕ)) (s : Sockets) :
    (writeAll a ws s).2.links = s.links := by
  induction ws generalizing s with
  | nil => rfl
  | cons bytes ws ih =>
    rw [writeAll]
    rw [ih]
    exact @call_links_of_movesBytes s (.write a bytes) rfl

lemma Connected.of_links (h : Connected a b s) (hl : t.links = s.links) : Connected a b t := by
  have ha := congrFun hl a
  have hb := congrFun hl b
  have hva : (t.links a).valid = true := by rw [ha]; exact h.validA
  have hvb : (t.links b).valid = true := by rw [hb]; exact h.validB
  have hsa : (t.links a).state = .connected := by rw [ha]; exact h.stateA
  have hsb : (t.links b).state = .connected := by rw [hb]; exact h.stateB
  have hpa : (t.links a).peer = some b := by rw [ha]; exact h.peerA
  have hpb : (t.links b).peer = some a := by rw [hb]; exact h.peerB
  exact ⟨h.ne, hva, hvb, hsa, hsb, hpa, hpb⟩

lemma Connected.close (h : Connected a b s) : ((socketVfsClose a s).sockets b).valid = true ∧
    ((socketVfsClose a s).sockets b).state = .closed := by
  rw [socketVfsClose_peer h.validA h.peerA h.ne.symm, set_of_ne _ h.ne.symm, set_self]
  exact ⟨h.validB, rfl⟩

lemma socketVfsRead_closed (hv : (s.sockets b).valid = true) (hs : (s.sockets b).state = .closed)
    (size : ℕ) : socketVfsRead b size s = ((.done (-107), []), s) := by
  unfold socketVfsRead
  rw [if_neg (by rw [hv]; decide), if_pos (by rw [hs]; decide)]

/-- When one side has written and closed, reads of the other side are right only if there are
none. -/
theorem closed_peer_iff {s : Sockets} {a b : ℕ} (h : Connected a b s) (ws : List (List ℕ))
    (sizes : List ℕ) : readAll b sizes (socketVfsClose a (writeAll a ws s).2) =
        drain ((s.sockets b).recvBuffer.toList sockBufferSize ++ (writeAll a ws s).1) sizes ↔
        sizes = [] := by
  obtain ⟨hv, hs⟩ := (h.of_links (writeAll_links a ws s)).close
  cases sizes with
  | nil => exact iff_of_true rfl rfl
  | cons size sizes =>
    refine iff_of_false (fun heq => ?_) (List.cons_ne_nil _ _)
    rw [readAll] at heq
    rw [socketVfsRead_closed hv hs] at heq
    have hres := IoResult.done.inj (Prod.mk.inj (List.cons.inj heq).1).1
    omega

lemma Sockets.paired_connected : Connected 2 1 paired :=
  ⟨by decide, by decide +kernel, by decide +kernel, by decide +kernel, by decide +kernel,
    by decide +kernel, by decide +kernel⟩

/-- No reads are made after the close. -/
theorem closed_peer_unread : Connected 2 1 Sockets.paired ∧
    readAll 1 [] (socketVfsClose 2 (writeAll 2 [[104, 105]] Sockets.paired).2) =
      drain ((Sockets.paired.sockets 1).recvBuffer.toList sockBufferSize ++
        (writeAll 2 [[104, 105]] Sockets.paired).1) [] :=
  ⟨paired_connected, (closed_peer_iff paired_connected [[104, 105]] []).mpr rfl⟩

/-- Two bytes are sent, the sender closes, and the read that should return them fails. -/
theorem closed_peer_loses_bytes : Connected 2 1 Sockets.paired ∧
    (writeAll 2 [[104, 105]] Sockets.paired).1 = [104, 105] ∧
    readAll 1 [2] (socketVfsClose 2 (writeAll 2 [[104, 105]] Sockets.paired).2) =
    [(.done (-107), [])] ∧ drain [104, 105] [2] = [(.done 2, [104, 105])] :=
  ⟨paired_connected, by decide +kernel, by decide +kernel, by decide +kernel⟩

end FrostByte.Ipc
