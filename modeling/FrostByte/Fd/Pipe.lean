import FrostByte.Lib.Ring
import FrostByte.Lib.Word

/-!
# Pipes

The pipe of `fd.c`: a ring of 4096 bytes with a flag for each end. `pipe_read` and `pipe_write`
transfer what is there and what fits, and never block.

## Main definitions

* `Pipe` — the ring with its two flags.
* `pipeRead`, `pipeWrite`, `pipeClose` — `pipe_read`, `pipe_write` and `pipe_close`.
* `PipeRun` — a pipe with all bytes that went in and out.

## Main results

* `pipeRead_spec`, `pipeWrite_spec` — what one call moves.
* `pipe_fifo` — over any calls the bytes come out as they went in.
-/

namespace FrostByte

open Word

/-- The size of the ring. -/
def pipeBufSize : ℕ := 4096

/-- `pipe_t`: a ring and whether its ends are open. -/
structure Pipe extends RingBuffer ℕ where
  writeEndOpen : Bool
  readEndOpen : Bool

/-- The end of a pipe that a node stands for. -/
inductive PipeEnd
  | read
  | write
  deriving DecidableEq, Repr

/-- `pipe_alloc`, when `kmalloc` returns memory for it. -/
def pipeAlloc : Pipe where
  buffer := fun _ => 0
  readPos := 0
  writePos := 0
  count := 0
  writeEndOpen := true
  readEndOpen := true

/-- `pipe_read`: its result, the bytes stored, and the pipe. -/
def pipeRead (size : ℕ) (p : Pipe) : ℤ × List ℕ × Pipe :=
  if size = 0 then (0, [], p)
  else if p.count = 0 ∧ p.writeEndOpen = false then (0, [], p)
  else if p.count = 0 then (0, [], p)
  else
    let toRead := if size < p.count then size else p.count
    let r := p.toRingBuffer.popN pipeBufSize toRead
    (toRead, r.1, { p with toRingBuffer := r.2 })

/-- `pipe_write`: its result and the pipe. -/
def pipeWrite (size : ℕ) (buffer : ℕ → ℕ) (p : Pipe) : ℤ × Pipe :=
  if size = 0 then (0, p)
  else if p.readEndOpen = false then (-1, p)
  else
    let space := sub32 pipeBufSize p.count
    let toWrite := if size < space then size else space
    (toWrite, { p with
      toRingBuffer := p.toRingBuffer.pushAll pipeBufSize ((List.range toWrite).map buffer) })

/-- `pipe_close` of one end; `none` when the pipe is freed. -/
def pipeClose (e : PipeEnd) (p : Pipe) : Option Pipe :=
  let p' := match e with
    | .read => { p with readEndOpen := false }
    | .write => { p with writeEndOpen := false }
  if p'.readEndOpen = false ∧ p'.writeEndOpen = false then none else some p'

/-- The flag of an end. -/
def Pipe.endOpen (p : Pipe) : PipeEnd → Bool
  | .read => p.readEndOpen
  | .write => p.writeEndOpen

/-- The count is at most the capacity, and the positions agree with it. -/
def Pipe.Wf (p : Pipe) : Prop := p.toRingBuffer.Wf pipeBufSize

/-- The bytes in a pipe, the next one to be read first. -/
def Pipe.bytes (p : Pipe) : List ℕ := p.toRingBuffer.toList pipeBufSize

variable {p : Pipe}

lemma pipeAlloc_wf : pipeAlloc.Wf := ⟨by decide, by decide, rfl⟩

@[simp] lemma Pipe.length_bytes (p : Pipe) : p.bytes.length = p.count :=
  RingBuffer.length_toList _ _

/-- A read takes the first bytes of the queue, as many as there are. -/
lemma pipeRead_spec (h : p.Wf) (size : ℕ) :
    (pipeRead size p).2.2.Wf ∧ (pipeRead size p).1 = min size p.count ∧
      (pipeRead size p).2.1.length = min size p.count ∧
      p.bytes = (pipeRead size p).2.1 ++ (pipeRead size p).2.2.bytes ∧
      (pipeRead size p).2.2.readEndOpen = p.readEndOpen ∧
      (pipeRead size p).2.2.writeEndOpen = p.writeEndOpen := by
  unfold pipeRead
  split_ifs with hsize hclosed hempty hlt
  · exact ⟨h, by simp [hsize], by simp [hsize], rfl, rfl, rfl⟩
  · exact ⟨h, by simp [hclosed.1], by simp [hclosed.1], rfl, rfl, rfl⟩
  · exact ⟨h, by simp [hempty], by simp [hempty], rfl, rfl, rfl⟩
  · obtain ⟨hwf, hlen, hlist⟩ := RingBuffer.popN_spec size h hlt.le
    have hmin : min size p.count = size := min_eq_left hlt.le
    exact ⟨hwf, by rw [hmin], hlen.trans hmin.symm, hlist, rfl, rfl⟩
  · obtain ⟨hwf, hlen, hlist⟩ := RingBuffer.popN_spec p.count h le_rfl
    have hmin : min size p.count = p.count := min_eq_right (not_lt.mp hlt)
    exact ⟨hwf, by rw [hmin], hlen.trans hmin.symm, hlist, rfl, rfl⟩

/-- A write puts bytes behind the queue, as many as fit. -/
lemma pipeWrite_spec (h : p.Wf) (hopen : p.readEndOpen = true) (size : ℕ) (buffer : ℕ → ℕ) :
    (pipeWrite size buffer p).2.Wf ∧
    (pipeWrite size buffer p).1 = min size (pipeBufSize - p.count) ∧
      (pipeWrite size buffer p).2.bytes =
        p.bytes ++ (List.range (min size (pipeBufSize - p.count))).map buffer ∧
      (pipeWrite size buffer p).2.readEndOpen = p.readEndOpen ∧
      (pipeWrite size buffer p).2.writeEndOpen = p.writeEndOpen := by
  have hspace : sub32 pipeBufSize p.count = pipeBufSize - p.count :=
    sub32_of_le h.count_le (by decide)
  have hcount : p.count ≤ pipeBufSize := h.count_le
  unfold pipeWrite
  by_cases hsize : size = 0
  · subst hsize
    exact ⟨h, rfl, (List.append_nil _).symm, rfl, rfl⟩
  · rw [if_neg hsize, if_neg (by rw [hopen]; decide), hspace]
    obtain ⟨n, hn⟩ : ∃ n, n = min size (pipeBufSize - p.count) := ⟨_, rfl⟩
    have hif : (if size < pipeBufSize - p.count then size else pipeBufSize - p.count) = n := by
      split_ifs <;> omega
    have hfits : p.count + ((List.range n).map buffer).length ≤ pipeBufSize := by
      rw [List.length_map, List.length_range]
      omega
    obtain ⟨hwf, hlist⟩ := RingBuffer.toList_pushAll ((List.range n).map buffer) h hfits
    dsimp only
    rw [hif, ← hn]
    exact ⟨hwf, rfl, hlist, rfl, rfl⟩

lemma pipeClose_endOpen (e e' : PipeEnd) (p : Pipe) :
    (∃ p', pipeClose e p = some p' ∧ p'.endOpen e' = true) ↔ e' ≠ e ∧ p.endOpen e' = true := by
  obtain ⟨ring, w, r⟩ := p
  cases e <;> cases e' <;> cases w <;> cases r <;> simp [pipeClose, Pipe.endOpen]

lemma pipeRead_endOpen (size : ℕ) (p : Pipe) (e : PipeEnd) :
    (pipeRead size p).2.2.endOpen e = p.endOpen e := by
  unfold pipeRead
  cases e with
  | read => split_ifs <;> rfl
  | write => split_ifs <;> rfl

lemma pipeWrite_endOpen (size : ℕ) (buffer : ℕ → ℕ) (p : Pipe) (e : PipeEnd) :
    (pipeWrite size buffer p).2.endOpen e = p.endOpen e := by
  unfold pipeWrite
  cases e with
  | read => split_ifs <;> rfl
  | write => split_ifs <;> rfl

/-- The pipe `x` became `p` by a transfer of `r` bytes, after which one process at `e` is woken: the
ends stay, and unless bytes are moved so does the count; nothing is written to a full pipe. -/
structure Transfer (x p : Pipe) (e : PipeEnd) (r : ℤ) : Prop where
  ends : ∀ e', p.endOpen e' = x.endOpen e'
  count_le : x.count ≤ pipeBufSize → p.count ≤ pipeBufSize
  moves : x.count ≤ pipeBufSize →
    p.count = x.count ∨ 0 < r ∧ (e = .read → x.count < pipeBufSize)

lemma pipeRead_transfer (size : ℕ) (p : Pipe) :
    Transfer p (pipeRead size p).2.2 .write (pipeRead size p).1 := by
  refine ⟨pipeRead_endOpen size p, fun hle => ?_, fun _ => ?_⟩
  · unfold pipeRead
    split_ifs
    · exact hle
    · exact hle
    · exact hle
    · exact (RingBuffer.count_popN _ _ _).trans_le ((Nat.sub_le _ _).trans hle)
    · exact (RingBuffer.count_popN _ _ _).trans_le ((Nat.sub_le _ _).trans hle)
  · unfold pipeRead
    dsimp only
    split_ifs
    · exact .inl rfl
    · exact .inl rfl
    · exact .inl rfl
    · exact .inr ⟨by omega, fun he => by cases he⟩
    · exact .inr ⟨by omega, fun he => by cases he⟩

lemma pipeWrite_transfer (size : ℕ) (buffer : ℕ → ℕ) (p : Pipe) :
    Transfer p (pipeWrite size buffer p).2 .read (pipeWrite size buffer p).1 := by
  have hcount : ∀ n, (p.toRingBuffer.pushAll pipeBufSize ((List.range n).map buffer)).count =
      p.count + n := by
    intro n
    rw [RingBuffer.count_pushAll, List.length_map, List.length_range]
  have hspace : p.count ≤ pipeBufSize → sub32 pipeBufSize p.count = pipeBufSize - p.count :=
    fun hle => sub32_of_le hle (by decide)
  refine ⟨pipeWrite_endOpen size buffer p, fun hle => ?_, fun hle => ?_⟩
  · unfold pipeWrite
    rw [hspace hle]
    dsimp only
    split_ifs
    · exact hle
    · exact hle
    · exact (hcount _).trans_le (by omega)
    · exact (hcount _).trans_le (by omega)
  · unfold pipeWrite
    rw [hspace hle]
    dsimp only
    split_ifs
    · exact .inl rfl
    · exact .inl rfl
    · exact .inr ⟨by omega, fun _ => by omega⟩
    · -- the whole space is filled, and there may be none
      rcases Nat.eq_or_lt_of_le hle with hfull | hlt
      · exact .inl ((hcount _).trans (by omega))
      · exact .inr ⟨by omega, fun _ => hlt⟩

lemma pipeRead_of_empty {p : Pipe} (h : p.count = 0) (size : ℕ) : pipeRead size p = (0, [], p) := by
  unfold pipeRead
  split_ifs
  · rfl
  · rfl
  · rfl

/-! ## Runs -/

/-- The calls that move bytes. -/
inductive PipeOp
  /-- `pipe_write` of `size` bytes of a buffer. -/
  | write (size : ℕ) (buffer : ℕ → ℕ)
  /-- `pipe_read` of up to `size` bytes. -/
  | read (size : ℕ)

/-- A pipe, and the bytes accepted and returned. -/
structure PipeRun where
  pipe : Pipe
  accepted : List ℕ
  returned : List ℕ

namespace PipeRun

/-- One call. Of a buffer as many bytes are accepted or returned as the call says. -/
def call (s : PipeRun) : PipeOp → PipeRun
  | .write size buffer =>
    let r := pipeWrite size buffer s.pipe
    { s with pipe := r.2, accepted := s.accepted ++ (List.range r.1.toNat).map buffer }
  | .read size =>
    let r := pipeRead size s.pipe
    { s with pipe := r.2.2, returned := s.returned ++ r.2.1.take r.1.toNat }

/-- A new pipe, through which nothing has gone. -/
def new : PipeRun := ⟨pipeAlloc, [], []⟩

/-- The calls one after the other. -/
def run (ops : List PipeOp) : PipeRun := ops.foldl call new

/-- The bytes in the pipe are those accepted and not yet returned. -/
structure Fifo (s : PipeRun) : Prop where
  wf : s.pipe.Wf
  opened : s.pipe.readEndOpen = true
  split : s.accepted = s.returned ++ s.pipe.bytes

lemma Fifo.new : Fifo new := ⟨pipeAlloc_wf, rfl, rfl⟩

lemma Fifo.call {s : PipeRun} (h : s.Fifo) (op : PipeOp) : (s.call op).Fifo := by
  cases op with
  | write size buffer =>
    obtain ⟨hwf, hres, hbytes, hread, -⟩ := pipeWrite_spec h.wf h.opened size buffer
    refine ⟨hwf, hread.trans h.opened, ?_⟩
    show s.accepted ++ (List.range (pipeWrite size buffer s.pipe).1.toNat).map buffer =
      s.returned ++ (pipeWrite size buffer s.pipe).2.bytes
    rw [hres, hbytes, h.split, Int.toNat_natCast, List.append_assoc]
  | read size =>
    obtain ⟨hwf, hres, hlen, hbytes, hread, -⟩ := pipeRead_spec h.wf size
    refine ⟨hwf, hread.trans h.opened, ?_⟩
    show s.accepted = (s.returned ++ (pipeRead size s.pipe).2.1.take
      (pipeRead size s.pipe).1.toNat) ++ (pipeRead size s.pipe).2.2.bytes
    simp [hres, ← hlen, h.split, hbytes]

lemma Fifo.foldl {s : PipeRun} (h : s.Fifo) (ops : List PipeOp) :
    (ops.foldl PipeRun.call s).Fifo := by
  induction ops generalizing s with
  | nil => exact h
  | cons op ops ih => exact ih (h.call op)

end PipeRun

/-- The bytes returned are the first of those accepted, all but `count`, over any calls. -/
theorem pipe_fifo (ops : List PipeOp) : (PipeRun.run ops).returned <+: (PipeRun.run ops).accepted ∧
      (PipeRun.run ops).accepted.length = (PipeRun.run ops).returned.length +
      (PipeRun.run ops).pipe.count ∧
      (PipeRun.run ops).pipe.count ≤ 4096 ∧ (PipeRun.run ops).pipe.writePos =
        ((PipeRun.run ops).pipe.readPos + (PipeRun.run ops).pipe.count) % 4096 := by
  obtain ⟨hwf, -, hsplit⟩ := PipeRun.Fifo.new.foldl ops
  refine ⟨⟨_, hsplit.symm⟩, ?_, hwf.count_le, hwf.writePos_eq⟩
  show (ops.foldl PipeRun.call PipeRun.new).accepted.length = _
  rw [hsplit, List.length_append, Pipe.length_bytes]
  rfl

end FrostByte
