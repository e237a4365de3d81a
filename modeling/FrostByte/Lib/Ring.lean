import Mathlib.Data.List.Range
import Mathlib.Data.Nat.ModEq

/-!
# Ring buffers

A ring buffer keeps its cells in an array, with a position to read from, a position to write to and
a count. Read in order from the read position, the cells in use are a queue.

## Main definitions

* `RingBuffer` — the cells with the two positions.
* `RingBuffer.toList` — the queue that they stand for.

## Main results

* `RingBuffer.toList_push`, `RingBuffer.toList_pop` — one cell in or out.
* `RingBuffer.toList_pushAll`, `RingBuffer.popN_spec` — several cells.
-/

/-- An array used as a ring. -/
structure RingBuffer (α : Type*) where
  buffer : ℕ → α
  readPos : ℕ
  writePos : ℕ
  count : ℕ

namespace RingBuffer

variable {α : Type*} {cap : ℕ} {r : RingBuffer α}

/-- The positions are in range, and `count` apart. -/
structure Wf (cap : ℕ) (r : RingBuffer α) : Prop where
  readPos_lt : r.readPos < cap
  count_le : r.count ≤ cap
  writePos_eq : r.writePos = (r.readPos + r.count) % cap

/-- The cells in use, from the read position on. -/
def toList (cap : ℕ) (r : RingBuffer α) : List α :=
  (List.range r.count).map fun i => r.buffer ((r.readPos + i) % cap)

/-- One cell in, without looking for room. -/
def push (cap : ℕ) (r : RingBuffer α) (x : α) : RingBuffer α where
  buffer := Function.update r.buffer r.writePos x
  readPos := r.readPos
  writePos := (r.writePos + 1) % cap
  count := r.count + 1

/-- One cell out. -/
def pop (cap : ℕ) (r : RingBuffer α) : α × RingBuffer α :=
  (r.buffer r.readPos, { r with readPos := (r.readPos + 1) % cap, count := r.count - 1 })

/-- Several cells in. -/
def pushAll (cap : ℕ) : List α → RingBuffer α → RingBuffer α
  | [], r => r
  | x :: xs, r => pushAll cap xs (r.push cap x)

/-- Several cells out. -/
def popN (cap : ℕ) : ℕ → RingBuffer α → List α × RingBuffer α
  | 0, r => ([], r)
  | n + 1, r =>
    let rest := popN cap n (r.pop cap).2
    ((r.pop cap).1 :: rest.1, rest.2)

@[simp] lemma length_toList (cap : ℕ) (r : RingBuffer α) : (r.toList cap).length = r.count := by
  simp [toList]

lemma mod_ne {p i n : ℕ} (hin : i < n) (hn : n < cap) : (p + i) % cap ≠ (p + n) % cap := by
  intro h
  have hmod : i ≡ n [MOD cap] := Nat.ModEq.add_left_cancel' p h
  rw [Nat.ModEq, Nat.mod_eq_of_lt (hin.trans hn), Nat.mod_eq_of_lt hn] at hmod
  omega

/-! ## One cell -/

lemma Wf.push (h : r.Wf cap) (hlt : r.count < cap) (x : α) : (r.push cap x).Wf cap := by
  refine ⟨h.readPos_lt, hlt, ?_⟩
  show (r.writePos + 1) % cap = (r.readPos + (r.count + 1)) % cap
  rw [h.writePos_eq, Nat.mod_add_mod, Nat.add_assoc]

/-- A cell that goes in is the last of the queue. -/
lemma toList_push (h : r.Wf cap) (hlt : r.count < cap) (x : α) :
    (r.push cap x).toList cap = r.toList cap ++ [x] := by
  show (List.range (r.count + 1)).map (fun i =>
    Function.update r.buffer r.writePos x ((r.readPos + i) % cap)) = _
  rw [List.range_succ, List.map_append]
  congr 1
  · apply List.map_congr_left
    intro i hi
    apply Function.update_of_ne
    rw [h.writePos_eq]
    exact mod_ne (List.mem_range.mp hi) hlt
  · simp [h.writePos_eq]

lemma Wf.pop (h : r.Wf cap) (hpos : 0 < r.count) : (r.pop cap).2.Wf cap := by
  have hcap : 0 < cap := Nat.zero_lt_of_lt h.readPos_lt
  refine ⟨Nat.mod_lt _ hcap, (Nat.sub_le _ _).trans h.count_le, ?_⟩
  show r.writePos = ((r.readPos + 1) % cap + (r.count - 1)) % cap
  rw [h.writePos_eq, Nat.mod_add_mod]
  congr 1
  omega

/-- The cell that comes out was the first of the queue. -/
lemma toList_pop (h : r.Wf cap) (hpos : 0 < r.count) :
    r.toList cap = (r.pop cap).1 :: (r.pop cap).2.toList cap := by
  obtain ⟨n, hn⟩ : ∃ n, r.count = n + 1 := ⟨r.count - 1, by omega⟩
  show (List.range r.count).map _ =
    r.buffer r.readPos :: (List.range (r.count - 1)).map fun i =>
      r.buffer (((r.readPos + 1) % cap + i) % cap)
  rw [hn, List.range_succ_eq_map, List.map_cons, List.map_map, Nat.add_zero,
    Nat.mod_eq_of_lt h.readPos_lt]
  congr 1
  apply List.map_congr_left
  intro i _
  show r.buffer ((r.readPos + (i + 1)) % cap) = _
  rw [Nat.mod_add_mod, Nat.add_assoc, Nat.add_comm 1]

/-! ## Several cells -/

lemma count_pushAll (cap : ℕ) (xs : List α) (r : RingBuffer α) :
    (r.pushAll cap xs).count = r.count + xs.length := by
  induction xs generalizing r with
  | nil => rfl
  | cons x xs ih =>
    rw [pushAll, ih, List.length_cons]
    show r.count + 1 + xs.length = _
    omega

lemma count_popN (cap n : ℕ) (r : RingBuffer α) : (r.popN cap n).2.count = r.count - n := by
  induction n generalizing r with
  | zero => rfl
  | succ n ih =>
    show ((r.pop cap).2.popN cap n).2.count = _
    rw [ih]
    show r.count - 1 - n = _
    omega

/-- The cells that go in are the last of the queue, in their order. -/
lemma toList_pushAll (xs : List α) (h : r.Wf cap) (hle : r.count + xs.length ≤ cap) :
    (r.pushAll cap xs).Wf cap ∧ (r.pushAll cap xs).toList cap = r.toList cap ++ xs := by
  induction xs generalizing r with
  | nil => exact ⟨h, (List.append_nil _).symm⟩
  | cons x xs ih =>
    rw [List.length_cons] at hle
    have hcount : (r.push cap x).count = r.count + 1 := rfl
    obtain ⟨hwf, hlist⟩ := ih (h.push (by omega) x) (by omega)
    refine ⟨hwf, ?_⟩
    rw [pushAll, hlist, toList_push h (by omega), List.append_assoc]
    rfl

/-- The cells that come out were the first of the queue, in their order. -/
lemma popN_spec (n : ℕ) (h : r.Wf cap) (hle : n ≤ r.count) :
    (r.popN cap n).2.Wf cap ∧ (r.popN cap n).1.length = n ∧
      r.toList cap = (r.popN cap n).1 ++ (r.popN cap n).2.toList cap := by
  induction n generalizing r with
  | zero => exact ⟨h, rfl, rfl⟩
  | succ n ih =>
    have hpos : 0 < r.count := by omega
    have hcount : (r.pop cap).2.count = r.count - 1 := rfl
    obtain ⟨hwf, hlen, hlist⟩ := ih (h.pop hpos) (by omega)
    refine ⟨hwf, ?_, ?_⟩
    · show (_ :: _).length = _
      simp [hlen]
    · rw [toList_pop h hpos, hlist]
      rfl

end RingBuffer
