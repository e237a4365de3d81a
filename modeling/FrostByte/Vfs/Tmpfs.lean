import FrostByte.Lib.Buffer
import FrostByte.Lib.Run
import FrostByte.Lib.Word

/-!
# Files of the memory file system

A file of `tmpfs.c` has a buffer with a capacity that is made larger when a write does not fit. The
end of a write and the new capacity are computed in 32 bits, and the new buffer is not cleared.

## Main definitions

* `write`, `read` — `tmpfs_write` and `tmpfs_read`.
* `WriteSafe` — all bytes are stored inside the buffer.
* `ReadsBack` — a read delivers the last bytes that were written.

## Main results

* `writeSafe_iff` — when a write is safe.
* `readsBack_of_reach` — when reads deliver what was written.
* `write_wraps`, `read_gap` — a write and a read that go wrong.
-/

namespace FrostByte.Tmpfs

open Word

/-! ## The model -/

/-- `tmpfs_entry_t` of a file, the fields for its data. -/
structure Entry where
  data : Option Buffer
  size : ℕ
  capacity : ℕ

/-- A file that was just created. -/
def Entry.new : Entry := ⟨none, 0, 0⟩

/-- The arguments of a write, and the memory that `kmalloc` would give it. -/
structure Call where
  offset : ℕ
  size : ℕ
  buffer : Buffer
  kmalloc : ℕ → Option Buffer

/-- The end of a write, in 32 bits. -/
def Call.needed (c : Call) : ℕ := w32 (c.offset + c.size)

/-- The new capacity, cut to 32 bits. -/
def Call.newCap (c : Call) : ℕ := max (w32 (c.needed * 2)) 64

/-- What a write returns, the file, and the ranges stored to. -/
structure Outcome where
  result : ℤ
  entry : Entry
  stores : List (ℕ × ℕ)

/-- The file with a new buffer, to which the old data is copied. -/
def Entry.grow (e : Entry) (capacity : ℕ) (memory : Buffer) : Entry :=
  { e with data := some (e.data.elim memory fun old => memory.copy 0 old 0 e.size), capacity :=
    capacity }

/-- The copy into the buffer and the new size. -/
def Entry.store (e : Entry) (c : Call) : Entry :=
  { e with
    data := e.data.map fun data => data.copy c.offset c.buffer 0 c.size
    size := if e.size < c.needed then c.needed else e.size }

/-- `tmpfs_write` on a file; a buffer is given. -/
def write (e : Entry) (c : Call) : Outcome :=
  if c.size = 0 then ⟨-1, e, []⟩
  else if e.capacity < c.needed then
    (c.kmalloc c.newCap).elim ⟨-1, e, []⟩ fun memory =>
      ⟨int32 c.size, (e.grow c.newCap memory).store c,
        (if e.data.isSome then [(0, e.size)] else []) ++ [(c.offset, c.size)]⟩
  else ⟨int32 c.size, e.store c, [(c.offset, c.size)]⟩

/-- `tmpfs_read` on a file: the result and the buffer. -/
def read (e : Entry) (offset size : ℕ) (buffer : Buffer) : ℤ × Buffer :=
  if e.size ≤ offset then (0, buffer)
  else
    let toRead := min size (e.size - offset)
    (int32 toRead, e.data.elim buffer fun data => buffer.copy 0 data offset toRead)

/-! ## Writes inside the buffer -/

/-- Bytes are stored inside the buffer, and the write fails and changes nothing, or is complete. -/
structure WriteSafe (e : Entry) (c : Call) : Prop where
  inside : ∀ r ∈ (write e c).stores, r.1 + r.2 ≤ (write e c).entry.capacity
  size_le : (write e c).entry.size ≤ (write e c).entry.capacity
  effect : (write e c).result = -1 ∧ (write e c).entry = e ∨
    c.offset + c.size ≤ (write e c).entry.size

/-- Nothing is written, the end is below 2 GiB or in the buffer, or a new buffer is not found. -/
def Fits (e : Entry) (c : Call) : Prop :=
  c.size = 0 ∨ c.offset + c.size < 2 ^ 31 ∨ c.offset + c.size ≤ e.capacity ∨
    e.capacity < c.needed ∧ c.kmalloc c.newCap = none

/-- The writes to a file whose steps fit; arguments are 32-bit words. -/
def fitting : System Entry Call where
  init e := e = .new
  guard e c := c.offset < 2 ^ 32 ∧ c.size < 2 ^ 32 ∧ Fits e c
  step e c e' := e' = (write e c).entry

section

variable {e : Entry} {c : Call} {memory : Buffer}

lemma write_of_zero (h : c.size = 0) : write e c = ⟨-1, e, []⟩ := if_pos h

lemma write_of_le (h : c.size ≠ 0) (hcap : c.needed ≤ e.capacity) :
    write e c = ⟨int32 c.size, e.store c, [(c.offset, c.size)]⟩ := by
  rw [write, if_neg h, if_neg (Nat.not_lt.2 hcap)]

lemma write_of_none (hcap : e.capacity < c.needed) (hm : c.kmalloc c.newCap = none) :
    write e c = ⟨-1, e, []⟩ := by
  by_cases hzero : c.size = 0
  · exact write_of_zero hzero
  · rw [write, if_neg hzero, if_pos hcap, hm]
    rfl

lemma write_of_some (h : c.size ≠ 0) (hcap : e.capacity < c.needed)
    (hm : c.kmalloc c.newCap = some memory) :
    write e c = ⟨int32 c.size, (e.grow c.newCap memory).store c,
      (if e.data.isSome then [(0, e.size)] else []) ++ [(c.offset, c.size)]⟩ := by
  rw [write, if_neg h, if_pos hcap, hm]
  rfl

lemma WriteSafe.of_failed (hle : e.size ≤ e.capacity) (h : write e c = ⟨-1, e, []⟩) :
    WriteSafe e c := by
  refine ⟨fun r hr => ?_, ?_, .inl ?_⟩
  · rw [h] at hr
    exact nomatch hr
  · rwa [h]
  · rw [h]
    exact ⟨rfl, rfl⟩

lemma Entry.store_size (h : c.offset + c.size < 2 ^ 32) :
    (e.store c).size = max e.size (c.offset + c.size) := by
  have hneeded : c.needed = c.offset + c.size := w32_of_lt h
  unfold Entry.store
  dsimp only
  split_ifs <;> omega

lemma WriteSafe.of_room {r : ℤ} {e' : Entry} {stores : List (ℕ × ℕ)}
    (hw : write e c = ⟨r, e'.store c, stores⟩) (hstores : ∀ x ∈ stores, x.1 + x.2 ≤ e'.capacity)
    (hle : e'.size ≤ e'.capacity) (hroom : c.offset + c.size ≤ e'.capacity)
    (hend : c.offset + c.size < 2 ^ 32) : WriteSafe e c := by
  have hsize := e'.store_size hend
  refine ⟨?_, ?_, .inr ?_⟩
  · rw [hw]
    exact hstores
  · rw [hw]
    show (e'.store c).size ≤ e'.capacity
    omega
  · rw [hw]
    show _ ≤ (e'.store c).size
    omega

lemma WriteSafe.le_capacity (h : WriteSafe e c) {r : ℤ} {e' : Entry} {stores : List (ℕ × ℕ)}
    (hw : write e c = ⟨r, e', stores⟩) (hmem : (c.offset, c.size) ∈ stores) :
    c.offset + c.size ≤ e'.capacity := by
  have := h.inside (c.offset, c.size) (by rwa [hw])
  rwa [hw] at this

/-- **When one write is safe**, for a file with its sizes in order. -/
lemma writeSafe_iff_fits (hle : e.size ≤ e.capacity) (hcap : e.capacity < 2 ^ 32) :
    WriteSafe e c ↔ Fits e c := by
  by_cases hzero : c.size = 0
  · exact iff_of_true (.of_failed hle (write_of_zero hzero)) (.inl hzero)
  have hneeded : c.needed = w32 (c.offset + c.size) := rfl
  have hnew : c.newCap = max (w32 (c.needed * 2)) 64 := rfl
  unfold w32 at hneeded hnew
  rcases Nat.lt_or_ge e.capacity c.needed with hlt | hge
  · rcases hm : c.kmalloc c.newCap with _ | memory
    · exact iff_of_true (.of_failed hle (write_of_none hlt hm)) (.inr (.inr (.inr ⟨hlt, hm⟩)))
    · have hw := write_of_some hzero hlt hm
      constructor
      · -- a capacity that was computed with a wrap is too small
        intro h
        have hin : c.offset + c.size ≤ c.newCap := h.le_capacity hw (by simp)
        exact .inr (.inl (by omega))
      · rintro (h0 | hsmall | hfits | ⟨-, hnone⟩)
        · exact absurd h0 hzero
        · have hroom : c.offset + c.size ≤ c.newCap := by omega
          have hsize : e.size ≤ c.newCap := by omega
          refine .of_room hw (fun x hx => ?_) hsize hroom (by omega)
          rcases List.mem_append.1 hx with hx | hx
          · split_ifs at hx with hdata
            · rw [List.mem_singleton.1 hx, Nat.zero_add]
              exact hsize
            · exact nomatch hx
          · rw [List.mem_singleton.1 hx]
            exact hroom
        · omega
        · rw [hm] at hnone
          exact nomatch hnone
  · have hw := write_of_le hzero hge
    constructor
    · intro h
      have hin : c.offset + c.size ≤ (e.store c).capacity :=
        h.le_capacity hw (List.mem_singleton.2 rfl)
      exact .inr (.inr (.inl hin))
    · rintro (h0 | hsmall | hfits | ⟨hlt, -⟩)
      · exact absurd h0 hzero
      · refine .of_room hw (fun x hx => ?_) hle (by omega) (by omega)
        rw [List.mem_singleton.1 hx]
        omega
      · refine .of_room hw (fun x hx => ?_) hle hfits (by omega)
        rw [List.mem_singleton.1 hx]
        exact hfits
      · omega

lemma write_capacity_lt (hcap : e.capacity < 2 ^ 32) : (write e c).entry.capacity < 2 ^ 32 := by
  have hnew : c.newCap < 2 ^ 32 := max_lt (w32_lt _) (by decide)
  by_cases hzero : c.size = 0
  · rwa [write_of_zero hzero]
  rcases Nat.lt_or_ge e.capacity c.needed with hlt | hge
  · rcases hm : c.kmalloc c.newCap with _ | memory
    · rwa [write_of_none hlt hm]
    · rw [write_of_some hzero hlt hm]
      exact hnew
  · rw [write_of_le hzero hge]
    exact hcap

/-- **When a write is safe**, for every file that safe writes have made. -/
theorem writeSafe_iff (h : fitting.Reach e) (c : Call) : WriteSafe e c ↔ Fits e c := by
  obtain ⟨hle, hcap⟩ : e.size ≤ e.capacity ∧ e.capacity < 2 ^ 32 := by
    refine h.invariant (I := fun e => e.size ≤ e.capacity ∧ e.capacity < 2 ^ 32) ?_ ?_
    · rintro e rfl
      exact ⟨le_rfl, by decide⟩
    · rintro e c e' ⟨hle, hcap⟩ ⟨-, -, hfits⟩ rfl
      exact ⟨((writeSafe_iff_fits hle hcap).2 hfits).size_le, write_capacity_lt hcap⟩
  exact writeSafe_iff_fits hle hcap

end

/-- A write of `size` bytes, all the same, where `kmalloc` always finds memory. -/
def fill (offset size : ℕ) (byte : UInt8) : Call :=
  ⟨offset, size, fun _ => byte, fun _ => some fun _ => 0xFF⟩

/-- A write of one byte. -/
def byteAt (offset : ℕ) : Call := fill offset 1 7

/-- After two writes the buffer has 120 bytes. The third one ends behind it, and makes it grow. -/
theorem writeSafe_grown : ∃ e, fitting.Reach e ∧ e.size = 100 ∧ e.capacity = 120 ∧
    WriteSafe e (fill 150 300 3) := by
  have hfirst : fitting.guard .new (fill 0 60 1) := ⟨by decide, by decide, .inr (.inl (by decide))⟩
  have hsecond : fitting.guard (write .new (fill 0 60 1)).entry (fill 40 60 2) :=
    ⟨by decide, by decide, .inr (.inl (by decide))⟩
  have hreach := System.Reach.step (System.Reach.step (.init rfl) hfirst rfl) hsecond rfl
  exact ⟨_, hreach, by decide +kernel, by decide +kernel,
    (writeSafe_iff hreach (fill 150 300 3)).2 (.inr (.inl (by decide)))⟩

/-- **A write at 2 GiB gets a buffer of 64 bytes.** -/
theorem write_wraps : (write .new (byteAt 0x7FFFFFFF)).entry.capacity = 64 ∧
    (write .new (byteAt 0x7FFFFFFF)).stores = [(0x7FFFFFFF, 1)] ∧
    ¬ WriteSafe .new (byteAt 0x7FFFFFFF) := by
  have hcap : (write .new (byteAt 0x7FFFFFFF)).entry.capacity = 64 := by decide +kernel
  have hstores : (write .new (byteAt 0x7FFFFFFF)).stores = [(0x7FFFFFFF, 1)] := by decide +kernel
  refine ⟨hcap, hstores, fun h => ?_⟩
  have hin := h.inside (0x7FFFFFFF, 1) (by rw [hstores]; exact List.mem_singleton.2 rfl)
  exact absurd hin (by decide)

/-! ## Reading what was written -/

/-- The length of a file, and the byte written last at each position. -/
structure Contents where
  length : ℕ
  byte : ℕ → Option UInt8

/-- The contents after a write that succeeds. -/
def Contents.write (s : Contents) (c : Call) : Contents where
  length := max s.length (c.offset + c.size)
  byte p :=
    if c.offset ≤ p ∧ p < c.offset + c.size then some (c.buffer (p - c.offset)) else s.byte p

/-- Reads deliver the contents, with zeros where nothing was written. -/
def ReadsBack (e : Entry) (s : Contents) : Prop :=
  ∀ (offset size : ℕ) (buffer : Buffer), (read e offset size buffer).1 = min size
    (s.length - offset) ∧
    ∀ i < min size (s.length - offset),
    (read e offset size buffer).2 i = (s.byte (offset + i)).getD 0

/-- Writes below 1 MiB that leave no gap, with the contents that they make. -/
def gapless : System (Entry × Contents) Call where
  init s := s = (.new, ⟨0, fun _ => none⟩)
  guard s c := c.offset + c.size < 2 ^ 20 ∧ c.offset ≤ s.1.size
  step s c s' := s' = ((write s.1 c).entry, if (write s.1 c).result = -1 then s.2 else s.2.write c)

/-- The data of a file is its contents. -/
structure Holds (e : Entry) (s : Contents) : Prop where
  size_eq : e.size = s.length
  size_le : e.size ≤ e.capacity
  size_lt : e.size < 2 ^ 20
  data : 0 < e.capacity → e.data.isSome
  byte : ∀ p < e.size, ∃ data, e.data = some data ∧ s.byte p = some (data p)

section

variable {e : Entry} {s : Contents} {c : Call} {memory : Buffer}

lemma Holds.grow (h : Holds e s) {capacity : ℕ} (hcap : e.size ≤ capacity) :
    Holds (e.grow capacity memory) s := by
  refine ⟨h.size_eq, hcap, h.size_lt, fun _ => rfl, fun p hp => ?_⟩
  have hp : p < e.size := hp
  obtain ⟨data, hdata, hbyte⟩ := h.byte p hp
  refine ⟨_, rfl, ?_⟩
  rw [hdata, hbyte]
  show some (data p) = some (memory.copy 0 data 0 e.size p)
  rw [Buffer.copy_of_mem _ _ (Nat.zero_le _) (by omega)]
  simp

lemma Holds.store (h : Holds e s) (hend : c.offset + c.size < 2 ^ 20) (hgap : c.offset ≤ e.size)
    (hroom : c.offset + c.size ≤ e.capacity) (hzero : c.size ≠ 0) :
    Holds (e.store c) (s.write c) := by
  obtain ⟨data, hdata⟩ := Option.isSome_iff_exists.1 (h.data (by omega))
  have hsize := e.store_size (c := c) (by omega)
  have hlen := h.size_eq
  have hle := h.size_le
  have hlt := h.size_lt
  have hstore : (e.store c).data = some (data.copy c.offset c.buffer 0 c.size) := by
    show e.data.map _ = _
    rw [hdata]
    rfl
  refine ⟨?_, ?_, by omega, fun _ => by rw [hstore]; rfl, fun p hp => ⟨_, hstore, ?_⟩⟩
  · rw [hsize, hlen]
    rfl
  · show (e.store c).size ≤ e.capacity
    omega
  · unfold Contents.write
    dsimp only
    split_ifs with hin
    · rw [Buffer.copy_of_mem _ _ hin.1 hin.2, Nat.zero_add]
    · rw [Buffer.copy_of_notMem _ _ hin]
      obtain ⟨old, hold, hbyte⟩ := h.byte p (by omega)
      rw [hdata] at hold
      rw [hbyte, Option.some.inj hold]

/-- **A write without a gap** makes the contents that it should. -/
lemma Holds.write (h : Holds e s) (hend : c.offset + c.size < 2 ^ 20) (hgap : c.offset ≤ e.size) :
    Holds (Tmpfs.write e c).entry (if (Tmpfs.write e c).result = -1 then s else s.write c) := by
  by_cases hzero : c.size = 0
  · rw [write_of_zero hzero]
    exact h
  have hne : int32 c.size ≠ -1 := by
    rw [int32_of_lt (by omega)]
    omega
  have hneeded : c.needed = c.offset + c.size := w32_of_lt (by omega)
  rcases Nat.lt_or_ge e.capacity c.needed with hlt | hge
  · rcases hm : c.kmalloc c.newCap with _ | memory
    · rw [write_of_none hlt hm]
      exact h
    · have hnew : c.offset + c.size ≤ c.newCap := by
        unfold Call.newCap
        rw [w32_of_lt (by omega)]
        omega
      have hle := h.size_le
      rw [write_of_some hzero hlt hm]
      rw [if_neg hne]
      exact (h.grow (by omega)).store hend hgap hnew hzero
  · rw [write_of_le hzero hge]
    rw [if_neg hne]
    exact h.store hend hgap (hneeded ▸ hge) hzero

lemma Holds.readsBack (h : Holds e s) : ReadsBack e s := by
  intro offset size buffer
  have hsize := h.size_eq
  have hlt := h.size_lt
  unfold read
  split_ifs with heof
  · have hzero : s.length - offset = 0 := by omega
    simp [hzero]
  · dsimp only
    rw [hsize, int32_of_lt (by omega)]
    refine ⟨rfl, fun i hi => ?_⟩
    obtain ⟨data, hdata, hbyte⟩ := h.byte (offset + i) (by omega)
    rw [hdata, hbyte]
    show buffer.copy 0 data offset _ i = data (offset + i)
    rw [Buffer.copy_of_mem _ _ (Nat.zero_le _) (by omega), Nat.sub_zero]

/-- **Reads deliver what was written**, after any writes without a gap. -/
theorem readsBack_of_reach {x : Entry × Contents} (h : gapless.Reach x) : ReadsBack x.1 x.2 := by
  have hinv : Holds x.1 x.2 := by
    refine h.invariant (I := fun x => Holds x.1 x.2) ?_ ?_
    · rintro x rfl
      exact ⟨rfl, le_rfl, by decide, fun hpos => absurd hpos (by decide), fun p hp => nomatch hp⟩
    · rintro x c x' hx ⟨hend, hgap⟩ rfl
      exact hx.write hend hgap
  exact hinv.readsBack

end

/-- Sixty bytes are written, then sixty others from the middle of these on. -/
theorem readsBack_overlapping : ∃ x, gapless.Reach x ∧ ReadsBack x.1 x.2 ∧
    (List.range 10).map (fun i => (read x.1 25 10 fun _ => 0).2 i) =
    [1, 1, 1, 1, 1, 2, 2, 2, 2, 2] := by
  have hfirst : gapless.guard (.new, ⟨0, fun _ => none⟩) (fill 0 60 1) := ⟨by decide, by decide⟩
  have hsecond : gapless.guard ((write .new (fill 0 60 1)).entry,
      Contents.write ⟨0, fun _ => none⟩ (fill 0 60 1)) (fill 30 60 2) := ⟨by decide, by decide⟩
  have hreach := System.Reach.step (System.Reach.step (.init rfl) hfirst rfl) hsecond rfl
  exact ⟨_, hreach, readsBack_of_reach hreach, by decide +kernel⟩

/-- **A byte that was never written is what was in memory**, before a write at offset 1. -/
theorem read_gap : (write .new (byteAt 1)).result = 1 ∧
    (read (write .new (byteAt 1)).entry 0 1 fun _ => 0).1 = 1 ∧
    (read (write .new (byteAt 1)).entry 0 1 fun _ => 0).2 0 = 0xFF := by
  decide +kernel

end FrostByte.Tmpfs
