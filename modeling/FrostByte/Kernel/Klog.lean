import FrostByte.Lib.Buffer
import FrostByte.Lib.Word

/-!
# The kernel log

`src/kernel/klog.c`: the last 8192 bytes that were logged, in a ring. Byte `i` of everything that
was ever written is in cell `i % 8192`, until it is overwritten.

## Main definitions

* `klogWrite`, `klogCopy` — writing to the log and copying from it.
* `Holds` — the ring holds the last bytes of what was written.

## Main results

* `klogCopy_written` — a copy is a slice of the last 8192 bytes.
-/

namespace FrostByte.Klog

open Word

/-- The globals of `klog.c`, where `KLOG_CAP` is 8192. -/
structure Log where
  buf : Buffer
  head : ℕ
  total : ℕ
  inited : Bool

/-- `klog_init`, also called by the first write. -/
def klogInit (k : Log) : Log := { k with head := 0, total := 0, inited := true }

/-- `if (!g_inited) klog_init();` -/
def ready (k : Log) : Log := if k.inited then k else klogInit k

/-- One round of the loop of `klog_write`. -/
def put (k : Log) (x : UInt8) : Log where
  buf := Function.update k.buf k.head x
  head := (k.head + 1) % 8192
  total := if k.total < 8192 then k.total + 1 else 8192
  inited := k.inited

/-- `klog_write`, of no bytes for a null pointer. -/
def klogWrite (k : Log) (s : Option (List UInt8)) : Log :=
  (s.getD []).foldl put (ready k)

/-- The loop of `klog_copy`. -/
def copyLoop (buf : Buffer) (toCopy copied pos : ℕ) (dst : Buffer) : ℕ × Buffer :=
  if copied < toCopy then
    -- what is left, up to the end of the ring
    let chunk := min (toCopy - copied) (8192 - pos)
    if chunk = 0 then (copied, dst)
    else copyLoop buf toCopy (copied + chunk) ((pos + chunk) % 8192) (dst.copy copied buf pos chunk)
  else (copied, dst)
termination_by toCopy - copied

/-- `klog_copy`, to a destination that is not null. -/
def klogCopy (offset : ℕ) (dst : Buffer) (size : ℕ) (k : Log) : (ℕ × Buffer) × Log :=
  if size = 0 then ((0, dst), k)
  else if (ready k).total ≤ offset then ((0, dst), ready k)
  else
    let k := ready k
    let toCopy := if k.total < w32 (offset + size) then k.total - offset else size
    let start := (k.head + 8192 - k.total) % 8192
    (copyLoop k.buf toCopy 0 ((start + offset) % 8192) dst, k)

/-- The ring against everything written so far. -/
structure Holds (h : List UInt8) (k : Log) : Prop where
  head : k.head = h.length % 8192
  total : k.total = min 8192 h.length
  fresh : k.inited = false → h = []
  byte : ∀ i, h.length ≤ i + 8192 → ∀ x, h[i]? = some x → k.buf (i % 8192) = x

variable {h : List UInt8} {k : Log}

lemma Holds.put (hk : Holds h k) (hi : k.inited = true) (x : UInt8) :
    Holds (h ++ [x]) (put k x) := by
  have hhead := hk.head
  have htotal := hk.total
  refine ⟨?_, ?_, ?_, fun i hle y hy => ?_⟩
  · simp [Klog.put, hhead]
  · simp only [Klog.put, List.length_append, List.length_singleton]
    split_ifs
    · omega
    · omega
  · simp [Klog.put, hi]
  · simp only [List.length_append, List.length_singleton] at hle
    simp only [Klog.put, Function.update_apply]
    rcases Nat.lt_trichotomy i h.length with hlt | rfl | hgt
    · -- the cell of the new byte is another one
      rw [if_neg (by omega)]
      apply hk.byte i (by omega)
      rwa [List.getElem?_append_left hlt] at hy
    · simpa [hhead] using hy
    · simp [List.getElem?_eq_none (show (h ++ [x]).length ≤ i by simp; omega)] at hy

lemma Holds.puts (hk : Holds h k) (hi : k.inited = true) (s : List UInt8) :
    Holds (h ++ s) (s.foldl Klog.put k) := by
  induction s generalizing h k with
  | nil => simpa using hk
  | cons x s ih => simpa using ih (hk.put hi x) hi

lemma Holds.ready (hk : Holds h k) : Holds h (ready k) := by
  unfold Klog.ready
  split_ifs with hi
  · exact hk
  · obtain rfl := hk.fresh (by simpa using hi)
    exact ⟨rfl, rfl, fun _ => rfl, by simp⟩

lemma Holds.write (hk : Holds h k) (s : Option (List UInt8)) :
    Holds (h ++ s.getD []) (klogWrite k s) := by
  apply hk.ready.puts
  unfold Klog.ready
  split_ifs with hi
  · exact hi
  · rfl

/-- Everything that the calls write. -/
def written (calls : List (Option (List UInt8))) : List UInt8 := calls.flatMap (·.getD [])

lemma Holds.calls (hk : Holds h k) (calls : List (Option (List UInt8))) :
    Holds (h ++ written calls) (calls.foldl klogWrite k) := by
  induction calls generalizing h k with
  | nil => simpa [written] using hk
  | cons s calls ih => simpa [written] using ih (hk.write s)

/-- **The copy loop** reads the cells from `pos` on, around the end of the ring. -/
lemma copyLoop_spec (buf : Buffer) (toCopy copied pos : ℕ) (dst : Buffer) (hc : copied ≤ toCopy)
    (hpos : pos < 8192) : (copyLoop buf toCopy copied pos dst).1 = toCopy ∧
      ∀ i, (copyLoop buf toCopy copied pos dst).2 i =
        if copied ≤ i ∧ i < toCopy then buf ((pos + (i - copied)) % 8192) else dst i := by
  fun_induction copyLoop buf toCopy copied pos dst with
  | case1 copied pos dst hlt chunk hzero => omega
  | case2 copied pos dst hlt chunk hne ih =>
    obtain ⟨h1, h2⟩ := ih (by omega) (Nat.mod_lt _ (by decide))
    refine ⟨h1, fun i => ?_⟩
    simp only [h2, Buffer.copy, Nat.mod_add_mod]
    grind
  | case3 copied pos dst hge => exact ⟨by omega, fun i => (if_neg (by omega)).symm⟩

/-- **The log keeps the last bytes**: a copy is a slice of the last `8192` bytes written. -/
theorem klogCopy_written (buf : Buffer) (inited : Bool) (calls : List (Option (List UInt8)))
    (offset size : ℕ) (dst : Buffer) (hsize : offset + size < 2 ^ 32) :
    let kept := min 8192 (written calls).length
    let r := (klogCopy offset dst size (calls.foldl klogWrite ⟨buf, 0, 0, inited⟩)).1
    r.1 = min size (kept - offset) ∧ (List.range r.1).map r.2 =
      (((written calls).drop ((written calls).length - kept)).drop offset).take size := by
  have hstart : Holds [] ⟨buf, 0, 0, inited⟩ := ⟨rfl, rfl, fun _ => rfl, by simp⟩
  have hk := (hstart.calls calls).ready
  simp only [List.nil_append] at hk
  dsimp only
  unfold klogCopy
  generalize ready (calls.foldl klogWrite ⟨buf, 0, 0, inited⟩) = k at hk
  generalize written calls = h at hk
  obtain ⟨hhead, htotal, -, hbyte⟩ := hk
  by_cases h0 : size = 0
  · simp [h0]
  rw [if_neg h0]
  by_cases hoff : k.total ≤ offset
  · have hnil : ((h.drop (h.length - min 8192 h.length)).drop offset) = [] := by
      apply List.drop_eq_nil_of_le
      simp only [List.length_drop]
      omega
    simp only [if_pos hoff, hnil]
    exact ⟨by omega, by simp⟩
  · have hcopy : (if k.total < w32 (offset + size) then k.total - offset else size) =
        min size (k.total - offset) := by
      rw [w32_of_lt hsize]
      split_ifs <;> omega
    obtain ⟨hn, hbytes⟩ := copyLoop_spec k.buf (min size (k.total - offset)) 0
      (((k.head + 8192 - k.total) % 8192 + offset) % 8192) dst (Nat.zero_le _)
      (Nat.mod_lt _ (by decide))
    simp only [if_neg hoff, hcopy, hn]
    refine ⟨by rw [htotal], List.ext_getElem ?_ fun i h1 h2 => ?_⟩
    · simp only [List.length_map, List.length_range, List.length_take, List.length_drop]
      omega
    · simp only [List.length_map, List.length_range] at h1
      simp only [List.getElem_map, List.getElem_range, List.getElem_take, List.getElem_drop, hbytes]
      rw [if_pos ⟨Nat.zero_le _, h1⟩, ← hbyte _ ?_ _ (List.getElem?_eq_getElem _)]
      · congr 1
        omega
      · omega

/-- A copy from the second byte on. -/
theorem klogCopy_written_two : ∃ r : ℕ × Buffer, r = (klogCopy 1 (fun _ => 0) 5
      ([some [7, 8], none, some [9]].foldl klogWrite ⟨fun _ => 0, 0, 0, false⟩)).1 ∧
    r.1 = 2 ∧ (List.range 2).map r.2 = [8, 9] := by
  obtain ⟨h1, h2⟩ := klogCopy_written (fun _ => 0) false [some [7, 8], none, some [9]] 1 5
    (fun _ => 0) (by decide)
  rw [h1] at h2
  exact ⟨_, rfl, h1, h2⟩

end FrostByte.Klog
