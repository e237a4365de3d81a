import FrostByte.Lib.Run
import FrostByte.Lib.Word
import Mathlib.Data.Int.Order.Basic

/-!
# The allocator of user programs

`malloc`, `calloc`, `free` and `realloc` of the C library keep a list of blocks, each a header of 12
bytes with a payload behind it. Sums and products of sizes are 32-bit words, so that a large request
moves the break too little or down.

## Main definitions

* `malloc`, `calloc`, `free`, `realloc` — the calls of the library.
* `Tiles` — the blocks lie one behind the other.
* `AllocatesApart` — live memory is below the break and apart.

## Main results

* `Holds.step` — a call keeps the invariant.
* `allocatesApart_of_reach`, `tiles_of_reach` — the runs without large requests.
* `malloc_wraps` — a request of almost 4 GiB.
-/

namespace FrostByte.Malloc

open Word

/-! ## The model -/

/-- `block_t`; the blocks are listed in the order of their links. -/
structure Block where
  addr : ℤ
  size : ℕ
  free : Bool

/-- The end of a block. -/
def Block.stop (b : Block) : ℤ := b.addr + 12 + b.size

/-- The list from `head` on, the break, and the bytes of the payloads. -/
structure Heap where
  blocks : List Block
  brk : ℤ
  mem : ℤ → UInt8

/-- `sbrk`: the old break, if it does not fail. -/
def sbrk (increment : ℤ) (fails : Bool) (h : Heap) : Option ℤ × Heap :=
  if fails ∨ h.brk + increment < 0 ∨ 2 ^ 32 ≤ h.brk + increment then (none, h)
  else (some h.brk, { h with brk := h.brk + increment })

/-- `find_free_block`, with the block marked as used. -/
def findFreeBlock (size : ℕ) : List Block → Option (ℤ × List Block)
  | [] => none
  | b :: bs =>
    if b.free ∧ size ≤ b.size then some (b.addr, { b with free := false } :: bs)
    else (findFreeBlock size bs).map fun r => (r.1, b :: r.2)

/-- `request_space`, behind the last block. -/
def requestSpace (size : ℕ) (fails : Bool) (h : Heap) : Option ℤ × Heap :=
  match sbrk (int32 (w32 (size + 12))) fails h with
  | (none, h) => (none, h)
  | (some block, h) => (some block, { h with blocks := h.blocks ++ [⟨block, size, false⟩] })

/-- `malloc`: the first free block that is large enough, or a new one. -/
def malloc (size : ℕ) (fails : Bool) (h : Heap) : Option ℤ × Heap :=
  if size = 0 then (none, h)
  else
    match findFreeBlock size h.blocks with
    | some (block, blocks) => (some (block + 12), { h with blocks := blocks })
    | none =>
      let r := requestSpace size fails h
      (r.1.map (· + 12), r.2)

/-- `n` bytes from the address `p` on are stored. -/
def Heap.store (h : Heap) (p : ℤ) (n : ℕ) (byte : ℤ → UInt8) : Heap :=
  { h with mem := fun a => if p ≤ a ∧ a < p + n then byte (a - p) else h.mem a }

/-- `calloc`: the product is cut to 32 bits. -/
def calloc (nmemb size : ℕ) (fails : Bool) (h : Heap) : Option ℤ × Heap :=
  let total := w32 (nmemb * size)
  match malloc total fails h with
  | (some p, h) => (some p, h.store p total fun _ => 0)
  | (none, h) => (none, h)

/-- A block is freed, and merged with the next one if that is free. -/
def freeBlock (b : Block) : List Block → List Block
  | [] => [{ b with free := true }]
  | next :: rest =>
    if next.free then ⟨b.addr, w32 (b.size + 12 + next.size), true⟩ :: rest
    else { b with free := true } :: next :: rest

/-- The list after `free` of the block with this address. -/
def release (addr : ℤ) : List Block → List Block
  | [] => []
  | b :: bs => if b.addr = addr then freeBlock b bs else b :: release addr bs

/-- `free`. -/
def free (p : ℤ) (h : Heap) : Heap := { h with blocks := release (p - 12) h.blocks }

/-- `realloc`: a block that is large enough stays as it is. -/
def realloc (p : ℤ) (size : ℕ) (fails : Bool) (h : Heap) : Option ℤ × Heap :=
  if size = 0 then (none, free p h)
  else
    match h.blocks.find? fun b => b.addr = p - 12 with
    | none => (none, h)
    | some block =>
      if size ≤ block.size then (some p, h)
      else
        match malloc size fails h with
        | (none, h) => (none, h)
        | (some q, h) => (some q, free p (h.store q block.size fun i => h.mem (p + i)))

/-! ## Runs -/

/-- A pointer that is in use, and the size that was asked for. -/
structure Live where
  ptr : ℤ
  size : ℕ
  deriving DecidableEq

/-- The heap, and what the program may use. -/
structure Run where
  heap : Heap
  live : List Live

/-- The calls, and what the program does to the payloads between them. -/
inductive Op
  | malloc (size : ℕ) (fails : Bool)
  | calloc (nmemb size : ℕ) (fails : Bool)
  | free (p : ℤ)
  | realloc (p : ℤ) (size : ℕ) (fails : Bool)
  | write (mem : ℤ → UInt8)

/-- The pointers in use but one. -/
def without (p : ℤ) (live : List Live) : List Live := live.filter fun x => x.ptr ≠ p

/-- A pointer that a call has returned is in use. -/
def Run.grant (live : List Live) (size : ℕ) (r : Option ℤ × Heap) : Run :=
  ⟨r.2, r.1.elim live fun p => ⟨p, size⟩ :: live⟩

/-- The state after a call. -/
def Run.step (r : Run) : Op → Run
  | .malloc size fails => .grant r.live size (Malloc.malloc size fails r.heap)
  | .calloc nmemb size fails => .grant r.live (nmemb * size) (Malloc.calloc nmemb size fails r.heap)
  | .free p => ⟨Malloc.free p r.heap, without p r.live⟩
  | .realloc p size fails =>
    let x := Malloc.realloc p size fails r.heap
    ⟨x.2, if size = 0 then without p r.live
      else x.1.elim r.live fun q => ⟨q, size⟩ :: without p r.live⟩
  | .write mem => ⟨{ r.heap with mem := mem }, r.live⟩

/-- Pointers are freed while they are in use. -/
def Op.Enabled (r : Run) : Op → Prop
  | .free p | .realloc p _ _ => ∃ x ∈ r.live, x.ptr = p
  | _ => True

/-- The sizes for which nothing wraps. -/
def Op.Fits : Op → Prop
  | .malloc size _ | .realloc _ size _ => size < 2 ^ 31 - 12
  | .calloc nmemb size _ => nmemb * size < 2 ^ 31 - 12
  | _ => True

/-- The calls with pointers that are live. -/
def mallocRuns : System Run Op where
  init r := r.heap.blocks = [] ∧ r.live = [] ∧ 0 ≤ r.heap.brk ∧ r.heap.brk < 2 ^ 32
  guard r op := op.Enabled r
  step r op r' := r' = r.step op

/-- The same without sizes that wrap. -/
def fittingRuns : System Run Op := { mallocRuns with guard := fun r op => op.Enabled r ∧ op.Fits }

/-- The blocks from an address on up to another. -/
def Tiles : ℤ → List Block → ℤ → Prop
  | a, [], e => a = e
  | a, b :: bs, e => b.addr = a ∧ Tiles b.stop bs e

/-- What was asked for lies below the break, and no byte was given out twice. -/
def AllocatesApart (r : Run) : Prop :=
  (∀ x ∈ r.live, x.ptr + x.size ≤ r.heap.brk) ∧
    r.live.Pairwise fun x y => x.ptr + (x.size : ℤ) ≤ y.ptr ∨ y.ptr + (y.size : ℤ) ≤ x.ptr

/-! ## The list of blocks -/

variable {a e : ℤ} {bs : List Block} {b c : Block}

lemma Tiles.mem (h : Tiles a bs e) (hb : b ∈ bs) : a ≤ b.addr ∧ b.stop ≤ e := by
  have hle : ∀ {a bs}, Tiles a bs e → a ≤ e := by
    intro a bs h
    induction bs generalizing a with
    | nil => exact le_of_eq h
    | cons b bs ih =>
      have := ih h.2
      rw [Block.stop, h.1] at this
      omega
  induction bs generalizing a with
  | nil => cases hb
  | cons d bs ih =>
    rcases List.mem_cons.mp hb with rfl | hb
    · exact ⟨h.1.ge, hle h.2⟩
    · have := ih h.2 hb
      rw [Block.stop, h.1] at this
      exact ⟨by omega, this.2⟩

lemma Tiles.apart (h : Tiles a bs e) (hb : b ∈ bs) (hc : c ∈ bs) :
    b = c ∨ b.stop ≤ c.addr ∨ c.stop ≤ b.addr := by
  induction bs generalizing a with
  | nil => cases hb
  | cons d bs ih =>
    rcases List.mem_cons.mp hb with rfl | hb'
    · rcases List.mem_cons.mp hc with rfl | hc'
      · exact .inl rfl
      · exact .inr (.inl (h.2.mem hc').1)
    · rcases List.mem_cons.mp hc with rfl | hc'
      · exact .inr (.inr (h.2.mem hb').1)
      · exact ih h.2 hb' hc'

lemma Tiles.eq_of_addr (h : Tiles a bs e) (hb : b ∈ bs) (hc : c ∈ bs) (hbc : b.addr = c.addr) :
    b = c := by
  rcases h.apart hb hc with heq | hlt
  · exact heq
  · unfold Block.stop at hlt
    omega

lemma Tiles.append (h : Tiles a bs e) (hb : b.addr = e) : Tiles a (bs ++ [b]) b.stop := by
  induction bs generalizing a with
  | nil => exact ⟨hb.trans h.symm, rfl⟩
  | cons d bs ih => exact ⟨h.1, ih h.2⟩

lemma findFreeBlock_spec {size : ℕ} {block : ℤ} {bs' : List Block} (h : Tiles a bs e)
    (hfind : findFreeBlock size bs = some (block, bs')) : Tiles a bs' e ∧
      ∃ b ∈ bs, b.free = true ∧ b.addr = block ∧ size ≤ b.size ∧ { b with free := false } ∈ bs' ∧
        ∀ c ∈ bs, c.free = false → c ∈ bs' := by
  induction bs generalizing a bs' with
  | nil => cases hfind
  | cons d bs ih =>
    rw [findFreeBlock] at hfind
    split_ifs at hfind with hd
    · cases hfind
      refine ⟨h, d, (.head _), hd.1, rfl, hd.2, (.head _), fun c hc hfree => ?_⟩
      rcases List.mem_cons.mp hc with rfl | hc
      · rw [hd.1] at hfree
        cases hfree
      · exact .tail _ hc
    · obtain ⟨⟨block', rest⟩, hrest, hr⟩ := Option.map_eq_some_iff.mp hfind
      cases hr
      obtain ⟨htiles, b, hb, hfree, haddr, hsize, hmem, hkeep⟩ := ih h.2 hrest
      refine ⟨⟨h.1, htiles⟩, b, .tail _ hb, hfree, haddr, hsize, .tail _ hmem, fun c hc hused => ?_⟩
      rcases List.mem_cons.mp hc with rfl | hc
      · exact .head _
      · exact .tail _ (hkeep c hc hused)

lemma freeBlock_spec (h : Tiles a (b :: bs) e) (ha : 0 ≤ a) (he : e < 2 ^ 32) :
    Tiles a (freeBlock b bs) e ∧ ∀ c ∈ bs, c.free = false → c ∈ freeBlock b bs := by
  cases bs with
  | nil => exact ⟨h, nofun⟩
  | cons next rest =>
    obtain ⟨hb, hnext, hrest⟩ := h
    rw [freeBlock]
    split_ifs with hfree
    · have htail : Tiles b.stop (next :: rest) e := ⟨hnext, hrest⟩
      have hstop := (htail.mem (.head _)).2
      have hsum : w32 (b.size + 12 + next.size) = b.size + 12 + next.size := by
        unfold Block.stop at hstop hnext
        exact w32_of_lt (by omega)
      have hmerged : (⟨b.addr, w32 (b.size + 12 + next.size), true⟩ : Block).stop = next.stop := by
        rw [hsum]
        simp only [Block.stop] at hnext ⊢
        omega
      refine ⟨⟨hb, hmerged ▸ hrest⟩, fun c hc hused => ?_⟩
      rcases List.mem_cons.mp hc with rfl | hc
      · rw [hfree] at hused
        cases hused
      · exact .tail _ hc
    · exact ⟨⟨hb, hnext, hrest⟩, fun c hc _ => .tail _ hc⟩

lemma release_spec {addr : ℤ} (h : Tiles a bs e) (ha : 0 ≤ a) (he : e < 2 ^ 32) :
    Tiles a (release addr bs) e ∧ ∀ c ∈ bs, c.free = false → c.addr ≠ addr →
    c ∈ release addr bs := by
  induction bs generalizing a with
  | nil => exact ⟨h, nofun⟩
  | cons b bs ih =>
    rw [release]
    split_ifs with hb
    · obtain ⟨htiles, hkeep⟩ := freeBlock_spec h ha he
      refine ⟨htiles, fun c hc hused hne => ?_⟩
      rcases List.mem_cons.mp hc with rfl | hc
      · exact absurd hb hne
      · exact hkeep c hc hused
    · have hstart := h.1
      obtain ⟨htiles, hkeep⟩ := ih h.2 (by unfold Block.stop; omega)
      refine ⟨⟨hstart, htiles⟩, fun c hc hused hne => ?_⟩
      rcases List.mem_cons.mp hc with rfl | hc
      · exact .head _
      · exact .tail _ (hkeep c hc hused hne)

/-! ## The calls -/

/-- The blocks tile the heap, and the pointers in use have blocks of their own. -/
structure Holds (start : ℤ) (h : Heap) (live : List Live) : Prop where
  start_nonneg : 0 ≤ start
  brk_lt : h.brk < 2 ^ 32
  tiles : Tiles start h.blocks h.brk
  used : ∀ x ∈ live, ∃ b ∈ h.blocks, b.free = false ∧ b.addr + 12 = x.ptr ∧ x.size ≤ b.size
  nodup : live.Pairwise fun x y => x.ptr ≠ y.ptr

variable {start : ℤ} {h : Heap} {live : List Live}

lemma Holds.apart (hh : Holds start h live) :
    live.Pairwise fun x y => x.ptr + (x.size : ℤ) ≤ y.ptr ∨ y.ptr + (y.size : ℤ) ≤ x.ptr := by
  refine hh.nodup.imp_of_mem fun {x y} hx hy hne => ?_
  obtain ⟨b, hb, -, hbx, hbsize⟩ := hh.used x hx
  obtain ⟨c, hc, -, hcy, hcsize⟩ := hh.used y hy
  rcases hh.tiles.apart hb hc with rfl | hlt
  · exact absurd (hbx.symm.trans hcy) hne
  · unfold Block.stop at hlt
    omega

/-- **`malloc`** fails and changes nothing, or gives a new block. -/
lemma Holds.malloc (hh : Holds start h live) {size : ℕ} (hsize : size < 2 ^ 31 - 12)
    (fails : Bool) : malloc size fails h = (none, h) ∨ ∃ p h', malloc size fails h = (some p, h') ∧
      Holds start h' (⟨p, size⟩ :: live) ∧ h'.mem = h.mem := by
  have hlt := hh.brk_lt
  unfold Malloc.malloc
  split_ifs with hzero
  · exact .inl rfl
  cases hfind : findFreeBlock size h.blocks with
  | some r =>
    obtain ⟨block, blocks⟩ := r
    obtain ⟨htiles, b, hb, hfree, rfl, hle, hmem, hkeep⟩ := findFreeBlock_spec hh.tiles hfind
    refine .inr ⟨_, _, rfl, ⟨hh.start_nonneg, hlt, htiles, fun x hx => ?_, ?_⟩, rfl⟩
    · rcases List.mem_cons.mp hx with rfl | hx
      · exact ⟨_, hmem, rfl, rfl, hle⟩
      · obtain ⟨c, hc, hused, hcx⟩ := hh.used x hx
        exact ⟨c, hkeep c hc hused, hused, hcx⟩
    · refine List.pairwise_cons.mpr ⟨fun x hx hptr => ?_, hh.nodup⟩
      -- a block in use is not the free one that was taken
      obtain ⟨c, hc, hused, hcx, -⟩ := hh.used x hx
      have heq := hh.tiles.eq_of_addr hb hc (by simp only at hptr; omega)
      rw [← heq, hfree] at hused
      cases hused
  | none =>
    have hinc : int32 (w32 (size + 12)) = size + 12 := by
      rw [w32_of_lt (by omega), int32_of_lt (by omega)]
      rfl
    simp only [requestSpace, hinc, sbrk]
    split_ifs with hfail
    · exact .inl rfl
    have hstop : (⟨h.brk, size, false⟩ : Block).stop = h.brk + (size + 12) := by
      simp only [Block.stop]
      omega
    refine .inr ⟨_, _, rfl, ⟨hh.start_nonneg, by simp only; omega, ?_, fun x hx => ?_, ?_⟩, rfl⟩
    · simp only [← hstop]
      exact hh.tiles.append rfl
    · rcases List.mem_cons.mp hx with rfl | hx
      · exact ⟨_, List.mem_append_right _ (List.mem_singleton_self _), rfl, rfl, le_rfl⟩
      · obtain ⟨c, hc, hused⟩ := hh.used x hx
        exact ⟨c, List.mem_append_left _ hc, hused⟩
    · refine List.pairwise_cons.mpr ⟨fun x hx hptr => ?_, hh.nodup⟩
      obtain ⟨c, hc, -, hcx, -⟩ := hh.used x hx
      have hend := (hh.tiles.mem hc).2
      simp only [Block.stop] at hend hptr
      omega

lemma Holds.store (hh : Holds start h live) (mem : ℤ → UInt8) :
    Holds start { h with mem := mem } live :=
  ⟨hh.start_nonneg, hh.brk_lt, hh.tiles, hh.used, hh.nodup⟩

/-- **`free`** leaves the other pointers in use. -/
lemma Holds.free (hh : Holds start h live) (p : ℤ) : Holds start (free p h) (without p live) := by
  obtain ⟨htiles, hkeep⟩ := release_spec hh.tiles hh.start_nonneg hh.brk_lt
  refine ⟨hh.start_nonneg, hh.brk_lt, htiles, fun x hx => ?_, hh.nodup.filter _⟩
  obtain ⟨hx, hne⟩ := List.mem_filter.mp hx
  obtain ⟨b, hb, hused, hbx⟩ := hh.used x hx
  exact ⟨b, hkeep b hb hused (by have := of_decide_eq_true hne; omega), hused, hbx⟩

/-- **`realloc`** of a pointer in use, to a size that is not zero. -/
lemma Holds.realloc (hh : Holds start h live) {x : Live} (hx : x ∈ live) {size : ℕ}
    (hzero : size ≠ 0) (hsize : size < 2 ^ 31 - 12) (fails : Bool) :
    realloc x.ptr size fails h = (none, h) ∨ ∃ q h', realloc x.ptr size fails h = (some q, h') ∧
      Holds start h' (⟨q, size⟩ :: without x.ptr live) ∧
      (∀ i : ℕ, i < min x.size size → h'.mem (q + i) = h.mem (x.ptr + i)) ∧
      ∀ y ∈ live, y.ptr ≠ x.ptr → ∀ i : ℕ, i < y.size → h'.mem (y.ptr + i) = h.mem (y.ptr + i) := by
  obtain ⟨b, hb, hused, hbx, hbsize⟩ := hh.used x hx
  have hfind : h.blocks.find? (fun c => decide (c.addr = x.ptr - 12)) = some b := by
    cases hf : h.blocks.find? fun c => decide (c.addr = x.ptr - 12) with
    | none => exact absurd (List.find?_eq_none.mp hf b hb) (by simp; omega)
    | some c =>
      have hc : c.addr = x.ptr - 12 := by simpa using List.find?_some hf
      rw [hh.tiles.eq_of_addr hb (List.mem_of_find?_eq_some hf) (by omega)]
  unfold Malloc.realloc
  rw [if_neg hzero, hfind]
  dsimp only
  split_ifs with hfits
  · -- the block is large enough
    refine .inr ⟨_, _, rfl, ⟨hh.start_nonneg, hh.brk_lt, hh.tiles, fun y hy => ?_, ?_⟩,
      fun _ _ => rfl, fun _ _ _ _ _ => rfl⟩
    · rcases List.mem_cons.mp hy with rfl | hy
      · exact ⟨b, hb, hused, hbx, hfits⟩
      · exact hh.used y (List.mem_filter.mp hy).1
    · refine List.pairwise_cons.mpr ⟨fun y hy heq => ?_, hh.nodup.filter _⟩
      exact of_decide_eq_true (List.mem_filter.mp hy).2 heq.symm
  rcases hh.malloc hsize fails with hm | ⟨q, h', hm, hnew, hmem⟩
  · rw [hm]
    exact .inl rfl
  rw [hm]
  obtain ⟨hapart, -⟩ := List.pairwise_cons.mp hnew.apart
  obtain ⟨hother, -⟩ := List.pairwise_cons.mp hnew.nodup
  have hfreed : Holds start (Malloc.free x.ptr (h'.store q b.size fun i => h'.mem (x.ptr + i)))
      (⟨q, size⟩ :: without x.ptr live) := by
    have hall := (hnew.store (h'.store q b.size fun i => h'.mem (x.ptr + i)).mem).free x.ptr
    rwa [without, List.filter_cons_of_pos (by simpa using hother x hx)] at hall
  refine .inr ⟨_, _, rfl, hfreed, fun i hi => ?_, fun y hy _ i hi => ?_⟩
  · show (if q ≤ q + i ∧ q + i < q + b.size then h'.mem (x.ptr + (q + i - q)) else _) = _
    rw [if_pos (by omega), hmem, add_sub_cancel_left]
  · show (if q ≤ y.ptr + i ∧ y.ptr + i < q + b.size then _ else h'.mem (y.ptr + i)) = _
    have := hapart y hy
    rw [if_neg (by simp only at this; omega), hmem]

/-! ## Runs without large requests -/

/-- One call keeps the blocks in order and live memory apart, by cases on the call. -/
lemma Holds.step {r : Run} (hh : Holds start r.heap r.live) {op : Op} (he : op.Enabled r)
    (hf : op.Fits) : Holds start (r.step op).heap (r.step op).live := by
  cases op with
  | malloc size fails =>
    rcases hh.malloc hf fails with hm | ⟨p, h', hm, hnew, -⟩
    · rw [Run.step, hm]
      exact hh
    · rw [Run.step, hm]
      exact hnew
  | calloc nmemb size fails =>
    have hf : nmemb * size < 2 ^ 31 - 12 := hf
    have htotal : w32 (nmemb * size) = nmemb * size := w32_of_lt (by omega)
    rcases hh.malloc hf fails with hm | ⟨p, h', hm, hnew, -⟩
    · rw [Run.step, Malloc.calloc, htotal, hm]
      exact hh
    · rw [Run.step, Malloc.calloc, htotal, hm]
      exact hnew.store _
  | free p => exact hh.free p
  | realloc p size fails =>
    obtain ⟨x, hx, rfl⟩ := he
    by_cases hzero : size = 0
    · simp only [Run.step, Malloc.realloc, hzero, if_true]
      exact hh.free x.ptr
    rcases hh.realloc hx hzero hf fails with hr | ⟨q, h', hr, hnew, -⟩
    · simp only [Run.step, hr, if_neg hzero]
      exact hh
    · simp only [Run.step, hr, if_neg hzero]
      exact hnew
  | write mem => exact hh.store mem

lemma Holds.of_reach {r : Run} (h : fittingRuns.Reach r) : ∃ start, Holds start r.heap r.live := by
  refine h.invariant (I := fun r => ∃ start, Holds start r.heap r.live) ?_ ?_
  · rintro r ⟨hblocks, hlive, hnonneg, hlt⟩
    refine ⟨r.heap.brk, hnonneg, hlt, ?_, ?_, ?_⟩
    · rw [hblocks]
      exact rfl
    · rw [hlive]
      exact nofun
    · rw [hlive]
      exact .nil
  · rintro r op _ ⟨start, hh⟩ ⟨he, hf⟩ rfl
    exact ⟨start, hh.step he hf⟩

lemma Holds.allocatesApart {r : Run} (hh : Holds start r.heap r.live) : AllocatesApart r := by
  refine ⟨fun x hx => ?_, hh.apart⟩
  obtain ⟨b, hb, -, hbx, hsize⟩ := hh.used x hx
  have hstop := (hh.tiles.mem hb).2
  unfold Block.stop at hstop
  omega

/-- **Requests that are not too large** lie below the break, and no byte is given out twice, in
every run. -/
theorem allocatesApart_of_reach {r : Run} (h : fittingRuns.Reach r) : AllocatesApart r := by
  obtain ⟨start, hh⟩ := Holds.of_reach h
  exact hh.allocatesApart

/-- Nothing has been asked for, and the break is at 4096. -/
def Run.new : Run := ⟨⟨[], 4096, fun _ => 0⟩, []⟩

lemma Run.new_init : mallocRuns.init .new := ⟨rfl, rfl, by decide, by decide⟩

instance (r : Run) : (op : Op) → Decidable (op.Enabled r)
  | .free p | .realloc p _ _ => inferInstanceAs (Decidable (∃ x ∈ r.live, x.ptr = p))
  | .malloc .. | .calloc .. | .write _ => inferInstanceAs (Decidable True)

instance : (op : Op) → Decidable op.Fits
  | .malloc .. | .realloc .. | .calloc .. => inferInstanceAs (Decidable (_ < _))
  | .free _ | .write _ => inferInstanceAs (Decidable True)

instance (r : Run) (op : Op) : Decidable (fittingRuns.guard r op) :=
  inferInstanceAs (Decidable (op.Enabled r ∧ op.Fits))

/-- Three blocks are asked for, the first is freed, and the second grows and moves behind the
third. -/
def Run.moved : Run :=
  [.malloc 5 false, .malloc 7 false, .calloc 2 3 false, .free 4108, .realloc 4125 20 false].foldl
    Run.step .new

lemma Run.reach_moved : fittingRuns.Reach .moved :=
  System.Reach.foldl (M := fittingRuns) (fun _ _ => rfl) (.init Run.new_init) _ (by decide +kernel)

/-- Two blocks are left in use, the second request and the third. -/
theorem allocatesApart_moved : Run.moved.live = [⟨4162, 20⟩, ⟨4144, 6⟩] ∧ AllocatesApart .moved :=
  ⟨by decide +kernel, allocatesApart_of_reach Run.reach_moved⟩

/-- **A request of almost 4 GiB moves the break by four bytes.** -/
theorem malloc_wraps : ∃ r, mallocRuns.Reach r ∧ r.live = [⟨4108, 0xFFFFFFF8⟩] ∧ r.heap.brk = 4100 ∧
    ¬ AllocatesApart r := by
  have hlive : (Run.new.step (.malloc 0xFFFFFFF8 false)).live = [⟨4108, 0xFFFFFFF8⟩] := by
    decide +kernel
  have hbrk : (Run.new.step (.malloc 0xFFFFFFF8 false)).heap.brk = 4100 := by decide +kernel
  refine ⟨_, .step (.init Run.new_init) (a := .malloc 0xFFFFFFF8 false) trivial rfl, hlive, hbrk,
    ?_⟩
  intro h
  have hle := h.1 ⟨4108, 0xFFFFFFF8⟩ (by rw [hlive]; exact List.mem_singleton_self _)
  rw [hbrk] at hle
  cases hle

/-- **The blocks tile the heap** along every run of requests that are not too large, payloads are
apart, and `realloc` keeps bytes. -/
theorem tiles_of_reach {r : Run} (h : fittingRuns.Reach r) :
    (∃ start, Tiles start r.heap.blocks r.heap.brk) ∧ AllocatesApart r ∧
      ∀ x ∈ r.live, ∀ size < 2 ^ 31 - 12, size ≠ 0 → ∀ fails q h',
        realloc x.ptr size fails r.heap = (some q, h') →
        (∀ i : ℕ, i < min x.size size → h'.mem (q + i) = r.heap.mem (x.ptr + i)) ∧
        ∀ y ∈ r.live, y.ptr ≠ x.ptr → ∀ i :
    ℕ, i < y.size → h'.mem (y.ptr + i) = r.heap.mem (y.ptr + i) := by
  obtain ⟨start, hh⟩ := Holds.of_reach h
  refine ⟨⟨start, hh.tiles⟩, hh.allocatesApart, fun x hx size hsize hzero fails q h' hr => ?_⟩
  rcases hh.realloc hx hzero hsize fails with hnone | ⟨q', h'', hsome, -, hkeep⟩
  · rw [hnone] at hr
    cases hr
  · rw [hsome] at hr
    cases hr
    exact hkeep

/-- Two of the four blocks are free, and another `realloc` moves the six bytes of `calloc`. -/
theorem tiles_moved : Run.moved.heap.blocks.map (fun b => (b.addr, b.size, b.free)) =
      [(4096, 5, true), (4113, 7, true), (4132, 6, false), (4150, 20, false)] ∧
    (∃ start, Tiles start Run.moved.heap.blocks Run.moved.heap.brk) ∧
    ∃ q h', realloc 4144 30 false Run.moved.heap = (some q, h') ∧ q = 4194 ∧
      ∀ i : ℕ, i < 6 → h'.mem (q + i) = Run.moved.heap.mem (4144 + i) := by
  obtain ⟨htiles, -, hkeep⟩ := tiles_of_reach Run.reach_moved
  have hq : (realloc 4144 30 false Run.moved.heap).1 = some 4194 := by decide +kernel
  refine ⟨by decide +kernel, htiles, 4194, (realloc 4144 30 false Run.moved.heap).2,
    Prod.ext hq rfl, rfl, ?_⟩
  exact (hkeep ⟨4144, 6⟩ (by decide +kernel) 30 (by decide) (by decide) false _ _
    (Prod.ext hq rfl)).1

end FrostByte.Malloc
