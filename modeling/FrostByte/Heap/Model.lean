import FrostByte.Lib.Word

/-!
# The kernel heap allocator

`src/mm/heap.c`: a first-fit allocator over a doubly linked list of blocks, each a 16-byte header
(`size`, `free`, `next`, `prev`) followed by its payload. The heap grows a page at a time; a growth
that fails half way keeps the pages it has mapped.

## Main definitions

* `Heap`, `HeapBlock` — the memory of the heap, and a header in it.
* `PageSource` — where `expand_heap` gets its pages from.
* `kmalloc`, `kfree` — the two calls.
-/

namespace FrostByte

open Word

/-- `KERNEL_HEAP_START`. -/
abbrev kernelHeapStart : ℕ := 0xC0400000

/-- A block header, `heap_block_t`. -/
structure HeapBlock where
  size : ℕ
  free : ℕ
  next : ℕ
  prev : ℕ
  deriving DecidableEq, Repr

/-- Kernel memory by word address, and the globals of `heap.c`. -/
structure Heap where
  mem : ℕ → ℕ
  heapStart : ℕ
  heapEnd : ℕ
  totalAllocated : ℕ

/-- `grab va` maps a frame at `va`, and gives the words found there. -/
structure PageSource (σ : Type) where
  grab : ℕ → σ → Option (ℕ → ℕ) × σ

namespace Heap

/-- The header at an address. -/
def block (h : Heap) (b : ℕ) : HeapBlock :=
  ⟨h.mem b, h.mem (b + 4), h.mem (b + 8), h.mem (b + 12)⟩

/-- The heap with another header at an address. -/
def setBlock (h : Heap) (b : ℕ) (x : HeapBlock) : Heap :=
  { h with mem := Function.update (Function.update (Function.update (Function.update h.mem
      b x.size) (b + 4) x.free) (b + 8) x.next) (b + 12) x.prev }

/-- The words of a freshly mapped page at `va` replace the old ones. -/
def overlay (m : ℕ → ℕ) (va : ℕ) (page : ℕ → ℕ) : ℕ → ℕ :=
  fun a => if va ≤ a ∧ a < va + 4096 then page (a - va) else m a

end Heap

variable {σ : Type}

/-- `heap_init`: map the first page and make it one free block. -/
def heapInit (src : PageSource σ) (h : Heap) (s : σ) : Heap × σ :=
  match src.grab kernelHeapStart s with
  | (none, s) => (h, s)
  | (some page, s) =>
    let h := { h with
      mem := Heap.overlay h.mem kernelHeapStart page
      heapStart := kernelHeapStart }
    let h := h.setBlock kernelHeapStart ⟨4096 - 16, 1, 0, 0⟩
    ({ h with heapEnd := kernelHeapStart + 4096 }, s)

/-- The loop of `expand_heap`: map `n` pages, up to the first failure. -/
def expandPages (src : PageSource σ) : ℕ → Heap → σ → Bool × Heap × σ
  | 0, h, s => (true, h, s)
  | n + 1, h, s =>
    match src.grab h.heapEnd s with
    | (none, s) => (false, h, s)
    | (some page, s) =>
      expandPages src n { h with
        mem := Heap.overlay h.mem h.heapEnd page
        heapEnd := w32 (h.heapEnd + 4096) } s

/-- The page count of `expand_heap`. -/
def pagesNeeded (neededSize : ℕ) : ℕ := w32 (neededSize + 4095) / 4096

/-- `expand_heap`. -/
def expandHeap (src : PageSource σ) (neededSize : ℕ) (h : Heap) (s : σ) : Bool × Heap × σ :=
  expandPages src (pagesNeeded neededSize) h s

/-- More rounds than a list without a cycle has blocks. -/
def walkFuel : ℕ := 0x100000000

/-- The first free block of at least `size` bytes from `current` on, or `0`. -/
def findFree : ℕ → Heap → ℕ → ℕ → Option ℕ
  | 0, _, _, _ => none
  | fuel + 1, h, current, size =>
    if current = 0 then some 0
    else if (h.block current).free ≠ 0 ∧ size ≤ (h.block current).size then some current
    else findFree fuel h (h.block current).next size

/-- The walk to the last block. -/
def lastBlock : ℕ → Heap → ℕ → Option ℕ
  | 0, _, _ => none
  | fuel + 1, h, current =>
    if (h.block current).next = 0 then some current
    else lastBlock fuel h (h.block current).next

/-- `size = (size + 7) & ~7`. -/
def roundSize (size : ℕ) : ℕ := alignDown 8 (w32 (size + 7))

/-- The tail of a free block beyond `size` bytes becomes a block. -/
def splitBlock (h : Heap) (current size : ℕ) : Heap :=
  if w32 (w32 (size + 16) + 8) < (h.block current).size then
    let newBlock := w32 (current + 16 + size)
    let h := h.setBlock newBlock
      ⟨sub32 (sub32 (h.block current).size size) 16, 1, (h.block current).next, current⟩
    let next := (h.block current).next
    let h := if next ≠ 0 then h.setBlock next { h.block next with prev := newBlock } else h
    let h := h.setBlock current { h.block current with next := newBlock }
    h.setBlock current { h.block current with size := size }
  else h

/-- Hand out the block found, with the final range check. -/
def takeBlock (h : Heap) (current size : ℕ) : ℕ × Heap :=
  let h := splitBlock h current size
  let h := h.setBlock current { h.block current with free := 0 }
  let h := { h with totalAllocated := w32 (h.totalAllocated + (h.block current).size) }
  let retPtr := w32 (current + 16)
  if h.heapEnd < w32 (retPtr + size) then
    let h := h.setBlock current { h.block current with free := 1 }
    (0, { h with totalAllocated := sub32 h.totalAllocated (h.block current).size })
  else (retPtr, h)

/-- Link a new block at `oldEnd` behind the last one, with the final range check. -/
def appendBlock (h : Heap) (oldEnd size : ℕ) : Option (ℕ × Heap) :=
  let h := h.setBlock oldEnd { h.block oldEnd with size := size, free := 0, next := 0 }
  match lastBlock walkFuel h h.heapStart with
  | none => none
  | some current =>
    let h := h.setBlock current { h.block current with next := oldEnd }
    let h := h.setBlock oldEnd { h.block oldEnd with prev := current }
    let h := { h with totalAllocated := w32 (h.totalAllocated + size) }
    let retPtr := w32 (oldEnd + 16)
    if h.heapEnd < w32 (retPtr + size) then
      let h := h.setBlock oldEnd { h.block oldEnd with free := 1 }
      some (0, { h with totalAllocated := sub32 h.totalAllocated size })
    else some (retPtr, h)

/-- `kmalloc`: the pointer (`0` for `NULL`) and the new state. -/
def kmalloc (src : PageSource σ) (size : ℕ) (h : Heap) (s : σ) : Option (ℕ × Heap × σ) :=
  if size = 0 then some (0, h, s)
  else
    match findFree walkFuel h h.heapStart (roundSize size) with
    | none => none
    | some current =>
      if current ≠ 0 then
        some ((takeBlock h current (roundSize size)).1, (takeBlock h current (roundSize size)).2, s)
      else
        match expandHeap src (w32 (roundSize size + 16)) h s with
        | (false, h', s') => some (0, h', s')
        | (true, h', s') =>
          (appendBlock h' h.heapEnd (roundSize size)).map fun r => (r.1, r.2, s')

/-- The first merge of `kfree`: absorb the next block if it is free. -/
def mergeNext (h : Heap) (block : ℕ) : Heap :=
  let next := (h.block block).next
  if next ≠ 0 ∧ (h.block next).free ≠ 0 then
    let h := h.setBlock block
      { h.block block with size := w32 ((h.block block).size + (16 + (h.block next).size)) }
    let nextNext := (h.block next).next
    let h := if nextNext ≠ 0 then h.setBlock nextNext { h.block nextNext with prev := block } else h
    h.setBlock block { h.block block with next := nextNext }
  else h

/-- The second merge of `kfree`: the previous block absorbs this one. -/
def mergePrev (h : Heap) (block : ℕ) : Heap :=
  let prev := (h.block block).prev
  if prev ≠ 0 ∧ (h.block prev).free ≠ 0 then
    let h := h.setBlock prev
      { h.block prev with size := w32 ((h.block prev).size + (16 + (h.block block).size)) }
    let h := h.setBlock prev { h.block prev with next := (h.block block).next }
    let next := (h.block block).next
    if next ≠ 0 then h.setBlock next { h.block next with prev := (h.block block).prev } else h
  else h

/-- `kfree`: nothing checks that the pointer was given out. -/
def kfree (ptr : ℕ) (h : Heap) : Heap :=
  if ptr = 0 then h
  else
    let block := sub32 ptr 16
    let h := h.setBlock block { h.block block with free := 1 }
    let h := { h with totalAllocated := sub32 h.totalAllocated (h.block block).size }
    mergePrev (mergeNext h block) block

end FrostByte
