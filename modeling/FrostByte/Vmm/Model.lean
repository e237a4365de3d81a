import FrostByte.Pmm.Basic

/-!
# The virtual memory manager

`src/mm/vmm.c`. Physical memory is an array of frames of 1024 words each; page directories and page
tables are frames like any other. A `page_directory_t` is a kernel virtual address; a null pointer
is `0`.

## Main definitions

* `Vm` — memory, the page allocator and the two directories.
* `vmmMapPage`, `vmmMapPageInDirectory` — mapping a page.
* `vmmUnmapPage`, `vmmGetPhysicalAddr` — unmapping and looking up.
* `vmmCreateDirectory`, `vmmDestroyDirectory`, `vmmInit` — directories.
-/

namespace FrostByte

open Word

/-! ## Entries and addresses -/

/-- `PAGE_PRESENT`. -/
def pagePresent : ℕ := 1
/-- `PAGE_WRITABLE`. -/
def pageWritable : ℕ := 2
/-- `PAGE_USER`. -/
def pageUser : ℕ := 4

/-- `e & PAGE_PRESENT`, for an entry of a page directory or page table. -/
def Present (e : ℕ) : Prop := e &&& pagePresent ≠ 0

instance (e : ℕ) : Decidable (Present e) := inferInstanceAs (Decidable (_ ≠ _))

/-- The frame of an entry, `(e & ~0xFFF)` as a frame number. -/
def entryFrame (e : ℕ) : ℕ := e / 4096

/-- `(physical_addr & ~0xFFF) | flags`. -/
def mkEntry (physicalAddr flags : ℕ) : ℕ := alignDown 4096 physicalAddr ||| flags

/-- The directory entry for a new page table. -/
def mkTableEntry (ptPhys flags : ℕ) : ℕ :=
  ptPhys ||| pagePresent ||| pageWritable ||| (flags &&& pageUser)

/-- `PAGE_DIRECTORY_INDEX`. -/
def pageDirectoryIndex (addr : ℕ) : ℕ := addr / 0x400000

/-- `PAGE_TABLE_INDEX`. -/
def pageTableIndex (addr : ℕ) : ℕ := addr / 4096 % 1024

/-- `KERNEL_VIRTUAL_BASE`. -/
def kernelVirtualBase : ℕ := 0xC0000000

/-- `PHYSICAL_TO_VIRTUAL`. -/
@[irreducible] def physicalToVirtual (addr : ℕ) : ℕ := w32 (addr + kernelVirtualBase)

/-- `VIRTUAL_TO_PHYSICAL`. -/
def virtualToPhysical (addr : ℕ) : ℕ := sub32 addr kernelVirtualBase

/-- The frame that a directory is in. -/
def dirFrame (directory : ℕ) : ℕ := virtualToPhysical directory / 4096

/-! ## The state -/

/-- The page allocator, physical memory by frame and word, and the two directory pointers. -/
structure Vm where
  pmm : Pmm
  mem : ℕ → ℕ → ℕ
  kernelDirectory : ℕ
  currentDirectory : ℕ

namespace Vm

/-- A word of a frame replaced. -/
def setWord (s : Vm) (f i w : ℕ) : Vm :=
  { s with mem := Function.update s.mem f (Function.update (s.mem f) i w) }

/-- `memset` of a frame. -/
def zeroFrame (s : Vm) (f : ℕ) : Vm := { s with mem := Function.update s.mem f fun _ => 0 }

/-- All words of a frame replaced. -/
def setFrame (s : Vm) (f : ℕ) (words : ℕ → ℕ) : Vm :=
  { s with mem := Function.update s.mem f words }

/-- `current_directory ? current_directory : kernel_directory`. -/
def active (s : Vm) : ℕ := if s.currentDirectory ≠ 0 then s.currentDirectory else s.kernelDirectory

/-- `map_pt_temp` reaches frame `pt`: it is below 8 MiB, or the scratch page at `0x7FE000` has a
table. The code goes to a low frame through the direct map; that the kernel heap maps other frames
from `0xC0400000` on is left out here. -/
def canMapPt (s : Vm) (pt : ℕ) : Bool :=
  pt < 0x800 || (s.active ≠ 0 && decide (Present (s.mem (dirFrame s.active) 1)))

/-- `vmm_map_temp_page` succeeds: the page at `0x7FD000` has a table. -/
def canMapTemp (s : Vm) : Bool :=
  s.active ≠ 0 && decide (Present (s.mem (dirFrame s.active) 1))

end Vm

/-! ## Mapping a page -/

/-- Install a missing page table: `reach` says whether it can be accessed, `drop` what happens
otherwise. -/
def newTable (reach : Vm → ℕ → Bool) (drop : ℕ → Pmm → Pmm) (dir pdIndex flags : ℕ) (s : Vm) :
    Bool × Vm :=
  let ptPhys := (pmmAllocPage s.pmm).1
  let s := { s with pmm := (pmmAllocPage s.pmm).2 }
  if ptPhys = 0 then (false, s)
  else
    let s := s.setWord dir pdIndex (mkTableEntry ptPhys flags)
    if reach s (ptPhys / 4096) then (true, s.zeroFrame (ptPhys / 4096))
    else (false, { s with pmm := drop ptPhys s.pmm })

/-- Writing the entry of the page. -/
def writeEntry (reach : Vm → ℕ → Bool) (dir virtualAddr physicalAddr flags : ℕ) (s : Vm) :
    Bool × Vm :=
  let pt := entryFrame (s.mem dir (pageDirectoryIndex virtualAddr))
  if reach s pt then
    (true, s.setWord pt (pageTableIndex virtualAddr) (mkEntry physicalAddr flags))
  else (false, s)

/-- The mapping functions, on the frame of a directory. -/
def mapPage (reach : Vm → ℕ → Bool) (drop : ℕ → Pmm → Pmm)
    (dir virtualAddr physicalAddr flags : ℕ) (s : Vm) : Bool × Vm :=
  if Present (s.mem dir (pageDirectoryIndex virtualAddr)) then
    writeEntry reach dir virtualAddr physicalAddr flags s
  else
    match newTable reach drop dir (pageDirectoryIndex virtualAddr) flags s with
    | (false, s) => (false, s)
    | (true, s) => writeEntry reach dir virtualAddr physicalAddr flags s

/-- `vmm_map_page_direct`, with physical addresses before paging is on. -/
def vmmMapPageDirect (dir virtualAddr physicalAddr flags : ℕ) (s : Vm) : Bool × Vm :=
  mapPage (fun _ _ => true) (fun _ m => m) dir virtualAddr physicalAddr flags s

/-- `vmm_map_page`, in the active directory. -/
def vmmMapPage (virtualAddr physicalAddr flags : ℕ) (s : Vm) : Bool × Vm :=
  mapPage Vm.canMapPt pmmFreePage (dirFrame s.active) virtualAddr physicalAddr flags s

/-- `vmm_map_page_in_directory`. -/
def vmmMapPageInDirectory (directory virtualAddr physicalAddr flags : ℕ) (s : Vm) : Bool × Vm :=
  if directory = 0 then (false, s)
  else mapPage Vm.canMapPt (fun _ m => m) (dirFrame directory) virtualAddr physicalAddr flags s

/-! ## Looking up and unmapping a page -/

/-- The walk of the lookup and the unmapping functions: the entry of a page if it is present. -/
def findEntry (dir virtualAddr : ℕ) (s : Vm) : Option ℕ :=
  let pde := s.mem dir (pageDirectoryIndex virtualAddr)
  if Present pde ∧ s.canMapPt (entryFrame pde) then
    let pte := s.mem (entryFrame pde) (pageTableIndex virtualAddr)
    if Present pte then some pte else none
  else none

/-- The unmapping functions: the entry found, and the state without it. -/
def clearEntry (dir virtualAddr : ℕ) (s : Vm) : Option ℕ × Vm :=
  match findEntry dir virtualAddr s with
  | none => (none, s)
  | some pte => (some pte, s.setWord (entryFrame (s.mem dir (pageDirectoryIndex virtualAddr)))
      (pageTableIndex virtualAddr) 0)

/-- `vmm_unmap_page_in_directory`; an empty table is kept. -/
def vmmUnmapPageInDirectory (directory virtualAddr : ℕ) (s : Vm) : Bool × Vm :=
  if directory = 0 then (false, s)
  else
    match clearEntry (dirFrame directory) virtualAddr s with
    | (none, s) => (false, s)
    | (some _, s) => (true, s)

/-- `vmm_unmap_page`: the page of the active directory, and its frame. -/
def vmmUnmapPage (virtualAddr : ℕ) (s : Vm) : Bool × Vm :=
  match clearEntry (dirFrame s.active) virtualAddr s with
  | (none, s) => (false, s)
  | (some pte, s) => (true, { s with pmm := pmmFreePage (alignDown 4096 pte) s.pmm })

/-- `vmm_get_physical_addr`: `0` when the page is not mapped. -/
def vmmGetPhysicalAddr (virtualAddr : ℕ) (s : Vm) : ℕ :=
  match findEntry (dirFrame s.active) virtualAddr s with
  | none => 0
  | some pte => alignDown 4096 pte + virtualAddr % 4096

/-! ## Directories -/

/-- Copy entries of `k` into `dir`: those for which `copy i` holds. -/
def copyEntries (copy : ℕ → Bool) (k dir : ℕ) (s : Vm) : Vm :=
  { s with mem := Function.update s.mem dir fun i => if copy i then s.mem k i else s.mem dir i }

/-- `vmm_create_directory`. The pointer returned is `0` on failure. -/
def vmmCreateDirectory (s : Vm) : ℕ × Vm :=
  let dirPhys := (pmmAllocPage s.pmm).1
  let s := { s with pmm := (pmmAllocPage s.pmm).2 }
  if dirPhys = 0 then (0, s)
  else
    let dirVirt := physicalToVirtual dirPhys
    -- the new directory is mapped into the kernel directory, whichever is current
    let saved := s.currentDirectory
    let r := vmmMapPage dirVirt dirPhys (pagePresent ||| pageWritable)
      { s with currentDirectory := s.kernelDirectory }
    let s := { r.2 with currentDirectory := saved }
    if r.1 then
      let k := dirFrame s.kernelDirectory
      let s := s.zeroFrame (dirFrame dirVirt)
      (dirVirt, copyEntries
        (fun i => (decide (768 ≤ i ∧ i < 1024) || decide (i < 2)) && decide (Present (s.mem k i)))
        k (dirFrame dirVirt) s)
    else (0, { s with pmm := pmmFreePage dirPhys s.pmm })

/-- `vmm_map_kernel_space`. -/
def vmmMapKernelSpace (directory : ℕ) (s : Vm) : Vm :=
  if directory = 0 ∨ s.kernelDirectory = 0 then s
  else copyEntries (fun i => decide (768 ≤ i ∧ i < 1024)) (dirFrame s.kernelDirectory)
    (dirFrame directory) s

/-- `vmm_switch_directory`. -/
def vmmSwitchDirectory (directory : ℕ) (s : Vm) : Vm :=
  if directory = 0 then s else { s with currentDirectory := directory }

/-- The inner loop of `vmm_destroy_directory`, from entry `j` on. -/
def freeTablePages (pt : ℕ) : ℕ → ℕ → Vm → Vm
  | 0, _, s => s
  | n + 1, j, s =>
    if Present (s.mem pt j) then
      freeTablePages pt n (j + 1)
        ({ s with pmm := pmmFreePage (alignDown 4096 (s.mem pt j)) s.pmm }.setWord pt j 0)
    else freeTablePages pt n (j + 1) s

/-- The outer loop of `vmm_destroy_directory`: entry `i`. -/
def destroyEntry (dir i : ℕ) (s : Vm) : Vm :=
  if ¬ Present (s.mem dir i) then s
  else if i < 2 ∧ s.kernelDirectory ≠ 0 ∧ s.mem dir i = s.mem (dirFrame s.kernelDirectory) i then s
  else
    let pt := entryFrame (s.mem dir i)
    let s := if s.canMapPt pt then freeTablePages pt 1024 0 s else s
    { s with pmm := pmmFreePage (pt * 4096) s.pmm }.setWord dir i 0

/-- The outer loop over the next `n` user entries. -/
def destroyEntries (dir : ℕ) : ℕ → ℕ → Vm → Vm
  | 0, _, s => s
  | n + 1, i, s => destroyEntries dir n (i + 1) (destroyEntry dir i s)

/-- `vmm_destroy_directory`, for every directory but the kernel's. -/
def vmmDestroyDirectory (directory : ℕ) (s : Vm) : Vm :=
  if directory = 0 ∨ directory = s.kernelDirectory then s
  else
    let s := destroyEntries (dirFrame directory) 768 0 s
    { s with pmm := pmmFreePage (virtualToPhysical directory) s.pmm }

/-! ## Initialisation -/

/-- The mapping loops of `vmm_init`: `n` pages from `addr` on. -/
def mapRangeDirect (dir base : ℕ) : ℕ → ℕ → Vm → Bool × Vm
  | 0, _, s => (true, s)
  | n + 1, addr, s =>
    match vmmMapPageDirect dir (base + addr) addr (pagePresent ||| pageWritable) s with
    | (false, s) => (false, s)
    | (true, s) => mapRangeDirect dir base n (addr + 4096) s

/-- `vmm_init`: 8 MiB in place and 128 MiB at `KERNEL_VIRTUAL_BASE`. -/
def vmmInit (s : Vm) : Vm :=
  let kernelDirPhys := (pmmAllocPage s.pmm).1
  let s := { s with pmm := (pmmAllocPage s.pmm).2 }
  if kernelDirPhys = 0 then s
  else
    let dir := kernelDirPhys / 4096
    match mapRangeDirect dir 0 0x800 0 (s.zeroFrame dir) with
    | (false, s) => s
    | (true, s) =>
      match mapRangeDirect dir kernelVirtualBase 0x8000 0 s with
      | (false, s) => s
      | (true, s) => { s with
          kernelDirectory := physicalToVirtual kernelDirPhys
          currentDirectory := physicalToVirtual kernelDirPhys }

end FrostByte
