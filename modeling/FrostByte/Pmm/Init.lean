import FrostByte.Pmm.Basic

/-!
# Initialising the page allocator from the Multiboot information

`pmm_init_multiboot` of `src/mm/pmm.c`. The memory map is walked twice, once for the highest address
and once to free the pages of the available regions. The low 1 MiB, the kernel image and the modules
go into an array of 32 reserved ranges.

## Main definitions

* `BootInfo`, `MmapEntry` — what the boot loader hands over.
* `pmmInitMultiboot` — `pmm_init_multiboot`.
* `Freed` — the pages that a loop has freed, and the count.

## Main results

* `pmmInitMultiboot_spec` — which pages the loops free.
-/

namespace FrostByte

open Word

/-- A region of the memory map. -/
structure MmapEntry where
  size : BitVec 32
  addr : BitVec 64
  len : BitVec 64
  type : BitVec 32
  deriving DecidableEq

/-- The fields of a Multiboot module record that are read. -/
structure BootModule where
  modStart : BitVec 32
  modEnd : BitVec 32
  deriving DecidableEq

/-- The fields of `struct multiboot_info` that are read. -/
structure MultibootInfo where
  flags : BitVec 32
  memLower : BitVec 32
  memUpper : BitVec 32
  modsCount : BitVec 32
  modsAddr : BitVec 32
  mmapLength : BitVec 32
  mmapAddr : BitVec 32

/-- `MULTIBOOT_MEMORY_AVAILABLE`. -/
def multibootMemoryAvailable : BitVec 32 := 1

/-- `MBI_FLAG_MEM`, `MBI_FLAG_MODS` and `MBI_FLAG_MMAP`. -/
def mbiFlagMem : BitVec 32 := 1
@[inherit_doc mbiFlagMem]
def mbiFlagMods : BitVec 32 := 8
@[inherit_doc mbiFlagMem]
def mbiFlagMmap : BitVec 32 := 64

/-- The argument `mbi` and the records found in memory. -/
structure BootInfo where
  mbi : Option MultibootInfo
  entryAt : BitVec 32 → MmapEntry
  moduleAt : BitVec 32 → BootModule

/-- The walk over the memory map from `cur` to `stop`. -/
def walkMmap (entryAt : BitVec 32 → MmapEntry) (stop : BitVec 32) :
    ℕ → BitVec 32 → Option (List MmapEntry)
  | 0, _ => none
  | fuel + 1, cur =>
    if cur < stop then
      (walkMmap entryAt stop fuel (cur + ((entryAt cur).size + 4))).map (entryAt cur :: ·)
    else some []

/-- The records of the memory map. A walk of more than `2 ^ 32` does not end. -/
def BootInfo.mmap (boot : BootInfo) (i : MultibootInfo) : Option (List MmapEntry) :=
  walkMmap boot.entryAt (i.mmapAddr + i.mmapLength) 0x100000001 i.mmapAddr

/-- The modules, each a record of 16 bytes. -/
def BootInfo.modules (boot : BootInfo) (i : MultibootInfo) : List BootModule :=
  if i.flags &&& mbiFlagMods ≠ 0 ∧ i.modsCount ≠ 0 ∧ i.modsAddr ≠ 0 then
    (List.range i.modsCount.toNat).map fun k =>
      boot.moduleAt (i.modsAddr + BitVec.ofNat 32 (k * 16))
  else []

/-- The end of a region, with the wrap of the 64-bit sum. -/
def MmapEntry.endAddr (e : MmapEntry) : ℕ := (e.addr + e.len).toNat

/-- The highest end of a region, at most `2 ^ 32`. -/
def mmapMaxEnd (es : List MmapEntry) : ℕ :=
  min (es.foldl (fun m e => if m < e.endAddr then e.endAddr else m) 0) (bitmapPages * 4096)

/-- `max_end` after its clamp; without a memory map it comes from the sizes, or is the largest. -/
def pmmMaxEnd (mbi : Option MultibootInfo) (es : List MmapEntry) : ℕ :=
  match mbi with
  | some i =>
    if i.flags &&& mbiFlagMmap ≠ 0 then mmapMaxEnd es
    else if i.flags &&& mbiFlagMem ≠ 0 then
      min ((i.memLower.toNat + i.memUpper.toNat) * 1024) (bitmapPages * 4096)
    else bitmapPages * 4096
  | none => bitmapPages * 4096

/-- The ranges to reserve: low memory, the kernel image and the modules. -/
def BootInfo.ranges (boot : BootInfo) (kernelStart kernelEnd : BitVec 32) : List (ℕ × ℕ) :=
  (0, 0x100000) :: (kernelStart.toNat, kernelEnd.toNat) ::
    match boot.mbi with
    | some i => (boot.modules i).map fun m => (m.modStart.toNat, m.modEnd.toNat)
    | none => []

/-- The array `reserved`: the first 32 ranges, rounded to pages. -/
def BootInfo.reserved (boot : BootInfo) (kernelStart kernelEnd : BitVec 32) : List (ℕ × ℕ) :=
  ((boot.ranges kernelStart kernelEnd).take 32).map fun r => (alignDown 4096 r.1, alignUp 4096 r.2)

/-- `range_overlaps`. -/
def rangeOverlaps (aStart aEnd bStart bEnd : ℕ) : Bool := !(aEnd ≤ bStart || bEnd ≤ aStart)

/-- The body of the freeing loop for the page at `addr`. -/
def freeUnreserved (reserved : List (ℕ × ℕ)) (addr : ℕ) (m : Pmm) : Pmm :=
  if reserved.any fun r => rangeOverlaps addr (w32 (addr + 4096)) r.1 r.2 then m
  else pmmFreePage addr m

/-- The freeing loop from `rstart` to `rend`. -/
def freeRange (reserved : List (ℕ × ℕ)) (rend : ℕ) : ℕ → ℕ → Pmm → Pmm
  | 0, _, m => m
  | fuel + 1, addr, m =>
    if addr < rend then
      freeRange reserved rend fuel (w32 (addr + 4096)) (freeUnreserved reserved addr m)
    else m

/-- `rstart`: the start of a region, rounded up and cut to 32 bits. -/
def MmapEntry.rstart (e : MmapEntry) : ℕ :=
  w32 (alignDown 4096 ((e.addr.toNat + 4095) % 0x10000000000000000))

/-- `rend`: the end of a region, at most `max_end`, rounded down and cut to 32 bits. -/
def MmapEntry.rend (e : MmapEntry) (maxEnd : ℕ) : ℕ :=
  w32 (alignDown 4096 (if maxEnd < e.endAddr then maxEnd else e.endAddr))

/-- A record of a nonempty available region. -/
def MmapEntry.Available (e : MmapEntry) : Prop := e.type = multibootMemoryAvailable ∧ e.len ≠ 0

instance (e : MmapEntry) : Decidable e.Available := inferInstanceAs (Decidable (_ ∧ _))

/-- The body of the second walk. -/
def freeEntry (reserved : List (ℕ × ℕ)) (maxEnd : ℕ) (m : Pmm) (e : MmapEntry) : Pmm :=
  if e.Available then freeRange reserved (e.rend maxEnd) bitmapPages e.rstart m else m

/-- `pmm_init_multiboot`; `none` when the walk through the map does not end. -/
def pmmInitMultiboot (boot : BootInfo) (kernelStart kernelEnd : BitVec 32) : Option Pmm :=
  let start (es : List MmapEntry) : Pmm :=
    ⟨Bitmap.full, pmmMaxEnd boot.mbi es / 4096, pmmMaxEnd boot.mbi es / 4096⟩
  match boot.mbi with
  | some i =>
    if i.flags &&& mbiFlagMmap ≠ 0 then
      (boot.mmap i).map fun es => es.foldl
        (freeEntry (boot.reserved kernelStart kernelEnd) (pmmMaxEnd boot.mbi es)) (start es)
    else some (start [])
  | none => some (start [])

/-! ## The freeing loops -/

/-- The page `p` overlaps a reserved range. -/
def Reserves (reserved : List (ℕ × ℕ)) (p : ℕ) : Prop :=
  ∃ r ∈ reserved, r.1 < p * 4096 + 4096 ∧ p * 4096 < r.2

lemma any_rangeOverlaps {reserved : List (ℕ × ℕ)} {p : ℕ} (hp : p * 4096 + 4096 < 0x100000000) :
    (reserved.any fun r => rangeOverlaps (p * 4096) (w32 (p * 4096 + 4096)) r.1 r.2) = true ↔
      Reserves reserved p := by
  rw [w32_of_lt hp]
  simp [Reserves, rangeOverlaps]

/-- The counter of used pages is right and has not wrapped. -/
structure Pmm.Counted (m : Pmm) : Prop where
  total : m.totalPages ≤ bitmapPages
  used : m.usedPages = m.countUsed

lemma Pmm.countUsed_le (m : Pmm) : m.countUsed ≤ m.totalPages := by
  refine (Finset.card_filter_le _ _).trans ?_
  simp

lemma Pmm.Counted.free {m : Pmm} (hc : m.Counted) (addr : ℕ) : (pmmFreePage addr m).Counted := by
  refine ⟨by rw [pmmFreePage_totalPages]; exact hc.total, ?_⟩
  unfold pmmFreePage
  by_cases hr : addr / 4096 < m.totalPages ∧ addr / 4096 < bitmapPages
  · simp only [if_pos hr]
    by_cases ht : m.bitmap.test (addr / 4096) = true
    · simp only [if_pos ht]
      have hcard := card_filter_clear hr.1 ht
      have hle := m.countUsed_le
      have hu := hc.used
      have htot := hc.total
      simp only [Pmm.countUsed] at hu hle ⊢
      unfold bitmapPages at htot
      rw [sub32_of_le (by omega) (by omega)]
      omega
    · simpa [if_neg ht] using hc.used
  · simpa [if_neg hr] using hc.used

/-- The freeing loops free the pages in `S`, and the counter stays right. -/
structure Freed (m m' : Pmm) (S : ℕ → Prop) : Prop where
  total : m'.totalPages = m.totalPages
  counted : m.Counted → m'.Counted
  free : ∀ q, m'.Free q ↔ m.Free q ∨ (S q ∧ q < m.totalPages ∧ q < bitmapPages)

lemma Freed.refl (m : Pmm) {S : ℕ → Prop} (hS : ∀ q, ¬ S q) : Freed m m S :=
  ⟨rfl, id, fun q => by simp [hS q]⟩

lemma Freed.trans {m m' m'' : Pmm} {S T U : ℕ → Prop} (h1 : Freed m m' S) (h2 : Freed m' m'' T)
    (hU : ∀ q, U q ↔ S q ∨ T q) : Freed m m'' U := by
  refine ⟨h2.total.trans h1.total, fun hc => h2.counted (h1.counted hc), fun q => ?_⟩
  rw [h2.free q, h1.free q, h1.total, hU q]
  tauto

lemma freed_freeUnreserved (reserved : List (ℕ × ℕ)) {p : ℕ} (hp : p * 4096 + 4096 < 0x100000000)
    (m : Pmm) :
    Freed m (freeUnreserved reserved (p * 4096) m) fun q => q = p ∧ ¬ Reserves reserved q := by
  unfold freeUnreserved
  by_cases hr : Reserves reserved p
  · rw [if_pos ((any_rangeOverlaps hp).mpr hr)]
    refine Freed.refl m ?_
    rintro q ⟨rfl, hq⟩
    exact hq hr
  · rw [if_neg fun h => hr ((any_rangeOverlaps hp).mp h)]
    refine ⟨pmmFreePage_totalPages _ _, fun hc => hc.free _, fun q => ?_⟩
    rw [pmmFreePage_free_iff, Nat.mul_div_cancel _ (by decide)]
    constructor
    · rintro (h | ⟨rfl, h⟩)
      · exact .inl h
      · exact .inr ⟨⟨rfl, hr⟩, h⟩
    · rintro (h | ⟨⟨rfl, -⟩, h⟩)
      · exact .inl h
      · exact .inr ⟨rfl, h⟩

/-- **The freeing loop** frees the unreserved pages between its bounds. -/
lemma freed_freeRange (reserved : List (ℕ × ℕ)) {e : ℕ} (he : e * 4096 < 0x100000000) :
    ∀ (fuel p : ℕ) (m : Pmm), e ≤ p + fuel →
    Freed m (freeRange reserved (e * 4096) fuel (p * 4096) m)
        fun q => p ≤ q ∧ q < e ∧ ¬ Reserves reserved q
  | 0, p, m, hf => Freed.refl m fun q hq => by omega
  | fuel + 1, p, m, hf => by
    rw [freeRange]
    by_cases hlt : p * 4096 < e * 4096
    · have hpe : p < e := Nat.lt_of_mul_lt_mul_right hlt
      have hnext : p * 4096 + 4096 < 0x100000000 := by
        rw [← Nat.succ_mul]
        exact lt_of_le_of_lt (Nat.mul_le_mul_right _ hpe) he
      rw [if_pos hlt, w32_of_lt hnext, ← Nat.succ_mul]
      have h1 := freed_freeUnreserved reserved hnext m
      have h2 := freed_freeRange reserved he fuel (p + 1)
        (freeUnreserved reserved (p * 4096) m) (by omega)
      refine h1.trans h2 fun q => ?_
      constructor
      · rintro ⟨hpq, hqe, hq⟩
        rcases Nat.eq_or_lt_of_le hpq with rfl | hpq
        · exact .inl ⟨rfl, hq⟩
        · exact .inr ⟨hpq, hqe, hq⟩
      · rintro (⟨rfl, hq⟩ | ⟨hpq, hqe, hq⟩)
        · exact ⟨le_rfl, by omega, hq⟩
        · exact ⟨by omega, hqe, hq⟩
    · rw [if_neg hlt]
      exact Freed.refl m fun q hq => by omega

/-- The pages between the truncated bounds of a record. -/
def MmapEntry.Visits (e : MmapEntry) (maxEnd q : ℕ) : Prop :=
  e.Available ∧ e.rstart ≤ q * 4096 ∧ q * 4096 < e.rend maxEnd

lemma w32_alignDown (x : ℕ) : ∃ p, w32 (alignDown 4096 x) = p * 4096 ∧ p < 0x100000 := by
  refine ⟨x / 4096 % 0x100000, ?_, Nat.mod_lt _ (by decide)⟩
  unfold w32 alignDown
  omega

lemma freed_freeEntry (reserved : List (ℕ × ℕ)) (maxEnd : ℕ) (m : Pmm) (e : MmapEntry) :
    Freed m (freeEntry reserved maxEnd m e) fun q => e.Visits maxEnd q ∧ ¬ Reserves reserved q := by
  unfold freeEntry MmapEntry.Visits
  split_ifs with ha
  · obtain ⟨s, hs, -⟩ := w32_alignDown ((e.addr.toNat + 4095) % 0x10000000000000000)
    obtain ⟨t, ht, htlt⟩ := w32_alignDown (if maxEnd < e.endAddr then maxEnd else e.endAddr)
    rw [MmapEntry.rstart, MmapEntry.rend, hs, ht]
    have h := freed_freeRange reserved (e := t) (by omega) bitmapPages s m
      (by unfold bitmapPages; omega)
    refine (Freed.refl m fun _ => id).trans h fun q => ?_
    simp only [false_or]
    constructor
    · rintro ⟨⟨h1, h2⟩, hq⟩
      exact ⟨by omega, by omega, hq⟩
    · rintro ⟨h1, h2, hq⟩
      exact ⟨⟨by omega, by omega⟩, hq⟩
  · exact Freed.refl m fun q hq => ha hq.1.1

lemma freed_freeEntries (reserved : List (ℕ × ℕ)) (maxEnd : ℕ) (es : List MmapEntry) (m : Pmm) :
    Freed m (es.foldl (freeEntry reserved maxEnd) m)
      fun q => (∃ e ∈ es, e.Visits maxEnd q) ∧ ¬ Reserves reserved q := by
  induction es generalizing m with
  | nil => exact Freed.refl m (by simp)
  | cons e es ih =>
    refine (freed_freeEntry reserved maxEnd m e).trans (ih _) fun q => ?_
    simp only [List.exists_mem_cons_iff]
    tauto

/-- **The free pages after initialisation**, by the bounds the code computes. -/
lemma pmmInitMultiboot_spec {boot : BootInfo} {i : MultibootInfo} (hi : boot.mbi = some i)
    (hmmap : i.flags &&& mbiFlagMmap ≠ 0) {es : List MmapEntry} (hes : boot.mmap i = some es)
    (kernelStart kernelEnd : BitVec 32) :
    ∃ m, pmmInitMultiboot boot kernelStart kernelEnd = some m ∧
      m.totalPages = mmapMaxEnd es / 4096 ∧ m.Counted ∧ ∀ p < m.totalPages,
      m.bitmap.test p = false ↔
        (∃ e ∈ es, e.Visits (mmapMaxEnd es) p) ∧
        ¬ Reserves (boot.reserved kernelStart kernelEnd) p := by
  have hmax : pmmMaxEnd boot.mbi es = mmapMaxEnd es := by simp only [pmmMaxEnd, hi, if_pos hmmap]
  have hle : mmapMaxEnd es / 4096 ≤ bitmapPages := by
    have : mmapMaxEnd es ≤ bitmapPages * 4096 := Nat.min_le_right _ _
    omega
  have hf := freed_freeEntries (boot.reserved kernelStart kernelEnd) (mmapMaxEnd es) es
    ⟨Bitmap.full, mmapMaxEnd es / 4096, mmapMaxEnd es / 4096⟩
  have hinit : pmmInitMultiboot boot kernelStart kernelEnd =
      some (es.foldl (freeEntry (boot.reserved kernelStart kernelEnd) (mmapMaxEnd es))
        ⟨Bitmap.full, mmapMaxEnd es / 4096, mmapMaxEnd es / 4096⟩) := by
    simp only [hi] at hmax
    simp only [pmmInitMultiboot, hi, if_pos hmmap, hes, hmax, Option.map_some]
  refine ⟨_, hinit, hf.total, hf.counted ⟨hle, ?_⟩, fun p hp => ?_⟩
  · simp [Pmm.countUsed]
  · rw [hf.total] at hp
    have hfree := hf.free p
    simp only [Pmm.Free, hf.total] at hfree
    simp only at hp
    have hpb : p < bitmapPages := by omega
    simpa [hp, hpb] using hfree

end FrostByte
