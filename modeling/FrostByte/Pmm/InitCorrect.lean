import FrostByte.Pmm.Init

/-!
# Which pages are free after initialisation

A page should be free after `pmm_init_multiboot` when it lies wholly inside an available region
and overlaps neither low memory, nor the kernel image, nor a module. The code computes this with
32-bit page bounds and an array of 32 reserved ranges, and goes wrong in three ways.

## Main definitions

* `ShouldBeFree` — the pages that ought to be free.
* `NoLostPage`, `NoStrayPage`, `NoLeakedPage` — the three ways to go wrong do not occur.

## Main results

* `pmmInitMultiboot_correct_iff` — initialisation is right exactly then.
* `pmmInitMultiboot_leaks_module` — the page of a module is handed out.
-/

namespace FrostByte

open Word

/-! ## The intended result -/

/-- The page `p` lies wholly inside an available region. -/
def MmapEntry.Covers (e : MmapEntry) (p : ℕ) : Prop :=
  e.type = multibootMemoryAvailable ∧ e.addr.toNat ≤ p * 4096 ∧
    p * 4096 + 4096 ≤ e.addr.toNat + e.len.toNat

/-- A range grown to whole pages. -/
def roundOut (r : ℕ × ℕ) : ℕ × ℕ := (r.1 / 4096 * 4096, (r.2 + 4095) / 4096 * 4096)

/-- The page overlaps low memory, the kernel image or a module. -/
def ShouldBeReserved (boot : BootInfo) (kernelStart kernelEnd : BitVec 32) (p : ℕ) : Prop :=
  Reserves ((boot.ranges kernelStart kernelEnd).map roundOut) p

/-- The page should be free with the memory map `es`. -/
def ShouldBeFree (boot : BootInfo) (kernelStart kernelEnd : BitVec 32) (es : List MmapEntry)
    (p : ℕ) : Prop :=
  (∃ e ∈ es, e.Covers p) ∧ ¬ ShouldBeReserved boot kernelStart kernelEnd p

/-! ## What the code computes -/

/-- The page overlaps one of the first 32 ranges that does not end in the last page. -/
def IsReserved (boot : BootInfo) (kernelStart kernelEnd : BitVec 32) (p : ℕ) : Prop :=
  ∃ r ∈ (boot.ranges kernelStart kernelEnd).take 32, r.2 ≤ 0xFFFFF000 ∧ Reserves [roundOut r] p

/-- The pages freed for an available region, by the 32-bit bounds. -/
def MmapEntry.Sweeps (e : MmapEntry) (maxEnd p : ℕ) : Prop :=
  e.Available ∧
    if 0x10000000000000000 ≤ e.addr.toNat + e.len.toNat then
      (e.addr.toNat + 4095) % 0x10000000000000000 / 4096 % 0x100000 ≤ p ∧
        p < min (e.addr.toNat + e.len.toNat - 0x10000000000000000) maxEnd / 4096 % 0x100000
    else if 0x100000000 ≤ e.addr.toNat + e.len.toNat then False
    else if 0xFFFFF000 < e.addr.toNat then p < 0xFFFFF
    else e.addr.toNat ≤ p * 4096 ∧ p * 4096 + 4096 ≤ e.addr.toNat + e.len.toNat

lemma MmapEntry.endAddr_eq (e : MmapEntry) :
    e.endAddr = (e.addr.toNat + e.len.toNat) % 0x10000000000000000 := by
  rw [MmapEntry.endAddr, BitVec.toNat_add]

lemma le_foldl_endAddr (es : List MmapEntry) : ∀ m : ℕ,
    m ≤ es.foldl (fun m e => if m < e.endAddr then e.endAddr else m) m ∧
      ∀ e ∈ es, e.endAddr ≤ es.foldl (fun m e => if m < e.endAddr then e.endAddr else m) m := by
  induction es with
  | nil => simp
  | cons a es ih =>
    intro m
    obtain ⟨h1, h2⟩ := ih (if m < a.endAddr then a.endAddr else m)
    refine ⟨?_, List.forall_mem_cons.mpr ⟨?_, h2⟩⟩
    · refine le_trans ?_ h1
      split_ifs <;> omega
    · refine le_trans ?_ h1
      split_ifs <;> omega

variable {e : MmapEntry} {p : ℕ}

lemma le_mmapMaxEnd {es : List MmapEntry} (he : e ∈ es) :
    min e.endAddr 0x100000000 ≤ mmapMaxEnd es := by
  have := (le_foldl_endAddr es 0).2 e he
  unfold mmapMaxEnd bitmapPages
  omega

lemma mmapMaxEnd_le (es : List MmapEntry) : mmapMaxEnd es ≤ 0x100000000 := by
  unfold mmapMaxEnd bitmapPages
  omega

/-- **The visited pages, by the kind of region.** -/
lemma MmapEntry.visits_iff_sweeps {es : List MmapEntry} (he : e ∈ es) (p : ℕ) :
    e.Visits (mmapMaxEnd es) p ↔ e.Sweeps (mmapMaxEnd es) p := by
  have hend := e.endAddr_eq
  have hmax := le_mmapMaxEnd he
  have htop := mmapMaxEnd_le es
  have ha : e.addr.toNat < 0x10000000000000000 := e.addr.isLt
  have hl : e.len.toNat < 0x10000000000000000 := e.len.isLt
  unfold MmapEntry.Visits MmapEntry.rstart MmapEntry.rend
  refine and_congr_right fun _ => ?_
  generalize mmapMaxEnd es = top at *
  generalize e.addr.toNat = a at *
  generalize e.len.toNat = l at *
  rw [hend] at hmax ⊢
  unfold w32 alignDown
  by_cases hwrap : 0x10000000000000000 ≤ a + l
  · -- past `2 ^ 64`: only the low bits of the page numbers count
    have hsum : (a + l) % 0x10000000000000000 = a + l - 0x10000000000000000 := by omega
    have hmin : (if top < a + l - 0x10000000000000000 then top else a + l - 0x10000000000000000) =
        min (a + l - 0x10000000000000000) top := by
      split_ifs <;> omega
    rw [if_pos hwrap, hsum]
    omega
  · have hsum : (a + l) % 0x10000000000000000 = a + l := by omega
    rw [if_neg hwrap, hsum]
    by_cases hbig : 0x100000000 ≤ a + l
    · -- the end is cut to zero
      have hzero : (if top < a + l then top else a + l) / 4096 * 4096 % 0x100000000 = 0 := by
        split_ifs <;> omega
      rw [if_pos hbig, hzero]
      simp
    · have hif : (if top < a + l then top else a + l) = a + l := by
        rw [if_neg (by omega)]
      rw [if_neg hbig, hif]
      by_cases hlast : 0xFFFFF000 < a
      · -- the start is cut to zero
        rw [if_pos hlast]
        omega
      · rw [if_neg hlast]
        omega

lemma reserves_reserved_iff (boot : BootInfo) (kernelStart kernelEnd : BitVec 32) (p : ℕ) :
    Reserves (boot.reserved kernelStart kernelEnd) p ↔ IsReserved boot kernelStart kernelEnd p := by
  have hrange : ∀ r ∈ boot.ranges kernelStart kernelEnd, r.2 < 0x100000000 := by
    intro r hr
    simp only [BootInfo.ranges, List.mem_cons] at hr
    rcases hr with rfl | rfl | hr
    · decide
    · exact kernelEnd.isLt
    · rcases hm : boot.mbi with _ | i
      · simp [hm] at hr
      · simp only [hm, List.mem_map] at hr
        obtain ⟨m, -, rfl⟩ := hr
        exact m.modEnd.isLt
  simp only [Reserves, BootInfo.reserved, IsReserved, List.mem_map, exists_exists_and_eq_and,
    roundOut]
  refine exists_congr fun r => and_congr_right fun hr => ?_
  have hlt := hrange r (List.mem_of_mem_take hr)
  by_cases hr2 : r.2 ≤ 0xFFFFF000
  · rw [alignUp_of_le hr2, alignDown_page]
    simp [hr2]
  · rw [alignUp_eq_zero (by omega) hlt]
    simp [hr2]

/-! ## The conditions -/

/-- An unreserved page of a region that reaches `2 ^ 32` is freed for some region. -/
def NoLostPage (boot : BootInfo) (kernelStart kernelEnd : BitVec 32) (es : List MmapEntry) : Prop :=
  ∀ p < mmapMaxEnd es / 4096, ∀ e ∈ es, 0x100000000 ≤ e.addr.toNat + e.len.toNat → e.Covers p →
    ¬ ShouldBeReserved boot kernelStart kernelEnd p → ∃ e' ∈ es, e'.Sweeps (mmapMaxEnd es) p

/-- A page freed for a region that starts in the last page or passes `2 ^ 64` is available. -/
def NoStrayPage (boot : BootInfo) (kernelStart kernelEnd : BitVec 32) (es : List MmapEntry) :
    Prop :=
  ∀ p < mmapMaxEnd es / 4096, ∀ e ∈ es,
    0xFFFFF000 < e.addr.toNat ∨ 0x10000000000000000 ≤ e.addr.toNat + e.len.toNat →
    e.Sweeps (mmapMaxEnd es) p → ¬ IsReserved boot kernelStart kernelEnd p → ∃ e' ∈ es, e'.Covers p

/-- A freed page that overlaps a module beyond the 30th, or a range that ends in the last page, is
reserved. -/
def NoLeakedPage (boot : BootInfo) (kernelStart kernelEnd : BitVec 32) (es : List MmapEntry) :
    Prop :=
  ∀ p < mmapMaxEnd es / 4096, (∃ e ∈ es, e.Sweeps (mmapMaxEnd es) p) →
    ShouldBeReserved boot kernelStart kernelEnd p → IsReserved boot kernelStart kernelEnd p

lemma IsReserved.should {boot : BootInfo} {kernelStart kernelEnd : BitVec 32}
    (h : IsReserved boot kernelStart kernelEnd p) :
    ShouldBeReserved boot kernelStart kernelEnd p := by
  obtain ⟨r, hr, -, x, hx, hp⟩ := h
  rw [List.mem_singleton] at hx
  subst hx
  exact ⟨_, List.mem_map_of_mem (List.mem_of_mem_take hr), hp⟩

lemma MmapEntry.Covers.sweeps {maxEnd : ℕ} (hc : e.Covers p)
    (hlt : e.addr.toNat + e.len.toNat < 0x100000000) : e.Sweeps maxEnd p := by
  obtain ⟨htype, h1, h2⟩ := hc
  refine ⟨⟨htype, ?_⟩, ?_⟩
  · intro h0
    have hz : e.len.toNat = 0 := by rw [h0]; rfl
    omega
  · rw [if_neg (by omega), if_neg (by omega), if_neg (by omega)]
    exact ⟨h1, h2⟩

lemma MmapEntry.Sweeps.covers {maxEnd : ℕ} (hs : e.Sweeps maxEnd p)
    (h1 : e.addr.toNat ≤ 0xFFFFF000) (h2 : e.addr.toNat + e.len.toNat < 0x10000000000000000) :
    e.Covers p := by
  obtain ⟨ha, hs⟩ := hs
  rw [if_neg (by omega)] at hs
  split_ifs at hs with h3 h4
  · omega
  · exact ⟨ha.1, hs⟩

/-- **Correctness of initialisation**: the intended pages are free, and `used_pages` counts the
others, if and only if no page is lost, stray or leaked. -/
theorem pmmInitMultiboot_correct_iff {boot : BootInfo} {i : MultibootInfo} (hi : boot.mbi = some i)
    (hmmap : i.flags &&& mbiFlagMmap ≠ 0) {es : List MmapEntry} (hes : boot.mmap i = some es)
    (kernelStart kernelEnd : BitVec 32) :
    ∃ m, pmmInitMultiboot boot kernelStart kernelEnd = some m ∧
      (((∀ p < m.totalPages, m.bitmap.test p = false ↔
          ShouldBeFree boot kernelStart kernelEnd es p) ∧ m.usedPages = m.countUsed) ↔
        NoLostPage boot kernelStart kernelEnd es ∧ NoStrayPage boot kernelStart kernelEnd es ∧
          NoLeakedPage boot kernelStart kernelEnd es) := by
  obtain ⟨m, hm, htotal, hcount, hfree⟩ := pmmInitMultiboot_spec hi hmmap hes kernelStart kernelEnd
  refine ⟨m, hm, ?_⟩
  have hcode : ∀ p < m.totalPages, m.bitmap.test p = false ↔
      (∃ e ∈ es, e.Sweeps (mmapMaxEnd es) p) ∧ ¬ IsReserved boot kernelStart kernelEnd p := by
    intro p hp
    rw [hfree p hp, reserves_reserved_iff]
    refine and_congr_left fun _ => exists_congr fun e => and_congr_right fun he => ?_
    exact MmapEntry.visits_iff_sweeps he p
  unfold NoLostPage NoStrayPage NoLeakedPage
  rw [← htotal]
  constructor
  · rintro ⟨hspec, -⟩
    refine ⟨fun p hp e he _ hc hres => ?_, fun p hp e he _ hs hres => ?_, fun p hp hs hres => ?_⟩
    · exact ((hcode p hp).mp ((hspec p hp).mpr ⟨⟨e, he, hc⟩, hres⟩)).1
    · exact ((hspec p hp).mp ((hcode p hp).mpr ⟨⟨e, he, hs⟩, hres⟩)).1
    · by_contra hkept
      exact ((hspec p hp).mp ((hcode p hp).mpr ⟨hs, hkept⟩)).2 hres
  · rintro ⟨hlost, hstray, hleak⟩
    refine ⟨fun p hp => (hcode p hp).trans ⟨?_, ?_⟩, hcount.used⟩
    · rintro ⟨⟨e, he, hs⟩, hkept⟩
      refine ⟨?_, fun hres => hkept (hleak p hp ⟨e, he, hs⟩ hres)⟩
      by_cases hkind : 0xFFFFF000 < e.addr.toNat ∨
          0x10000000000000000 ≤ e.addr.toNat + e.len.toNat
      · exact hstray p hp e he hkind hs hkept
      · exact ⟨e, he, hs.covers (by omega) (by omega)⟩
    · rintro ⟨⟨e, he, hc⟩, hres⟩
      refine ⟨?_, fun hkept => hres hkept.should⟩
      by_cases hbig : 0x100000000 ≤ e.addr.toNat + e.len.toNat
      · exact hlost p hp e he hbig hc hres
      · exact ⟨e, he, hc.sweeps (by omega)⟩

/-! ## Two machines -/

/-- One region of 2 MiB and `count` modules, the 31st at `0x110000`, the others empty. -/
def smallBoot (count : BitVec 32) : BootInfo where
  mbi := some ⟨72, 0, 0, count, 0x1000, 24, 0x2000⟩
  entryAt _ := ⟨20, 0, 0x200000, 1⟩
  moduleAt a := if a = 0x11E0 then ⟨0x110000, 0x111000⟩ else ⟨0x100000, 0x100000⟩

lemma smallBoot_mmap (count : BitVec 32) :
    (smallBoot count).mmap ⟨72, 0, 0, count, 0x1000, 24, 0x2000⟩ = some [⟨20, 0, 0x200000, 1⟩] := by
  simp [BootInfo.mmap, smallBoot, walkMmap]

/-- With 31 modules, the page of the last one is handed out. -/
theorem pmmInitMultiboot_leaks_module :
    ∃ m, pmmInitMultiboot (smallBoot 31) 0x100000 0x101000 = some m ∧
      ¬ ∀ p < m.totalPages, m.bitmap.test p = false ↔
        ShouldBeFree (smallBoot 31) 0x100000 0x101000 [⟨20, 0, 0x200000, 1⟩] p := by
  obtain ⟨m, hm, htotal, -, hfree⟩ :=
    pmmInitMultiboot_spec rfl (by decide) (smallBoot_mmap 31) 0x100000 0x101000
  refine ⟨m, hm, fun hspec => ?_⟩
  have hlt : 0x110 < m.totalPages := by rw [htotal]; decide
  have hmarked : m.bitmap.test 0x110 = false := by
    rw [hfree _ hlt]
    refine ⟨⟨_, List.mem_singleton_self _, ?_⟩, ?_⟩
    · refine ⟨by decide, by decide, by decide⟩
    · unfold Reserves
      decide
  have hshould := ((hspec _ hlt).mp hmarked).2
  refine hshould ⟨roundOut (0x110000, 0x111000), ?_, by decide, by decide⟩
  exact List.mem_map_of_mem (by decide)

/-- A machine of 2 MiB without modules. -/
theorem pmmInitMultiboot_correct_small :
    ∃ m, pmmInitMultiboot (smallBoot 0) 0x100000 0x101000 = some m ∧
      (∀ p < m.totalPages, m.bitmap.test p = false ↔
        ShouldBeFree (smallBoot 0) 0x100000 0x101000 [⟨20, 0, 0x200000, 1⟩] p) ∧
      m.usedPages = m.countUsed := by
  obtain ⟨m, hm, hiff⟩ :=
    pmmInitMultiboot_correct_iff rfl (by decide) (smallBoot_mmap 0) 0x100000 0x101000
  refine ⟨m, hm, hiff.mpr ⟨fun p _ e he hbig => ?_, fun p _ e he hkind => ?_, fun p _ _ hres => ?_⟩⟩
  · rw [List.mem_singleton.mp he] at hbig
    exact absurd hbig (by decide)
  · rw [List.mem_singleton.mp he] at hkind
    exact absurd hkind (by decide)
  · obtain ⟨x, hx, hp⟩ := hres
    obtain ⟨r, hr, rfl⟩ := List.mem_map.mp hx
    have hend : ∀ r ∈ (smallBoot 0).ranges 0x100000 0x101000, r.2 ≤ 0xFFFFF000 := by decide
    exact ⟨r, hr, hend r hr, _, List.mem_singleton_self _, hp⟩

end FrostByte
