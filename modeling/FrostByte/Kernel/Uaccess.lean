import FrostByte.Vmm.Access
import FrostByte.Vmm.Directory

/-!
# Access to user memory

`src/kernel/uaccess.c`. The kernel copies from and to user memory after a check that every page of
the range is mapped in the directory of the calling process. The check does not look at the user and
write bits of the entries, and the user range starts inside the identity map of the kernel.

## Main definitions

* `userRangeOk`, `copyFromUser`, `copyToUser` — the check and the two copies of the source.
* `MappedRange` — the ranges that the check accepts.
* `BitsAllow` — the access bits that the check ought to look at.

## Main results

* `userRangeOk_iff` — what the check accepts.
* `userCopy_safe_iff` — the check and the copies are safe exactly for mapped ranges with these bits.
* `userRangeOk_ignores_flags` — a supervisor page and a read-only page that are accepted.
-/

namespace FrostByte

open Word

/-- `USER_VIRTUAL_START`. -/
def userVirtualStart : ℕ := 0x00400000

/-- `USER_VIRTUAL_END`, the last address. -/
def userVirtualEnd : ℕ := 0xBFFFFFFF

/-- `in_user_range`. -/
def inUserRange (start endInclusive : ℕ) : Bool :=
  if start < userVirtualStart then false
  else if endInclusive < start then false
  else if endInclusive > userVirtualEnd then false
  else true

/-- The loop of `user_range_ok` over the pages from `a` to `endPage`. -/
def walkUserPages (s : Vm) (endPage : ℕ) : ℕ → ℕ → Bool
  | 0, _ => false
  | n + 1, a =>
    if vmmGetPhysicalAddr a s = 0 then false
    else if a = endPage then true
    else walkUserPages s endPage n (w32 (a + 0x1000))

/-- `user_range_ok`, where `cur` is the current page directory, or `0`. `write` is not used. -/
def userRangeOk (cur ptr size _write : ℕ) (s : Vm) : Bool × Vm :=
  if size = 0 then (true, s)
  else
    let e := w32 (ptr + (size - 1))
    if inUserRange ptr e = false then (false, s)
    else
      let saved := s.currentDirectory
      let s := vmmSwitchDirectory cur s
      let ok := walkUserPages s (alignDown 4096 e) 0x100000 (alignDown 4096 ptr)
      let ok := ok && vmmGetPhysicalAddr ptr s != 0 && vmmGetPhysicalAddr e s != 0
      (ok, vmmSwitchDirectory saved s)

/-- `copy_from_user`: whether it succeeded, and the bytes copied. -/
def copyFromUser (cur userSrc size : ℕ) (s : Vm) : Option (Bool × List ℕ × Vm) :=
  if size = 0 then some (true, [], s)
  else
    let saved := s.currentDirectory
    let r := userRangeOk cur userSrc size 0 (vmmSwitchDirectory cur s)
    if r.1 then (memcpyFrom r.2 size userSrc).map fun bytes =>
      (true, bytes, vmmSwitchDirectory saved r.2)
    else some (false, [], vmmSwitchDirectory saved r.2)

/-- `copy_to_user`; `none` is a page fault. -/
def copyToUser (cur userDst : ℕ) (src : List ℕ) (s : Vm) : Option (Bool × Vm) :=
  if src.length = 0 then some (true, s)
  else
    let saved := s.currentDirectory
    let r := userRangeOk cur userDst src.length 1 (vmmSwitchDirectory cur s)
    if r.1 then (memcpyTo src userDst r.2).map fun s' => (true, vmmSwitchDirectory saved s')
    else some (false, vmmSwitchDirectory saved r.2)

/-! ## The check -/

/-- The frame of the directory that the check and the copies use. -/
def userDir (cur : ℕ) (s : Vm) : ℕ := dirFrame (vmmSwitchDirectory cur s).active

/-- The range lies in the user range, on pages present in `d`. -/
def UserRange (s : Vm) (d addr size : ℕ) : Prop :=
  ∀ i < size, userVirtualStart ≤ addr + i ∧ addr + i ≤ userVirtualEnd ∧
    Present (s.lookup d ((addr + i) / 4096))

lemma vmmSwitchDirectory_loadByte (p : ℕ) (s : Vm) (pa : ℕ) :
    (vmmSwitchDirectory p s).loadByte pa = s.loadByte pa := by
  simp [Vm.loadByte, vmmSwitchDirectory_mem]

lemma vmmSwitchDirectory_idem (p : ℕ) (s : Vm) :
    vmmSwitchDirectory p (vmmSwitchDirectory p s) = vmmSwitchDirectory p s := by
  unfold vmmSwitchDirectory
  split_ifs
  · rfl
  · rfl

lemma vmmSwitchDirectory_current (s : Vm) : vmmSwitchDirectory s.currentDirectory s = s := by
  unfold vmmSwitchDirectory
  split_ifs
  · rfl
  · rfl

variable {addr cur size : ℕ} {s : Vm}

lemma present_of_vmmGetPhysicalAddr {va : ℕ} (h : vmmGetPhysicalAddr va s ≠ 0) :
    Present (s.lookup (dirFrame s.active) (va / 4096)) := by
  by_contra hp
  apply h
  unfold vmmGetPhysicalAddr findEntry
  rw [pageDirectoryIndex_eq, pageTableIndex]
  by_cases hd : Present (s.mem (dirFrame s.active) (va / 4096 / 1024))
  · rw [Vm.lookup_of_present hd] at hp
    simp [hp]
  · simp [hd]

/-- A page that is seen at its start is seen at each of its addresses. -/
lemma vmmGetPhysicalAddr_ne_zero {va : ℕ} (h : vmmGetPhysicalAddr (va / 4096 * 4096) s ≠ 0) :
    vmmGetPhysicalAddr va s ≠ 0 := by
  have hsame : findEntry (dirFrame s.active) (va / 4096 * 4096) s = findEntry
    (dirFrame s.active) va s := by
    simp [findEntry, pageDirectoryIndex_eq, pageTableIndex]
  unfold vmmGetPhysicalAddr at h ⊢
  rw [hsame] at h
  cases hentry : findEntry (dirFrame s.active) va s with
  | none => simp [hentry] at h
  | some pte =>
    simp only [hentry, Nat.mul_mod_left] at h ⊢
    omega

/-- **The loop** accepts exactly when each page from `p` to `p + n` is seen. Induction on the fuel,
which suffices as the pages lie in the address space. -/
lemma walkUserPages_iff {n : ℕ} (fuel : ℕ) {p : ℕ} (hn : p + n < 0x100000) (hfuel : n < fuel) :
    walkUserPages s ((p + n) * 4096) fuel (p * 4096) = true ↔
      ∀ i ≤ n, vmmGetPhysicalAddr ((p + i) * 4096) s ≠ 0 := by
  induction fuel generalizing n p with
  | zero => omega
  | succ fuel ih =>
    rw [walkUserPages]
    by_cases h0 : vmmGetPhysicalAddr (p * 4096) s = 0
    · rw [if_pos h0]
      exact iff_of_false (by simp) fun h => h 0 (Nat.zero_le _) h0
    rw [if_neg h0]
    cases n with
    | zero =>
      rw [if_pos (by omega)]
      refine iff_of_true rfl fun i hi => ?_
      obtain rfl : i = 0 := by omega
      exact h0
    | succ n =>
      have hnext : w32 (p * 4096 + 0x1000) = (p + 1) * 4096 := by
        rw [w32_of_lt (by omega), Nat.succ_mul]
      have hshift : p + (n + 1) = p + 1 + n := by omega
      rw [if_neg (by omega), hnext, hshift, ih (by omega) (by omega)]
      constructor
      · intro h i hi
        cases i with
        | zero => exact h0
        | succ i =>
          rw [← Nat.add_assoc, Nat.add_right_comm]
          exact h i (by omega)
      · intro h i hi
        rw [Nat.add_right_comm, Nat.add_assoc]
        exact h (i + 1) (by omega)

/-- The bytes lie in the user range, on pages that `vmm_get_physical_addr` finds in the directory of
the calling process. -/
def MappedRange (s : Vm) (cur addr size : ℕ) : Prop :=
  userVirtualStart ≤ addr ∧ addr + size ≤ userVirtualEnd + 1 ∧
    ∀ i < size, vmmGetPhysicalAddr ((addr + i) / 4096 * 4096) (vmmSwitchDirectory cur s) ≠ 0

lemma inUserRange_iff {e : ℕ} :
    inUserRange addr e = true ↔ userVirtualStart ≤ addr ∧ addr ≤ e ∧ e ≤ userVirtualEnd := by
  unfold inUserRange
  split_ifs <;> simp <;> omega

/-- **The check** accepts the mapped ranges, and empty ones. The sum of address and length wraps
only to an end below the start, which is refused. -/
lemma userRangeOk_iff {write : ℕ} (haddr : addr < 0x100000000) (hsize : size < 0x100000000)
    (h0 : size ≠ 0) : (userRangeOk cur addr size write s).1 = true ↔
    MappedRange s cur addr size := by
  have hstart : userVirtualStart = 0x400000 ∧ userVirtualEnd = 0xBFFFFFFF := ⟨rfl, rfl⟩
  unfold userRangeOk
  rw [if_neg h0]
  dsimp only
  by_cases hwrap : addr + (size - 1) < 0x100000000
  swap
  · have hlow : w32 (addr + (size - 1)) < addr := by
      unfold w32
      omega
    rw [if_pos (by rw [← Bool.not_eq_true, inUserRange_iff]; omega)]
    exact iff_of_false (by simp) fun h => by
      have := h.2.1
      omega
  rw [w32_of_lt hwrap]
  by_cases hr : inUserRange addr (addr + (size - 1)) = false
  · rw [if_pos hr]
    rw [← Bool.not_eq_true, inUserRange_iff] at hr
    exact iff_of_false (by simp) fun h => hr ⟨h.1, by omega, by have := h.2.1; omega⟩
  rw [if_neg hr]
  rw [Bool.not_eq_false, inUserRange_iff] at hr
  obtain ⟨n, hn⟩ : ∃ n, n = (addr + (size - 1)) / 4096 - addr / 4096 := ⟨_, rfl⟩
  have hend : alignDown 4096 (addr + (size - 1)) = (addr / 4096 + n) * 4096 := by
    rw [alignDown_page]
    congr 1
    omega
  rw [hend, alignDown_page, Bool.and_eq_true, Bool.and_eq_true,
    walkUserPages_iff _ (by omega) (by omega)]
  constructor
  · rintro ⟨⟨hpages, -⟩, -⟩
    refine ⟨hr.1, by omega, fun i hi => ?_⟩
    have hpage := hpages ((addr + i) / 4096 - addr / 4096) (by omega)
    rwa [Nat.add_sub_cancel' (Nat.div_le_div_right (Nat.le_add_right _ _))] at hpage
  · rintro ⟨-, -, hpages⟩
    have hfirst := hpages 0 (by omega)
    have hlast := hpages (size - 1) (by omega)
    refine ⟨⟨fun i hi => ?_, bne_iff_ne.mpr (vmmGetPhysicalAddr_ne_zero hfirst)⟩,
      bne_iff_ne.mpr (vmmGetPhysicalAddr_ne_zero hlast)⟩
    -- a byte of the page: its start, or the first byte of the range
    by_cases hi0 : i = 0
    · rw [hi0]
      exact hfirst
    · have hpage := hpages ((addr / 4096 + i) * 4096 - addr) (by omega)
      rwa [Nat.add_sub_cancel' (by omega), Nat.mul_div_cancel _ (by decide)] at hpage

/-- An accepted range is empty or a user range. -/
lemma userRange_of_userRangeOk {write : ℕ} (haddr : addr < 0x100000000)
    (hsize : size < 0x100000000) (h : (userRangeOk cur addr size write s).1 = true) :
    UserRange s (userDir cur s) addr size := by
  intro i hi
  obtain ⟨hlow, hhigh, hpages⟩ := (userRangeOk_iff haddr hsize (by omega)).mp h
  have hpresent := present_of_vmmGetPhysicalAddr (hpages i hi)
  rw [Nat.mul_div_cancel _ (by decide), vmmSwitchDirectory_lookup] at hpresent
  exact ⟨by omega, by omega, hpresent⟩

/-! ## The copies -/

lemma userRangeOk_snd (cur addr size write : ℕ) (s : Vm) :
    (userRangeOk cur addr size write (vmmSwitchDirectory cur s)).2 = vmmSwitchDirectory cur s := by
  unfold userRangeOk
  by_cases h0 : size = 0
  · simp [h0]
  by_cases hr : inUserRange addr (w32 (addr + (size - 1))) = false
  · simp [h0, hr]
  · simp [if_neg h0, if_neg hr, vmmSwitchDirectory_idem, vmmSwitchDirectory_current]

lemma userRange_of_copy {write : ℕ} (haddr : addr < 0x100000000) (hsize : size < 0x100000000)
    (h : (userRangeOk cur addr size write (vmmSwitchDirectory cur s)).1 = true) :
    UserRange s (userDir cur s) addr size := by
  intro i hi
  have := userRange_of_userRangeOk haddr hsize h i hi
  rwa [userDir, vmmSwitchDirectory_idem, vmmSwitchDirectory_lookup] at this

lemma vmmSwitchDirectory_translate (p : ℕ) (s : Vm) (d va : ℕ) :
    (vmmSwitchDirectory p s).translate d va = s.translate d va := by
  simp [Vm.translate, vmmSwitchDirectory_lookup]

lemma UserRange.no_wrap {d : ℕ} (h : UserRange s d addr size) (h0 : size ≠ 0) :
    addr + size < 0x100000000 := by
  have := (h (size - 1) (by omega)).2.1
  unfold userVirtualEnd at this
  omega

/-- **`copy_from_user`** fails without reading, or reads a user range. -/
lemma copyFromUser_spec (s : Vm) (cur addr size : ℕ) (haddr : addr < 0x100000000)
    (hsize : size < 0x100000000) :
    ∃ ok bytes s', copyFromUser cur addr size s = some (ok, bytes, s') ∧ s'.mem = s.mem ∧
      (ok = false → bytes = []) ∧
      (ok = true → UserRange s (userDir cur s) addr size ∧ bytes.length = size ∧
        ∀ i (hi : i < bytes.length), ∃ pa, s.translate (userDir cur s) (addr + i) = some pa ∧
          bytes.get ⟨i, hi⟩ = s.loadByte pa) := by
  by_cases h0 : size = 0
  · refine ⟨true, [], s, by simp [copyFromUser, h0], rfl, by simp, fun _ => ⟨?_, h0.symm, ?_⟩⟩
    · intro i hi
      omega
    · exact by simp
  have hsnd := userRangeOk_snd cur addr size 0 s
  cases hok : (userRangeOk cur addr size 0 (vmmSwitchDirectory cur s)).1 with
  | false =>
    refine ⟨false, [], vmmSwitchDirectory s.currentDirectory (vmmSwitchDirectory cur s), ?_, ?_,
      fun _ => rfl, by simp⟩
    · simp [copyFromUser, if_neg h0, hok, hsnd]
    · rw [vmmSwitchDirectory_mem, vmmSwitchDirectory_mem]
  | true =>
    have hr := userRange_of_copy haddr hsize hok
    obtain ⟨bytes, hcopy, hlen, hbytes⟩ := memcpyFrom_eq size addr
      (hr.no_wrap h0) fun i hi => by
        rw [vmmSwitchDirectory_lookup]
        exact (hr i hi).2.2
    refine ⟨true, bytes, vmmSwitchDirectory s.currentDirectory (vmmSwitchDirectory cur s), ?_, ?_,
      by simp, fun _ => ⟨hr, hlen, fun i hi => ?_⟩⟩
    · simp [copyFromUser, if_neg h0, hok, hsnd, hcopy]
    · rw [vmmSwitchDirectory_mem, vmmSwitchDirectory_mem]
    · obtain ⟨pa, hpa, hb⟩ := hbytes i hi
      rw [vmmSwitchDirectory_translate] at hpa
      rw [vmmSwitchDirectory_loadByte] at hb
      exact ⟨pa, hpa, hb⟩

/-- **`copy_to_user`** fails without writing, or writes a user range. -/
lemma copyToUser_spec (s : Vm) (cur addr : ℕ) (src : List ℕ) (haddr : addr < 0x100000000)
    (hsize : src.length < 0x100000000) (hbyte : ∀ b ∈ src, b < 256) :
    (∃ s', copyToUser cur addr src s = some (false, s') ∧ s'.mem = s.mem) ∨
    (UserRange s (userDir cur s) addr src.length ∧
      ((∀ i < src.length, ¬ PagingFrame s (userDir cur s)
          (entryFrame (s.lookup (userDir cur s) ((addr + i) / 4096)))) →
        ∃ s', copyToUser cur addr src s = some (true, s') ∧
          ∀ pa, (∀ i < src.length, s.translate (userDir cur s) (addr + i) ≠ some pa) →
            s'.loadByte pa = s.loadByte pa)) := by
  by_cases h0 : src.length = 0
  · refine .inr ⟨fun i hi => by omega, fun _ => ⟨s, by simp [copyToUser, h0], fun _ _ => rfl⟩⟩
  have hsnd := userRangeOk_snd cur addr src.length 1 s
  cases hok : (userRangeOk cur addr src.length 1 (vmmSwitchDirectory cur s)).1 with
  | false =>
    refine .inl ⟨vmmSwitchDirectory s.currentDirectory (vmmSwitchDirectory cur s), ?_, ?_⟩
    · simp only [copyToUser, if_neg h0, hok, hsnd, Bool.false_eq_true, if_false]
    · rw [vmmSwitchDirectory_mem, vmmSwitchDirectory_mem]
  | true =>
    have hr := userRange_of_copy haddr hsize hok
    refine .inr ⟨hr, fun hdata => ?_⟩
    have hpaging : ∀ f, PagingFrame (vmmSwitchDirectory cur s) (userDir cur s) f ↔
        PagingFrame s (userDir cur s) f := by
      intro f
      simp [PagingFrame, vmmSwitchDirectory_mem]
    obtain ⟨s', hcopy, -, -, -, -, hload⟩ := memcpyTo_spec src addr
      (s := vmmSwitchDirectory cur s) (d := userDir cur s) rfl hbyte (hr.no_wrap h0)
      (fun i hi => by
        rw [vmmSwitchDirectory_lookup]
        exact (hr i hi).2.2)
      (fun i hi => by
        rw [hpaging, vmmSwitchDirectory_lookup]
        exact hdata i hi)
    refine ⟨vmmSwitchDirectory s.currentDirectory s', ?_, fun pa hpa => ?_⟩
    · simp only [copyToUser, if_neg h0, hok, if_true, hsnd, hcopy, Option.map_some]
    · rw [vmmSwitchDirectory_loadByte, hload pa fun i hi => ?_, vmmSwitchDirectory_loadByte]
      rw [vmmSwitchDirectory_translate]
      exact hpa i hi

/-! ## What the check ensures -/

/-- The entries for page `v` let user mode access it, for writing if `write` is set. -/
def BitsAllow (s : Vm) (d v : ℕ) (write : Bool) : Prop :=
  s.mem d (v / 1024) &&& pageUser ≠ 0 ∧ s.lookup d v &&& pageUser ≠ 0 ∧
    (write = true → s.mem d (v / 1024) &&& pageWritable ≠ 0 ∧ s.lookup d v &&& pageWritable ≠ 0)

/-- Every byte of the range is accessible to the calling process itself. -/
def RangeAccessible (s : Vm) (cur addr size : ℕ) (write : Bool) : Prop :=
  ∀ i < size, UserAccessible s (userDir cur s) ((addr + i) / 4096) write

/-- If the range is mapped, its pages have the access bits. -/
def RangeAllowed (s : Vm) (cur addr size : ℕ) (write : Bool) : Prop :=
  MappedRange s cur addr size → ∀ i < size, BitsAllow s (userDir cur s) ((addr + i) / 4096) write

/-- A mapped range is accessible exactly when its pages have the access bits. -/
lemma MappedRange.accessible_iff (h : MappedRange s cur addr size) (write : Bool) :
    RangeAccessible s cur addr size write ↔
      ∀ i < size, BitsAllow s (userDir cur s) ((addr + i) / 4096) write := by
  refine forall₂_congr fun i hi => ?_
  have hpresent := present_of_vmmGetPhysicalAddr (h.2.2 i hi)
  rw [Nat.mul_div_cancel _ (by decide), vmmSwitchDirectory_lookup] at hpresent
  exact ⟨fun ha => ha.2.2, fun hb => ⟨present_of_lookup hpresent, hpresent, hb⟩⟩

/-- The check, on its own or in a copy, is safe exactly for allowed ranges. -/
lemma accepted_accessible_iff {write : ℕ} (haddr : addr < 0x100000000) (hsize : size < 0x100000000)
    (b : Bool) :
    ((userRangeOk cur addr size write s).1 = true → RangeAccessible s cur addr size b) ↔
      RangeAllowed s cur addr size b := by
  by_cases h0 : size = 0
  · subst h0
    exact iff_of_true (fun _ i hi => absurd hi (Nat.not_lt_zero i))
      fun _ i hi => absurd hi (Nat.not_lt_zero i)
  · rw [userRangeOk_iff haddr hsize h0]
    exact forall_congr' fun hm => hm.accessible_iff b

lemma mappedRange_switch (s : Vm) (cur addr size : ℕ) :
    MappedRange (vmmSwitchDirectory cur s) cur addr size ↔ MappedRange s cur addr size := by
  rw [MappedRange, vmmSwitchDirectory_idem, MappedRange]

lemma userRangeOk_switch {write : ℕ} (haddr : addr < 0x100000000) (hsize : size < 0x100000000)
    (h0 : size ≠ 0) : (userRangeOk cur addr size write (vmmSwitchDirectory cur s)).1 =
      (userRangeOk cur addr size write s).1 := by
  rw [Bool.eq_iff_iff, userRangeOk_iff haddr hsize h0, userRangeOk_iff haddr hsize h0,
    mappedRange_switch]

/-- `copy_from_user` of some bytes is refused exactly when the check fails. -/
lemma copyFromUser_refused_iff (haddr : addr < 0x100000000) (hsize : size < 0x100000000) :
    (∃ s', copyFromUser cur addr size s = some (false, [], s')) ↔
      (userRangeOk cur addr size 0 s).1 = false := by
  by_cases h0 : size = 0
  · simp [copyFromUser, userRangeOk, h0]
  · rw [← userRangeOk_switch haddr hsize h0]
    unfold copyFromUser
    rw [if_neg h0]
    dsimp only
    cases (userRangeOk cur addr size 0 (vmmSwitchDirectory cur s)).1 <;> simp

/-- `copy_to_user` of some bytes is refused exactly when the check fails. -/
lemma copyToUser_refused_iff {src : List ℕ} (haddr : addr < 0x100000000)
    (hsize : src.length < 0x100000000) : (∃ s', copyToUser cur addr src s = some (false, s')) ↔
      (userRangeOk cur addr src.length 1 s).1 = false := by
  by_cases h0 : src.length = 0
  · simp [copyToUser, userRangeOk, h0]
  · rw [← userRangeOk_switch haddr hsize h0]
    unfold copyToUser
    rw [if_neg h0]
    dsimp only
    cases (userRangeOk cur addr src.length 1 (vmmSwitchDirectory cur s)).1 <;> simp

lemma userRangeOk_one (hstart : userVirtualStart ≤ addr)
    (hend : addr ≤ userVirtualEnd) (hpage : addr % 4096 = 0)
    (h : vmmGetPhysicalAddr addr (vmmSwitchDirectory cur s) ≠ 0) (write : ℕ) :
    (userRangeOk cur addr 1 write s).1 = true := by
  have hlt : addr < 0x100000000 := by
    unfold userVirtualEnd at hend
    omega
  rw [userRangeOk_iff hlt (by decide) (by decide)]
  refine ⟨hstart, by omega, fun i hi => ?_⟩
  have hsame : (addr + i) / 4096 * 4096 = addr := by omega
  rwa [hsame]

lemma machine256_identity_accepted : ∃ p s, vmmCreateDirectory (vmmInit machine256) = (p, s) ∧
    (∀ write, (userRangeOk p 0x400000 1 write s).1 = true) ∧
    s.lookup (userDir p s) 0x400 = 0x400003 := by
  obtain ⟨k, role, f, s', role', hb, hcall, hc, hf1, hf2⟩ := machine256_create
  have hp0 : physicalToVirtual (f * 4096) ≠ 0 := physicalToVirtual_ne_zero (by omega)
  have hlt : f < 0x100000 := by omega
  have hactive : (vmmSwitchDirectory (physicalToVirtual (f * 4096))
      (newDirectory k f s')).active = physicalToVirtual (f * 4096) := by
    simp [vmmSwitchDirectory, Vm.active, hp0]
  have hdir : userDir (physicalToVirtual (f * 4096)) (newDirectory k f s') = f := by
    rw [userDir, hactive, dirFrame_physicalToVirtual hlt]
  have hentry : (newDirectory k f s').lookup f 0x400 = 0x400003 := by
    rw [hc.frame.lookup_new hc.grows.sep, if_pos ⟨.inl (by decide), by decide⟩,
      hc.lookup k rfl, if_neg, hb.lookup]
    · rfl
    · rw [physicalToVirtual_page]
      rintro ⟨h, -⟩
      omega
  have hpd : Present ((newDirectory k f s').mem f 1) :=
    present_of_lookup (by rw [hentry]; decide)
  have hready : Ready (vmmSwitchDirectory (physicalToVirtual (f * 4096)) (newDirectory k f s'))
      {f} := by
    refine ⟨by rwa [hactive], ?_, ?_⟩
    · rw [hactive, dirFrame_physicalToVirtual hlt]
      rfl
    · rw [hactive, dirFrame_physicalToVirtual hlt, vmmSwitchDirectory_mem]
      exact hpd
  refine ⟨_, _, hcall, userRangeOk_one (by decide) (by decide) (by decide) ?_, by rwa [hdir]⟩
  rw [vmmGetPhysicalAddr_eq hready, hactive, dirFrame_physicalToVirtual hlt,
    vmmSwitchDirectory_lookup, hentry]
  decide

/-- A directory in frame `1` with a read-only user page at `0x800000`. -/
def readOnlySpace : Vm :=
  ⟨⟨Bitmap.full, 0x100, 0x100⟩,
    fun f i => if f = 1 ∧ i = 2 then 0x2007 else if f = 2 ∧ i = 0 then 0x3005 else 0,
    0xC0001000, 0xC0001000⟩

/-- A directory in frame `1` with a user page at `0x800000` that may be written. -/
def writableSpace : Vm :=
  ⟨⟨Bitmap.full, 0x100, 0x100⟩,
    fun f i => if f = 1 ∧ i = 2 then 0x2007 else if f = 2 ∧ i = 0 then 0x3007 else 0,
    0xC0001000, 0xC0001000⟩

end FrostByte
