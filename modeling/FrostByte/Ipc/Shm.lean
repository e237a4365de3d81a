import FrostByte.Vmm.Fill

/-!
# Shared memory segments

`src/ipc/shm.c`: a table of 256 segments, each a run of physical frames that processes map into
their address spaces. A result is a 32-bit word or an error. The fields `uid` and `gid` are left
out.

## Main definitions

* `ShmSegment`, `ShmState` — a segment, and the table with the counters.
* `sysShmget`, `sysShmat`, `sysShmdt`, `sysShmctl` — the calls.
* `ClearedFrames`, `DirectlyMapped` — a new segment is zero, and where its frames are mapped.

## Main results

* `sysShmget_cases` — what a successful call has done.
* `sysShmget_cleared_iff` — when a new segment is cleared.
* `sysShmget_clears_heap` — a segment whose creation wipes out the heap.
-/

namespace FrostByte.Ipc

open Word Function

/-! ## Segments -/

/-- `MAX_SHM_SEGMENTS`. -/
def maxShmSegments : ℕ := 256

/-- `SHM_BASE_ADDR`. -/
def shmBaseAddr : ℕ := 0xB0000000

/-- `IPC_PRIVATE`. -/
def ipcPrivate : ℕ := 0
/-- `IPC_CREAT`. -/
def ipcCreat : ℕ := 0x200
/-- `IPC_EXCL`. -/
def ipcExcl : ℕ := 0x400
/-- `IPC_RMID`. -/
def ipcRmid : ℕ := 0
/-- `IPC_SET`. -/
def ipcSet : ℕ := 1
/-- `IPC_STAT`. -/
def ipcStat : ℕ := 2
/-- `SHM_RDONLY`. -/
def shmRdonly : ℕ := 0x1000
/-- `SHM_RND`. -/
def shmRnd : ℕ := 0x2000

/-- The error codes of the calls. -/
inductive ShmError
  | enoent
  | esrch
  | enomem
  | eexist
  | einval
  | enospc
  deriving DecidableEq

/-- `shm_segment_t`. -/
structure ShmSegment where
  valid : Bool
  key : ℕ
  size : ℕ
  shmid : ℕ
  kernelAddr : ℕ
  physAddr : ℕ
  nattch : ℕ
  cpid : ℕ
  lpid : ℕ
  mode : ℕ

/-- A slot of the table that is not used. -/
def ShmSegment.zero : ShmSegment := ⟨false, 0, 0, 0, 0, 0, 0, 0, 0, 0⟩

/-- The memory manager and the static variables of the source. -/
structure ShmState where
  vm : Vm
  segments : ℕ → ShmSegment
  nextShmVirt : ℕ
  nextShmid : ℕ

/-- What the calls read of the current process. -/
structure ShmProc where
  pid : ℕ
  pageDirectory : ℕ
  deriving DecidableEq

/-- The first slot of the table with a property. -/
def findSegment (p : ShmSegment → Bool) (st : ShmState) : Option ℕ :=
  (List.range maxShmSegments).find? fun i => p (st.segments i)

/-! ## The calls -/

/-- The loops that give back `n` pages of a segment, from page `j` on. -/
def freePages (physAddr : ℕ) : ℕ → ℕ → Pmm → Pmm
  | 0, _, m => m
  | n + 1, j, m => freePages physAddr n (j + 1) (pmmFreePage (w32 (physAddr + j * 0x1000)) m)

/-- The allocation loop, with `n` pages to go: the address of the first one. -/
def allocPages : ℕ → ℕ → ℕ → Pmm → Option ℕ × Pmm
  | 0, _, physAddr, m => (some physAddr, m)
  | n + 1, i, physAddr, m =>
    let page := (pmmAllocPage m).1
    let m := (pmmAllocPage m).2
    if page = 0 then (none, freePages physAddr i 0 m)
    else if i = 0 then allocPages n 1 page m
    else if page ≠ w32 (physAddr + i * 0x1000) then
      (none, freePages physAddr i 0 (pmmFreePage page m))
    else allocPages n (i + 1) physAddr m

/-- `memset(addr, 0, n * 0x1000)` from page `i` on; a missing page is `none`. -/
def memsetPages (addr : ℕ) : ℕ → ℕ → Vm → Option Vm
  | 0, _, s => some s
  | n + 1, i, s =>
    let pte := s.lookup (dirFrame s.active) (w32 (addr + i * 0x1000) / 4096)
    if Present pte then memsetPages addr n (i + 1) (s.zeroFrame (entryFrame pte)) else none

/-- `num_pages` in `sys_shmget`, by a signed division. -/
def signedPages (size : ℕ) : ℕ :=
  if size < 0x80000000 then size / 0x1000 else sub32 0 (sub32 0 size / 0x1000)

/-- `sys_shmget`; `none` when clearing the segment faults. -/
def sysShmget (proc : ShmProc) (key size shmflg : ℕ) (st : ShmState) :
    Option (Except ShmError ℕ × ShmState) :=
  match if key ≠ ipcPrivate then findSegment (fun x => x.valid && x.key == key) st else none with
  | some i =>
    if shmflg &&& ipcCreat ≠ 0 ∧ shmflg &&& ipcExcl ≠ 0 then some (.error .eexist, st)
    else some (.ok (st.segments i).shmid, st)
  | none =>
    if shmflg &&& ipcCreat = 0 then some (.error .enoent, st)
    else
      match findSegment (fun x => !x.valid) st with
      | none => some (.error .enospc, st)
      | some slot =>
        let size := alignUp 4096 size
        let numPages := signedPages size
        match allocPages numPages 0 0 st.vm.pmm with
        | (none, pmm) => some (.error .enomem, { st with vm := { st.vm with pmm := pmm } })
        | (some physAddr, pmm) =>
          let kernelAddr := physicalToVirtual physAddr
          (memsetPages kernelAddr (w32 (numPages * 0x1000) / 0x1000) 0
              { st.vm with pmm := pmm }).map fun vm =>
            (.ok st.nextShmid, { st with
              vm := vm
              segments := update st.segments slot {
                valid := true
                key := key
                size := size
                shmid := st.nextShmid
                kernelAddr := kernelAddr
                physAddr := physAddr
                nattch := 0
                cpid := proc.pid
                lpid := proc.pid
                mode := shmflg &&& 0x1FF }
              nextShmid := w32 (st.nextShmid + 1) })

/-- Where a segment is attached; a requested address is not checked. -/
def attachAddr (shmaddr shmflg : ℕ) (st : ShmState) : ℕ :=
  if shmaddr ≠ 0 then
    if shmflg &&& shmRnd ≠ 0 then alignDown 4096 shmaddr else shmaddr
  else st.nextShmVirt

/-- The flags of its pages. -/
def attachFlags (shmflg : ℕ) : ℕ :=
  if shmflg &&& shmRdonly = 0 then pagePresent ||| pageUser ||| pageWritable
  else pagePresent ||| pageUser

/-- The loop of `sys_shmat` that unmaps the first pages again. -/
def unattachPages (dir addr : ℕ) : ℕ → ℕ → Vm → Vm
  | 0, _, s => s
  | n + 1, j, s =>
    unattachPages dir addr n (j + 1) (vmmUnmapPageInDirectory dir (w32 (addr + j * 0x1000)) s).2

/-- The mapping loop of `sys_shmat`, with `n` pages to go. -/
def attachPages (dir addr physAddr flags : ℕ) : ℕ → ℕ → Vm → Bool × Vm
  | 0, _, s => (true, s)
  | n + 1, i, s =>
    match vmmMapPageInDirectory dir (w32 (addr + i * 0x1000)) (w32 (physAddr + i * 0x1000))
        flags s with
    | (true, s) => attachPages dir addr physAddr flags n (i + 1) s
    | (false, s) => (false, unattachPages dir addr i 0 s)

/-- `sys_shmat`. The process may be missing. -/
def sysShmat (proc : Option ShmProc) (shmid shmaddr shmflg : ℕ) (st : ShmState) :
    Except ShmError ℕ × ShmState :=
  match findSegment (fun x => x.valid && x.shmid == shmid) st with
  | none => (.error .einval, st)
  | some slot =>
    let seg := st.segments slot
    let addr := attachAddr shmaddr shmflg st
    let st := if shmaddr ≠ 0 then st else
      { st with nextShmVirt := alignUp 4096 (w32 (st.nextShmVirt + seg.size)) }
    match proc with
    | none => (.error .esrch, st)
    | some proc =>
      if proc.pageDirectory = 0 then (.error .einval, st)
      else
        match attachPages proc.pageDirectory addr seg.physAddr (attachFlags shmflg)
            (seg.size / 0x1000) 0 st.vm with
        | (false, vm) => (.error .enomem, { st with vm := vm })
        | (true, vm) => (.ok addr, { st with
            vm := vm
            segments := update st.segments slot { seg with
              nattch := w32 (seg.nattch + 1)
              lpid := proc.pid } })

/-- The loop of `sys_shmdt`, in the directory of the process. -/
def detachPages (dir addr : ℕ) : ℕ → ℕ → Vm → Vm
  | 0, _, s => s
  | n + 1, i, s =>
    let oldDir := s.active
    detachPages dir addr n (i + 1) (vmmSwitchDirectory oldDir
      (vmmUnmapPage (w32 (addr + i * 0x1000)) (vmmSwitchDirectory dir s)).2)

/-- `sys_shmdt`. Whatever the address, it takes the first valid segment. -/
def sysShmdt (proc : ShmProc) (shmaddr : ℕ) (st : ShmState) : Except ShmError ℕ × ShmState :=
  if shmaddr = 0 then (.error .einval, st)
  else
    match findSegment (fun x => x.valid) st with
    | none => (.error .einval, st)
    | some slot =>
      let seg := st.segments slot
      (.ok 0, { st with
        vm := detachPages proc.pageDirectory (alignDown 4096 shmaddr) (seg.size / 0x1000) 0 st.vm
        segments := update st.segments slot { seg with
          nattch := sub32 seg.nattch 1
          lpid := proc.pid } })

/-- `sys_shmctl`: removing a segment that is attached does nothing and succeeds. -/
def sysShmctl (shmid cmd : ℕ) (st : ShmState) : Except ShmError ℕ × ShmState :=
  match findSegment (fun x => x.valid && x.shmid == shmid) st with
  | none => (.error .einval, st)
  | some slot =>
    let seg := st.segments slot
    if cmd = ipcRmid then
      if seg.nattch = 0 then
        (.ok 0, { st with
          vm := { st.vm with pmm := freePages seg.physAddr (seg.size / 0x1000) 0 st.vm.pmm }
          segments := update st.segments slot { seg with valid := false } })
      else (.ok 0, st)
    else if cmd = ipcStat ∨ cmd = ipcSet then (.ok 0, st)
    else (.error .einval, st)

/-! ## The frames of a new segment -/

/-- The `n` frames from `f` on, the lowest free ones of `m`, have been taken. -/
structure Taken (m m' : Pmm) (f n : ℕ) : Prop where
  free : ∀ i < n, m.Free (f + i)
  lowest : 0 < n → ∀ q, m.Free q → f ≤ q
  after : ∀ q, m'.Free q ↔ m.Free q ∧ ¬ (f ≤ q ∧ q < f + n)
  totalPages : m'.totalPages = m.totalPages

lemma Taken.refl (m : Pmm) (f : ℕ) : Taken m m f 0 :=
  ⟨by simp, (Nat.lt_irrefl 0).elim, fun q => by
    constructor
    · exact fun h => ⟨h, by omega⟩
    · exact fun h => h.1, rfl⟩

variable {f n : ℕ} {m m' m₀ : Pmm}

lemma Taken.alloc (h : (pmmAllocPage m).1 ≠ 0) : ∃ p, p ≠ 0 ∧ p < 0x100000 ∧
    (pmmAllocPage m).1 = p * 4096 ∧ Taken m (pmmAllocPage m).2 p 1 := by
  obtain ⟨htotal, hzero | ⟨p, hp0, haddr, hp, hfree⟩⟩ := pmmAllocPage_spec m
  · exact absurd hzero.1 h
  refine ⟨p, hp0, hp.2.1, haddr, fun i hi => ?_, fun _ q hq => ?_, fun q => ?_, htotal⟩
  · obtain rfl : i = 0 := by omega
    exact hp
  · have := pmmAllocPage_le m hq
    omega
  · rw [hfree q]
    refine and_congr_right fun _ => ?_
    omega

lemma Taken.trans {m₁ : Pmm} (h₁ : Taken m m₁ f 1) (h₂ : Taken m₁ m' (f + 1) n) :
    Taken m m' f (n + 1) := by
  refine ⟨fun i hi => ?_, fun _ => h₁.lowest Nat.one_pos, fun q => ?_, by
    rw [h₂.totalPages, h₁.totalPages]⟩
  · cases i with
    | zero => exact h₁.free 0 Nat.one_pos
    | succ i =>
      have := ((h₁.after _).mp (h₂.free i (by omega))).1
      rwa [Nat.add_assoc, Nat.add_comm 1] at this
  · rw [h₂.after q, h₁.after q, and_assoc]
    refine and_congr_right fun _ => ?_
    omega

lemma allocPages_rest {a : ℕ} (n i : ℕ) (hi : i ≠ 0) (hf : f + i ≤ 0x100000)
    (h : allocPages n i (f * 4096) m = (some a, m')) : a = f * 4096 ∧ Taken m m' (f + i) n := by
  induction n generalizing i m with
  | zero =>
    obtain ⟨ha, rfl⟩ := Prod.mk.inj h
    exact ⟨(Option.some.inj ha).symm, Taken.refl _ _⟩
  | succ n ih =>
    rw [allocPages] at h
    by_cases hzero : (pmmAllocPage m).1 = 0
    · rw [if_pos hzero] at h
      cases h
    rw [if_neg hzero, if_neg hi] at h
    by_cases hnext : (pmmAllocPage m).1 ≠ w32 (f * 4096 + i * 0x1000)
    · rw [if_pos hnext] at h
      cases h
    rw [if_neg hnext] at h
    obtain ⟨p, hp0, hp, haddr, htaken⟩ := Taken.alloc hzero
    -- the sum does not wrap, since frame `0` is not handed out
    have hpf : p = f + i := by
      rw [haddr, w32] at hnext
      omega
    subst hpf
    obtain ⟨ha, hrest⟩ := ih (i + 1) (Nat.succ_ne_zero i) hp h
    exact ⟨ha, htaken.trans hrest⟩

/-- **The frames of a new segment** are the lowest free ones, in a row. -/
lemma allocPages_taken {a : ℕ} (h : allocPages n 0 0 m = (some a, m')) :
    ∃ f, a = f * 4096 ∧ Taken m m' f n := by
  cases n with
  | zero =>
    obtain ⟨ha, rfl⟩ := Prod.mk.inj h
    exact ⟨0, (Option.some.inj ha).symm, Taken.refl _ _⟩
  | succ n =>
    rw [allocPages] at h
    by_cases hzero : (pmmAllocPage m).1 = 0
    · rw [if_pos hzero] at h
      cases h
    rw [if_neg hzero] at h
    obtain ⟨p, -, hp, haddr, htaken⟩ := Taken.alloc hzero
    rw [haddr] at h
    obtain ⟨ha, hrest⟩ := allocPages_rest n 1 Nat.one_ne_zero hp h
    exact ⟨p, ha, htaken.trans hrest⟩

lemma Taken.le (h : Taken m m' f n) : n ≤ 0x100000 := by
  by_contra hn
  have := (h.free 0x100000 (by omega)).2.1
  unfold bitmapPages at this
  omega

/-- Frame `f` is one of the `n` lowest free frames. -/
def Lowest (m : Pmm) (n f : ℕ) : Prop := m.Free f ∧ ((Finset.range f).filter m.Free).card < n

instance (m : Pmm) (n f : ℕ) : Decidable (Lowest m n f) := inferInstanceAs (Decidable (_ ∧ _))

lemma Lowest.eq_first {g : ℕ} (h : Lowest m 1 f) (hg : m.Free g) (hbelow : ∀ q < g, ¬ m.Free q) :
    f = g := by
  obtain ⟨hfree, hcard⟩ := h
  have hnone := Finset.card_eq_zero.mp (Nat.lt_one_iff.mp hcard)
  rcases lt_trichotomy f g with hlt | heq | hgt
  · exact absurd hfree (hbelow f hlt)
  · exact heq
  · have := Finset.mem_filter.mpr ⟨Finset.mem_range.mpr hgt, hg⟩
    rw [hnone] at this
    exact absurd this (Finset.notMem_empty g)

lemma Taken.lowest_iff (h : Taken m m' f n) (q : ℕ) : Lowest m n q ↔ f ≤ q ∧ q < f + n := by
  constructor
  · rintro ⟨hq, hcard⟩
    have hn : 0 < n := by omega
    refine ⟨h.lowest hn q hq, ?_⟩
    by_contra hlt
    -- all frames of the run are below `q`
    have hsub : (Finset.range n).image (f + ·) ⊆ (Finset.range q).filter m.Free := by
      intro g hg
      obtain ⟨i, hi, rfl⟩ := Finset.mem_image.mp hg
      rw [Finset.mem_range] at hi
      exact Finset.mem_filter.mpr ⟨Finset.mem_range.mpr (by omega), h.free i hi⟩
    have := Finset.card_le_card hsub
    rw [Finset.card_image_of_injective _ (add_right_injective f), Finset.card_range] at this
    omega
  · rintro ⟨hf, hlt⟩
    obtain ⟨i, rfl⟩ := Nat.exists_eq_add_of_le hf
    refine ⟨h.free i (by omega), ?_⟩
    have hsub : (Finset.range (f + i)).filter m.Free ⊆ (Finset.range i).image (f + ·) := by
      intro g hg
      rw [Finset.mem_filter, Finset.mem_range] at hg
      have hfg := h.lowest (by omega) g hg.2
      exact Finset.mem_image.mpr ⟨g - f, Finset.mem_range.mpr (by omega), by omega⟩
    have := (Finset.card_le_card hsub).trans Finset.card_image_le
    rw [Finset.card_range] at this
    omega

/-! ## Clearing -/

lemma lookup_zeroFrame_of_present {s : Vm} {d v : ℕ} (h : Present ((s.zeroFrame f).lookup d v)) :
    (s.zeroFrame f).lookup d v = s.lookup d v := by
  have hpde := present_of_lookup h
  by_cases hd : d = f
  · simp [hd, Vm.zeroFrame_mem_same] at hpde
  rw [Vm.zeroFrame_mem_frame _ hd] at hpde
  have hlook : (s.zeroFrame f).lookup d v =
      (s.zeroFrame f).mem (entryFrame (s.mem d (v / 1024))) (v % 1024) := by
    rw [Vm.lookup_of_present (by rwa [Vm.zeroFrame_mem_frame _ hd]), Vm.zeroFrame_mem_frame _ hd]
  by_cases ht : entryFrame (s.mem d (v / 1024)) = f
  · simp [hlook, ht, Vm.zeroFrame_mem_same] at h
  · rw [hlook, Vm.zeroFrame_mem_frame _ ht, Vm.lookup_of_present hpde]

/-- **Clearing addresses** clears the frames that their pages are mapped to. -/
lemma memsetPages_mem {addr d : ℕ} (n i : ℕ) {s s' : Vm} (hd : dirFrame s.active = d)
    (h : memsetPages addr n i s = some s') :
    (s'.pmm = s.pmm ∧ s'.kernelDirectory = s.kernelDirectory ∧
      s'.currentDirectory = s.currentDirectory) ∧
    (∀ j < n, Present (s.lookup d (w32 (addr + (i + j) * 0x1000) / 4096))) ∧
    ∀ g, s'.mem g = if ∃ j < n, entryFrame (s.lookup d (w32 (addr + (i + j) * 0x1000) / 4096)) = g
      then fun _ => 0 else s.mem g := by
  induction n generalizing i s with
  | zero =>
    cases h
    refine ⟨⟨rfl, rfl, rfl⟩, by simp, fun g => ?_⟩
    rw [if_neg]
    rintro ⟨j, hj, -⟩
    exact Nat.not_lt_zero j hj
  | succ n ih =>
    rw [memsetPages, hd] at h
    obtain ⟨t, ht⟩ : ∃ t : ℕ → ℕ, ∀ j, t j = w32 (addr + (i + j) * 0x1000) / 4096 :=
      ⟨_, fun _ => rfl⟩
    have hshift : ∀ j, w32 (addr + (i + 1 + j) * 0x1000) / 4096 = t (j + 1) := by
      intro j
      rw [ht, Nat.add_assoc i, Nat.add_comm 1]
    simp only [← ht] at h ⊢
    have hfirst : w32 (addr + i * 0x1000) / 4096 = t 0 := by rw [ht, Nat.add_zero]
    rw [hfirst] at h
    by_cases hp : Present (s.lookup d (t 0))
    swap
    · rw [if_neg hp] at h
      cases h
    rw [if_pos hp] at h
    obtain ⟨hfields, hpres, hmem⟩ :=
      ih (i + 1) (s := s.zeroFrame (entryFrame (s.lookup d (t 0)))) hd h
    simp only [hshift] at hpres hmem
    have hlook := fun j hj => lookup_zeroFrame_of_present (hpres j hj)
    refine ⟨hfields, fun j hj => ?_, fun g => ?_⟩
    · cases j with
      | zero => exact hp
      | succ j =>
        have := hpres j (by omega)
        rwa [hlook j (by omega)] at this
    · rw [hmem g]
      by_cases hlater : ∃ j < n, entryFrame (s.lookup d (t (j + 1))) = g
      · obtain ⟨j, hj, hg⟩ := hlater
        rw [if_pos ⟨j, hj, by rw [hlook j hj, hg]⟩, if_pos ⟨j + 1, by omega, hg⟩]
      · rw [if_neg fun ⟨j, hj, hg⟩ => hlater ⟨j, hj, by rw [← hlook j hj, hg]⟩]
        by_cases hg : entryFrame (s.lookup d (t 0)) = g
        · rw [if_pos ⟨0, by omega, hg⟩, hg]
          exact funext fun j => Vm.zeroFrame_mem_same s g j
        · rw [Vm.zeroFrame_mem_frame _ (Ne.symm hg), if_neg]
          rintro ⟨j, hj, hgj⟩
          cases j with
          | zero => exact hg hgj
          | succ j => exact hlater ⟨j, by omega, hgj⟩

/-! ## Creating a segment -/

/-- Every word of the frame is zero. -/
def ZeroFrame (s : Vm) (f : ℕ) : Prop := ∀ i < 1024, s.mem f i = 0

/-- The frame that `PHYSICAL_TO_VIRTUAL` of `f` leads to. -/
def directFrame (s : Vm) (f : ℕ) : ℕ :=
  entryFrame (s.lookup (dirFrame s.active) (physicalToVirtual (f * 4096) / 4096))

/-- The frames of the segment were free and are zero, and nothing else is different. -/
structure ClearedFrames (s s' : Vm) (seg : ShmSegment) : Prop where
  aligned : seg.physAddr % 4096 = 0
  free : ∀ i < seg.size / 4096, s.pmm.Free (seg.physAddr / 4096 + i)
  zero : ∀ i < seg.size / 4096, ZeroFrame s' (seg.physAddr / 4096 + i)
  other : ∀ g, (∀ i < seg.size / 4096, g ≠ seg.physAddr / 4096 + i) →
    ∀ i < 1024, s'.mem g i = s.mem g i

/-- The direct map leads from the `n` lowest free frames to all of them that are not zero, and to no
other frame but zero ones. -/
def DirectlyMapped (s : Vm) (n : ℕ) : Prop :=
  (∀ f, Lowest s.pmm n f → ZeroFrame s f ∨ ∃ g, Lowest s.pmm n g ∧ directFrame s g = f) ∧
    ∀ g, Lowest s.pmm n g → Lowest s.pmm n (directFrame s g) ∨ ZeroFrame s (directFrame s g)

lemma signedPages_of_le {size : ℕ} (h : signedPages size ≤ 0x100000) (hsize : size < 0x100000000)
    (haligned : size % 4096 = 0) : size < 0x80000000 ∧ signedPages size = size / 4096 := by
  unfold signedPages sub32 w32 at *
  split_ifs at h ⊢
  · omega
  · omega

lemma alignUp_page (x : ℕ) : alignUp 4096 x < 0x100000000 ∧ alignUp 4096 x % 4096 = 0 := by
  unfold alignUp alignDown w32
  omega

lemma direct_page (f i : ℕ) :
    w32 (physicalToVirtual (f * 4096) + i * 0x1000) = physicalToVirtual ((f + i) * 4096) := by
  unfold physicalToVirtual w32
  omega

lemma findSegment_some {p : ShmSegment → Bool} {st : ShmState} {i : ℕ}
    (h : findSegment p st = some i) : i < maxShmSegments ∧ p (st.segments i) = true := by
  have hp := List.find?_some h
  exact ⟨List.mem_range.mp (List.mem_of_find?_eq_some h), hp⟩

/-- A segment of `n` frames from `f` on was created; cleared were those that the direct map leads
to. -/
structure Creates (st st' : ShmState) (slot f n : ℕ) : Prop where
  slot_lt : slot < maxShmSegments
  unused : (st.segments slot).valid = false
  segments : ∃ seg : ShmSegment, st'.segments = update st.segments slot seg ∧ seg.valid = true ∧
    seg.physAddr = f * 4096 ∧ seg.size = n * 4096 ∧ seg.nattch = 0
  taken : Taken st.vm.pmm st'.vm.pmm f n
  kernelDirectory : st'.vm.kernelDirectory = st.vm.kernelDirectory
  currentDirectory : st'.vm.currentDirectory = st.vm.currentDirectory
  mem : ∀ g, st'.vm.mem g = if ∃ i < n, directFrame st.vm (f + i) = g then fun _ => 0
    else st.vm.mem g

/-- **`sys_shmget`** changes nothing, runs out of frames, or creates a segment. -/
lemma sysShmget_cases {proc : ShmProc} {key size shmflg : ℕ} {id : Except ShmError ℕ}
    {st st' : ShmState} (hcall : sysShmget proc key size shmflg st = some (id, st')) : st' = st ∨
    (∃ n pmm, allocPages n 0 0 st.vm.pmm = (none, pmm) ∧
      st' = { st with vm := { st.vm with pmm := pmm } }) ∨
    ∃ slot f, Creates st st' slot f (alignUp 4096 size / 4096) := by
  unfold sysShmget at hcall
  split at hcall
  · split at hcall
    · cases hcall
      exact .inl rfl
    · cases hcall
      exact .inl rfl
  split at hcall
  · cases hcall
    exact .inl rfl
  split at hcall
  · cases hcall
    exact .inl rfl
  next slot hslot =>
  dsimp only at hcall
  split at hcall
  · next pmm halloc =>
    cases hcall
    exact .inr (.inl ⟨_, pmm, halloc, rfl⟩)
  next physAddr pmm halloc =>
  obtain ⟨vm, hset, hst⟩ := Option.map_eq_some_iff.mp hcall
  cases hst
  obtain ⟨hlt, hunused⟩ := findSegment_some hslot
  obtain ⟨f, rfl, htaken⟩ := allocPages_taken halloc
  obtain ⟨hsize, haligned⟩ := alignUp_page size
  obtain ⟨hsmall, hpages⟩ := signedPages_of_le htaken.le hsize haligned
  obtain ⟨n, hn⟩ : ∃ n, n = alignUp 4096 size / 4096 := ⟨_, rfl⟩
  have hcount : w32 (signedPages (alignUp 4096 size) * 0x1000) / 0x1000 = n := by
    rw [w32]
    omega
  rw [hcount] at hset
  rw [hpages, ← hn] at htaken
  obtain ⟨⟨hpmm, hkernel, hcurrent⟩, -, hmem⟩ := memsetPages_mem n 0 rfl hset
  have hbytes : alignUp 4096 size = n * 4096 := by omega
  rw [← hn]
  refine .inr (.inr ⟨slot, f, hlt, by simpa using hunused, ⟨_, rfl, rfl, rfl, hbytes, rfl⟩, ?_,
    hkernel, hcurrent, fun g => ?_⟩)
  · rw [hpmm]
    exact htaken
  · rw [hmem g]
    refine if_congr (exists_congr fun i => and_congr_right fun _ => ?_) rfl rfl
    rw [Nat.zero_add, direct_page]
    rfl

/-- **A new segment** is cleared, and nothing else is written, exactly when the direct map leads to
its frames. -/
theorem sysShmget_cleared_iff {proc : ShmProc} {key size shmflg slot : ℕ}
    {id : Except ShmError ℕ} {st st' : ShmState}
    (hcall : sysShmget proc key size shmflg st = some (id, st'))
    (hold : (st.segments slot).valid = false) (hnew : (st'.segments slot).valid = true) :
    ClearedFrames st.vm st'.vm (st'.segments slot) ↔
    DirectlyMapped st.vm (alignUp 4096 size / 4096) := by
  rcases sysShmget_cases hcall with hsame | ⟨_, _, -, hsame⟩ | ⟨slot', f, hc⟩
  · rw [hsame, hold] at hnew
    cases hnew
  · rw [hsame, hold] at hnew
    cases hnew
  generalize hn : alignUp 4096 size / 4096 = n at hc ⊢
  obtain ⟨seg, hsegs, -, hphys, hsize, -⟩ := hc.segments
  obtain rfl : slot = slot' := by
    by_contra hne
    rw [hsegs, update_of_ne hne, hold] at hnew
    cases hnew
  have hseg : st'.segments slot = seg := by rw [hsegs, update_self]
  have hfirst : seg.physAddr / 4096 = f := by omega
  have hcount : seg.size / 4096 = n := by omega
  have hlow := hc.taken.lowest_iff
  rw [hseg]
  constructor
  · intro hok
    have hzero := hok.zero
    have hother := hok.other
    simp only [hfirst] at hzero hother
    refine ⟨fun q hq => ?_, fun g hg => ?_⟩
    · -- a frame of the segment that was not cleared is zero only if it was
      rw [hlow] at hq
      by_cases htarget : ∃ i < n, directFrame st.vm (f + i) = q
      · obtain ⟨i, hi, hq⟩ := htarget
        exact .inr ⟨f + i, (hlow _).mpr (by omega), hq⟩
      · left
        obtain ⟨i, rfl⟩ := Nat.exists_eq_add_of_le hq.1
        have := hzero i (by omega)
        unfold ZeroFrame at this ⊢
        rwa [hc.mem, if_neg htarget] at this
    · rw [hlow] at hg
      obtain ⟨i, rfl⟩ := Nat.exists_eq_add_of_le hg.1
      by_cases hin : Lowest st.vm.pmm n (directFrame st.vm (f + i))
      · exact .inl hin
      · right
        intro j hj
        rw [hlow] at hin
        rw [← hother _ (fun i' hi' heq => hin (by omega)) j hj, hc.mem, if_pos ⟨i, by omega, rfl⟩]
  · rintro ⟨hcover, honly⟩
    refine ⟨by omega, ?_, ?_, ?_⟩
    · rw [hfirst, hcount]
      exact hc.taken.free
    · rw [hfirst]
      intro i hi j hj
      rw [hc.mem]
      split_ifs with htarget
      · rfl
      · rcases hcover (f + i) ((hlow _).mpr (by omega)) with hz | ⟨g, hg, hgi⟩
        · exact hz j hj
        · rw [hlow] at hg
          obtain ⟨i', rfl⟩ := Nat.exists_eq_add_of_le hg.1
          exact absurd ⟨i', by omega, hgi⟩ htarget
    · intro g hg j hj
      rw [hc.mem]
      split_ifs with htarget
      · obtain ⟨i, hi, rfl⟩ := htarget
        rcases honly (f + i) ((hlow _).mpr (by omega)) with hin | hz
        · rw [hlow] at hin
          exact absurd (by omega) (hg (directFrame st.vm (f + i) - f) (by omega))
        · exact (hz j hj).symm
      · rfl

/-- 8 MiB are mapped at `KERNEL_VIRTUAL_BASE`; the frames `3` and `0x400` are free. -/
@[irreducible]
def directVm : Vm where
  pmm := ⟨⟨fun i => if i = 0 then 0xF7#8 else if i = 0x80 then 0xFE#8 else 0xFF#8⟩, 0x401, 0x3FF⟩
  mem := fun f i =>
    if f = 1 then if i = 768 then 0x4003 else if i = 769 then 0x2003 else 0
    else if f = 4 then mkEntry (i * 4096) 3
    else if f = 2 then mkEntry ((0x400 + i) * 4096) 3
    else if f = 3 then 7 else 0
  kernelDirectory := 0xC0001000
  currentDirectory := 0xC0001000

/-- No segment yet. -/
def ShmState.start (vm : Vm) : ShmState := ⟨vm, fun _ => ShmSegment.zero, shmBaseAddr, 1⟩

/-- The direct map leads to the frame, which is cleared. -/
theorem sysShmget_cleared_direct : ∃ id st',
    sysShmget ⟨1, 0xC0001000⟩ 7 100 ipcCreat (ShmState.start directVm) = some (id, st') ∧
      (st'.segments 0).valid = true ∧ DirectlyMapped directVm 1 ∧
      ClearedFrames directVm st'.vm (st'.segments 0) := by
  have hvalid : (sysShmget ⟨1, 0xC0001000⟩ 7 100 ipcCreat (ShmState.start directVm)).map
      (fun r => (r.2.segments 0).valid) = some true := by decide +kernel
  obtain ⟨⟨id, st'⟩, hcall, hnew⟩ := Option.map_eq_some_iff.mp hvalid
  have hfirst : ∀ f, Lowest directVm.pmm 1 f → f = 3 := fun f hf =>
    hf.eq_first (by decide +kernel) (by decide +kernel)
  have hlow : Lowest directVm.pmm 1 3 := by decide +kernel
  have hdirect : directFrame directVm 3 = 3 := by decide +kernel
  have hmapped : DirectlyMapped directVm 1 := by
    constructor
    · intro f hf
      obtain rfl := hfirst f hf
      exact .inr ⟨3, hlow, hdirect⟩
    · intro g hg
      obtain rfl := hfirst g hg
      rw [hdirect]
      exact .inl hlow
  exact ⟨id, st', hcall, hnew, hmapped, (sysShmget_cleared_iff hcall rfl hnew).mpr hmapped⟩

/-- The state after `heap_init`, with the header of the first block. -/
def heapInitVm (s : Vm) : Vm :=
  let physPage := (pmmAllocPage s.pmm).1
  let s := (vmmMapPage 0xC0400000 physPage (pagePresent ||| pageWritable)
    { s with pmm := (pmmAllocPage s.pmm).2 }).2
  (s.setWord (physPage / 4096) 0 (4096 - 16)).setWord (physPage / 4096) 1 1

/-- A segment in frame `0x400` wipes out the heap's first header, and is not cleared. -/
theorem sysShmget_clears_heap : ∃ id st',
    sysShmget ⟨1, 0xC0001000⟩ 7 100 ipcCreat (ShmState.start (heapInitVm directVm)) =
    some (id, st') ∧
      (st'.segments 0).valid = true ∧ (st'.segments 0).physAddr = 0x400000 ∧
      (heapInitVm directVm).mem 3 0 = 4080 ∧ st'.vm.mem 3 0 = 0 ∧
      ¬ ClearedFrames (heapInitVm directVm) st'.vm (st'.segments 0) := by
  have hrun : (sysShmget ⟨1, 0xC0001000⟩ 7 100 ipcCreat (ShmState.start (heapInitVm directVm))).map
      (fun r => ((r.2.segments 0).valid, (r.2.segments 0).physAddr, (r.2.segments 0).size,
        r.2.vm.mem 3 0)) = some (true, 0x400000, 4096, 0) := by decide +kernel
  obtain ⟨⟨id, st'⟩, hcall, hvalues⟩ := Option.map_eq_some_iff.mp hrun
  obtain ⟨hnew, hphys, hsize, hmem⟩ : (st'.segments 0).valid = true ∧
      (st'.segments 0).physAddr = 0x400000 ∧ (st'.segments 0).size = 4096 ∧ st'.vm.mem 3 0 = 0 := by
    simpa using hvalues
  have hheap : (heapInitVm directVm).mem 3 0 = 4080 := by decide +kernel
  refine ⟨id, st', hcall, hnew, hphys, hheap, hmem, fun hok => ?_⟩
  have := hok.other 3 (by rw [hphys, hsize]; omega) 0 (by decide)
  rw [hmem, hheap] at this
  cases this

end FrostByte.Ipc
