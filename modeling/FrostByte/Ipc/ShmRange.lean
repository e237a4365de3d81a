import FrostByte.Ipc.Shm
import FrostByte.Kernel.Uaccess

/-!
# Where shared memory is attached

`sys_shmat` checks neither a requested address nor the counter that it takes other addresses from,
so a segment may be attached over the kernel and over pages that are in use.

## Main definitions

* `AttachesSafely` — the pages are user pages that were free.
* `HasRoom` — there is room at an address.

## Main results

* `sysShmat_safe_iff` — when a segment is attached safely.
* `sysShmat_changes` — the entries that the call changes.
* `sysShmat_over_kernel` — a segment over the kernel.
-/

namespace FrostByte.Ipc

open Word

/-- The segments that the calls find by their identifier. -/
def findShmid (shmid : ℕ) (st : ShmState) : Option ℕ :=
  findSegment (fun x => x.valid && x.shmid == shmid) st

/-- The page of the `i`-th iteration of the mapping loop, whose address is a sum in 32 bits. -/
def pageOf (addr i : ℕ) : ℕ := w32 (addr + i * 0x1000) / 4096

/-- The pages from `addr` on, whose entries the call writes, are page aligned, between the identity
map and the kernel, and not mapped. -/
def AttachesSafely (s : Vm) (d addr pages : ℕ) : Prop := ∀ i < pages,
  w32 (addr + i * 0x1000) % 4096 = 0 ∧ 0x800000 ≤ w32 (addr + i * 0x1000) ∧
    w32 (addr + i * 0x1000) ≤ userVirtualEnd ∧ ¬ Present (s.lookup d (pageOf addr i))

/-- There is room from `addr` on, unless there is no page to attach. -/
def HasRoom (s : Vm) (d addr pages : ℕ) : Prop := 0 < pages →
  addr % 4096 = 0 ∧ 0x800000 ≤ addr ∧ addr + pages * 4096 ≤ 0xC0000000 ∧
    ∀ v, addr / 4096 ≤ v → v < addr / 4096 + pages → ¬ Present (s.lookup d v)

variable {s : Vm} {addr d pages : ℕ}

lemma AttachesSafely.no_wrap (h : AttachesSafely s d addr pages) (haddr : addr < 0x100000000)
    {i : ℕ} (hi : i < pages) : addr + i * 4096 ≤ userVirtualEnd := by
  induction i with
  | zero =>
    have h0 := (h 0 hi).2.2.1
    rwa [Nat.zero_mul, Nat.add_zero, w32_of_lt haddr] at h0
  | succ i ih =>
    -- the page before ends below the kernel, so this sum does not wrap
    have hprev := ih (by omega)
    have hpage := (h (i + 1) hi).2.2.1
    rwa [w32_of_lt (by unfold userVirtualEnd at hprev; omega)] at hpage

lemma attachesSafely_iff (haddr : addr < 0x100000000) :
    AttachesSafely s d addr pages ↔ HasRoom s d addr pages := by
  have hpage : ∀ i, addr + i * 4096 ≤ userVirtualEnd → pageOf addr i = addr / 4096 + i := by
    intro i hi
    unfold pageOf
    rw [w32_of_lt (by unfold userVirtualEnd at hi; omega)]
    omega
  constructor
  · intro h hpos
    have hlast := h.no_wrap haddr (Nat.sub_lt hpos Nat.one_pos)
    obtain ⟨halign, hlow, -⟩ := h 0 hpos
    rw [Nat.zero_mul, Nat.add_zero, w32_of_lt haddr] at halign hlow
    refine ⟨halign, hlow, ?_, fun v hle hlt => ?_⟩
    · have hpages := Nat.div_le_div_right (c := 4096) hlast
      rw [Nat.add_mul_div_right _ _ (by decide), userVirtualEnd] at hpages
      clear hlast
      omega
    obtain ⟨i, rfl⟩ := Nat.exists_eq_add_of_le hle
    have hi : i < pages := by omega
    rw [← hpage i (h.no_wrap haddr hi)]
    exact (h i hi).2.2.2
  · intro h i hi
    obtain ⟨halign, hlow, hhigh, hfree⟩ := h (by omega)
    have hle : addr + i * 4096 ≤ userVirtualEnd :=
      Nat.le_of_lt_succ
        (Nat.lt_of_lt_of_le (by omega : addr + i * 4096 < addr + pages * 4096) hhigh)
    rw [hpage i hle, w32_of_lt (by unfold userVirtualEnd at hle; omega)]
    exact ⟨by omega, by omega, hle, hfree _ (by omega) (by omega)⟩

/-- The pages of a segment. -/
def attachCount (shmid : ℕ) (st : ShmState) : ℕ :=
  (findShmid shmid st).elim 0 fun slot => (st.segments slot).size / 4096

variable {p : ShmProc} {shmid shmaddr shmflg : ℕ} {st st' : ShmState}

/-- A call that succeeds has gone through its loop without a failure. -/
lemma sysShmat_ok (hcall : sysShmat (some p) shmid shmaddr shmflg st = (.ok addr, st')) :
    addr = attachAddr shmaddr shmflg st ∧ p.pageDirectory ≠ 0 ∧ ∃ physAddr,
      attachPages p.pageDirectory addr physAddr (attachFlags shmflg)
      (attachCount shmid st) 0 st.vm =
        (true, st'.vm) := by
  unfold sysShmat at hcall
  dsimp only at hcall
  split at hcall
  · cases hcall
  next slot hslot =>
  have hvm : (if shmaddr ≠ 0 then st else { st with
      nextShmVirt :=
      alignUp 4096 (w32 (st.nextShmVirt + (st.segments slot).size)) }).vm = st.vm := by
    split_ifs <;> rfl
  by_cases hp : p.pageDirectory = 0
  · rw [if_pos hp] at hcall
    cases hcall
  · rw [if_neg hp, hvm] at hcall
    split at hcall
    · cases hcall
    next vm hpages =>
      cases hcall
      refine ⟨rfl, hp, (st.segments slot).physAddr, ?_⟩
      rw [attachCount, findShmid, hslot]
      exact hpages

/-- **Where `sys_shmat` attaches a segment**: safely exactly when there is room at the address asked
for, or else at the counter. -/
theorem sysShmat_safe_iff (hshmaddr : shmaddr < 0x100000000) (hvirt : st.nextShmVirt < 0x100000000)
    (hcall : sysShmat (some p) shmid shmaddr shmflg st = (.ok addr, st')) :
    AttachesSafely st.vm (dirFrame p.pageDirectory) addr (attachCount shmid st) ↔
      HasRoom st.vm (dirFrame p.pageDirectory)
        (if shmaddr = 0 then st.nextShmVirt else if shmflg &&& shmRnd =
          0 then shmaddr else alignDown 4096 shmaddr)
        (attachCount shmid st) := by
  have haddr : addr = if shmaddr = 0 then st.nextShmVirt
      else if shmflg &&& shmRnd = 0 then shmaddr else alignDown 4096 shmaddr := by
    rw [(sysShmat_ok hcall).1, attachAddr]
    simp [ite_not]
  rw [← haddr]
  refine attachesSafely_iff ?_
  rw [haddr]
  split_ifs
  · exact hvirt
  · exact hshmaddr
  · unfold alignDown
    omega

/-- The mapping loop changes the entries of its pages only, by induction on the pages to go: each
round is a call of `vmm_map_page_in_directory`, which changes one entry of the directory. -/
lemma attachPages_lookup {dir physAddr flags k v : ℕ} {live : Set ℕ} (hdir : dir ≠ 0)
    (hd : dirFrame dir ∈ live) (n i : ℕ) {role : ℕ → Role} {s s' : Vm} (hs : Sep s k live role)
    (hr : Ready s live) (h : attachPages dir addr physAddr flags n i s = (true, s'))
    (hv : ∀ j, i ≤ j → j < i + n → v ≠ pageOf addr j) :
    s'.lookup (dirFrame dir) v = s.lookup (dirFrame dir) v := by
  induction n generalizing i role s with
  | zero =>
    cases h
    rfl
  | succ n ih =>
    obtain ⟨ok, s₁, role₁, hmap, hm⟩ := mapPage_spec hs hd hr.reachable (fun _ m => m)
      (w32 (addr + i * 0x1000)) (w32 (physAddr + i * 0x1000)) flags
    rw [attachPages, vmmMapPageInDirectory, if_neg hdir, hmap] at h
    cases ok with
    | false => cases h
    | true =>
      rw [ih (i + 1) hm.grows.sep (hm.grows.ready hr) h fun j hj hlt => hv j (by omega) (by omega),
        hm.lookup rfl _ hd v, if_neg fun hw => hv i le_rfl (by omega) hw.1]

/-- **The entries that `sys_shmat` changes** belong to user pages that were not mapped, where it
attaches safely. -/
theorem sysShmat_changes {k v : ℕ} {live : Set ℕ} {role : ℕ → Role} (hs : Sep st.vm k live role)
    (hr : Ready st.vm live) (hd : dirFrame p.pageDirectory ∈ live)
    (hcall : sysShmat (some p) shmid shmaddr shmflg st = (.ok addr, st'))
    (hsafe : AttachesSafely st.vm (dirFrame p.pageDirectory) addr (attachCount shmid st))
    (hv : st'.vm.lookup (dirFrame p.pageDirectory) v ≠ st.vm.lookup (dirFrame p.pageDirectory) v) :
    0x800 ≤ v ∧ v < 0xC0000 ∧ ¬ Present (st.vm.lookup (dirFrame p.pageDirectory) v) := by
  obtain ⟨-, hdir, physAddr, hpages⟩ := sysShmat_ok hcall
  by_contra hno
  refine hv (attachPages_lookup hdir hd _ 0 hs hr hpages fun i _ hi => ?_)
  rintro rfl
  obtain ⟨-, hlow, hhigh, hfree⟩ := hsafe i (by omega)
  refine hno ⟨?_, ?_, hfree⟩
  · unfold pageOf
    omega
  · unfold pageOf
    unfold userVirtualEnd at hhigh
    omega

/-- The directories in frames `1` and `2` share the page tables in `3` and `4`. The frames from `5`
on are free. -/
@[irreducible]
def sharedVm : Vm where
  pmm := ⟨⟨fun i => if i = 0 then 0x1F#8 else 0⟩, 16, 5⟩
  mem := fun f i =>
    if f = 1 ∨ f = 2 then if i = 1 then 0x3003 else if i = 768 then 0x4003 else 0
    else if f = 4 then mkEntry (i * 4096) 3 else 0
  kernelDirectory := 0xC0001000
  currentDirectory := 0xC0002000

/-- A process whose directory is the one in frame `2`. -/
def ShmProc.first : ShmProc := ⟨1, 0xC0002000⟩

/-- The state after the process has created a segment of one page. -/
def shmCreated : ShmState :=
  ((sysShmget .first 7 100 ipcCreat (ShmState.start sharedVm)).map Prod.snd).getD (.start sharedVm)

/-- One page at the start of the counter. -/
theorem sysShmat_safe_created :
    ∃ st', sysShmat (some .first) 1 0 0 shmCreated = (.ok 0xB0000000, st') ∧
    AttachesSafely shmCreated.vm 2 0xB0000000 (attachCount 1 shmCreated) := by
  have hcall : sysShmat (some .first) 1 0 0 shmCreated =
    (.ok 0xB0000000, (sysShmat (some .first) 1 0 0 shmCreated).2) :=
    Prod.ext (by decide +kernel) rfl
  have hvalues : attachCount 1 shmCreated = 1 ∧ shmCreated.nextShmVirt = 0xB0000000 ∧
      ¬ Present (shmCreated.vm.lookup 2 0xB0000) := by decide +kernel
  refine ⟨_, hcall, (sysShmat_safe_iff (by decide) (by rw [hvalues.2.1]; decide) hcall).mpr ?_⟩
  rw [if_pos rfl, hvalues.1, hvalues.2.1]
  intro _
  refine ⟨by decide, by decide, by decide, fun v hle hlt => ?_⟩
  obtain rfl : v = 0xB0000 := by omega
  exact hvalues.2.2

/-- The process asks for an address of the kernel, and gets it. -/
theorem sysShmat_over_kernel :
    (sysShmat (some .first) 1 0xC0000000 0 shmCreated).1 =
    .ok 0xC0000000 ∧ ¬ AttachesSafely shmCreated.vm 2 0xC0000000 (attachCount 1 shmCreated) := by
  refine ⟨by decide +kernel, fun h => ?_⟩
  have hcount : attachCount 1 shmCreated = 1 := by decide +kernel
  have hhigh := (h 0 (by rw [hcount]; decide)).2.2.1
  exact absurd hhigh (by decide)

end FrostByte.Ipc
