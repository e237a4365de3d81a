import FrostByte.Vmm.Separation

/-!
# Memory accesses through a page directory

What the processor does with a virtual address: translate it by the directory in use, then read or
write a byte of the frame found. A missing translation is a page fault, here `none`.

## Main definitions

* `Vm.translate` — the translation by a directory.
* `memcpyFrom`, `memcpyTo` — copies by the kernel, byte by byte.

## Main results

* `memcpyFrom_eq`, `memcpyTo_spec` — what they read and change.
-/

namespace FrostByte

open Word

/-- A byte of a word. -/
def getByte (w k : ℕ) : ℕ := w / 256 ^ k % 256

/-- A word with another byte. -/
def setByte (w k b : ℕ) : ℕ := w / 256 ^ (k + 1) * 256 ^ (k + 1) + b * 256 ^ k + w % 256 ^ k

lemma getByte_setByte_of_ne {w k j b : ℕ} (hk : k < 4) (hj : j < 4) (hb : b < 256) (h : j ≠ k) :
    getByte (setByte w k b) j = getByte w j := by
  unfold getByte setByte
  interval_cases k <;> interval_cases j <;> first | exact absurd rfl h | omega

/-- Both levels let user mode access page `v`, for writing if `write` is set. -/
def UserAccessible (s : Vm) (d v : ℕ) (write : Bool) : Prop :=
  Present (s.mem d (v / 1024)) ∧ Present (s.lookup d v) ∧
    s.mem d (v / 1024) &&& pageUser ≠ 0 ∧ s.lookup d v &&& pageUser ≠ 0 ∧
    (write = true → s.mem d (v / 1024) &&& pageWritable ≠ 0 ∧ s.lookup d v &&& pageWritable ≠ 0)

namespace Vm

/-- The physical address of `va` in the directory `d`. -/
def translate (s : Vm) (d va : ℕ) : Option ℕ :=
  if Present (s.lookup d (va / 4096)) then
    some (entryFrame (s.lookup d (va / 4096)) * 4096 + va % 4096)
  else none

/-- A byte of physical memory. -/
def loadByte (s : Vm) (pa : ℕ) : ℕ := getByte (s.mem (pa / 4096) (pa % 4096 / 4)) (pa % 4)

/-- A byte of physical memory is written. -/
def storeByte (s : Vm) (pa b : ℕ) : Vm :=
  s.setWord (pa / 4096) (pa % 4096 / 4) (setByte (s.mem (pa / 4096) (pa % 4096 / 4)) (pa % 4) b)

/-- A byte read through the directory in use. -/
def load (s : Vm) (va : ℕ) : Option ℕ := (s.translate (dirFrame s.active) va).map s.loadByte

/-- A byte written through the directory in use. -/
def store (s : Vm) (va b : ℕ) : Option Vm :=
  (s.translate (dirFrame s.active) va).map fun pa => s.storeByte pa b

lemma translate_of_present {s : Vm} {d va : ℕ} (h : Present (s.lookup d (va / 4096))) :
    s.translate d va = some (entryFrame (s.lookup d (va / 4096)) * 4096 + va % 4096) := if_pos h

lemma loadByte_storeByte_of_ne (s : Vm) {pa qa b : ℕ} (hb : b < 256) (h : qa ≠ pa) :
    (s.storeByte pa b).loadByte qa = s.loadByte qa := by
  unfold loadByte storeByte
  by_cases hf : qa / 4096 = pa / 4096
  · rw [hf]
    by_cases hi : qa % 4096 / 4 = pa % 4096 / 4
    · rw [hi, setWord_mem_same]
      exact getByte_setByte_of_ne (Nat.mod_lt _ (by decide)) (Nat.mod_lt _ (by decide)) hb
        (by omega)
    · rw [setWord_mem_index _ _ hi]
  · rw [setWord_mem_frame _ _ hf]

end Vm

/-! ## Copying -/

/-- `memcpy` from `n` bytes at the virtual address `va` into a buffer. -/
def memcpyFrom (s : Vm) : ℕ → ℕ → Option (List ℕ)
  | 0, _ => some []
  | n + 1, va => (s.load va).bind fun b => (memcpyFrom s n (w32 (va + 1))).map (b :: ·)

/-- `memcpy` of the bytes of a buffer to the virtual address `va`. -/
def memcpyTo : List ℕ → ℕ → Vm → Option Vm
  | [], _, s => some s
  | b :: bs, va, s => (s.store va b).bind (memcpyTo bs (w32 (va + 1)))

/-- The frames that translation in `d` reads. -/
def PagingFrame (s : Vm) (d f : ℕ) : Prop :=
  f = d ∨ ∃ i, Present (s.mem d i) ∧ f = entryFrame (s.mem d i)

lemma lookup_storeByte {s : Vm} {d pa : ℕ} (h : ¬ PagingFrame s d (pa / 4096)) (b v : ℕ) :
    (s.storeByte pa b).mem d = s.mem d ∧ (s.storeByte pa b).lookup d v = s.lookup d v := by
  have hd : (s.storeByte pa b).mem d = s.mem d :=
    Vm.setWord_mem_frame _ _ fun hd => h (.inl hd.symm)
  refine ⟨hd, ?_⟩
  by_cases hp : Present (s.mem d (v / 1024))
  · rw [Vm.lookup_of_present hp, Vm.lookup_of_present (by rwa [hd]), hd, Vm.storeByte,
      Vm.setWord_mem_frame]
    exact fun hf => h (.inr ⟨v / 1024, hp, hf.symm⟩)
  · rw [Vm.lookup_of_not_present hp, Vm.lookup_of_not_present (by rwa [hd])]

/-- A copy from mapped pages has the bytes that the directory leads to. -/
lemma memcpyFrom_eq {s : Vm} (n va : ℕ) (hwrap : va + n < 0x100000000)
    (hp : ∀ i < n, Present (s.lookup (dirFrame s.active) ((va + i) / 4096))) :
    ∃ bytes : List ℕ, memcpyFrom s n va = some bytes ∧ bytes.length = n ∧
      ∀ i (hi : i < bytes.length), ∃ pa, s.translate (dirFrame s.active) (va + i) = some pa ∧
        bytes.get ⟨i, hi⟩ = s.loadByte pa := by
  induction n generalizing va with
  | zero => exact ⟨[], rfl, rfl, by simp⟩
  | succ n ih =>
    have hfirst := Vm.translate_of_present (hp 0 (Nat.succ_pos n))
    rw [Nat.add_zero] at hfirst
    obtain ⟨bytes, hrest, hlen, hbytes⟩ := ih (va + 1) (by omega) fun i hi => by
      rw [Nat.add_assoc, Nat.add_comm 1]
      exact hp (i + 1) (by omega)
    refine ⟨s.loadByte (entryFrame (s.lookup (dirFrame s.active) (va / 4096)) * 4096 + va % 4096) ::
      bytes, ?_, ?_, ?_⟩
    · rw [memcpyFrom, Vm.load, hfirst, w32_of_lt (by omega), hrest]
      rfl
    · simp [hlen]
    · intro i hi
      cases i with
      | zero => exact ⟨_, hfirst, rfl⟩
      | succ i =>
        obtain ⟨pa, hpa, hb⟩ := hbytes i (by simpa using hi)
        exact ⟨pa, by rw [← hpa, Nat.add_assoc, Nat.add_comm 1], by simpa using hb⟩

/-- A copy to mapped pages changes bytes of these pages only, and no translation, if none of them is
a paging structure. -/
lemma memcpyTo_spec (bs : List ℕ) (va : ℕ) {s : Vm} {d : ℕ} (hd : dirFrame s.active = d)
    (hbyte : ∀ b ∈ bs, b < 256) (hwrap : va + bs.length < 0x100000000)
    (hp : ∀ i < bs.length, Present (s.lookup d ((va + i) / 4096)))
    (hdata : ∀ i < bs.length, ¬ PagingFrame s d (entryFrame (s.lookup d ((va + i) / 4096)))) :
    ∃ s', memcpyTo bs va s = some s' ∧ s'.pmm = s.pmm ∧
      s'.currentDirectory = s.currentDirectory ∧ s'.kernelDirectory = s.kernelDirectory ∧
      (∀ v, s'.lookup d v = s.lookup d v) ∧
      ∀ pa, (∀ i < bs.length, s.translate d (va + i) ≠ some pa) →
      s'.loadByte pa = s.loadByte pa := by
  induction bs generalizing s va with
  | nil => exact ⟨s, rfl, rfl, rfl, rfl, fun _ => rfl, fun _ _ => rfl⟩
  | cons b bs ih =>
    rw [List.length_cons] at hwrap hp hdata
    have hfirst := Vm.translate_of_present (hp 0 (Nat.succ_pos _))
    have hdata0 := hdata 0 (Nat.succ_pos _)
    rw [Nat.add_zero] at hfirst hdata0
    obtain ⟨pa0, hpa0⟩ : ∃ pa0, pa0 = entryFrame (s.lookup d (va / 4096)) * 4096 + va % 4096 :=
      ⟨_, rfl⟩
    have hframe : pa0 / 4096 = entryFrame (s.lookup d (va / 4096)) := by omega
    rw [← hpa0] at hfirst
    rw [← hframe] at hdata0
    have hstore := fun v => lookup_storeByte hdata0 b v
    have hpaging : ∀ f, PagingFrame (s.storeByte pa0 b) d f ↔ PagingFrame s d f := by
      intro f
      simp [PagingFrame, (hstore 0).1]
    have hshift : ∀ i, va + 1 + i = va + (i + 1) := fun i => by omega
    obtain ⟨s', hcopy, hpmm, hcur, hkernel, hlook, hload⟩ := ih (va + 1)
      (s := s.storeByte pa0 b) hd (fun b' hb' => hbyte b' (.tail _ hb')) (by omega)
      (fun i hi => by
        rw [(hstore _).2, hshift]
        exact hp (i + 1) (by omega))
      (fun i hi => by
        rw [(hstore _).2, hpaging, hshift]
        exact hdata (i + 1) (by omega))
    refine ⟨s', ?_, hpmm, hcur, hkernel, fun v => ?_, fun pa hpa => ?_⟩
    · rw [memcpyTo, Vm.store, hd, hfirst, w32_of_lt (by omega)]
      exact hcopy
    · rw [hlook v, (hstore v).2]
    · have hne : pa ≠ pa0 := by
        rintro rfl
        exact hpa 0 (Nat.succ_pos _) hfirst
      rw [hload pa fun i hi => ?_, Vm.loadByte_storeByte_of_ne _ (hbyte b List.mem_cons_self) hne]
      have := hpa (i + 1) (by simpa using hi)
      rwa [Vm.translate, hshift, (hstore _).2]

end FrostByte
