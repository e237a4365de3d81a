import FrostByte.Vmm.Directory

/-!
# Ownership of mapped frames

A user page of a live directory is backed by a frame that belongs to this page alone, or by a frame
of shared or reserved memory. So a frame that is free is not mapped.

## Main definitions

* `Role.Backs` — frames that may be behind a user page.
* `Fresh` — a directory whose user pages have their own frames.

## Main results

* `allocMap_cases` — a frame that is taken and mapped.
* `Fresh.fill`, `Fresh.zero` — such frames may be written.
-/

namespace FrostByte

open Word

variable {s : Vm} {k : ℕ} {live : Set ℕ} {role : ℕ → Role}

/-! ## Lookups and data -/

lemma Tables.lookup_data {s' : Vm} (hs : Tables s k live role)
    (hmem : ∀ g, ¬ (role g).IsData → s'.mem g = s.mem g) {x : ℕ} (hx : x ∈ live) (u : ℕ) :
    s'.lookup x u = s.lookup x u := by
  have hdir : s'.mem x = s.mem x := hmem x (by rw [hs.dir x hx]; exact id)
  by_cases hp : Present (s.mem x (u / 1024))
  · obtain ⟨o, ho⟩ := hs.table_index hx hp
    rw [Vm.lookup_of_present hp, Vm.lookup_of_present (by rwa [hdir]), hdir,
      hmem _ (by rw [ho]; exact id)]
  · rw [Vm.lookup_of_not_present hp, Vm.lookup_of_not_present (by rwa [hdir])]

/-- The role of a frame that may back page `v` of the directory `d`. -/
def Role.Backs (r : Role) (d v : ℕ) : Prop := r = .page d v ∨ (∃ slot, r = .shm slot) ∨
    r = .reserved

lemma Role.Backs.isData {r : Role} {d v : ℕ} (h : r.Backs d v) : r.IsData := by
  rcases h with rfl | ⟨slot, rfl⟩ | rfl
  · exact trivial
  · exact trivial
  · exact trivial

/-! ## Mapping a fresh frame -/

/-- The role of a frame that is mapped at a page. -/
def frameRole (d v : ℕ) : Role := if KernelIndex (v / 1024) then .held else .page d v

lemma frameRole_isData (d v : ℕ) : (frameRole d v).IsData := by
  unfold frameRole
  split_ifs
  · exact trivial
  · exact trivial

/-- The free frame `f` has been mapped, with the entry `w`, at page `v` of `d`. -/
structure Fresh (s s' : Vm) (k : ℕ) (live : Set ℕ) (role role' : ℕ → Role) (d v f w : ℕ) :
    Prop where
  fresh : s.pmm.Free f
  grows : Grows s s' k live role role'
  frame : role' f = frameRole d v
  used : ¬ s'.pmm.Free f
  card : s.pmm.freeFrames.card =
    s'.pmm.freeFrames.card + 1 + if Present (s.mem d (v / 1024)) then 0 else 1
  pde : ∀ x ∈ live, ∀ j, ¬ (x = d ∧ j = v / 1024) → s'.mem x j = s.mem x j
  present : Present (s'.mem d (v / 1024))
  lookup : ∀ x ∈ live, ∀ u, s'.lookup x u =
    if u = v ∧ s'.Shares x d (v / 1024) then w else s.lookup x u

/-- **Taking a frame and mapping it** in the directory `d`. -/
lemma allocMapPage_cases (hs : Sep s k live role) (hr : Ready s live) (h0 : ¬ s.pmm.Free 0) {d : ℕ}
    (hd : d ∈ live) (drop : ℕ → Pmm → Pmm) (va flags : ℕ) :
    (s.pmm.freeFrames.card = 0 ∧ (pmmAllocPage s.pmm).1 = 0 ∧
      ∀ g, ¬ (pmmAllocPage s.pmm).2.Free g) ∨
    ∃ f, f ≠ 0 ∧ (pmmAllocPage s.pmm).1 = f * 4096 ∧ s.pmm.Free f ∧ ∃ ok s' role',
      mapPage Vm.canMapPt drop d va (f * 4096) flags { s with pmm := (pmmAllocPage s.pmm).2 } =
        (ok, s') ∧
      (ok = false → s.pmm.freeFrames.card = 1 ∧ ¬ Present (s.mem d (va / 4096 / 1024)) ∧
        Grows s s' k live role role' ∧ s'.mem = s.mem ∧ role' f = frameRole d (va / 4096)) ∧
      (ok = true → Fresh s s' k live role role' d (va / 4096) f (mkEntry (f * 4096) flags)) := by
  obtain ⟨htotal, halloc⟩ := pmmAllocPage_spec s.pmm
  rcases halloc with ⟨hzero, -, hno⟩ | ⟨f, hf0, haddr, hf, hfree⟩
  · left
    have hnone : ∀ q, ¬ s.pmm.Free q := hno.resolve_left h0
    have hempty : s.pmm.freeFrames = ∅ := by
      ext q
      simp [hnone q]
    refine ⟨by rw [hempty]; rfl, hzero, fun g hg => ?_⟩
    exact hnone g (pmmAllocPage_free_le s.pmm g hg)
  · right
    have hclaim := Grows.claim hs hf hfree htotal (frameRole d (va / 4096))
    obtain ⟨s1, hs1⟩ : ∃ s1 : Vm, s1 = { s with pmm := (pmmAllocPage s.pmm).2 } := ⟨_, rfl⟩
    rw [← hs1] at hclaim
    obtain ⟨ok, s2, role2, hmap, hm⟩ := mapPage_spec hclaim.sep hd (hclaim.ready hr).reachable
      drop va (f * 4096) flags
    have hgrow := hclaim.trans hm.grows
    have hframe : role2 f = frameRole d (va / 4096) := by
      have hself : Function.update role f (frameRole d (va / 4096)) f =
        frameRole d (va / 4096) := Function.update_self _ _ _
      rw [hm.grows.roles f (by rw [hself]; exact (frameRole_isData _ _).ne_free), hself]
    have hcard1 : s.pmm.freeFrames.card = s1.pmm.freeFrames.card + 1 := by
      rw [hs1]
      exact card_freeFrames_of_ne_zero (by omega)
    have hfree1 : ∀ q, s1.pmm.Free q ↔ s.pmm.Free q ∧ q ≠ f := by
      rw [hs1]
      exact hfree
    have hmem1 : s1.mem = s.mem := by rw [hs1]
    refine ⟨f, hf0, haddr, hf, ok, s2, role2, by rw [← hs1]; exact hmap, fun hok => ?_,
      fun hok => ?_⟩
    · subst hok
      have hp1 : ¬ Present (s.mem d (va / 4096 / 1024)) := by
        intro hp1
        rw [← hmem1] at hp1
        have := hm.ok_iff.mpr (.inl hp1)
        cases this
      have hnone : s1.pmm.freeFrames.card = 0 := by
        by_contra hne
        have := hm.ok_of_free (fun h => h0 ((hfree1 0).mp h).1) (Nat.pos_of_ne_zero hne)
        cases this
      exact ⟨by omega, hp1, hgrow, by rw [hm.fail rfl, hs1], hframe⟩
    · subst hok
      refine ⟨hf, hgrow, hframe, fun h => ?_, ?_, fun x hx j hxj => ?_, hm.present rfl,
        fun x hx u => ?_⟩
      · exact ((hfree1 f).mp (hm.grows.free f h)).2 rfl
      · rw [hcard1, hm.pmm, hmem1]
        by_cases hpd : Present (s.mem d (va / 4096 / 1024))
        · rw [if_pos hpd, if_pos hpd]
        · rw [if_neg hpd, if_neg hpd]
          have hne := (hm.ok_iff.mp rfl).resolve_left (by rw [hmem1]; exact hpd)
          have := card_freeFrames_of_ne_zero hne
          omega
      · rw [hm.pde x hx j hxj, hmem1]
      · rw [hm.lookup rfl x hx u, Vm.lookup_of_mem_eq hmem1]

/-- A frame is taken and mapped; this fails only when there is no frame left for it or for a
table. -/
lemma allocMap_cases (hs : Sep s k live role) (hr : Ready s live) (h0 : ¬ s.pmm.Free 0) {p : ℕ}
    (hp : p ≠ 0) (hd : dirFrame p ∈ live) (va flags : ℕ) :
    (s.pmm.freeFrames.card = 0 ∧ (pmmAllocPage s.pmm).1 = 0 ∧
      ∀ g, ¬ (pmmAllocPage s.pmm).2.Free g) ∨
    ∃ f, f ≠ 0 ∧ (pmmAllocPage s.pmm).1 = f * 4096 ∧ s.pmm.Free f ∧ ∃ ok s' role',
      vmmMapPageInDirectory p va (f * 4096) flags { s with pmm := (pmmAllocPage s.pmm).2 } =
        (ok, s') ∧
      (ok = false → s.pmm.freeFrames.card = 1 ∧
        ¬ Present (s.mem (dirFrame p) (va / 4096 / 1024)) ∧
        Grows s s' k live role role' ∧ s'.mem = s.mem ∧
        role' f = frameRole (dirFrame p) (va / 4096)) ∧
      (ok = true → Fresh s s' k live role role' (dirFrame p) (va / 4096) f
        (mkEntry (f * 4096) flags)) := by
  simp only [vmmMapPageInDirectory, if_neg hp]
  exact allocMapPage_cases hs hr h0 hd _ va flags

section

variable {s' : Vm} {role' : ℕ → Role} {d v f w : ℕ} (hs : Sep s k live role) (hd : d ∈ live)
    (h : Fresh s s' k live role role' d v f w)

include hs hd h

/-- The new frame may be filled: it is not a paging structure, so no translation depends on it. -/
lemma Fresh.fill (words : ℕ → ℕ) : Fresh s (s'.setFrame f words) k live role role' d v f w := by
  have hdata : (role' f).IsData := by
    rw [h.frame]
    exact frameRole_isData d v
  have hmem : ∀ g, ¬ (role' g).IsData → (s'.setFrame f words).mem g = s'.mem g := by
    intro g hg
    refine Vm.setFrame_mem_frame _ _ ?_
    rintro rfl
    exact hg hdata
  have hdir : ∀ x ∈ live, (s'.setFrame f words).mem x = s'.mem x := fun x hx =>
    hmem x (by rw [h.grows.sep.dir x hx]; exact id)
  have hg := h.grows
  refine ⟨h.fresh, ⟨hg.sep.congr (fun _ hf => hf) hdir, hg.roles, hg.free, hg.totalPages,
    hg.kernelDirectory, hg.currentDirectory, fun x hx j hp => ?_, fun g hgd => ?_⟩, h.frame, h.used,
    h.card, fun x hx j hxj => ?_, ?_, fun x hx u => ?_⟩
  · rw [hdir x hx, hg.pde x hx j hp]
  · rw [Vm.setFrame_mem_frame, hg.data g hgd]
    rintro rfl
    exact hgd.ne_free (hs.free _ h.fresh)
  · rw [hdir x hx, h.pde x hx j hxj]
  · rw [hdir d hd]
    exact h.present
  · rw [hg.sep.lookup_data hmem hx u, h.lookup x hx u]
    refine if_congr ?_ rfl rfl
    simp [Vm.Shares, hdir x hx, hdir d hd]

/-- The new frame may be cleared. -/
lemma Fresh.zero : Fresh s (s'.zeroFrame f) k live role role' d v f w := h.fill hs hd fun _ => 0

end

end FrostByte
