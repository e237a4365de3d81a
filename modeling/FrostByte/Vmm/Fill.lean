import FrostByte.Vmm.Ownership

/-!
# Clearing runs of pages

Callers of the memory manager that shrink a region go over its pages: a page that is mapped is
unmapped, and its frame is given back.

## Main definitions

* `Visible` — a page that `vmm_get_physical_addr` sees.
* `Unmapped` — what unmapping the visible pages of a set changes.

## Main results

* `unmapPage_spec` — one iteration of such a loop.
* `Unmapped.trans` — how iterations compose.
-/

namespace FrostByte

open Word Function

variable {s s' s₁ s₂ : Vm} {k d v va : ℕ} {live : Set ℕ} {role : ℕ → Role}

/-- Page `u` of `d` is mapped, and not to frame `0`. -/
def Visible (s : Vm) (d u : ℕ) : Prop := Present (s.lookup d u) ∧ entryFrame (s.lookup d u) ≠ 0

instance (s : Vm) (d u : ℕ) : Decidable (Visible s d u) := inferInstanceAs (Decidable (_ ∧ _))

lemma vmmGetPhysicalAddr_page (hr : Ready s live) (hva : va % 4096 = 0) :
    vmmGetPhysicalAddr va s ≠ 0 ↔ Visible s (dirFrame s.active) (va / 4096) := by
  rw [vmmGetPhysicalAddr_eq hr, hva]
  unfold Visible
  split_ifs with hp
  · rw [and_iff_right hp]
    exact ⟨fun h h' => h (by rw [h', Nat.zero_mul]), fun h h' => h (by omega)⟩
  · exact iff_of_false (fun h => h rfl) fun h => hp h.1

/-- The visible pages among `W` have been unmapped in `d`. -/
structure Unmapped (s s' : Vm) (live : Set ℕ) (role : ℕ → Role) (d : ℕ) (W : Set ℕ) : Prop where
  kernelDirectory : s'.kernelDirectory = s.kernelDirectory
  currentDirectory : s'.currentDirectory = s.currentDirectory
  dir : ∀ x ∈ live, s'.mem x = s.mem x
  data : ∀ g, (role g).IsData → s'.mem g = s.mem g
  free : ∀ g, s'.pmm.Free g → s.pmm.Free g ∨ ∃ u ∈ W, Visible s d u ∧ g = entryFrame (s.lookup d u)
  cleared : ∀ x ∈ live, ∀ u, u ∈ W → Visible s d u → s.Shares x d (u / 1024) → s'.lookup x u = 0
  other : ∀ x ∈ live, ∀ u, ¬ (u ∈ W ∧ Visible s d u ∧ s.Shares x d (u / 1024)) →
    s'.lookup x u = s.lookup x u

lemma Unmapped.refl (s : Vm) (live : Set ℕ) (role : ℕ → Role) (d : ℕ) :
    Unmapped s s live role d ∅ :=
  ⟨rfl, rfl, fun _ _ => rfl, fun _ _ => rfl, fun _ h => .inl h, fun _ _ _ h =>
    h.elim, fun _ _ _ _ => rfl⟩

lemma Unmapped.ready {W : Set ℕ} (h : Unmapped s s' live role d W)
    (hr : Ready s live) : Ready s' live ∧ s'.active = s.active :=
  hr.congr h.kernelDirectory h.currentDirectory (by rw [h.dir _ hr.mem])

lemma Unmapped.lookup_of_visible {u : ℕ} {W : Set ℕ} (hd : d ∈ live)
    (h : Unmapped s s' live role d W) (hv : Visible s' d u) : s'.lookup d u = s.lookup d u := by
  apply h.other d hd
  rintro ⟨hu, hvis, hshare⟩
  apply not_present_zero
  rw [← h.cleared d hd u hu hvis hshare]
  exact hv.1

lemma Unmapped.freePage {u pa : ℕ} {W : Set ℕ} (h : Unmapped s s' live role d W) (hu : u ∈ W)
    (hv : Visible s d u) (hpa : pa / 4096 = entryFrame (s.lookup d u)) :
    Unmapped s { s' with pmm := pmmFreePage pa s'.pmm } live role d W := by
  refine ⟨h.kernelDirectory, h.currentDirectory, h.dir, h.data, fun g hg => ?_, h.cleared, h.other⟩
  rcases (pmmFreePage_free_iff _ _ _).mp hg with hg | ⟨hg, -, -⟩
  · exact h.free g hg
  · exact .inr ⟨u, hu, hv, by rw [hg, hpa]⟩

/-- Two loops over sets of pages are one over their union. -/
lemma Unmapped.trans {W₁ W₂ : Set ℕ} (hd : d ∈ live)
    (h1 : Unmapped s s₁ live role d W₁) (h2 : Unmapped s₁ s₂ live role d W₂) :
    Unmapped s s₂ live role d (W₁ ∪ W₂) := by
  have hshare : ∀ x ∈ live, ∀ j, s₁.Shares x d j ↔ s.Shares x d j := by
    intro x hx j
    simp [Vm.Shares, h1.dir x hx, h1.dir d hd]
  have hback : ∀ u, Visible s₁ d u → Visible s d u := by
    intro u hv
    have hsame := h1.lookup_of_visible hd hv
    unfold Visible at hv ⊢
    rw [← hsame]
    exact hv
  have hkeep : ∀ u, Visible s d u → u ∉ W₁ → Visible s₁ d u := by
    intro u hv hu
    have hsame := h1.other d hd u fun hc => hu hc.1
    unfold Visible
    rw [hsame]
    exact hv
  refine ⟨by rw [h2.kernelDirectory, h1.kernelDirectory],
    by rw [h2.currentDirectory, h1.currentDirectory], fun x hx => by rw [h2.dir x hx, h1.dir x hx],
    fun g hg => by rw [h2.data g hg, h1.data g hg], fun g hg => ?_, fun x hx u hu hv hs => ?_,
    fun x hx u hu => ?_⟩
  · rcases h2.free g hg with hg | ⟨u, hu, hv, rfl⟩
    · rcases h1.free g hg with hg | ⟨u, hu, hv, rfl⟩
      · exact .inl hg
      · exact .inr ⟨u, .inl hu, hv, rfl⟩
    · exact .inr ⟨u, .inr hu, hback u hv, by rw [h1.lookup_of_visible hd hv]⟩
  · by_cases hu1 : u ∈ W₁
    · -- cleared by the first run, so the second one does not see it
      have hzero := h1.cleared x hx u hu1 hv hs
      rw [h2.other x hx u, hzero]
      rintro ⟨-, hv', -⟩
      have hpd := present_of_lookup hv.1
      have hself := h1.cleared d hd u hu1 hv ⟨hpd, rfl⟩
      have hp := hv'.1
      simp [hself] at hp
    · exact h2.cleared x hx u (hu.resolve_left hu1) (hkeep u hv hu1) ((hshare x hx _).mpr hs)
  · rw [h2.other x hx u fun hc => hu ⟨.inr hc.1, hback u hc.2.1, (hshare x hx _).mp hc.2.2⟩,
      h1.other x hx u fun hc => hu ⟨.inl hc.1, hc.2⟩]

lemma Cleared.unmapped {pa : ℕ} (h : Cleared s s' live role d v) (hv : Visible s d v)
    (hpa : pa / 4096 = entryFrame (s.lookup d v)) :
    Unmapped s { s' with pmm := pmmFreePage pa s'.pmm } live role d {v} := by
  refine ⟨h.kernelDirectory, h.currentDirectory, h.dir, h.data, fun g hg =>
    ?_, fun x hx u hu _ hs => ?_,
    fun x hx u hu => ?_⟩
  · rcases (pmmFreePage_free_iff _ _ _).mp hg with hg | ⟨hg, -, -⟩
    · rw [h.pmm] at hg
      exact .inl hg
    · exact .inr ⟨v, rfl, hv, by rw [hg, hpa]⟩
  · obtain rfl : u = v := hu
    exact (h.lookup x hx _).trans (if_pos ⟨hv.1, rfl, hs⟩)
  · refine (h.lookup x hx u).trans (if_neg ?_)
    rintro ⟨-, rfl, hs⟩
    exact hu ⟨rfl, hv, hs⟩

/-- One iteration: the page is unmapped if `vmm_get_physical_addr` sees it. -/
lemma unmapPage_spec (ht : Tables s k live role) (hr : Ready s live) (hva : va % 4096 = 0) :
    Unmapped s (if vmmGetPhysicalAddr va s ≠ 0 then (vmmUnmapPage va s).2 else s) live role
      (dirFrame s.active) {va / 4096} := by
  by_cases hv : Visible s (dirFrame s.active) (va / 4096)
  · rw [if_pos ((vmmGetPhysicalAddr_page hr hva).mpr hv)]
    obtain ⟨s1, hc, hclear⟩ := clearEntry_spec ht hr.mem hr va
    rw [if_pos hv.1] at hclear
    unfold vmmUnmapPage
    rw [hclear]
    apply hc.unmapped hv
    unfold alignDown entryFrame
    omega
  · rw [if_neg fun h => hv ((vmmGetPhysicalAddr_page hr hva).mp h)]
    refine ⟨rfl, rfl, fun _ _ => rfl, fun _ _ => rfl, fun _ h => .inl h, fun x hx u hu hv' _ => ?_,
      fun _ _ _ _ => rfl⟩
    obtain rfl : u = va / 4096 := hu
    exact absurd hv' hv

end FrostByte
