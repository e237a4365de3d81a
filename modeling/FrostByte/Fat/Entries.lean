import FrostByte.Fat.FileData

/-!
# The table with any content

`fat32_set_fat_entry` as a store of one entry in several tables, and `fat32_free_cluster_chain` on
links that need not form chains.

## Main definitions

* `StoresEntry` — an entry of the table has a new value, and the copies stay equal.

## Main results

* `setFatEntry_stores` — storing an entry changes no other one.
* `setFatEntry_loses_bits` — the upper bits of an unequal copy are overwritten.
* `freeClusterChain_terminates` — freeing ends whatever the links are.
-/

namespace FrostByte.Fat32

open Word Function Mount

variable {v w : Volume} {c x : ℕ}

/-! ## Storing an entry -/

/-- The tables have the same bytes. -/
def EqualCopies (v : Volume) : Prop := ∀ i < v.mount.numFats.toNat,
    ∀ k < v.mount.fatSize32.toNat * 512,
  v.disk (v.mount.copyByte i k) = v.disk (v.mount.copyByte 0 k)

/-- Entry `c` has been stored. The other tables get the sector of the first one. -/
structure StoresEntry (v w : Volume) (c x : ℕ) : Prop where
  entry : getFatEntry w c = x % 2 ^ 28
  others : ∀ d, d ≠ c → getFatEntry w d = getFatEntry v d
  topBits : ∀ d, d * 4 + 4 ≤ v.mount.fatSize32.toNat * 512 →
    w.disk.word (v.mount.entryAddr d) >>> 28 = v.disk.word (v.mount.entryAddr d) >>> 28
  mirrored : ∀ i < v.mount.numFats.toNat, ∀ k < v.mount.fatSize32.toNat * 512,
    w.disk (v.mount.copyByte i k) =
    if k / 512 = c * 4 / 512 then w.disk (v.mount.copyByte 0 k) else v.disk (v.mount.copyByte i k)
  outside : ∀ a, a < v.mount.fatBeginLba * 512 ∨ v.mount.clusterBeginLba * 512 ≤ a →
    w.disk a = v.disk a
  copies : EqualCopies v → EqualCopies w

lemma shiftRight_masked {e : ℕ} (he : e < 2 ^ 32) (x : ℕ) :
    (e &&& 0xF0000000 ||| x &&& 0x0FFFFFFF) >>> 28 = e >>> 28 := by
  rw [Nat.shiftRight_or_distrib, Nat.shiftRight_and_distrib, Nat.shiftRight_and_distrib]
  have hlt : e >>> 28 < 2 ^ 4 := by
    rw [Nat.shiftRight_eq_div_pow]
    omega
  simpa using Nat.and_two_pow_sub_one_of_lt_two_pow hlt

/-- **Storing an entry**: only this entry of the first table changes, its four upper bits are kept,
and equal tables stay equal. -/
theorem setFatEntry_stores (h : setFatEntry v c x = some w) : StoresEntry v w c x := by
  have hc := mem_clusters_of_set h
  have hpos := v.mount.numFats_pos
  obtain ⟨disk, hset, -, hentry⟩ := setFatEntry_spec hc x
  obtain ⟨_, hset', hout, hcopy⟩ := setFatEntry_disk hc x
  obtain rfl := Option.some.inj (hset.symm.trans h)
  cases hset'.symm.trans h
  have hmirror : ∀ i < v.mount.numFats.toNat, ∀ k < v.mount.fatSize32.toNat * 512,
      disk (v.mount.copyByte i k) = if k / 512 = c * 4 / 512 then disk (v.mount.copyByte 0 k)
        else v.disk (v.mount.copyByte i k) := by
    intro i hi k hk
    rw [hcopy i hi k hk, hcopy 0 hpos k hk]
    split_ifs <;> rfl
  refine ⟨?_, fun d hd => ?_, fun d hd => ?_, hmirror, hout, fun heq i hi k hk => ?_⟩
  · rw [hentry, update_self]
    exact Nat.and_two_pow_sub_one_eq_mod x 28
  · rw [hentry, update_of_ne hd]
  · rw [setFatEntry_word h hd]
    split_ifs with hdc
    · rw [hdc, shiftRight_masked (Buffer.word_lt _)]
    · rfl
  · have hfirst := hmirror 0 hpos k hk
    refine (hmirror i hi k hk).trans ?_
    split_ifs at hfirst ⊢
    · rfl
    · exact (heq i hi k hk).trans hfirst.symm

/-- Entry 2 of an empty volume gets 3 as its value. -/
theorem setFatEntry_stores_next :
    ∃ w, setFatEntry emptyVolume 2 3 = some w ∧ StoresEntry emptyVolume w 2 3 := by
  obtain ⟨disk, hset, -⟩ := setFatEntry_spec (v := emptyVolume) (c := 2) (by decide +kernel) 3
  exact ⟨_, hset, setFatEntry_stores hset⟩

/-- Entry 2 of the second table has upper bits, which are lost. -/
theorem setFatEntry_loses_bits : ∃ v : Volume, v.mount = smallMount ∧
    v.disk.word (smallMount.copyByte 1 8) >>> 28 = 1 ∧
    (setFatEntry v 2 3).map (fun w => w.disk.word (smallMount.copyByte 1 8) >>> 28) = some 0 :=
  ⟨⟨smallMount, ⟨4, 2⟩, Buffer.setWord (fun _ => 0) 1032 0x10000000⟩, rfl, by decide +kernel⟩

/-! ## Freeing any links -/

lemma card_freeClusters_le (v : Volume) : (freeClusters v).card ≤ v.mount.totalClusters := by
  have hcard := Finset.card_filter_le v.mount.clusters fun c => getFatEntry v c = freeCluster
  rwa [clusters, Nat.card_Ico, Nat.add_sub_cancel] at hcard

lemma freeLoop_some (fuel freed : ℕ) (h : v.mount.totalClusters < fuel + (freeClusters v).card) :
    ∃ r w, freeLoop fuel v c freed = some (r, w) ∧
      ∀ d, getFatEntry w d = getFatEntry v d ∨ getFatEntry w d = freeCluster := by
  induction fuel generalizing v c freed with
  | zero =>
    have := card_freeClusters_le v
    omega
  | succ fuel ih =>
    rw [freeLoop]
    split_ifs with hloop
    · cases hset : setFatEntry v c freeCluster with
      | none => exact ⟨_, _, rfl, fun d => .inl rfl⟩
      | some w =>
        obtain ⟨disk, hset', -, hentry⟩ := setFatEntry_spec (mem_clusters_of_set hset) freeCluster
        obtain rfl := Option.some.inj (hset'.symm.trans hset)
        have hw : ∀ d, getFatEntry { v with disk } d = getFatEntry v d ∨
            getFatEntry { v with disk } d = freeCluster := by
          intro d
          by_cases hd : d = c <;> simp [hentry, hd, freeCluster]
        by_cases hfree : getFatEntry v c = freeCluster
        · -- a free entry ends the loop
          exact ⟨_, _, freeLoop_of_last _ _ (.inl (by rw [hfree]; decide)), hw⟩
        · have hinsert : freeClusters { v with disk } = insert c (freeClusters v) := by
            ext d
            by_cases hd : d = c
            · simp [freeClusters, hentry, hd, freeCluster, mem_clusters_of_set hset]
            · simp [freeClusters, hentry, hd]
          have hcard : (freeClusters { v with disk }).card = (freeClusters v).card + 1 := by
            rw [hinsert, Finset.card_insert_of_notMem (by simp [freeClusters, hfree])]
          obtain ⟨r, u, hrest, hu⟩ :=
            ih (v := { v with disk }) (c := getFatEntry v c) (w32 (freed + 1))
            (show v.mount.totalClusters < _ by omega)
          refine ⟨r, u, hrest, fun d => ?_⟩
          rcases hu d with hd | hd
          · rw [hd]
            exact hw d
          · exact .inr hd
    · exact ⟨_, _, rfl, fun d => .inl rfl⟩

/-- **Freeing ends**, whatever the links are: a round clears an entry that was used, or is the last
one. -/
theorem freeClusterChain_terminates (v : Volume) (start : ℕ) :
    freeLoop (v.mount.totalClusters + 1) v start 0 ≠ none ∧
    ∃ r w, freeClusterChain v start = some (r, w) ∧
      ∀ d, getFatEntry w d ≠ getFatEntry v d → getFatEntry w d = freeCluster := by
  obtain ⟨freed, w, hloop, hw⟩ := freeLoop_some (c := start) (v.mount.totalClusters + 1) 0
    (Nat.lt_of_lt_of_le (Nat.lt_succ_self _) (Nat.le_add_right _ _))
  refine ⟨by rw [hloop]; exact Option.some_ne_none _, ?_⟩
  rw [freeClusterChain, hloop]
  split_ifs
  · exact ⟨_, _, rfl, fun d hd => absurd rfl hd⟩
  · cases freed with
    | none => exact ⟨_, _, rfl, fun d hd => (hw d).resolve_left hd⟩
    | some n => exact ⟨_, _, rfl, fun d hd => (hw d).resolve_left hd⟩

end FrostByte.Fat32
