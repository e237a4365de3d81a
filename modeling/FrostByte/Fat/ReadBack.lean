import FrostByte.Fat.FileData

/-!
# Reading a file on FAT32

`fat32_read_file_data` walks a chain as `fat32_write_file_data` does, without making it longer, and
delivers the bytes of the file. A file without clusters it refuses, even when nothing is to be read.

## Main results

* `readFileData_spec` — reading inside the chain delivers the bytes of the file.
* `read_of_write` — what was written is read.
* `read_refused` — a read that is refused although there is nothing to read.
-/

namespace FrostByte.Fat32

open Word Chains

variable {L : List (List ℕ)} {v w : Volume} {l m : List ℕ} {c d i s b co offset size : ℕ}

/-! ## `fat32_read_file_data` -/

lemma skipClusters_eq (h : Layout v (l :: L)) :
    ∀ (s : ℕ) {c i : ℕ}, l[i]? = some c → l[i + s]? = some d → skipClusters v s c = some d := by
  intro s
  induction s with
  | zero => exact fun hc hd => hc.symm.trans hd
  | succ s ih =>
    intro c i hc hd
    have hlt : i + 1 < l.length := by
      have := (List.getElem?_eq_some_iff.1 hd).1
      omega
    obtain ⟨hentry, h2, heoc⟩ := h.entry_next hc (List.getElem?_eq_getElem hlt)
    unfold skipClusters
    rw [hentry]
    refine (if_neg (not_or.2 ⟨Nat.not_lt.2 h2, Nat.not_le.2 heoc⟩)).trans ?_
    refine ih (List.getElem?_eq_getElem hlt) ?_
    rw [← hd, Nat.add_assoc, Nat.add_comm 1]

lemma skipClusters_eq_none (h : Layout v (l :: L)) :
    ∀ (s : ℕ) {c i : ℕ}, l[i]? = some c → l.length ≤ i + s → skipClusters v s c = none := by
  intro s
  induction s with
  | zero =>
    intro c i hc hlen
    have := (List.getElem?_eq_some_iff.1 hc).1
    omega
  | succ s ih =>
    intro c i hc hlen
    unfold skipClusters
    rcases hd : l[i + 1]? with _ | d
    · exact if_pos (.inr (h.entry_last hc hd))
    · obtain ⟨hentry, h2, heoc⟩ := h.entry_next hc hd
      rw [hentry]
      refine (if_neg (not_or.2 ⟨Nat.not_lt.2 h2, Nat.not_le.2 heoc⟩)).trans ?_
      exact ih hd (by omega)

lemma readLoop_of_end (clusterBuf buffer : Buffer) (fuel co : ℕ) {br : ℕ}
    (h : size ≤ br ∨ eocMin ≤ c) :
    readLoop v size fuel c co br clusterBuf buffer = some (some br, buffer) := by
  unfold readLoop
  refine if_neg fun hn => ?_
  rcases h with h | h
  · exact Nat.not_lt.2 h hn.1
  · exact Nat.not_lt.2 h hn.2.2

lemma readLoop_succ {clusterBuf buffer buf : Buffer} {fuel br : ℕ} (hsmall : v.mount.Small)
    (hc : c ∈ v.mount.clusters)
    (hbr : br < size) (hs : (if size - br < v.mount.bytesPerCluster - co then size - br
      else v.mount.bytesPerCluster - co) = s)
    (hbuf : clusterBuf.copy 0 v.disk (v.mount.clusterAddr c) v.mount.bytesPerCluster = buf) :
    readLoop v size (fuel + 1) c co br clusterBuf buffer =
      readLoop v size fuel (if br + s < size then getFatEntry v c else c) 0 (br + s) buf
        (buffer.copy br buf co s) := by
  obtain ⟨h2, heoc⟩ := cluster_lt_eocMin hsmall hc
  rw [readLoop, if_pos ⟨hbr, h2, heoc⟩, readCluster_eq hsmall hc, hbuf]
  dsimp only
  rw [hs]

lemma readLoop_spec (h : Layout v (l :: L)) (hb : v.mount.bytesPerCluster = b) {n : ℕ}
    (hn : n ≤ size) (hroom : offset + n ≤ l.length * b)
    (hend : n < size → offset + n = l.length * b) :
    ∀ (fuel c co br : ℕ) (clusterBuf buffer : Buffer), n - br ≤ fuel → br ≤ n →
    (br < n → l[(offset + br) / b]? = some c ∧ co = (offset + br) % b) →
    (br = n → size ≤ br ∨ eocMin ≤ c) → (∀ i < br, buffer i = fileByte v l (offset + i)) →
    ∃ buffer', readLoop v size fuel c co br clusterBuf buffer = some (some n, buffer') ∧
      ∀ i < n, buffer' i = fileByte v l (offset + i) := by
  intro fuel
  induction fuel with
  | zero =>
    intro c co br clusterBuf buffer hfuel hbr _ hstop hread
    obtain rfl : br = n := by omega
    exact ⟨buffer, readLoop_of_end _ _ _ _ (hstop rfl), hread⟩
  | succ fuel ih =>
    intro c co br clusterBuf buffer hfuel hbr hat hstop hread
    rcases Nat.eq_or_lt_of_le hbr with rfl | hlt
    · exact ⟨buffer, readLoop_of_end _ _ _ _ (hstop rfl), hread⟩
    obtain ⟨hc, hco⟩ := hat hlt
    have hpos : 0 < b := hb ▸ v.mount.bytesPerCluster_pos
    obtain ⟨k, hk⟩ : ∃ k, (offset + br) / b = k := ⟨_, rfl⟩
    have hp := Nat.div_add_mod' (offset + br) b
    have hcob := Nat.mod_lt (offset + br) hpos
    rw [hk] at hp hc
    obtain ⟨s, hs⟩ : ∃ s, (if size - br < b - co then size - br else b - co) = s := ⟨_, rfl⟩
    have hcm := h.mem_clusters c (List.mem_of_getElem? hc)
    have hklt := (List.getElem?_eq_some_iff.1 hc).1
    have hkend : (k + 1) * b ≤ l.length * b := Nat.mul_le_mul_right b hklt
    rw [Nat.succ_mul] at hkend
    have hs' : 0 < s ∧ s ≤ n - br ∧ co + s ≤ b ∧ (br + s < size → co + s = b) := by
      rw [← hs]
      split <;> omega
    -- after a cluster that is not the last one of the request, the loop is at the next one
    have hnext : br + s < size → offset + (br + s) = (k + 1) * b := by
      intro hmore
      rw [Nat.succ_mul]
      omega
    rw [readLoop_succ h.small hcm (by omega) (by rw [hb, hs]) rfl]
    refine ih _ 0 (br + s) _ _ (by omega) (by omega) (fun hmore => ?_) (fun hlast => ?_)
      fun i hi => ?_
    · have hmore' : br + s < size := by omega
      have hk1 : k + 1 < l.length := Nat.lt_of_mul_lt_mul_right (by
        rw [← hnext hmore']
        omega)
      obtain ⟨hentry, -⟩ := h.entry_next hc (List.getElem?_eq_getElem hk1)
      rw [if_pos hmore', hentry, hnext hmore', Nat.mul_div_cancel _ hpos, Nat.mul_mod_left]
      exact ⟨List.getElem?_eq_getElem hk1, rfl⟩
    · rcases Nat.lt_or_ge (br + s) size with hmore | hdone
      · -- the chain ends here
        have hlen : (k + 1) * b = l.length * b := by
          rw [← hnext hmore, hlast]
          exact hend (by omega)
        have hk1 : l[k + 1]? = none :=
          List.getElem?_eq_none (Nat.le_of_mul_le_mul_right hlen.ge hpos)
        rw [if_pos hmore]
        exact .inr (h.entry_last hc hk1)
      · exact .inl hdone
    · rcases Nat.lt_or_ge i br with hib | hib
      · rw [Buffer.copy_of_notMem _ _ (by omega), hread i hib]
      · have hik : (offset + i) / b = k :=
          Nat.div_eq_of_lt_le (by omega) (by rw [Nat.succ_mul]; omega)
        have hmod := Nat.div_add_mod' (offset + i) b
        rw [hik] at hmod
        rw [Buffer.copy_of_mem _ _ hib hi, Buffer.copy_of_mem _ _ (Nat.zero_le _) (by omega),
          fileByte, hb, hik, List.getD_eq_getElem?_getD, hc, clusterByte]
        congr 2
        omega

/-- **Reading from inside the chain**, to the end of the request or of the chain. -/
theorem readFileData_of_lt (h : Layout v (l :: L)) (hsize : 0 < size)
    (hoff : offset < l.length * v.mount.bytesPerCluster) (buffer clusterBuf : Buffer) :
    ∃ buffer', readFileData v (l.headD 0) offset size buffer (some clusterBuf) =
        some (toInt (min size (l.length * v.mount.bytesPerCluster - offset)), buffer') ∧
      ∀ i < min size (l.length * v.mount.bytesPerCluster - offset),
        buffer' i = fileByte v l (offset + i) := by
  obtain ⟨c, t, rfl⟩ := List.exists_cons_of_length_pos (Nat.pos_of_lt_mul_right
    (lt_of_le_of_lt (Nat.zero_le _) hoff))
  have hc := Mount.mem_clusters.1 (h.mem_clusters c (.head _))
  dsimp only [readFileData, List.headD_cons]
  have hlt : offset / v.mount.bytesPerCluster < (c :: t).length :=
    Nat.div_lt_of_lt_mul (by rw [Nat.mul_comm]; exact hoff)
  have hget := List.getElem?_eq_getElem hlt
  have hskip := skipClusters_eq h (offset / v.mount.bytesPerCluster) (i := 0) rfl
    (by rw [Nat.zero_add]; exact hget)
  obtain ⟨n, hn⟩ : ∃ n, min size ((c :: t).length * v.mount.bytesPerCluster - offset) = n :=
    ⟨_, rfl⟩
  have hroom : offset + n ≤ (c :: t).length * v.mount.bytesPerCluster := by omega
  have hend : n < size → offset + n = (c :: t).length * v.mount.bytesPerCluster := by omega
  have hpos : 0 < n := by omega
  obtain ⟨buffer', hloop, hread⟩ := readLoop_spec h rfl (by omega) hroom hend size _
    (offset % v.mount.bytesPerCluster) 0 clusterBuf buffer (by omega) (Nat.zero_le _)
    (fun _ => ⟨by rw [Nat.add_zero]; exact hget, by rw [Nat.add_zero]⟩)
    hpos.ne.elim (fun i hi => nomatch hi)
  rw [hn]
  rw [if_neg (Nat.not_lt.2 hc.1), if_neg (by omega), hskip]
  dsimp only
  rw [hloop]
  exact ⟨buffer', rfl, hread⟩

lemma readFileData_of_ge (h : Layout v (l :: L)) (hl : l ≠ []) (hsize : 0 < size)
    (hoff : l.length * v.mount.bytesPerCluster ≤ offset) (buffer : Buffer)
    (kmalloc : Option Buffer) :
    readFileData v (l.headD 0) offset size buffer kmalloc = some (-1, buffer) := by
  obtain ⟨c, t, rfl⟩ := List.exists_cons_of_ne_nil hl
  have hc := Mount.mem_clusters.1 (h.mem_clusters c (.head _))
  dsimp only [readFileData, List.headD_cons]
  have hle : (c :: t).length ≤ offset / v.mount.bytesPerCluster :=
    (Nat.le_div_iff_mul_le v.mount.bytesPerCluster_pos).2 hoff
  rw [if_neg (Nat.not_lt.2 hc.1), if_neg (by omega), skipClusters_eq_none h _ (i := 0) rfl
    (by omega)]

lemma readFileData_of_none (h : Layout v (l :: L)) (hl : l ≠ []) (hsize : 0 < size)
    (buffer : Buffer) : readFileData v (l.headD 0) offset size buffer none = some (-1, buffer) := by
  obtain ⟨c, t, rfl⟩ := List.exists_cons_of_ne_nil hl
  have hc := Mount.mem_clusters.1 (h.mem_clusters c (.head _))
  dsimp only [readFileData, List.headD_cons]
  rw [if_neg (Nat.not_lt.2 hc.1), if_neg (by omega)]
  cases skipClusters v (offset / v.mount.bytesPerCluster) c <;> rfl

lemma readFileData_zero (h : Layout v (l :: L)) (hl : l ≠ []) (buffer : Buffer)
    (kmalloc : Option Buffer) :
    readFileData v (l.headD 0) offset 0 buffer kmalloc = some (0, buffer) := by
  obtain ⟨c, t, rfl⟩ := List.exists_cons_of_ne_nil hl
  have hc := Mount.mem_clusters.1 (h.mem_clusters c (.head _))
  exact (if_neg (Nat.not_lt.2 hc.1)).trans (if_pos rfl)

/-- **Reading inside the chain** delivers the bytes of the file. -/
theorem readFileData_spec (h : Layout v (l :: L)) (hl : l ≠ [])
    (hroom : 0 < size → offset + size ≤ l.length * v.mount.bytesPerCluster)
    (buffer clusterBuf : Buffer) :
    ∃ buffer', readFileData v (l.headD 0) offset size buffer (some clusterBuf) =
    some (toInt size, buffer') ∧
      ∀ i < size, buffer' i = fileByte v l (offset + i) := by
  rcases Nat.eq_zero_or_pos size with rfl | hsize
  · exact ⟨buffer, readFileData_zero h hl buffer _, fun i hi => nomatch hi⟩
  have hoff : offset < l.length * v.mount.bytesPerCluster := by omega
  have hle : size ≤ l.length * v.mount.bytesPerCluster - offset := by omega
  obtain ⟨buffer', hread, hbytes⟩ := readFileData_of_lt h hsize hoff buffer clusterBuf
  rw [Nat.min_eq_left hle] at hread hbytes
  exact ⟨buffer', hread, hbytes⟩

/-! ## Reading what was written -/

/-- **What was written is read**, and everything else is unchanged. -/
theorem read_of_write (h : Layout v (l :: L)) {start : ℕ} {data : Buffer} {kmalloc : Option Buffer}
    (hwrite : writeFileData v (l.headD 0) offset size data kmalloc = some ((size : ℤ), start, w))
    (hne : l ≠ [] ∨ size ≠ 0) (buffer clusterBuf : Buffer) :
    ∃ m, Layout w (m :: L) ∧ m.headD 0 = start ∧ l <+: m ∧
      (∃ buffer', readFileData w start offset size buffer (some clusterBuf) =
          some ((size : ℤ), buffer') ∧ ∀ i < size, buffer' i = data i) ∧
      (∀ i < l.length * v.mount.bytesPerCluster, ¬(offset ≤ i ∧ i < offset + size) →
        fileByte w m i = fileByte v l i) ∧ ∀ k ∈ L, ∀ c ∈ k, getFatEntry w c = getFatEntry v c ∧
        ∀ j < v.mount.bytesPerCluster, clusterByte w c j = clusterByte v c j := by
  obtain ⟨r, w', m, q, hwrite', hw, hr, -⟩ := writeFileData_writes h offset size data kmalloc
  rw [hwrite', Option.some_inj, Prod.mk.injEq, Prod.mk.injEq] at hwrite
  obtain ⟨rfl, rfl, rfl⟩ := hwrite
  obtain ⟨hint, rfl⟩ : (size : ℤ) = toInt size ∧ q = offset + size := by
    rcases hr with ⟨hr, -⟩ | hr
    · omega
    · exact hr
  have hroom : 0 < size → offset + size ≤ m.length * w'.mount.bytesPerCluster := by
    intro hsize
    have := hw.room (offset + size - 1) (by omega) (by omega)
    rw [hw.mount]
    omega
  have hm : m ≠ [] := by
    rintro rfl
    rcases hne with hl | hsize
    · exact hl (List.prefix_nil.1 hw.grows)
    · have := hroom (Nat.pos_of_ne_zero hsize)
      rw [List.length_nil] at this
      omega
  obtain ⟨buffer', hread, hbytes⟩ := readFileData_spec hw.layout hm hroom buffer
    clusterBuf
  refine ⟨m, hw.layout, rfl, hw.grows, ⟨buffer', ?_, fun i hi => ?_⟩, hw.kept, ?_⟩
  · rw [hread, ← hint]
  · rw [hbytes i hi, hw.written _ (by omega) (by omega)]
    congr 1
    omega
  · intro k hk c hc
    have hcm : c ∉ m := fun hcm =>
      hw.layout.shape.notMem_tail hcm (List.mem_flatten_of_mem hk hc)
    have hcl := h.shape.mem (.tail _ hk) hc
    exact ⟨hw.entries c hcm, hw.others c hcl hcm⟩

/-- 900 bytes from 700 on, over the clusters of an empty volume. -/
theorem read_of_write_empty :
    ∃ start w buffer, writeFileData emptyVolume 0 700 900 (fun i => UInt8.ofNat i)
        (some fun _ => 0) = some (900, start, w) ∧
      readFileData w start 700 900 (fun _ => 0) (some fun _ => 0) = some (900, buffer) ∧
      ∀ i < 900, buffer i = UInt8.ofNat i := by
  have hlayout : Layout emptyVolume [[]] :=
    ⟨emptyVolume_layout.shape.cons_nil, emptyVolume_layout.freeCount, emptyVolume_layout.small⟩
  obtain ⟨r, w, m, q, hwrite, -, -⟩ := writeFileData_writes hlayout 700 900
    (fun i => UInt8.ofNat i) (some fun _ => 0)
  have hsize : (writeFileData emptyVolume 0 700 900 (fun i => UInt8.ofNat i)
      (some fun _ => 0)).map Prod.fst = some 900 := by
    decide +kernel
  rw [List.headD_nil] at hwrite
  rw [hwrite, Option.map_some, Option.some_inj] at hsize
  subst hsize
  obtain ⟨-, -, -, -, ⟨buffer, hread, hbytes⟩, -⟩ := read_of_write hlayout hwrite
    (.inr (by decide)) (fun _ => 0) fun _ => 0
  exact ⟨_, w, buffer, hwrite, hread, hbytes⟩

/-- The read of no bytes from an empty file is refused, and one that finds no memory delivers
nothing. -/
theorem read_refused : WellFormed emptyVolume ∧ (∀ (data buffer : Buffer) (kmalloc : Option Buffer),
      writeFileData emptyVolume 0 0 0 data kmalloc = some (0, 0, emptyVolume) ∧
      readFileData emptyVolume 0 0 0 buffer kmalloc = some (-1, buffer)) ∧
    ∃ w, writeFileData emptyVolume 0 0 1 (fun _ => 7) (some fun _ => 0) = some (1, 2, w) ∧
      ∀ buffer, readFileData w 2 0 1 buffer none = some (-1, buffer) := by
  refine ⟨⟨[], emptyVolume_layout⟩, fun data buffer kmalloc => ⟨rfl, rfl⟩, ?_⟩
  have hlayout : Layout emptyVolume [[]] :=
    ⟨emptyVolume_layout.shape.cons_nil, emptyVolume_layout.freeCount, emptyVolume_layout.small⟩
  obtain ⟨r, w, m, q, hwrite, -, -⟩ := writeFileData_writes hlayout 0 1 (fun _ => 7)
    (some fun _ => 0)
  have hsize : (writeFileData emptyVolume 0 0 1 (fun _ => 7) (some fun _ => 0)).map
      (fun result => (result.1, result.2.1)) = some (1, 2) := by
    decide +kernel
  rw [List.headD_nil] at hwrite
  rw [hwrite, Option.map_some, Option.some_inj, Prod.mk.injEq] at hsize
  obtain ⟨rfl, hstart⟩ := hsize
  refine ⟨w, by rw [hwrite]; simpa using hstart, fun buffer => ?_⟩
  dsimp only [readFileData]
  rw [Nat.zero_div]
  rfl

end FrostByte.Fat32
