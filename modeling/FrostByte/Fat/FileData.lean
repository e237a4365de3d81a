import FrostByte.Fat.Table
import FrostByte.Lib.Run

/-!
# Writing a file on FAT32

A file is a chain of clusters, and its bytes are those of the clusters one after the other. `Writes`
says what a part of `fat32_write_file_data` does to a chain: it grows, a range of bytes has new
contents, and nothing else changes.

## Main definitions

* `fileByte` — a byte of the file along its chain.
* `Writes` — what a part of a write does to the chain, its bytes and the rest.
* `volumeCalls` — allocations, writes and frees, from a well-formed volume on.

## Main results

* `writeFileData_writes` — a write stores its bytes, or stops when there is no room.
* `wellFormed_of_reach` — every sequence of calls keeps the volume well formed.
* `allocateCluster_misses_last` — a volume whose last free cluster is not found.
-/

namespace FrostByte.Fat32

open Word Chains Function

/-- A byte of a cluster. -/
def clusterByte (v : Volume) (c j : ℕ) : UInt8 := v.disk (v.mount.clusterAddr c + j)

/-- A byte of the file whose chain is `l`. -/
def fileByte (v : Volume) (l : List ℕ) (i : ℕ) : UInt8 :=
  clusterByte v (l.getD (i / v.mount.bytesPerCluster) 0) (i % v.mount.bytesPerCluster)

/-- The chain `l` became `m`, and its bytes from `p` to `q` those of `src`. The other chains are
`L`. -/
structure Writes (src : Buffer) (L : List (List ℕ)) (v : Volume) (l : List ℕ) (p q : ℕ)
    (w : Volume) (m : List ℕ) : Prop where
  layout : Layout w (m :: L)
  mount : w.mount = v.mount
  grows : l <+: m
  entries : ∀ c ∉ m, getFatEntry w c = getFatEntry v c
  others : ∀ c ∈ v.mount.clusters, c ∉ m → ∀ j < v.mount.bytesPerCluster,
    clusterByte w c j = clusterByte v c j
  room : ∀ i, p ≤ i → i < q → i < m.length * v.mount.bytesPerCluster
  written : ∀ i, p ≤ i → i < q → fileByte w m i = src i
  kept : ∀ i < l.length * v.mount.bytesPerCluster, ¬(p ≤ i ∧ i < q) →
    fileByte w m i = fileByte v l i

variable {src : Buffer} {L : List (List ℕ)} {v w u : Volume} {l m n : List ℕ} {c d i p q r : ℕ}

/-! ## Clusters -/

lemma readCluster_eq (hs : v.mount.Small) (hc : c ∈ v.mount.clusters) (buffer : Buffer) :
    readCluster v c buffer =
      some (buffer.copy 0 v.disk (v.mount.clusterAddr c) v.mount.bytesPerCluster) := by
  obtain ⟨hlba, haddr⟩ := Mount.clusterToLba_eq hs hc
  rw [Mount.mem_clusters] at hc
  dsimp only [readCluster, deviceRead]
  rw [if_neg (Nat.not_lt.2 hc.1), if_neg hlba, haddr]

/-- The volume with new bytes in a whole cluster. -/
def Volume.putCluster (v : Volume) (c : ℕ) (buffer : Buffer) : Volume :=
  { v with disk := v.disk.copy (v.mount.clusterAddr c) buffer 0 v.mount.bytesPerCluster }

lemma writeCluster_eq (hs : v.mount.Small) (hc : c ∈ v.mount.clusters) (buffer : Buffer) :
    writeCluster v c buffer = some (v.putCluster c buffer) := by
  obtain ⟨hlba, haddr⟩ := Mount.clusterToLba_eq hs hc
  rw [Mount.mem_clusters] at hc
  dsimp only [writeCluster]
  rw [if_neg (Nat.not_lt.2 hc.1), if_neg hlba, haddr]
  rfl

variable {co j size : ℕ}

lemma clusterByte_putCluster_self (buffer : Buffer) (hj : j < v.mount.bytesPerCluster) :
    clusterByte (v.putCluster c buffer) c j = buffer j := by
  dsimp only [clusterByte, Volume.putCluster]
  rw [Buffer.copy_of_mem _ _ (by omega) (by omega)]
  congr 1
  omega

lemma clusterByte_putCluster_of_ne (hc : c ∈ v.mount.clusters) (hd : d ∈ v.mount.clusters)
    (hne : d ≠ c) (buffer : Buffer) (hj : j < v.mount.bytesPerCluster) :
    clusterByte (v.putCluster c buffer) d j = clusterByte v d j := by
  have := Mount.clusterAddr_disjoint hd hc hne
  dsimp only [clusterByte, Volume.putCluster]
  rw [Buffer.copy_of_notMem _ _ (by omega)]

lemma getFatEntry_congr (hm : w.mount = v.mount)
    (h : ∀ a < v.mount.clusterBeginLba * 512, w.disk a = v.disk a) :
    getFatEntry w = getFatEntry v := by
  funext c
  by_cases hc : c ∈ v.mount.clusters
  · rw [getFatEntry_eq hc, getFatEntry_eq (by rwa [hm]), hm]
    have hword : w.disk.word (v.mount.entryAddr c) = v.disk.word (v.mount.entryAddr c) := by
      refine Buffer.word_congr fun k hk => h _ ?_
      have h1 := v.mount.fat_le v.mount.numFats_pos
      have h2 := v.mount.entries_le
      rw [Mount.mem_clusters] at hc
      unfold Mount.entryAddr
      omega
    rw [hword]
  · rw [getFatEntry_of_notMem hc, getFatEntry_of_notMem (by rwa [hm])]

lemma getFatEntry_putCluster (hc : c ∈ v.mount.clusters) (buffer : Buffer) :
    getFatEntry (v.putCluster c buffer) = getFatEntry v := by
  refine getFatEntry_congr rfl fun a ha => Buffer.copy_of_notMem _ _ ?_
  have := (Mount.clusterAddr_bounds hc).1
  omega

lemma Layout.congr (h : Layout v L) (hm : w.mount = v.mount) (hf : w.fsinfo = v.fsinfo)
    (he : getFatEntry w = getFatEntry v) : Layout w L := by
  have hcell : cell w = cell v := funext fun c => congrArg toCell (congrFun he c)
  have hfree : freeClusters w = freeClusters v := by rw [freeClusters, freeClusters, hm, he]
  refine ⟨?_, ?_, hm ▸ h.small⟩
  · rw [hcell, hm]
    exact h.shape
  · rw [hf, hfree]
    exact h.freeCount

/-! ## Steps of a write -/

namespace Writes

lemma refl (h : Layout v (l :: L)) : Writes src L v l p p v l where
  layout := h
  mount := rfl
  grows := List.prefix_rfl
  entries _ _ := rfl
  others _ _ _ _ _ := rfl
  room _ h1 h2 := absurd h2 (Nat.not_lt.2 h1)
  written _ h1 h2 := absurd h2 (Nat.not_lt.2 h1)
  kept _ _ _ := rfl

lemma trans (h1 : Writes src L v l p q w m) (h2 : Writes src L w m q r u n) (hpq : p ≤ q)
    (hqr : q ≤ r) : Writes src L v l p r u n := by
  have hlm := Nat.mul_le_mul_right v.mount.bytesPerCluster h1.grows.length_le
  have hmn := Nat.mul_le_mul_right v.mount.bytesPerCluster h2.grows.length_le
  have hroom := h2.room
  have hkept := h2.kept
  have hothers := h2.others
  rw [h1.mount] at hroom hkept hothers
  have hsub : ∀ c ∉ n, c ∉ m := fun c hc hm => hc (h2.grows.subset hm)
  refine ⟨h2.layout, h2.mount.trans h1.mount, h1.grows.trans h2.grows, ?_, ?_, ?_, ?_, ?_⟩
  · intro c hc
    rw [h2.entries c hc, h1.entries c (hsub c hc)]
  · intro c hc hcn j hj
    rw [hothers c hc hcn j hj, h1.others c hc (hsub c hcn) j hj]
  · intro i hp hr
    rcases Nat.lt_or_ge i q with hq | hq
    · exact Nat.lt_of_lt_of_le (h1.room i hp hq) hmn
    · exact hroom i hq hr
  · intro i hp hr
    rcases Nat.lt_or_ge i q with hq | hq
    · rw [hkept i (h1.room i hp hq) (by omega), h1.written i hp hq]
    · exact h2.written i hq hr
  · intro i hi hn
    rw [hkept i (by omega) (by omega), h1.kept i hi (by omega)]

lemma of_keeps (h : Layout w (m :: L)) (hlm : l <+: m) (hk : Keeps v w m)
    (hl : ∀ c ∈ l, c ∈ v.mount.clusters) : Writes src L v l p p w m where
  layout := h
  mount := hk.mount
  grows := hlm
  entries := hk.entries
  others c hc _ j _ := by
    have := (Mount.clusterAddr_bounds hc).1
    rw [clusterByte, clusterByte, hk.mount, hk.data _ (by omega)]
  room _ h1 h2 := absurd h2 (Nat.not_lt.2 h1)
  written _ h1 h2 := absurd h2 (Nat.not_lt.2 h1)
  kept i hi _ := by
    have hlt : i / v.mount.bytesPerCluster < l.length :=
      Nat.div_lt_of_lt_mul (by rwa [Nat.mul_comm])
    obtain ⟨t, rfl⟩ := hlm
    have hmem : l.getD (i / v.mount.bytesPerCluster) 0 ∈ l := by
      rw [List.getD_eq_getElem _ _ hlt]
      exact List.getElem_mem hlt
    have := (Mount.clusterAddr_bounds (hl _ hmem)).1
    unfold fileByte clusterByte
    rw [hk.mount, List.getD_append _ _ _ _ hlt, hk.data _ (by omega)]

lemma cluster {b k s : ℕ} {buffer : Buffer} (h : Layout v (l :: L)) (hc : l[k]? = some c)
    (hb : v.mount.bytesPerCluster = b) (hs : co + s ≤ b)
    (hin : ∀ j, co ≤ j → j < co + s → buffer j = src (k * b + j))
    (hout : ∀ j < b, ¬(co ≤ j ∧ j < co + s) → buffer j = clusterByte v c j) :
    Writes src L v l (k * b + co) (k * b + co + s) (v.putCluster c buffer) l := by
  have hcl : c ∈ l := List.mem_of_getElem? hc
  have hk : k < l.length := (List.getElem?_eq_some_iff.1 hc).1
  have hcm : c ∈ v.mount.clusters := h.shape.mem (.head _) hcl
  have hentry := getFatEntry_putCluster hcm buffer
  have hmod : ∀ i, i % b < b := fun i => Nat.mod_lt i (hb ▸ v.mount.bytesPerCluster_pos)
  have hget : l.getD k 0 = c := by rw [List.getD_eq_getElem?_getD, hc, Option.getD_some]
  have hbyte : ∀ i, i / b = k → fileByte (v.putCluster c buffer) l i = buffer (i % b) := by
    rintro i rfl
    rw [← hb] at hget hmod ⊢
    rw [fileByte, show (v.putCluster c buffer).mount = v.mount from rfl, hget]
    exact clusterByte_putCluster_self buffer (hmod i)
  refine ⟨h.congr rfl rfl hentry, rfl, List.prefix_rfl, fun d _ => congrFun hentry d, ?_, ?_, ?_,
    ?_⟩
  · exact fun d hd hdl j hj =>
      clusterByte_putCluster_of_ne hcm hd (fun e => hdl (e ▸ hcl)) buffer hj
  · intro i _ hi
    have := Nat.mul_le_mul_right b (Nat.succ_le_of_lt hk)
    rw [Nat.succ_mul] at this
    rw [hb]
    omega
  · intro i hp hq
    have hik : i / b = k := Nat.div_eq_of_lt_le (by omega) (by rw [Nat.succ_mul]; omega)
    have hi := Nat.div_add_mod' i b
    rw [hik] at hi
    rw [hbyte i hik, hin _ (by omega) (by omega), hi]
  · intro i hi hn
    have hlt : i / b < l.length := Nat.div_lt_of_lt_mul (by rwa [Nat.mul_comm, ← hb])
    rcases eq_or_ne (i / b) k with hik | hik
    · have hi' := Nat.div_add_mod' i b
      rw [hik] at hi'
      rw [hbyte i hik, hout _ (hmod i) (by omega), fileByte, hb, hik, hget]
    · rw [fileByte, fileByte, show (v.putCluster c buffer).mount = v.mount from rfl, hb,
        List.getD_eq_getElem _ _ hlt]
      refine clusterByte_putCluster_of_ne hcm (h.shape.mem (.head _)
        (List.getElem_mem hlt)) (fun he => hik ?_) buffer (hb ▸ hmod i)
      rw [List.getElem?_eq_getElem hk, Option.some_inj] at hc
      exact (h.shape.nodup_of_mem (.head _)).getElem_inj_iff.1 (he.trans hc.symm)

end Writes

/-! ## `fat32_write_file_data` -/

lemma Layout.mem_clusters (h : Layout v (l :: L)) : ∀ c ∈ l, c ∈ v.mount.clusters :=
  fun _ hc => h.shape.mem (.head _) hc

lemma Layout.ne_zero (h : Layout v (l :: L)) (hc : l[i]? = some c) : c ≠ 0 := by
  have := Mount.mem_clusters.1 (h.mem_clusters c (List.mem_of_getElem? hc))
  omega

lemma Spare.congr {n : ℕ} (h : Spare v L n) (hm : w.mount = v.mount)
    (hhint : v.fsinfo.nextFree < 2 ^ 32 → w.fsinfo.nextFree < 2 ^ 32) : Spare w L n :=
  ⟨hhint h.hint, hm ▸ h.room⟩

lemma Spare.mono {n k : ℕ} (h : Spare v L n) (hk : k ≤ n) : Spare v L k :=
  ⟨h.hint, Nat.lt_of_le_of_lt (Nat.add_le_add_right hk _) h.room⟩

lemma seekClusters_writes (src : Buffer) (p : ℕ) : ∀ (s : ℕ) {v : Volume} {l : List ℕ} {c i : ℕ},
    Layout v (l :: L) → l[i]? = some c → ∃ d w m, seekClusters s v c = (d, w) ∧
    Writes src L v l p p w m ∧
      (d ≠ 0 → m[i + s]? = some d) ∧ (d = 0 → ¬ Spare v L (i + s + 1)) ∧
      (v.fsinfo.nextFree < 2 ^ 32 → w.fsinfo.nextFree < 2 ^ 32) := by
  intro s
  induction s with
  | zero =>
    intro v l c i h hc
    exact ⟨c, v, l, rfl, .refl h, fun _ => hc, (h.ne_zero hc).elim, id⟩
  | succ s ih =>
    intro v l c i h hc
    rw [seekClusters]
    rcases h.advance hc with ⟨hfail, hfull⟩ | ⟨d, w, m, hok, hd0, hd, hlm, hw, hk, hhint⟩
    · rw [hfail]
      exact ⟨0, v, l, rfl, .refl h, fun h0 => absurd rfl h0,
        fun _ hspare => hfull (hspare.mono (by omega)), id⟩
    · obtain ⟨e, u, n, hseek, hwu, he, hfull, hhint'⟩ := ih hw hd
      rw [hok]
      dsimp only
      rw [if_neg hd0, hseek]
      refine ⟨e, u, n, rfl, (Writes.of_keeps hw hlm hk h.mem_clusters).trans hwu le_rfl le_rfl, ?_,
        ?_,
        hhint' ∘ hhint⟩
      · intro h0
        rw [← he h0, Nat.add_assoc, Nat.add_comm 1]
      · exact fun h0 hspare => hfull h0 ((hspare.mono (by omega)).congr hk.mount hhint)

lemma fillBuffer_apply (hs : v.mount.Small) (hc : c ∈ v.mount.clusters) (clusterBuf : Buffer)
    {left : ℕ} (hj : j < v.mount.bytesPerCluster) (hn : co ≠ 0 ∨ left < v.mount.bytesPerCluster) :
    fillBuffer v c co left clusterBuf j = clusterByte v c j := by
  rw [fillBuffer, if_pos hn, readCluster_eq hs hc, Option.getD_some,
    Buffer.copy_of_mem _ _ (Nat.zero_le _) (by omega)]
  rfl

lemma writeLoop_of_le (buffer clusterBuf : Buffer) (fuel c co : ℕ) {bw : ℕ} (h : size ≤ bw) :
    writeLoop size buffer fuel v c co bw clusterBuf = some (some bw, v) := by
  unfold writeLoop
  exact if_neg (Nat.not_lt.2 h)

lemma writeLoop_succ {buffer clusterBuf : Buffer} {fuel bw s : ℕ} (hsmall : v.mount.Small)
    (hc : c ∈ v.mount.clusters) (hbw : bw < size)
    (hs : (if size - bw < v.mount.bytesPerCluster - co then size - bw
      else v.mount.bytesPerCluster - co) = s) {buf : Buffer}
    (hbuf : (fillBuffer v c co (size - bw) clusterBuf).copy co buffer bw s = buf) :
    writeLoop size buffer (fuel + 1) v c co bw clusterBuf = if bw + s < size then
        let (d, w) := advance (v.putCluster c buf) c
        if d = 0 then some (none, w) else writeLoop size buffer fuel w d 0 (bw + s) buf
      else writeLoop size buffer fuel (v.putCluster c buf) c 0 (bw + s) buf := by
  rw [writeLoop, if_pos hbw]
  dsimp only
  rw [hs, hbuf, writeCluster_eq hsmall hc]

lemma writeLoop_writes (offset size : ℕ) (buffer : Buffer) :
    ∀ (fuel : ℕ) {v : Volume} {l : List ℕ} (c co bw : ℕ) (clusterBuf : Buffer),
    Layout v (l :: L) → size - bw ≤ fuel → bw ≤ size →
    (bw < size → l[(offset + bw) / v.mount.bytesPerCluster]? = some c ∧
      co = (offset + bw) % v.mount.bytesPerCluster) →
    ∃ r w m q, writeLoop size buffer fuel v c co bw clusterBuf = some (r, w) ∧
      Writes (fun i => buffer (i - offset)) L v l (offset + bw) q w m ∧ offset + bw ≤ q ∧
      (r = none ∧ ¬ Spare v L ((offset + size - 1) / v.mount.bytesPerCluster + 1) ∨
        r = some size ∧ q = offset + size) ∧ (v.fsinfo.nextFree < 2 ^ 32 →
        w.fsinfo.nextFree < 2 ^ 32) := by
  intro fuel
  induction fuel with
  | zero =>
    intro v l c co bw clusterBuf h hfuel hbw _
    obtain rfl : bw = size := by omega
    exact ⟨_, v, l, _, writeLoop_of_le _ _ _ _ _ le_rfl, .refl h, le_rfl, .inr ⟨rfl, rfl⟩, id⟩
  | succ fuel ih =>
    intro v l c co bw clusterBuf h hfuel hbw hat
    rcases Nat.eq_or_lt_of_le hbw with rfl | hlt
    · exact ⟨_, v, l, _, writeLoop_of_le _ _ _ _ _ le_rfl, .refl h, le_rfl, .inr ⟨rfl, rfl⟩, id⟩
    obtain ⟨hc, hco⟩ := hat hlt
    obtain ⟨b, hb⟩ : ∃ b, v.mount.bytesPerCluster = b := ⟨_, rfl⟩
    have hpos := v.mount.bytesPerCluster_pos
    rw [hb] at hc hco hpos
    obtain ⟨k, hk⟩ : ∃ k, (offset + bw) / b = k := ⟨_, rfl⟩
    have hp := Nat.div_add_mod' (offset + bw) b
    have hcob := Nat.mod_lt (offset + bw) hpos
    rw [hk] at hp hc
    rw [← hco] at hp hcob
    obtain ⟨s, hs⟩ : ∃ s, (if size - bw < b - co then size - bw else b - co) = s := ⟨_, rfl⟩
    obtain ⟨buf, hbuf⟩ : ∃ buf,
      (fillBuffer v c co (size - bw) clusterBuf).copy co buffer bw s = buf := ⟨_, rfl⟩
    have hcm := h.mem_clusters c (List.mem_of_getElem? hc)
    have hspos : 0 < s ∧ s ≤ size - bw ∧ co + s ≤ b ∧ (bw + s < size → co + s = b) := by
      rw [← hs]
      split <;> omega
    -- what the round writes
    have hround : Writes (fun i => buffer (i - offset)) L v l (offset + bw) (offset + (bw + s))
        (v.putCluster c buf) l := by
      rw [← Nat.add_assoc, ← hp]
      refine Writes.cluster h hc hb hspos.2.2.1 ?_ ?_
      · intro j hj1 hj2
        rw [← hbuf, Buffer.copy_of_mem _ _ hj1 hj2]
        congr 1
        omega
      · intro j hj hn
        rw [← hbuf, Buffer.copy_of_notMem _ _ hn]
        refine fillBuffer_apply h.small hcm clusterBuf (hb ▸ hj) ?_
        omega
    rw [writeLoop_succ h.small hcm hlt (by rw [hb, hs]) hbuf]
    split_ifs with hmore
    · have hpos' : offset + (bw + s) = (k + 1) * b := by
        rw [Nat.succ_mul]
        omega
      have hnext : (offset + (bw + s)) / b = k + 1 ∧ (offset + (bw + s)) % b = 0 := by
        rw [hpos']
        exact ⟨Nat.mul_div_cancel _ hpos, Nat.mul_mod_left ..⟩
      have hlast : k + 1 ≤ (offset + size - 1) / b := by
        rw [Nat.le_div_iff_mul_le hpos]
        omega
      rcases hround.layout.advance hc with ⟨hfail, hfull⟩ | ⟨d, w, m, hok, hd0, hd, hlm, hw, hkeep,
        hhint⟩
      · rw [hfail]
        refine ⟨none, _, l, _, rfl, hround, by omega, .inl ⟨rfl, fun hspare => hfull ?_⟩, id⟩
        rw [hb] at hspare
        exact (hspare.mono (by omega)).congr rfl id
      · have hadv := hround.trans (Writes.of_keeps hw hlm hkeep
          hround.layout.mem_clusters) (by omega) le_rfl
        rw [hok]
        dsimp only
        rw [if_neg hd0]
        obtain ⟨r, u, n, q, hloop, hwu, hq, hr, hhint'⟩ :=
          ih d 0 (bw + s) buf hw (by omega) (by omega)
          (fun _ => by
            rw [hadv.mount, hb, hnext.1, hnext.2]
            exact ⟨hd, rfl⟩)
        rw [hadv.mount] at hr
        refine ⟨r, u, n, q, hloop, hadv.trans hwu (by omega) hq, by omega, ?_, hhint' ∘ hhint⟩
        exact hr.imp_left fun hfail =>
          ⟨hfail.1, fun hspare => hfail.2 (hspare.congr hadv.mount hhint)⟩
    · obtain ⟨r, u, n, q, hloop, hwu, hq, hr, hhint⟩ := ih c 0 (bw + s) buf hround.layout (by omega)
        (by omega) hmore.elim
      exact ⟨r, u, n, q, hloop, hround.trans hwu (by omega) hq, by omega,
        hr.imp_left fun hfail => ⟨hfail.1, fun hspare => hfail.2 (hspare.congr rfl id)⟩, hhint⟩

lemma Writes.headD (h : Writes src L v l p q w m) (hc : l[0]? = some c) : m.headD 0 = c := by
  obtain ⟨t, rfl⟩ := h.grows
  rcases l with _ | ⟨a, l⟩
  · exact nomatch hc
  · exact Option.some_inj.1 hc

/-- A write fails for want of memory or of a cluster. -/
def NoRoom (v : Volume) (L : List (List ℕ)) (offset size : ℕ) (kmalloc : Option Buffer) : Prop :=
  kmalloc = none ∨ ¬ Spare v L ((offset + size - 1) / v.mount.bytesPerCluster + 1)

lemma writeFrom_writes (offset : ℕ) (hsize : size ≠ 0) (buffer : Buffer)
    (kmalloc : Option Buffer) (h : Layout v (l :: L)) (hc : l[0]? = some c) :
    ∃ r w m q, writeFrom v c offset size buffer kmalloc = some (r, m.headD 0, w) ∧
      Writes (fun i => buffer (i - offset)) L v l offset q w m ∧ offset ≤ q ∧
      (r = -1 ∧ NoRoom v L offset size kmalloc ∨ r = toInt size ∧ q = offset + size) ∧
      (v.fsinfo.nextFree < 2 ^ 32 → w.fsinfo.nextFree < 2 ^ 32) := by
  obtain ⟨d, w, m, hseek, hw, hd, hfull, hhint⟩ :=
    seekClusters_writes (fun i => buffer (i - offset))
    offset (offset / v.mount.bytesPerCluster) h hc
  have hle : offset / v.mount.bytesPerCluster ≤ (offset + size - 1) / v.mount.bytesPerCluster :=
    Nat.div_le_div_right (by omega)
  dsimp only [writeFrom]
  rw [hseek]
  by_cases hd0 : d = 0
  · rw [if_pos hd0, ← hw.headD hc]
    exact ⟨-1, w, m, offset, rfl, hw, le_rfl,
      .inl ⟨rfl, .inr fun hspare => hfull hd0 (hspare.mono (by omega))⟩, hhint⟩
  rw [if_neg hd0]
  cases kmalloc with
  | none =>
    rw [← hw.headD hc]
    exact ⟨-1, w, m, offset, rfl, hw, le_rfl, .inl ⟨rfl, .inl rfl⟩, hhint⟩
  | some clusterBuf =>
    have hat : m[(offset + 0) / w.mount.bytesPerCluster]? = some d ∧
        offset % v.mount.bytesPerCluster = (offset + 0) % w.mount.bytesPerCluster := by
      simp [hw.mount, ← hd hd0]
    obtain ⟨r, u, n, q, hloop, hu, hq, hr, hhint'⟩ := writeLoop_writes offset size buffer size d
      (offset % v.mount.bytesPerCluster) 0 clusterBuf hw.layout le_rfl (Nat.zero_le size)
      fun _ => hat
    have hall := hw.trans hu le_rfl hq
    dsimp only
    rw [hloop, ← hall.headD hc]
    rw [hw.mount] at hr
    rcases hr with ⟨rfl, hfull⟩ | ⟨rfl, rfl⟩
    · exact ⟨-1, u, n, q, rfl, hall, hq,
        .inl ⟨rfl, .inr fun hspare => hfull (hspare.congr hw.mount hhint)⟩, hhint' ∘ hhint⟩
    · exact ⟨toInt size, u, n, _, rfl, hall, hq, .inr ⟨rfl, rfl⟩, hhint' ∘ hhint⟩

/-- A write of any length: the chain grows as far as needed, and a failure leaves what was written
before it. -/
lemma writeFileData_writes (h : Layout v (l :: L)) (offset size : ℕ) (buffer : Buffer)
    (kmalloc : Option Buffer) :
    ∃ r w m q, writeFileData v (l.headD 0) offset size buffer kmalloc = some (r, m.headD 0, w) ∧
      Writes (fun i => buffer (i - offset)) L v l offset q w m ∧
      (r = -1 ∧ NoRoom v L offset size kmalloc ∨ r = toInt size ∧ q = offset + size) ∧
      (v.fsinfo.nextFree < 2 ^ 32 → w.fsinfo.nextFree < 2 ^ 32) := by
  unfold writeFileData
  by_cases hsize : size = 0
  · subst hsize
    exact ⟨0, v, l, offset, if_pos rfl, .refl h, .inr ⟨rfl, rfl⟩, id⟩
  rw [if_neg hsize]
  rcases l with _ | ⟨c, l⟩
  · -- an empty file gets its first cluster
    rcases h.allocate with ⟨hfail, hfull⟩ | ⟨c, w, hok, hc0, hw, hk, hhint⟩
    · rw [hfail]
      exact ⟨-1, v, [], offset, rfl, .refl h,
        .inl ⟨rfl, .inr fun hspare => hfull (hspare.mono (Nat.le_add_left ..))⟩, id⟩
    · obtain ⟨r, u, m, q, hfrom, hu, hq, hr, hhint'⟩ :=
        writeFrom_writes offset hsize buffer kmalloc hw rfl
      rw [hok]
      dsimp only
      rw [if_neg hc0, hfrom]
      have hnil : Writes (fun i => buffer (i - offset)) L v [] offset offset w [c] :=
        .of_keeps hw List.nil_prefix hk fun _ hn => nomatch hn
      refine ⟨r, u, m, q, rfl, hnil.trans hu le_rfl hq, ?_, fun _ => hhint' hhint⟩
      rw [NoRoom, hk.mount] at hr
      exact hr.imp_left fun hfail =>
        ⟨hfail.1, hfail.2.imp_right fun hfull hspare =>
          hfull (hspare.congr hk.mount fun _ => hhint)⟩
  · rw [List.headD_cons, if_neg (h.ne_zero (i := 0) rfl)]
    obtain ⟨r, u, m, q, hfrom, hu, -, hr, hhint⟩ :=
      writeFrom_writes offset hsize buffer kmalloc h rfl
    exact ⟨r, u, m, q, hfrom, hu, hr, hhint⟩

/-! ## Calls -/

/-- A cluster in use that no entry names. -/
def ChainHead (v : Volume) (c : ℕ) : Prop :=
  c ∈ v.mount.clusters ∧ getFatEntry v c ≠ freeCluster ∧
    ∀ d ∈ v.mount.clusters, getFatEntry v d ≠ c

/-- The calls below the directories. -/
inductive VolumeOp
  | allocate
  | write (start offset size : ℕ) (buffer : Buffer) (kmalloc : Option Buffer)
  | free (start : ℕ)

/-- A file is written and freed from its head; an empty one is written from 0. -/
def VolumeOp.Allowed (v : Volume) : VolumeOp → Prop
  | allocate => True
  | write start _ _ _ _ => start = 0 ∨ ChainHead v start
  | free start => ChainHead v start

/-- The volume after a call that returns. -/
def VolumeOp.call (v : Volume) : VolumeOp → Option Volume
  | allocate => some (allocateCluster v).2
  | write start offset size buffer kmalloc =>
    (writeFileData v start offset size buffer kmalloc).map fun result => result.2.2
  | free start => (freeClusterChain v start).map fun result => result.2

/-- The calls as a system; a call that does not return is no step. -/
def volumeCalls : System Volume VolumeOp where
  init := WellFormed
  guard v op := op.Allowed v
  step v op w := op.call v = some w

lemma Layout.exists_chain (h : Layout v L) (hc : ChainHead v c) :
    ∃ l M, Layout v ((c :: l) :: M) := by
  obtain ⟨hm, hf, hn⟩ := hc
  obtain ⟨l, M, hs⟩ := h.shape.exists_chain hm (fun hcell => hf (toCell_eq_free.1 hcell))
    fun d hd hcell => hn d hd (toCell_eq_next hcell)
  exact ⟨l, M, hs, h.freeCount, h.small⟩

lemma WellFormed.call (h : WellFormed v) {op : VolumeOp} (hop : op.Allowed v) :
    ∃ w, op.call v = some w ∧ WellFormed w := by
  obtain ⟨L, hL⟩ := h
  have hnil : Layout v ([] :: L) := ⟨hL.shape.cons_nil, hL.freeCount, hL.small⟩
  cases op with
  | allocate =>
    rcases hnil.allocate with ⟨hfail, -⟩ | ⟨c, w, hok, -, hw, -⟩
    · exact ⟨v, by rw [VolumeOp.call, hfail], L, hL⟩
    · exact ⟨w, by rw [VolumeOp.call, hok], _, hw⟩
  | write start offset size buffer kmalloc =>
    obtain ⟨l, M, hM, hstart⟩ : ∃ l M, Layout v (l :: M) ∧ l.headD 0 = start := by
      rcases hop with rfl | hhead
      · exact ⟨[], L, hnil, rfl⟩
      · obtain ⟨l, M, hM⟩ := hL.exists_chain hhead
        exact ⟨start :: l, M, hM, rfl⟩
    obtain ⟨r, w, m, q, hwrite, hw, -⟩ := writeFileData_writes hM offset size buffer kmalloc
    rw [hstart] at hwrite
    exact ⟨w, by rw [VolumeOp.call, hwrite]; rfl, _, hw.layout⟩
  | free start =>
    obtain ⟨l, M, hM⟩ := hL.exists_chain hop
    obtain ⟨w, hfree, hw, -⟩ := hM.free
    exact ⟨w, by rw [VolumeOp.call, hfree]; rfl, _, hw⟩

/-- **Every sequence of calls keeps the volume well formed**, also a write that fails. -/
theorem wellFormed_of_reach (h : volumeCalls.Reach v) :
    WellFormed v ∧ ∀ op : VolumeOp, op.Allowed v → ∃ w, op.call v = some w := by
  have hv : WellFormed v := by
    refine System.Reach.invariant (fun _ hv => hv) ?_ h
    intro v op w hv hop hstep
    obtain ⟨w', hcall, hw⟩ := hv.call hop
    obtain rfl : w' = w := Option.some_inj.1 (hcall.symm.trans hstep)
    exact hw
  refine ⟨hv, fun op hop => ?_⟩
  obtain ⟨w, hcall, -⟩ := hv.call hop
  exact ⟨w, hcall⟩

/-- Two tables of one sector and four clusters of 512 bytes. -/
def smallMount : Mount where
  bytesPerSector := 512
  sectorsPerCluster := 1
  reservedSectors := 1
  numFats := 2
  totalSectors16 := 0
  totalSectors32 := 7
  fatSize32 := 1
  sector_size := rfl
  cluster_size := Nat.one_pos
  numFats_pos := Nat.two_pos
  fats_le := by decide
  fats_lt := by decide
  entries_le := by decide

/-- A volume of four free clusters. -/
@[irreducible]
def emptyVolume : Volume where
  mount := smallMount
  fsinfo := { freeCount := 4, nextFree := 2 }
  disk _ := 0

lemma emptyVolume_layout : Layout emptyVolume [] := by decide +kernel

/-- Four clusters are free, and the hint is at the first one. -/
theorem allocates_empty : Allocates emptyVolume ∧ freeClusters emptyVolume ≠ ∅ := by
  have hfree : freeClusters emptyVolume = {2, 3, 4, 5} := by decide +kernel
  refine ⟨(allocates_iff (by decide +kernel)).2 fun _ => .inr (by decide +kernel), ?_⟩
  simp [hfree]

/-- The hint is behind the last cluster, the only free one, which is not found. -/
theorem allocateCluster_misses_last :
    ∃ v : Volume, v.mount = smallMount ∧ v.fsinfo.nextFree = 6 ∧ freeClusters v = {5} ∧
      (allocateCluster v).1 = 0 :=
  ⟨⟨smallMount, ⟨1, 6⟩,
    ((Buffer.setWord (fun _ => 0) 520 eoc).setWord 524 eoc).setWord 528 eoc⟩, rfl,
    rfl, by decide +kernel⟩

/-- A write of 2000 bytes takes the four clusters there are and fails. -/
theorem wellFormed_of_reach_full :
    ∃ w, writeFileData emptyVolume 0 700 2000 (fun i => UInt8.ofNat i) (some fun _ => 0) =
      some (-1, 2, w) ∧ WellFormed emptyVolume ∧ WellFormed w := by
  have hinit : volumeCalls.Reach emptyVolume := .init ⟨[], emptyVolume_layout⟩
  have hop : (VolumeOp.write 0 700 2000 (fun i => UInt8.ofNat i) (some fun _ => 0)).Allowed
      emptyVolume := .inl (Eq.refl 0)
  obtain ⟨w, hw⟩ := (wellFormed_of_reach hinit).2 _ hop
  have hfail : (writeFileData emptyVolume 0 700 2000 (fun i => UInt8.ofNat i)
      (some fun _ => 0)).map (fun result => (result.1, result.2.1)) = some (-1, 2) := by
    decide +kernel
  have hcall := hw
  rw [VolumeOp.call, Option.map_eq_some_iff] at hcall
  obtain ⟨⟨r, start, u⟩, hwrite, hu⟩ := hcall
  rw [hwrite, Option.map_some, Option.some_inj] at hfail
  obtain ⟨rfl, rfl⟩ := hfail
  obtain rfl : u = w := hu
  have hreach : volumeCalls.Reach u := System.Reach.step
    (a := .write 0 700 2000 (fun i => UInt8.ofNat i) (some fun _ => 0)) hinit hop hw
  exact ⟨u, hwrite, (wellFormed_of_reach hinit).1, (wellFormed_of_reach hreach).1⟩

end FrostByte.Fat32
