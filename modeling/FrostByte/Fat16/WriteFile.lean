import FrostByte.Fat16.Directory

/-!
# Writing a file of a FAT16 volume

`fat16_write_file` writes sector by sector. After the last sector of a cluster it goes to the next
cluster before it looks whether there is anything left to write, so a write that fills the last
cluster to be had fails.

## Main definitions

* `writeFile` — `fat16_write_file`.
* `Stores`, `At` — what the loops store, and where a round of them stands.
* `WritesOrKeeps` — the bytes are written, or the file is as before.

## Main results

* `writeData_spec` — the bytes a write stores, as far as there is room.
* `writesOrKeeps_iff` — when a write does what it promises.
* `writeFile_full_cluster` — a write that fills the last cluster fails.
-/

namespace FrostByte.Fat16

open Word Chains
open Fat32 (toInt toInt_eq_iff toInt_eq_neg_one)

/-- `fat16_write_file`: the result, the file and the volume. -/
def writeFile (v : Volume) (file : File) (src : Buffer) (size : ℕ) : Option (ℤ × File × Volume) :=
  if file.isOpen = false ∨ size = 0 then some (-1, file, v)
  else
    (writeData v file src size).map fun (done, file, v) =>
      if done then
        let file := { file with entry := { file.entry with fileSize := file.fileSize } }
        (toInt size, file, updateDirEntryOnDisk v file.entry)
      else (-1, file, v)

/-! ## The bytes of a file -/

/-- The byte at a position of the file whose chain is `l`. -/
def fileByte (v : Volume) (l : List ℕ) (i : ℕ) : UInt8 :=
  v.disk (v.fs.clusterAddr (l.getD (i / v.fs.clusterSize) 0) + i % v.fs.clusterSize)

/-- The bytes of the file from `p` to `q` are those of `src` now, and its other bytes are as before.
The chain `l` has become `m`. -/
structure Stores (src : Buffer) (p q : ℕ) (v : Volume) (l : List ℕ) (w : Volume) (m : List ℕ) :
    Prop where
  room : ∀ i, p ≤ i → i < q → i < m.length * v.fs.clusterSize
  written : ∀ i, p ≤ i → i < q → fileByte w m i = src i
  kept : ∀ i < l.length * v.fs.clusterSize, ¬(p ≤ i ∧ i < q) → fileByte w m i = fileByte v l i

section

variable {v w u : Volume} {D : Finset ℕ} {L : List (List ℕ)} {l m k : List ℕ} {src : Buffer}
    {p q r i : ℕ}

lemma getElem?_of_lt (hi : i < l.length * v.fs.clusterSize) :
    l[i / v.fs.clusterSize]? = some (l.getD (i / v.fs.clusterSize) 0) := by
  have hlt : i / v.fs.clusterSize < l.length := Nat.div_lt_of_lt_mul (by rwa [Nat.mul_comm])
  rw [List.getElem?_eq_getElem hlt, List.getD_eq_getElem l 0 hlt]

lemma Stores.trans (h1 : Stores src p q v l w m) (h2 : Stores src q r w m u k) (hfs : w.fs = v.fs)
    (hlm : l.length ≤ m.length) (hmk : m.length ≤ k.length) (hpq : p ≤ q) (hqr : q ≤ r) :
    Stores src p r v l u k := by
  have hold := Nat.mul_le_mul_right v.fs.clusterSize hlm
  have hnew := Nat.mul_le_mul_right v.fs.clusterSize hmk
  refine ⟨fun i hp hr => ?_, fun i hp hr => ?_, fun i hi hout => ?_⟩
  · rcases Nat.lt_or_ge i q with hq | hq
    · exact (h1.room i hp hq).trans_le hnew
    · have := h2.room i hq hr
      rwa [hfs] at this
  · rcases Nat.lt_or_ge i q with hq | hq
    · have hin := h1.room i hp hq
      rw [h2.kept i (by rwa [hfs]) (by omega), h1.written i hp hq]
    · exact h2.written i hq hr
  · rw [h2.kept i (by rw [hfs]; omega) (by omega), h1.kept i hi (by omega)]

lemma Extends.stores (h : Extends v D L l w m) (hv : Layout v D (l :: L)) (src : Buffer) (p : ℕ) :
    Stores src p p v l w m := by
  refine ⟨fun i hp hi => absurd hp (Nat.not_le.2 hi), fun i hp hi => absurd hp (Nat.not_le.2 hi),
    fun i hi _ => ?_⟩
  obtain ⟨t, rfl⟩ := h.pre
  have hget := getElem?_of_lt hi
  have hbounds := Fs.clusterAddr_bounds (hv.mem_clusters (List.mem_of_getElem? hget))
  have hroot := v.fs.rootDirStart_le
  have hsame : (l ++ t).getD (i / v.fs.clusterSize) 0 = l.getD (i / v.fs.clusterSize) 0 :=
    List.getD_append _ _ _ _ (List.getElem?_eq_some_iff.1 hget).1
  unfold fileByte
  rw [h.fs, hsame]
  exact h.disk _ (by omega)

end

/-! ## The loops -/

variable {T b bw k size : ℕ} {f : File} {src : Buffer}

section

variable {v w : Volume} {D : Finset ℕ} {l m : List ℕ} {L : List (List ℕ)} {c i : ℕ}

lemma seekLoop_of_some {d : ℕ} (h : advance v c = (some d, w)) :
    seekLoop (k + 1) v c = seekLoop k w d := by
  rw [seekLoop, h]
  rfl

lemma seekLoop_of_none (h : advance v c = (none, w)) : seekLoop (k + 1) v c = (none, w) := by
  rw [seekLoop, h]
  rfl

/-- **The loop gets to the cluster of the offset** if there are clusters enough. -/
lemma seekLoop_spec (k : ℕ) (h : Layout v D (l :: L)) (hc : l[i]? = some c)
    (hroom : i + k < l.length + freeCount v D) :
    ∃ d w m, seekLoop k v c = (some d, w) ∧ m[i + k]? = some d ∧ Extends v D L l w m := by
  induction k generalizing v l c i with
  | zero => exact ⟨c, v, l, rfl, hc, Extends.refl h⟩
  | succ k ih =>
    obtain ⟨d, w, m, hadv, hd, hw⟩ := h.advance hc (by omega)
    obtain ⟨e, u, n, hseek, he, hu⟩ := ih hw.layout hd (by rw [hw.count]; omega)
    refine ⟨e, u, n, ?_, ?_, hw.trans hu⟩
    · rw [seekLoop_of_some hadv, hseek]
    · rwa [Nat.add_right_comm] at he

lemma seekLoop_fails (k : ℕ) (h : Layout v D (l :: L)) (hpad : ¬ FreePadding v)
    (hc : l[i]? = some c) (hroom : l.length + freeCount v D ≤ i + k) :
    ∃ w m, seekLoop k v c = (none, w) ∧ Grows v D L l w m := by
  induction k generalizing v l c i with
  | zero =>
    have := (List.getElem?_eq_some_iff.1 hc).1
    omega
  | succ k ih =>
    rcases Nat.lt_or_ge (i + 1) (l.length + freeCount v D) with hlt | hge
    · obtain ⟨d, w, m, hadv, hd, hw⟩ := h.advance hc hlt
      obtain ⟨u, n, hseek, hu⟩ := ih hw.layout (mt hw.freePadding_iff.1 hpad) hd
        (by rw [hw.count]; omega)
      exact ⟨u, n, by rw [seekLoop_of_some hadv, hseek], hw.toGrows.trans hu⟩
    · exact ⟨v, l, seekLoop_of_none (h.advance_eq_none hc hge hpad), Grows.refl h⟩

/-- The volume after one round of the loop, which changes the bytes of one sector. -/
def writeRound (v : Volume) (src : Buffer) (c s b bw n : ℕ) : Volume :=
  let lba := sectorLba v.fs c s
  { v with disk := writeSector v.disk lba ((readSector v.disk lba).copy b src bw n) }

lemma writeLoop_succ (src : Buffer) (fuel : ℕ) (v : Volume) (file : File) (c s b : ℕ)
    (hbw : bw < size) :
    writeLoop size src (fuel + 1) v file c s b bw =
      (let n := min (size - bw) (512 - b)
      let v' := writeRound v src c s b bw n
      if b + n < 512 then writeLoop size src fuel v' (file.written n) c s (b + n) (bw + n)
      else if s + 1 < v.fs.sectorsPerCluster.toNat then
        writeLoop size src fuel v' (file.written n) c (s + 1) 0 (bw + n)
      else
        (advance v' c).1.elim (some (false, file.written n, (advance v' c).2)) fun d =>
          writeLoop size src fuel (advance v' c).2 (file.written n) d 0 0 (bw + n)) := by
  rw [writeLoop, if_pos hbw]
  rfl

lemma writeLoop_of_le (fuel : ℕ) (file : File) {s : ℕ}
    (hbw : size ≤ bw) : writeLoop size src fuel v file c s b bw = some (true, file, v) := by
  rw [writeLoop.eq_def]
  exact if_neg (Nat.not_lt.2 hbw)

lemma writeLoop_file {s : ℕ} {file : File} (fuel : ℕ)
    (h : writeLoop size src fuel v file c s b bw = some (true, f, w))
    (hlt : file.currentOffset + (size - bw) < 2 ^ 32) :
    f.entry = file.entry ∧ f.isOpen = file.isOpen ∧
      f.fileSize = if bw < size then max file.fileSize (file.currentOffset + (size - bw))
        else file.fileSize := by
  induction fuel generalizing v file c s b bw with
  | zero =>
    rw [writeLoop] at h
    split_ifs at h with hbw
    obtain ⟨-, rfl, -⟩ := Prod.mk.inj (Option.some.inj h) |>.imp_right Prod.mk.inj
    exact ⟨rfl, rfl, (if_neg hbw).symm⟩
  | succ fuel ih =>
    rcases Nat.lt_or_ge bw size with hbw | hge
    · have hloop := writeLoop_succ src fuel v file c s b hbw
      generalize hn : min (size - bw) (512 - b) = n at hloop
      dsimp only at hloop
      -- the file after the first round
      have hoff : (file.written n).currentOffset = file.currentOffset + n := w32_of_lt (by omega)
      have hsize : (file.written n).fileSize = max file.fileSize (file.currentOffset + n) :=
        congrArg (max file.fileSize) hoff
      have hround : ∀ {v' c' s' b'}, writeLoop size src fuel v' (file.written n) c' s' b' (bw + n) =
          some (true, f, w) → f.entry = file.entry ∧ f.isOpen = file.isOpen ∧
            f.fileSize = max file.fileSize (file.currentOffset + (size - bw)) := by
        intro v' c' s' b' hrest
        obtain ⟨hentry, hopen, hfile⟩ := ih hrest (by rw [hoff]; omega)
        refine ⟨hentry, hopen, ?_⟩
        rw [hfile, hsize, hoff]
        split_ifs with hmore
        · omega
        · omega
      rw [if_pos hbw]
      rw [hloop] at h
      split_ifs at h
      · exact hround h
      · exact hround h
      · cases hadv : (advance (writeRound v src c s b bw n) c).1 with
        | none =>
          rw [hadv] at h
          cases h
        | some d =>
          rw [hadv] at h
          exact hround h
    · rw [writeLoop_of_le _ _ hge] at h
      obtain ⟨-, rfl, -⟩ := Prod.mk.inj (Option.some.inj h) |>.imp_right Prod.mk.inj
      exact ⟨rfl, rfl, (if_neg (Nat.not_lt.2 hge)).symm⟩

/-- The loop is at a byte in the `i`-th cluster of the chain. -/
structure At (v : Volume) (D : Finset ℕ) (L : List (List ℕ)) (l : List ℕ) (pos i c s b : ℕ) :
    Prop where
  layout : Layout v D (l :: L)
  cluster : l[i]? = some c
  sector : s < v.fs.sectorsPerCluster.toNat
  byte : b < 512
  pos_eq : pos = i * v.fs.clusterSize + s * 512 + b

lemma At.pos_lt {pos s : ℕ} (hat : At v D L l pos i c s b) :
    pos < (l.length + freeCount v D) * v.fs.clusterSize := by
  have hi := (List.getElem?_eq_some_iff.1 hat.cluster).1
  have hmul :=
    Nat.mul_le_mul_right v.fs.clusterSize (show i + 1 ≤ l.length + freeCount v D by omega)
  have hs := hat.sector
  have hb := hat.byte
  have hpos := hat.pos_eq
  rw [Nat.add_mul] at hmul
  have hsize : v.fs.clusterSize = v.fs.sectorsPerCluster.toNat * 512 := rfl
  omega

lemma writeRound_disk {s n : ℕ} (hc : c ∈ v.fs.clusters) (hs : s < v.fs.sectorsPerCluster.toNat)
    (hn : b + n ≤ 512) (src : Buffer) (bw a : ℕ) : (writeRound v src c s b bw n).disk a =
      if v.fs.clusterAddr c + s * 512 + b ≤ a ∧ a < v.fs.clusterAddr c + s * 512 + b + n then
        src (bw + (a - (v.fs.clusterAddr c + s * 512 + b)))
      else v.disk a := by
  have hlba := Fs.sectorLba_eq hc hs
  obtain ⟨-, hlt⟩ := Fs.sectorLba_eq_add hc hs
  rw [w32_of_lt (by omega)] at hlba
  simp only [writeRound, writeSector, Buffer.copy]
  rw [w32_of_lt (by omega), hlba]
  split_ifs with h1 h2 h3 h4
  · exact congrArg src (by omega)
  · omega
  · omega
  · rw [readSector_apply hlt (by omega), hlba]
    exact congrArg v.disk (by omega)
  · omega
  · rfl

lemma writeRound_fs (v : Volume) (src : Buffer) (c s b bw n : ℕ) :
    (writeRound v src c s b bw n).fs = v.fs := by
  rw [writeRound]

/-- **One round of the loop** stores the bytes that go to the sector. -/
lemma At.stores {off s n : ℕ} (hat : At v D L l (off + bw) i c s b) (hn : b + n ≤ 512)
    (src : Buffer) :
    Stores (fun j => src (j - off)) (off + bw) (off + (bw + n)) v l
    (writeRound v src c s b bw n) l := by
  obtain ⟨h, hc, hs, -, hpos⟩ := hat
  have hmem := h.mem_clusters (List.mem_of_getElem? hc)
  have hlen := (List.getElem?_eq_some_iff.1 hc).1
  have hmul := Nat.mul_le_mul_right v.fs.clusterSize (show i + 1 ≤ l.length by omega)
  rw [Nat.add_mul] at hmul
  have hsize : s * 512 + 512 ≤ v.fs.clusterSize := by
    unfold BootSector.clusterSize
    omega
  refine ⟨fun j hp hq => by omega, fun j hp hq => ?_, fun j hj hout => ?_⟩
  · have hdiv : j / v.fs.clusterSize = i := by
      refine Nat.div_eq_of_lt_le (by omega) ?_
      rw [Nat.add_mul]
      omega
    have hmod := Nat.div_add_mod' j v.fs.clusterSize
    rw [hdiv] at hmod
    have hget : l.getD i 0 = c := by
      rw [List.getD_eq_getElem?_getD, hc]
      rfl
    rw [fileByte, writeRound_fs, hdiv, hget, writeRound_disk hmem hs hn, if_pos (by omega)]
    exact congrArg src (by omega)
  · have hget := getElem?_of_lt hj
    have hmod := Nat.div_add_mod' j v.fs.clusterSize
    have hlt := Nat.mod_lt j v.fs.clusterSize_pos
    rw [fileByte, writeRound_fs, writeRound_disk hmem hs hn]
    refine if_neg fun hin => ?_
    rcases eq_or_ne (l.getD (j / v.fs.clusterSize) 0) c with heq | hne
    · -- the chain has the cluster only once
      rw [heq] at hget hin
      have hdiv := (List.getElem?_inj (List.getElem?_eq_some_iff.1 hget).1
        (h.shape.nodup_of_mem List.mem_cons_self)).1 (hget.trans hc.symm)
      rw [hdiv] at hmod
      omega
    · have := Fs.clusterAddr_disjoint (h.mem_clusters (List.mem_of_getElem? hget)) hmem hne
      omega

lemma writeRound_grows {pos s : ℕ} (hat : At v D L l pos i c s b) (src : Buffer) (bw n : ℕ) :
    Grows v D L l (writeRound v src c s b bw n) l := by
  rw [writeRound]
  exact Grows.of_sector hat.layout (List.mem_of_getElem? hat.cluster) hat.sector _

lemma writeLoop_done {off s : ℕ} {fs : Fs} {file : File} (fuel : ℕ)
    (hat : At v D L l (off + size) i c s b) (hfs : v.fs = fs) (hT : l.length + freeCount v D = T) :
    ∃ f w m, writeLoop size src fuel v file c s b size =
        some (decide (off + size < T * fs.clusterSize), f, w) ∧ f.entry = file.entry ∧
      Grows v D L l w m ∧ (off + size < T * fs.clusterSize →
        Stores (fun j => src (j - off)) (off + size) (off + size) v l w m) := by
  have hlt := hat.pos_lt
  rw [hT, hfs] at hlt
  refine ⟨file, v, l, ?_, rfl, Grows.refl hat.layout, fun _ => ?_⟩
  · rw [writeLoop_of_le _ _ le_rfl, decide_eq_true hlt]
  · exact (Extends.refl hat.layout).stores hat.layout _ _

/-- **The loop that writes** ends if there is a cluster for the byte behind the last one, and the
file then has all bytes. -/
lemma writeLoop_spec {off s : ℕ} {fs : Fs} (src : Buffer) (file : File) (fuel : ℕ)
    (hat : At v D L l (off + bw) i c s b) (hfs : v.fs = fs) (hT : l.length + freeCount v D = T)
    (hpad : T * fs.clusterSize ≤ off + size → ¬ FreePadding v) (hle : bw ≤ size)
    (hfuel : size ≤ bw + fuel) :
    ∃ f w m,
    writeLoop size src fuel v file c s b bw =
    some (decide (off + size < T * fs.clusterSize), f, w) ∧
      f.entry = file.entry ∧ Grows v D L l w m ∧ (off + size < T * fs.clusterSize →
        Stores (fun j => src (j - off)) (off + bw) (off + size) v l w m) := by
  induction fuel generalizing v l c i s b bw file with
  | zero =>
    obtain rfl : bw = size := by omega
    exact writeLoop_done 0 hat hfs hT
  | succ fuel ih =>
    rcases Nat.lt_or_ge bw size with hbw | hge
    · have hloop := writeLoop_succ src fuel v file c s b hbw
      have hb := hat.byte
      generalize hn : min (size - bw) (512 - b) = n at hloop
      have hstep := writeRound_grows hat src bw n
      have hround := hat.stores (show b + n ≤ 512 by omega) src
      obtain ⟨v', hv'⟩ : ∃ v' : Volume, v' = writeRound v src c s b bw n := ⟨_, rfl⟩
      dsimp only at hloop
      rw [← hv'] at hstep hround hloop
      have hsize : fs.clusterSize = fs.sectorsPerCluster.toNat * 512 := rfl
      obtain ⟨h, hc, hs, -, hpos⟩ := hat
      have hfs' : v'.fs = fs := hstep.fs.trans hfs
      have hT' : l.length + freeCount v' D = T := hstep.count.trans hT
      have hpad' : T * fs.clusterSize ≤ off + size → ¬ FreePadding v' :=
        fun hle => mt hstep.freePadding_iff.1 (hpad hle)
      -- what the other rounds store comes behind what this one has stored
      have hrounds : ∀ {w : Volume} {m : List ℕ}, Grows v' D L l w m →
          Stores (fun j => src (j - off)) (off + (bw + n)) (off + size) v' l w m →
          Stores (fun j => src (j - off)) (off + bw) (off + size) v l w m := fun hw hrest =>
        hround.trans hrest hstep.fs le_rfl hw.pre.length_le (by omega) (by omega)
      rw [hfs] at hs hpos hloop
      rw [hloop]
      split_ifs with h512 hsec
      · -- the sector is not full, so this was the last round
        have hat' : At v' D L l (off + (bw + n)) i c s (b + n) :=
          ⟨hstep.layout, hc, hfs' ▸ hs, h512, by rw [hfs']; omega⟩
        obtain ⟨f, w, m, heq, hf, hw, hrest⟩ :=
          ih (file.written n) hat' hfs' hT' hpad' (by omega) (by omega)
        exact ⟨f, w, m, heq, hf, hstep.trans hw, fun hlt => hrounds hw (hrest hlt)⟩
      · have hat' : At v' D L l (off + (bw + n)) i c (s + 1) 0 :=
          ⟨hstep.layout, hc, hfs' ▸ hsec, by decide, by rw [hfs']; omega⟩
        obtain ⟨f, w, m, heq, hf, hw, hrest⟩ :=
          ih (file.written n) hat' hfs' hT' hpad' (by omega) (by omega)
        exact ⟨f, w, m, heq, hf, hstep.trans hw, fun hlt => hrounds hw (hrest hlt)⟩
      · have hend : off + (bw + n) = (i + 1) * fs.clusterSize := by
          rw [Nat.add_mul]
          omega
        rcases Nat.lt_or_ge (i + 1) T with hlt | hge
        · obtain ⟨d, u, k, hadv, hd, hu⟩ := hstep.layout.advance hc (by omega)
          have hat' : At u D L k (off + (bw + n)) (i + 1) d 0 0 :=
            ⟨hu.layout, hd, u.fs.cluster_size, by decide, by rw [hu.fs, hfs']; omega⟩
          obtain ⟨f, w, m, heq, hf, hw, hrest⟩ :=
            ih (file.written n) hat' (hu.fs.trans hfs') (hu.count.trans hT')
              (fun hle => mt hu.freePadding_iff.1 (hpad' hle)) (by omega) (by omega)
          refine ⟨f, w, m, by rw [hadv]; exact heq, hf, hstep.trans (hu.toGrows.trans hw),
            fun hlt => ?_⟩
          exact hrounds (hu.toGrows.trans hw) ((hu.stores hstep.layout _ _).trans (hrest hlt) hu.fs
            hu.pre.length_le hw.pre.length_le le_rfl (by omega))
        · have hfull : T * fs.clusterSize ≤ off + size := by
            have := Nat.mul_le_mul_right fs.clusterSize hge
            omega
          refine ⟨file.written n, v', l, ?_, rfl, hstep, fun hlt => absurd hlt (Nat.not_lt.2 hfull)⟩
          rw [hstep.layout.advance_eq_none hc (by omega) (hpad' hfull),
            decide_eq_false (Nat.not_lt.2 hfull)]
          rfl
    · obtain rfl : bw = size := by omega
      exact writeLoop_done (fuel + 1) hat hfs hT

lemma seek_writeLoop (file : File) (src : Buffer) (size : ℕ) (h : Layout v D (l :: L))
    (hc : l[0]? = some c) (hT : l.length + freeCount v D = T)
    (hpad : T * v.fs.clusterSize ≤ file.currentOffset + size → ¬ FreePadding v) :
    ∃ f w m, (seekLoop (file.currentOffset / v.fs.clusterSize) v c).1.elim
        (some (false, file, (seekLoop (file.currentOffset / v.fs.clusterSize) v c).2))
        (fun d =>
          writeLoop size src size (seekLoop (file.currentOffset / v.fs.clusterSize) v c).2 file d
          (file.currentOffset % v.fs.clusterSize / 512)
          (file.currentOffset % v.fs.clusterSize % 512) 0) =
        some (decide (file.currentOffset + size < T * v.fs.clusterSize), f, w) ∧
      f.entry = file.entry ∧ Grows v D L l w m ∧ (file.currentOffset + size < T * v.fs.clusterSize →
        Stores (fun j => src (j - file.currentOffset)) file.currentOffset
        (file.currentOffset + size)
          v l w m) := by
  have hdiv := Nat.div_add_mod file.currentOffset v.fs.clusterSize
  rw [Nat.mul_comm] at hdiv
  have hmod := Nat.mod_lt file.currentOffset v.fs.clusterSize_pos
  rcases Nat.lt_or_ge (file.currentOffset / v.fs.clusterSize) T with hlt | hge
  · obtain ⟨d, u, k, hseek, hd, hu⟩ := seekLoop_spec _ h hc (by rw [hT, Nat.zero_add]; exact hlt)
    have hat : At u D L k (file.currentOffset + 0) (0 + file.currentOffset / v.fs.clusterSize) d
        (file.currentOffset % v.fs.clusterSize / 512)
        (file.currentOffset % v.fs.clusterSize % 512) := by
      refine ⟨hu.layout, hd, ?_, Nat.mod_lt _ (by decide), ?_⟩
      · rw [hu.fs]
        exact Nat.div_lt_of_lt_mul (by rwa [Nat.mul_comm])
      · rw [hu.fs, Nat.zero_add]
        omega
    obtain ⟨f, w, m, hloop, hf, hw, hrest⟩ := writeLoop_spec src file size hat hu.fs
      (hu.count.trans hT) (fun hle => mt hu.freePadding_iff.1 (hpad hle)) (Nat.zero_le _) (by omega)
    refine ⟨f, w, m, by rw [hseek]; exact hloop, hf, hu.toGrows.trans hw, fun hlt => ?_⟩
    exact (hu.stores h _ _).trans (hrest hlt) hu.fs hu.pre.length_le hw.pre.length_le le_rfl
      (by omega)
  · have hfull : T * v.fs.clusterSize ≤ file.currentOffset + size := by
      have := Nat.mul_le_mul_right v.fs.clusterSize hge
      omega
    obtain ⟨u, k, hseek, hu⟩ := seekLoop_fails (file.currentOffset / v.fs.clusterSize) h
      (hpad hfull) hc (by rw [hT, Nat.zero_add]; exact hge)
    refine ⟨file, u, k, ?_, rfl, hu, fun hlt => absurd hlt (Nat.not_lt.2 hfull)⟩
    rw [hseek, decide_eq_false (Nat.not_lt.2 hfull)]
    rfl

end

/-! ## The data of a file -/

lemma Grows.head {v w : Volume} {D : Finset ℕ} {L : List (List ℕ)} {l m : List ℕ} {c : ℕ}
    (h : Grows v D L l w m) (hc : l.head? = some c) : m.head? = some c := by
  obtain ⟨t, rfl⟩ := h.pre
  rw [List.head?_append, hc]
  rfl

/-- The chain of an open file begins at its first cluster. -/
structure HasChain (v : Volume) (D : Finset ℕ) (L : List (List ℕ)) (l : List ℕ) (e : DirEntry) :
    Prop where
  layout : Layout v D (l :: L)
  first : l = [] ∧ e.firstCluster < 2 ∨ l.head? = some e.firstCluster

section

variable {v w : Volume} {D : Finset ℕ} {l m : List ℕ} {L : List (List ℕ)} {file : File}

/-- The bytes that the clusters of a file and the free ones hold. -/
def room (v : Volume) (D : Finset ℕ) (l : List ℕ) : ℕ :=
  (l.length + freeCount v D) * v.fs.clusterSize

/-- **Writing the data** succeeds if there is room for one more byte. -/
lemma writeData_spec (h : HasChain v D L l file.entry) (src : Buffer) (size : ℕ)
    (hpad : room v D l ≤ file.currentOffset + size → ¬ FreePadding v) :
    ∃ f w m, writeData v file src size =
        some (decide (file.currentOffset + size < room v D l), f, w) ∧
      f.entry = { file.entry with firstCluster := m.head?.getD file.entry.firstCluster } ∧
      Grows v D L l w m ∧ (file.currentOffset + size < room v D l →
        Stores (fun j => src (j - file.currentOffset)) file.currentOffset
        (file.currentOffset + size)
          v l w m) := by
  unfold writeData
  dsimp only
  rcases h.first with ⟨rfl, hlt⟩ | hhead
  · rw [if_pos hlt, if_pos hlt]
    rcases Nat.eq_zero_or_pos (freeCount v D) with hzero | hpos
    · have hroom : room v D [] = 0 := by simp [room, hzero]
      rw [hroom] at hpad ⊢
      rw [h.layout.findFree_eq_zero hzero (hpad (Nat.zero_le _))]
      exact ⟨file, v, [], rfl, rfl, Grows.refl h.layout, fun hlt => absurd hlt (Nat.not_lt_zero _)⟩
    · obtain ⟨hmem, hfree⟩ := h.layout.findFree hpos
      have hne : findFreeCluster v ≠ 0 := by
        rw [Fs.mem_clusters] at hmem
        omega
      have hstart := Extends.start h.layout hmem hfree
      rw [if_neg hne]
      obtain ⟨f, w, m, heq, hf, hw, hrest⟩ := seek_writeLoop
        { file with entry := { file.entry with firstCluster := findFreeCluster v } } src size
        hstart.layout rfl hstart.count fun hle => mt hstart.freePadding_iff.1 (hpad hle)
      refine ⟨f, w, m, heq, by rw [hf, hw.head rfl]; rfl, hstart.toGrows.trans hw, fun hroom => ?_⟩
      exact (hstart.stores h.layout _ _).trans (hrest hroom) hstart.fs hstart.pre.length_le
        hw.pre.length_le le_rfl (by omega)
  · have hmem := h.layout.mem_clusters (List.mem_of_mem_head? hhead)
    rw [Fs.mem_clusters] at hmem
    rw [if_neg (Nat.not_lt.2 hmem.1), if_neg (by omega), if_neg (Nat.not_lt.2 hmem.1)]
    obtain ⟨f, w, m, heq, hf, hw, hrest⟩ := seek_writeLoop file src size h.layout
      (by rwa [← List.head?_eq_getElem?]) rfl hpad
    exact ⟨f, w, m, heq, by rw [hf, hw.head hhead]; rfl, hw, hrest⟩

end

/-! ## A free entry behind the last cluster -/

/-- The cluster is behind the last one, or in use. -/
def InUse (v : Volume) (c : ℕ) : Prop :=
  2 ≤ c ∧ (c < v.fs.totalClusters + 2 → fatEntry v c ≠ freeCluster)

/-- From clusters in use one gets to such clusters only. -/
def Closed (v : Volume) : Prop :=
  ∀ c ∈ v.fs.clusters, fatEntry v c ≠ freeCluster → fatEntry v c < endOfChain →
    InUse v (fatEntry v c)

/-- The write does not fail: it has left the volume, or a free entry will always be found. -/
structure Safe (v : Volume) (c : ℕ) : Prop where
  inUse : InUse v c
  inside : c < v.fs.totalClusters + 2 → FreePadding v ∧ Closed v

section

variable {v w : Volume} {D : Finset ℕ} {l : List ℕ} {L : List (List ℕ)} {c d : ℕ}

lemma Safe.of_le (h : v.fs.totalClusters + 2 ≤ c) : Safe v c :=
  ⟨⟨by omega, fun hlt => absurd hlt (Nat.not_lt.2 h)⟩, fun hlt => absurd hlt (Nat.not_lt.2 h)⟩

lemma Layout.closed (h : Layout v D L) : Closed v := by
  intro c hc hused hlt
  by_cases hD : c ∈ D
  · have hcell : cell v c ≠ .free := mt toCell_eq_free.1 hused
    obtain ⟨l, hl, hcl⟩ := List.mem_flatten.1 ((h.shape.used c).2 ⟨hD, hcell⟩)
    obtain ⟨i, hi⟩ := List.getElem?_of_mem hcl
    have hlink := h.shape.linked l hl i c hi
    rcases hd : l[i + 1]? with _ | d
    · rw [hd] at hlink
      exact absurd (toCell_eq_last.1 hlink) (Nat.not_le.2 hlt)
    · rw [hd] at hlink
      obtain ⟨heq, -⟩ := toCell_eq_next hlink
      have hdl := List.mem_of_getElem? hd
      rw [heq]
      exact ⟨(Fs.mem_clusters.1 (h.subset (h.shape.mem hl hdl))).1,
        fun _ => mt toCell_eq_free.2 (h.shape.ne_free hl hdl)⟩
  · rw [h.bad c hc hD]
    have := v.fs.totalClusters_lt
    unfold badCluster
    exact ⟨by decide, fun _ => by omega⟩

lemma Closed.of_entries (h : Closed v) (hfs : w.fs = v.fs)
    (hentry : ∀ n < v.fs.fatEntries, fatEntry w n = fatEntry v n ∨
      fatEntry w n ≠ freeCluster ∧
      (fatEntry w n < endOfChain → InUse w (fatEntry w n))) : Closed w := by
  intro c hc hused hlt
  rw [hfs] at hc
  rcases hentry c (Fs.lt_fatEntries hc) with heq | hnew
  · rw [heq] at hused hlt ⊢
    obtain ⟨h2, hnext⟩ := h c hc hused hlt
    refine ⟨h2, fun hin => ?_⟩
    rw [hfs] at hin
    rcases hentry _ (hin.trans_le v.fs.fatEntries_le) with heq' | hnew'
    · rw [heq']
      exact hnext hin
    · exact hnew'.1
  · exact hnew.2 hlt

lemma FreePadding.findFree (h : FreePadding v) : 2 ≤ findFreeCluster v ∧
    findFreeCluster v < 2 ^ 16 ∧ findFreeCluster v < v.fs.fatEntries := by
  obtain ⟨n, -, hn, hfree⟩ := h
  obtain ⟨m, hm, hf, heq, -⟩ := findFreeCluster_eq ⟨n, hn, hfree⟩
  have hle : w16 m ≤ m := Nat.mod_le ..
  rw [heq]
  exact ⟨hf.2, Nat.mod_lt _ (by decide), by omega⟩

lemma FreePadding.of_entries (h : FreePadding v) (hfs : w.fs = v.fs)
    (hentry : ∀ n < v.fs.fatEntries, v.fs.totalClusters + 2 ≤ n → fatEntry w n = fatEntry v n) :
    FreePadding w := by
  obtain ⟨n, hge, hn, hfree⟩ := h
  refine ⟨n, hfs ▸ hge, hfs ▸ hn, isFree_iff.mpr ?_⟩
  rw [hentry n hn hge]
  exact hfree

lemma Safe.advance (h : Safe v c) :
    ∃ d w, Fat16.advance v c = (some d, w) ∧ Safe w d ∧ w.fs = v.fs := by
  have hbad := v.fs.totalClusters_lt
  unfold Fat16.advance getNextCluster
  dsimp only
  rcases Nat.lt_or_ge c (v.fs.totalClusters + 2) with hin | hout
  · obtain ⟨hpad, hclosed⟩ := h.inside hin
    have hc : c ∈ v.fs.clusters := Fs.mem_clusters.2 ⟨h.inUse.1, hin⟩
    have hcn := Fs.lt_fatEntries hc
    rw [if_neg (Nat.not_le.2 hin)]
    split_ifs with hend hzero
    · have := hpad.findFree
      omega
    · obtain ⟨h2, h16, hdn⟩ := hpad.findFree
      generalize hd : findFreeCluster v = d at h2 h16 hdn ⊢
      refine ⟨d, _, rfl, ?_, rfl⟩
      have hentry := fun n hn => link_entry (n := n) hcn hdn h16 hn
      have hused : InUse (setClusterValue (setClusterValue v c d) d 0xFFFF) d := by
        refine ⟨h2, fun _ => ?_⟩
        rw [hentry d hdn, if_pos rfl]
        decide
      refine ⟨hused, fun hdin => ⟨hpad.of_entries rfl fun n hn hge => ?_,
        hclosed.of_entries rfl fun n hn => ?_⟩⟩
      · have hdin' : d < v.fs.totalClusters + 2 := hdin
        rw [hentry n hn, if_neg (by omega), if_neg (by omega)]
      · rw [hentry n hn]
        split_ifs with hnd hnc
        · exact .inr ⟨by decide, fun hlt => absurd hlt (by decide)⟩
        · exact .inr ⟨fun h0 => by rw [h0] at h2; exact absurd h2 (by decide), fun _ => hused⟩
        · exact .inl rfl
    · have hnext := hclosed c hc (h.inUse.2 hin) (Nat.lt_of_not_le hend)
      exact ⟨_, v, rfl, ⟨hnext, fun _ => ⟨hpad, hclosed⟩⟩, rfl⟩
  · rw [if_pos hout]
    exact ⟨badCluster, v, rfl, Safe.of_le (by unfold badCluster; omega), rfl⟩

lemma Safe.sector (h : Safe v c) {s : ℕ} (hs : s < v.fs.sectorsPerCluster.toNat) (sector : Buffer) :
    Safe { v with disk := writeSector v.disk (sectorLba v.fs c s) sector } c := by
  rcases Nat.lt_or_ge c (v.fs.totalClusters + 2) with hin | hout
  · obtain ⟨hpad, hclosed⟩ := h.inside hin
    have hc : c ∈ v.fs.clusters := Fs.mem_clusters.2 ⟨h.inUse.1, hin⟩
    refine ⟨⟨h.inUse.1, fun _ => ?_⟩, fun _ => ⟨hpad.of_entries rfl fun n hn _ => ?_,
      hclosed.of_entries rfl fun n hn => .inl ?_⟩⟩
    · rw [fatEntry_writeSector hc hs sector (Fs.lt_fatEntries hc)]
      exact h.inUse.2 hin
    · exact fatEntry_writeSector hc hs sector hn
    · exact fatEntry_writeSector hc hs sector hn
  · exact Safe.of_le hout

lemma Safe.seekLoop (k : ℕ) (h : Safe v c) :
    ∃ d w, Fat16.seekLoop k v c = (some d, w) ∧ Safe w d ∧ w.fs = v.fs := by
  induction k generalizing v c with
  | zero => exact ⟨c, v, rfl, h, rfl⟩
  | succ k ih =>
    obtain ⟨d, w, hadv, hw, hfs⟩ := h.advance
    obtain ⟨e, u, hseek, hu, hfs'⟩ := ih hw
    exact ⟨e, u, by rw [seekLoop_of_some hadv, hseek], hu, hfs'.trans hfs⟩

lemma Safe.writeLoop {s : ℕ} {file : File} (fuel : ℕ) (h : Safe v c)
    (hs : s < v.fs.sectorsPerCluster.toNat) (hb : b < 512) (hfuel : size ≤ bw + fuel) :
    ∃ f w, Fat16.writeLoop size src fuel v file c s b bw = some (true, f, w) := by
  induction fuel generalizing v c s b bw file with
  | zero => exact ⟨file, v, writeLoop_of_le _ _ hfuel⟩
  | succ fuel ih =>
    rcases Nat.lt_or_ge bw size with hbw | hge
    · have hloop := writeLoop_succ src fuel v file c s b hbw
      generalize hn : min (size - bw) (512 - b) = n at hloop
      have hstep : Safe (writeRound v src c s b bw n) c := by
        rw [writeRound]
        exact h.sector hs _
      have hfs := writeRound_fs v src c s b bw n
      dsimp only at hloop
      rw [← hfs] at hs
      rw [hloop, ← hfs]
      generalize writeRound v src c s b bw n = v' at hstep hs
      split_ifs with h512 hsec
      · exact ih hstep hs h512 (by omega)
      · exact ih hstep hsec (by decide) (by omega)
      · obtain ⟨d, u, hadv, hu, hfs⟩ := hstep.advance
        rw [hadv]
        exact ih hu u.fs.cluster_size (by decide) (by omega)
    · exact ⟨file, v, writeLoop_of_le _ _ hge⟩

/-- **Writing the data does not fail** with a free entry behind the last cluster. -/
lemma writeData_safe {file : File} (h : HasChain v D L l file.entry) (hpad : FreePadding v)
    (src : Buffer) (size : ℕ) : ∃ f w, writeData v file src size = some (true, f, w) := by
  have hloops : ∀ {v : Volume} {c : ℕ} (file : File), Safe v c →
      ∃ f w, (Fat16.seekLoop (file.currentOffset / v.fs.clusterSize) v c).1.elim
        (some (false, file, (Fat16.seekLoop (file.currentOffset / v.fs.clusterSize) v c).2))
        (fun d => Fat16.writeLoop size src size
          (Fat16.seekLoop (file.currentOffset / v.fs.clusterSize) v c).2 file d
          (file.currentOffset % v.fs.clusterSize / 512)
          (file.currentOffset % v.fs.clusterSize % 512) 0) = some (true, f, w) := by
    intro v c file hsafe
    obtain ⟨d, u, hseek, hu, hfs⟩ := hsafe.seekLoop (file.currentOffset / v.fs.clusterSize)
    have hmod := Nat.mod_lt file.currentOffset v.fs.clusterSize_pos
    rw [hseek]
    exact hu.writeLoop size (by rw [hfs]; exact Nat.div_lt_of_lt_mul (by rwa [Nat.mul_comm]))
      (Nat.mod_lt _ (by decide)) (by omega)
  unfold writeData
  dsimp only
  rcases h.first with ⟨rfl, hlt⟩ | hhead
  · obtain ⟨h2, h16, hdn⟩ := hpad.findFree
    obtain ⟨d, hd⟩ : ∃ d, d = findFreeCluster v := ⟨_, rfl⟩
    rw [if_pos hlt, if_pos hlt, ← hd]
    rw [← hd] at h2 h16 hdn
    rw [if_neg (by omega)]
    refine hloops { file with entry := { file.entry with firstCluster := d } } ?_
    have hentry := fun n hn => setClusterValue_entry (n := n) hdn (x := 0xFFFF) (by decide) hn
    refine ⟨⟨h2, fun _ => ?_⟩, fun hdin => ⟨hpad.of_entries rfl fun n hn hge => ?_,
      h.layout.closed.of_entries rfl fun n hn => ?_⟩⟩
    · rw [hentry d hdn, if_pos rfl]
      decide
    · have hdin' : d < v.fs.totalClusters + 2 := hdin
      rw [hentry n hn, if_neg (by omega)]
    · rw [hentry n hn]
      split_ifs with hnd
      · exact .inr ⟨by decide, fun hlt => absurd hlt (by decide)⟩
      · exact .inl rfl
  · have hl := List.mem_of_mem_head? hhead
    have hmem := Fs.mem_clusters.1 (h.layout.mem_clusters hl)
    rw [if_neg (Nat.not_lt.2 hmem.1), if_neg (by omega), if_neg (Nat.not_lt.2 hmem.1)]
    exact hloops file ⟨⟨hmem.1, fun _ => mt toCell_eq_free.2 (h.layout.shape.ne_free (.head _) hl)⟩,
      fun _ => ⟨hpad, h.layout.closed⟩⟩

end

/-! ## The write as a whole -/

/-- The slot is in the root directory or another directory. -/
def Slot.InDirs (s : Slot) (fs : Fs) (L : List (List ℕ)) : Prop :=
  s ∈ rootSlots fs ∨ ∃ c ∈ L.flatten, s ∈ clusterSlots fs c

/-- The chain covers the size that an entry records. -/
def Covers (fs : Fs) (l : List ℕ) (e : DirEntry) : Prop :=
  e.firstCluster < 2 ∧ e.fileSize = 0 ∨
    l.head? = some e.firstCluster ∧ e.fileSize ≤ l.length * fs.clusterSize

/-- An open file: its chain, its entry, and where the next write goes. -/
structure IsFile (v : Volume) (D : Finset ℕ) (L : List (List ℕ)) (l : List ℕ) (s : Slot)
    (file : File) : Prop where
  chain : HasChain v D L l file.entry
  slot : s.InDirs v.fs L
  covers : Covers v.fs l (entryAt v.disk s)
  isOpen : file.isOpen = true
  size_le : file.fileSize ≤ l.length * v.fs.clusterSize

/-- The length of the file after a write. -/
def File.newLength (file : File) (size : ℕ) : ℕ :=
  if size = 0 then file.fileSize else max file.fileSize (file.currentOffset + size)

/-- A write succeeds if the free clusters hold the file, and otherwise the chain still covers the
recorded size. -/
def WritesOrKeeps (v : Volume) (D : Finset ℕ) (L : List (List ℕ)) (l : List ℕ) (s : Slot)
    (file : File) (src : Buffer) (size : ℕ) : Prop :=
  ∃ r f w, writeFile v file src size = some (r, f, w) ∧
    (file.newLength size ≤ room v D l → r = size) ∧
    (r = -1 → ∃ m, Layout w D (m :: L) ∧ Covers w.fs m (entryAt w.disk s))

section

variable {v w : Volume} {D : Finset ℕ} {l m : List ℕ} {L : List (List ℕ)} {s : Slot} {file : File}

lemma Slot.InDirs.valid (h : Layout v D L) (hs : s.InDirs v.fs L) : s.Valid := by
  rcases hs with hroot | ⟨c, hc, hslot⟩
  · exact (rootSlots_addr hroot).1
  · obtain ⟨k, hk, hck⟩ := List.mem_flatten.1 hc
    exact (mem_clusterSlots (h.subset (h.shape.mem hk hck)) hslot).1

lemma Grows.slot (h : Grows v D L l w m) (hs : s.InDirs v.fs L) (hk : k < 32) :
    w.disk (s.addr + k) = v.disk (s.addr + k) := by
  rcases hs with hroot | ⟨c, hc, hslot⟩
  · obtain ⟨-, hge, hle⟩ := rootSlots_addr hroot
    exact h.root _ (by omega) (by omega)
  · obtain ⟨n, hn, hcn⟩ := List.mem_flatten.1 hc
    have hmem := h.layout.subset (h.layout.shape.mem (.tail _ hn) hcn)
    rw [h.fs] at hmem
    obtain ⟨-, hge, hle⟩ := mem_clusterSlots hmem hslot
    have hdata := h.data c hc (s.addr + k - v.fs.clusterAddr c) (by omega)
    rwa [show v.fs.clusterAddr c + (s.addr + k - v.fs.clusterAddr c) = s.addr + k by omega] at hdata

lemma Grows.entryAt (h : Grows v D L l w m) (hs : s.InDirs v.fs L) :
    Fat16.entryAt w.disk s = Fat16.entryAt v.disk s := by
  have hvalid : s.Valid := by
    refine Slot.InDirs.valid h.layout ?_
    rw [h.fs]
    refine hs.imp_right fun ⟨c, hc, hslot⟩ => ⟨c, ?_, hslot⟩
    exact List.mem_append_right _ hc
  exact entryAt_congr hvalid fun k hk => h.slot hs hk

lemma Grows.covers (h : Grows v D L l w m) {e : DirEntry} (hl : Covers v.fs l e) :
    Covers w.fs m e := by
  rw [h.fs]
  refine hl.imp_right fun ⟨hhead, hle⟩ => ⟨h.head hhead, hle.trans ?_⟩
  exact Nat.mul_le_mul_right _ h.pre.length_le

lemma writeFile_of_failed (hopen : file.isOpen = true)
    (hsize : size ≠ 0) (h : writeData v file src size = some (false, f, w)) :
    writeFile v file src size = some (-1, f, w) := by
  rw [writeFile, if_neg (by simp [hopen, hsize]), h]
  rfl

lemma writeFile_of_done (hopen : file.isOpen = true)
    (hsize : size ≠ 0) (h : writeData v file src size = some (true, f, w)) :
    ∃ f' w', writeFile v file src size = some (toInt size, f', w') := by
  rw [writeFile, if_neg (by simp [hopen, hsize]), h]
  exact ⟨_, _, rfl⟩

lemma IsFile.newLength_le (h : IsFile v D L l s file) (hzero : size ≠ 0) :
    file.newLength size ≤ room v D l ↔ file.currentOffset + size ≤ room v D l := by
  have hlen : l.length * v.fs.clusterSize ≤ room v D l :=
    Nat.mul_le_mul_right _ (Nat.le_add_right ..)
  rw [File.newLength, if_neg hzero, max_le_iff]
  exact and_iff_right (h.size_le.trans hlen)

lemma IsFile.writesOrKeeps_of_done (h : IsFile v D L l s file) (hsize : size < 0xFFFFFFFF)
    (hzero : size ≠ 0)
    (hdata : writeData v file src size = some (true, f, w)) :
    WritesOrKeeps v D L l s file src size ↔
      (file.currentOffset + size ≤ room v D l → size < 2 ^ 31) := by
  obtain ⟨f', w', hwrite⟩ := writeFile_of_done h.isOpen hzero hdata
  rw [← h.newLength_le hzero]
  constructor
  · rintro ⟨r, g, u, heq, hroom, -⟩ hfits
    rw [hwrite, Option.some_inj, Prod.mk.injEq] at heq
    exact ((toInt_eq_iff (by omega)).1 (heq.1.trans (hroom hfits))).2
  · refine fun hint => ⟨_, f', w', hwrite, fun hfits => ?_, fun hfail => ?_⟩
    · exact (toInt_eq_iff (by omega)).2 ⟨rfl, hint hfits⟩
    · have := toInt_eq_neg_one (by omega) hfail
      omega

lemma IsFile.writesOrKeeps_of_failed (h : IsFile v D L l s file)
    (hzero : size ≠ 0) (hdata : writeData v file src size = some (false, f, w))
    (hw : Grows v D L l w m) :
    WritesOrKeeps v D L l s file src size ↔ ¬ file.currentOffset + size ≤ room v D l := by
  have hwrite := writeFile_of_failed h.isOpen hzero hdata
  rw [← h.newLength_le hzero]
  constructor
  · rintro ⟨r, g, u, heq, hroom, -⟩ hfits
    rw [hwrite, Option.some_inj, Prod.mk.injEq] at heq
    omega
  · refine fun hno => ⟨-1, f, w, hwrite, hno.elim, fun _ => ?_⟩
    rw [hw.entryAt h.slot]
    exact ⟨m, hw.layout, hw.covers h.covers⟩

/-- **When a write does what it promises**: it does not end where the last cluster does, unless
there is a free entry behind the last cluster. `0xFFFFFFFF` is `-1`. -/
theorem writesOrKeeps_iff (h : IsFile v D L l s file) (src : Buffer) {size : ℕ}
    (hsize : size < 0xFFFFFFFF) :
    WritesOrKeeps v D L l s file src size ↔
      size ≠ 0 ∧ (file.currentOffset + size ≤ room v D l → size < 2 ^ 31) ∧
        (file.currentOffset + size = room v D l → FreePadding v) := by
  by_cases hzero : size = 0
  · -- nothing is written, and that is an error
    refine ⟨fun ⟨r, f, w, heq, hroom, _⟩ => ?_, fun hne => absurd hzero hne.1⟩
    have hlen : l.length * v.fs.clusterSize ≤ room v D l :=
      Nat.mul_le_mul_right _ (Nat.le_add_right ..)
    rw [writeFile, if_pos (.inr hzero), Option.some_inj, Prod.mk.injEq] at heq
    have := hroom (by rw [File.newLength, if_pos hzero]; exact h.size_le.trans hlen)
    omega
  rw [and_iff_right hzero]
  by_cases hpad : FreePadding v
  · obtain ⟨f, w, hdata⟩ := writeData_safe h.chain hpad src size
    rw [h.writesOrKeeps_of_done hsize hzero hdata]
    exact ⟨fun hint => ⟨hint, fun _ => hpad⟩, And.left⟩
  · obtain ⟨f, w, m, hdata, -, hw, -⟩ := writeData_spec h.chain src size fun _ => hpad
    rcases Nat.lt_or_ge (file.currentOffset + size) (room v D l) with hlt | hge
    · rw [decide_eq_true hlt] at hdata
      rw [h.writesOrKeeps_of_done hsize hzero hdata]
      exact ⟨fun hint => ⟨hint, fun heq => by omega⟩, And.left⟩
    · rw [decide_eq_false (Nat.not_lt.2 hge)] at hdata
      rw [h.writesOrKeeps_of_failed hzero hdata hw]
      exact ⟨fun hno => ⟨hno.elim, fun heq => absurd heq.le hno⟩,
        fun hcond hle => hpad (hcond.2 (by omega))⟩

end

/-- The file `A`, of 100 bytes in cluster 2, on a full volume. -/
def oneFile : Volume := fullVolume (entryBytes (65 :: List.replicate 10 32) 0x20 2 100)

/-- The file `A` of 100 bytes, at an offset. -/
def fileA (offset : ℕ) : File where
  entry := ⟨65 :: List.replicate 10 32, 0x20, 2, 100⟩
  currentOffset := offset
  fileSize := 100
  isOpen := true

/-- Every cluster but 2 is a chain of its own. -/
def otherChains : List (List ℕ) := (List.range' 3 4084).map fun c => [c]

lemma isFile_oneFile (offset : ℕ) :
    IsFile oneFile smallFs.clusters otherChains [2] ⟨33, 0⟩ (fileA offset) where
  chain := ⟨fullVolume_layout _, .inr rfl⟩
  slot := .inl (by decide +kernel)
  covers := .inr (by decide +kernel)
  isOpen := rfl
  size_le := by
    show 100 ≤ 1 * smallFs.clusterSize
    decide

lemma room_oneFile : room oneFile smallFs.clusters [2] = 512 := by
  have hsize : smallFs.clusterSize = 512 := by decide
  rw [room, oneFile, freeCount_fullVolume]
  exact congrArg (1 * ·) hsize

/-- A write inside the file needs no cluster. -/
theorem writesOrKeeps_oneFile :
    WritesOrKeeps oneFile smallFs.clusters otherChains [2] ⟨33, 0⟩ (fileA 0) (fun _ => 7) 100 := by
  refine (writesOrKeeps_iff (isFile_oneFile 0) (fun _ => 7) (by decide)).2 ⟨by decide, ?_, ?_⟩
  · exact fun _ => by decide
  · rw [room_oneFile]
    exact fun h => absurd h (by decide)

/-- **A write that fills the last cluster fails**: 412 bytes at offset 100. -/
theorem writeFile_full_cluster : (fileA 100).newLength 412 ≤ room oneFile smallFs.clusters [2] ∧
    ∃ f w, writeFile oneFile (fileA 100) (fun _ => 7) 412 = some (-1, f, w) := by
  refine ⟨room_oneFile ▸ by decide, ?_⟩
  obtain ⟨f, w, m, hdata, -, -⟩ := writeData_spec (isFile_oneFile 100).chain (fun _ => 7) 412
    fun _ => not_freePadding_fullVolume _
  have hfull : ¬ (fileA 100).currentOffset + 412 < room oneFile smallFs.clusters [2] :=
    room_oneFile ▸ by decide
  rw [decide_eq_false hfull] at hdata
  exact ⟨f, w, writeFile_of_failed rfl (by decide) hdata⟩

end FrostByte.Fat16
