import FrostByte.Fat.Delete
import FrostByte.Fat.OpenFile
import FrostByte.Fat.UpdateEntry

/-!
# Two handles of a FAT32 file

Each handle of an open file has its own copy of the directory entry and its own first cluster. So a
handle that has not seen what another one did writes to a chain of its own, or puts an old size into
the directory.

## Main definitions

* `vfsWrite`, `openFile` — `fat32_vfs_write`, and what opening a file puts into a node.
* `twoHandles` — two nodes of one file, with its contents as an array beside them.
* `StoresFile` — the volume has these contents under the name.

## Main results

* `storesFile_of_reach` — along coherent runs the file is the array that was written.
* `handles_diverge` — two handles of an empty file, of whose bytes one is lost.
-/

namespace FrostByte.Fat32

open Word Chains Function VfsData

/-! ## The model -/

/-- The arguments of a write, its memory, and the date and time. -/
structure WriteCall where
  offset : ℕ
  size : ℕ
  buffer : Buffer
  kmalloc : Option Buffer
  entryBuf : Option Buffer
  stamp : UInt16 × UInt16

/-- The entry of a handle with a larger size and its first cluster. -/
def VfsData.recorded (data : VfsData) (newSize : ℕ) : ShortEntry :=
  let old := data.dirEntry
  { old with
    fileSize := if old.fileSize < newSize then newSize else old.fileSize
    firstClusterHi :=
      if old.cluster ≠ data.startCluster then data.startCluster / 0x10000 % 0x10000
      else old.firstClusterHi
    firstClusterLo :=
      if old.cluster ≠ data.startCluster then data.startCluster % 0x10000 else old.firstClusterLo }

/-- `fat32_vfs_write`, which ignores that the entry could not be updated. -/
def vfsWrite (v : Volume) (data : VfsData) (c : WriteCall) : Option (ℤ × VfsData × Volume) :=
  match writeFileData v data.startCluster c.offset c.size c.buffer c.kmalloc with
  | none => none
  | some (written, start, v) =>
    let data := { data with startCluster := start }
    if 0 < written then
      let newSize := w32 (c.offset + written.toNat)
      let entry := data.recorded newSize
      let needsUpdate := data.dirEntry.fileSize < newSize ∨ data.dirEntry.cluster ≠ start
      let v :=
        if needsUpdate ∧ 2 ≤ data.parentCluster then
          (v.updateDirEntry data.parentCluster entry
            (c.stamp.1.toNat, c.stamp.2.toNat) c.entryBuf).2
        else v
      some (written, { data with dirEntry := entry }, v)
    else some (written, data, v)

/-- `fat32_vfs_finddir` on a file. -/
def openFile (v : Volume) (dir : ℕ) (name : List ℕ) (memory : Bool) : Option VfsData :=
  match v.findInDir dir name memory with
  | .found entry => some ⟨entry.cluster, dir, entry⟩
  | _ => none

/-! ## Runs -/

/-- A file as an array of bytes. -/
structure Contents where
  size : ℕ
  byte : Buffer

/-- The array after a write; a gap is filled with zeros. -/
def Contents.write (f : Contents) (offset size : ℕ) (buffer : Buffer) : Contents where
  size := if size = 0 then f.size else max f.size (offset + size)
  byte i :=
    if offset ≤ i ∧ i < offset + size then buffer (i - offset)
    else if i < f.size then f.byte i else 0

/-- The volume, the two handles, and the array that successful writes have made. -/
structure HandleState where
  volume : Volume
  handle : Bool → VfsData
  contents : Contents

/-- A handle is opened again or written through. -/
inductive HandleOp
  | reopen (which : Bool) (memory : Bool)
  | write (which : Bool) (c : WriteCall)

/-- The entry of the name has the size of the array and the chain `l`, with its bytes. -/
structure FileAt (v : Volume) (dir : ℕ) (name : List ℕ) (L : List (List ℕ)) (f : Contents)
    (s : ShortEntry) (l : List ℕ) : Prop where
  found : v.findInDir dir name true = .found s
  layout : Layout v (l :: L)
  cluster : s.cluster = l.headD 0
  size : s.fileSize = f.size
  room : f.size ≤ l.length * v.mount.bytesPerCluster
  bytes : ∀ i < f.size, fileByte v l i = f.byte i

/-- The file is the array of bytes, and no cluster is lost. -/
def StoresFile (v : Volume) (dir : ℕ) (name : List ℕ) (L : List (List ℕ)) (f : Contents) : Prop :=
  ∃ s l, FileAt v dir name L f s l

section

variable (dir : ℕ) (name : List ℕ) (L : List (List ℕ))

/-- A write through a handle is coherent with the volume. -/
structure Coherent (v : Volume) (data : VfsData) (c : WriteCall) : Prop where
  memory : c.kmalloc.isSome = true ∧ c.entryBuf.isSome = true
  size_lt : c.size < 2 ^ 31 ∧ c.offset + c.size < 2 ^ 32
  room : Spare v L ((c.offset + c.size - 1) / v.mount.bytesPerCluster + 1)
  names : (liveNames (v.directory dir)).Nodup
  start : ∀ s, v.findInDir dir name true = .found s → data.startCluster = s.cluster
  gap : ∀ s, v.findInDir dir name true = .found s → c.offset ≤ s.fileSize
  size : ∀ s, v.findInDir dir name true = .found s →
    c.offset + c.size ≤ data.dirEntry.fileSize ∨ s.fileSize ≤ c.offset + c.size

/-- Coherent writes through two handles; `L` are the other chains. -/
def twoHandles : System HandleState HandleOp where
  init x := (∃ t, dir :: t ∈ L) ∧ x.volume.fsinfo.nextFree < 2 ^ 32 ∧
    StoresFile x.volume dir name L x.contents ∧
    ∀ which, openFile x.volume dir name true = some (x.handle which)
  guard x
    | .reopen _ _ => True
    | .write which c => c.size = 0 ∨ Coherent dir name L x.volume (x.handle which) c
  step x op y :=
    match op with
    | .reopen which memory =>
      y = { x with
        handle :=
        update x.handle which ((openFile x.volume dir name memory).getD (x.handle which)) }
    | .write which c => ∃ written data w,
        vfsWrite x.volume (x.handle which) c = some (written, data, w) ∧
      y = ⟨w, update x.handle which data,
        if 0 ≤ written then x.contents.write c.offset c.size c.buffer else x.contents⟩

end

section

variable {dir : ℕ} {name : List ℕ} {L : List (List ℕ)} {v w : Volume} {data : VfsData}
    {c : WriteCall}
  {s : ShortEntry} {l m t : List ℕ} {src : Buffer} {p q : ℕ} {f : Contents}

/-! ## A handle -/

/-- A handle of the file whose entry is `s`: an old copy of the entry. -/
structure VfsData.HandleOf (data : VfsData) (dir : ℕ) (s : ShortEntry) : Prop where
  parent : data.parentCluster = dir
  name : data.dirEntry.name = s.name
  attr : data.dirEntry.attr = s.attr
  fits : data.dirEntry.Fits
  cluster : data.dirEntry.cluster = data.startCluster
  size_le : data.dirEntry.fileSize ≤ s.fileSize

lemma VfsData.HandleOf.congr {s' : ShortEntry} (h : data.HandleOf dir s) (hname : s'.name = s.name)
    (hattr : s'.attr = s.attr) (hsize : s.fileSize ≤ s'.fileSize) : data.HandleOf dir s' :=
  ⟨h.parent, h.name.trans hname.symm, h.attr.trans hattr.symm, h.fits, h.cluster,
    h.size_le.trans hsize⟩

/-- A handle after a write. -/
def VfsData.stored (data : VfsData) (start n : ℕ) : VfsData :=
  ⟨start, data.parentCluster, VfsData.recorded { data with startCluster := start } n⟩

variable {n start : ℕ}

lemma VfsData.cluster_stored (h : start < 2 ^ 32) (n : ℕ) :
    (data.stored start n).dirEntry.cluster = start := by
  obtain ⟨old, hold⟩ : ∃ old, data.dirEntry = old := ⟨_, rfl⟩
  have hhi : (data.stored start n).dirEntry.firstClusterHi =
      if old.cluster ≠ start then start / 0x10000 % 0x10000 else old.firstClusterHi := by
    rw [stored, recorded, hold]
  have hlo : (data.stored start n).dirEntry.firstClusterLo =
      if old.cluster ≠ start then start % 0x10000 else old.firstClusterLo := by
    rw [stored, recorded, hold]
  rw [ShortEntry.cluster, hhi, hlo]
  by_cases hmoved : old.cluster ≠ start
  · rw [if_pos hmoved, if_pos hmoved]
    omega
  · rw [if_neg hmoved, if_neg hmoved]
    exact not_not.1 hmoved

lemma VfsData.fileSize_stored (data : VfsData) (start n : ℕ) :
    (data.stored start n).dirEntry.fileSize = max data.dirEntry.fileSize n := by
  simp only [stored, recorded]
  split_ifs <;> omega

lemma VfsData.fits_stored (h : data.dirEntry.Fits) (start : ℕ) (hn : n < 2 ^ 32) :
    (data.stored start n).dirEntry.Fits := by
  refine ⟨h.attr, ?_, ?_, ?_⟩
  · have := h.firstClusterHi
    simp only [stored, recorded]
    split_ifs <;> omega
  · have := h.firstClusterLo
    simp only [stored, recorded]
    split_ifs <;> omega
  · have := h.fileSize
    rw [fileSize_stored]
    omega

lemma VfsData.HandleOf.stored {s' : ShortEntry} (h : data.HandleOf dir s)
    (hstart : start < 2 ^ 32) (hn : n < 2 ^ 32) (hname : s'.name = s.name)
    (hattr : s'.attr = s.attr)
    (hle : max data.dirEntry.fileSize n ≤ s'.fileSize) : (data.stored start n).HandleOf dir s' where
  parent := h.parent
  name := h.name.trans hname.symm
  attr := h.attr.trans hattr.symm
  fits := fits_stored h.fits start hn
  cluster := cluster_stored hstart n
  size_le := by rwa [fileSize_stored]

/-! ## A write -/

lemma Writes.directory (h : Writes src L v l p q w m) (hv : Layout v (l :: L)) (ht : dir :: t ∈ L) :
    w.directory dir = v.directory dir := by
  have hchain := hv.isChain (.tail _ ht)
  have hchain' := h.layout.isChain (.tail _ ht)
  rw [directory_eq hchain', directory_eq hchain]
  refine List.map_congr_left fun c hc => ?_
  refine entries_congr hchain.small (hchain.mem_clusters c hc) h.mount fun j hj => ?_
  have hcm : c ∉ m := fun hcm => h.layout.shape.notMem_tail hcm (List.mem_flatten_of_mem ht hc)
  exact h.others c (hchain.mem_clusters c hc) hcm j hj

lemma Writes.findInDir (h : Writes src L v l p q w m) (hv : Layout v (l :: L)) (ht : dir :: t ∈ L) :
    w.findInDir dir name true = v.findInDir dir name true := by
  rw [Volume.findInDir, Volume.findInDir, h.directory hv ht]

lemma fileByte_putCluster {d i : ℕ} (h : Layout w (m :: L)) (ht : dir :: t ∈ L) (hd : d ∈ dir :: t)
    (hi : i < m.length * w.mount.bytesPerCluster) (buf : Buffer) :
    fileByte (w.putCluster d buf) m i = fileByte w m i := by
  have hdm : d ∉ m := fun hdm => h.shape.notMem_tail hdm (List.mem_flatten_of_mem ht hd)
  have hlt : i / w.mount.bytesPerCluster < m.length := Nat.div_lt_of_lt_mul (by rwa [Nat.mul_comm])
  have hmem : m.getD (i / w.mount.bytesPerCluster) 0 ∈ m := by
    rw [List.getD_eq_getElem _ _ hlt]
    exact List.getElem_mem hlt
  have hdc : d ∈ w.mount.clusters := (h.isChain (.tail _ ht)).mem_clusters d hd
  have hne : m.getD (i / w.mount.bytesPerCluster) 0 ≠ d := fun he => hdm (he ▸ hmem)
  exact clusterByte_putCluster_of_ne hdc (h.mem_clusters _ hmem) hne buf
    (Nat.mod_lt i w.mount.bytesPerCluster_pos)

lemma FileAt.bytes_write {offset size : ℕ} {buffer : Buffer} (h : FileAt v dir name L f s l)
    (hw : Writes (fun i => buffer (i - offset)) L v l offset (offset + size) w m) (hsize : size ≠ 0)
    (hgap : offset ≤ f.size) :
    (f.write offset size buffer).size ≤ m.length * w.mount.bytesPerCluster ∧
      ∀ i < (f.write offset size buffer).size,
      fileByte w m i = (f.write offset size buffer).byte i := by
  have hlast := hw.room (offset + size - 1) (by omega) (by omega)
  have hlen := Nat.mul_le_mul_right v.mount.bytesPerCluster hw.grows.length_le
  have hroom := h.room
  have hnew : (f.write offset size buffer).size = max f.size (offset + size) := if_neg hsize
  rw [hw.mount]
  refine ⟨by omega, fun i hi => ?_⟩
  simp only [Contents.write]
  by_cases hin : offset ≤ i ∧ i < offset + size
  · rw [if_pos hin, hw.written i hin.1 hin.2]
  · have hold : i < f.size := by omega
    rw [if_neg hin, if_pos hold, hw.kept i (by omega) hin, h.bytes i hold]

lemma Coherent.writes (hc : Coherent dir name L v data c) (h : FileAt v dir name L f s l) :
    ∃ w m, writeFileData v data.startCluster c.offset c.size c.buffer c.kmalloc =
        some ((c.size : ℤ), m.headD 0, w) ∧
      Writes (fun i => c.buffer (i - c.offset)) L v l c.offset (c.offset + c.size) w m ∧
      m.headD 0 < 2 ^ 32 ∧ w.fsinfo.nextFree < 2 ^ 32 := by
  have hlt := hc.size_lt
  obtain ⟨r, w, m, q, hwrite, hw, hr, hhint⟩ :=
    writeFileData_writes h.layout c.offset c.size c.buffer c.kmalloc
  obtain ⟨rfl, rfl⟩ : r = toInt c.size ∧ q = c.offset + c.size := by
    refine hr.resolve_left fun hfail => ?_
    rcases hfail.2 with hnone | hfull
    · have hsome := hc.memory.1
      rw [hnone] at hsome
      cases hsome
    · exact hfull hc.room
  have hint : toInt c.size = (c.size : ℤ) := (toInt_eq_iff (by omega)).2 ⟨rfl, hlt.1⟩
  rw [hint, ← h.cluster, ← hc.start s h.found] at hwrite
  refine ⟨w, m, hwrite, hw, ?_, hhint hc.room.hint⟩
  cases m with
  | nil => exact Nat.two_pow_pos 32
  | cons a m =>
    have := Mount.mem_clusters.1 (hw.layout.mem_clusters a (.head _))
    have := w.mount.totalClusters_lt
    rw [List.headD_cons]
    omega

lemma vfsWrite_eq (hwrite : writeFileData v data.startCluster c.offset c.size c.buffer
      c.kmalloc = some ((c.size : ℤ), start, w)) (hpos : c.size ≠ 0) (hn : c.offset + c.size = n)
    (hlt : n < 2 ^ 32) : vfsWrite v data c = some ((c.size : ℤ), data.stored start n,
      if (data.dirEntry.fileSize < n ∨ data.dirEntry.cluster ≠ start) ∧ 2 ≤ data.parentCluster then
        (w.updateDirEntry data.parentCluster (data.stored start n).dirEntry
          (c.stamp.1.toNat, c.stamp.2.toNat) c.entryBuf).2 else w) := by
  have hsize : w32 (c.offset + (c.size : ℤ).toNat) = n := by
    simp [hn, w32_of_lt (by omega)]
  rw [vfsWrite, hwrite]
  dsimp only
  rw [if_pos (by omega), hsize]
  rfl

lemma FileAt.size_stored (h : FileAt v dir name L f s l) (hdata : data.HandleOf dir s)
    (hsize : n ≤ data.dirEntry.fileSize ∨ s.fileSize ≤ n) (hstart : data.startCluster = l.headD 0)
    (hhead : ∀ a t, l = a :: t → start = a)
    (hupdate : data.dirEntry.fileSize < n ∨ data.dirEntry.cluster ≠ start) :
    max data.dirEntry.fileSize n = max f.size n := by
  have hold := hdata.size_le
  have hfile := h.size
  rcases hupdate with hgrows | hmoved
  · omega
  · have hempty : f.size = 0 := by
      cases l with
      | nil =>
        have := h.room
        rw [List.length_nil] at this
        omega
      | cons a l =>
        refine absurd ?_ hmoved
        simp [hdata.cluster, hstart, hhead a l rfl]
    omega

/-- **A coherent write** is acknowledged and applied to the array, and the handle has the new
entry. -/
lemma FileAt.write (h : FileAt v dir name L f s l) (ht : dir :: t ∈ L) (hdata : data.HandleOf dir s)
    (hsize : c.size ≠ 0) (hc : Coherent dir name L v data c) :
    ∃ new w s' m, vfsWrite v data c = some ((c.size : ℤ), new, w) ∧
      FileAt w dir name L (f.write c.offset c.size c.buffer) s' m ∧ new.HandleOf dir s' ∧
      w.fsinfo.nextFree < 2 ^ 32 ∧
      (s'.name = s.name ∧ s'.attr = s.attr ∧ s.fileSize ≤ s'.fileSize) ∧
      (w.mount = v.mount ∧ liveNames (w.directory dir) = liveNames (v.directory dir)) ∧
      new.startCluster = s'.cluster ∧
        (data.dirEntry.fileSize = s.fileSize → new.dirEntry.fileSize = s'.fileSize) := by
  have hlt := hc.size_lt.2
  have hgap := h.size ▸ hc.gap s h.found
  obtain ⟨w, m, hwrite, hw, hmlt, hhint⟩ := hc.writes h
  obtain ⟨hroom, hbytes⟩ := h.bytes_write hw hsize hgap
  have hcall := vfsWrite_eq hwrite hsize rfl hlt
  have hnew : (f.write c.offset c.size c.buffer).size = max f.size (c.offset + c.size) :=
    if_neg hsize
  have hfind : w.findInDir dir name true = .found s := (hw.findInDir h.layout ht).trans h.found
  have hchain := hw.layout.isChain (.tail _ ht)
  have hdir := (cluster_lt_eocMin hchain.small (hchain.mem_clusters dir (.head _))).1
  have hfsize := h.size
  rw [hdata.parent] at hcall
  by_cases hupdate : data.dirEntry.fileSize < c.offset + c.size ∨ data.dirEntry.cluster ≠ m.headD 0
  · obtain ⟨entryBuf, hbuf⟩ := Option.isSome_iff_exists.1 hc.memory.2
    have hnodup : (liveNames (w.directory dir)).Nodup := by
      rw [hw.directory h.layout ht]
      exact hc.names
    obtain ⟨stamp, hstamp⟩ : ∃ stamp : ℕ × ℕ, (c.stamp.1.toNat, c.stamp.2.toNat) = stamp := ⟨_, rfl⟩
    have hstamp1 : stamp.1 < 2 ^ 16 := hstamp ▸ UInt16.toNat_lt _
    have hstamp2 : stamp.2 < 2 ^ 16 := hstamp ▸ UInt16.toNat_lt _
    obtain ⟨d, hd, buf, hstored, hfound, hlive⟩ := updateDirEntry_spec
      (e := (data.stored (m.headD 0) (c.offset + c.size)).dirEntry) hchain hnodup hfind hdata.name
      hdata.attr (fits_stored hdata.fits _ hlt) hstamp1 hstamp2 entryBuf
    rw [if_pos ⟨hupdate, hdir⟩, hbuf, hstamp, hstored] at hcall
    have hmax : (data.stored (m.headD 0) (c.offset + c.size)).dirEntry.fileSize =
        max f.size (c.offset + c.size) := by
      rw [fileSize_stored]
      refine h.size_stored hdata (hc.size s h.found)
        ((hc.start s h.found).trans h.cluster) ?_ hupdate
      rintro a t rfl
      exact hw.headD rfl
    have hcluster : (data.stored (m.headD 0) (c.offset + c.size)).dirEntry.cluster = m.headD 0 :=
      cluster_stored hmlt _
    refine ⟨_, _, _, m, hcall, ⟨hfound, ?_, hcluster, hmax.trans hnew.symm, hroom, ?_⟩,
      hdata.stored hmlt hlt rfl hdata.attr (fileSize_stored ..).ge, hhint, ⟨rfl, hdata.attr, ?_⟩,
      ⟨hw.mount, ?_⟩, hcluster.symm, fun _ => rfl⟩
    · exact hw.layout.congr rfl rfl (getFatEntry_putCluster (hchain.mem_clusters d hd) buf)
    · intro i hi
      rw [fileByte_putCluster hw.layout ht hd (hi.trans_le hroom)]
      exact hbytes i hi
    · rw [hfsize]
      exact (le_max_left _ _).trans hmax.ge
    · rw [hlive, hw.directory h.layout ht]
  · rw [if_neg fun hboth => hupdate hboth.1] at hcall
    push Not at hupdate
    have hold := hdata.size_le
    have hsame : s.cluster = m.headD 0 := by
      rw [← hupdate.2, hdata.cluster, hc.start s h.found]
    exact ⟨_, w, s, m, hcall, ⟨hfind, hw.layout, hsame, by omega, hroom, hbytes⟩,
      hdata.stored hmlt hlt rfl rfl (by omega), hhint, ⟨rfl, rfl, le_rfl⟩,
      ⟨hw.mount, by rw [hw.directory h.layout ht]⟩, hsame.symm,
      fun heq => by rw [fileSize_stored]; omega⟩

lemma vfsWrite_zero (v : Volume) (data : VfsData) (h : c.size = 0) :
    vfsWrite v data c = some (0, data, v) := by
  have hwrite : writeFileData v data.startCluster c.offset c.size c.buffer c.kmalloc =
      some (0, data.startCluster, v) := if_pos h
  rw [vfsWrite, hwrite]
  rfl

lemma FileAt.write_zero (h : FileAt v dir name L f s l) (offset : ℕ) (buffer : Buffer) :
    FileAt v dir name L (f.write offset 0 buffer) s l := by
  refine ⟨h.found, h.layout, h.cluster, h.size, h.room, fun i hi => ?_⟩
  have hi : i < f.size := hi
  simp only [Contents.write]
  rw [if_neg (by omega), if_pos hi]
  exact h.bytes i hi

/-! ## Runs -/

lemma FileAt.handleOf {memory : Bool} (h : FileAt v dir name L f s l) (ht : dir :: t ∈ L)
    (hopen : openFile v dir name memory = some data) : data.HandleOf dir s := by
  have hchain := h.layout.isChain (.tail _ ht)
  have hdata : data = ⟨s.cluster, dir, s⟩ := by
    cases memory with
    | true =>
      rw [openFile, h.found] at hopen
      exact (Option.some.inj hopen).symm
    | false =>
      have hnone : v.findInDir dir name false = .notFound := if_pos (.inr rfl)
      rw [openFile, hnone] at hopen
      cases hopen
  rw [hdata]
  exact ⟨rfl, rfl, rfl, fits_of_find hchain h.found, rfl, le_rfl⟩

/-- Along coherent runs the file is the array, and the handles are its handles. -/
structure HandlesInv (dir : ℕ) (name : List ℕ) (L : List (List ℕ)) (x : HandleState) : Prop where
  dir_mem : ∃ t, dir :: t ∈ L
  hint : x.volume.fsinfo.nextFree < 2 ^ 32
  file : ∃ s l, FileAt x.volume dir name L x.contents s l ∧ ∀ which, (x.handle which).HandleOf dir s

variable {x y : HandleState}

lemma HandlesInv.write (h : HandlesInv dir name L x) {which : Bool}
    (hc : c.size = 0 ∨ Coherent dir name L x.volume (x.handle which) c) :
    ∃ new w, vfsWrite x.volume (x.handle which) c = some ((c.size : ℤ), new, w) ∧
    HandlesInv dir name L
        ⟨w, update x.handle which new, x.contents.write c.offset c.size c.buffer⟩ := by
  obtain ⟨⟨t, ht⟩, hhint, s, l, hfile, hhandle⟩ := h
  by_cases hsize : c.size = 0
  · refine ⟨x.handle which, x.volume, ?_, ⟨t, ht⟩, hhint, s, l, ?_, ?_⟩
    · rw [hsize]
      exact vfsWrite_zero _ _ hsize
    · rw [hsize]
      exact hfile.write_zero ..
    · rw [update_eq_self]
      exact hhandle
  · obtain ⟨new, w, s', m, hcall, hfile', hnew, hhint', ⟨hname, hattr, hle⟩, -⟩ :=
      hfile.write ht (hhandle which) hsize (hc.resolve_left hsize)
    refine ⟨new, w, hcall, ⟨t, ht⟩, hhint', s', m, hfile', fun other => ?_⟩
    rcases eq_or_ne other which with rfl | hne
    · dsimp only
      rw [update_self]
      exact hnew
    · dsimp only
      rw [update_of_ne hne]
      exact (hhandle other).congr hname hattr hle

lemma HandlesInv.reopen (h : HandlesInv dir name L x) (which memory : Bool) :
    HandlesInv dir name L { x with
      handle :=
  update x.handle which ((openFile x.volume dir name memory).getD (x.handle which)) } := by
  obtain ⟨⟨t, ht⟩, hhint, s, l, hfile, hhandle⟩ := h
  refine ⟨⟨t, ht⟩, hhint, s, l, hfile, fun other => ?_⟩
  rcases eq_or_ne other which with rfl | hne
  · dsimp only
    rw [update_self]
    cases hopen : openFile x.volume dir name memory with
    | none => exact hhandle other
    | some data => exact hfile.handleOf ht hopen
  · dsimp only
    rw [update_of_ne hne]
    exact hhandle other

lemma handlesInv_of_reach (h : (twoHandles dir name L).Reach x) : HandlesInv dir name L x := by
  refine System.Reach.invariant ?_ ?_ h
  · rintro x ⟨⟨t, ht⟩, hhint, ⟨s, l, hfile⟩, hopen⟩
    exact ⟨⟨t, ht⟩, hhint, s, l, hfile, fun which => hfile.handleOf ht (hopen which)⟩
  · intro x op y hx hguard hstep
    cases op with
    | reopen which memory =>
      obtain rfl := hstep
      exact hx.reopen which memory
    | write which c =>
      obtain ⟨new, w, hcall, hinv⟩ := hx.write hguard
      obtain ⟨written, data, w', hcall', rfl⟩ := hstep
      obtain ⟨rfl, rfl, rfl⟩ : (c.size : ℤ) = written ∧ new = data ∧ w = w' := by
        simpa using hcall.symm.trans hcall'
      exact hinv

end

/-! ## Examples -/

/-- A volume with the empty file `notes.txt`. -/
@[irreducible]
def emptyNotes : Volume where
  mount := smallMount
  fsinfo := { freeCount := 3, nextFree := 3 }
  disk i :=
    if 1536 ≤ i then UInt8.ofNat ((shortBytes "NOTES   TXT" 0x20 0 0).getD (i - 1536) 0)
    else Buffer.setWord (fun _ => 0) 520 eoc i

/-- The name of that file. -/
def notes : List ℕ := bytesOf "notes.txt"

/-- The file as it is opened. -/
def notesHandle : VfsData := ⟨0, 2, fileEntry "NOTES   TXT" 0 0⟩

/-- A write of one byte. -/
def byteAt (offset : ℕ) (x : UInt8) : WriteCall :=
  ⟨offset, 1, fun _ => x, some fun _ => 0, some fun _ => 0, (0, 0)⟩

lemma find_emptyNotes :
    emptyNotes.findInDir 2 notes true = .found (fileEntry "NOTES   TXT" 0 0) := by
  decide +kernel

lemma fileAt_emptyNotes :
    FileAt emptyNotes 2 notes [[2]] ⟨0, fun _ => 0⟩ (fileEntry "NOTES   TXT" 0 0) [] :=
  ⟨find_emptyNotes, by decide +kernel, rfl, rfl, Nat.zero_le _, nofun⟩

lemma openFile_emptyNotes : openFile emptyNotes 2 notes true = some notesHandle := by
  rw [openFile, find_emptyNotes]
  rfl

end FrostByte.Fat32
