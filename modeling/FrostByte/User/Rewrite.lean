import FrostByte.Fat.FileContent
import FrostByte.Fat16.FileContent
import FrostByte.Vfs.Tmpfs
import Mathlib.Data.List.Basic

/-!
# Rewriting a file

What `open` and `write` make of a file that has contents already. `O_TRUNC` does not cut anything
off: the new bytes take the place of the first ones in the file, and the others stay.

A file system enters through its `write` and the contract that `FileSystem` carries: where there is
room, a write that starts in the file stores its bytes. The memory file system and both FAT file
systems meet it.

## Main definitions

* `FileSystem` — the files of a file system, with the contract of their `write`.
* `sysOpen`, `sysWrite` — the system calls, on one file.
* `Truncates` — a file that is opened and written has only the new bytes.
* `tmpfs`, `fat16`, `fat32` — the file systems of the kernel.

## Main results

* `At.writeChunks`, `writes_over`, `writes_append` — what writes make of an open file.
* `truncates_iff` — when opening with `O_TRUNC` is right.
-/

namespace FrostByte.Rewrite

open Word

/-! ## Files -/

/-- Bytes in the place of those from an offset on. -/
def splice (c : List UInt8) (offset : ℕ) (bytes : List UInt8) : List UInt8 :=
  c.take offset ++ bytes ++ c.drop (offset + bytes.length)

/-- The files of a file system. `room f n` says that `f` can be written up to `n` bytes: then a
write that starts in the file and ends there stores its bytes, and there is still room. -/
structure FileSystem (σ : Type*) where
  content : σ → List UInt8
  /-- `vfs_get_size`. -/
  getSize : σ → ℕ
  /-- The `write` of the node; `none` if it does not return. -/
  write : σ → ℕ → List UInt8 → Option (ℤ × σ)
  room : σ → ℕ → Prop
  room_lt : ∀ f n, room f n → n < 2 ^ 31
  getSize_eq : ∀ f n, room f n → getSize f = (content f).length
  stores : ∀ f n offset bytes, room f n → bytes ≠ [] → offset ≤ (content f).length →
    offset + bytes.length ≤ n → ∃ f', write f offset bytes = some ((bytes.length : ℤ), f') ∧
    room f' n ∧
      content f' = splice (content f) offset bytes

variable {σ : Type*} {fs : FileSystem σ} {n : ℕ}

/-- `vfs_write` on a regular file; `none` for the bytes is a null pointer. -/
def vfsWrite (fs : FileSystem σ) (f : σ) (offset : ℕ) : Option (List UInt8) → Option (ℤ × σ)
  | none => some (-1, f)
  | some bytes => fs.write f offset bytes

/-- A slot of the table of open files. -/
structure OpenFile (σ : Type*) where
  node : σ
  offset : ℕ
  append : Bool

/-- `sys_open`, with the bits of `O_CREAT`, `O_TRUNC` and `O_APPEND`. `new` is the file that
`vfs_create` and `vfs_open` would give. -/
def sysOpen (fs : FileSystem σ) (flags : ℕ) (f new : Option σ) : Option (OpenFile σ) :=
  let node := if f.isNone && flags.testBit 6 then new else f
  node.map fun f =>
    -- the buffer is a null pointer, so nothing is truncated
    let f := if flags.testBit 9 ∧ (flags % 4 = 1 ∨ flags % 4 = 2) then
      (vfsWrite fs f 0 none).elim f Prod.snd else f
    ⟨f, 0, flags.testBit 10⟩

/-- A call of `write`: its bytes, and whether there is memory for a piece when so many bytes are
left. -/
structure Write where
  bytes : List UInt8
  kmalloc : ℕ → Bool

/-- The loop of `sys_write`, in pieces of 64 KiB. -/
def writeChunks (fs : FileSystem σ) (kmalloc : ℕ → Bool) :
    ℕ → List UInt8 → OpenFile σ → Option (OpenFile σ)
  | 0, _, file => some file
  | n + 1, bytes, file =>
    if bytes = [] ∨ kmalloc bytes.length = false then some file
    else
      let chunk := bytes.take 65536
      (vfsWrite fs file.node file.offset (some chunk)).bind fun r =>
        if r.1 ≤ 0 then some { file with node := r.2 }
        else
          let file := { file with node := r.2, offset := w32 (file.offset + r.1.toNat) }
          if r.1 < chunk.length then some file
          else writeChunks fs kmalloc n (bytes.drop r.1.toNat) file

/-- `sys_write` on a descriptor of the file; `none` if it does not return. The size of a file is an
`int`. -/
def sysWrite (fs : FileSystem σ) (file : OpenFile σ) (w : Write) : Option (OpenFile σ) :=
  if w.bytes = [] then some file
  else writeChunks fs w.kmalloc w.bytes.length w.bytes
    (if file.append ∧ 0 ≤ int32 (fs.getSize file.node) then
      { file with offset := fs.getSize file.node } else file)

/-- The bytes of some writes. -/
def output (writes : List Write) : List UInt8 := writes.flatMap Write.bytes

/-- There is memory for each piece. -/
def Write.Served (w : Write) : Prop := ∀ n ≤ w.bytes.length, 0 < n → w.kmalloc n = true

/-- A file opened with these flags has what is then written only. -/
def Truncates (fs : FileSystem σ) (flags : ℕ) (f : σ) (writes : List Write) : Prop :=
  ∃ file file', sysOpen fs flags (some f) none = some file ∧
    writes.foldlM (sysWrite fs) file = some file' ∧ fs.content file'.node = output writes

/-! ## Writes -/

variable {c : List UInt8} {offset : ℕ}

lemma length_splice (h : offset ≤ c.length) (bytes : List UInt8) :
    (splice c offset bytes).length = max c.length (offset + bytes.length) := by
  simp only [splice, List.length_append, List.length_take, List.length_drop]
  omega

@[simp]
lemma splice_nil (c : List UInt8) (offset : ℕ) : splice c offset [] = c := by simp [splice]

lemma splice_length (c bytes : List UInt8) : splice c c.length bytes = c ++ bytes := by
  simp [splice]

/-- Two writes one behind the other are one write. -/
lemma splice_splice (h : offset ≤ c.length) (a b : List UInt8) :
    splice (splice c offset a) (offset + a.length) b = splice c offset (a ++ b) := by
  have hlen : (c.take offset ++ a).length = offset + a.length := by simp [h]
  have htake : (splice c offset a).take (offset + a.length) = c.take offset ++ a := by
    rw [splice, ← hlen, List.take_left']
    rfl
  have hdrop : (splice c offset a).drop (offset + a.length + b.length) =
      c.drop (offset + a.length + b.length) := by
    rw [splice, List.drop_append, List.drop_of_length_le (by omega), List.nil_append,
      List.drop_drop, hlen]
    congr 1
    omega
  rw [splice, htake, hdrop]
  simp only [splice, List.length_append, List.append_assoc, Nat.add_assoc]

lemma splice_zero_eq_iff (c bytes : List UInt8) :
    splice c 0 bytes = bytes ↔ c.length ≤ bytes.length := by
  simp [splice]

lemma splice_zero_eq_append_iff (c bytes : List UInt8) :
    splice c 0 bytes = c ++ bytes ↔ c = [] ∨ bytes = [] := by
  constructor
  · intro h
    have hlen := congrArg List.length h
    rw [length_splice (Nat.zero_le _), List.length_append] at hlen
    rcases Nat.eq_zero_or_pos c.length with hc | hc
    · exact .inl (List.eq_nil_of_length_eq_zero hc)
    · exact .inr (List.eq_nil_of_length_eq_zero (by omega))
  · rintro (rfl | rfl)
    · simp [splice]
    · simp [splice]

/-- An open file with room up to `n`, its contents, and the offset that the writes have reached. -/
structure At (fs : FileSystem σ) (n : ℕ) (file : OpenFile σ) (c : List UInt8) (offset : ℕ) :
    Prop where
  room : fs.room file.node n
  content : fs.content file.node = c
  offset : file.offset = offset

/-- **The loop of `sys_write`** stores all bytes, piece by piece. -/
lemma At.writeChunks {file : OpenFile σ} {bytes : List UInt8} {kmalloc : ℕ → Bool}
    (h : At fs n file c offset)
    (hserved : ∀ k ≤ bytes.length, 0 < k → kmalloc k = true) (fuel : ℕ)
    (hfuel : bytes.length ≤ fuel) (hle : offset ≤ c.length) (hroom : offset + bytes.length ≤ n) :
    ∃ file', writeChunks fs kmalloc fuel bytes file = some file' ∧ file'.append = file.append ∧
      At fs n file' (splice c offset bytes) (offset + bytes.length) := by
  have hnil : At fs n file (splice c offset []) (offset + 0) := by simpa using h
  have hlt := fs.room_lt _ _ h.room
  induction fuel generalizing bytes file c offset with
  | zero =>
    obtain rfl : bytes = [] := List.eq_nil_of_length_eq_zero (by omega)
    exact ⟨file, rfl, rfl, hnil⟩
  | succ fuel ih =>
    rw [Rewrite.writeChunks]
    by_cases hempty : bytes = []
    · rw [hempty, if_pos (.inl rfl)]
      exact ⟨file, rfl, rfl, hnil⟩
    have hpos := List.length_pos_iff.mpr hempty
    have hmemory : ¬(bytes = [] ∨ kmalloc bytes.length = false) := by
      rw [hserved _ le_rfl hpos]
      simp [hempty]
    rw [if_neg hmemory]
    generalize hchunk : bytes.take 65536 = chunk
    have hlen : chunk.length = min 65536 bytes.length := by rw [← hchunk, List.length_take]
    obtain ⟨f', hwrite, hroom', hcontent⟩ := fs.stores file.node n offset chunk h.room
      (List.ne_nil_of_length_pos (by omega)) (by rw [h.content]; exact hle) (by omega)
    rw [h.content] at hcontent
    simp only [vfsWrite, h.offset, hwrite, Option.bind_some]
    rw [if_neg (by omega), if_neg (by omega), Int.toNat_natCast]
    have hsplit : chunk ++ bytes.drop chunk.length = bytes := by
      rw [← hchunk, List.length_take]
      rcases Nat.le_total 65536 bytes.length with hle | hle
      · rw [Nat.min_eq_left hle, List.take_append_drop]
      · rw [Nat.min_eq_right hle, List.take_of_length_le hle, List.drop_length, List.append_nil]
    have hmoved : At fs n { file with node := f', offset := w32 (offset + chunk.length) }
        (splice c offset chunk) (offset + chunk.length) := ⟨hroom', hcontent, w32_of_lt (by omega)⟩
    have hrest : (bytes.drop chunk.length).length = bytes.length - chunk.length := List.length_drop
    have hserved' : ∀ k ≤ (bytes.drop chunk.length).length, 0 < k → kmalloc k = true :=
      fun k hk => hserved k (by omega)
    obtain ⟨file', hloop, happend, hat⟩ := ih hmoved hserved' (by omega)
      (by rw [length_splice hle]; omega) (by omega) (by simpa using hmoved)
    rw [splice_splice hle, hsplit, Nat.add_assoc, ← List.length_append, hsplit] at hat
    exact ⟨file', hloop, happend, hat⟩

/-- **Writes to a file that is open without `O_APPEND`**, one after the other. -/
lemma writes_over {file : OpenFile σ} (h : At fs n file c offset) (happend : file.append = false)
    {writes : List Write} (hserved : ∀ w ∈ writes, w.Served) (hle : offset ≤ c.length)
    (hroom : offset + (output writes).length ≤ n) :
    ∃ file', writes.foldlM (sysWrite fs) file = some file' ∧
      fs.content file'.node = splice c offset (output writes) := by
  induction writes generalizing file c offset with
  | nil => exact ⟨file, rfl, by simp [output, h.content]⟩
  | cons w writes ih =>
    rw [output, List.flatMap_cons, ← output] at hroom ⊢
    rw [List.length_append] at hroom
    obtain ⟨file', hwrite, happend', hat⟩ : ∃ file', sysWrite fs file w = some file' ∧
        file'.append = file.append ∧
        At fs n file' (splice c offset w.bytes) (offset + w.bytes.length) := by
      rw [sysWrite]
      split_ifs with hw ha
      · exact ⟨file, rfl, rfl, by simpa [hw] using h⟩
      · simp [happend] at ha
      · exact h.writeChunks (hserved w (.head _)) _ le_rfl hle (by omega)
    obtain ⟨file'', hrest, hcontent⟩ :=
      ih hat (happend'.trans happend) (fun x hx => hserved x (.tail _ hx))
      (by rw [length_splice hle]; omega) (by omega)
    refine ⟨file'', ?_, by rw [hcontent, splice_splice hle]⟩
    rw [List.foldlM_cons, hwrite]
    exact hrest

/-- **Writes to a file that is open with `O_APPEND`** go behind what it has. -/
lemma writes_append {file : OpenFile σ} (h : At fs n file c offset) (happend : file.append = true)
    {writes : List Write} (hserved : ∀ w ∈ writes, w.Served)
    (hroom : c.length + (output writes).length ≤ n) :
    ∃ file', writes.foldlM (sysWrite fs) file = some file' ∧
      fs.content file'.node = c ++ output writes := by
  induction writes generalizing file c offset with
  | nil => exact ⟨file, rfl, by simp [output, h.content]⟩
  | cons w writes ih =>
    rw [output, List.flatMap_cons, ← output] at hroom ⊢
    rw [List.length_append] at hroom
    have hlt := fs.room_lt _ _ h.room
    have hsize : fs.getSize file.node = c.length := by rw [fs.getSize_eq _ _ h.room, h.content]
    have hint : 0 ≤ int32 c.length := by
      rw [int32_of_lt (by omega)]
      omega
    obtain ⟨offset', file', hwrite, happend', hat⟩ : ∃ offset' file',
      sysWrite fs file w = some file' ∧
        file'.append = file.append ∧ At fs n file' (c ++ w.bytes) offset' := by
      rw [sysWrite, hsize]
      split_ifs with hw ha
      · exact ⟨offset, file, rfl, rfl, by simpa [hw] using h⟩
      · have hmoved : At fs n { file with offset := c.length } c c.length :=
          ⟨h.room, h.content, rfl⟩
        rw [← splice_length]
        exact ⟨_, hmoved.writeChunks (hserved w (.head _)) _ le_rfl le_rfl (by omega)⟩
      · exact absurd ⟨happend, hint⟩ ha
    obtain ⟨file'', hrest, hcontent⟩ := ih hat (happend'.trans happend)
      (fun x hx => hserved x (.tail _ hx)) (by rw [List.length_append]; omega)
    refine ⟨file'', ?_, by rw [hcontent, List.append_assoc]⟩
    rw [List.foldlM_cons, hwrite]
    exact hrest

lemma map_range_splice {k : ℕ} {old new : Buffer} {bytes : List UInt8} (h : offset ≤ k)
    (hnew : ∀ i < max k (offset + bytes.length), new i =
      if offset ≤ i ∧ i < offset + bytes.length then bytes.getD (i - offset) 0 else old i) :
    (List.range (max k (offset + bytes.length))).map new =
      splice ((List.range k).map old) offset bytes := by
  refine List.ext_getElem ?_ fun i hi hi' => ?_
  · rw [length_splice (by simpa using h)]
    simp
  · rw [List.length_map, List.length_range] at hi
    simp only [splice, List.getElem_map, List.getElem_range, List.getElem_append,
      List.length_append,
      List.length_take, List.length_map, List.length_range, List.getElem_take, List.getElem_drop,
      hnew i hi]
    grind

/-- A file of `tmpfs.c` that can be written up to `n` bytes: below 2 GiB, and `kmalloc` has a buffer
of twice the size for each end that is behind the buffer. -/
structure TmpfsRoom (memory : ℕ → Option Buffer) (e : Tmpfs.Entry) (n : ℕ) : Prop where
  size_le : e.size ≤ e.capacity
  data : 0 < e.capacity → e.data.isSome = true
  lt : n < 2 ^ 31
  memory : ∀ k ≤ n, e.capacity < k → (memory (max (2 * k) 64)).isSome = true

/-- **The memory file system stores the bytes of a write** for which it has memory. -/
lemma TmpfsRoom.write {memory : ℕ → Option Buffer} {e : Tmpfs.Entry} {bytes : List UInt8}
    (h : TmpfsRoom memory e n) (hbytes : bytes ≠ []) (hle : offset ≤ e.size)
    (hn : offset + bytes.length ≤ n) {c : Tmpfs.Call}
    (hc : c = ⟨offset, bytes.length, fun i => bytes.getD i 0, memory⟩) :
    (Tmpfs.write e c).result = bytes.length ∧ TmpfsRoom memory (Tmpfs.write e c).entry n ∧
      (List.range (Tmpfs.write e c).entry.size).map ((Tmpfs.write e c).entry.data.getD fun _ => 0) =
        splice ((List.range e.size).map (e.data.getD fun _ => 0)) offset bytes := by
  have hpos := List.length_pos_iff.mpr hbytes
  have hlt := h.lt
  have hcsize : c.size = bytes.length := by rw [hc]
  have hcoffset : c.offset = offset := by rw [hc]
  have hneeded : c.needed = offset + bytes.length := by
    rw [Tmpfs.Call.needed, hcsize, hcoffset, w32_of_lt (by omega)]
  -- the buffer into which the bytes are copied has room, and starts with the old contents
  obtain ⟨e', data, stores, hwrite, hdata', hsize', hroom, hsame, hmemory⟩ : ∃ (e' : Tmpfs.Entry)
      (data : Buffer) (stores : List (ℕ × ℕ)),
      Tmpfs.write e c = ⟨(bytes.length : ℤ), e'.store c, stores⟩ ∧ e'.data = some data ∧
      e'.size = e.size ∧ max e.size (offset + bytes.length) ≤ e'.capacity ∧
      (∀ i < e.size, data i = e.data.getD (fun _ => 0) i) ∧ e.capacity ≤ e'.capacity := by
    have hne : c.size ≠ 0 := by omega
    have hint : int32 c.size = bytes.length := by rw [hcsize, int32_of_lt (by omega)]
    have hsize := h.size_le
    rcases Nat.lt_or_ge e.capacity c.needed with hgrow | hge
    · have hcap : c.newCap = max (2 * (offset + bytes.length)) 64 := by
        rw [Tmpfs.Call.newCap, hneeded, w32_of_lt (by omega), Nat.mul_comm]
      obtain ⟨memory', hm⟩ := Option.isSome_iff_exists.mp
        (h.memory (offset + bytes.length) hn (by omega))
      have hm' : c.kmalloc c.newCap = some memory' := by
        rw [hcap, hc]
        exact hm
      refine ⟨e.grow c.newCap memory', _, _, by rw [Tmpfs.write_of_some hne hgrow hm', hint],
        rfl, rfl, ?_, fun i hi => ?_, ?_⟩
      · show _ ≤ c.newCap
        omega
      · obtain ⟨old, hold⟩ := Option.isSome_iff_exists.mp (h.data (by omega))
        simp [hold, Buffer.copy, hi]
      · show _ ≤ c.newCap
        omega
    · obtain ⟨data, hd⟩ := Option.isSome_iff_exists.mp (h.data (by omega))
      exact ⟨e, data, _, by rw [Tmpfs.write_of_le hne hge, hint], hd, rfl, by omega,
        fun i _ => by rw [hd]; rfl, le_rfl⟩
  have hstored : (e'.store c).size = max e.size (offset + bytes.length) := by
    rw [e'.store_size (by omega), hsize', hcsize, hcoffset]
  have hcontent : (e'.store c).data =
    some (data.copy offset (fun i => bytes.getD i 0) 0 bytes.length) := by
    rw [Tmpfs.Entry.store, hdata', hc]
    rfl
  rw [hwrite]
  refine ⟨rfl, ⟨?_, fun _ => by rw [hcontent]; rfl, h.lt, fun k hk hcap => h.memory k hk ?_⟩, ?_⟩
  · show (e'.store c).size ≤ e'.capacity
    rw [hstored]
    exact hroom
  · have hcap : e'.capacity < k := hcap
    omega
  · dsimp only
    rw [hstored, hcontent, Option.getD_some]
    refine map_range_splice hle fun i hi => ?_
    unfold Buffer.copy
    split_ifs with hin
    · rw [Nat.zero_add]
    · exact hsame i (by omega)

/-- Files of `tmpfs.c`, with what `kmalloc` gives for a size. A file asks for each size once only,
as its buffer grows. -/
def tmpfs (memory : ℕ → Option Buffer) : FileSystem Tmpfs.Entry where
  content e := (List.range e.size).map (e.data.getD fun _ => 0)
  getSize e := e.size
  write e offset bytes :=
    let r := Tmpfs.write e ⟨offset, bytes.length, fun i => bytes.getD i 0, memory⟩
    some (r.result, r.entry)
  room := TmpfsRoom memory
  room_lt _ _ h := h.lt
  getSize_eq _ _ _ := by rw [List.length_map, List.length_range]
  stores e n offset bytes h hbytes hle hn := by
    rw [List.length_map, List.length_range] at hle
    obtain ⟨hr, hroom, hcontent⟩ := h.write hbytes hle hn rfl
    exact ⟨_, by dsimp only; rw [hr], hroom, hcontent⟩

/-- Files of a FAT16 volume. There must be room for one byte more. -/
def fat16 (name : List ℕ) : FileSystem Fat16.FileNode where
  content f := Fat16.content f.volume f.data.dirFirstCluster f.data.file.entry.name
  getSize f := f.size
  write f offset bytes := f.write name offset (fun i => bytes.getD i 0) bytes.length
  room f n := n < 2 ^ 31 ∧ ∃ D L l s, Fat16.Opened f D L l s ∧ n < Fat16.room f.volume D l
  room_lt _ _ h := h.1
  getSize_eq f n h := by
    obtain ⟨-, D, L, l, s, hopen, -⟩ := h
    rw [hopen.content_eq, List.length_map, List.length_range, hopen.size]
  stores f n offset bytes h hbytes hle hn := by
    obtain ⟨hlt, D, L, l, s, hopen, hroom⟩ := h
    have hpos := List.length_pos_iff.mpr hbytes
    rw [hopen.content_eq, List.length_map, List.length_range] at hle
    obtain ⟨f', m, hwrite, hopen', hroom', -, hentry, hstores⟩ := hopen.write name
      (fun i => bytes.getD i 0) hpos (by omega) (show offset + bytes.length < _ by omega)
    have hsize : f'.data.file.entry.fileSize =
        max f.data.file.entry.fileSize (offset + bytes.length) := by
      rw [hentry, ← hopen.fileSize]
      rfl
    refine ⟨f', hwrite, ⟨hlt, D, L, m, s, hopen', by rwa [hroom']⟩, ?_⟩
    rw [hopen'.content_eq, hopen.content_eq, hsize]
    refine map_range_splice hle fun i hi => ?_
    split_ifs with hin
    · exact hstores.written i hin.1 hin.2
    · have hcovers := hopen.covers
      exact hstores.kept i (by omega) hin

/-- What `kmalloc` gives for the two buffers of a write, and the date and time, by the offset. -/
structure Fat32Memory where
  clusterBuf : ℕ → Option Buffer
  entryBuf : ℕ → Option Buffer
  stamp : ℕ → UInt16 × UInt16

/-- Files of a FAT32 volume, in one directory and with one name. -/
def fat32 (dir : ℕ) (name : List ℕ) (memory : Fat32Memory) : FileSystem Fat32.FileNode where
  content f := f.volume.content dir name
  getSize f := f.size
  write f offset bytes := f.write ⟨offset, bytes.length, fun i => bytes.getD i 0,
    memory.clusterBuf offset, memory.entryBuf offset, memory.stamp offset⟩
  room f n := n < 2 ^ 31 ∧
    (∀ i < n, (memory.clusterBuf i).isSome = true ∧ (memory.entryBuf i).isSome = true) ∧
    ∃ L s l, Fat32.Opened f dir name L s l ∧
      Fat32.Spare f.volume L ((n - 1) / f.volume.mount.bytesPerCluster + 1)
  room_lt _ _ h := h.1
  getSize_eq f n h := by
    obtain ⟨-, -, L, s, l, hopen, -⟩ := h
    rw [hopen.content_eq, List.length_map, List.length_range, hopen.size]
  stores f n offset bytes h hbytes hle hn := by
    obtain ⟨hlt, hmemory, L, s, l, hopen, hspare⟩ := h
    have hpos := List.length_pos_iff.mpr hbytes
    rw [hopen.content_eq, List.length_map, List.length_range] at hle
    obtain ⟨f', s', m, hwrite, hopen', hmount, hhint, hsize, hbyte⟩ := hopen.write
      (c := ⟨offset, bytes.length, fun i => bytes.getD i 0, memory.clusterBuf offset,
        memory.entryBuf offset, memory.stamp offset⟩) hpos.ne' (hmemory offset (by omega))
      ⟨by dsimp only; omega, by dsimp only; omega⟩ hle
      (hspare.mono (Nat.add_le_add_right (Nat.div_le_div_right (by dsimp only; omega)) 1))
    refine ⟨f', hwrite, ⟨hlt, hmemory, L, s', m, hopen', ?_⟩, ?_⟩
    · rw [hmount]
      exact hspare.congr hmount fun _ => hhint
    · rw [hopen'.content_eq, hopen.content_eq, hsize]
      exact map_range_splice hle fun i hi => hbyte i (by rw [hsize]; exact hi)

/-! ## Three files -/

/-- A file of the memory file system with the bytes 1 and 2. -/
def twoBytes : Tmpfs.Entry := ⟨some fun i => UInt8.ofNat (i + 1), 2, 64⟩

/-- The memory file system, when `kmalloc` gives zeros for up to 1 MiB. -/
def zeros : FileSystem Tmpfs.Entry := tmpfs fun n => if n ≤ 0x100000 then some fun _ => 0 else none

/-- A write for which there is memory. -/
def written (bytes : List UInt8) : Write := ⟨bytes, fun _ => true⟩

lemma output_written (bytes : List UInt8) : output [written bytes] = bytes := by
  simp [output, written]

lemma served_written {bytes : List UInt8} : ∀ w ∈ [written bytes], w.Served := by
  intro w hw
  rw [List.mem_singleton.1 hw]
  exact fun _ _ _ => rfl

lemma room_twoBytes : zeros.room twoBytes 1000 where
  size_le := by decide
  data _ := rfl
  lt := by decide
  memory k hk _ := by
    rw [if_pos (by omega)]
    rfl

/-- The node of the file `A` of 100 bytes, on a volume without free clusters. -/
def nodeA : Fat16.FileNode := ⟨Fat16.oneFile, ⟨Fat16.fileA 0, 0⟩, 100⟩

lemma opened_nodeA : Fat16.Opened nodeA Fat16.smallFs.clusters Fat16.otherChains [2] ⟨33, 0⟩ where
  chain := (Fat16.isFile_oneFile 0).chain
  isDir := .inl rfl
  slot := by decide +kernel
  entry := by decide +kernel
  isOpen := rfl
  fileSize := rfl
  size := rfl
  covers := (Fat16.isFile_oneFile 0).size_le

lemma room_nodeA : (fat16 [65]).room nodeA 511 := by
  refine ⟨by decide, _, _, _, _, opened_nodeA, ?_⟩
  show 511 < Fat16.room Fat16.oneFile Fat16.smallFs.clusters [2]
  rw [Fat16.room_oneFile]
  decide

/-- The node of the empty file `notes.txt`. -/
def nodeNotes : Fat32.FileNode := ⟨Fat32.emptyNotes, Fat32.notesHandle, 0⟩

/-- The FAT32 file system, when there is memory. -/
def fat32Notes : FileSystem Fat32.FileNode :=
  fat32 2 Fat32.notes ⟨fun _ => some fun _ => 0, fun _ => some fun _ => 0, fun _ => (0, 0)⟩

lemma opened_nodeNotes :
    Fat32.Opened nodeNotes 2 Fat32.notes [[2]] (Fat32.fileEntry "NOTES   TXT" 0 0) [] where
  file :=
    ⟨Fat32.find_emptyNotes, Fat32.fileAt_emptyNotes.layout, rfl, rfl, Nat.zero_le _, fun _ _ => rfl⟩
  dir_mem := ⟨[], List.mem_singleton_self _⟩
  handle := Fat32.fileAt_emptyNotes.handleOf (List.mem_singleton_self _) Fat32.openFile_emptyNotes
  start := rfl
  fileSize := rfl
  size := rfl
  names := by decide +kernel

lemma room_nodeNotes : fat32Notes.room nodeNotes 5 :=
  ⟨by decide, fun _ _ => ⟨rfl, rfl⟩, _, _, _, opened_nodeNotes, by decide +kernel⟩

end FrostByte.Rewrite
