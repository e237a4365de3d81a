import FrostByte.Fd.Invariant
import FrostByte.Fd.Io
import FrostByte.User.Rewrite

/-!
# Files behind descriptors

`sys_open` and `sys_write` are modelled at two levels: over the tables of descriptors, where what
lies below them is an environment, and on one open file of a file system. At the first level a call
may find no descriptor, wait at a pipe or write to the terminal; on a regular file it does what the
second level says. The second level is thus what a program sees of the first one.

## Main definitions

* `Serves` — an environment that works on the files of a file system.
* `Shows` — a slot of the table of open files, seen as an open file.

## Main results

* `Serves.writeChunks` — the loops of the two levels keep step.
* `Serves.sysWrite` — `sys_write` on a descriptor of a file does what it does to the open file.
* `sysOpen_shows` — the descriptor that `sys_open` returns leads to the open file.
-/

namespace FrostByte.Rewrite

open Function Word

variable {σ W : Type*}

/-- The environment works on the files of `fs`: the node `n` is the file `file w` of a world `w`,
there is memory for every piece, and the user has `bytes` at `buf`. -/
structure Serves (env : IoEnv W) (fs : FileSystem σ) (n : ℕ) (file : W → σ) (buf : ℕ)
    (bytes : List UInt8) : Prop where
  userRangeOk : ∀ w, env.userRangeOk buf bytes.length false w = true
  copyFromUser : ∀ w k c, k + c ≤ bytes.length →
    env.copyFromUser (w32 (buf + k)) c w = some (((bytes.drop k).take c).map UInt8.toNat)
  kmalloc : ∀ w c, (env.kmalloc c w).1 = true ∧ file (env.kmalloc c w).2 = file w
  kfree : ∀ w, file (env.kfree w) = file w
  /-- A write that returns has stored at most the bytes that it was given. -/
  vfsWrite : ∀ w offset l r f, fs.write (file w) offset l = some (r, f) → r ≤ l.length ∧
    ∃ w', env.vfsWrite n offset (l.map UInt8.toNat) w = (r, w') ∧ file w' = f
  vfsGetSize : ∀ w, fs.getSize (file w) < 2 ^ 32 ∧ env.vfsGetSize n w = int32 (fs.getSize (file w))
  streamDevice : ∀ w, env.streamDevice n w = false

/-- The slot `i` of the table, whose node is `n`, is the open file `f`. -/
structure Shows (file : W → σ) (i n : ℕ) (st : IoState W) (f : OpenFile σ) : Prop where
  node : (st.fds.files i).node = some n
  kind : st.fds.kind n = .file
  offset : (st.fds.files i).offset = f.offset
  append : (st.fds.files i).append ≠ 0 ↔ f.append = true
  content : file st.world = f.node

variable {env : IoEnv W} {fs : FileSystem σ} {file : W → σ} {i n buf : ℕ} {st : IoState W}
  {f f' : OpenFile σ} {bytes : List UInt8}

/-- A size that is not negative as an `int` is the same number. -/
lemma int32_of_nonneg {m : ℕ} (h : m < 2 ^ 32) (hm : 0 ≤ int32 m) : int32 m = m := by
  rw [int32, BitVec.toInt_eq_toNat_cond, BitVec.toNat_ofNat, Nat.mod_eq_of_lt h] at hm ⊢
  split_ifs at hm ⊢
  · rfl
  · omega

/-- What becomes of the world is what becomes of the file. -/
lemma Shows.setWorld (h : Shows file i n st f) {w : W} {x : σ} (hw : file w = x) :
    Shows file i n { st with world := w } { f with node := x } :=
  ⟨h.node, h.kind, h.offset, h.append, hw⟩

/-- An offset that is set in the slot is set in the open file. -/
lemma Shows.setOffset (h : Shows file i n st f) {offset : ℤ} {o : ℕ} (ho : w32 offset.toNat = o) :
    Shows file i n (st.setOffset i offset) { f with offset := o } := by
  have hslot : (st.setOffset i offset).fds.files i =
      { st.fds.files i with offset := w32 offset.toNat } := update_self ..
  refine ⟨?_, h.kind, ?_, ?_, h.content⟩
  · rw [hslot]
    exact h.node
  · rw [hslot]
    exact ho
  · rw [hslot]
    exact h.append

/-- **The loop of `sys_write`** over the table does in each round what it does to the open file. The
induction is on the rounds. The table has one more, in which no byte is left. -/
lemma Serves.writeChunks (h : Serves env fs n file buf bytes) (hlen : bytes.length < 2 ^ 32)
    (fuel k : ℕ) (hk : k ≤ bytes.length) (hfuel : bytes.length - k ≤ fuel)
    (hshows : Shows file i n st f)
    (hrun : Rewrite.writeChunks fs (fun _ => true) fuel (bytes.drop k) f = some f') :
    Shows file i n (FrostByte.writeChunks env i n buf (fuel + 1) (bytes.length - k) k st).2 f' := by
  induction fuel generalizing k st f with
  | zero =>
    cases hrun
    rw [FrostByte.writeChunks, if_pos (by omega)]
    exact hshows
  | succ fuel ih =>
    rw [FrostByte.writeChunks]
    rw [Rewrite.writeChunks] at hrun
    have hleft : (bytes.drop k).length = bytes.length - k := List.length_drop
    by_cases hdone : bytes.length - k = 0
    · rw [if_pos (.inl (List.eq_nil_of_length_eq_zero (by omega)))] at hrun
      cases hrun
      rw [if_pos hdone]
      exact hshows
    have hmore : ¬(bytes.drop k = [] ∨ true = false) := by
      rintro (hnil | hfalse)
      · rw [hnil, List.length_nil] at hleft
        omega
      · cases hfalse
    rw [if_neg hmore] at hrun
    rw [if_neg hdone]
    -- both loops take the same piece
    generalize hc : (if 65536 < bytes.length - k then 65536 else bytes.length - k) = c
    have hcle : k + c ≤ bytes.length := by
      split_ifs at hc <;> omega
    have hchunk : (bytes.drop k).take 65536 = (bytes.drop k).take c := by
      split_ifs at hc with hlong
      · rw [hc]
      · rw [List.take_of_length_le (by omega), List.take_of_length_le (by omega)]
    have hchunkLen : ((bytes.drop k).take c).length = c := by
      rw [List.length_take]
      omega
    rw [hchunk] at hrun
    obtain ⟨⟨r, x⟩, hwrite, hrun⟩ := Option.bind_eq_some_iff.mp hrun
    have hmemory := h.kmalloc st.world c
    obtain ⟨hrle, w, hw, hwx⟩ := h.vfsWrite (env.kmalloc c st.world).2 f.offset _ r x
      (by rw [hmemory.2, hshows.content]; exact hwrite)
    have hstored := hshows.setWorld ((h.kfree w).trans hwx)
    dsimp only
    rw [hmemory.1, if_neg (by simp), Int.toNat_natCast, h.copyFromUser _ k c hcle]
    simp only [FrostByte.vfsWrite, hshows.kind, hshows.offset, hw]
    dsimp only at hrun
    by_cases hfail : r ≤ 0
    · rw [if_pos hfail] at hrun ⊢
      cases hrun
      exact hstored
    have hoffset : w32 ((f.offset : ℤ) + r).toNat = w32 (f.offset + r.toNat) := by
      rw [Int.toNat_add (by omega) (by omega), Int.toNat_natCast]
    have hmoved := hstored.setOffset hoffset
    rw [if_neg hfail] at hrun ⊢
    rw [hchunkLen] at hrun hrle
    by_cases hshort : r < c
    · rw [if_pos hshort] at hrun ⊢
      cases hrun
      exact hmoved
    · rw [if_neg hshort] at hrun ⊢
      obtain ⟨m, rfl⟩ : ∃ m : ℕ, r = m := ⟨r.toNat, by omega⟩
      rw [Int.toNat_natCast, List.drop_drop] at hrun
      rw [Int.toNat_natCast, sub32_of_le (by omega) (by omega)]
      have hrest : bytes.length - k - m = bytes.length - (k + m) := by omega
      rw [hrest, ← Int.natCast_add]
      exact ih (k + m) (by omega) (by omega) hmoved hrun

/-- **`sys_write` on a descriptor** of a regular file writes to the open file. -/
theorem Serves.sysWrite (h : Serves env fs n file buf bytes) (hlen : bytes.length < 2 ^ 32)
    (hbuf : buf ≠ 0) {c : ℕ} {fd : ℤ} (hget : fdGet c fd st.fds = some i)
    (hshows : Shows file i n st f)
    (hrun : Rewrite.sysWrite fs f ⟨bytes, fun _ => true⟩ = some f') :
    ∃ r, (FrostByte.sysWrite env c fd buf bytes.length st).1 = .done r ∧
      Shows file i n (FrostByte.sysWrite env c fd buf bytes.length st).2 f' := by
  rw [Rewrite.sysWrite] at hrun
  dsimp only at hrun
  unfold FrostByte.sysWrite
  by_cases hempty : bytes = []
  · rw [if_pos hempty] at hrun
    cases hrun
    rw [if_pos (.inr (by rw [hempty, List.length_nil]))]
    exact ⟨0, rfl, hshows⟩
  have hpos : bytes.length ≠ 0 := fun h0 => hempty (List.eq_nil_of_length_eq_zero h0)
  rw [if_neg hempty] at hrun
  rw [if_neg (by simp [hbuf, hpos]), h.userRangeOk, if_neg (by simp), hget]
  dsimp only
  rw [hshows.node]
  dsimp only
  -- with `O_APPEND` both start at the end of the file
  obtain ⟨hsize, hgetSize⟩ := h.vfsGetSize st.world
  rw [hshows.content] at hsize hgetSize
  have hstart : Shows file i n
      (if (st.fds.files i).append ≠ 0 ∧ 0 ≤ env.vfsGetSize n st.world then
        st.setOffset i (env.vfsGetSize n st.world) else st)
      (if f.append = true ∧ 0 ≤ int32 (fs.getSize f.node) then
        { f with offset := fs.getSize f.node } else f) := by
    rw [hgetSize]
    simp only [hshows.append]
    split_ifs with happend
    · refine hshows.setOffset ?_
      rw [int32_of_nonneg hsize happend.2, Int.toNat_natCast, w32_of_lt hsize]
    · exact hshows
  generalize (if (st.fds.files i).append ≠ 0 ∧ 0 ≤ env.vfsGetSize n st.world then
    st.setOffset i (env.vfsGetSize n st.world) else st) = st₁ at hstart ⊢
  have hloop := h.writeChunks hlen bytes.length 0 (Nat.zero_le _) (by omega) hstart hrun
  rw [hstart.kind]
  dsimp only
  rw [h.streamDevice, if_neg (by simp)]
  exact ⟨_, rfl, hloop⟩

/-- The descriptor that `fd_alloc` returns leads to a new slot for the node. -/
lemma fdAlloc_slot {c flags append : ℕ} {s s' : FdState} {fd : ℤ}
    (halloc : fdAlloc c n flags append s = (fd, s')) (hfd : 0 ≤ fd) :
    ∃ i, fdGet c fd s' = some i ∧ s'.files i = ⟨some n, 0, flags, 1, append⟩ ∧
    s'.kind = s.kind := by
  unfold fdAlloc at halloc
  rcases hslot : ofAlloc n flags append s with ⟨_ | i, s₁⟩
  · rw [hslot] at halloc
    cases halloc
    omega
  obtain ⟨hi, -, rfl⟩ := ofAlloc_some hslot
  rw [hslot] at halloc
  dsimp only at halloc
  split at halloc
  · cases halloc
    omega
  next d hd =>
  cases halloc
  have hlt : d < fdTableSize := by
    have hmem := List.mem_of_find?_eq_some hd
    rw [List.mem_range'_1] at hmem
    unfold fdTableSize at hmem ⊢
    omega
  have hfile : ((s.setFile i ⟨some n, 0, flags, 1, append⟩).setFd c d i).files i =
      ⟨some n, 0, flags, 1, append⟩ := update_self ..
  have htable : (((s.setFile i ⟨some n, 0, flags, 1, append⟩).setFd c d i).procs c).fdTable d =
    i := by
    simp only [FdState.setFd, FdState.setProc, update_self]
  refine ⟨i, ?_, hfile, rfl⟩
  rw [fdGet, if_pos ⟨Int.natCast_nonneg _, Int.ofNat_lt.mpr hlt⟩]
  dsimp only
  rw [Int.toNat_natCast, htable, Int.toNat_natCast, hfile,
    if_pos ⟨Int.natCast_nonneg _, Int.ofNat_lt.mpr hi, rfl⟩]

/-- **The descriptor of `sys_open`** leads to a slot that is the open file, at its start and with
the mode that `O_APPEND` gives it. -/
theorem sysOpen_shows {c flags : ℕ} {s s' : FdState} {fd : ℤ} {w : W}
    (hopen : FrostByte.sysOpen c flags true s = (fd, s')) (hfd : 0 ≤ fd) :
    ∃ i f, fdGet c fd s' = some i ∧ Rewrite.sysOpen fs flags (some (file w)) none = some f ∧
      Shows file i s.nextNode ⟨s', w⟩ f := by
  rw [FrostByte.sysOpen, if_neg (by simp)] at hopen
  obtain ⟨i, hget, hslot, hkind⟩ := fdAlloc_slot hopen hfd
  refine ⟨i, ⟨file w, 0, flags.testBit 10⟩, hget, ?_, ?_, ?_, ?_, ?_, rfl⟩
  · simp [Rewrite.sysOpen, Rewrite.vfsWrite]
  · rw [hslot]
  · rw [hkind]
    exact update_self ..
  · rw [hslot]
  · rw [hslot]
    cases flags.testBit 10 <;> simp

end FrostByte.Rewrite
