import FrostByte.Lib.Buffer

/-!
# Status flags

`sys_fcntl` of `src/syscall.c` takes the private data of every device node for a socket and uses the
word at offset 20, where a socket has its flags. A pipe has bytes of its buffer there. The private
data of a device of `devfs.c` are the 8 bytes of a `devfs_priv_t`: the word lies behind them, in
memory that belongs to another block of the heap.

## Main definitions

* `sysFcntl` — `sys_fcntl` with the commands `F_GETFL` and `F_SETFL`.
* `SetsFlags` — the call changes flags only, and `F_GETFL` reports the flag that is obeyed.
* `Harmless` — data that are not a socket's already have the word that they are given.

## Main results

* `setsFlags_iff` — `F_SETFL` only sets flags exactly when the call is harmless.
* `setfl_changes_pipe` — `O_NONBLOCK` overwrites a byte of a pipe.
-/

namespace FrostByte.Fcntl

/-- What an open file leads to. All but files and directories are device nodes. -/
inductive Kind
  | file
  | pipe
  | device
  | socket
  deriving DecidableEq

/-- An open file, and the bytes from the private data of its node on. Of a device only the first 8
are its own. -/
structure OpenFile where
  flags : BitVec 32
  kind : Kind
  privateData : Option Buffer

/-- `F_GETFL`, `F_SETFL`, and the commands that are not known. -/
inductive Cmd
  | getfl
  | setfl
  | other

/-- `O_NONBLOCK`. -/
def nonblock : BitVec 32 := 0x800

/-- The offset of `flags` in `socket_t`. -/
def flagsOffset : ℕ := 20

/-- The data that `sys_fcntl` takes for those of a socket. -/
def OpenFile.sock (f : OpenFile) : Option Buffer := if f.kind = .file then none else f.privateData

/-- `sys_fcntl`: the result, which is missing when the command is not known, and the open file. -/
def sysFcntl (f : OpenFile) (cmd : Cmd) (arg : BitVec 32) : Option (BitVec 32) × OpenFile :=
  match f.sock, cmd with
  | some data, .getfl => (some (.ofNat 32 (data.word flagsOffset)), f)
  | some data, .setfl =>
      (some 0, { f with privateData := some (data.setWord flagsOffset arg.toNat) })
  | none, .getfl => (some f.flags, f)
  | none, .setfl => (some 0, { f with flags := f.flags &&& ~~~nonblock ||| arg &&& nonblock })
  | _, .other => (none, f)

/-- The flags that reads and writes obey. `socket_vfs_read` and `socket_vfs_write` test those of the
socket, `sys_read` and `sys_write` those of the open file when it is a pipe. A device tests neither,
and the flags of the open file are the only ones that belong to it. -/
def OpenFile.obeyed (f : OpenFile) : BitVec 32 :=
  match f.kind, f.privateData with
  | .socket, some data => .ofNat 32 (data.word flagsOffset)
  | _, _ => f.flags

/-- `F_SETFL` changes flags only, and `F_GETFL` reports the flag obeyed. -/
structure SetsFlags (f f' : OpenFile) : Prop where
  kind : f'.kind = f.kind
  data : ∀ i, f.kind ≠ .socket ∨ i < flagsOffset ∨ flagsOffset + 4 ≤ i →
    f'.privateData.map (· i) = f.privateData.map (· i)
  reported : ∀ a, (sysFcntl f' .getfl a).1.map (· &&& nonblock) = some (f'.obeyed &&& nonblock)

/-- Private data other than a socket's already have the word they are given. -/
def Harmless (f : OpenFile) (arg : BitVec 32) : Prop :=
  f.kind = .pipe ∨ f.kind = .device → ∀ data ∈ f.privateData,
    data.word flagsOffset = arg.toNat ∧ arg &&& nonblock = f.flags &&& nonblock

variable {f : OpenFile} {arg : BitVec 32} {data : Buffer}

/-- A file without data of a socket keeps its private data, and its own flags are those obeyed. -/
lemma setsFlags_of_sock_none (h : f.sock = none) : SetsFlags f (sysFcntl f .setfl arg).2 := by
  have hnone : f.kind = .socket → f.privateData = none :=
    fun hk => by simpa [OpenFile.sock, hk] using h
  generalize hf' : { f with flags := f.flags &&& ~~~nonblock ||| arg &&& nonblock } = f'
  have hsock : f'.sock = none := by rw [← hf']; exact h
  have hobeyed : f'.obeyed = f'.flags := by
    unfold OpenFile.obeyed
    split
    next data hk hd => simp [← hf', hnone (by simpa [← hf'] using hk)] at hd
    · rfl
  simp only [sysFcntl, h, hf']
  refine ⟨by rw [← hf'], fun i _ => by rw [← hf'], fun a => ?_⟩
  simp [sysFcntl, hsock, hobeyed]

lemma word_setWord_arg :
    BitVec.ofNat 32 ((data.setWord flagsOffset arg.toNat).word flagsOffset) =
    arg := by
  rw [Buffer.word_setWord _ arg.isLt, BitVec.ofNat_toNat, BitVec.setWidth_eq]

/-- Where the data are taken for a socket's, the word at offset 20 becomes the argument. For a
socket these are the flags obeyed. For others the call is right only if nothing changes by it. -/
lemma setsFlags_of_sock (h : f.sock = some data) : SetsFlags f (sysFcntl f .setfl arg).2 ↔
    f.kind ≠ .socket → data.word flagsOffset = arg.toNat ∧
    arg &&& nonblock = f.flags &&& nonblock := by
  obtain ⟨hfile, hdata⟩ : f.kind ≠ .file ∧ f.privateData = some data := by
    simpa [OpenFile.sock] using h
  obtain ⟨f', hf'⟩ : ∃ f',
    f' = { f with privateData := some (data.setWord flagsOffset arg.toNat) } := ⟨_, rfl⟩
  have hget : ∀ a, (sysFcntl f' .getfl a).1 = some arg := by
    simp [sysFcntl, OpenFile.sock, hf', hfile, word_setWord_arg]
  have hobeyed : f'.obeyed = if f.kind = .socket then arg else f.flags := by
    cases hk : f.kind <;> simp [OpenFile.obeyed, hf', hk, word_setWord_arg]
  simp only [sysFcntl, h, ← hf']
  constructor
  · rintro ⟨-, hkeep, hreported⟩ hk
    have hsame : data.setWord flagsOffset arg.toNat = data := by
      funext i
      simpa [hf', hdata] using hkeep i (.inl hk)
    refine ⟨?_, by simpa [hget, hobeyed, hk] using hreported 0⟩
    rw [← hsame, Buffer.word_setWord _ arg.isLt]
  · intro hharmless
    refine ⟨by rw [hf'], fun i hi => ?_, fun a => ?_⟩
    · by_cases hk : f.kind = .socket
      · have hout : ¬ (flagsOffset ≤ i ∧ i < flagsOffset + 4) := by
          rcases hi with hi | hi
          · exact absurd hk hi
          · omega
        simp [hf', hdata, Buffer.setWord, hout]
      · rw [hf', hdata, ← (hharmless hk).1, Buffer.setWord_word]
    · by_cases hk : f.kind = .socket
      · simp [hget, hobeyed, hk]
      · simpa [hget, hobeyed, hk] using (hharmless hk).2

/-- **`F_SETFL`** changes nothing but flags, and `F_GETFL` then reports the flag that is obeyed,
exactly when the call is harmless. Where `sys_fcntl` sees no socket it changes the flags of the open
file; otherwise it stores the argument at offset 20, which is right for a socket alone. -/
theorem setsFlags_iff (f : OpenFile) (arg : BitVec 32) :
    SetsFlags f (sysFcntl f .setfl arg).2 ↔ Harmless f arg := by
  unfold Harmless
  cases h : f.sock with
  | none =>
    refine iff_of_true (setsFlags_of_sock_none h) fun hk data hd => ?_
    rcases hk with hk | hk
    · simp_all [OpenFile.sock]
    · simp_all [OpenFile.sock]
  | some data =>
    obtain ⟨hfile, hdata⟩ : f.kind ≠ .file ∧ f.privateData = some data := by
      simpa [OpenFile.sock] using h
    rw [setsFlags_of_sock h]
    have hkind : f.kind ≠ .socket ↔ f.kind = .pipe ∨ f.kind = .device := by
      cases hk : f.kind <;> simp_all
    simp [hdata, hkind]

/-- A pipe whose private data are all the same byte. -/
def pipeOf (a : UInt8) : OpenFile := ⟨0, .pipe, some fun _ => a⟩

/-- `O_NONBLOCK` overwrites a byte of the pipe, which goes on to block. -/
theorem setfl_changes_pipe : ¬ SetsFlags (pipeOf 65) (sysFcntl (pipeOf 65) .setfl nonblock).2 := by
  intro h
  have := h.data 20 (.inl (by decide))
  cases this

end FrostByte.Fcntl
