import Mathlib.Data.List.Basic

/-!
# File names on FAT32

A directory is a sequence of 32-byte entries: short ones with a name of 8 and 3 characters, and
long-name entries before them that hold 13 characters each. This file has the entries, how `fat32.c`
makes them from a name, and the iterator that makes names from them again.

## Main definitions

* `ShortEntry`, `LfnEntry` — the two kinds of 32-byte entries.
* `generateBasisName`, `nameTo83` — the eleven bytes of a short name.
* `generateLfnEntries` — the entries that `fat32.c` stores for a long name.
* `dirIterNext` — `fat32_dir_iter_next`, from the entries that are left to a name.
-/

namespace FrostByte.Fat32

open Function

/-- `FAT32_ATTR_DIRECTORY`. -/
def attrDirectory : ℕ := 0x10

/-- `FAT32_ATTR_ARCHIVE`, the attribute of a file. -/
def attrArchive : ℕ := 0x20

lemma attrArchive_ne : attrArchive ≠ 0x0F := by decide

lemma attr_zero_ne : 0 ≠ 0x0F := by decide

/-- `fat32_dir_entry_t`, without two bytes that are not used. -/
structure ShortEntry where
  name : List ℕ
  attr : ℕ
  createTime : ℕ
  createDate : ℕ
  accessDate : ℕ
  firstClusterHi : ℕ
  writeTime : ℕ
  writeDate : ℕ
  firstClusterLo : ℕ
  fileSize : ℕ
  /-- Otherwise the bytes are a long-name entry. -/
  attr_ne : attr ≠ 0x0F
  deriving DecidableEq

/-- `fat32_lfn_entry_t`, whose `attr` is 0x0F; `type` and `first_cluster` are not read. -/
structure LfnEntry where
  order : ℕ
  name1 : List ℕ
  checksum : ℕ
  name2 : List ℕ
  name3 : List ℕ
  deriving DecidableEq

/-- The 32 bytes of a directory entry, which `attr` tells apart. -/
inductive DirEntry
  | short (e : ShortEntry)
  | long (e : LfnEntry)
  deriving DecidableEq

/-- The byte `name[0]`, which is `order` in a long-name entry. -/
def DirEntry.first : DirEntry → ℕ
  | .short e => e.name.headD 0
  | .long e => e.order

/-! ## Short names -/

/-- Upper case, for ASCII letters only. -/
def toUpper (c : ℕ) : ℕ := if 'a'.toNat ≤ c ∧ c ≤ 'z'.toNat then c - 32 else c

/-- Lower case, for ASCII letters only. -/
def toLower (c : ℕ) : ℕ := if 'A'.toNat ≤ c ∧ c ≤ 'Z'.toNat then c + 32 else c

/-- The name up to its last dot, and what follows the dot. -/
def splitExt (name : List ℕ) : List ℕ × Option (List ℕ) :=
  let ext := (name.reverse.takeWhile (· ≠ '.'.toNat)).reverse
  if '.'.toNat ∈ name then (name.take (name.length - ext.length - 1), some ext) else (name, none)

/-- `cs` and then spaces, `n` characters. -/
def field (n : ℕ) (cs : List ℕ) : List ℕ := (cs ++ List.replicate n ' '.toNat).take n

/-- The three bytes of the extension; spaces when there is none. -/
def extField (ext : Option (List ℕ)) : List ℕ :=
  field 3 (((ext.getD []).take 3).map toUpper)

/-- `fat32_generate_basis_name`: six characters without blanks and dots, and always `~1`. -/
def generateBasisName (lfn : List ℕ) : List ℕ :=
  let parts := splitExt lfn
  let base := ((parts.1.filter fun c => c ≠ ' '.toNat ∧ c ≠ '.'.toNat).take 6).map toUpper
  field 8 (base ++ ['~'.toNat, '1'.toNat]) ++ extField parts.2

/-- The loop of `fat32_needs_lfn` over the characters of a name. -/
def needsLfnFrom (hasDot : Bool) (beforeDot afterDot : ℕ) : List ℕ → Bool
  | [] => 8 < beforeDot || 3 < afterDot
  | c :: cs =>
    if c = '.'.toNat then
      if hasDot then true else needsLfnFrom true beforeDot afterDot cs
    else if 'a'.toNat ≤ c ∧ c ≤ 'z'.toNat then true
    else if c = ' '.toNat then true
    else if hasDot then needsLfnFrom hasDot beforeDot (afterDot + 1) cs
    else needsLfnFrom hasDot (beforeDot + 1) afterDot cs

/-- `fat32_needs_lfn`. -/
def needsLfn (name : List ℕ) : Bool := needsLfnFrom false 0 0 name

/-- `fat32_name_to_83`: it cuts the two parts and does not check them. -/
def nameTo83 (name : List ℕ) : List ℕ :=
  let parts := splitExt name
  field 8 ((parts.1.take 8).map toUpper) ++ extField parts.2

/-- `fat32_83_to_name`: the two parts without blanks, with a dot between them. -/
def shortToName (shortName : List ℕ) : List ℕ :=
  ((shortName.take 8).filter (· ≠ ' '.toNat) ++
    if shortName.getD 8 0 ≠ ' '.toNat then
      '.'.toNat :: ((shortName.drop 8).take 3).filter (· ≠ ' '.toNat)
    else []).takeWhile (· ≠ 0)

/-! ## Long names -/

/-- `fat32_lfn_checksum`, a byte that is rotated right and added to. -/
def lfnChecksum (shortName : List ℕ) : ℕ :=
  shortName.foldl (fun sum c => (sum % 2 * 128 + sum / 2 + c) % 256) 0

/-- A `char` as a `uint16_t`: the sign is extended. -/
def widen (c : ℕ) : ℕ := if c < 128 then c else 0xFF00 + c

/-- The loop that fills `n` characters of an entry, and the new position. -/
def lfnChars (lfn : List ℕ) : ℕ → ℕ → List ℕ × ℕ
  | 0, charPos => ([], charPos)
  | n + 1, charPos =>
    if charPos < lfn.length then
      let rest := lfnChars lfn n (charPos + 1)
      (widen (lfn.getD charPos 0) :: rest.1, rest.2)
    else if charPos = lfn.length then
      let rest := lfnChars lfn n (charPos + 1)
      (0 :: rest.1, rest.2)
    else
      let rest := lfnChars lfn n charPos
      (0xFFFF :: rest.1, rest.2)

/-- The long-name entry number `i` from the name's start; the last one has the mark 0x40. -/
def lfnEntry (lfn : List ℕ) (checksum numLfn i : ℕ) : LfnEntry :=
  let r1 := lfnChars lfn 5 (i * 13)
  let r2 := lfnChars lfn 6 r1.2
  let r3 := lfnChars lfn 2 r2.2
  { order := if i + 1 = numLfn then (i + 1) ||| 0x40 else i + 1
    name1 := r1.1
    checksum := checksum
    name2 := r2.1
    name3 := r3.1 }

/-- The number of pieces of 13 characters, the last one rounded up. -/
def numLfn (lfn : List ℕ) : ℕ := (lfn.length + 12) / 13

/-- `fat32_generate_lfn_entries`, the last characters first. -/
def generateLfnEntries (lfn : List ℕ) (maxEntries : ℕ) : Option (List LfnEntry × List ℕ) :=
  if maxEntries < numLfn lfn then none
  else
    let basisName := generateBasisName lfn
    some (((List.range (numLfn lfn)).map
      (lfnEntry lfn (lfnChecksum basisName) (numLfn lfn))).reverse,
      basisName)

/-- `fat32_utf16_to_ascii`. -/
def utf16ToAscii (c : ℕ) : ℕ :=
  if c = 0 ∨ c = 0xFFFF then 0 else if c < 128 then c else '?'.toNat

/-- The loops of `fat32_extract_lfn`. They have no bound: writing past `lfn_name` is `none`. -/
def extractChars : List ℕ → (ℕ → ℕ) → ℕ → Option ((ℕ → ℕ) × ℕ)
  | [], name, pos => some (name, pos)
  | c :: cs, name, pos =>
    if utf16ToAscii c = 0 then some (name, pos)
    else if pos < 256 then extractChars cs (update name pos (utf16ToAscii c)) (pos + 1)
    else none

/-- `fat32_extract_lfn`, the 13 characters of an entry in order. -/
def extractLfn (lfn : LfnEntry) (name : ℕ → ℕ) (pos : ℕ) : Option ((ℕ → ℕ) × ℕ) :=
  extractChars (lfn.name1 ++ lfn.name2 ++ lfn.name3) name pos

/-- The long name that an iterator has gathered. -/
structure LfnState where
  lfnName : ℕ → ℕ
  lfnPos : ℕ
  lfnChecksum : ℕ

/-- The string in a buffer, cut after `n` characters. -/
def cString (n : ℕ) (buffer : ℕ → ℕ) : List ℕ := ((List.range n).map buffer).takeWhile (· ≠ 0)

/-- What one call of the iterator does. -/
inductive IterResult
  /-- It returns -1: there are no more entries. -/
  | stop
  /-- It returns 0 with an entry and a name; the entries that remain and the gathered name are the
  iterator after it. -/
  | found (entry : ShortEntry) (name : List ℕ) (rest : List DirEntry) (st : LfnState)
  /-- It writes past `lfn_name`. -/
  | overflow

/-- The long name gathered before a short entry, if the checksum agrees. -/
def entryName (e : ShortEntry) (st : LfnState) : List ℕ :=
  if 0 < st.lfnPos then
    if lfnChecksum e.name = st.lfnChecksum then cString 255 st.lfnName else shortToName e.name
  else shortToName e.name

/-- `fat32_dir_iter_next`, on the entries that are left. -/
def dirIterNext : List DirEntry → LfnState → IterResult
  | [], _ => .stop
  | entry :: rest, st =>
    if entry.first = 0 then .stop
    else if entry.first = 0xE5 then dirIterNext rest st
    else
      match entry with
      | .long lfn =>
        let st := if lfn.order.testBit 6 then ⟨fun _ => 0, 0, lfn.checksum⟩ else st
        match extractLfn lfn st.lfnName st.lfnPos with
        | none => .overflow
        | some (name, pos) => dirIterNext rest { st with lfnName := name, lfnPos := pos }
      | .short e =>
        if e.attr.testBit 3 then dirIterNext rest st
        else .found e (entryName e st) rest { st with lfnPos := 0 }

end FrostByte.Fat32
