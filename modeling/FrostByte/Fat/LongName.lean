import Mathlib.Algebra.Order.BigOperators.Group.List
import Mathlib.Algebra.Order.Group.Nat
import Mathlib.Data.List.GetD
import Mathlib.Data.List.TakeWhile
import FrostByte.Fat.Names

/-!
# Long names read back

`fat32_generate_lfn_entries` stores the entry of the last 13 characters first, and
`fat32_dir_iter_next` appends the pieces in the order in which it meets them. For a name of at most
13 characters, which has one piece, that is the name; a longer name has to be special for it.

## Main definitions

* `backwards` — the pieces of a name in the order in which they are stored.
* `readBack` — the name that the iterator makes of them.

## Main results

* `longName_iff` — a long name is read back exactly when `readBack` is the name itself.
* `longName_swapped` — a name of two pieces comes back with its pieces exchanged.
-/

namespace FrostByte.Fat32

open Function

/-- The characters of a name from `i * 13` on, 13 at most. -/
def piece (lfn : List ℕ) (i : ℕ) : List ℕ := (lfn.drop (i * 13)).take 13

/-- The pieces of a name, put together last piece first. -/
def backwards (lfn : List ℕ) : List ℕ :=
  ((List.range (numLfn lfn)).reverse.map (piece lfn)).flatten

/-- A character after it was stored as 16 bits and read again. -/
def readChar (c : ℕ) : ℕ := utf16ToAscii (widen c)

/-- The characters of a piece up to one that reads as a null. -/
def readPiece (lfn : List ℕ) (i : ℕ) : List ℕ := ((piece lfn i).map readChar).takeWhile (· ≠ 0)

/-- What is read from the entries of a name, last piece first. -/
def readBack (lfn : List ℕ) : List ℕ :=
  ((List.range (numLfn lfn)).reverse.map (readPiece lfn)).flatten

/-- Characters that are kept, and no end of the string. -/
def Ascii (lfn : List ℕ) : Prop := ∀ c ∈ lfn, 0 < c ∧ c < 128

instance (lfn : List ℕ) : Decidable (Ascii lfn) :=
  inferInstanceAs (Decidable (∀ c ∈ lfn, 0 < c ∧ c < 128))

/-- The iterator's buffer with some characters at its start. -/
def bufferOf (cs : List ℕ) : ℕ → ℕ := fun k => cs.getD k 0

variable {lfn : List ℕ}

lemma update_bufferOf (cs : List ℕ) (c : ℕ) :
    update (bufferOf cs) cs.length c = bufferOf (cs ++ [c]) := by
  funext k
  unfold bufferOf
  rcases lt_trichotomy k cs.length with h | h | h
  · rw [update_of_ne h.ne, List.getD_append _ _ _ _ h]
  · subst h
    rw [update_self, List.getD_append_right _ _ _ _ le_rfl, Nat.sub_self]
    rfl
  · rw [update_of_ne h.ne', List.getD_eq_default _ _ h.le, List.getD_eq_default]
    rw [List.length_append]
    exact h

lemma cString_bufferOf {cs : List ℕ} (hne : ∀ c ∈ cs, c ≠ 0) {n : ℕ} (hn : cs.length ≤ n) :
    cString n (bufferOf cs) = cs := by
  have hmap : (List.range n).map (bufferOf cs) = cs ++ List.replicate (n - cs.length) 0 := by
    apply List.ext_getElem
    · simp only [List.length_map, List.length_range, List.length_append, List.length_replicate]
      omega
    · intro k hk _
      rw [List.getElem_map, List.getElem_range, bufferOf, List.getElem_append]
      split_ifs with h
      · exact List.getD_eq_getElem _ _ h
      · rw [List.getD_eq_default _ _ (not_lt.mp h), List.getElem_replicate]
  rw [cString, hmap, List.takeWhile_append_of_pos fun c hc => decide_eq_true (hne c hc)]
  cases n - cs.length with
  | zero => exact List.append_nil _
  | succ k => exact List.append_nil _

/-! ## The entries -/

variable {basisName : List ℕ} {c : ℕ} {entries : List LfnEntry} {rest : List DirEntry}
    {st : LfnState}

lemma readChar_ascii (h : 0 < c ∧ c < 128) : readChar c = c := by
  unfold readChar widen utf16ToAscii
  rw [if_pos h.2, if_neg (by omega), if_pos h.2]

lemma lfnChars_add (m n p : ℕ) :
    lfnChars lfn (m + n) p = ((lfnChars lfn m p).1 ++ (lfnChars lfn n (lfnChars lfn m p).2).1,
      (lfnChars lfn n (lfnChars lfn m p).2).2) := by
  induction m generalizing p with
  | zero =>
    rw [Nat.zero_add]
    rfl
  | succ m ih =>
    rw [Nat.succ_add]
    simp only [lfnChars]
    split_ifs
    · simp [ih]
    · simp [ih]
    · simp [ih]

lemma extractChars_lfnChars (cs : List ℕ) (n p : ℕ)
    (hroom : cs.length + ((((lfn.drop p).take n).map readChar).takeWhile (· ≠ 0)).length ≤ 256) :
    extractChars (lfnChars lfn n p).1 (bufferOf cs) cs.length =
      some (bufferOf (cs ++ (((lfn.drop p).take n).map readChar).takeWhile (· ≠ 0)),
        (cs ++ (((lfn.drop p).take n).map readChar).takeWhile (· ≠ 0)).length) := by
  induction n generalizing p cs with
  | zero =>
    rw [List.take_zero, List.map_nil, List.takeWhile_nil, List.append_nil]
    rfl
  | succ n ih =>
    rw [lfnChars]
    by_cases hp : p < lfn.length
    · obtain ⟨c, hc⟩ : ∃ c, c = lfn.getD p 0 := ⟨_, rfl⟩
      have hchar : (lfn.drop p).take (n + 1) = c :: (lfn.drop (p + 1)).take n := by
        rw [List.drop_eq_getElem_cons hp, List.take_succ_cons, hc, List.getD_eq_getElem _ _ hp]
      rw [hchar, List.map_cons] at hroom ⊢
      rw [if_pos hp, ← hc]
      have hread : utf16ToAscii (widen c) = readChar c := rfl
      rw [extractChars, hread]
      by_cases hnull : readChar c = 0
      · rw [if_pos hnull, List.takeWhile_cons_of_neg (by simpa using hnull), List.append_nil]
      · rw [List.takeWhile_cons_of_pos (by simpa using hnull), List.length_cons] at hroom
        rw [if_neg hnull, if_pos (by omega), List.takeWhile_cons_of_pos (by simpa using hnull)]
        have hlen : cs.length + 1 = (cs ++ [readChar c]).length := by
          rw [List.length_append, List.length_singleton]
        rw [update_bufferOf, hlen, ih _ _ (by rw [← hlen]; omega), List.append_assoc,
          List.singleton_append]
    · have hnil : (lfn.drop p).take (n + 1) = [] := by
        rw [List.drop_eq_nil_of_le (not_lt.mp hp), List.take_nil]
      rw [hnil, List.map_nil, List.takeWhile_nil, List.append_nil]
      split_ifs
      · rfl
      · rfl

lemma extractLfn_lfnEntry (cs : List ℕ) (checksum num i : ℕ)
    (hroom : cs.length + (readPiece lfn i).length ≤ 256) :
    extractLfn (lfnEntry lfn checksum num i) (bufferOf cs) cs.length =
      some (bufferOf (cs ++ readPiece lfn i), (cs ++ readPiece lfn i).length) := by
  have hchars : (lfnEntry lfn checksum num i).name1 ++ (lfnEntry lfn checksum num i).name2 ++
      (lfnEntry lfn checksum num i).name3 = (lfnChars lfn (5 + 6 + 2) (i * 13)).1 := by
    rw [lfnChars_add, lfnChars_add]
    rfl
  rw [extractLfn, hchars]
  exact extractChars_lfnChars cs 13 (i * 13) hroom

/-! ## The iterator -/

lemma dirIterNext_long {e : LfnEntry} {name : ℕ → ℕ} {pos : ℕ}
    (h0 : e.order ≠ 0) (hE5 : e.order ≠ 0xE5) (hbit : e.order.testBit 6 = false)
    (hx : extractLfn e st.lfnName st.lfnPos = some (name, pos)) :
    dirIterNext (.long e :: rest) st = dirIterNext rest ⟨name, pos, st.lfnChecksum⟩ := by
  rw [dirIterNext, if_neg (show (DirEntry.long e).first ≠ 0 from h0),
    if_neg (show (DirEntry.long e).first ≠ 0xE5 from hE5)]
  simp [hbit, hx]

lemma dirIterNext_start {e : LfnEntry} {name : ℕ → ℕ} {pos : ℕ}
    (h0 : e.order ≠ 0) (hE5 : e.order ≠ 0xE5) (hbit : e.order.testBit 6 = true)
    (hx : extractLfn e (fun _ => 0) 0 = some (name, pos)) :
    dirIterNext (.long e :: rest) st = dirIterNext rest ⟨name, pos, e.checksum⟩ := by
  rw [dirIterNext, if_neg (show (DirEntry.long e).first ≠ 0 from h0),
    if_neg (show (DirEntry.long e).first ≠ 0xE5 from hE5)]
  simp [hbit, hx]

lemma dirIterNext_short {e : ShortEntry}
    (h0 : e.name.headD 0 ≠ 0) (hE5 : e.name.headD 0 ≠ 0xE5) (hvol : e.attr.testBit 3 = false) :
    dirIterNext (.short e :: rest) st = .found e (entryName e st) rest { st with lfnPos := 0 } := by
  rw [dirIterNext, if_neg (show (DirEntry.short e).first ≠ 0 from h0),
    if_neg (show (DirEntry.short e).first ≠ 0xE5 from hE5)]
  simp [hvol]

lemma lfnEntry_order (lfn : List ℕ) (checksum num i : ℕ) :
    (lfnEntry lfn checksum num i).order = if i + 1 = num then (i + 1) ||| 0x40 else i + 1 := rfl

lemma dirIterNext_lfnEntries (checksum num : ℕ) (is : List ℕ)
    (his : ∀ i ∈ is, i + 1 ≠ num ∧ i < 20) (cs : List ℕ)
    (hroom : cs.length + (is.map (readPiece lfn)).flatten.length ≤ 256) (rest : List DirEntry)
    (sum : ℕ) : dirIterNext (is.map (fun i => .long (lfnEntry lfn checksum num i)) ++ rest)
        ⟨bufferOf cs, cs.length, sum⟩ = dirIterNext rest
        ⟨bufferOf (cs ++ (is.map (readPiece lfn)).flatten),
        (cs ++ (is.map (readPiece lfn)).flatten).length, sum⟩ := by
  induction is generalizing cs with
  | nil => simp
  | cons i is ih =>
    obtain ⟨hlast, hlt⟩ := his i (.head _)
    rw [List.map_cons, List.flatten_cons, List.length_append] at hroom
    have horder : (lfnEntry lfn checksum num i).order = i + 1 := by
      rw [lfnEntry_order, if_neg hlast]
    have hbit : (i + 1).testBit 6 = false := Nat.testBit_lt_two_pow (by omega)
    rw [List.map_cons, List.cons_append, dirIterNext_long (by rw [horder]; omega)
      (by rw [horder]; omega) (by rw [horder]; exact hbit)
      (extractLfn_lfnEntry cs checksum num i (by omega))]
    rw [ih (fun j hj => his j (.tail i hj)) _
      (by rw [List.length_append]; omega), List.map_cons, List.flatten_cons, List.append_assoc]

lemma first_order {n : ℕ} (h : n < 20) : ((n + 1) ||| 0x40) ≠ 0 ∧ ((n + 1) ||| 0x40) ≠ 0xE5 ∧
    ((n + 1) ||| 0x40).testBit 6 = true := by
  have hall : ∀ m < 20, ((m + 1) ||| 0x40) ≠ 0 ∧ ((m + 1) ||| 0x40) ≠ 0xE5 ∧
      ((m + 1) ||| 0x40).testBit 6 = true := by decide
  exact hall n h

lemma generateLfnEntries_name {max : ℕ}
    (h : generateLfnEntries lfn max = some (entries, basisName)) :
    basisName = generateBasisName lfn := by
  unfold generateLfnEntries at h
  split_ifs at h
  exact (Prod.mk.inj (Option.some.inj h)).2.symm

lemma generateLfnEntries_order (h : generateLfnEntries lfn 20 = some (entries, basisName)) :
    ∀ l ∈ entries, l.order ≠ 0 ∧ l.order ≠ 0xE5 := by
  unfold generateLfnEntries at h
  split_ifs at h with hmax
  cases h
  intro l hl
  obtain ⟨i, hi, rfl⟩ := List.mem_map.mp (List.mem_reverse.mp hl)
  have hi20 : i < 20 := by
    have := List.mem_range.mp hi
    omega
  rw [lfnEntry_order]
  split_ifs
  · exact ⟨(first_order hi20).1, (first_order hi20).2.1⟩
  · omega

/-! ## Names -/

lemma flatten_pieces (lfn : List ℕ) (n : ℕ) :
    ((List.range n).map (piece lfn)).flatten = lfn.take (n * 13) := by
  induction n with
  | zero => rw [Nat.zero_mul, List.take_zero]; rfl
  | succ n ih =>
    rw [List.range_succ, List.map_append, List.flatten_append, ih, Nat.succ_mul, List.take_add]
    simp [piece]

lemma length_backwards (lfn : List ℕ) : (backwards lfn).length = lfn.length := by
  have hperm : (backwards lfn).length =
    ((List.range (numLfn lfn)).map (piece lfn)).flatten.length := by
    unfold backwards
    simp
  rw [hperm, flatten_pieces, List.length_take]
  unfold numLfn
  omega

lemma length_readBack_le (lfn : List ℕ) : (readBack lfn).length ≤ lfn.length := by
  have hpiece : ∀ i, (readPiece lfn i).length ≤ (piece lfn i).length := by
    intro i
    have h := (List.takeWhile_prefix (· ≠ 0) (l := (piece lfn i).map readChar)).length_le
    rwa [List.length_map] at h
  rw [← length_backwards lfn, readBack, backwards, List.length_flatten, List.length_flatten,
    List.map_map, List.map_map]
  exact List.sum_le_sum fun i _ => hpiece i

lemma ne_zero_of_mem_readBack (h : c ∈ readBack lfn) : c ≠ 0 := by
  obtain ⟨l, hl, hc⟩ := List.mem_flatten.mp h
  obtain ⟨i, -, rfl⟩ := List.mem_map.mp hl
  simpa using List.mem_takeWhile_imp hc

lemma readBack_of_ascii (hascii : Ascii lfn) : readBack lfn = backwards lfn := by
  have hpiece : readPiece lfn = piece lfn := by
    funext i
    have hchars : ∀ c ∈ piece lfn i, 0 < c ∧ c < 128 := fun c hc =>
      hascii c (List.mem_of_mem_drop (List.mem_of_mem_take hc))
    have hmap : (piece lfn i).map readChar = piece lfn i := by
      conv_rhs => rw [← List.map_id (piece lfn i)]
      exact List.map_congr_left fun c hc => readChar_ascii (hchars c hc)
    rw [readPiece, hmap, List.takeWhile_eq_self_iff]
    intro c hc
    simpa using (hchars c hc).1.ne'
  rw [readBack, backwards, hpiece]

lemma backwards_of_length_le (h : lfn.length ≤ 13) : backwards lfn = lfn := by
  have hnum : numLfn lfn ≤ 1 := by
    unfold numLfn
    omega
  have hone : (List.range (numLfn lfn)).reverse = List.range (numLfn lfn) := by
    rcases Nat.le_one_iff_eq_zero_or_eq_one.mp hnum with hn | hn
    · rw [hn]
      rfl
    · rw [hn]
      rfl
  rw [backwards, hone, flatten_pieces]
  apply List.take_of_length_le
  unfold numLfn
  omega

/-! ## The short name -/

lemma toUpper_ascii (h : 0 < c ∧ c < 128) : 0 < toUpper c ∧ toUpper c < 128 := by
  unfold toUpper
  split_ifs with hc
  · have : 97 ≤ c := hc.1
    omega
  · exact h

lemma mem_splitExt (h : c ∈ (splitExt lfn).1) : c ∈ lfn := by
  unfold splitExt at h
  split_ifs at h
  · exact List.mem_of_mem_take h
  · exact h

lemma head_generateBasisName (lfn : List ℕ) : (generateBasisName lfn).headD 0 = '~'.toNat ∨
      ∃ c ∈ lfn, (generateBasisName lfn).headD 0 = toUpper c := by
  obtain ⟨chars, hchars⟩ : ∃ chars, chars = ((splitExt lfn).1.filter fun c =>
    c ≠ ' '.toNat ∧ c ≠ '.'.toNat).take 6 := ⟨_, rfl⟩
  have hname : generateBasisName lfn =
      field 8 (chars.map toUpper ++ ['~'.toNat, '1'.toNat]) ++ extField (splitExt lfn).2 := by
    rw [hchars]
    rfl
  rw [hname]
  cases hcases : chars with
  | nil => exact .inl rfl
  | cons c cs =>
    have hmem : c ∈ chars := hcases ▸ (.head _)
    rw [hchars] at hmem
    exact .inr ⟨c, mem_splitExt (List.mem_of_mem_filter (List.mem_of_mem_take hmem)), rfl⟩

lemma generateBasisName_head (hascii : Ascii lfn) :
    0 < (generateBasisName lfn).headD 0 ∧ (generateBasisName lfn).headD 0 < 128 := by
  rcases head_generateBasisName lfn with h | ⟨c, hc, h⟩
  · rw [h]
    decide
  · rw [h]
    exact toUpper_ascii (hascii c hc)

lemma dirIterNext_lfns (h0 : lfn ≠ []) (hlen : lfn.length ≤ 255)
    (hgen : generateLfnEntries lfn 20 = some (entries, basisName))
    (rest : List DirEntry) (st : LfnState) : dirIterNext (entries.map .long ++ rest) st =
      dirIterNext rest ⟨bufferOf (readBack lfn), (readBack lfn).length, lfnChecksum basisName⟩ := by
  have hpos := List.length_pos_iff.mpr h0
  obtain ⟨n, hn⟩ : ∃ n, numLfn lfn = n + 1 := ⟨(lfn.length - 1) / 13, by unfold numLfn; omega⟩
  have hn20 : n < 20 := by
    unfold numLfn at hn
    omega
  unfold generateLfnEntries at hgen
  rw [if_neg (by omega)] at hgen
  obtain ⟨hentries, rfl⟩ := Prod.mk.inj (Option.some.inj hgen)
  obtain ⟨sum, hsum⟩ : ∃ sum, sum = lfnChecksum (generateBasisName lfn) := ⟨_, rfl⟩
  -- the entry of the last piece comes first, and then the others in descending order
  have hlist : entries = lfnEntry lfn sum (n + 1) n ::
      (List.range n).reverse.map (lfnEntry lfn sum (n + 1)) := by
    rw [← hentries, hn, ← hsum, List.range_succ, List.map_append, List.reverse_append,
      List.map_reverse]
    rfl
  have horder : (lfnEntry lfn sum (n + 1) n).order = (n + 1) ||| 0x40 := by
    rw [lfnEntry_order, if_pos rfl]
  obtain ⟨hne0, hneE5, hbit⟩ := first_order hn20
  have hback : readBack lfn =
      readPiece lfn n ++ ((List.range n).reverse.map (readPiece lfn)).flatten := by
    rw [readBack, hn, List.range_succ, List.reverse_append, List.reverse_singleton,
      List.singleton_append, List.map_cons, List.flatten_cons]
  have hlenb : (readPiece lfn n).length +
      ((List.range n).reverse.map (readPiece lfn)).flatten.length ≤ 255 := by
    rw [← List.length_append, ← hback]
    exact (length_readBack_le lfn).trans hlen
  have hx : extractLfn (lfnEntry lfn sum (n + 1) n) (bufferOf []) 0 =
      some (bufferOf (readPiece lfn n), (readPiece lfn n).length) :=
    extractLfn_lfnEntry [] sum (n + 1) n (by rw [List.length_nil]; omega)
  have hrest : ∀ i ∈ (List.range n).reverse, i + 1 ≠ n + 1 ∧ i < 20 := by
    intro i hi
    have := List.mem_range.mp (List.mem_reverse.mp hi)
    omega
  calc dirIterNext (entries.map .long ++ rest) st
      = dirIterNext ((List.range n).reverse.map (fun i => .long (lfnEntry lfn sum (n + 1) i)) ++
          rest) ⟨bufferOf (readPiece lfn n), (readPiece lfn n).length, sum⟩ := by
        rw [hlist, List.map_cons, List.cons_append, List.map_map,
          dirIterNext_start (by rw [horder]; exact hne0) (by rw [horder]; exact hneE5)
            (by rw [horder]; exact hbit) hx]
        rfl
    _ = dirIterNext rest ⟨bufferOf (readBack lfn), (readBack lfn).length,
          lfnChecksum (generateBasisName lfn)⟩ := by
        rw [dirIterNext_lfnEntries sum (n + 1) _ hrest _ (by omega), ← hback, ← hsum]

lemma entryName_readBack (hlen : lfn.length ≤ 255) (e : ShortEntry) :
    entryName e ⟨bufferOf (readBack lfn), (readBack lfn).length, lfnChecksum e.name⟩ =
      if readBack lfn = [] then shortToName e.name else readBack lfn := by
  unfold entryName
  by_cases hnil : readBack lfn = []
  · rw [if_pos hnil, hnil, if_neg (by simp)]
  · rw [if_neg hnil, if_pos (List.length_pos_iff.mpr hnil), if_pos rfl]
    exact cString_bufferOf (fun c hc => ne_zero_of_mem_readBack hc)
      ((length_readBack_le lfn).trans hlen)

lemma dirIterNext_entries (hascii : Ascii lfn) (h0 : lfn ≠ []) (hlen : lfn.length ≤ 255)
    (hgen : generateLfnEntries lfn 20 = some (entries, basisName)) {e : ShortEntry}
    (hname : e.name = basisName) (hvol : e.attr.testBit 3 = false) (rest : List DirEntry)
    (st : LfnState) :
    ∃ st', dirIterNext (entries.map .long ++ .short e :: rest) st = .found e
    (backwards lfn) rest st' := by
  have hhead : 0 < e.name.headD 0 ∧ e.name.headD 0 < 128 := by
    rw [hname, generateLfnEntries_name hgen]
    exact generateBasisName_head hascii
  have hne : backwards lfn ≠ [] := by
    rw [← List.length_pos_iff, length_backwards]
    exact List.length_pos_iff.mpr h0
  rw [dirIterNext_lfns h0 hlen hgen, ← hname, dirIterNext_short hhead.1.ne' (by omega) hvol,
    entryName_readBack hlen, readBack_of_ascii hascii, if_neg hne]
  exact ⟨_, rfl⟩

/-- An ASCII name of 1 to 255 characters is read back exactly when its pieces, last one first, are
the name. -/
theorem longName_iff {lfn : List ℕ} (hascii : Ascii lfn) (h0 : 1 ≤ lfn.length)
    (hlen : lfn.length ≤ 255) :
    ∃ entries, generateLfnEntries lfn 20 = some (entries, generateBasisName lfn) ∧
      ∀ (e : ShortEntry) (rest : List DirEntry) (st : LfnState), e.name = generateBasisName lfn →
        e.attr.testBit 3 = false →
        ((∃ st', dirIterNext (entries.map .long ++ .short e :: rest) st = .found e lfn rest st') ↔
          backwards lfn = lfn) := by
  have hmax : ¬20 < numLfn lfn := by
    unfold numLfn
    omega
  obtain ⟨entries, hgen⟩ : ∃ entries, generateLfnEntries lfn 20 =
      some (entries, generateBasisName lfn) := by
    unfold generateLfnEntries
    rw [if_neg hmax]
    exact ⟨_, rfl⟩
  refine ⟨entries, hgen, fun e rest st hname hvol => ?_⟩
  obtain ⟨st', hiter⟩ := dirIterNext_entries hascii (List.length_pos_iff.mp h0) hlen hgen hname hvol
    rest st
  rw [hiter]
  constructor
  · rintro ⟨st'', h⟩
    injection h
  · intro h
    exact ⟨st', by rw [h]⟩

/-- The short entry of an empty file. -/
def archiveEntry (name : List ℕ) : ShortEntry :=
  ⟨name, attrArchive, 0, 0, 0, 0, 0, 0, 0, 0, by decide⟩

/-- A long name of one piece, `notes.txt` in lower case. -/
def shortEnough : List ℕ := "notes.txt".toList.map Char.toNat

/-- A name of one piece is its own `readBack`, so that it is read back. -/
theorem longName_shortEnough : needsLfn shortEnough = true ∧
    ∃ entries, generateLfnEntries shortEnough 20 = some (entries, generateBasisName shortEnough) ∧
      ∃ st',
      dirIterNext (entries.map .long ++ [.short (archiveEntry (generateBasisName shortEnough))])
          ⟨fun _ => 0, 0, 0⟩ = .found (archiveEntry (generateBasisName shortEnough)) shortEnough
          [] st' := by
  obtain ⟨entries, hgen, h⟩ :=
    longName_iff (show Ascii shortEnough by decide) (by decide) (by decide)
  refine ⟨by decide, entries, hgen, (h _ [] _ rfl (by decide)).mpr ?_⟩
  exact backwards_of_length_le (by decide)

/-- The name `longfilename.txt`, of 16 characters. -/
def tooLong : List ℕ := "longfilename.txt".toList.map Char.toNat

/-- It is read back as `txtlongfilename.`. -/
theorem longName_swapped : needsLfn tooLong = true ∧ Ascii tooLong ∧ tooLong.length = 16 ∧
    ∃ entries, generateLfnEntries tooLong 20 = some (entries, generateBasisName tooLong) ∧
      ∃ st', dirIterNext (entries.map .long ++ [.short (archiveEntry (generateBasisName tooLong))])
          ⟨fun _ => 0, 0, 0⟩ = .found (archiveEntry (generateBasisName tooLong))
          ("txtlongfilename.".toList.map Char.toNat) [] st' := by
  have hascii : Ascii tooLong := by decide
  refine ⟨by decide, hascii, by decide, _, rfl, ?_⟩
  obtain ⟨st', h⟩ := dirIterNext_entries hascii (by decide) (by decide) rfl
    (show (archiveEntry (generateBasisName tooLong)).name = _ from rfl) (by decide) []
    ⟨fun _ => 0, 0, 0⟩
  exact ⟨st', h⟩

end FrostByte.Fat32
