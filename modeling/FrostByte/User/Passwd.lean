import FrostByte.Lib.Word
import Mathlib.Data.Int.Order.Basic
import Mathlib.Data.List.TakeWhile

/-!
# The file of user records

`putpwent` formats a record as a line of seven fields with colons between them. `getpwent` splits a
line after each field that ends at a colon or a newline, so the shell of a record is lost.

## Main definitions

* `putpwent`, `getpwent` — a record to a line, and a line to a record.
* `RoundTrips` — records that are written are read back.

## Main results

* `atoi_itoaDec` — numbers are read back.
* `roundTrips_iff` — when records are.
* `shell_lost` — one that is not.
-/

namespace FrostByte.PasswdFile

open Word

/-! ## The functions of the source -/

/-- The characters of a string before the terminator. -/
abbrev Text := List Char

/-- `struct passwd`. -/
structure Passwd where
  name : Text
  passwd : Text
  uid : ℤ
  gid : ℤ
  gecos : Text
  dir : Text
  shell : Text
  deriving DecidableEq

/-- `itoa_dec`, with the digits of `utoa_dec`. -/
def itoaDec (v : ℤ) : Text :=
  if v < 0 then '-' :: Nat.toDigits 10 v.natAbs else Nat.toDigits 10 v.natAbs

/-- `atoi`, which is `strtol` for base 10. -/
def atoi (str : Text) : ℤ :=
  let s := str.dropWhile (· ∈ [' ', '\t', '\n', '\r'])
  let negative := s.head? = some '-'
  let s := if negative ∨ s.head? = some '+' then s.tail else s
  let result := (s.takeWhile Char.isDigit).foldl (fun r c => w32 (10 * r + (c.toNat - '0'.toNat))) 0
  int32 (if negative then w32 (0x100000000 - result) else result)

/-- The line of a record. -/
def line (pw : Passwd) : Text :=
  pw.name ++ ':' :: (pw.passwd ++ ':' :: (itoaDec pw.uid ++ ':' :: (itoaDec pw.gid ++ ':' ::
    (pw.gecos ++ ':' :: (pw.dir ++ ':' :: pw.shell)))))

/-- What `putpwent` writes: `snprintf` stops at the end of its buffer. -/
def putpwent (pw : Passwd) : Text := (line pw ++ ['\n']).take 511

/-- The loop of `parse_passwd_line`: a field ends at its separator. -/
def fields (start : Text) : Text → List Text
  | [] => []
  | c :: p =>
    if c = '\x00' then []
    else if c = ':' ∨ c = '\n' then start :: fields [] p
    else fields (start ++ [c]) p

/-- The shell of a line with six fields. -/
def binSh : Text := ['/', 'b', 'i', 'n', '/', 's', 'h']

/-- `parse_passwd_line`: six fields are enough, and the shell has a default. -/
def parsePasswdLine (line : Text) : Option Passwd :=
  match (fields [] line).take 7 with
  | name :: passwd :: uid :: gid :: gecos :: dir :: shell =>
    some ⟨name, passwd, atoi uid, atoi gid, gecos, dir, shell.headD binSh⟩
  | _ => none

/-- The loop of `getpwent`: the record, and what is left of the file. -/
def getpwent (lineBuf : Text) : Text → Option (Passwd × Text)
  | [] => none
  | ch :: file =>
    if 511 ≤ lineBuf.length then none
    else if ch = '\n' then
      match if lineBuf = [] then none else parsePasswdLine lineBuf with
      | some pw => some (pw, file)
      | none => getpwent [] file
    else getpwent (lineBuf ++ [ch]) file

/-- Calls to `getpwent` until it fails return these records. -/
inductive Reads : Text → List Passwd → Prop
  | done {file : Text} : getpwent [] file = none → Reads file []
  | next {file rest : Text} {pw : Passwd} {pws : List Passwd} :
    getpwent [] file = some (pw, rest) → Reads rest pws → Reads file (pw :: pws)

/-! ## What is expected of them -/

/-- The characters of a text field. -/
abbrev Plain (t : Text) : Prop := ∀ c ∈ t, c ≠ ':' ∧ c ≠ '\n' ∧ c ≠ '\x00'

/-- The records of the file. -/
structure Storable (pw : Passwd) : Prop where
  texts : ∀ t ∈ [pw.name, pw.passwd, pw.gecos, pw.dir, pw.shell], Plain t
  ids : ∀ v ∈ [pw.uid, pw.gid], -0x80000000 ≤ v ∧ v < 0x80000000
  short : (line pw ++ ['\n']).length < 511

/-- The file of these records is read back as them. -/
def RoundTrips (pws : List Passwd) : Prop := Reads (pws.flatMap putpwent) pws

/-! ## Numbers -/

lemma foldl_digits (l : Text) (r : ℕ) :
    l.foldl (fun r c => w32 (10 * r + (c.toNat - '0'.toNat))) (w32 r) = w32
    (Nat.ofDigitChars 10 l r) := by
  induction l generalizing r with
  | nil => rfl
  | cons c l ih =>
    rw [List.foldl_cons, Nat.ofDigitChars_cons, ← ih]
    congr 1
    unfold w32
    omega

lemma foldl_toDigits (n : ℕ) : ((Nat.toDigits 10 n).takeWhile Char.isDigit).foldl
      (fun r c => w32 (10 * r + (c.toNat - '0'.toNat))) 0 = w32 n := by
  rw [List.takeWhile_eq_self_iff.mpr fun c hc => Nat.isDigit_of_mem_toDigits (by decide) le_rfl hc]
  refine (foldl_digits _ 0).trans ?_
  simp

/-- A number that was formatted is read back, by its digits. -/
lemma atoi_itoaDec {v : ℤ} (hlo : -0x80000000 ≤ v) (hhi : v < 0x80000000) :
    atoi (itoaDec v) = v := by
  unfold itoaDec
  split_ifs with hneg
  · have hspace : ('-' :: Nat.toDigits 10 v.natAbs).dropWhile (· ∈ [' ', '\t', '\n', '\r']) =
        '-' :: Nat.toDigits 10 v.natAbs := List.dropWhile_cons_of_neg (by decide)
    unfold atoi
    rw [hspace]
    simp only [List.head?_cons, List.tail_cons, true_or, if_true, foldl_toDigits]
    rw [int32, BitVec.toInt_eq_toNat_cond, BitVec.toNat_ofNat]
    unfold w32
    split_ifs <;> omega
  · obtain ⟨c, cs, hcs⟩ :=
      List.exists_cons_of_ne_nil (Nat.toDigits_ne_nil (n := v.natAbs) (b := 10))
    have hdigit : c.isDigit = true :=
      Nat.isDigit_of_mem_toDigits (by decide) le_rfl (hcs ▸ List.mem_cons_self)
    have hne : ∀ d : Char, d.isDigit = false → c ≠ d := by
      rintro d hd rfl
      rw [hdigit] at hd
      cases hd
    have hspace : (Nat.toDigits 10 v.natAbs).dropWhile (· ∈ [' ', '\t', '\n', '\r']) =
        Nat.toDigits 10 v.natAbs := by
      rw [hcs]
      refine List.dropWhile_cons_of_neg ?_
      simp [hne ' ' rfl, hne '\t' rfl, hne '\n' rfl, hne '\r' rfl]
    have hsign : ∀ d : Char, d.isDigit = false → (Nat.toDigits 10 v.natAbs).head? ≠ some d := by
      intro d hd
      rw [hcs, List.head?_cons]
      exact fun h => hne d hd (Option.some.inj h)
    unfold atoi
    rw [hspace]
    simp only [hsign '-' rfl, hsign '+' rfl, or_self, if_false, foldl_toDigits]
    rw [w32_of_lt (by omega), int32_of_lt (by omega)]
    omega

lemma plain_itoaDec (v : ℤ) : Plain (itoaDec v) := by
  have hdigits : Plain (Nat.toDigits 10 v.natAbs) := by
    intro c hc
    have hdigit := Nat.isDigit_of_mem_toDigits (by decide) le_rfl hc
    refine ⟨?_, ?_, ?_⟩ <;> (rintro rfl; cases hdigit)
  unfold itoaDec
  split_ifs
  · intro c hc
    rcases List.mem_cons.mp hc with rfl | hc
    · decide
    · exact hdigits c hc
  · exact hdigits

/-! ## Lines -/

variable {t : Text}

lemma fields_append (start : Text) (ht : Plain t) (rest : Text) :
    fields start (t ++ ':' :: rest) = (start ++ t) :: fields [] rest := by
  induction t generalizing start with
  | nil => simp [fields]
  | cons c t ih =>
    obtain ⟨hcolon, hnewline, hnul⟩ := ht c List.mem_cons_self
    have hrest := ih (start ++ [c]) fun d hd => ht d (List.mem_cons_of_mem _ hd)
    simp [fields, if_neg hnul, if_neg (not_or.mpr ⟨hcolon, hnewline⟩), hrest]

lemma fields_plain (start : Text) (ht : Plain t) : fields start t = [] := by
  induction t generalizing start with
  | nil => rfl
  | cons c t ih =>
    obtain ⟨hcolon, hnewline, hnul⟩ := ht c List.mem_cons_self
    rw [fields, if_neg hnul, if_neg (not_or.mpr ⟨hcolon, hnewline⟩)]
    exact ih _ fun d hd => ht d (List.mem_cons_of_mem _ hd)

/-- **The shell is lost**, and everything else is read back. -/
lemma parsePasswdLine_line {pw : Passwd} (h : Storable pw) :
    parsePasswdLine (line pw) = some { pw with shell := binSh } := by
  have hname := h.texts pw.name (by simp)
  have hpasswd := h.texts pw.passwd (by simp)
  have hgecos := h.texts pw.gecos (by simp)
  have hdir := h.texts pw.dir (by simp)
  have hshell := h.texts pw.shell (by simp)
  obtain ⟨hulo, huhi⟩ := h.ids pw.uid (by simp)
  obtain ⟨hglo, hghi⟩ := h.ids pw.gid (by simp)
  have hfields : fields [] (line pw) =
      [pw.name, pw.passwd, itoaDec pw.uid, itoaDec pw.gid, pw.gecos, pw.dir] := by
    unfold line
    rw [fields_append _ hname, fields_append _ hpasswd, fields_append _ (plain_itoaDec _),
      fields_append _ (plain_itoaDec _), fields_append _ hgecos, fields_append _ hdir,
      fields_plain _ hshell]
    rfl
  rw [parsePasswdLine, hfields]
  show some (Passwd.mk _ _ (atoi (itoaDec pw.uid)) (atoi (itoaDec pw.gid)) _ _ _) = _
  rw [atoi_itoaDec hulo huhi, atoi_itoaDec hglo hghi]
  rfl

lemma getpwent_append (buf : Text) (ht : '\n' ∉ t) (hlen : buf.length + t.length ≤ 511)
    (rest : Text) : getpwent buf (t ++ '\n' :: rest) = getpwent (buf ++ t) ('\n' :: rest) := by
  induction t generalizing buf with
  | nil => rw [List.append_nil, List.nil_append]
  | cons c t ih =>
    obtain ⟨hc, ht⟩ := not_or.mp (mt List.mem_cons.mpr ht)
    rw [List.length_cons] at hlen
    have hrest := ih (buf ++ [c]) ht (by rw [List.length_append, List.length_singleton]; omega)
    rw [List.cons_append, getpwent, if_neg (by omega), if_neg (Ne.symm hc), hrest,
      List.append_assoc,
      List.singleton_append]

lemma newline_notMem_line {pw : Passwd} (h : Storable pw) : '\n' ∉ line pw := by
  have hplain : ∀ {t : Text}, Plain t → '\n' ∉ t := fun ht hc => (ht _ hc).2.1 rfl
  simp only [line, List.mem_append, List.mem_cons, not_or]
  refine ⟨hplain (h.texts _ (by simp)), by decide, hplain (h.texts _ (by simp)), by decide,
    hplain (plain_itoaDec _), by decide, hplain (plain_itoaDec _), by decide,
    hplain (h.texts _ (by simp)), by decide, hplain (h.texts _ (by simp)), by decide,
    hplain (h.texts _ (by simp))⟩

/-- **A record is read back**, but for its shell. -/
lemma getpwent_putpwent {pw : Passwd} (h : Storable pw) (rest : Text) :
    getpwent [] (putpwent pw ++ rest) = some ({ pw with shell := binSh }, rest) := by
  have hshort := h.short
  have hne : line pw ≠ [] := by simp [line]
  have hput : putpwent pw ++ rest = line pw ++ '\n' :: rest := by
    rw [putpwent, List.take_of_length_le hshort.le, List.append_assoc, List.singleton_append]
  rw [List.length_append, List.length_singleton] at hshort
  have hlen : ¬ 511 ≤ (line pw).length := by omega
  rw [hput, getpwent_append [] (newline_notMem_line h) (by rw [List.length_nil]; omega),
    List.nil_append,
    getpwent, if_neg hlen, if_pos rfl, if_neg hne, parsePasswdLine_line h]

/-! ## The file -/

/-- **When records are read back**: if every shell is `/bin/sh`. -/
theorem roundTrips_iff (pws : List Passwd) (h : ∀ pw ∈ pws, Storable pw) :
    RoundTrips pws ↔ ∀ pw ∈ pws, pw.shell = binSh := by
  unfold RoundTrips
  induction pws with
  | nil => exact ⟨fun _ => nofun, fun _ => .done rfl⟩
  | cons pw pws ih =>
    have hread := getpwent_putpwent (h pw List.mem_cons_self) (pws.flatMap putpwent)
    have hrest := ih fun x hx => h x (List.mem_cons_of_mem _ hx)
    rw [List.flatMap_cons, List.forall_mem_cons, ← hrest]
    constructor
    · rintro (_ | ⟨hnext, hreads⟩)
      obtain ⟨hpw, rfl⟩ := Prod.mk.inj (Option.some.inj (hread.symm.trans hnext))
      exact ⟨(congrArg Passwd.shell hpw).symm, hreads⟩
    · rintro ⟨hshell, hreads⟩
      refine .next (hread.trans ?_) hreads
      rw [← hshell]

/-- A record with a given shell. -/
def user (shell : Text) : Passwd := ⟨['a'], [], -1, 1, [], ['/'], shell⟩

lemma storable_user (shell : Text) (hs : Plain shell) (hlen : shell.length < 400) :
    Storable (user shell) := by
  refine ⟨?_, show ∀ v ∈ [(-1 : ℤ), 1], -0x80000000 ≤ v ∧ v < 0x80000000 by decide, ?_⟩
  · simp only [user, List.forall_mem_cons]
    exact ⟨by simp, nofun, nofun, by simp, hs, nofun⟩
  · have hone : itoaDec (-1) = ['-', '1'] := by decide
    have hone' : itoaDec 1 = ['1'] := by decide
    simp only [user, line, hone, hone', List.length_append, List.length_cons, List.length_nil]
    omega

/-- The shell is the default. -/
theorem roundTrips_sh : RoundTrips [user binSh] := by
  refine (roundTrips_iff _ fun pw hpw => ?_).mpr fun pw hpw => ?_
  · rw [List.mem_singleton.mp hpw]
    exact storable_user _ (by simp [Plain, binSh]) (by decide)
  · rw [List.mem_singleton.mp hpw]
    rfl

/-- **The shell `/sh` is read back as `/bin/sh`.** -/
theorem shell_lost : Storable (user ['/', 's', 'h']) ∧
    getpwent [] (putpwent (user ['/', 's', 'h'])) = some (user binSh, []) ∧
    ¬ RoundTrips [user ['/', 's', 'h']] := by
  have hstorable : Storable (user ['/', 's', 'h']) := storable_user _ (by simp [Plain]) (by decide)
  have hread := getpwent_putpwent hstorable []
  rw [List.append_nil] at hread
  refine ⟨hstorable, hread, ?_⟩
  unfold RoundTrips
  rw [List.flatMap_cons, List.flatMap_nil, List.append_nil]
  rintro (_ | ⟨hnext, -⟩)
  obtain ⟨hpw, -⟩ := Prod.mk.inj (Option.some.inj (hread.symm.trans hnext))
  cases hpw

end FrostByte.PasswdFile
