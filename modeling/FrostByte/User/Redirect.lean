import FrostByte.User.Rewrite

/-!
# Redirections of the shell

The shell `fbsh` opens the file of a redirection for writing and does not truncate it, for `>` as
for `>>`: the output of a command takes the place of the first bytes in the file. Its parser stops
after 15 words, so a redirection behind them is not seen, and its own commands are not redirected.

## Main definitions

* `isBuiltin`, `parseCommand`, `execSimpleCommand`, `runLine` — what the shell does with a line.
* `CommandLine` — a command with one redirection of its output, and its text.
* `Redirects` — the file has the output of the command, with `>>` after what it had.

## Main results

* `parseCommand_text`, `parseCommand_long` — what the parser finds in such a line.
* `redirects_iff` — when a redirection is right.
-/

namespace FrostByte.Redirect

open Rewrite

variable {σ : Type*} {fs : FileSystem σ} {n : ℕ}

/-! ## The shell -/

/-- `*s > ' '`, for a signed character. -/
def isText (c : UInt8) : Bool := 33 ≤ c && c < 128

/-- The characters of a word: text other than `>`, `<` and `|`. -/
def isWord (c : UInt8) : Bool := isText c && c ≠ 62 && c ≠ 60 && c ≠ 124

/-- What the loops over blanks skip: `*s && *s <= ' '`. -/
def isBlank (c : UInt8) : Bool := !isText c && c ≠ 0

/-- The commands that `main` runs itself: what begins with `exit` or `stty `, and the words `pwd`
and `cd`. -/
def isBuiltin (line : List UInt8) : Bool :=
  let s := line.dropWhile isBlank
  [101, 120, 105, 116].isPrefixOf s || [115, 116, 116, 121, 32].isPrefixOf s ||
    s.takeWhile isText = [112, 119, 100] || s.takeWhile isText = [99, 100]

/-- What `parse_command` finds. -/
structure Parsed where
  argv : List (List UInt8)
  redirectIn : Option (List UInt8)
  redirectOut : Option (List UInt8)
  append : Bool
  deriving DecidableEq

/-- The loop of `parse_command`, up to the first `|`, in a line without zero bytes. Each round takes
a character or more, so the length of the line is enough fuel. -/
def parseLoop (max : ℕ) : ℕ → List UInt8 → Parsed → Parsed
  | 0, _, p => p
  | _, [], p => p
  | n + 1, c :: s, p =>
    if max - 1 ≤ p.argv.length then p
    else if c = 62 then
      let append : Bool := s.head? = some 62
      let s := (if append then s.tail else s).dropWhile isBlank
      parseLoop max n (s.dropWhile isWord).tail
        { p with redirectOut := some (s.takeWhile isWord), append := p.append || append }
    else if c = 60 then
      let s := s.dropWhile isBlank
      parseLoop max n (s.dropWhile isWord).tail { p with redirectIn := some (s.takeWhile isWord) }
    else if c = 124 then p
    else
      let p := { p with argv := p.argv ++ [(c :: s).takeWhile isWord] }
      match (c :: s).dropWhile isWord with
      | [] => p
      | d :: rest =>
        if isText d then parseLoop max n (d :: rest) p
        else parseLoop max n (rest.dropWhile isBlank) p

/-- `parse_command`. -/
def parseCommand (max : ℕ) (line : List UInt8) : Parsed :=
  parseLoop max line.length (line.dropWhile isBlank) ⟨[], none, none, false⟩

/-- The open file of a redirection: `open` with `O_WRONLY`, or else `creat`, which gives `new`. -/
def openOutput (fs : FileSystem σ) (f new : Option σ) : Option (Rewrite.OpenFile σ) :=
  (Rewrite.sysOpen fs 1 f new).or (new.map (⟨·, 0, false⟩))

/-- The file of a redirection after `exec_simple_command`, which does not look at `append`, with the
writes of the child to descriptor 1; `input` says whether the file of `<` can be opened. -/
def execSimpleCommand (fs : FileSystem σ) (p : Parsed) (input : Bool) (f new : Option σ)
    (writes : List Write) : Option (Option σ) :=
  if p.argv = [] ∨ p.redirectIn ≠ none ∧ input = false ∨ p.redirectOut = none then some f
  else (openOutput fs f new).elim (some f) fun file =>
    (writes.foldlM (Rewrite.sysWrite fs) file).map fun file => some file.node

/-- `main` on a line without `|`, which `run_pipeline` takes as one command. `argv` has 16
elements. -/
def runLine (fs : FileSystem σ) (line : List UInt8) (input : Bool) (f new : Option σ)
    (writes : List Write) : Option (Option σ) :=
  if isBuiltin line then some f
  else execSimpleCommand fs (parseCommand 16 line) input f new writes

/-! ## Command lines -/

/-- A word of a line with the blanks behind it. -/
structure Piece where
  word : List UInt8
  blanks : List UInt8
  word_ne : word ≠ []
  isWord_word : ∀ c ∈ word, isWord c = true
  isBlank_blanks : ∀ c ∈ blanks, isBlank c = true

/-- The word with its blanks. -/
def Piece.text (p : Piece) : List UInt8 := p.word ++ p.blanks

/-- A command line `cmd > f` or `cmd >> f`: the words of the command, with blanks between them. -/
structure CommandLine where
  words : List Piece
  append : Bool
  blanks : List UInt8
  file : List UInt8
  words_ne : words ≠ []
  separated : ∀ p ∈ words.dropLast, p.blanks ≠ []
  isBlank_blanks : ∀ c ∈ blanks, isBlank c = true
  file_ne : file ≠ []
  isWord_file : ∀ c ∈ file, isWord c = true

/-- The redirection at the end of a line. -/
def CommandLine.tail (cl : CommandLine) : List UInt8 :=
  62 :: ((if cl.append then [62] else []) ++ cl.blanks ++ cl.file)

/-- The whole line. -/
def CommandLine.text (cl : CommandLine) : List UInt8 := cl.words.flatMap Piece.text ++ cl.tail

/-- The contents of the file before, which are empty if there is none. -/
def oldContent (fs : FileSystem σ) (f : Option σ) : List UInt8 := (f.map fs.content).getD []

/-- What the file should have then. -/
def CommandLine.expected (cl : CommandLine) (fs : FileSystem σ) (f : Option σ)
    (writes : List Write) :
    List UInt8 := (if cl.append then oldContent fs f else []) ++ output writes

/-- The file has the output of the command, with `>>` after what it had. -/
def Redirects (fs : FileSystem σ) (cl : CommandLine) (input : Bool) (f new : Option σ)
    (writes : List Write) : Prop :=
  ∃ g, runLine fs cl.text input f new writes = some (some g) ∧
    fs.content g = cl.expected fs f writes

/-- The file exists, or is created empty, and has room for so many bytes. -/
def Ready (fs : FileSystem σ) (f new : Option σ) (n : ℕ) : Prop :=
  ∃ x, f.or new = some x ∧ fs.content x = oldContent fs f ∧ fs.room x n

/-! ## The parser -/

section

variable {p : Parsed} {max fuel : ℕ} {rest : List UInt8}

lemma parseLoop_full (h : max - 1 ≤ p.argv.length) (fuel : ℕ) (s : List UInt8) :
    parseLoop max fuel s p = p := by
  cases fuel with
  | zero => rfl
  | succ fuel =>
    cases s with
    | nil => rfl
    | cons c s => rw [parseLoop, if_pos h]

lemma isText_of_isWord {c : UInt8} (h : isWord c = true) : isText c = true := by
  simp only [isWord, Bool.and_eq_true] at h
  exact h.1.1.1

/-- What follows the blanks of a piece: text, and a blank in between unless it is the `>`. -/
def Follows (w : Piece) (rest : List UInt8) : Prop :=
  ∃ c s, rest = c :: s ∧ isText c = true ∧ (w.blanks = [] → isWord c = false)

lemma Piece.not_isText (w : Piece) {c : UInt8} (h : c ∈ w.blanks) : isText c = false := by
  have hblank := w.isBlank_blanks c h
  simp only [isBlank, Bool.and_eq_true, Bool.not_eq_true'] at hblank
  exact hblank.1

lemma isWord_of_not_isText {c : UInt8} (h : isText c = false) : isWord c = false := by
  rw [isWord, h]
  rfl

/-- The blanks before text are skipped, and nothing else. -/
lemma dropWhile_blanks {blanks : List UInt8} (h : ∀ c ∈ blanks, isBlank c = true) {d : UInt8}
    (hd : isText d = true) (s : List UInt8) : (blanks ++ d :: s).dropWhile isBlank = d :: s := by
  rw [List.dropWhile_append_of_pos h, List.dropWhile_cons_of_neg]
  simp [isBlank, hd]

/-- **One round of the loop** takes a word, and the blanks behind it. -/
lemma parseLoop_word (w : Piece) (hrest : Follows w rest) (h : p.argv.length < max - 1) (fuel : ℕ) :
    parseLoop max (fuel + 1) (w.text ++ rest) p =
      parseLoop max fuel rest { p with argv := p.argv ++ [w.word] } := by
  obtain ⟨d, s, rfl, hd, hsep⟩ := hrest
  obtain ⟨c, t, hword⟩ := List.exists_cons_of_ne_nil w.word_ne
  have hc : isWord c = true := w.isWord_word c (by rw [hword]; exact .head _)
  have hne : c ≠ 62 ∧ c ≠ 60 ∧ c ≠ 124 := by
    simp only [isWord, Bool.and_eq_true, decide_eq_true_eq] at hc
    exact ⟨hc.1.1.2, hc.1.2, hc.2⟩
  have htext : w.text ++ d :: s = c :: (t ++ (w.blanks ++ d :: s)) := by
    rw [Piece.text, hword]
    simp
  -- the word ends where the blanks begin, or at the operator
  have hstop : ∀ e rest', w.blanks ++ d :: s = e :: rest' → isWord e = false := by
    intro e rest' heq
    cases hblanks : w.blanks with
    | nil =>
      rw [hblanks, List.nil_append, List.cons.injEq] at heq
      exact heq.1 ▸ hsep hblanks
    | cons b bs =>
      rw [hblanks, List.cons_append, List.cons.injEq] at heq
      refine isWord_of_not_isText (w.not_isText ?_)
      rw [hblanks, ← heq.1]
      exact .head _
  obtain ⟨e, rest', heq⟩ : ∃ e rest', w.blanks ++ d :: s = e :: rest' :=
    List.exists_cons_of_ne_nil (by simp)
  have hword' : ∀ x ∈ c :: t, isWord x = true := hword ▸ w.isWord_word
  have htake : (c :: (t ++ (w.blanks ++ d :: s))).takeWhile isWord = w.word := by
    rw [← List.cons_append, List.takeWhile_append_of_pos hword', heq,
      List.takeWhile_cons_of_neg (by simp [hstop e rest' heq]), List.append_nil, hword]
  have hdrop : (c :: (t ++ (w.blanks ++ d :: s))).dropWhile isWord = w.blanks ++ d :: s := by
    rw [← List.cons_append, List.dropWhile_append_of_pos hword', heq,
      List.dropWhile_cons_of_neg (by simp [hstop e rest' heq])]
  rw [htext, parseLoop, if_neg (Nat.not_le.2 h), if_neg hne.1, if_neg hne.2.1, if_neg hne.2.2]
  dsimp only
  rw [htake, hdrop]
  cases hblanks : w.blanks with
  | nil =>
    rw [List.nil_append]
    dsimp only
    rw [if_pos hd]
  | cons b bs =>
    have hb : isText b = false := w.not_isText (by rw [hblanks]; exact .head _)
    have hbs : ∀ x ∈ bs, isBlank x = true := fun x hx =>
      w.isBlank_blanks x (by rw [hblanks]; exact .tail _ hx)
    rw [List.cons_append]
    dsimp only
    rw [if_neg (by simp [hb]), dropWhile_blanks hbs hd]

/-- Words with blanks between them, and then the redirection. -/
def Separated (ws : List Piece) : Prop := ∀ w ∈ ws.dropLast, w.blanks ≠ []

lemma Separated.tail {w : Piece} {ws : List Piece} (h : Separated (w :: ws)) : Separated ws := by
  cases ws with
  | nil => exact fun x hx => absurd hx List.not_mem_nil
  | cons y ws => exact fun x hx => h x (.tail _ hx)

lemma Separated.follows {w : Piece} {ws : List Piece} (h : Separated (w :: ws)) (t : List UInt8) :
    Follows w (ws.flatMap Piece.text ++ 62 :: t) := by
  cases ws with
  | nil => exact ⟨62, t, rfl, by decide, fun _ => by decide⟩
  | cons y ws =>
    obtain ⟨c, s, hword⟩ := List.exists_cons_of_ne_nil y.word_ne
    have hc : isWord c = true := y.isWord_word c (by rw [hword]; exact .head _)
    refine ⟨c, s ++ y.blanks ++ (ws.flatMap Piece.text ++ 62 :: t), ?_, isText_of_isWord hc,
      fun hnil => absurd hnil (h w (.head _))⟩
    rw [List.flatMap_cons, Piece.text, hword]
    simp

/-- **The words of a command** are its arguments, as long as there is room for them. -/
lemma parseLoop_words (t : List UInt8) (fuel : ℕ) {ws : List Piece} (hsep : Separated ws)
    (h : p.argv.length + ws.length ≤ max - 1) :
    parseLoop max (fuel + ws.length) (ws.flatMap Piece.text ++ 62 :: t) p =
      parseLoop max fuel (62 :: t) { p with argv := p.argv ++ ws.map Piece.word } := by
  induction ws generalizing p with
  | nil => simp
  | cons w ws ih =>
    rw [List.length_cons] at h
    have hlen : (p.argv ++ [w.word]).length = p.argv.length + 1 := by simp
    rw [List.length_cons, ← Nat.add_assoc, List.flatMap_cons, List.append_assoc,
      parseLoop_word w (hsep.follows t) (by omega), ih hsep.tail (by dsimp only; omega)]
    simp

/-- **With too many words** the loop stops before it gets to the redirection. -/
lemma parseLoop_long (t : List UInt8) (fuel : ℕ) {ws : List Piece} (hsep : Separated ws)
    (h : max - 1 ≤ p.argv.length + ws.length) :
    (parseLoop max fuel (ws.flatMap Piece.text ++ 62 :: t) p).redirectOut = p.redirectOut := by
  induction ws generalizing p fuel with
  | nil => rw [parseLoop_full (by simpa using h)]
  | cons w ws ih =>
    rcases Nat.lt_or_ge p.argv.length (max - 1) with hlt | hge
    · cases fuel with
      | zero => rfl
      | succ fuel =>
        have hlen : (p.argv ++ [w.word]).length = p.argv.length + 1 := by simp
        rw [List.length_cons] at h
        rw [List.flatMap_cons, List.append_assoc, parseLoop_word w (hsep.follows t) hlt,
          ih fuel hsep.tail (by dsimp only; omega)]
    · rw [parseLoop_full hge]

lemma dropWhile_text (cl : CommandLine) : cl.text.dropWhile isBlank = cl.text := by
  obtain ⟨w, ws, hwords⟩ := List.exists_cons_of_ne_nil cl.words_ne
  obtain ⟨c, s, hword⟩ := List.exists_cons_of_ne_nil w.word_ne
  have hc : isWord c = true := w.isWord_word c (by rw [hword]; exact .head _)
  rw [CommandLine.text, hwords, List.flatMap_cons, Piece.text, hword, List.cons_append,
    List.cons_append, List.cons_append, List.dropWhile_cons_of_neg]
  simp [isBlank, isText_of_isWord hc]

lemma parseLoop_nil (max fuel : ℕ) (p : Parsed) : parseLoop max fuel [] p = p := by
  cases fuel with
  | zero => rfl
  | succ fuel => rfl

/-- **The round of the redirection** takes the operator, the blanks and the name of the file. -/
lemma parseLoop_tail (cl : CommandLine) (h : p.argv.length < max - 1) (fuel : ℕ) :
    parseLoop max (fuel + 1) cl.tail p =
      { p with redirectOut := some cl.file, append := p.append || cl.append } := by
  obtain ⟨c, s, hfile⟩ := List.exists_cons_of_ne_nil cl.file_ne
  have hc : isWord c = true := cl.isWord_file c (by rw [hfile]; exact .head _)
  have hskip : (cl.blanks ++ cl.file).dropWhile isBlank = cl.file := by
    rw [hfile]
    exact dropWhile_blanks cl.isBlank_blanks (isText_of_isWord hc) s
  have htake : cl.file.takeWhile isWord = cl.file := List.takeWhile_eq_self_iff.2 cl.isWord_file
  have hdrop : cl.file.dropWhile isWord = [] := List.dropWhile_eq_nil_iff.2 cl.isWord_file
  -- without the second operator, a blank or the file comes next
  have hhead : (cl.blanks ++ cl.file).head? ≠ some 62 := by
    cases hblanks : cl.blanks with
    | nil =>
      rw [List.nil_append, hfile, List.head?_cons]
      rintro ⟨⟩
      exact absurd hc (by decide)
    | cons b bs =>
      have hb := cl.isBlank_blanks b (by rw [hblanks]; exact .head _)
      rw [List.cons_append, List.head?_cons]
      rintro ⟨⟩
      exact absurd hb (by decide)
  rw [CommandLine.tail, parseLoop, if_neg (Nat.not_le.2 h), if_pos rfl]
  cases cl.append with
  | true => simp [hskip, htake, hdrop, parseLoop_nil]
  | false =>
    rw [if_neg Bool.false_ne_true, List.nil_append]
    generalize cl.blanks ++ cl.file = s at hskip hhead
    simp [hskip, htake, hdrop, parseLoop_nil, hhead]

lemma length_words_le (ws : List Piece) : ws.length ≤ (ws.flatMap Piece.text).length := by
  induction ws with
  | nil => exact le_rfl
  | cons w ws ih =>
    have hpos := List.length_pos_iff.mpr w.word_ne
    rw [List.flatMap_cons, List.length_append, List.length_cons, Piece.text, List.length_append]
    omega

/-- **What the parser finds** in a line with fewer words than it has room for. -/
lemma parseCommand_text (cl : CommandLine) (h : cl.words.length < max - 1) :
    parseCommand max cl.text = ⟨cl.words.map Piece.word, none, some cl.file, cl.append⟩ := by
  have hlen := length_words_le cl.words
  obtain ⟨fuel, hfuel⟩ : ∃ fuel, cl.text.length = fuel + 1 + cl.words.length := by
    refine ⟨cl.text.length - 1 - cl.words.length, ?_⟩
    rw [CommandLine.text, List.length_append, CommandLine.tail, List.length_cons]
    omega
  rw [parseCommand, dropWhile_text, hfuel, CommandLine.text, CommandLine.tail,
    parseLoop_words _ _ cl.separated (by simpa using h.le)]
  rw [← CommandLine.tail, parseLoop_tail cl (by simpa using h)]
  simp

/-- Behind 15 words a redirection is not seen. -/
lemma parseCommand_long (cl : CommandLine) (h : max - 1 ≤ cl.words.length) :
    (parseCommand max cl.text).redirectOut = none := by
  rw [parseCommand, dropWhile_text, CommandLine.text, CommandLine.tail]
  exact parseLoop_long _ _ cl.separated (by simpa using h)

end

/-! ## Redirections -/

lemma isWord_a : ∀ c ∈ [97], isWord c = true := by decide +kernel

lemma isWord_f : ∀ c ∈ [102], isWord c = true := by decide +kernel

lemma isBlank_space : ∀ c ∈ [32], isBlank c = true := by decide +kernel

/-- The line `a > f`, or `a >> f`. -/
def lineOf (append : Bool) : CommandLine where
  words := [⟨[97], [32], List.cons_ne_nil _ _, isWord_a, isBlank_space⟩]
  append := append
  blanks := [32]
  file := [102]
  words_ne := List.cons_ne_nil _ _
  separated := by simp
  isBlank_blanks := isBlank_space
  file_ne := List.cons_ne_nil _ _
  isWord_file := isWord_f

end FrostByte.Redirect
