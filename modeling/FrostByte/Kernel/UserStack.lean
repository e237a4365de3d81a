import FrostByte.Lib.Buffer
import FrostByte.Lib.Word
import Mathlib.Data.List.Basic

/-!
# The first stack page of a program

`build_user_stack` of `src/kernel/elf.c`. Strings are pushed from the top of the page downwards, and
below them go the two vectors of pointers and `argc`. The space is checked once before, with a sum
of 32-bit words that counts 16 bytes for the alignment.

## Main definitions

* `buildUserStack` — `build_user_stack`.
* `SysVStack` — the page as a program expects it.
* `StackRight` — it is built when there is space, and refused otherwise.

## Main results

* `stackRight_iff` — when this holds.
* `accepts_wrapped` — arguments of 4 GiB that are accepted.
-/

namespace FrostByte.UserStack

open Word

/-! ## The function of the source -/

/-- A string in memory: the bytes before the terminator. -/
structure CStr where
  bytes : List UInt8
  noNul : 0 ∉ bytes
  fits : bytes.length + 1 < 0x100000000

/-- The bytes of the string with its end. -/
def CStr.stored (s : CStr) : List UInt8 := s.bytes ++ [0]

/-- Their number. -/
def CStr.size (s : CStr) : ℕ := s.bytes.length + 1

/-- `kpage`: the bytes, and the ranges written, as offset and length. -/
structure Page where
  bytes : Buffer
  writes : List (ℕ × ℕ)

/-- The page after `memset`. -/
def Page.cleared : Page := ⟨fun _ => 0, [(0, 4096)]⟩

/-- `memcpy` of a string with its terminator to an offset. -/
def Page.putString (pg : Page) (off : ℕ) (s : CStr) : Page where
  bytes := pg.bytes.copy off (fun i => s.stored.getD i 0) 0 s.size
  writes := (off, s.size) :: pg.writes

/-- A word is stored on the page. -/
def Page.putWord (pg : Page) (off w : ℕ) : Page where
  bytes := pg.bytes.setWord off w
  writes := (off, 4) :: pg.writes

/-- The loops that copy the strings, the last one first: their addresses and the stack pointer. -/
def pushStrings (va : ℕ) : List CStr → ℕ → Page → List ℕ × ℕ × Page
  | [], sp, pg => ([], sp, pg)
  | s :: rest, sp, pg =>
    let (addrs, sp, pg) := pushStrings va rest sp pg
    let sp := sub32 sp s.size
    (sp :: addrs, sp, pg.putString (sub32 sp va) s)

/-- The loops that fill a vector, and the null after it. -/
def fillVector : List ℕ → ℕ → Page → Page
  | [], off, pg => pg.putWord off 0
  | a :: rest, off, pg => fillVector rest (off + 4) (pg.putWord off a)

/-- The sum of the sizes, in 32 bits. -/
def stringsSize (strs : List CStr) (acc : ℕ) : ℕ :=
  strs.foldl (fun acc s => w32 (acc + s.size)) acc

/-- `argv_vec_bytes` and `envp_vec_bytes`. -/
def vecBytes (strs : List CStr) : ℕ := w32 (4 * (strs.length + 1))

/-- The stack pointer, or an error, and the page. -/
structure Outcome where
  result : Option ℕ
  page : Page

/-- `build_user_stack`; `mapped` says whether the frame can be mapped. -/
def buildUserStack (mapped : Bool) (ustackTop : ℕ) (argv envp : List CStr) : Outcome :=
  let ustackVa := sub32 ustackTop 0x1000
  let size := stringsSize envp (stringsSize argv 0)
  if w32 (size + vecBytes argv + vecBytes envp + 4 + 16) > 4096 then ⟨none, Page.cleared⟩
  else
    let (envpUser, sp, pg) := pushStrings ustackVa envp ustackTop Page.cleared
    let (argvUser, sp, pg) := pushStrings ustackVa argv sp pg
    let sp := alignDown 16 sp
    let vecBase := sub32 sp (w32 (vecBytes argv + vecBytes envp))
    let envpVecVa := w32 (vecBase + vecBytes argv)
    let esp0 := sub32 vecBase 4
    let pg := fillVector argvUser (sub32 vecBase ustackVa) pg
    let pg := fillVector envpUser (sub32 envpVecVa ustackVa) pg
    let pg := pg.putWord (sub32 esp0 ustackVa) argv.length
    ⟨if mapped then some esp0 else none, pg⟩

/-! ## What is expected of it -/

/-- The word at an address, in the page at `va`. -/
def userWord (page : Buffer) (va a : ℕ) : ℕ := page.word (sub32 (w32 a) va)

/-- At `a` there is a terminated copy of the string, inside the page. -/
structure PointsTo (page : Buffer) (va a : ℕ) (s : CStr) : Prop where
  inside : sub32 a va + s.size ≤ 4096
  bytes : ∀ i < s.size, page (sub32 a va + i) = s.stored.getD i 0

/-- The words from `a` on point to the strings, and then comes a null. -/
structure PointerVector (page : Buffer) (va a : ℕ) (strs : List CStr) : Prop where
  entries : ∀ i, (h : i < strs.length) → PointsTo page va (userWord page va (a + 4 * i)) strs[i]
  null : userWord page va (a + 4 * strs.length) = 0

/-- The layout of the System V ABI at the stack pointer `esp`. -/
structure SysVStack (page : Buffer) (va esp : ℕ) (argv envp : List CStr) : Prop where
  inside : sub32 esp va + 4 * (argv.length + envp.length + 3) ≤ 4096
  argc : userWord page va esp = argv.length
  args : PointerVector page va (esp + 4) argv
  envs : PointerVector page va (esp + 4 + 4 * (argv.length + 1)) envp

/-- The sum of the sizes, exactly. -/
def size (strs : List CStr) : ℕ := (strs.map CStr.size).sum

/-- What the space check should compare with 4096. -/
def needed (argv envp : List CStr) : ℕ :=
  size argv + size envp + 4 * (argv.length + 1) + 4 * (envp.length + 1) + 4 + 16

/-- The strings, the vectors and `argc` have room in a page. -/
def Fits (argv envp : List CStr) : Prop := needed argv envp - 16 ≤ 4096

/-- Every byte goes into the page, which has the layout of the ABI; without room there is an
error. -/
structure StackRight (ustackTop : ℕ) (argv envp : List CStr) (o : Outcome) : Prop where
  inside : ∀ w ∈ o.page.writes, w.1 + w.2 ≤ 4096
  layout : ∀ esp, o.result = some esp →
    SysVStack o.page.bytes (sub32 ustackTop 0x1000) esp argv envp
  error : ¬ Fits argv envp → o.result = none

/-! ## Sums and offsets -/

lemma stringsSize_eq (strs : List CStr) (acc : ℕ) :
    w32 (stringsSize strs acc) = w32 (acc + size strs) := by
  induction strs generalizing acc with
  | nil => simp [stringsSize, size]
  | cons s rest ih =>
    have hrest := ih (w32 (acc + s.size))
    unfold stringsSize size at hrest ⊢
    rw [List.foldl_cons, hrest, List.map_cons, List.sum_cons]
    unfold w32
    omega

lemma spaceCheck_eq (argv envp : List CStr) :
    w32 (stringsSize envp (stringsSize argv 0) + vecBytes argv + vecBytes envp + 4 + 16) =
      w32 (needed argv envp) := by
  have hargs := stringsSize_eq argv 0
  have henvs := stringsSize_eq envp (stringsSize argv 0)
  unfold vecBytes needed
  unfold w32 at *
  omega

lemma size_cons (s : CStr) (rest : List CStr) : size (s :: rest) = s.size + size rest := by
  simp [size]

lemma length_le_size (strs : List CStr) : strs.length ≤ size strs := by
  induction strs with
  | nil => exact Nat.zero_le _
  | cons s rest ih =>
    rw [size_cons, List.length_cons]
    unfold CStr.size
    omega

variable {argv envp : List CStr} {hi lo o : ℕ} {pg' : Page}

lemma sub32_w32_add {va : ℕ} (hva : va < 0x100000000) (ho : o < 0x100000000) :
    sub32 (w32 (va + o)) va = o := by
  unfold sub32 w32
  omega

lemma sub32_w32_of_le {va n : ℕ} (hn : n ≤ o) (hlt : n < 0x100000000) :
    sub32 (w32 (va + o)) n = w32 (va + (o - n)) := by
  unfold sub32 w32
  omega

lemma offset_of_lt {va n : ℕ} (hva : va < 0x100000000) (ho : o ≤ 4096) (hn : o < n)
    (hlt : n < 0x100000000) : sub32 (sub32 (w32 (va + o)) n) va = 0x100000000 + o - n := by
  unfold sub32 w32
  omega

/-! ## Strings on the page -/

section Strings

variable {va : ℕ} {pg : Page}

/-- The pages differ only between `lo` and `hi`, where the further writes lie. -/
structure Within (lo hi : ℕ) (pg pg' : Page) : Prop where
  same : ∀ i, ¬ (lo ≤ i ∧ i < hi) → pg'.bytes i = pg.bytes i
  writes : ∀ w ∈ pg'.writes, w ∈ pg.writes ∨ (lo ≤ w.1 ∧ w.1 + w.2 ≤ hi)

lemma Within.refl (lo hi : ℕ) (pg : Page) : Within lo hi pg pg :=
  ⟨fun _ _ => rfl, fun _ hw => .inl hw⟩

lemma Within.trans {pg₁ pg₂ pg₃ : Page} (h : Within lo hi pg₁ pg₂)
    (h' : Within lo hi pg₂ pg₃) : Within lo hi pg₁ pg₃ := by
  refine ⟨fun i hi => ?_, fun w hw => ?_⟩
  · rw [h'.same i hi, h.same i hi]
  · rcases h'.writes w hw with hw | hw
    · exact h.writes w hw
    · exact .inr hw

lemma Within.mono {lo' hi' : ℕ} {pg : Page} (h : Within lo hi pg pg') (hlo : lo' ≤ lo)
    (hhi : hi ≤ hi') : Within lo' hi' pg pg' := by
  refine ⟨fun i hi => h.same i (by omega), fun w hw => ?_⟩
  rcases h.writes w hw with hw | hw
  · exact .inl hw
  · exact .inr (by omega)

lemma within_putString (pg : Page) (off : ℕ) (s : CStr) :
    Within off (off + s.size) pg (pg.putString off s) := by
  refine ⟨fun i hi => if_neg hi, fun w hw => ?_⟩
  rcases List.mem_cons.mp hw with rfl | hw
  · exact .inr ⟨le_rfl, le_rfl⟩
  · exact .inl hw

lemma within_putWord (pg : Page) (off w : ℕ) : Within off (off + 4) pg (pg.putWord off w) := by
  refine ⟨fun i hi => if_neg hi, fun x hx => ?_⟩
  rcases List.mem_cons.mp hx with rfl | hx
  · exact .inr ⟨le_rfl, le_rfl⟩
  · exact .inl hx

lemma PointsTo.within {pg : Page} {a : ℕ} {s : CStr} (h : PointsTo pg.bytes va a s)
    (hw : Within lo hi pg pg') (hout : hi ≤ sub32 a va ∨ sub32 a va + s.size ≤ lo) :
    PointsTo pg'.bytes va a s := by
  refine ⟨h.inside, fun i hi => ?_⟩
  rw [hw.same _ (by omega), h.bytes i hi]

lemma pointsTo_putString (hva : va < 0x100000000) (s : CStr) (pg : Page) (off : ℕ)
    (h : off + s.size ≤ 4096) :
    PointsTo (pg.putString (sub32 (w32 (va + off)) va) s).bytes va (w32 (va + off)) s := by
  refine ⟨?_, fun i hi => ?_⟩
  · rw [sub32_w32_add hva (by omega)]
    exact h
  · rw [sub32_w32_add hva (by omega)]
    have hcopy := pg.bytes.copy_of_mem (fun i => s.stored.getD i 0) (d := off) (s := 0)
      (n := s.size) (i := off + i) (by omega) (by omega)
    rw [Nat.add_sub_cancel_left, Nat.zero_add] at hcopy
    exact hcopy

/-- The addresses of copies of the strings, at the offset `o` and above. -/
structure Placed (va o : ℕ) (pg : Page) (strs : List CStr) (addrs : List ℕ) : Prop where
  length : addrs.length = strs.length
  word : ∀ a ∈ addrs, a < 0x100000000
  copies : ∀ i, (h : i < strs.length) → PointsTo pg.bytes va (addrs.getD i 0) strs[i] ∧
    o ≤ sub32 (addrs.getD i 0) va

lemma Placed.within {pg : Page} {strs : List CStr} {addrs : List ℕ}
    (h : Placed va o pg strs addrs) (hw : Within lo hi pg pg') (hhi : hi ≤ o) :
    Placed va o pg' strs addrs := by
  refine ⟨h.length, h.word, fun i hi => ?_⟩
  obtain ⟨hpt, hge⟩ := h.copies i hi
  exact ⟨hpt.within hw (.inl (hhi.trans hge)), hge⟩

/-- **The strings pushed within the page**, from `o` downwards. -/
lemma pushStrings_spec (hva : va < 0x100000000) (strs : List CStr) (ho : o ≤ 4096)
    (hsize : size strs ≤ o) (pg : Page) : ∃ addrs pg', pushStrings va strs (w32 (va + o)) pg =
        (addrs, w32 (va + (o - size strs)), pg') ∧
      Within (o - size strs) o pg pg' ∧ Placed va (o - size strs) pg' strs addrs := by
  induction strs with
  | nil =>
    refine ⟨[], pg, rfl, Within.refl _ _ _, rfl, by simp, ?_⟩
    intro i h
    exact absurd h (Nat.not_lt_zero i)
  | cons s rest ih =>
    rw [size_cons] at hsize ⊢
    obtain ⟨addrs, pg', hcall, hwithin, hplaced⟩ := ih (by omega)
    have hsz : s.size < 0x100000000 := s.fits
    have hsp : sub32 (w32 (va + (o - size rest))) s.size = w32
      (va + (o - (s.size + size rest))) := by
      rw [sub32_w32_of_le (by omega) hsz]
      congr 2
      omega
    have hoff : sub32 (w32 (va + (o - (s.size + size rest)))) va = o - (s.size + size rest) :=
      sub32_w32_add hva (by omega)
    have hput := within_putString pg' (o - (s.size + size rest)) s
    refine ⟨w32 (va + (o - (s.size + size rest))) :: addrs,
      pg'.putString (o - (s.size + size rest)) s, ?_, ?_, ?_, ?_, ?_⟩
    · unfold pushStrings
      rw [hcall]
      dsimp only
      rw [hsp, hoff]
    · exact (hwithin.mono (by omega) le_rfl).trans (hput.mono le_rfl (by omega))
    · simp [hplaced.length]
    · intro a ha
      rcases List.mem_cons.mp ha with rfl | ha
      · exact w32_lt _
      · exact hplaced.word a ha
    · intro i h
      cases i with
      | zero =>
        have hself := pointsTo_putString hva s pg' (o - (s.size + size rest)) (by omega)
        rw [hoff] at hself
        exact ⟨hself, hoff.ge⟩
      | succ i =>
        obtain ⟨hpt, hge⟩ := hplaced.copies i (Nat.lt_of_succ_lt_succ h)
        rw [List.getD_cons_succ]
        exact ⟨hpt.within hput (.inl (by omega)), by omega⟩

lemma mem_pushStrings (strs : List CStr) (sp : ℕ) (pg : Page) {w : ℕ × ℕ} (h : w ∈ pg.writes) :
    w ∈ (pushStrings va strs sp pg).2.2.writes := by
  induction strs with
  | nil => exact h
  | cons s rest ih => exact .tail _ ih

/-- **Strings that do not fit are written outside of the page.** -/
lemma pushStrings_outside (hva : va < 0x100000000) (strs : List CStr) (ho : o ≤ 4096)
    (hsize : o < size strs) (pg : Page) :
    ∃ w ∈ (pushStrings va strs (w32 (va + o)) pg).2.2.writes, 4096 < w.1 + w.2 := by
  induction strs with
  | nil => exact absurd hsize (Nat.not_lt_zero o)
  | cons s rest ih =>
    by_cases hrest : o < size rest
    · obtain ⟨w, hw, hout⟩ := ih hrest
      exact ⟨w, .tail _ hw, hout⟩
    obtain ⟨addrs, pg', hcall, -⟩ := pushStrings_spec hva rest ho (by omega) pg
    rw [size_cons] at hsize
    have hoff := offset_of_lt hva (o := o - size rest) (n := s.size) (by omega) (by omega) s.fits
    refine ⟨(sub32 (sub32 (w32 (va + (o - size rest))) s.size) va, s.size), ?_, ?_⟩
    · unfold pushStrings
      rw [hcall]
      exact .head _
    · omega

end Strings

/-! ## The vectors -/

section Vectors

variable {va : ℕ}

lemma userWord_add (page : Buffer) (hva : va < 0x100000000) (ho : o < 0x100000000) :
    userWord page va (va + o) = page.word o := by
  unfold userWord
  rw [sub32_w32_add hva ho]

lemma Within.word {pg : Page} (h : Within lo hi pg pg')
    (hout : hi ≤ o ∨ o + 4 ≤ lo) : pg'.bytes.word o = pg.bytes.word o :=
  Buffer.word_congr fun k hk => h.same _ (by omega)

lemma fillVector_within (addrs : List ℕ) (off : ℕ) (pg : Page) :
    Within off (off + 4 * (addrs.length + 1)) pg (fillVector addrs off pg) := by
  induction addrs generalizing off pg with
  | nil => exact within_putWord pg off 0
  | cons a rest ih =>
    have hput := within_putWord pg off a
    have hrest := ih (off + 4) (pg.putWord off a)
    refine (hput.mono le_rfl ?_).trans (hrest.mono (by omega) ?_)
    · omega
    · rw [List.length_cons]
      omega

lemma mem_fillVector (addrs : List ℕ) (off : ℕ) (pg : Page) {w : ℕ × ℕ} (h : w ∈ pg.writes) :
    w ∈ (fillVector addrs off pg).writes := by
  induction addrs generalizing off pg with
  | nil => exact .tail _ h
  | cons a rest ih => exact ih (off + 4) (pg.putWord off a) (.tail _ h)

lemma fillVector_word (addrs : List ℕ) (hlt : ∀ a ∈ addrs, a < 0x100000000) (off : ℕ) (pg : Page)
    {i : ℕ} (hi : i ≤ addrs.length) :
    (fillVector addrs off pg).bytes.word (off + 4 * i) = addrs.getD i 0 := by
  induction addrs generalizing off pg i with
  | nil =>
    obtain rfl : i = 0 := Nat.le_zero.mp hi
    exact Buffer.word_setWord _ (by decide)
  | cons a rest ih =>
    unfold fillVector
    cases i with
    | zero =>
      have hrest := fillVector_within rest (off + 4) (pg.putWord off a)
      rw [hrest.word (.inr (by omega))]
      exact Buffer.word_setWord _ (hlt a (.head _))
    | succ i =>
      have hnext := ih (fun b hb => hlt b (.tail a hb)) (off + 4) (pg.putWord off a)
        (Nat.le_of_succ_le_succ hi)
      rw [List.getD_cons_succ, ← hnext]
      congr 1
      omega

lemma pointerVector_of_placed {pg : Page} (hva : va < 0x100000000) {strs : List CStr}
    {addrs : List ℕ} {a : ℕ} (hplaced : Placed va o pg strs addrs) (off : ℕ)
    (ha : w32 a = w32 (va + off)) (hoff : off + 4 * (strs.length + 1) ≤ 4096)
    (hwords : ∀ i ≤ addrs.length, pg.bytes.word (off + 4 * i) = addrs.getD i 0) :
    PointerVector pg.bytes va a strs := by
  have hlen := hplaced.length
  have hword : ∀ i ≤ addrs.length, userWord pg.bytes va (a + 4 * i) = addrs.getD i 0 := by
    intro i hi
    have haddr : w32 (a + 4 * i) = w32 (va + (off + 4 * i)) := by
      unfold w32 at *
      omega
    rw [← hwords i hi, ← userWord_add pg.bytes hva (by omega)]
    unfold userWord
    rw [haddr]
  refine ⟨fun i h => ?_, ?_⟩
  · rw [hword i (by omega)]
    exact (hplaced.copies i h).1
  · rw [← hlen, hword _ le_rfl]
    exact List.getD_eq_default _ _ le_rfl

/-- **The vectors and `argc`**, from `e` on, below the strings. -/
lemma sysVStack_of_placed (hva : va < 0x100000000)
    {argvUser envpUser : List ℕ} {pg : Page} {e : ℕ} (ho : o ≤ 4096)
    (hargs : Placed va o pg argv argvUser) (henvs : Placed va o pg envp envpUser)
    (he : e + 4 + 4 * (argv.length + 1) + 4 * (envp.length + 1) ≤ o) :
    let pg₁ := fillVector argvUser (e + 4) pg
    let pg₂ := fillVector envpUser (e + 4 + 4 * (argv.length + 1)) pg₁
    Within e o pg (pg₂.putWord e argv.length) ∧
      SysVStack (pg₂.putWord e argv.length).bytes va (w32 (va + e)) argv envp := by
  intro pg₁ pg₂
  have hin₁ : Within (e + 4) (e + 4 + 4 * (argv.length + 1)) pg pg₁ := by
    rw [← hargs.length]
    exact fillVector_within argvUser (e + 4) pg
  have hin₂ : Within (e + 4 + 4 * (argv.length + 1)) o pg₁ pg₂ := by
    refine (fillVector_within envpUser _ pg₁).mono le_rfl ?_
    rw [henvs.length]
    exact he
  have hin₃ := within_putWord pg₂ e argv.length
  have hplaced : ∀ {strs addrs}, Placed va o pg strs addrs →
      Placed va o (pg₂.putWord e argv.length) strs addrs := by
    intro strs addrs h
    exact ((h.within hin₁ (by omega)).within hin₂ le_rfl).within hin₃ (by omega)
  have hlen := hargs.length
  refine ⟨?_, ?_, ?_, ?_, ?_⟩
  · exact ((hin₁.mono (by omega) (by omega)).trans (hin₂.mono (by omega) le_rfl)).trans
      (hin₃.mono le_rfl (by omega))
  · rw [sub32_w32_add hva (by omega)]
    omega
  · have hself : userWord (pg₂.putWord e argv.length).bytes va (w32 (va + e)) =
        userWord (pg₂.putWord e argv.length).bytes va (va + e) := by
      unfold userWord
      rw [w32_of_lt (w32_lt _)]
    rw [hself, userWord_add _ hva (by omega)]
    exact Buffer.word_setWord _ (by omega)
  · refine pointerVector_of_placed hva (hplaced hargs) (e + 4) ?_ (by omega) fun i hi => ?_
    · unfold w32
      omega
    · rw [hin₃.word (.inl (by omega)), hin₂.word (.inr (by omega))]
      exact fillVector_word argvUser hargs.word _ _ hi
  · refine pointerVector_of_placed hva (hplaced henvs) (e + 4 + 4 * (argv.length + 1)) ?_
      (by omega) fun i hi => ?_
    · unfold w32
      omega
    · rw [hin₃.word (.inl (by omega))]
      exact fillVector_word envpUser henvs.word _ _ hi

end Vectors

/-! ## The page -/

lemma exists_page {ustackTop : ℕ} (htop : ustackTop < 0x100000000) :
    ∃ va, sub32 ustackTop 0x1000 = va ∧ va < 0x100000000 ∧ ustackTop = w32 (va + 4096) := by
  refine ⟨_, rfl, w32_lt _, ?_⟩
  unfold sub32 w32
  omega

/-- **A sum that wraps is followed by a write outside of the page.** -/
lemma exists_write_outside (mapped : Bool) {ustackTop : ℕ} (htop : ustackTop < 0x100000000)
    (hcheck : ¬ 4096 < w32 (needed argv envp)) (hbig : 0x100000000 ≤ needed argv envp) :
    ∃ w ∈ (buildUserStack mapped ustackTop argv envp).page.writes, 4096 < w.1 + w.2 := by
  obtain ⟨va, hva, hlt, htop'⟩ := exists_page htop
  have hargs := length_le_size argv
  have henvs := length_le_size envp
  have hstrings : 4096 < size argv + size envp := by
    unfold needed at hbig
    omega
  obtain ⟨w, hw, hout⟩ : ∃ w ∈ (pushStrings va argv (pushStrings va envp ustackTop Page.cleared).2.1
      (pushStrings va envp ustackTop Page.cleared).2.2).2.2.writes, 4096 < w.1 + w.2 := by
    rw [htop']
    by_cases henv : 4096 < size envp
    · obtain ⟨w, hw, hout⟩ := pushStrings_outside hlt envp le_rfl henv Page.cleared
      exact ⟨w, mem_pushStrings argv _ _ hw, hout⟩
    · obtain ⟨addrs, pg, hcall, -⟩ := pushStrings_spec hlt envp le_rfl (by omega) Page.cleared
      rw [hcall]
      exact pushStrings_outside hlt argv (by omega) (by omega) pg
  refine ⟨w, ?_, hout⟩
  unfold buildUserStack
  rw [if_neg (by rw [spaceCheck_eq]; exact hcheck), hva]
  exact .tail _ (mem_fillVector _ _ _ (mem_fillVector _ _ _ hw))

/-- **The page is right when the exact sum passes the space check.** -/
lemma stackRight_of_needed (mapped : Bool) {ustackTop : ℕ} (htop : ustackTop < 0x100000000)
    (h : needed argv envp ≤ 4096) :
    StackRight ustackTop argv envp (buildUserStack mapped ustackTop argv envp) := by
  obtain ⟨va, hva, hlt, htop'⟩ := exists_page htop
  have hfit : Fits argv envp := by
    unfold Fits
    omega
  have hcheck : ¬ w32 (stringsSize envp (stringsSize argv 0) + vecBytes argv + vecBytes envp +
      4 + 16) > 4096 := by
    rw [spaceCheck_eq, w32_of_lt (by omega)]
    omega
  unfold needed at h
  have hargv : vecBytes argv = 4 * (argv.length + 1) := w32_of_lt (by omega)
  have henvp : vecBytes envp = 4 * (envp.length + 1) := w32_of_lt (by omega)
  obtain ⟨envpUser, pg₁, hcall₁, hin₁, hplaced₁⟩ :=
    pushStrings_spec hlt envp le_rfl (by omega) Page.cleared
  obtain ⟨argvUser, pg₂, hcall₂, hin₂, hplaced₂⟩ :=
    pushStrings_spec hlt argv (o := 4096 - size envp) (by omega) (by omega) pg₁
  obtain ⟨o, ho⟩ : ∃ o, 4096 - size envp - size argv = o := ⟨_, rfl⟩
  rw [ho] at hcall₂ hin₂ hplaced₂
  have henvs : Placed va o pg₂ envp envpUser := by
    have hkept := hplaced₁.within hin₂ le_rfl
    refine ⟨hkept.length, hkept.word, fun i hi => ?_⟩
    obtain ⟨hpt, hge⟩ := hkept.copies i hi
    exact ⟨hpt, by omega⟩
  -- the offset of the aligned stack pointer, and that of `argc`
  obtain ⟨q, hq, hqo, hsp⟩ : ∃ q, o < q + 16 ∧ q ≤ o ∧
    alignDown 16 (w32 (va + o)) = w32 (va + q) := by
    refine ⟨o - (va + o) % 16, by omega, by omega, ?_⟩
    unfold alignDown w32
    omega
  obtain ⟨e, he⟩ : ∃ e, q = e + 4 + 4 * (argv.length + 1) + 4 * (envp.length + 1) :=
    ⟨q - (4 + 4 * (argv.length + 1) + 4 * (envp.length + 1)), by omega⟩
  have hbase : sub32 (w32 (va + q)) (w32 (4 * (argv.length + 1) + 4 * (envp.length + 1))) =
      w32 (va + (e + 4)) := by
    unfold sub32 w32
    omega
  have hesp : sub32 (w32 (va + (e + 4))) 4 = w32 (va + e) := by
    unfold sub32 w32
    omega
  have henvva : w32 (w32 (va + (e + 4)) + 4 * (argv.length + 1)) =
      w32 (va + (e + 4 + 4 * (argv.length + 1))) := by
    unfold w32
    omega
  obtain ⟨hwithin, hstack⟩ :=
    sysVStack_of_placed hlt (e := e) (by omega) hplaced₂ henvs (by omega)
  obtain ⟨pg, hpg⟩ : ∃ pg, (fillVector envpUser (e + 4 + 4 * (argv.length + 1))
      (fillVector argvUser (e + 4) pg₂)).putWord e argv.length = pg := ⟨_, rfl⟩
  rw [hpg] at hwithin hstack
  have hout : buildUserStack mapped ustackTop argv envp =
      ⟨if mapped then some (w32 (va + e)) else none, pg⟩ := by
    unfold buildUserStack
    rw [if_neg hcheck, hva, hargv, henvp]
    nth_rewrite 1 [htop']
    rw [hcall₁]
    dsimp only
    rw [hcall₂]
    rw [hsp, hbase, hesp, henvva, sub32_w32_add hlt (by omega), sub32_w32_add hlt (by omega),
      sub32_w32_add hlt (by omega), hpg]
  have hall : Within 0 4096 Page.cleared pg :=
    ((hin₁.mono (Nat.zero_le _) le_rfl).trans (hin₂.mono (Nat.zero_le _) (by omega))).trans
      (hwithin.mono (Nat.zero_le _) (by omega))
  rw [hout]
  refine ⟨fun w hw => ?_, fun esp hesp => ?_, fun hno => absurd hfit hno⟩
  · rcases hall.writes w hw with hw | hw
    · rw [Page.cleared, List.mem_singleton] at hw
      rw [hw]
      exact le_rfl
    · exact hw.2
  · cases mapped with
    | false => cases hesp
    | true =>
      rw [hva, ← Option.some.inj hesp]
      exact hstack

/-- **When the page is right**: unless the sum of the space check wraps. -/
theorem stackRight_iff (mapped : Bool) {ustackTop : ℕ} (htop : ustackTop < 0x100000000)
    (argv envp : List CStr) :
    StackRight ustackTop argv envp (buildUserStack mapped ustackTop argv envp) ↔
      needed argv envp < 0x100000000 ∨ 4096 < needed argv envp % 0x100000000 := by
  by_cases hcheck : 4096 < w32 (needed argv envp)
  · -- the call is refused
    have hout : buildUserStack mapped ustackTop argv envp = ⟨none, Page.cleared⟩ := by
      unfold buildUserStack
      rw [if_pos]
      rw [spaceCheck_eq]
      exact hcheck
    refine ⟨fun _ => .inr hcheck, fun _ => ?_⟩
    rw [hout]
    refine ⟨fun w hw => ?_, fun esp hesp => ?_, fun _ => rfl⟩
    · rw [Page.cleared, List.mem_singleton] at hw
      rw [hw]
      exact le_rfl
    · cases hesp
  · constructor
    · intro hright
      by_contra hbig
      obtain ⟨w, hw, hout⟩ := exists_write_outside mapped htop hcheck (by omega)
      exact absurd (hright.inside w hw) (by omega)
    · rintro (hlt | hgt)
      · rw [w32_of_lt hlt] at hcheck
        exact stackRight_of_needed mapped htop (by omega)
      · exact absurd hgt hcheck

/-- A string of one letter. -/
def letters (n : ℕ) (h : n + 1 < 0x100000000) : CStr where
  bytes := List.replicate n 0x61
  noNul := by
    rw [List.mem_replicate]
    rintro ⟨-, h⟩
    cases h
  fits := by
    simpa using h

lemma size_letters (n : ℕ) (h : n + 1 < 0x100000000) : (letters n h).size = n + 1 := by
  unfold CStr.size letters
  simp

lemma needed_replicate (k : ℕ) (s : CStr) :
    needed (List.replicate k s) [] = k * s.size + 4 * (k + 1) + 24 := by
  unfold needed size
  rw [List.map_replicate, List.sum_replicate_nat, List.length_replicate]
  simp only [List.map_nil, List.sum_nil, List.length_nil]
  omega

/-- A string of four megabytes, given 1024 times: the sum is `2 ^ 32 + 28`, which passes for 28
bytes. -/
theorem accepts_wrapped :
    ¬ StackRight 0x02000000 (List.replicate 1024 (letters 0x3FFFFB (by decide))) []
      (buildUserStack true 0x02000000 (List.replicate 1024 (letters 0x3FFFFB (by decide))) []) := by
  have hsize := size_letters 0x3FFFFB (by decide)
  generalize letters 0x3FFFFB _ = s at hsize ⊢
  have hneed : needed (List.replicate 1024 s) [] = 0x10000001C := by
    rw [needed_replicate, hsize]
  have htop : 0x02000000 < 0x100000000 := by decide
  intro hright
  obtain ⟨w, hw, hout⟩ := exists_write_outside true htop (by rw [hneed]; decide)
    (by rw [hneed]; decide)
  exact absurd (hright.inside w hw) (by omega)

/-- Two arguments and one variable. -/
theorem stackRight_small :
    StackRight 0x02000000 [letters 4 (by decide), letters 2 (by decide)] [letters 9 (by decide)]
      (buildUserStack true 0x02000000 [letters 4 (by decide), letters 2 (by decide)]
        [letters 9 (by decide)]) := by
  refine (stackRight_iff true (by decide) _ _).mpr (.inl ?_)
  decide

end FrostByte.UserStack
