import FrostByte.Fat.ShortName
import FrostByte.Fat.Slots

/-!
# Files that were created are found

`fat32_create_file` puts the entries of a new file into the first cluster with enough free slots in
a row, and `fat32_find_in_dir` ends at the first slot that was never used. When only the last slot
of a cluster is left, a long name goes into the next cluster, where it is not found.

## Main definitions

* `Readable` — names that are read back as they were given.
* `DirOp.Plain` — calls with readable names whose entries fit into a cluster.
* `builtDirectory` — the runs of these calls from a new directory on.

## Main results

* `createFile_findable_iff` — when a new file, and every earlier one, is found.
* `create_not_found` — a file that is created and not found.
-/

namespace FrostByte.Fat32

open DirEntry

variable {g : Geometry} {name m : List ℕ} {c new : List DirEntry} {d d' : List (List DirEntry)}

/-! ## The names of new entries -/

/-- The eleven bytes that a new name is stored under. -/
def shortName (name : List ℕ) : List ℕ :=
  if needsLfn name then generateBasisName name else nameTo83 name

/-- The name that the iterator reads from the entries of a name. -/
def storedName (name : List ℕ) : List ℕ :=
  if needsLfn name = true ∧ readBack name ≠ [] then readBack name else shortToName (shortName name)

/-- A name that is found under itself: ASCII, or its own short name; a short one is not marked as
deleted and has no dot at its end. -/
def Readable (name : List ℕ) : Prop :=
  (needsLfn name = true → Ascii name ∨
    name.head? = some 0xFF ∧ SameName name (shortToName (generateBasisName name))) ∧
  (needsLfn name = false → name.head? ≠ some 0xE5 ∧ name.getLast? ≠ some '.'.toNat)

instance (name : List ℕ) : Decidable (Readable name) := inferInstanceAs (Decidable (_ ∧ _))

/-- The slots of a name: its pieces and its short entry. -/
def slotsNeeded (name : List ℕ) : ℕ := if needsLfn name then numLfn name + 1 else 1

variable {e : ShortEntry} {fatName : List ℕ} {lfns : List LfnEntry}

lemma newNames_eq (h : newNames name = some (lfns, fatName)) :
    fatName = shortName name ∧ lfns.length + 1 = slotsNeeded name ∧
      (needsLfn name = true → generateLfnEntries name 20 = some (lfns, generateBasisName name)) ∧
      (needsLfn name = false → lfns = []) := by
  unfold newNames at h
  unfold shortName slotsNeeded
  cases hneeds : needsLfn name with
  | true =>
    rw [hneeds, if_pos rfl] at h
    have hname := generateLfnEntries_name h
    refine ⟨hname, ?_, fun _ => hname ▸ h, nofun⟩
    unfold generateLfnEntries at h
    split_ifs at h
    cases h
    simp
  | false =>
    rw [hneeds] at h
    cases h
    exact ⟨rfl, rfl, nofun, fun _ => rfl⟩

lemma isEntry_short (h0 : e.name.headD 0 ≠ 0) (h5 : e.name.headD 0 ≠ 0xE5)
    (hvol : e.attr.testBit 3 = false) : IsEntry [.short e] (shortToName e.name) where
  live x hx := by
    rw [List.mem_singleton.mp hx]
    exact isFree_eq_false h0 h5
  shape := ⟨[], e, rfl, nofun⟩
  read rest st := by
    refine ⟨e, entryName e st, { st with lfnPos := 0 }, dirIterNext_short h0 h5 hvol, rfl, ?_⟩
    unfold entryName
    split_ifs with hpos hsum
    · exact .inr ⟨hpos, rfl⟩
    · exact .inl rfl
    · exact .inl rfl

lemma isEntry_long (hne : name ≠ []) (hlen : name.length ≤ 255)
    (hgen : generateLfnEntries name 20 = some (lfns, e.name)) (h0 : e.name.headD 0 ≠ 0)
    (h5 : e.name.headD 0 ≠ 0xE5) (hvol : e.attr.testBit 3 = false) :
    IsEntry (lfns.map .long ++ [.short e])
      (if readBack name = [] then shortToName e.name else readBack name) where
  live x hx := by
    rcases List.mem_append.mp hx with hx | hx
    · obtain ⟨l, hl, rfl⟩ := List.mem_map.mp hx
      obtain ⟨hl0, hl5⟩ := generateLfnEntries_order hgen l hl
      exact isFree_eq_false hl0 hl5
    · exact (isEntry_short h0 h5 hvol).live x hx
  shape := by
    refine ⟨lfns.map .long, e, rfl, fun x hx => ?_⟩
    obtain ⟨l, -, rfl⟩ := List.mem_map.mp hx
    rfl
  read rest st := by
    simp [dirIterNext_lfns hne hlen hgen, dirIterNext_short h0 h5 hvol, entryName_readBack hlen]

lemma attr_newShort (kind : EntryKind) (fatName : List ℕ) (cluster : ℕ) (stamp : ℕ × ℕ) :
    (newShort kind fatName cluster stamp).attr.testBit 3 = false := by
  cases kind with
  | file => exact show attrArchive.testBit 3 = false by decide
  | directory => exact show attrDirectory.testBit 3 = false by decide

lemma needsLfn_ne_nil (h : needsLfn name = true) : name ≠ [] := by
  rintro rfl
  cases h

lemma toUpper_pos {c : ℕ} (h : 0 < c) : 0 < toUpper c := by
  unfold toUpper
  split_ifs with hc
  · have : 97 ≤ c := hc.1
    omega
  · exact h

lemma head_shortName (hstr : CString name) : (shortName name).headD 0 ≠ 0 := by
  unfold shortName
  cases hneeds : needsLfn name with
  | true =>
    rw [if_pos rfl]
    rcases head_generateBasisName name with h | ⟨c, hc, h⟩
    · rw [h]
      decide
    · rw [h]
      exact (toUpper_pos (hstr c hc).1).ne'
  | false =>
    rw [if_neg Bool.false_ne_true]
    by_cases hne : name = []
    · rw [hne]
      decide
    rcases head_nameTo83 hneeds hne with ⟨-, h⟩ | h
    · rw [h]
      decide
    · exact (hstr _ (List.mem_of_mem_head? h)).1.ne'

/-- **The entries of a new name** are read as the stored name. -/
lemma isEntry_new (hstr : CString name)
    (hlen : name.length ≤ 255) (hnew : newNames name = some (lfns, fatName))
    (h5 : (shortName name).headD 0 ≠ 0xE5) (kind : EntryKind) (cluster : ℕ) (stamp : ℕ × ℕ) :
    IsEntry (lfns.map .long ++ [.short (newShort kind fatName cluster stamp)])
    (storedName name) := by
  obtain ⟨rfl, -, hlong, hshort⟩ := newNames_eq hnew
  have h0 := head_shortName hstr
  have hvol := attr_newShort kind (shortName name) cluster stamp
  cases hneeds : needsLfn name with
  | true =>
    have hbasis : shortName name = generateBasisName name := if_pos hneeds
    have hentry := isEntry_long
      (needsLfn_ne_nil hneeds) hlen (by rw [hlong hneeds]; exact congrArg _ (by rw [← hbasis]; rfl))
      h0 h5 hvol
    have hstored : storedName name =
        if readBack name = [] then shortToName (shortName name) else readBack name := by
      unfold storedName
      by_cases hnil : readBack name = []
      · rw [if_neg (by simp [hnil]), if_pos hnil]
      · rw [if_pos ⟨hneeds, hnil⟩, if_neg hnil]
    rw [hstored]
    exact hentry
  | false =>
    have hstored : storedName name = shortToName (shortName name) := by
      unfold storedName
      rw [if_neg (by simp [hneeds])]
    rw [hshort hneeds, hstored]
    exact isEntry_short h0 h5 hvol

/-! ## Readable names -/

lemma readChar_lt (c : ℕ) : readChar c < 128 := by
  unfold readChar utf16ToAscii
  split_ifs
  · decide
  · assumption
  · decide

lemma lt_of_mem_readBack {c : ℕ} (h : c ∈ readBack name) : c < 128 := by
  obtain ⟨l, hl, hc⟩ := List.mem_flatten.mp h
  obtain ⟨i, -, rfl⟩ := List.mem_map.mp hl
  obtain ⟨x, -, rfl⟩ := List.mem_map.mp ((List.takeWhile_prefix _).subset hc)
  exact readChar_lt x

lemma ascii_of_sameName (hstr : CString name) (h : SameName name (readBack name)) : Ascii name := by
  intro c hc
  refine ⟨(hstr c hc).1, ?_⟩
  have hmem : toLower c ∈ (readBack name).map toLower := h ▸ List.mem_map_of_mem hc
  obtain ⟨x, hx, heq⟩ := List.mem_map.mp hmem
  have hx128 := lt_of_mem_readBack hx
  unfold toLower at heq
  have hZ : 'Z'.toNat = 90 := rfl
  split_ifs at heq
  all_goals omega

lemma readBack_one (hne : name ≠ []) (hlen : name.length ≤ 13) :
    readBack name = (name.map readChar).takeWhile (· ≠ 0) := by
  have hnum : numLfn name = 1 := by
    have := List.length_pos_iff.mpr hne
    unfold numLfn
    omega
  have hpiece : piece name 0 = name := by
    rw [piece, List.drop_zero, List.take_of_length_le hlen]
  rw [readBack, hnum]
  show (readPiece name 0 ++ []) = _
  rw [List.append_nil, readPiece, hpiece]

lemma readBack_eq_nil_iff (hstr : CString name) (hne : name ≠ []) (hlen : name.length ≤ 13) :
    readBack name = [] ↔ name.head? = some 0xFF := by
  rw [readBack_one hne hlen]
  cases name with
  | nil => exact absurd rfl hne
  | cons c cs =>
    obtain ⟨hpos, hlt⟩ := hstr c (.head _)
    have hnull : readChar c = 0 ↔ c = 0xFF := by
      by_cases hascii : c < 128
      · rw [readChar_ascii ⟨hpos, hascii⟩]
        omega
      rw [readChar, widen, if_neg hascii, utf16ToAscii]
      by_cases hff : c = 0xFF
      · simp [hff]
      · rw [if_neg (by omega), if_neg (by omega)]
        exact iff_of_false (by decide) hff
    rw [List.head?_cons, Option.some.injEq, ← hnull]
    by_cases h0 : readChar c = 0
    · simp [h0]
    · simp [h0]

lemma head_generateBasisName_cons {c : ℕ} {cs : List ℕ} (hdot : c ≠ '.'.toNat)
    (hspace : c ≠ ' '.toNat) : (generateBasisName (c :: cs)).headD 0 = toUpper c := by
  have hbase : ∃ t, (splitExt (c :: cs)).1 = c :: t := by
    by_cases hmem : '.'.toNat ∈ c :: cs
    · have hcs : '.'.toNat ∈ cs.reverse := by
        simpa using (List.mem_cons.mp hmem).resolve_left fun h => hdot h.symm
      obtain ⟨s, t, hsplit, hnot⟩ := List.eq_append_cons_of_mem hcs
      have hname : c :: cs = (c :: t.reverse) ++ '.'.toNat :: s.reverse := by
        rw [← List.reverse_reverse cs, hsplit]
        simp
      rw [hname, splitExt_ext fun hmem => hnot (List.mem_reverse.mp hmem)]
      exact ⟨t.reverse, rfl⟩
    · exact ⟨cs, by rw [splitExt, if_neg hmem]⟩
  obtain ⟨t, ht⟩ := hbase
  have hkeep : decide (c ≠ ' '.toNat ∧ c ≠ '.'.toNat) = true := decide_eq_true ⟨hspace, hdot⟩
  rw [generateBasisName, ht,
    List.filter_cons_of_pos (p := fun c => decide (c ≠ ' '.toNat ∧ c ≠ '.'.toNat)) hkeep]
  rfl

/-- **Readable names**: not marked as deleted, and stored as they are. -/
lemma readable_iff (hstr : CString name) (hne : name ≠ []) (hlen : name.length ≤ 13) :
    Readable name ↔ (shortName name).headD 0 ≠ 0xE5 ∧ SameName name (storedName name) := by
  unfold Readable shortName storedName
  cases hneeds : needsLfn name with
  | true =>
    simp only [true_and, true_implies, Bool.true_eq_false, false_implies, and_true, if_true]
    by_cases hnil : readBack name = []
    · have hhead := (readBack_eq_nil_iff hstr hne hlen).mp hnil
      rw [if_neg (by simp [hnil]), shortName, if_pos hneeds]
      cases name with
      | nil => exact absurd rfl hne
      | cons c cs =>
        cases hhead
        have hascii : ¬ Ascii (0xFF :: cs) := fun h => absurd (h 0xFF (.head _)).2 (by decide)
        rw [head_generateBasisName_cons (by decide) (by decide)]
        simp only [hascii, false_or, List.head?_cons, true_and]
        exact ⟨fun h => ⟨by decide, h⟩, fun h => h.2⟩
    · have hhead : name.head? ≠ some 0xFF := fun h =>
        hnil ((readBack_eq_nil_iff hstr hne hlen).mpr h)
      rw [if_pos hnil]
      simp only [hhead, false_and, or_false]
      constructor
      · intro hascii
        have := generateBasisName_head hascii
        refine ⟨by omega, ?_⟩
        rw [readBack_of_ascii hascii, backwards_of_length_le hlen]
        rfl
      · exact fun h => ascii_of_sameName hstr h.2
  | false =>
    simp only [Bool.false_eq_true, false_and, false_implies, true_implies, true_and, if_false]
    rw [shortName, hneeds, if_neg Bool.false_ne_true, shortToName_nameTo83 hstr hneeds]
    refine and_congr ?_ ?_
    · rcases head_nameTo83 hneeds hne with ⟨hdot, hspace⟩ | h
      · rw [hdot, hspace]
        decide
      · simp [h]
    · split_ifs with hlast
      · refine iff_of_false (fun h => h hlast) fun hsame => ?_
        have hlens := congrArg List.length hsame
        rw [List.length_map, List.length_map, List.length_dropLast] at hlens
        have := List.length_pos_iff.mpr hne
        omega
      · exact iff_of_true hlast rfl

/-! ## Runs -/

/-- Created names have at most 255 bytes, and their short names are not marked as deleted. -/
def DirOp.Plain (op : DirOp) : Prop :=
  ∀ name, op.creates = some name →
    CString name ∧ name.length ≤ 255 ∧ (shortName name).headD 0 ≠ 0xE5

/-- The entries `.` and `..` of a new directory. -/
def dotEntry (fatName : List ℕ) (cluster : ℕ) : ShortEntry :=
  ⟨fatName, attrDirectory, 0, 0, 0, cluster / 0x10000 % 0x10000, 0, 0, cluster % 0x10000,
    0, by decide⟩

/-- The first cluster of a directory, with `.` and `..`. -/
def newDirectory (g : Geometry) (cluster parent : ℕ) : List DirEntry :=
  .short (dotEntry (bytesOf ".          ") cluster) ::
    .short (dotEntry (bytesOf "..         ") parent) ::
      List.replicate (g.entriesPerCluster - 2) zeroEntry

/-- What is built from an empty root directory or a new directory. -/
def builtDirectory (g : Geometry) : System (List (List DirEntry)) DirOp where
  init d := d = [emptyCluster g] ∨
    2 ≤ g.entriesPerCluster ∧ ∃ cluster parent, d = [newDirectory g cluster parent]
  guard _ op := op.Plain
  step d op d' := ∃ ok, op.call g d = some (ok, d')

lemma inOrder_newDirectory (h : 2 ≤ g.entriesPerCluster) (cluster parent : ℕ) :
    InOrder g (newDirectory g cluster parent) where
  length_eq := by
    simp only [newDirectory, List.length_cons, List.length_replicate]
    omega
  lists := by
    have hvol : ∀ fatName cluster, (dotEntry fatName cluster).attr.testBit 3 = false :=
      fun _ _ => show attrDirectory.testBit 3 = false by decide
    have hdot := isEntry_short (e := dotEntry (bytesOf ".          ") cluster)
      (show (bytesOf ".          ").headD 0 ≠ 0 by decide)
      (show (bytesOf ".          ").headD 0 ≠ 0xE5 by decide) (hvol _ _)
    have hdots := isEntry_short (e := dotEntry (bytesOf "..         ") parent)
      (show (bytesOf "..         ").headD 0 ≠ 0 by decide)
      (show (bytesOf "..         ").headD 0 ≠ 0xE5 by decide) (hvol _ _)
    exact ⟨_, .entry hdot (.entry hdots (.of_free fun x hx => by
      rw [List.eq_of_mem_replicate hx, isFree_zeroEntry]))⟩
  unused := by
    have hne : '.'.toNat ≠ 0 := by decide
    refine List.pairwise_cons.mpr ⟨fun y _ => hne.elim, ?_⟩
    exact List.pairwise_cons.mpr ⟨fun y _ => hne.elim, List.pairwise_replicate.mpr (.inr id)⟩

lemma deleteFound_forall {P : List DirEntry → Prop} {allowed : ShortEntry → Bool}
    {kmalloc ok : Bool}
    {keep : ℕ} (herase : ∀ c target i, P c → findShort target c = some i → P (eraseAt c i))
    (h : deleteFound g name allowed kmalloc keep d = some (ok, d')) (hd : ∀ c ∈ d, P c) :
    ∀ c ∈ d', P c := by
  have hsame : some (false, d) = some (ok, d') → ∀ c ∈ d', P c := by
    intro heq
    cases heq
    exact hd
  unfold deleteFound at h
  split at h
  swap
  · exact hsame h
  split at h
  · cases h
  · exact hsame h
  next e _ =>
  split at h
  swap
  · exact hsame h
  have hall := deleteEntry_forall (fun c i => herase c e.name i) g.totalClusters hd
  split at h
  · next d₁ hdel =>
    rw [hdel] at hall
    cases h
    exact hall
  · next d₁ hdel =>
    rw [hdel] at hall
    cases h
    exact fun c hc => hall c (List.mem_of_mem_take hc)

lemma DirOp.Plain.inOrder {op : DirOp} {ok : Bool} (hop : op.Plain) (hd : ∀ c ∈ d, InOrder g c)
    (h : op.call g d = some (ok, d')) : ∀ c ∈ d', InOrder g c := by
  have hsame : some (false, d) = some (ok, d') → ∀ c ∈ d', InOrder g c := by
    intro heq
    cases heq
    exact hd
  cases op with
  | createFile name kmalloc grow stamp =>
    obtain ⟨hstr, hlen, h5⟩ := hop name rfl
    rw [DirOp.call, Fat32.createFile] at h
    split at h
    · exact hsame h
    next lfns fatName hnames =>
    split at h
    · have hentry := isEntry_new hstr hlen hnames h5 .file 0 stamp
      exact addEntries_forall (inOrder_emptyCluster g) (fun c i hc hi => hc.place hentry hi) _ h hd
    · exact hsame h
  | createDirectory name cluster kmalloc grow stamp =>
    obtain ⟨hstr, hlen, h5⟩ := hop name rfl
    rw [DirOp.call, Fat32.createDirectory] at h
    split at h
    · exact hsame h
    next lfns fatName hnames =>
    split at h
    · exact hsame h
    split at h
    · have hentry := isEntry_new hstr hlen hnames h5 .directory cluster stamp
      exact addEntries_forall (inOrder_emptyCluster g) (fun c i hc hi => hc.place hentry hi) _ h hd
    · exact hsame h
  | deleteFile name kmalloc keep => exact deleteFound_forall (fun c _ _ hc hi => hc.eraseAt hi) h hd
  | deleteDirectory name kmalloc isEmpty keep =>
    exact deleteFound_forall (fun c _ _ hc hi => hc.eraseAt hi) h hd

lemma inOrder_of_reach (h : (builtDirectory g).Reach d) : ∀ c ∈ d, InOrder g c := by
  refine System.Reach.invariant (I := fun d => ∀ c ∈ d, InOrder g c) ?_ ?_ h
  · rintro d (rfl | ⟨h2, cluster, parent, rfl⟩)
    · exact List.forall_mem_singleton.mpr (inOrder_emptyCluster g)
    · exact List.forall_mem_singleton.mpr (inOrder_newDirectory h2 cluster parent)
  · rintro d op d' hd hop ⟨ok, hcall⟩
    exact DirOp.Plain.inOrder hop hd hcall

/-! ## A new file -/

lemma lists_flatten (h : ∀ c ∈ d, InOrder g c) : ∃ names, Lists d.flatten names := by
  induction d with
  | nil => exact ⟨[], .nil⟩
  | cons c d ih =>
    obtain ⟨hc, hd⟩ := List.forall_mem_cons.mp h
    obtain ⟨na, ha⟩ := hc.lists
    obtain ⟨nb, hb⟩ := ih hd
    exact ⟨na ++ nb, ha.append hb⟩

/-- The entries `new` were written over the slots `run`; `tail` is a cluster that was added. -/
structure Added (d d' : List (List DirEntry)) (new pre run post tail : List DirEntry) : Prop where
  before : d.flatten ++ tail = pre ++ (run ++ post)
  after : d'.flatten = pre ++ (new ++ post)
  free : ∀ x ∈ run, x.isFree = true
  unused : ∀ x ∈ tail, x.first = 0
  lists_pre : ∃ names, Lists pre names
  lists_post : ∃ names, Lists post names
  used_iff : UsedUpTo new.length d ↔ ∀ x ∈ pre, x.first ≠ 0

lemma usedUpTo_iff {before after : List (List DirEntry)} {i : ℕ} (hd : ∀ c ∈ d, InOrder g c)
    (hc : c.length = g.entriesPerCluster) (hi : findRun g new.length c = some i)
    (hbefore : ∀ x ∈ before, findRun g new.length x = none)
    (hcases : d = before ++ c :: after ∨ d = before) :
    UsedUpTo new.length d ↔ ∀ x ∈ before.flatten, x.first ≠ 0 := by
  have hnone : ∀ x ∈ before, (!hasRoom new.length x) = true := by
    intro x hx
    have hmem : x ∈ d := by
      rcases hcases with rfl | rfl
      · exact List.mem_append_left _ hx
      · exact hx
    rw [Bool.not_eq_true', Bool.eq_false_iff, ne_eq, hasRoom_iff (hd x hmem).length_eq, not_not]
    exact hbefore x hx
  have hroom : ¬ (!hasRoom new.length c) = true := by
    simp [hasRoom_iff hc, hi]
  have htake : (d.takeWhile fun c => !hasRoom new.length c) = before := by
    rcases hcases with rfl | rfl
    · rw [List.takeWhile_append_of_pos hnone,
        List.takeWhile_cons_of_neg (p := fun a => !hasRoom new.length a) hroom, List.append_nil]
    · exact List.takeWhile_eq_self_iff.mpr hnone
  rw [UsedUpTo, htake, List.forall_mem_flatten]

lemma added_of_addEntries {grow : Bool} {n : ℕ} (hd : ∀ c ∈ d, InOrder g c) (hnew : new ≠ [])
    (h : addEntries g grow new n d = some (true, d')) :
    ∃ pre run post tail, Added d d' new pre run post tail := by
  obtain ⟨before, c, after, i, hi, hbefore, rfl, hcases⟩ := addEntries_true n h
  have hpos := List.length_pos_iff.mpr hnew
  -- the cluster with the place, and the clusters around it, are in order
  have horder : (∀ x ∈ before, InOrder g x) ∧ InOrder g c ∧ ∀ x ∈ after, InOrder g x := by
    rcases hcases with rfl | ⟨rfl, rfl, rfl⟩
    · exact ⟨fun x hx => hd x (List.mem_append_left _ hx), hd c (List.mem_append_right _ (.head _)),
        fun x hx => hd x (List.mem_append_right _ (.tail _ hx))⟩
    · exact ⟨hd, inOrder_emptyCluster g, List.forall_mem_nil _⟩
  obtain ⟨hb, hc, ha⟩ := horder
  obtain ⟨n₁, h₁⟩ := lists_flatten hb
  obtain ⟨n₂, n₃, h₂, h₃⟩ := hc.lists_around hi hpos
  obtain ⟨n₄, h₄⟩ := lists_flatten ha
  have hused : UsedUpTo new.length d ↔ ∀ x ∈ before.flatten, x.first ≠ 0 :=
    usedUpTo_iff hd hc.length_eq hi hbefore (hcases.imp_right And.left)
  have hwhole : before.flatten ++ (c ++ after.flatten) = before.flatten ++ c.take i ++
      ((c.drop i).take new.length ++ (c.drop (i + new.length) ++ after.flatten)) := by
    conv_lhs => rw [split_run c i new.length]
    simp only [List.append_assoc]
  refine ⟨before.flatten ++ c.take i, (c.drop i).take new.length,
    c.drop (i + new.length) ++ after.flatten, if d = before then emptyCluster g else [], ?_, ?_,
    (findRun_some hi).2.1, ?_, ⟨_, h₁.append h₂⟩, ⟨_, h₃.append h₄⟩, ?_⟩
  · rw [← hwhole]
    rcases hcases with rfl | ⟨rfl, rfl, rfl⟩
    · rw [if_neg (by simp), List.append_nil, List.flatten_append, List.flatten_cons]
    · simp
  · simp only [List.flatten_append, List.flatten_cons, place, List.append_assoc]
  · intro x hx
    split_ifs at hx
    · rw [List.eq_of_mem_replicate hx]
      rfl
    · cases hx
  · rw [hused]
    refine ⟨fun hall x hx => ?_, fun hall x hx => hall x (List.mem_append_left _ hx)⟩
    rcases List.mem_append.mp hx with hx | hx
    · exact hall x hx
    · exact hc.used_before hi x hx

namespace Added

variable {pre run post tail : List DirEntry} {np nq : List (List ℕ)}

section

variable (h : Added d d' new pre run post tail)

include h

lemma takeWhile_before :
    d.flatten.takeWhile isUsed = (pre ++ (run ++ post)).takeWhile isUsed := by
  have htail : tail.takeWhile isUsed = [] := by
    cases tail with
    | nil => rfl
    | cons x tail =>
      have hx := h.unused x (.head _)
      exact List.takeWhile_cons_of_neg (by simp [isUsed, hx])
  rw [← h.before, List.takeWhile_append]
  split_ifs with hall
  · simp [htail, (List.takeWhile_prefix _).eq_of_length hall]
  · rfl

lemma nameExists_iff (hd : ∀ c ∈ d, InOrder g c) (hpre : Lists pre np) (hpost : Lists post nq) :
    NameExists d m ↔ ∃ x ∈ np ++ nq, SameName m x := by
  obtain ⟨nd, hnd⟩ := lists_flatten hd
  have htail : Lists tail [] := .of_free fun x hx => by simp [isFree, h.unused x hx]
  have hnames : nd = np ++ nq := by
    have hzero : LfnState.zero.lfnPos = 0 := rfl
    have hold := (hnd.append htail).entryNames_eq hzero
    have hnew := (hpre.append ((Lists.of_free h.free).append hpost)).entryNames_eq hzero
    rw [List.append_nil] at hold
    simp [← hold, h.before, hnew]
  rw [Fat32.nameExists_iff hnd, hnames]

lemma findable_of_unused (hunused : ¬ ∀ x ∈ pre, x.first ≠ 0) : Findable m d' ↔ Findable m d := by
  have hshort : ∀ rest, (pre ++ rest).takeWhile isUsed = pre.takeWhile isUsed := by
    intro rest
    rw [List.takeWhile_append, if_neg]
    intro hall
    refine hunused fun x hx => isUsed_iff.mp ?_
    rw [← (List.takeWhile_prefix isUsed).eq_of_length hall] at hx
    exact List.mem_takeWhile_imp hx
  apply findable_congr
  rw [h.after, h.takeWhile_before, hshort, hshort]

lemma takeWhile_after (hpre : ∀ x ∈ pre, x.first ≠ 0)
    (hnew : ∀ x ∈ new, x.first ≠ 0) : d'.flatten.takeWhile isUsed =
      pre ++ (new ++ post.takeWhile isUsed) := by
  rw [h.after, List.takeWhile_append_of_pos fun x hx => isUsed_iff.mpr (hpre x hx),
    List.takeWhile_append_of_pos fun x hx => isUsed_iff.mpr (hnew x hx)]

lemma findable_iff (hused : ∀ x ∈ pre, x.first ≠ 0) (hnew : IsEntry new name) (hpre : Lists pre np)
    (hpost : Lists (post.takeWhile isUsed) nq) :
    Findable m d' ↔ ∃ x ∈ np ++ name :: nq, SameName m x := by
  apply Fat32.findable_iff
  rw [h.takeWhile_after hused fun x hx => (first_of_live (hnew.live x hx)).1]
  exact hpre.append (.entry hnew hpost)

lemma findable_before (hused : ∀ x ∈ pre, x.first ≠ 0)
    (hpre : Lists pre np) (hpost : Lists (post.takeWhile isUsed) nq) (hm : Findable m d) :
    ∃ x ∈ np ++ nq, SameName m x := by
  have hrun : Lists run [] := .of_free h.free
  have hvisible : d.flatten.takeWhile isUsed =
      pre ++ (run ++ post).takeWhile isUsed := by
    rw [h.takeWhile_before, List.takeWhile_append_of_pos fun x hx => isUsed_iff.mpr (hused x hx)]
  have hlists : ∃ nr, nr ⊆ nq ∧ Lists ((run ++ post).takeWhile isUsed) nr := by
    rw [List.takeWhile_append]
    split_ifs
    · exact ⟨nq, List.Subset.refl _, hrun.append hpost⟩
    · exact ⟨[], List.nil_subset _, .of_free fun x hx =>
        h.free x ((List.takeWhile_prefix _).subset hx)⟩
  obtain ⟨nr, hsub, hlists⟩ := hlists
  rw [Fat32.findable_iff (hvisible ▸ hpre.append hlists)] at hm
  obtain ⟨x, hx, hsame⟩ := hm
  refine ⟨x, ?_, hsame⟩
  rcases List.mem_append.mp hx with hx | hx
  · exact List.mem_append_left _ hx
  · exact List.mem_append_right _ (hsub hx)

end

lemma found_of_deleted (h : Added d d' (lfns.map .long ++ [.short e]) pre run post tail)
    (hused : ∀ x ∈ pre, x.first ≠ 0) (h5 : first (.short e) = 0xE5) (hlfns : lfns = [] ∨
      name ≠ [] ∧ name.length ≤ 255 ∧ generateLfnEntries name 20 = some (lfns, fatName))
    (hpre : Lists pre np) (hpost : Lists (post.takeWhile isUsed) nq) (hm : Findable m d') :
    (∃ x ∈ np ++ nq, SameName m x) ∨ lfns ≠ [] ∧ SameName m (readBack name) := by
  have hshort : ∀ x ∈ lfns.map long ++ [.short e], x.first ≠ 0 := by
    intro x hx
    rcases List.mem_append.mp hx with hx | hx
    · obtain ⟨l, hl, rfl⟩ := List.mem_map.mp hx
      rcases hlfns with rfl | ⟨-, -, hgen⟩
      · exact nomatch hl
      · exact (generateLfnEntries_order hgen l hl).1
    · rw [List.mem_singleton.mp hx, h5]
      decide
  have hpostUsed : ∀ x ∈ post.takeWhile isUsed, x.first ≠ 0 := fun x hx =>
    isUsed_iff.mp (List.mem_takeWhile_imp hx)
  obtain ⟨e', hfound⟩ := hm
  rw [findInDir_takeWhile, h.takeWhile_after hused hshort] at hfound
  rcases hpre.found_append hused rfl (Nat.lt_succ_self _) hfound with
    ⟨x, hx, hsame⟩ | ⟨n, st, hn, hst, hrest⟩
  · exact .inl ⟨x, List.mem_append_left _ hx, hsame⟩
  -- the iterator comes to the new entries outside a long name
  obtain ⟨n, rfl⟩ : ∃ k, n = k + 1 := ⟨n - 1, by omega⟩
  rw [List.append_assoc, List.length_append, List.length_append] at hn
  rw [List.append_assoc, List.singleton_append] at hrest
  rcases hlfns with rfl | ⟨hne, hlen, hgen⟩
  · rw [List.map_nil, List.nil_append, findFrom_deleted h5] at hrest
    rcases hpost.found_gathered hpostUsed (by omega) hrest with ⟨x, hx, hsame⟩ | ⟨hgathered, -⟩
    · exact .inl ⟨x, List.mem_append_right _ hx, hsame⟩
    · omega
  · have hlong : findFrom m (n + 1) (post.takeWhile isUsed)
        ⟨bufferOf (readBack name), (readBack name).length, lfnChecksum fatName⟩ = .found e' := by
      rw [← hrest, findFrom, findFrom, dirIterNext_lfns hne hlen hgen, dirIterNext_deleted h5]
    rcases hpost.found_gathered hpostUsed (by omega) hlong with ⟨x, hx, hsame⟩ | ⟨-, hsame⟩
    · exact .inl ⟨x, List.mem_append_right _ hx, hsame⟩
    · rw [cString_bufferOf (fun c hc => ne_zero_of_mem_readBack hc)
        ((length_readBack_le name).trans hlen)] at hsame
      refine .inr ⟨?_, hsame⟩
      rintro rfl
      have hnum : numLfn name = 0 := by
        unfold generateLfnEntries at hgen
        split_ifs at hgen
        have := congrArg List.length (Prod.mk.inj (Option.some.inj hgen)).1
        simpa using this
      have := List.length_pos_iff.mpr hne
      unfold numLfn at hnum
      omega

end Added

lemma createFile_true {kmalloc grow : Bool} {stamp : ℕ × ℕ}
    (h : createFile g name kmalloc grow stamp d = some (true, d')) :
    ∃ lfns, newNames name = some (lfns, shortName name) ∧
      addEntries g grow (lfns.map .long ++ [.short (newShort .file (shortName name) 0 stamp)])
        g.totalClusters d = some (true, d') := by
  unfold createFile at h
  split at h
  · cases h
  next lfns fatName hnames =>
  split at h
  · obtain rfl := (newNames_eq hnames).1
    exact ⟨lfns, hnames, h⟩
  · cases h

/-- **A created file is found**, and every name from before, exactly when the name is readable and
the clusters before the first one with room have no unused slot. -/
theorem createFile_findable_iff {g : Geometry} {d d' : List (List DirEntry)} {name : List ℕ}
    {kmalloc grow : Bool} {stamp : ℕ × ℕ} (hd : (builtDirectory g).Reach d) (hstr : CString name)
    (hpos : 1 ≤ name.length) (hlen : name.length ≤ 13) (hnot : ¬ NameExists d name)
    (h : createFile g name kmalloc grow stamp d = some (true, d')) :
    (Findable name d' ∧ ∀ other, Findable other d → Findable other d') ↔
      Readable name ∧ UsedUpTo (slotsNeeded name) d := by
  have hne : name ≠ [] := List.length_pos_iff.mp hpos
  have horder := inOrder_of_reach hd
  obtain ⟨lfns, hnames, hadd⟩ := createFile_true h
  obtain ⟨-, hslots, hlong, hshort⟩ := newNames_eq hnames
  obtain ⟨pre, run, post, tail, hadded⟩ := added_of_addEntries horder (by simp) hadd
  have hused := hadded.used_iff
  rw [List.length_append, List.length_map, List.length_singleton, hslots] at hused
  obtain ⟨np, hpre⟩ := hadded.lists_pre
  obtain ⟨nall, hpostAll⟩ := hadded.lists_post
  obtain ⟨nq, nrest, rfl, hpost⟩ := hpostAll.takeWhile_isUsed
  have hold : ∀ x ∈ np ++ nq, ¬ SameName name x := by
    intro x hx hsame
    refine hnot ((hadded.nameExists_iff horder hpre hpostAll).mpr ⟨x, ?_, hsame⟩)
    rw [← List.append_assoc]
    exact List.mem_append_left _ hx
  rw [readable_iff hstr hne hlen, hused]
  constructor
  · rintro ⟨hfound, -⟩
    have hpreUsed : ∀ x ∈ pre, x.first ≠ 0 := by
      by_contra hunused
      obtain ⟨e, he⟩ := (hadded.findable_of_unused hunused).mp hfound
      exact hnot (nameExists_of_findInDir he)
    have h5 : (shortName name).headD 0 ≠ 0xE5 := by
      intro h5
      have hlfns : lfns = [] ∨ name ≠ [] ∧ name.length ≤ 255 ∧
          generateLfnEntries name 20 = some (lfns, generateBasisName name) := by
        cases hneeds : needsLfn name with
        | true => exact .inr ⟨hne, by omega, hlong hneeds⟩
        | false => exact .inl (hshort hneeds)
      rcases hadded.found_of_deleted hpreUsed h5 hlfns hpre hpost hfound with
        ⟨x, hx, hsame⟩ | ⟨hlfns, hsame⟩
      · exact hold x hx hsame
      · -- only an ASCII name is read back, and its short name does not begin with the mark
        have hneeds : needsLfn name = true := by
          by_contra hneeds
          exact hlfns (hshort (eq_false_of_ne_true hneeds))
        have := generateBasisName_head (ascii_of_sameName hstr hsame)
        rw [shortName, if_pos hneeds] at h5
        omega
    have hentry := isEntry_new hstr (by omega) hnames h5 .file 0 stamp
    obtain ⟨x, hx, hsame⟩ := (hadded.findable_iff hpreUsed hentry hpre hpost).mp hfound
    refine ⟨⟨h5, ?_⟩, hpreUsed⟩
    rcases List.mem_append.mp hx with hx | hx
    · exact absurd hsame (hold x (List.mem_append_left _ hx))
    · rcases List.mem_cons.mp hx with rfl | hx
      · exact hsame
      · exact absurd hsame (hold x (List.mem_append_right _ hx))
  · rintro ⟨⟨h5, hstored⟩, hpreUsed⟩
    have hentry := isEntry_new hstr (by omega) hnames h5 .file 0 stamp
    refine ⟨(hadded.findable_iff hpreUsed hentry hpre hpost).mpr ⟨_, ?_, hstored⟩, fun other ho =>
      ?_⟩
    · exact List.mem_append_right _ (.head _)
    · obtain ⟨x, hx, hsame⟩ := hadded.findable_before hpreUsed hpre hpost ho
      refine (hadded.findable_iff hpreUsed hentry hpre hpost).mpr ⟨x, ?_, hsame⟩
      rcases List.mem_append.mp hx with hx | hx
      · exact List.mem_append_left _ hx
      · exact List.mem_append_right _ (.tail _ hx)

/-- A directory in which a file was deleted before another one. -/
def usedDirectory : List (List DirEntry) :=
  ((deleteFile smallGeometry (bytesOf "draft.txt") true 1
    (withFile "readme.txt" (withFile "draft.txt" [emptyCluster smallGeometry]))).map Prod.snd).getD
    []

lemma reach_usedDirectory : (builtDirectory smallGeometry).Reach usedDirectory := by
  have hplain : ∀ name, CString (bytesOf name) ∧ (bytesOf name).length ≤ 255 ∧
      (shortName (bytesOf name)).headD 0 ≠ 0xE5 →
      (DirOp.createFile (bytesOf name) true true (0, 0)).Plain := by
    rintro name h _ ⟨⟩
    exact h
  have hinit : (builtDirectory smallGeometry).Reach [emptyCluster smallGeometry] := .init (.inl rfl)
  have hdraft : (builtDirectory smallGeometry).Reach
      (withFile "draft.txt" [emptyCluster smallGeometry]) :=
    hinit.step (hplain "draft.txt" (by decide)) ⟨true, by decide +kernel⟩
  have hreadme : (builtDirectory smallGeometry).Reach
      (withFile "readme.txt" (withFile "draft.txt" [emptyCluster smallGeometry])) :=
    hdraft.step (hplain "readme.txt" (by decide)) ⟨true, by decide +kernel⟩
  exact hreadme.step (a := .deleteFile (bytesOf "draft.txt") true 1) (by rintro _ ⟨⟩)
    ⟨true, by decide +kernel⟩

/-- The new file takes the slots of the deleted one, and the other file is found as before. -/
theorem createFile_findable_notes :
    ∃ d', createFile smallGeometry (bytesOf "notes.txt") true true (0, 0)
        usedDirectory = some (true, d') ∧ Findable (bytesOf "notes.txt") d' ∧
      Findable (bytesOf "readme.txt") d' ∧ ∀ other, Findable other usedDirectory →
      Findable other d' := by
  have hcreate : createFile smallGeometry (bytesOf "notes.txt") true true (0, 0) usedDirectory =
      some (true, withFile "notes.txt" usedDirectory) := by decide +kernel
  have hother : Findable (bytesOf "readme.txt") usedDirectory := by decide +kernel
  obtain ⟨hnew, hold⟩ := (createFile_findable_iff reach_usedDirectory (by decide) (by decide)
    (by decide) (by decide +kernel) hcreate).mpr ⟨by decide, by decide +kernel⟩
  exact ⟨_, hcreate, hnew, hold _ hother, hold⟩

/-- A name of 182 letters. -/
def manyLetters : List ℕ := List.replicate 182 'a'.toNat

/-- A directory with one file, whose entries take 15 slots. -/
def almostFull : List (List DirEntry) :=
  ((createFile smallGeometry manyLetters true true (0, 0) [emptyCluster smallGeometry]).map
    Prod.snd).getD []

/-- The next long name is put behind a slot that was never used, and not found. -/
theorem create_not_found : (builtDirectory smallGeometry).Reach almostFull ∧
    ¬ NameExists almostFull (bytesOf "notes.txt") ∧
    ∃ d', createFile smallGeometry (bytesOf "notes.txt") true true (0, 0) almostFull =
        some (true, d') ∧ findInDir (bytesOf "notes.txt") d' = .notFound := by
  have hplain : (DirOp.createFile manyLetters true true (0, 0)).Plain := by
    intro name hname
    cases hname
    decide +kernel
  have hreach : (builtDirectory smallGeometry).Reach almostFull :=
    .step (.init (.inl rfl)) hplain
      ⟨true, by decide +kernel⟩
  exact ⟨hreach, by decide +kernel, withFile "notes.txt"
    almostFull, by decide +kernel, by decide +kernel⟩

end FrostByte.Fat32
