import FrostByte.Vfs.Resolve

/-!
# Making, reading and deleting symbolic links

Symbolic links are in the initramfs only. `vfs_symlink` makes one, or turns another node into one.
`vfs_readlink` and `vfs_unlink` look up their path with `vfs_resolve_path`, which never gives a
link: the first one fails, and the second one deletes what the link leads to.

## Main definitions

* `Ramfs`, `VfsState` — the initramfs, and the mounts around it.
* `symlink`, `readlink`, `unlink` — the calls.
* `ReadsLink`, `UnlinksLink` — what they should do with a link that was made.

## Main results

* `symlink_spec` — what `vfs_symlink` makes.
* `linkWorks_iff` — reading and deleting a link never work.
* `unlink_deletes_file` — a file that is deleted by its link.
-/

namespace FrostByte.Vfs

open Function

/-! ## The initramfs -/

/-- What a node of the initramfs is. -/
inductive Kind
  | file
  | directory
  | symlink
  deriving DecidableEq

/-- `initramfs_node_t`: `data` is the target of a link; contents are left out. -/
structure Inode where
  name : List ℕ
  kind : Kind
  data : Option (List ℕ)
  parent : Option ℕ
  children : List ℕ
  deriving DecidableEq

/-- The nodes by number, 0 being the root, and a number for a new one. -/
structure Ramfs where
  node : ℕ → Option Inode
  next : ℕ

namespace Ramfs

variable (r : Ramfs)

/-- The child of a directory with a name. -/
def findChild (d : ℕ) (name : List ℕ) : Option ℕ :=
  (r.node d).elim none fun dir =>
    if dir.kind = .directory then dir.children.find? fun c => (r.node c).map (·.name) = some name
    else none

/-- One node replaced. -/
def set (i : ℕ) (x : Inode) : Ramfs := { r with node := Function.update r.node i (some x) }

/-- A new node at the head of a directory. -/
def insert (d : ℕ) (dir x : Inode) : Ramfs where
  node :=
    Function.update
      (Function.update r.node d (some { dir with children := r.next :: dir.children }))
    r.next (some x)
  next := r.next + 1

/-- `irfs_symlink`. A node of that name becomes a link. -/
def symlink (d : ℕ) (name target : List ℕ) (nodeMemory dataMemory : Bool) : ℤ × Ramfs :=
  let data := if dataMemory then some target else none
  let result := if dataMemory then 0 else -1
  (r.node d).elim (-1, r) fun dir =>
    if dir.kind = .directory then
      (r.findChild d name).elim
        (if nodeMemory then
          (result, r.insert d dir
            { name := name.take 63, kind := .symlink, data := data, parent := some d, children :=
              [] })
        else (-1, r))
        fun c => (r.node c).elim (-1, r) fun x =>
          (result, r.set c { x with kind := .symlink, data := data })
    else (-1, r)

/-- `irfs_readlink`: the text, or `none` for -1. -/
def readlink (i bufsize : ℕ) : Option (List ℕ) :=
  (r.node i).elim none fun x =>
    if bufsize ≠ 0 ∧ x.kind = .symlink then x.data.map (·.take (bufsize - 1)) else none

/-- `irfs_unlink`, for files and links alike. -/
def unlink (i : ℕ) : ℤ × Ramfs :=
  (r.node i).elim (-1, r) fun x =>
    if x.kind = .directory then (-1, r)
    else x.parent.elim (-1, r) fun p => (r.node p).elim (-1, r) fun y =>
      (0, { r with
        node :=
        Function.update (Function.update r.node p (some { y with children := y.children.erase i }))
          i none })

/-- The root and a directory are not in themselves; names have at most 63 characters. -/
structure WellFormed : Prop where
  root : (r.node 0).map (·.kind) = some .directory
  notMem : ∀ i x, r.node i = some x → 0 ∉ x.children
  irrefl : ∀ i x, r.node i = some x → i ∉ x.children
  short : ∀ i x, r.node i = some x → x.name.length ≤ 63
  free : r.node r.next = none

end Ramfs

/-! ## The virtual file system -/

variable {O : Type*}

/-- A node of the initramfs, or of another file system. -/
inductive Node (O : Type*)
  | ram (kind : Kind) (i : ℕ)
  | other (o : O)
  deriving DecidableEq

/-- The initramfs and the other file systems, which have no links. -/
structure VfsState (O : Type*) where
  ram : Ramfs
  mounts : List (Mount (Node O))
  finddir : O → List ℕ → Option O
  mounts_normal : ∀ m ∈ mounts, IsNormal m.point
  mounts_root : ∀ m ∈ mounts, m.root = .ram .directory 0 ∨ ∃ o, m.root = .other o

namespace VfsState

/-- The file systems as `vfs_resolve_path` sees them. -/
def tree (s : VfsState O) : Tree (Node O) where
  mounts := s.mounts
  root := some (.ram .directory 0)
  finddir
    | .ram _ i, name => (s.ram.findChild i name).bind fun c =>
      (s.ram.node c).map fun x => .ram x.kind c
    | .other o, name => (s.finddir o name).map .other
  isLink
    | .ram kind _ => kind = .symlink
    | .other _ => false
  readlink
    | .ram _ i => (s.ram.node i).bind fun x => if x.kind = .symlink then x.data else none
    | .other _ => none
  mounts_normal := s.mounts_normal
  root_isLink n h := by
    cases h
    rfl
  mounts_isLink m hm := by
    rcases s.mounts_root m hm with h | ⟨o, h⟩
    · rw [h]
      rfl
    · rw [h]

end VfsState

/-- What is behind the last slash. -/
def baseName (path : List ℕ) : List ℕ := (path.reverse.takeWhile (· ≠ slash)).reverse

/-- Which allocations of `vfs_symlink` succeed. -/
structure Memory where
  paths : Bool
  node : Bool
  data : Bool

/-- `vfs_symlink`. Only the initramfs has the operation. -/
def symlink (s : VfsState O) (target linkpath : List ℕ) (memory : Memory) : ℤ × VfsState O :=
  (if memory.paths then parentPath linkpath else none).elim (-1, s) fun parentPath =>
    (resolvePath s.tree parentPath).elim (-1, s) fun
      | .ram _ d =>
        let r := s.ram.symlink d (baseName linkpath) target memory.node memory.data
        (r.1, { s with ram := r.2 })
      | .other _ => (-1, s)

/-- `vfs_readlink`: the text, or `none` for -1. -/
def readlink (s : VfsState O) (path : List ℕ) (bufsize : ℕ) : Option (List ℕ) :=
  if bufsize = 0 then none
  else
    (resolvePath s.tree path).elim none fun
      | .ram .symlink i => s.ram.readlink i bufsize
      | _ => none

/-- `vfs_unlink`. `none` is the call of another file system, or of the initramfs with a node that is
not its own. -/
def unlink (s : VfsState O) (path : List ℕ) : Option (ℤ × VfsState O) :=
  (resolvePath s.tree path).elim (some (-1, s)) fun node =>
    (parentPath path).elim (some (-1, s)) fun parentPath =>
      (resolvePath s.tree parentPath).elim (some (-1, s)) fun parent =>
        match parent, node with
        | .ram _ _, .ram _ i =>
          let r := s.ram.unlink i
          some (r.1, { s with ram := r.2 })
        | _, _ => none

/-! ## What the functions should do -/

/-- The node of a link that was made at a path. -/
def MadeLink (s s' : VfsState O) (path : List ℕ) (l : ℕ) : Prop :=
  ∃ parent kind d, parentPath path = some parent ∧ resolvePath s.tree parent = some (.ram kind d) ∧
    s'.ram.findChild d ((baseName path).take 63) = some l

/-- A link that was made can be read. -/
def ReadsLink (s : VfsState O) (target path : List ℕ) (memory : Memory) : Prop :=
  ∀ s', symlink s target path memory = (0, s') →
    ∀ bufsize > 0, readlink s' path bufsize = some (target.take (bufsize - 1))

/-- Deleting a link deletes its node, and changes nothing else. -/
def UnlinksLink (s : VfsState O) (target path : List ℕ) (memory : Memory) : Prop :=
  ∀ s', symlink s target path memory = (0, s') → ∀ l, MadeLink s s' path l →
    ∃ s'', unlink s' path = some (0, s'') ∧ s''.ram.node l = none ∧
      ∀ i ≠ l, s''.ram.node i =
        (s'.ram.node i).map fun x => { x with children := x.children.filter (· ≠ l) }

/-- The parent of the path is a directory of the initramfs, and there is memory. -/
def Linkable (s : VfsState O) (path : List ℕ) (memory : Memory) : Prop :=
  memory.paths = true ∧ memory.data = true ∧
    ∃ parent kind d, parentPath path = some parent ∧
    resolvePath s.tree parent = some (.ram kind d) ∧
      (s.ram.node d).map (·.kind) = some .directory ∧
      (memory.node = true ∨ s.ram.findChild d (baseName path) ≠ none)

/-! ## Making a link -/

section

variable {r r' : Ramfs} {d i l : ℕ} {name target : List ℕ} {nodeMemory dataMemory : Bool}
    {x : Inode}

namespace Ramfs

lemma findChild_spec (h : r.findChild d name = some i) :
    ∃ dir x, r.node d = some dir ∧ dir.kind = .directory ∧ i ∈ dir.children ∧ r.node i = some x ∧
      x.name = name := by
  unfold findChild at h
  cases hd : r.node d with
  | none =>
    rw [hd] at h
    cases h
  | some dir =>
    rw [hd, Option.elim_some] at h
    split_ifs at h with hkind
    have hname : (r.node i).map (·.name) = some name := by simpa using List.find?_some h
    obtain ⟨x, hx, hxname⟩ := Option.map_eq_some_iff.1 hname
    exact ⟨dir, x, rfl, hkind, List.mem_of_find?_eq_some h, hx, hxname⟩

lemma symlink_eq_zero_iff : (r.symlink d name target nodeMemory dataMemory).1 = 0 ↔
    dataMemory = true ∧ (r.node d).map (·.kind) = some .directory ∧
      (nodeMemory = true ∨ r.findChild d name ≠ none) := by
  unfold symlink
  cases hd : r.node d with
  | none => simp
  | some dir =>
    rw [Option.elim_some, Option.map_some]
    by_cases hkind : dir.kind = .directory
    · cases hchild : r.findChild d name with
      | none =>
        cases nodeMemory <;> cases dataMemory <;> simp [hkind]
      | some c =>
        obtain ⟨-, x, -, -, -, hx, -⟩ := findChild_spec hchild
        rw [Option.elim_some, hx]
        cases dataMemory <;> simp [hkind]
    · simp [hkind]

/-- **The link that `irfs_symlink` makes** is in the directory. -/
lemma symlink_spec (hr : r.WellFormed)
    (h : r.symlink d name target nodeMemory dataMemory = (0, r')) :
    (∃ l x, r'.findChild d (name.take 63) = some l ∧ r'.node l = some x ∧ x.kind = .symlink ∧
      x.data = some target) ∧ (r'.node 0).map (·.kind) = some .directory := by
  obtain ⟨hdata, hdir, hmem⟩ := symlink_eq_zero_iff.1 (congrArg Prod.fst h)
  obtain ⟨dir, hd, hkind⟩ := Option.map_eq_some_iff.1 hdir
  unfold symlink at h
  rw [hd, Option.elim_some, if_pos hkind, hdata] at h
  have hne : d ≠ r.next := fun heq => by
    have := hr.free
    rw [← heq, hd] at this
    cases this
  have hroot := hr.root
  cases hchild : r.findChild d name with
  | none =>
    rw [hchild] at h hmem
    have hnode : nodeMemory = true := hmem.resolve_right fun h => h rfl
    rw [hnode, if_pos rfl, if_pos rfl] at h
    cases h
    have h0 : (0 : ℕ) ≠ r.next := fun heq => by
      rw [heq, hr.free] at hroot
      cases hroot
    refine ⟨⟨r.next, _, ?_, update_self .., rfl, rfl⟩, ?_⟩
    · unfold findChild insert
      dsimp only
      rw [update_of_ne hne, update_self, Option.elim_some, if_pos hkind]
      simp [update_self]
    · show (update (update r.node d _) r.next _ 0).map _ = _
      rw [update_of_ne h0]
      by_cases hd0 : 0 = d
      · rw [hd0, update_self]
        exact congrArg some hkind
      · rw [update_of_ne hd0]
        exact hroot
  | some c =>
    obtain ⟨dir', x, hd', -, hc, hx, hname⟩ := findChild_spec hchild
    obtain rfl : dir = dir' := Option.some.inj (hd.symm.trans hd')
    rw [hchild, Option.elim_some, hx] at h
    cases h
    have hcd : d ≠ c := fun heq => hr.irrefl d dir hd (heq ▸ hc)
    have hc0 : 0 ≠ c := fun heq => hr.notMem d dir hd (heq ▸ hc)
    have hshort : name.take 63 = name := List.take_of_length_le (hname ▸ hr.short c x hx)
    refine ⟨⟨c, _, ?_, update_self .., rfl, rfl⟩, ?_⟩
    · have hnames : ∀ i, (update r.node c
          (some { x with kind := .symlink, data := some target }) i).map (·.name) =
          (r.node i).map (·.name) := by
        intro i
        by_cases hi : i = c
        · rw [hi, update_self, hx]
          rfl
        · rw [update_of_ne hi]
      unfold findChild at hchild ⊢
      unfold set
      dsimp only
      rw [hd, Option.elim_some, if_pos hkind] at hchild
      rw [update_of_ne hcd, hd, Option.elim_some, if_pos hkind, hshort]
      simp only [if_true, hnames]
      exact hchild
    · show (update r.node c _ 0).map _ = _
      rw [update_of_ne hc0]
      exact hroot

end Ramfs

end

/-! ## Reading and deleting it -/

section

variable {s s' : VfsState O} {target path : List ℕ} {memory : Memory} {bufsize : ℕ}

lemma symlink_eq_zero_iff (target : List ℕ) :
    (symlink s target path memory).1 = 0 ↔ Linkable s path memory := by
  unfold symlink Linkable
  by_cases hpaths : memory.paths = true
  · rw [if_pos hpaths]
    cases hparent : parentPath path with
    | none => simp
    | some parent =>
      rw [Option.elim_some]
      cases hnode : resolvePath s.tree parent with
      | none => simp [hnode]
      | some node =>
        rw [Option.elim_some]
        cases node with
        | other o => simp [hnode]
        | ram kind d =>
          rw [Ramfs.symlink_eq_zero_iff]
          constructor
          · rintro ⟨hdata, hdir, hmem⟩
            exact ⟨hpaths, hdata, parent, kind, d, rfl, hnode, hdir, hmem⟩
          · rintro ⟨-, hdata, parent', kind', d', heq, hnode', hdir, hmem⟩
            cases heq
            rw [hnode] at hnode'
            obtain ⟨rfl, rfl⟩ := Node.ram.inj (Option.some.inj hnode')
            exact ⟨hdata, hdir, hmem⟩
  · simp [hpaths]

/-- `vfs_symlink` that succeeds has made a link in the directory of the path, or turned the node there
into one. -/
lemma symlink_spec (hs : s.ram.WellFormed) (h : symlink s target path memory = (0, s')) :
    (∃ l x, MadeLink s s' path l ∧ s'.ram.node l = some x ∧ x.kind = .symlink) ∧
      (s'.ram.node 0).map (·.kind) = some .directory := by
  obtain ⟨hpaths, -, parent, kind, d, hparent, hnode, -⟩ :=
    (symlink_eq_zero_iff target).1 (congrArg Prod.fst h)
  unfold symlink at h
  rw [if_pos hpaths, hparent, Option.elim_some, hnode] at h
  obtain ⟨hzero, rfl⟩ := Prod.mk.inj h
  have hram : s.ram.symlink d (baseName path) target memory.node memory.data =
      (0, (s.ram.symlink d (baseName path) target memory.node memory.data).2) := Prod.ext hzero rfl
  obtain ⟨⟨l, x, hfind, hx, hkind, -⟩, hroot⟩ := Ramfs.symlink_spec hs hram
  exact ⟨⟨l, x, ⟨parent, kind, d, hparent, hnode, hfind⟩, hx, hkind⟩, hroot⟩

/-- **No link can be read.** -/
lemma readlink_eq_none : readlink s path bufsize = none := by
  unfold readlink
  split_ifs
  · rfl
  cases hnode : resolvePath s.tree path with
  | none => rfl
  | some node =>
    have hlink := resolve_isLink hnode
    cases node with
    | other o => rfl
    | ram kind i =>
      cases kind with
      | file => rfl
      | directory => rfl
      | symlink => simp [VfsState.tree] at hlink

lemma walk_node {N : Type*} {T : Tree N} {nf : Bool} {n m : N} {before : List ℕ}
    {cs : List (List ℕ)}
    (h : walk T nf n before cs = .node m) : m = n ∨ ∃ u c, T.finddir u c = some m := by
  induction cs generalizing n before with
  | nil => exact .inl (Walk.node.inj h).symm
  | cons c cs ih =>
    rw [walk] at h
    split_ifs at h with hc
    · exact .inl (Walk.node.inj h).symm
    · cases hchild : T.finddir n (c.take 63) with
      | none =>
        rw [hchild] at h
        cases h
      | some child =>
        rw [hchild, Option.elim_some] at h
        split_ifs at h
        rcases ih h with rfl | hfound
        · exact .inr ⟨n, _, hchild⟩
        · exact .inr hfound

lemma resolve_kind (hroot : (s.ram.node 0).map (·.kind) = some .directory) {k i : ℕ} {kind : Kind}
    (h : resolve s.tree k false path = some (.ram kind i)) :
    (s.ram.node i).map (·.kind) = some kind := by
  have hstart : ∀ {path : List ℕ} {t : Node O × ℕ}, start s.tree path = some t →
      t.1 = .ram .directory 0 ∨ ∃ o, t.1 = .other o := by
    intro path t ht
    unfold start at ht
    cases hfind : findMount s.tree.mounts path with
    | none =>
      rw [hfind] at ht
      cases ht
      exact .inl rfl
    | some m =>
      rw [hfind] at ht
      cases ht
      exact s.mounts_root m (findMount_spec hfind).1
  have hwalk : ∀ {path : List ℕ} {t : Node O × ℕ}, start s.tree path = some t →
      walk s.tree false t.1 (path.take t.2) ((path.drop t.2).splitOn slash) = .node (.ram kind i) →
      (s.ram.node i).map (·.kind) = some kind := by
    intro path t ht hnode
    rcases walk_node hnode with heq | ⟨u, c, hfound⟩
    · rcases hstart ht with h0 | ⟨o, ho⟩
      · obtain ⟨rfl, rfl⟩ := Node.ram.inj (heq.trans h0)
        exact hroot
      · exact absurd (heq.trans ho) nofun
    · cases u with
      | other o =>
        obtain ⟨o', -, heq⟩ := Option.map_eq_some_iff.1 hfound
        cases heq
      | ram kind' j =>
        obtain ⟨c', -, hnode⟩ := Option.bind_eq_some_iff.1 hfound
        obtain ⟨x, hx, heq⟩ := Option.map_eq_some_iff.1 hnode
        obtain ⟨rfl, rfl⟩ := Node.ram.inj heq
        rw [hx]
        rfl
  induction k generalizing path with
  | zero =>
    rcases resolve_cases h with ⟨t, ht, hnode⟩ | ⟨j, norm, hk, -⟩
    · exact hwalk ht hnode
    · cases hk
  | succ k ih =>
    rcases resolve_cases h with ⟨t, ht, hnode⟩ | ⟨j, norm, hk, hnorm⟩
    · exact hwalk ht hnode
    · obtain rfl := Nat.succ.inj hk
      exact ih hnorm

lemma Ramfs.unlink_node {r : Ramfs} {i l : ℕ} (hne : l ≠ i) (hl : r.node l ≠ none) :
    (r.unlink i).2.node l ≠ none := by
  unfold Ramfs.unlink
  cases r.node i with
  | none => exact hl
  | some x =>
    rw [Option.elim_some]
    split_ifs with hkind
    · exact hl
    cases x.parent with
    | none => exact hl
    | some p =>
      rw [Option.elim_some]
      cases r.node p with
      | none => exact hl
      | some y =>
        show update (update r.node p _) i none l ≠ none
        rw [update_of_ne hne]
        by_cases hp : l = p
        · rw [hp, update_self]
          exact nofun
        · rw [update_of_ne hp]
          exact hl

/-- **Deleting a link does not delete it.** -/
lemma unlink_keeps (hroot : (s.ram.node 0).map (·.kind) = some .directory) {l : ℕ} {x : Inode}
    (hx : s.ram.node l = some x) (hkind : x.kind = .symlink) {res : ℤ}
    (h : unlink s path = some (res, s')) : s'.ram.node l ≠ none := by
  have hl : s.ram.node l ≠ none := by rw [hx]; exact nofun
  have hsame : ∀ {res' : ℤ}, some (res', s) = some (res, s') → s'.ram.node l ≠ none := by
    intro res' heq
    cases heq
    exact hl
  unfold unlink at h
  cases hnode : resolvePath s.tree path with
  | none =>
    rw [hnode] at h
    exact hsame h
  | some node =>
    rw [hnode, Option.elim_some] at h
    cases hparent : parentPath path with
    | none =>
      rw [hparent] at h
      exact hsame h
    | some parent =>
      rw [hparent, Option.elim_some] at h
      cases hparentNode : resolvePath s.tree parent with
      | none =>
        rw [hparentNode] at h
        exact hsame h
      | some parentNode =>
        rw [hparentNode] at h
        cases parentNode with
        | other o => cases h
        | ram kind' d =>
          cases node with
          | other o => cases h
          | ram kind i =>
            cases h
            refine Ramfs.unlink_node (fun heq => ?_) hl
            -- the node at the end of the path is no link
            have hk := resolve_kind hroot hnode
            have hlink := resolve_isLink hnode
            rw [← heq, hx, Option.map_some, hkind] at hk
            cases hk
            simp [VfsState.tree] at hlink

/-- **Reading and deleting a link never work**: both are right only where no link can be made. -/
theorem linkWorks_iff (hs : s.ram.WellFormed) (target path : List ℕ) (memory : Memory) :
    (ReadsLink s target path memory ↔ ¬ Linkable s path memory) ∧
      (UnlinksLink s target path memory ↔ ¬ Linkable s path memory) := by
  have hfail : ¬ Linkable s path memory → ∀ s', symlink s target path memory ≠ (0, s') :=
    fun hnot s' h => hnot ((symlink_eq_zero_iff target).1 (congrArg Prod.fst h))
  have hmade : Linkable s path memory → ∃ s', symlink s target path memory = (0, s') :=
    fun hlink => ⟨_, Prod.ext ((symlink_eq_zero_iff target).2 hlink) rfl⟩
  refine ⟨⟨fun h hlink => ?_, fun hnot s' => (hfail hnot s').elim⟩,
    fun h hlink => ?_, fun hnot s' => (hfail hnot s').elim⟩
  · obtain ⟨s', hs'⟩ := hmade hlink
    have := h s' hs' 1 Nat.one_pos
    rw [readlink_eq_none] at this
    cases this
  · obtain ⟨s', hs'⟩ := hmade hlink
    obtain ⟨⟨l, x, hlink', hx, hkind⟩, hroot⟩ := symlink_spec hs hs'
    obtain ⟨s'', hunlink, hgone, -⟩ := h s' hs' l hlink'
    exact unlink_keeps hroot hx hkind hunlink hgone

end

/-! ## Examples -/

/-- The root directory with the file `f`. -/
def fileTree : VfsState Empty where
  ram :=
    { node := fun i =>
        if i = 0 then some ⟨text "/", .directory, none, none, [1]⟩
        else if i = 1 then some ⟨text "f", .file, none, some 0, []⟩
        else none
      next := 2 }
  mounts := []
  finddir _ _ := none
  mounts_normal := nofun
  mounts_root := nofun

lemma fileTree_wellFormed : fileTree.ram.WellFormed := by
  have hnode : ∀ i x, fileTree.ram.node i = some x →
      i = 0 ∧ x = ⟨text "/", .directory, none, none, [1]⟩ ∨
        i = 1 ∧ x = ⟨text "f", .file, none, some 0, []⟩ := by
    intro i x hx
    have hx : (if i = 0 then some (Inode.mk (text "/") .directory none none [1])
        else if i = 1 then some ⟨text "f", .file, none, some 0, []⟩ else none) = some x := hx
    split_ifs at hx with h0 h1
    · exact .inl ⟨h0, (Option.some.inj hx).symm⟩
    · exact .inr ⟨h1, (Option.some.inj hx).symm⟩
  refine ⟨rfl, fun i x hx => ?_, fun i x hx => ?_, fun i x hx => ?_, rfl⟩ <;>
    rcases hnode i x hx with ⟨rfl, rfl⟩ | ⟨rfl, rfl⟩ <;> decide

/-- No link can be made below a file. -/
theorem linkWorks_below_file : ReadsLink fileTree (text "/f") (text "/f/l") ⟨true, true, true⟩ ∧
    UnlinksLink fileTree (text "/f") (text "/f/l") ⟨true, true, true⟩ := by
  have hnot : ¬ Linkable fileTree (text "/f/l") ⟨true, true, true⟩ := fun hlink =>
    absurd ((symlink_eq_zero_iff (text "/f")).2 hlink) (by decide +kernel)
  have h := linkWorks_iff fileTree_wellFormed (text "/f") (text "/f/l") ⟨true, true, true⟩
  exact ⟨h.1.2 hnot, h.2.2 hnot⟩

/-- A link to a file cannot be read, and deleting it deletes the file. -/
theorem unlink_deletes_file : (symlink fileTree (text "/f") (text "/l") ⟨true, true, true⟩).1 = 0 ∧
    readlink (symlink fileTree (text "/f") (text "/l") ⟨true, true, true⟩).2 (text "/l") 64 = none ∧
    (unlink (symlink fileTree (text "/f") (text "/l") ⟨true, true, true⟩).2 (text "/l")).map
      (fun r => (r.1, r.2.ram.node 1, r.2.ram.node 2)) =
      some (0, none, some ⟨text "l", .symlink, some (text "/f"), some 0, []⟩) := by
  decide +kernel

end FrostByte.Vfs
