import Mathlib.Data.List.Induction
import FrostByte.Fat.LongName

/-!
# Short names read back

A name for which `fat32_needs_lfn` is false is stored in the eleven bytes of the short entry alone.
The bytes do not have the dot, so `fat32_83_to_name` gives the name back unless the dot is its last
character.

## Main definitions

* `Unchanged` — names that the eleven bytes keep.

## Main results

* `shortToName_nameTo83` — the round trip through the eleven bytes.
-/

namespace FrostByte.Fat32

/-- Bytes without an end of the string. -/
def CString (name : List ℕ) : Prop := ∀ c ∈ name, 0 < c ∧ c < 256

instance (name : List ℕ) : Decidable (CString name) :=
  inferInstanceAs (Decidable (∀ c ∈ name, 0 < c ∧ c < 256))

/-- The character is no dot, no letter in lower case and no space. -/
def Unchanged (c : ℕ) : Prop :=
  c ≠ '.'.toNat ∧ ¬ ('a'.toNat ≤ c ∧ c ≤ 'z'.toNat) ∧ c ≠ ' '.toNat

variable {name base ext : List ℕ}

/-! ## Names without long-name entries -/

variable {cs : List ℕ}

lemma needsLfnFrom_true {beforeDot afterDot : ℕ}
    (h : needsLfnFrom true beforeDot afterDot cs = false) :
    (∀ c ∈ cs, Unchanged c) ∧ beforeDot ≤ 8 ∧ afterDot + cs.length ≤ 3 := by
  induction cs generalizing afterDot with
  | nil =>
    rw [needsLfnFrom, Bool.or_eq_false_iff, decide_eq_false_iff_not, decide_eq_false_iff_not] at h
    exact ⟨nofun, not_lt.mp h.1, not_lt.mp h.2⟩
  | cons c cs ih =>
    rw [needsLfnFrom] at h
    by_cases hdot : c = '.'.toNat
    · rw [if_pos hdot] at h
      cases h
    rw [if_neg hdot, if_pos rfl] at h
    split_ifs at h with hlower hspace
    obtain ⟨hcs, hbefore, hafter⟩ := ih h
    refine ⟨List.forall_mem_cons.mpr ⟨⟨hdot, hlower, hspace⟩, hcs⟩, hbefore, ?_⟩
    rw [List.length_cons]
    omega

lemma needsLfnFrom_false {beforeDot : ℕ} (h : needsLfnFrom false beforeDot 0 cs = false) :
    ∃ base, (∀ c ∈ base, Unchanged c) ∧ beforeDot + base.length ≤ 8 ∧
      (cs = base ∨ ∃ ext, (∀ c ∈ ext, Unchanged c) ∧ ext.length ≤ 3 ∧
        cs = base ++ '.'.toNat :: ext) := by
  induction cs generalizing beforeDot with
  | nil =>
    rw [needsLfnFrom, Bool.or_eq_false_iff, decide_eq_false_iff_not] at h
    exact ⟨[], nofun, not_lt.mp h.1, .inl rfl⟩
  | cons c cs ih =>
    rw [needsLfnFrom] at h
    by_cases hdot : c = '.'.toNat
    · rw [if_pos hdot] at h
      obtain ⟨hext, hbefore, hlen⟩ := needsLfnFrom_true h
      rw [Nat.zero_add] at hlen
      exact ⟨[], nofun, hbefore, .inr ⟨cs, hext, hlen, by rw [hdot, List.nil_append]⟩⟩
    · rw [if_neg hdot, if_neg Bool.false_ne_true] at h
      split_ifs at h with hlower hspace
      obtain ⟨base, hbase, hlen, hcs⟩ := ih h
      refine ⟨c :: base, List.forall_mem_cons.mpr ⟨⟨hdot, hlower, hspace⟩, hbase⟩, ?_, ?_⟩
      · rw [List.length_cons]
        omega
      · rcases hcs with rfl | ⟨ext, hext, hext3, rfl⟩
        · exact .inl rfl
        · exact .inr ⟨ext, hext, hext3, rfl⟩

/-! ## The eleven bytes -/

lemma Unchanged.toUpper {c : ℕ} (h : Unchanged c) : toUpper c = c := if_neg h.2.1

lemma map_toUpper (h : ∀ c ∈ cs, Unchanged c) : cs.map toUpper = cs := by
  conv_rhs => rw [← List.map_id cs]
  exact List.map_congr_left fun c hc => (h c hc).toUpper

lemma field_eq {n : ℕ} (h : cs.length ≤ n) :
    field n cs = cs ++ List.replicate (n - cs.length) ' '.toNat := by
  rw [field, List.take_append, List.take_of_length_le h, List.take_replicate,
    min_eq_left (Nat.sub_le _ _)]

lemma length_field (n : ℕ) (cs : List ℕ) : (field n cs).length = n := by
  rw [field, List.length_take, List.length_append, List.length_replicate]
  omega

lemma filter_field {n : ℕ} (h : cs.length ≤ n) (hcs : ∀ c ∈ cs, Unchanged c) :
    (field n cs).filter (· ≠ ' '.toNat) = cs := by
  rw [field_eq h, List.filter_append, List.filter_eq_self.mpr, List.filter_eq_nil_iff.mpr,
    List.append_nil]
  · intro c hc
    rw [List.eq_of_mem_replicate hc]
    decide
  · intro c hc
    simpa using (hcs c hc).2.2

lemma splitExt_base (h : ∀ c ∈ base, Unchanged c) : splitExt base = (base, none) := by
  have hdot : '.'.toNat ∉ base := fun hmem => (h _ hmem).1 rfl
  exact if_neg hdot

lemma splitExt_ext (h : '.'.toNat ∉ ext) :
    splitExt (base ++ '.'.toNat :: ext) = (base, some ext) := by
  have hchars : ∀ c ∈ ext.reverse, decide (c ≠ '.'.toNat) = true := by
    intro c hc
    refine decide_eq_true ?_
    rintro rfl
    exact h (List.mem_reverse.mp hc)
  have hext : (base ++ '.'.toNat :: ext).reverse.takeWhile (· ≠ '.'.toNat) = ext.reverse := by
    rw [List.reverse_append, List.reverse_cons, List.append_assoc,
      List.takeWhile_append_of_pos hchars, List.singleton_append,
      List.takeWhile_cons_of_neg (by simp), List.append_nil]
  have hmem : '.'.toNat ∈ base ++ '.'.toNat :: ext :=
    List.mem_append_right _ (.head _)
  rw [splitExt, if_pos hmem, hext, List.reverse_reverse, List.length_append, List.length_cons]
  rw [show base.length + (ext.length + 1) - ext.length - 1 = base.length by omega, List.take_left]

section

variable (hbase : ∀ c ∈ base, Unchanged c) (hlen : base.length ≤ 8)

include hbase hlen

lemma shortToName_fields
    (hext : ∀ c ∈ ext, Unchanged c) (hlen3 : ext.length ≤ 3) (h0 : ∀ c ∈ base ++ ext, c ≠ 0) :
    shortToName (field 8 base ++ field 3 ext) = base ++ if ext = [] then [] else '.'.toNat ::
    ext := by
  have hsecond : (field 8 base ++ field 3 ext).drop 8 = field 3 ext :=
    List.drop_left' (length_field 8 base)
  have hthird : (field 8 base ++ field 3 ext).getD 8 0 = (field 3 ext).getD 0 0 := by
    simp [length_field]
  have hfirst : ((field 3 ext).getD 0 0 ≠ ' '.toNat) ↔ ext ≠ [] := by
    cases ext with
    | nil => simp [field]
    | cons c cs => simpa [field] using (hext c (.head _)).2.2
  have hname : (field 8 base ++ field 3 ext).take 8 = field 8 base :=
    List.take_left' (length_field 8 base)
  rw [shortToName, hname, filter_field hlen hbase, hthird, hsecond,
    List.take_of_length_le (length_field 3 ext).le, filter_field hlen3 hext]
  simp only [hfirst, ite_not]
  rw [List.takeWhile_eq_self_iff]
  intro c hc
  have hne : c ≠ 0 := by
    rcases List.mem_append.mp hc with hc | hc
    · exact h0 c (List.mem_append_left _ hc)
    · split_ifs at hc with hnil
      · exact nomatch hc
      · rcases List.mem_cons.mp hc with rfl | hc
        · decide
        · exact h0 c (List.mem_append_right _ hc)
  simpa using hne

lemma nameTo83_base : nameTo83 base = field 8 base ++ field 3 [] := by
  rw [nameTo83, splitExt_base hbase]
  rw [List.take_of_length_le hlen, map_toUpper hbase]
  rfl

lemma nameTo83_ext (hext : ∀ c ∈ ext, Unchanged c) (hlen3 : ext.length ≤ 3) :
    nameTo83 (base ++ '.'.toNat :: ext) = field 8 base ++ field 3 ext := by
  rw [nameTo83, splitExt_ext fun hmem => (hext _ hmem).1 rfl]
  rw [extField, Option.getD_some, List.take_of_length_le hlen, List.take_of_length_le hlen3,
    map_toUpper hbase, map_toUpper hext]

end

/-- **Short names** are read back, but without a dot at their end. -/
lemma shortToName_nameTo83 (hstr : CString name) (h : needsLfn name = false) :
    shortToName (nameTo83 name) =
      if name.getLast? = some '.'.toNat then name.dropLast else name := by
  have h0 : ∀ c ∈ name, c ≠ 0 := fun c hc => (hstr c hc).1.ne'
  obtain ⟨base, hbase, hlen, hname⟩ := needsLfnFrom_false h
  rw [Nat.zero_add] at hlen
  rcases hname with rfl | ⟨ext, hext, hlen3, rfl⟩
  · have hlast : name.getLast? ≠ some '.'.toNat := fun hlast =>
      (hbase _ (List.mem_of_getLast? hlast)).1 rfl
    rw [if_neg hlast, nameTo83_base hbase hlen,
      shortToName_fields hbase hlen (List.forall_mem_nil Unchanged) (Nat.zero_le 3)
        (by rwa [List.append_nil]), if_pos rfl, List.append_nil]
  · have hchars : ∀ c ∈ base ++ ext, c ≠ 0 := by
      intro c hc
      refine h0 c ?_
      rcases List.mem_append.mp hc with hc | hc
      · exact List.mem_append_left _ hc
      · exact List.mem_append_right _ (.tail _ hc)
    rw [nameTo83_ext hbase hlen hext hlen3, shortToName_fields hbase hlen hext hlen3 hchars]
    cases ext using List.reverseRecOn with
    | nil => simp
    | append_singleton cs c =>
      have hlast : (base ++ '.'.toNat :: (cs ++ [c])).getLast? = some c := by
        rw [← List.cons_append, ← List.append_assoc, List.getLast?_append_of_ne_nil _ (by simp)]
        rfl
      have hne : c ≠ '.'.toNat := (hext c (by simp)).1
      rw [if_neg (by simp), hlast, if_neg (by simpa using hne)]

lemma head_nameTo83 (h : needsLfn name = false) (hne : name ≠ []) :
    name.head? = some '.'.toNat ∧ (nameTo83 name).headD 0 = ' '.toNat ∨
      name.head? = some ((nameTo83 name).headD 0) := by
  obtain ⟨base, hbase, hlen, hname⟩ := needsLfnFrom_false h
  rw [Nat.zero_add] at hlen
  rcases hname with rfl | ⟨ext, hext, hlen3, rfl⟩
  · rw [nameTo83_base hbase hlen]
    cases name with
    | nil => exact absurd rfl hne
    | cons c cs => exact .inr rfl
  · rw [nameTo83_ext hbase hlen hext hlen3]
    cases base with
    | nil => exact .inl ⟨rfl, rfl⟩
    | cons c cs => exact .inr rfl

end FrostByte.Fat32
