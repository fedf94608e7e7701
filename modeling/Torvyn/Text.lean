/-
# Operations on text

The `str` methods that the modelled code calls, on the character list of a
string.  A Rust `str` is valid UTF-8, so comparing prefixes and suffixes byte by
byte or character by character gives the same answer.
-/
import Mathlib

namespace Torvyn

/-- `str::starts_with`. -/
def startsWith (s p : String) : Bool := p.toList.isPrefixOf s.toList

/-- `str::ends_with`. -/
def endsWith (s p : String) : Bool := p.toList.isSuffixOf s.toList

/-- `str::contains`. -/
def contains (s p : String) : Bool := p.toList <:+: s.toList

/-- `str::strip_prefix`. -/
def stripPrefix (s p : String) : Option String :=
  if startsWith s p then some (String.ofList (s.toList.drop p.length)) else none

/-- A string ends with `p` exactly when `p` can be cut off its end. -/
theorem endsWith_iff {s p : String} : endsWith s p = true ↔ ∃ t : String, s = t ++ p := by
  rw [endsWith, List.isSuffixOf_iff_suffix]
  constructor
  · rintro ⟨t, ht⟩
    refine ⟨String.ofList t, ?_⟩
    rw [← String.toList_inj, String.toList_append, String.toList_ofList, ht]
  · rintro ⟨t, rfl⟩
    exact ⟨t.toList, by rw [String.toList_append]⟩

/-- `strip_prefix` succeeds exactly on the strings that begin with the prefix,
and returns the rest. -/
theorem stripPrefix_eq_some_iff {s p t : String} :
    stripPrefix s p = some t ↔ s = p ++ t := by
  unfold stripPrefix startsWith
  constructor
  · intro h
    split at h
    · rename_i hp
      obtain ⟨u, hu⟩ := List.isPrefixOf_iff_prefix.mp hp
      have ht : String.ofList (s.toList.drop p.length) = t := Option.some.inj h
      rw [← hu, ← String.length_toList, List.drop_left] at ht
      rw [← String.toList_inj, String.toList_append, ← ht, String.toList_ofList, hu]
    · exact absurd h (by simp)
  · rintro rfl
    have hp : p.toList.isPrefixOf (p ++ t).toList = true :=
      List.isPrefixOf_iff_prefix.mpr ⟨t.toList, by rw [String.toList_append]⟩
    rw [if_pos hp, String.toList_append, ← String.length_toList, List.drop_left,
      String.ofList_toList]

/-- Ending with a longer suffix implies ending with the suffix of that suffix. -/
theorem endsWith_trans {s p q : String} (hsp : endsWith s p = true)
    (hpq : endsWith p q = true) : endsWith s q = true := by
  obtain ⟨t, rfl⟩ := endsWith_iff.mp hsp
  obtain ⟨u, rfl⟩ := endsWith_iff.mp hpq
  exact endsWith_iff.mpr ⟨t ++ u, by rw [String.append_assoc]⟩

/-- A string ends with every suffix of its right part. -/
theorem endsWith_append {s p q : String} (h : endsWith p q = true) :
    endsWith (s ++ p) q = true :=
  endsWith_trans (endsWith_iff.mpr ⟨s, rfl⟩) h

/-! ## Splitting -/

/-- `str::split` at a character. -/
def split (s : String) (c : Char) : List String := (s.toList.splitOn c).map String.ofList

/-- `str::split_once` at a character: what lies before and after its first occurrence. -/
def splitOnce (s : String) (c : Char) : Option (String × String) :=
  if c ∈ s.toList then
    some (String.ofList (s.toList.takeWhile (· ≠ c)),
      String.ofList (s.toList.dropWhile (· ≠ c)).tail)
  else none

/-- What lies before and after the last occurrence of a character, which `str::rfind` finds. -/
def rsplitOnce (s : String) (c : Char) : Option (String × String) :=
  if c ∈ s.toList then
    some (String.ofList (s.toList.reverse.dropWhile (· ≠ c)).tail.reverse,
      String.ofList (s.toList.reverse.takeWhile (· ≠ c)).reverse)
  else none

/-- `str::splitn` at a character: the last piece is what is left. -/
def splitn : ℕ → String → Char → List String
  | 0, _, _ => []
  | 1, s, _ => [s]
  | n + 2, s, c =>
      match splitOnce s c with
      | some (before, after) => before :: splitn (n + 1) after c
      | none => [s]

/-- The first occurrence of a character separates what lies before it. -/
theorem takeWhile_dropWhile_ne {l r : List Char} {c : Char} (hc : c ∉ l) :
    (l ++ c :: r).takeWhile (· ≠ c) = l ∧ (l ++ c :: r).dropWhile (· ≠ c) = c :: r := by
  have hl : ∀ d ∈ l, decide (d ≠ c) = true := fun d hd =>
    decide_eq_true (by rintro rfl; exact hc hd)
  constructor
  · rw [List.takeWhile_append_of_pos hl, List.takeWhile_cons_of_neg (by simp), List.append_nil]
  · rw [List.dropWhile_append_of_pos hl, List.dropWhile_cons_of_neg (by simp)]

theorem splitOnce_eq {s a b : String} {c : Char} (hs : s.toList = a.toList ++ c :: b.toList)
    (hc : c ∉ a.toList) : splitOnce s c = some (a, b) := by
  obtain ⟨htake, hdrop⟩ := takeWhile_dropWhile_ne (r := b.toList) hc
  unfold splitOnce
  rw [hs, if_pos (by simp), htake, hdrop, List.tail_cons, String.ofList_toList,
    String.ofList_toList]

theorem rsplitOnce_eq {s a b : String} {c : Char} (hs : s.toList = a.toList ++ c :: b.toList)
    (hc : c ∉ b.toList) : rsplitOnce s c = some (a, b) := by
  have hreverse : s.toList.reverse = b.toList.reverse ++ c :: a.toList.reverse := by
    rw [hs]
    simp
  obtain ⟨htake, hdrop⟩ := takeWhile_dropWhile_ne (r := a.toList.reverse)
    (fun h => hc (List.mem_reverse.mp h))
  unfold rsplitOnce
  rw [if_pos (by rw [hs]; simp), hreverse, htake, hdrop, List.tail_cons, List.reverse_reverse,
    List.reverse_reverse, String.ofList_toList, String.ofList_toList]

theorem splitOnce_eq_none {s : String} {c : Char} (hc : c ∉ s.toList) : splitOnce s c = none :=
  if_neg hc

/-- Splitting undoes joining. -/
theorem split_intercalate {c : Char} {pieces : List String} (hne : pieces ≠ [])
    (hc : ∀ piece ∈ pieces, c ∉ piece.toList) :
    split ((String.singleton c).intercalate pieces) c = pieces := by
  unfold split
  rw [String.toList_intercalate, String.toList_singleton, List.splitOn_intercalate]
  · rw [List.map_map]
    exact List.map_id'' (fun _ => String.ofList_toList) _
  · intro l hl
    obtain ⟨piece, hmem, rfl⟩ := List.mem_map.mp hl
    exact hc piece hmem
  · simpa using hne

/-- A piece of a list does not contain the element at which the list is split. -/
theorem not_mem_of_mem_splitOn {α : Type*} [DecidableEq α] {c : α} (chars : List α) :
    ∀ l ∈ chars.splitOn c, c ∉ l := by
  induction chars with
  | nil =>
      intro l hl
      rw [List.splitOn_nil, List.mem_singleton] at hl
      subst hl
      exact List.not_mem_nil
  | cons d chars ih =>
      intro l hl
      rw [List.splitOn_cons_eq_if_modifyHead] at hl
      split at hl
      · rcases List.mem_cons.mp hl with rfl | hl
        · exact List.not_mem_nil
        · exact ih l hl
      · rename_i hne
        obtain ⟨head, rest, hsplit⟩ := List.exists_cons_of_ne_nil (List.splitOn_ne_nil c chars)
        rw [hsplit] at ih hl
        rcases List.mem_cons.mp hl with rfl | hl
        · intro hmem
          rcases List.mem_cons.mp hmem with rfl | hmem
          · exact hne (beq_self_eq_true _)
          · exact ih head List.mem_cons_self hmem
        · exact ih l (List.mem_cons_of_mem _ hl)

/-- A piece does not contain the character at which the string is split. -/
theorem not_mem_of_mem_split {s piece : String} {c : Char} (h : piece ∈ split s c) :
    c ∉ piece.toList := by
  obtain ⟨l, hl, rfl⟩ := List.mem_map.mp h
  rw [String.toList_ofList]
  exact not_mem_of_mem_splitOn s.toList l hl

/-- Splitting a list loses only the separators. -/
theorem count_splitOn {c d : Char} (h : d ≠ c) (chars : List Char) :
    ((chars.splitOn c).map (List.count d)).sum = chars.count d := by
  induction chars with
  | nil => rfl
  | cons e chars ih =>
      rw [List.splitOn_cons_eq_if_modifyHead]
      split
      · rename_i heq
        have hne : e ≠ d := fun hed => h (hed ▸ eq_of_beq heq)
        rw [List.map_cons, List.sum_cons, List.count_nil, Nat.zero_add, ih,
          List.count_cons_of_ne hne]
      · obtain ⟨head, rest, hsplit⟩ := List.exists_cons_of_ne_nil (List.splitOn_ne_nil c chars)
        rw [hsplit, List.map_cons, List.sum_cons] at ih
        rw [hsplit, List.modifyHead_cons, List.map_cons, List.sum_cons, List.count_cons,
          List.count_cons]
        omega

/-- Splitting a string loses only the separators. -/
theorem count_split {c d : Char} (h : d ≠ c) (s : String) :
    ((split s c).map fun piece => piece.toList.count d).sum = s.toList.count d := by
  rw [← count_splitOn h, split, List.map_map]
  congr 2
  funext l
  rw [Function.comp_apply, String.toList_ofList]

/-- A character that does not separate lies in one of the pieces. -/
theorem exists_mem_split {c d : Char} (h : d ≠ c) {s : String} (hd : d ∈ s.toList) :
    ∃ piece ∈ split s c, d ∈ piece.toList := by
  by_contra hnone
  have hzero : ((split s c).map fun piece => piece.toList.count d).sum = 0 := by
    refine List.sum_eq_zero fun n hn => ?_
    obtain ⟨piece, hpiece, rfl⟩ := List.mem_map.mp hn
    exact List.count_eq_zero.mpr fun hmem => hnone ⟨piece, hpiece, hmem⟩
  rw [count_split h, List.count_eq_zero] at hzero
  exact hzero hd

/-- The first piece reaches to the first separator. -/
theorem head?_splitOn {α : Type*} [DecidableEq α] (c : α) (chars : List α) :
    (chars.splitOn c).head? = some (chars.takeWhile (· ≠ c)) := by
  induction chars with
  | nil => simp
  | cons d chars ih =>
      obtain ⟨head, rest, hsplit⟩ := List.exists_cons_of_ne_nil (List.splitOn_ne_nil c chars)
      rw [hsplit, List.head?_cons, Option.some.injEq] at ih
      rw [List.splitOn_cons_eq_if_modifyHead]
      by_cases hd : d = c
      · subst hd
        simp
      · simp [hd, hsplit, ih]

/-- A word without the separator begins a list exactly if it begins the first piece. -/
theorem prefix_takeWhile_iff {α : Type*} [DecidableEq α] {c : α} {word : List α} (hword : c ∉ word)
    (chars : List α) : word <+: chars.takeWhile (· ≠ c) ↔ word <+: chars := by
  constructor
  · intro h
    exact h.trans (List.takeWhile_prefix _)
  · rintro ⟨rest, rfl⟩
    rw [List.takeWhile_append_of_pos]
    · exact List.prefix_append _ _
    · intro d hd
      apply decide_eq_true
      rintro rfl
      exact hword hd

/-- A word stands behind a separator exactly if it begins a piece other than the first. -/
theorem cons_infix_iff {α : Type*} [DecidableEq α] {c : α} {word : List α} (hword : c ∉ word)
    (chars : List α) : c :: word <:+: chars ↔ ∃ piece ∈ (chars.splitOn c).tail, word <+: piece := by
  induction chars with
  | nil => simp
  | cons d chars ih =>
      obtain ⟨head, rest, hsplit⟩ := List.exists_cons_of_ne_nil (List.splitOn_ne_nil c chars)
      have hhead := head?_splitOn c chars
      rw [hsplit, List.head?_cons, Option.some.injEq] at hhead
      rw [List.infix_cons_iff, ih, List.splitOn_cons_eq_if_modifyHead, hsplit, List.tail_cons]
      by_cases hd : d = c
      · subst hd
        rw [if_pos (beq_self_eq_true _), List.tail_cons, List.prefix_cons_inj,
          ← prefix_takeWhile_iff hword chars, ← hhead]
        simp
      · rw [if_neg (by simpa using hd), List.modifyHead_cons, List.tail_cons, or_iff_right]
        rintro hprefix
        exact hd (List.cons_prefix_cons.mp hprefix).1.symm

/-! ## Trimming -/

/-- `char::is_whitespace`: the Unicode property White_Space. -/
def isWhitespace (c : Char) : Bool :=
  let n := c.toNat
  (9 ≤ n && n ≤ 13) || n == 0x20 || n == 0x85 || n == 0xA0 || n == 0x1680 ||
    (0x2000 ≤ n && n ≤ 0x200A) || n == 0x2028 || n == 0x2029 || n == 0x202F || n == 0x205F ||
    n == 0x3000

/-- `str::trim`. -/
def trim (s : String) : String :=
  String.ofList ((s.toList.dropWhile isWhitespace).rdropWhile isWhitespace)

/-- A string without white space at its ends is trimmed. -/
theorem trim_eq_self {s : String} (hhead : ∀ c, s.toList.head? = some c → isWhitespace c = false)
    (hlast : ∀ c, s.toList.getLast? = some c → isWhitespace c = false) : trim s = s := by
  have hdrop : s.toList.dropWhile isWhitespace = s.toList := by
    cases hs : s.toList with
    | nil => rfl
    | cons c cs =>
        refine List.dropWhile_cons_of_neg ?_
        rw [hhead c (by rw [hs]; rfl)]
        exact Bool.false_ne_true
  have hrdrop : s.toList.rdropWhile isWhitespace = s.toList := by
    refine List.rdropWhile_eq_self_iff.mpr fun hne => ?_
    rw [hlast _ (List.getLast?_eq_getLast_of_ne_nil hne)]
    exact Bool.false_ne_true
  unfold trim
  rw [hdrop, hrdrop, String.ofList_toList]

theorem trim_eq_self_of_forall {s : String} (h : ∀ c ∈ s.toList, isWhitespace c = false) :
    trim s = s :=
  trim_eq_self (fun c hc => h c (List.mem_of_head? hc)) fun c hc => h c (List.mem_of_getLast? hc)

/-- Trimming leaves no white space at the ends. -/
theorem ends_trim (s : String) :
    (∀ c, (trim s).toList.head? = some c → isWhitespace c = false) ∧
      ∀ c, (trim s).toList.getLast? = some c → isWhitespace c = false := by
  have hlist : (trim s).toList = (s.toList.dropWhile isWhitespace).rdropWhile isWhitespace :=
    String.toList_ofList
  constructor
  · intro c hc
    rw [hlist] at hc
    obtain ⟨rest, hrest⟩ := List.rdropWhile_prefix isWhitespace (l := s.toList.dropWhile isWhitespace)
    have hhead : (s.toList.dropWhile isWhitespace).head? = some c := by
      rw [← hrest, List.head?_append, hc]
      rfl
    have hnot := List.head?_dropWhile_not isWhitespace s.toList
    rw [hhead] at hnot
    simpa using hnot
  · intro c hc
    rw [hlist] at hc
    have hne : (s.toList.dropWhile isWhitespace).rdropWhile isWhitespace ≠ [] := by
      intro hnil
      rw [hnil] at hc
      cases hc
    have hnot := List.rdropWhile_last_not isWhitespace _ hne
    rw [List.getLast?_eq_getLast_of_ne_nil hne] at hc
    obtain rfl := Option.some.inj hc
    exact Bool.eq_false_iff.mpr hnot

/-- Trimming only takes characters away. -/
theorem mem_of_mem_trim {s : String} {c : Char} (h : c ∈ (trim s).toList) : c ∈ s.toList := by
  have hlist : (trim s).toList = (s.toList.dropWhile isWhitespace).rdropWhile isWhitespace :=
    String.toList_ofList
  rw [hlist] at h
  exact (List.dropWhile_suffix _).mem ((List.rdropWhile_prefix _ _).mem h)

/-- Trimming loses only white space. -/
theorem count_trim {d : Char} (hd : isWhitespace d = false) (s : String) :
    (trim s).toList.count d = s.toList.count d := by
  have hspace : ∀ l : List Char, (∀ c ∈ l, isWhitespace c = true) → l.count d = 0 := by
    intro l hl
    refine List.count_eq_zero.mpr fun hmem => ?_
    rw [hl d hmem] at hd
    cases hd
  have hfront : ∀ l : List Char, (l.dropWhile isWhitespace).count d = l.count d := by
    intro l
    conv_rhs => rw [← @List.takeWhile_append_dropWhile _ isWhitespace l]
    rw [List.count_append, hspace _ fun c hc => List.mem_takeWhile_imp hc, Nat.zero_add]
  unfold trim List.rdropWhile
  rw [String.toList_ofList, List.count_reverse, hfront, List.count_reverse, hfront]

/-! ## Numbers -/

/-- `str::parse::<u16>`. -/
def parseU16 (s : String) : Option UInt16 :=
  let digits := match s.toList with
    | '+' :: digits => digits
    | digits => digits
  if digits ≠ [] ∧ digits.all Char.isDigit then
    let n := Nat.ofDigitChars 10 digits 0
    if n < 2 ^ 16 then some (UInt16.ofNat n) else none
  else none

/-- The digits of a number. -/
theorem toList_toString (n : UInt16) : (toString n).toList = Nat.toDigits 10 n.toNat := by
  show n.toNat.repr.toList = _
  rw [Nat.repr_eq_ofList_toDigits, String.toList_ofList]

theorem isDigit_of_mem_toString {n : UInt16} {c : Char} (hc : c ∈ (toString n).toList) :
    c.isDigit = true := by
  rw [toList_toString] at hc
  exact Nat.isDigit_of_mem_toDigits (by decide) (by decide) hc

theorem toString_ne_empty (n : UInt16) : toString n ≠ "" := by
  rw [Ne, ← String.toList_inj, toList_toString]
  intro hnil
  have hpos := @Nat.length_toDigits_pos 10 n.toNat
  rw [hnil] at hpos
  exact absurd hpos (Nat.lt_irrefl _)

/-- A number that is printed is read. -/
theorem parseU16_toString (n : UInt16) : parseU16 (toString n) = some n := by
  have hsign : (match (toString n).toList with
      | '+' :: digits => digits
      | digits => digits) = (toString n).toList := by
    split
    · rename_i digits heq
      have hplus : '+'.isDigit = true :=
        isDigit_of_mem_toString (by rw [heq]; exact List.mem_cons_self)
      exact absurd hplus (by decide)
    · rfl
  have hne : (toString n).toList ≠ [] := fun hnil =>
    toString_ne_empty n (String.toList_inj.mp hnil)
  unfold parseU16
  simp only [hsign]
  rw [if_pos ⟨hne, List.all_eq_true.mpr fun c hc => isDigit_of_mem_toString hc⟩,
    toList_toString, Nat.ofDigitChars_ten_toDigits, if_pos n.toNat_lt, UInt16.ofNat_toNat]

/-! ## Case -/

/-- `str::to_lowercase`.  The Unicode case table belongs to the standard library
and stays a parameter; what the proofs use of it is that text made of lowercase
ASCII letters is left as it is. -/
structure Lowercase where
  toLowercase : String → String
  lower_ascii : ∀ s : String, (∀ c ∈ s.toList, c.isLower = true) → toLowercase s = s

/-- The characters that separate and abbreviate names: white space, commas and
stars. -/
def isCaseless (c : Char) : Bool := isWhitespace c || c == ',' || c == '*'

/-- What one character may be lowered to. A character may become several, a
caseless one stays as it is, and no other becomes caseless. -/
def LowersTo (c : Char) (part : List Char) : Prop :=
  part ≠ [] ∧ if isCaseless c = true then part = [c] else ∀ d ∈ part, isCaseless d = false

/-- More of `str::to_lowercase`: it works character by character and leaves
lowercase text as it is. -/
structure CharLowercase extends mapping : Lowercase where
  by_char : ∀ s : String, ∃ parts : List (List Char),
    (toLowercase s).toList = parts.flatten ∧ List.Forall₂ LowersTo s.toList parts
  idempotent : ∀ s : String, toLowercase (toLowercase s) = toLowercase s

/-- A caseless character comes from itself. -/
theorem LowersTo.eq_of_mem {c d : Char} {part : List Char} (h : LowersTo c part) (hd : d ∈ part)
    (hcase : isCaseless d = true) : d = c := by
  obtain ⟨-, h⟩ := h
  split at h
  · rw [h] at hd
    exact List.mem_singleton.mp hd
  · exact absurd hcase (by rw [h d hd]; exact Bool.false_ne_true)

/-- Lowering a character keeps the number of caseless ones. -/
theorem LowersTo.count_eq {c d : Char} {part : List Char} (h : LowersTo c part)
    (hcase : isCaseless d = true) : part.count d = [c].count d := by
  obtain ⟨-, h⟩ := h
  split at h
  · rw [h]
  · rename_i hc
    have hpart : d ∉ part := fun hd => by
      rw [h d hd] at hcase
      cases hcase
    have hself : d ∉ [c] := fun hd => hc (List.mem_singleton.mp hd ▸ hcase)
    rw [List.count_eq_zero.mpr hpart, List.count_eq_zero.mpr hself]

namespace CharLowercase

variable (lc : CharLowercase)

theorem toLowercase_eq_empty {s : String} : lc.toLowercase s = "" ↔ s = "" := by
  obtain ⟨parts, hparts, hforall⟩ := lc.by_char s
  rw [← String.toList_inj, hparts, ← @String.toList_inj s]
  generalize s.toList = chars at hforall
  cases hforall with
  | nil => exact Iff.rfl
  | cons hc _ =>
      constructor
      · intro hnil
        exact absurd (List.append_eq_nil_iff.mp hnil).1 hc.1
      · intro hnil
        cases hnil

/-- Lowering a text keeps the number of caseless characters. -/
theorem count_toLowercase {c : Char} (hc : isCaseless c = true) (s : String) :
    (lc.toLowercase s).toList.count c = s.toList.count c := by
  obtain ⟨parts, hparts, hforall⟩ := lc.by_char s
  rw [hparts]
  generalize s.toList = chars at hforall
  clear hparts
  induction hforall with
  | nil => rfl
  | @cons d part ds parts hd _ ih =>
      rw [List.flatten_cons, List.count_append, hd.count_eq hc, ih, ← List.count_append,
        List.singleton_append]

theorem mem_of_mem_toLowercase {c : Char} (hc : isCaseless c = true) {s : String}
    (h : c ∈ (lc.toLowercase s).toList) : c ∈ s.toList := by
  rw [← List.count_pos_iff, lc.count_toLowercase hc, List.count_pos_iff] at h
  exact h

/-- Only the star is lowered to the star. -/
theorem toLowercase_eq_star {s : String} : lc.toLowercase s = "*" ↔ s = "*" := by
  obtain ⟨parts, hparts, hforall⟩ := lc.by_char s
  rw [← String.toList_inj, hparts, ← @String.toList_inj s]
  generalize s.toList = chars at hforall
  cases hforall with
  | nil => exact ⟨fun h => absurd h (by decide), fun h => absurd h (by decide)⟩
  | @cons c part cs parts hc hrest =>
      constructor
      · intro hstar
        obtain ⟨d, ds, hpart⟩ := List.exists_cons_of_ne_nil hc.1
        rw [List.flatten_cons, hpart, List.cons_append] at hstar
        obtain ⟨rfl, hnil⟩ := List.cons.inj hstar
        obtain ⟨-, hnil⟩ := List.append_eq_nil_iff.mp hnil
        have hcs : cs = [] := by
          cases hrest with
          | nil => rfl
          | cons hd _ => exact absurd (List.append_eq_nil_iff.mp hnil).1 hd.1
        rw [hcs, ← hc.eq_of_mem (by rw [hpart]; exact List.mem_cons_self) (by decide)]
        rfl
      · intro hstar
        obtain ⟨rfl, rfl⟩ := List.cons.inj hstar
        cases hrest with
        | nil =>
            have hpart := hc.2
            rw [if_pos (by decide)] at hpart
            rw [hpart]
            rfl

/-- A trimmed text is lowered to a trimmed text. -/
theorem trim_toLowercase {s : String} (h : trim s = s) :
    trim (lc.toLowercase s) = lc.toLowercase s := by
  obtain ⟨hhead, hlast⟩ := ends_trim s
  rw [h] at hhead hlast
  obtain ⟨parts, hparts, hforall⟩ := lc.by_char s
  have hspace : ∀ {c d : Char} {part : List Char}, LowersTo d part → c ∈ part →
      isWhitespace d = false → isWhitespace c = false := by
    intro c d part hd hc hspace
    by_contra hne
    have hcase : isCaseless c = true := by
      unfold isCaseless
      rw [Bool.eq_true_of_not_eq_false hne]
      rfl
    rw [hd.eq_of_mem hc hcase, hspace] at hne
    exact hne rfl
  refine trim_eq_self ?_ ?_
  · intro c hc
    rw [hparts] at hc
    generalize s.toList = chars at hforall hhead
    cases hforall with
    | nil => cases hc
    | cons hd _ =>
        obtain ⟨e, es, hpart⟩ := List.exists_cons_of_ne_nil hd.1
        rw [List.flatten_cons, hpart] at hc
        obtain rfl := Option.some.inj hc
        exact hspace hd (by rw [hpart]; exact List.mem_cons_self) (hhead _ rfl)
  · intro c hc
    rw [hparts] at hc
    generalize s.toList = chars at hforall hlast
    clear hhead hparts
    induction hforall with
    | nil => cases hc
    | @cons d part ds parts hd hrest ih =>
        cases hrest with
        | nil =>
            rw [List.flatten_cons, List.flatten_nil, List.append_nil] at hc
            exact hspace hd (List.mem_of_getLast? hc) (hlast _ rfl)
        | @cons e more es rest he htail =>
            refine ih ?_ ?_
            · rw [List.flatten_cons, List.getLast?_append_of_ne_nil] at hc
              · exact hc
              · intro hnil
                exact he.1 (List.append_eq_nil_iff.mp hnil).1
            · intro c hc
              exact hlast c (by rw [List.getLast?_cons_cons]; exact hc)

end CharLowercase

end Torvyn
