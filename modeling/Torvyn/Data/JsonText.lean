/-
# JSON texts

A JSON text is cut into tokens: punctuation, words, numbers and strings with their escapes.  For a
text that is put together piece by piece, `Reads` says as which tokens a piece is read, and under
which condition: `Reads.string` is about strings in which nothing was escaped, or nothing but the
quotes, and such a string is read again exactly when its characters are plain.
-/
import Mathlib

namespace Torvyn.Json

/-! ## Strings -/

/-- The value of a hexadecimal digit. -/
def hexValue (c : Char) : Option ℕ :=
  if c.isDigit then some (c.toNat - '0'.toNat)
  else if 'a' ≤ c ∧ c ≤ 'f' then some (c.toNat - 'a'.toNat + 10)
  else if 'A' ≤ c ∧ c ≤ 'F' then some (c.toNat - 'A'.toNat + 10)
  else none

/-- The number that several hexadecimal digits stand for, after what stands before them. -/
def hexDigits : ℕ → ℕ → List Char → Option (ℕ × List Char)
  | 0, acc, text => some (acc, text)
  | _ + 1, _, [] => none
  | n + 1, acc, c :: text => (hexValue c).bind fun v => hexDigits n (acc * 16 + v) text

/-- The character that a `\u` stands for, which is followed by another one for the characters
that need two. -/
def unicodeEscape (text : List Char) : Option (Char × List Char) :=
  (hexDigits 4 0 text).bind fun (u, rest) =>
    if 0xD800 ≤ u ∧ u < 0xDC00 then
      if rest.take 2 = ['\\', 'u'] then
        (hexDigits 4 0 (rest.drop 2)).bind fun (v, rest) =>
          if 0xDC00 ≤ v ∧ v < 0xE000 then
            some (Char.ofNat (0x10000 + (u - 0xD800) * 0x400 + (v - 0xDC00)), rest)
          else none
      else none
    else if 0xDC00 ≤ u ∧ u < 0xE000 then none
    else some (Char.ofNat u, rest)

/-- The characters that may stand behind a backslash, and what they stand for. -/
def simpleEscape : Char → Option Char
  | '"' => some '"'
  | '\\' => some '\\'
  | '/' => some '/'
  | 'b' => some '\x08'
  | 'f' => some '\x0c'
  | 'n' => some '\n'
  | 'r' => some '\r'
  | 't' => some '\t'
  | _ => none

/-- What stands behind a backslash. -/
def escape : List Char → Option (Char × List Char)
  | [] => none
  | c :: rest =>
      if c = 'u' then unicodeEscape rest else (simpleEscape c).map fun d => (d, rest)

/-- A control character, which no string may contain as it is. -/
def isControl (c : Char) : Bool := c < ' '

/-- One character of a string. -/
def stringChar : List Char → Option (Char × List Char)
  | [] => none
  | c :: rest =>
      if c = '\\' then escape rest
      else if isControl c ∨ c = '"' then none
      else some (c, rest)

/-- The characters of a string up to the quote that closes it, with a bound on their number. -/
def stringBody : ℕ → List Char → Option (List Char × List Char)
  | 0, _ => none
  | n + 1, text =>
      if text.head? = some '"' then some ([], text.tail)
      else (stringChar text).bind fun (c, rest) =>
        (stringBody n rest).map fun (cs, rest) => (c :: cs, rest)

section Strings

variable {text rest w : List Char} {c : Char}

theorem hexDigits_spec {n acc v : ℕ} (h : hexDigits n acc text = some (v, rest)) :
    ∃ w, text = w ++ rest ∧ w.length = n ∧ '"' ∉ w := by
  induction n generalizing acc text with
  | zero =>
    cases h
    exact ⟨[], rfl, rfl, List.not_mem_nil⟩
  | succ n ih =>
    cases text with
    | nil => cases h
    | cons c text =>
      obtain ⟨v', hv', h⟩ := Option.bind_eq_some_iff.mp h
      obtain ⟨w, rfl, hlength, hquote⟩ := ih h
      have hc : c ≠ '"' := by
        rintro rfl
        have hnone : hexValue '"' = none := by decide
        rw [hnone] at hv'
        cases hv'
      exact ⟨c :: w, rfl, by rw [List.length_cons, hlength], by simp [hc.symm, hquote]⟩

/-- A `\u` is read without a quote. -/
theorem unicodeEscape_spec (h : unicodeEscape text = some (c, rest)) :
    ∃ w, text = w ++ rest ∧ w ≠ [] ∧ '"' ∉ w := by
  obtain ⟨⟨u, rest₁⟩, hu, hread⟩ := Option.bind_eq_some_iff.mp h
  obtain ⟨w₁, rfl, hlength, hquote₁⟩ := hexDigits_spec hu
  have hne : w₁ ≠ [] := List.ne_nil_of_length_pos (by omega)
  simp only at hread
  split_ifs at hread with hhigh hback hlow
  · obtain ⟨⟨v, rest₂⟩, hv, hread⟩ := Option.bind_eq_some_iff.mp hread
    obtain ⟨w₂, hdrop, -, hquote₂⟩ := hexDigits_spec hv
    simp only at hread
    split_ifs at hread
    obtain ⟨-, rfl⟩ := Prod.mk.inj (Option.some.inj hread)
    refine ⟨w₁ ++ ['\\', 'u'] ++ w₂, ?_, by simp [hne], by simp [hquote₁, hquote₂]⟩
    rw [List.append_assoc, List.append_assoc, ← hdrop, ← hback, List.take_append_drop]
  · cases hread
    exact ⟨w₁, rfl, hne, hquote₁⟩

/-- A quote behind a backslash is read as a quote, and by nothing else. -/
theorem escape_spec (h : escape text = some (c, rest)) :
    ∃ w, text = w ++ rest ∧ w ≠ [] ∧ (c ≠ '"' → '"' ∉ w) := by
  cases text with
  | nil => cases h
  | cons d text =>
    rw [escape] at h
    split_ifs at h with hu
    · obtain ⟨w, rfl, hne, hquote⟩ := unicodeEscape_spec h
      exact ⟨d :: w, rfl, by simp, fun _ => by simp [hu, hquote]⟩
    · obtain ⟨d', hd', heq⟩ := Option.map_eq_some_iff.mp h
      cases heq
      refine ⟨[d], rfl, by simp, fun hc hmem => ?_⟩
      obtain rfl := List.mem_singleton.mp hmem
      exact hc (Option.some.inj hd').symm

/-- Reading one character takes something from the text, and a quote only for a quote. -/
theorem stringChar_spec (h : stringChar text = some (c, rest)) :
    ∃ w, text = w ++ rest ∧ w ≠ [] ∧ (c ≠ '"' → '"' ∉ w) := by
  cases text with
  | nil => cases h
  | cons d text =>
    rw [stringChar] at h
    split_ifs at h with hback hbad
    · obtain ⟨w, rfl, -, hquote⟩ := escape_spec h
      exact ⟨d :: w, rfl, by simp, fun hc => by simp [hback, hquote hc]⟩
    · cases h
      exact ⟨[c], rfl, by simp, fun hc => by simp [hc.symm]⟩

/-- At a quote a string ends. -/
theorem eq_nil_of_stringBody {n : ℕ} {s : List Char} (hclose : text.head? = some '"')
    (h : stringBody n text = some (s, rest)) : s = [] := by
  cases n with
  | zero => cases h
  | succ n =>
    rw [stringBody, if_pos hclose] at h
    cases h
    rfl

theorem length_stringBody {n : ℕ} {s : List Char} (h : stringBody n text = some (s, rest)) :
    rest.length < text.length := by
  induction n generalizing text s with
  | zero => cases h
  | succ n ih =>
    unfold stringBody at h
    split_ifs at h with hclose
    · cases h
      cases text with
      | nil => cases hclose
      | cons d text => simp
    · obtain ⟨⟨c, rest₁⟩, hc, h⟩ := Option.bind_eq_some_iff.mp h
      obtain ⟨⟨s', rest₂⟩, hs', h⟩ := Option.map_eq_some_iff.mp h
      cases h
      obtain ⟨w, rfl, -, -⟩ := stringChar_spec hc
      have hlt := ih hs'
      rw [List.length_append]
      omega

end Strings

/-! ## Strings in which only quotes are escaped -/

/-- A text in which each quote is written in some way, and all else as it is. -/
def withQuotes (quote : List Char) (s : List Char) : List Char :=
  s.flatMap fun c => if c = '"' then quote else [c]

theorem withQuotes_cons (quote : List Char) (c : Char) (s : List Char) :
    withQuotes quote (c :: s) = (if c = '"' then quote else [c]) ++ withQuotes quote s := rfl

/-- The ways to write a quote: as it is, or behind a backslash. -/
def quoteAs (escaped : Bool) : List Char := if escaped then ['\\', '"'] else ['"']

/-- A quote that is written as it is changes nothing. -/
theorem withQuotes_raw (s : List Char) : withQuotes (quoteAs false) s = s := by
  induction s with
  | nil => rfl
  | cons c s ih =>
    rw [withQuotes_cons, ih]
    split_ifs with hc
    · rw [hc]
      rfl
    · rfl

theorem length_withQuotes (escaped : Bool) (s : List Char) :
    s.length ≤ (withQuotes (quoteAs escaped) s).length := by
  induction s with
  | nil => exact Nat.zero_le _
  | cons c s ih =>
    rw [withQuotes_cons, List.length_append, List.length_cons]
    cases escaped <;> split_ifs <;> simp [quoteAs] at ih ⊢ <;> omega

/-- A character that can be written in this way and is read again. -/
def IsPlain (escaped : Bool) (c : Char) : Prop :=
  c ≠ '\\' ∧ isControl c = false ∧ (escaped = false → c ≠ '"')

instance (escaped : Bool) (c : Char) : Decidable (IsPlain escaped c) :=
  inferInstanceAs (Decidable (_ ∧ _ ∧ _))

section Plain

variable {escaped : Bool} {s rest tail w lead : List Char}

/-- What has been read of a written text is a front of it, or ends before the quote of an
escape. -/
theorem eq_append_of_withQuotes (h : withQuotes (quoteAs escaped) s ++ '"' :: tail = w ++ rest)
    (hquote : '"' ∉ w) :
    (∃ s', s = w ++ s' ∧ rest = withQuotes (quoteAs escaped) s' ++ '"' :: tail) ∨
      (s ≠ [] ∧ rest.head? = some '"') := by
  induction w generalizing s with
  | nil => exact .inl ⟨s, rfl, h.symm⟩
  | cons x w ih =>
    have hx : x ≠ '"' := fun heq => hquote (heq ▸ List.mem_cons_self)
    have hw : '"' ∉ w := fun hmem => hquote (List.mem_cons_of_mem _ hmem)
    cases s with
    | nil =>
      cases h
      exact absurd rfl hx
    | cons y s =>
      rw [withQuotes_cons] at h
      split_ifs at h with hy
      · right
        refine ⟨by simp, ?_⟩
        cases escaped with
        | false =>
          simp only [quoteAs, Bool.false_eq_true, if_false, List.cons_append,
            List.cons.injEq] at h
          exact absurd h.1.symm hx
        | true =>
          -- only the backslash of the escape has been read
          simp only [quoteAs, if_true, List.cons_append, List.nil_append, List.cons.injEq] at h
          obtain ⟨-, h⟩ := h
          cases w with
          | nil =>
            rw [List.nil_append] at h
            rw [← h]
            rfl
          | cons z w =>
            rw [List.cons_append, List.cons.injEq] at h
            exact absurd (h.1 ▸ List.mem_cons_self) hw
      · simp only [List.cons_append, List.nil_append, List.cons.injEq] at h
        obtain ⟨rfl, h⟩ := h
        rcases ih h hw with ⟨s', rfl, hrest⟩ | ⟨hne, hhead⟩
        · exact .inl ⟨s', rfl, hrest⟩
        · exact .inr ⟨by simp, hhead⟩

/-- **A reader that is ahead** of what it must return does not catch up. -/
theorem not_ahead {n : ℕ} {rest' : List Char} (hlead : lead ≠ []) (hquote : '"' ∉ lead) :
    stringBody n (withQuotes (quoteAs escaped) s ++ '"' :: tail) ≠ some (lead ++ s, rest') := by
  induction n generalizing lead s with
  | zero => exact nofun
  | succ n ih =>
    intro h
    obtain ⟨x, lead, rfl⟩ := List.exists_cons_of_ne_nil hlead
    unfold stringBody at h
    split_ifs at h
    · cases h
    · obtain ⟨⟨c, rest⟩, hc, h⟩ := Option.bind_eq_some_iff.mp h
      obtain ⟨⟨s', rest₂⟩, hs', heq⟩ := Option.map_eq_some_iff.mp h
      simp only [List.cons_append, Prod.mk.injEq, List.cons.injEq] at heq
      obtain ⟨⟨rfl, rfl⟩, rfl⟩ := heq
      have hne : c ≠ '"' := fun heq => hquote (heq ▸ List.mem_cons_self)
      have hlead : '"' ∉ lead := fun hmem => hquote (List.mem_cons_of_mem _ hmem)
      obtain ⟨w, htext, hw, hwquote⟩ := stringChar_spec hc
      rcases eq_append_of_withQuotes htext (hwquote hne) with ⟨s'', rfl, rfl⟩ | ⟨hs, hhead⟩
      · rw [← List.append_assoc] at hs'
        exact ih (by simp [hw]) (by simp [hlead, hwquote hne]) hs'
      · exact hs (List.append_eq_nil_iff.mp (eq_nil_of_stringBody hhead hs')).2

/-- A plain character is read as it is, and does not end the string. -/
theorem stringChar_of_plain {c : Char} (h : IsPlain escaped c) (text : List Char) :
    stringChar ((if c = '"' then quoteAs escaped else [c]) ++ text) = some (c, text) ∧
      ((if c = '"' then quoteAs escaped else [c]) ++ text).head? ≠ some '"' := by
  obtain ⟨hback, hcontrol, hquote⟩ := h
  by_cases hc : c = '"'
  · subst hc
    cases escaped with
    | false => exact absurd rfl (hquote rfl)
    | true => exact ⟨rfl, by simp [quoteAs]⟩
  · rw [if_neg hc]
    simp [stringChar, hback, hcontrol, hc]

/-- A character that is read as itself is plain. -/
theorem isPlain_of_stringBody {n : ℕ} {c : Char} {rest' : List Char}
    (h : stringBody n (withQuotes (quoteAs escaped) (c :: s) ++ '"' :: tail) =
      some (c :: s, rest')) : IsPlain escaped c := by
  by_cases hquote : c = '"'
  · subst hquote
    refine ⟨by decide, by decide, ?_⟩
    rintro rfl
    exact absurd (eq_nil_of_stringBody rfl h) (by simp)
  cases n with
  | zero => cases h
  | succ n =>
    have htext : withQuotes (quoteAs escaped) (c :: s) ++ '"' :: tail =
        c :: (withQuotes (quoteAs escaped) s ++ '"' :: tail) := by
      simp [withQuotes, hquote]
    rw [htext, stringBody, if_neg (by simpa using hquote)] at h
    obtain ⟨⟨c', rest⟩, hc, h⟩ := Option.bind_eq_some_iff.mp h
    obtain ⟨⟨s', rest₂⟩, hs', heq⟩ := Option.map_eq_some_iff.mp h
    simp only [Prod.mk.injEq, List.cons.injEq] at heq
    obtain ⟨⟨rfl, rfl⟩, rfl⟩ := heq
    rw [stringChar] at hc
    split_ifs at hc with hback hbad
    · -- behind an escape the reader is ahead
      obtain ⟨w, hw, hne, hwquote⟩ := escape_spec hc
      rcases eq_append_of_withQuotes hw (hwquote hquote) with ⟨s'', rfl, rfl⟩ | ⟨hs, hhead⟩
      · exact absurd hs' (not_ahead hne (hwquote hquote))
      · exact absurd (eq_nil_of_stringBody hhead hs') hs
    · rw [not_or] at hbad
      exact ⟨hback, by simpa using hbad.1, fun _ => hquote⟩

/-- **A written text is read again** exactly when its characters are plain. -/
theorem stringBody_iff {n : ℕ} {rest' : List Char} (hn : s.length < n) :
    stringBody n (withQuotes (quoteAs escaped) s ++ '"' :: tail) = some (s, rest') ↔
      (∀ c ∈ s, IsPlain escaped c) ∧ rest' = tail := by
  induction s generalizing n with
  | nil =>
    obtain ⟨n, rfl⟩ : ∃ m, n = m + 1 := ⟨n - 1, by simp at hn; omega⟩
    simp [stringBody, withQuotes, eq_comm]
  | cons c s ih =>
    rw [List.length_cons] at hn
    obtain ⟨n, rfl⟩ : ∃ m, n = m + 1 := ⟨n - 1, by omega⟩
    by_cases hplain : IsPlain escaped c
    · obtain ⟨hread, hopen⟩ :=
        stringChar_of_plain hplain (withQuotes (quoteAs escaped) s ++ '"' :: tail)
      have hrest := ih (n := n) (by omega)
      rw [withQuotes_cons, List.append_assoc, stringBody, if_neg hopen, hread, Option.bind_some]
      simp [hrest, hplain]
    · constructor
      · intro h
        exact absurd (isPlain_of_stringBody h) hplain
      · rintro ⟨hall, -⟩
        exact absurd (hall c List.mem_cons_self) hplain

end Plain

/-! ## Numbers -/

/-- Digits, at least one. -/
def digits (text : List Char) : Option (List Char × List Char) :=
  if text.takeWhile Char.isDigit = [] then none
  else some (text.takeWhile Char.isDigit, text.dropWhile Char.isDigit)

/-- A minus sign, or none. -/
def sign (text : List Char) : ℤ × List Char :=
  if text.head? = some '-' then (-1, text.tail) else (1, text)

/-- The digits before the point: no zero stands before others. -/
def wholePart (text : List Char) : Option (List Char × List Char) :=
  (digits text).filter fun (ds, _) => ds.head? ≠ some '0' ∨ ds = ['0']

/-- The digits behind a point, or none. -/
def fraction (text : List Char) : Option (List Char × List Char) :=
  if text.head? = some '.' then digits text.tail else some ([], text)

/-- The sign of an exponent, which may be a plus sign too. -/
def exponentSign (text : List Char) : ℤ × List Char :=
  if text.head? = some '+' then (1, text.tail) else sign text

/-- The exponent of ten, or zero. -/
def exponent (text : List Char) : Option (ℤ × List Char) :=
  if text.head? = some 'e' ∨ text.head? = some 'E' then
    (digits (exponentSign text.tail).2).map fun (ds, rest) =>
      ((exponentSign text.tail).1 * Nat.ofDigitChars 10 ds 0, rest)
  else some (0, text)

/-- A number. -/
def number (text : List Char) : Option (ℚ × List Char) :=
  (wholePart (sign text).2).bind fun (whole, text₁) =>
    (fraction text₁).bind fun (decimals, text₂) =>
      (exponent text₂).map fun (e, rest) =>
        ((sign text).1 * Nat.ofDigitChars 10 (whole ++ decimals) 0 * 10 ^ (e - decimals.length),
          rest)

section Numbers

variable {text rest : List Char}

theorem digits_spec {ds : List Char} (h : digits text = some (ds, rest)) :
    rest.length < text.length := by
  unfold digits at h
  split_ifs at h with hne
  cases h
  have hparts := congrArg List.length
    (List.takeWhile_append_dropWhile (p := Char.isDigit) (l := text))
  have hpos := List.length_pos_iff.mpr hne
  rw [List.length_append] at hparts
  omega

theorem sign_length (text : List Char) : (sign text).2.length ≤ text.length := by
  unfold sign
  split_ifs
  · simp
  · exact Nat.le_refl _

theorem fraction_length {ds : List Char} (h : fraction text = some (ds, rest)) :
    rest.length ≤ text.length := by
  unfold fraction at h
  split_ifs at h
  · have hlt := digits_spec h
    rw [List.length_tail] at hlt
    omega
  · cases h
    exact Nat.le_refl _

theorem exponentSign_length (text : List Char) : (exponentSign text).2.length ≤ text.length := by
  unfold exponentSign
  split_ifs
  · simp
  · exact sign_length text

theorem exponent_length {e : ℤ} (h : exponent text = some (e, rest)) :
    rest.length ≤ text.length := by
  unfold exponent at h
  split_ifs at h
  · obtain ⟨⟨ds, rest⟩, hdigits, heq⟩ := Option.map_eq_some_iff.mp h
    obtain ⟨-, rfl⟩ := Prod.mk.inj heq
    have hlt := digits_spec hdigits
    have hle := exponentSign_length text.tail
    rw [List.length_tail] at hle
    omega
  · cases h
    exact Nat.le_refl _

theorem number_length {q : ℚ} (h : number text = some (q, rest)) : rest.length < text.length := by
  obtain ⟨⟨whole, text₁⟩, hwhole, hrest⟩ := Option.bind_eq_some_iff.mp h
  obtain ⟨⟨decimals, text₂⟩, hdecimals, hrest⟩ := Option.bind_eq_some_iff.mp hrest
  obtain ⟨⟨e, rest'⟩, he, heq⟩ := Option.map_eq_some_iff.mp hrest
  obtain ⟨-, rfl⟩ := Prod.mk.inj heq
  have hsign := sign_length text
  have hlt := digits_spec (Option.filter_eq_some_iff.mp hwhole).1
  have hle := fraction_length hdecimals
  have hle' := exponent_length he
  omega

/-- A number is written without a zero before other digits. -/
theorem head_toDigits (n : ℕ) :
    (Nat.toDigits 10 n).head? ≠ some '0' ∨ Nat.toDigits 10 n = ['0'] := by
  induction n using Nat.strongRecOn with
  | ind n ih =>
    by_cases hlt : n < 10
    · rw [Nat.toDigits_of_lt_base hlt]
      interval_cases n <;> simp [Nat.digitChar]
    · rw [Nat.toDigits_of_base_le (by decide) (by omega)]
      have hdiv : n / 10 < n := by omega
      left
      rcases ih (n / 10) hdiv with hhead | hzero
      · rw [List.head?_append_of_ne_nil _ Nat.toDigits_ne_nil]
        exact hhead
      · have hvalue := @Nat.ofDigitChars_ten_toDigits (n / 10)
        rw [hzero] at hvalue
        have hnone : Nat.ofDigitChars 10 ['0'] 0 = 0 := by decide
        omega

/-- **A natural number is read again**, when nothing follows it that a number can contain. -/
theorem number_toDigits (n : ℕ) {c : Char} (hdigit : c.isDigit = false)
    (hother : c ≠ '.' ∧ c ≠ 'e' ∧ c ≠ 'E') (rest : List Char) :
    number (Nat.toDigits 10 n ++ c :: rest) = some ((n : ℚ), c :: rest) := by
  have hall : ∀ d ∈ Nat.toDigits 10 n, d.isDigit = true := fun d hd =>
    Nat.isDigit_of_mem_toDigits (by decide) (by decide) hd
  have hsign : sign (Nat.toDigits 10 n ++ c :: rest) = (1, Nat.toDigits 10 n ++ c :: rest) := by
    refine if_neg fun hhead => ?_
    rw [List.head?_append_of_ne_nil _ Nat.toDigits_ne_nil] at hhead
    exact absurd (hall '-' (List.mem_of_head? hhead)) (by decide)
  have hwhole : wholePart (Nat.toDigits 10 n ++ c :: rest) =
      some (Nat.toDigits 10 n, c :: rest) := by
    rw [wholePart, digits, List.takeWhile_append_of_pos hall, List.dropWhile_append_of_pos hall,
      List.takeWhile_cons_of_neg (by simp [hdigit]), List.dropWhile_cons_of_neg (by simp [hdigit]),
      List.append_nil, if_neg Nat.toDigits_ne_nil]
    rcases head_toDigits n with h | h <;> simp [Option.filter, h]
  have hfraction : fraction (c :: rest) = some ([], c :: rest) := if_neg (by simp [hother.1])
  have hexponent : exponent (c :: rest) = some (0, c :: rest) :=
    if_neg (by simp [hother.2.1, hother.2.2])
  simp [number, hsign, hwhole, hfraction, hexponent, Nat.ofDigitChars_ten_toDigits]

end Numbers

/-! ## Tokens -/

/-- What a text is cut into. -/
inductive Token where
  | lbrace
  | rbrace
  | lbracket
  | rbracket
  | colon
  | comma
  | null
  | bool (b : Bool)
  | num (q : ℚ)
  | str (s : String)
  deriving DecidableEq

/-- A token of one character. -/
def punctuation : Char → Option Token
  | '{' => some .lbrace
  | '}' => some .rbrace
  | '[' => some .lbracket
  | ']' => some .rbracket
  | ':' => some .colon
  | ',' => some .comma
  | _ => none

/-- The words of the language. -/
def word (letters : List Char) : Option Token :=
  if letters = "null".toList then some .null
  else if letters = "true".toList then some (.bool true)
  else if letters = "false".toList then some (.bool false)
  else none

/-- The first token of a text that begins with one. -/
def token : List Char → Option (Token × List Char)
  | [] => none
  | c :: text =>
      match punctuation c with
      | some t => some (t, text)
      | none =>
          if c = '"' then
            (stringBody text.length text).map fun (s, rest) => (.str (String.ofList s), rest)
          else if c.isDigit ∨ c = '-' then
            (number (c :: text)).map fun (q, rest) => (.num q, rest)
          else
            (word ((c :: text).takeWhile Char.isAlpha)).map fun t =>
              (t, text.dropWhile Char.isAlpha)

/-- White space between tokens. -/
def isSpace (c : Char) : Bool := c = ' ' ∨ c = '\t' ∨ c = '\n' ∨ c = '\r'

/-- The tokens of a text, with a bound on their number. -/
def lexFrom : ℕ → List Char → Option (List Token)
  | 0, text => if text.dropWhile isSpace = [] then some [] else none
  | n + 1, text =>
      if text.dropWhile isSpace = [] then some []
      else (token (text.dropWhile isSpace)).bind fun (t, rest) => (lexFrom n rest).map (t :: ·)

/-- The tokens of a text. -/
def lex (text : List Char) : Option (List Token) := lexFrom text.length text

section Lexer

variable {text rest : List Char} {t : Token}

theorem token_length (h : token text = some (t, rest)) : rest.length < text.length := by
  cases text with
  | nil => cases h
  | cons c text =>
    rw [token] at h
    split at h
    · cases h
      simp
    · split_ifs at h
      · obtain ⟨⟨s, rest'⟩, hs, heq⟩ := Option.map_eq_some_iff.mp h
        obtain ⟨-, rfl⟩ := Prod.mk.inj heq
        have hlt := length_stringBody hs
        rw [List.length_cons]
        omega
      · obtain ⟨⟨q, rest'⟩, hq, heq⟩ := Option.map_eq_some_iff.mp h
        obtain ⟨-, rfl⟩ := Prod.mk.inj heq
        exact number_length hq
      · obtain ⟨t', -, heq⟩ := Option.map_eq_some_iff.mp h
        obtain ⟨-, rfl⟩ := Prod.mk.inj heq
        have hle := (List.dropWhile_suffix (l := text) Char.isAlpha).length_le
        rw [List.length_cons]
        omega

theorem lexFrom_of_end (n : ℕ) (h : text.dropWhile isSpace = []) : lexFrom n text = some [] := by
  cases n <;> exact if_pos h

/-- Two bounds that are large enough give the same tokens. -/
theorem lexFrom_congr {m n : ℕ} (hm : text.length ≤ m) (hn : text.length ≤ n) :
    lexFrom m text = lexFrom n text := by
  induction m generalizing text n with
  | zero =>
    obtain rfl := List.length_eq_zero_iff.mp (Nat.le_zero.mp hm)
    rw [lexFrom_of_end 0 rfl, lexFrom_of_end n rfl]
  | succ m ih =>
    by_cases hend : text.dropWhile isSpace = []
    · rw [lexFrom_of_end _ hend, lexFrom_of_end _ hend]
    have hle := (List.dropWhile_suffix (l := text) isSpace).length_le
    have hpos := List.length_pos_iff.mpr hend
    obtain ⟨n, rfl⟩ : ∃ k, n = k + 1 := ⟨n - 1, by omega⟩
    rw [lexFrom, lexFrom, if_neg hend, if_neg hend]
    cases htoken : token (text.dropWhile isSpace) with
    | none => rfl
    | some found =>
      obtain ⟨t, rest⟩ := found
      have hlt := token_length htoken
      simp only [Option.bind_some]
      rw [ih (by omega) (by omega : rest.length ≤ n)]

@[simp] theorem lex_nil : lex [] = some [] := rfl

/-- **A text that does not begin with space** is its first token and the tokens of the rest. -/
theorem lex_cons {c : Char} (hc : isSpace c = false) :
    lex (c :: text) = (token (c :: text)).bind fun found => (lex found.2).map (found.1 :: ·) := by
  have hstart : (c :: text).dropWhile isSpace = c :: text :=
    List.dropWhile_cons_of_neg (by simp [hc])
  rw [lex, List.length_cons, lexFrom, hstart, if_neg (by simp)]
  cases htoken : token (c :: text) with
  | none => rfl
  | some found =>
    obtain ⟨t, rest⟩ := found
    have hlt := token_length htoken
    rw [List.length_cons] at hlt
    simp only [Option.bind_some, lex]
    rw [lexFrom_congr (by omega) (Nat.le_refl rest.length)]

end Lexer

/-! ## Texts that are put together -/

/-- A text is read as some tokens exactly when a condition holds, whatever follows it. -/
def Reads (text : List Char) (ts : List Token) (P : Prop) : Prop :=
  ∀ rest us, lex (text ++ rest) = some (ts ++ us) ↔ P ∧ lex rest = some us

namespace Reads

variable {text text' : List Char} {ts ts' : List Token} {P Q : Prop}

theorem nil : Reads [] [] True := fun rest us => by simp

/-- **Two pieces**, one after the other. -/
theorem append (h : Reads text ts P) (h' : Reads text' ts' Q) :
    Reads (text ++ text') (ts ++ ts') (P ∧ Q) := by
  intro rest us
  rw [List.append_assoc, List.append_assoc, h, h', and_assoc]

theorem congr (h : Reads text ts P) (hiff : P ↔ Q) : Reads text ts Q := by
  intro rest us
  rw [h, hiff]

/-- The same piece, its tokens and its condition, written in another way. -/
theorem of_eq (h : Reads text ts P) (htext : text' = text) (htokens : ts' = ts) (hiff : P ↔ Q) :
    Reads text' ts' Q := by
  subst htext htokens
  exact h.congr hiff

/-- A piece behind another one that is always read. -/
theorem append_true (h : Reads text ts True) (h' : Reads text' ts' Q) :
    Reads (text ++ text') (ts ++ ts') Q :=
  (h.append h').congr (by simp)

theorem punct {c : Char} {t : Token} (h : punctuation c = some t) : Reads [c] [t] True := by
  intro rest us
  have hspace : isSpace c = false := by
    unfold punctuation at h
    split at h <;> first | rfl | cases h
  rw [List.singleton_append, lex_cons hspace, token, h]
  simp

/-- **Strings** in which only the quotes are escaped, or nothing is. -/
theorem string (escaped : Bool) (s : String) :
    Reads (['"'] ++ withQuotes (quoteAs escaped) s.toList ++ ['"']) [.str s]
      (∀ c ∈ s.toList, IsPlain escaped c) := by
  intro rest us
  set text := withQuotes (quoteAs escaped) s.toList ++ '"' :: rest with htext
  have htoken : token ('"' :: text) =
      (stringBody text.length text).map fun found => (.str (String.ofList found.1), found.2) := rfl
  have hlt : s.toList.length < text.length := by
    have hle := length_withQuotes escaped s.toList
    rw [htext, List.length_append, List.length_cons]
    omega
  have hcons : ['"'] ++ withQuotes (quoteAs escaped) s.toList ++ ['"'] ++ rest = '"' :: text := by
    simp [htext]
  rw [hcons, lex_cons (by decide), htoken]
  constructor
  · intro h
    obtain ⟨found, hfound, h⟩ := Option.bind_eq_some_iff.mp h
    obtain ⟨⟨s', rest'⟩, hbody, rfl⟩ := Option.map_eq_some_iff.mp hfound
    obtain ⟨ts, hts, heq⟩ := Option.map_eq_some_iff.mp h
    simp only [List.singleton_append, List.cons.injEq, Token.str.injEq] at heq
    obtain ⟨hs, rfl⟩ := heq
    have hlist : s' = s.toList := by rw [← hs, String.toList_ofList]
    rw [hlist] at hbody
    obtain ⟨hplain, rfl⟩ := (stringBody_iff hlt).mp hbody
    exact ⟨hplain, hts⟩
  · rintro ⟨hplain, hrest⟩
    rw [(stringBody_iff hlt).mpr ⟨hplain, rfl⟩]
    simp [hrest]

theorem token_of_digit {d : Char} (h : d.isDigit = true) (text : List Char) :
    isSpace d = false ∧
      token (d :: text) = (number (d :: text)).map fun found => (.num found.1, found.2) := by
  have hne : ∀ c : Char, c.isDigit = false → d ≠ c := by
    rintro c hc rfl
    exact absurd (h.symm.trans hc) (by decide)
  have hpunctuation : punctuation d = none := by
    unfold punctuation
    split <;> first | rfl | exact absurd h (by decide)
  refine ⟨by simp [isSpace, hne ' ' rfl, hne '\t' rfl, hne '\n' rfl, hne '\r' rfl], ?_⟩
  simp [token, hpunctuation, hne '"' rfl, h]

/-- **Natural numbers**, with a token that ends them. -/
theorem nat (n : ℕ) {c : Char} {t : Token} (h : punctuation c = some t) :
    Reads (Nat.toDigits 10 n ++ [c]) [.num n, t] True := by
  intro rest us
  have hend : c.isDigit = false ∧ c ≠ '.' ∧ c ≠ 'e' ∧ c ≠ 'E' := by
    unfold punctuation at h
    split at h <;> first | decide | cases h
  have hnumber := number_toDigits n hend.1 hend.2 rest
  obtain ⟨d, ds, hds⟩ := List.exists_cons_of_ne_nil (@Nat.toDigits_ne_nil n 10)
  have hdigit : d.isDigit = true :=
    Nat.isDigit_of_mem_toDigits (by decide) (by decide) (hds ▸ List.mem_cons_self)
  obtain ⟨hspace, htoken⟩ := token_of_digit hdigit (ds ++ c :: rest)
  have hcons : d :: ds ++ [c] ++ rest = d :: (ds ++ c :: rest) := by simp
  rw [hds, List.cons_append] at hnumber
  rw [hds, hcons, lex_cons hspace, htoken, hnumber, Option.map_some, Option.bind_some,
    ← punct h rest us]
  simp

/-- **Pieces that are separated by commas.** -/
theorem intercalate {α : Type*} {f : α → List Char} {g : α → List Token} {P : α → Prop}
    {xs : List α} (h : ∀ x ∈ xs, Reads (f x) (g x) (P x)) :
    Reads ([','].intercalate (xs.map f)) ([.comma].intercalate (xs.map g)) (∀ x ∈ xs, P x) := by
  induction xs with
  | nil => exact nil.congr (by simp)
  | cons x xs ih =>
    have hx := h x List.mem_cons_self
    have hxs := ih fun y hy => h y (List.mem_cons_of_mem _ hy)
    cases xs with
    | nil => simpa using hx
    | cons y xs =>
      have hcomma : Reads [','] [.comma] True := punct rfl
      have hall := hx.append (hcomma.append_true hxs)
      simpa [List.intercalate_cons_cons] using hall

end Reads

end Torvyn.Json
