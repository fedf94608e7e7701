/-
# Text as bytes

UTF-8 texts as lists of bytes: encoding, decoding that replaces what is not UTF-8, and decoding
that refuses it.  Where a sequence breaks off, the longest part of it that could still have
become a character is replaced as one.
-/
import Mathlib

namespace Torvyn.Utf8

/-- The bytes of a text. -/
def encode (s : String) : List UInt8 := s.toList.flatMap String.utf8EncodeChar

/-- The character with which the bytes begin. -/
def decodeFirst (bytes : List UInt8) : Option Char := bytes.toByteArray.utf8DecodeChar? 0

/-- A byte between two others. -/
def within (low high b : UInt8) : Bool := low ≤ b ∧ b ≤ high

/-- The second byte can follow the first in a character of three bytes or of four. -/
def follows (b₀ b₁ : UInt8) : Bool :=
  if b₀ = 0xE0 then within 0xA0 0xBF b₁
  else if b₀ = 0xED then within 0x80 0x9F b₁
  else if b₀ = 0xF0 then within 0x90 0xBF b₁
  else if b₀ = 0xF4 then within 0x80 0x8F b₁
  else within 0xE1 0xF3 b₀ && within 0x80 0xBF b₁

/-- How many bytes of an invalid beginning are replaced as one. -/
def invalidLength : List UInt8 → ℕ
  | b₀ :: b₁ :: rest =>
      if follows b₀ b₁ then
        if 0xF0 ≤ b₀ ∧ (rest.take 1).any (within 0x80 0xBF) then 3 else 2
      else 1
  | _ => 1

/-- The characters of the bytes, with a bound on their number. -/
def decodeFrom : ℕ → List UInt8 → List Char
  | 0, _ => []
  | _ + 1, [] => []
  | n + 1, bytes =>
      match decodeFirst bytes with
      | some c => c :: decodeFrom n (bytes.drop (String.utf8EncodeChar c).length)
      | none => '\uFFFD' :: decodeFrom n (bytes.drop (invalidLength bytes))

/-- The text of the bytes, with a replacement character for what is invalid. -/
def decodeLossy (bytes : List UInt8) : String := String.ofList (decodeFrom bytes.length bytes)

/-- The text of the bytes, if they are one. -/
def decode (bytes : List UInt8) : Option String :=
  if encode (decodeLossy bytes) = bytes then some (decodeLossy bytes) else none

theorem decodeFirst_append (c : Char) (bytes : List UInt8) :
    decodeFirst (String.utf8EncodeChar c ++ bytes) = some c := by
  rw [decodeFirst, List.toByteArray_append]
  exact ByteArray.utf8DecodeChar?_utf8EncodeChar_append

/-- A text is decoded again, when there is room for its characters. -/
theorem decodeFrom_encode {n : ℕ} {chars : List Char} (h : chars.length ≤ n) :
    decodeFrom n (chars.flatMap String.utf8EncodeChar) = chars := by
  induction chars generalizing n with
  | nil => cases n <;> rfl
  | cons c chars ih =>
    obtain ⟨m, rfl⟩ : ∃ m, n = m + 1 := ⟨n - 1, by rw [List.length_cons] at h; omega⟩
    have hfirst := decodeFirst_append c (chars.flatMap String.utf8EncodeChar)
    obtain ⟨b, bytes, hbytes⟩ : ∃ b bytes, String.utf8EncodeChar c ++
        chars.flatMap String.utf8EncodeChar = b :: bytes := by
      apply List.exists_cons_of_ne_nil
      simp
    rw [List.flatMap_cons]
    rw [hbytes, decodeFrom, ← hbytes, hfirst]
    · simp only [List.drop_left]
      rw [ih (Nat.le_of_succ_le_succ h)]
    · simp

/-- **What is encoded is decoded again.** -/
theorem decodeLossy_encode (s : String) : decodeLossy (encode s) = s := by
  have hroom : s.toList.length ≤ (encode s).length := by
    rw [encode, List.length_flatMap]
    have hone : ∀ c ∈ s.toList, 1 ≤ (String.utf8EncodeChar c).length := by
      intro c _
      rw [String.length_utf8EncodeChar]
      exact c.utf8Size_pos
    have hle := List.card_nsmul_le_sum (s.toList.map fun c => (String.utf8EncodeChar c).length) 1
      (by simpa using hone)
    simpa using hle
  rw [decodeLossy, encode, decodeFrom_encode, String.ofList_toList]
  exact hroom

theorem encode_injective : Function.Injective encode :=
  Function.LeftInverse.injective decodeLossy_encode

/-- Bytes are a text exactly when they are its encoding. -/
theorem decode_eq_some_iff {bytes : List UInt8} {s : String} :
    decode bytes = some s ↔ bytes = encode s := by
  constructor
  · intro h
    rw [decode] at h
    split at h
    · cases h
      exact Eq.symm ‹_›
    · cases h
  · rintro rfl
    rw [decode, decodeLossy_encode, if_pos rfl]

/-! ## Texts in parts -/

theorem encode_append (s t : String) : encode (s ++ t) = encode s ++ encode t := by
  rw [encode, String.toList_append, List.flatMap_append]
  rfl

theorem encode_singleton (c : Char) : encode (String.singleton c) = String.utf8EncodeChar c := by
  simp [encode]

/-- Texts that are joined are encoded one by one. -/
theorem encode_intercalate (sep : String) (texts : List String) :
    encode (sep.intercalate texts) = (encode sep).intercalate (texts.map encode) := by
  induction texts with
  | nil => rfl
  | cons text texts ih =>
    rcases texts with - | ⟨next, texts⟩
    · simp
    · rw [String.intercalate_cons_cons, encode_append, encode_append, ih, List.map_cons,
        List.map_cons, List.map_cons, List.intercalate_cons_cons]

/-- A byte that is a character of its own is nowhere else in a text. -/
theorem mem_of_mem_encode {s : String} {b : UInt8} {c : Char} (hc : String.utf8EncodeChar c = [b])
    (h : b ∈ encode s) : c ∈ s.toList := by
  obtain ⟨d, hd, hb⟩ := List.mem_flatMap.mp h
  obtain ⟨i, hi, hget⟩ := List.getElem_of_mem hb
  have hpos : 0 < (String.utf8EncodeChar c).length := by simp [hc]
  have hbyte : (String.utf8EncodeChar d)[i] = (String.utf8EncodeChar c)[0] := by
    simp [hget, hc]
  have hfirst : (String.utf8EncodeChar d)[i].IsUTF8FirstByte := by
    rw [hbyte]
    exact UInt8.isUTF8FirstByte_getElem_zero_utf8EncodeChar
  have hzero := UInt8.isUTF8FirstByte_getElem_utf8EncodeChar.mp hfirst
  subst hzero
  -- both characters are decoded from the same bytes
  have hbytes : String.utf8EncodeChar d ++ [] =
      String.utf8EncodeChar c ++ (String.utf8EncodeChar d).tail := by
    rw [List.append_nil, hc, List.singleton_append, ← hget, ← List.head_eq_getElem_zero
      String.utf8EncodeChar_ne_nil, List.cons_head_tail]
  have hdecode := decodeFirst_append d []
  rw [hbytes, decodeFirst_append] at hdecode
  rwa [Option.some.inj hdecode]

/-- A character whose bytes another ends with is that character. -/
theorem eq_of_suffix {c d : Char}
    (h : String.utf8EncodeChar c <:+ String.utf8EncodeChar d) : c = d := by
  obtain ⟨front, hfront⟩ := h
  have hc : 0 < (String.utf8EncodeChar c).length :=
    List.length_pos_iff.mpr String.utf8EncodeChar_ne_nil
  have hlt : front.length < (String.utf8EncodeChar d).length := by
    rw [← hfront, List.length_append]
    omega
  have hbyte : (String.utf8EncodeChar d)[front.length] = (String.utf8EncodeChar c)[0] := by
    simp [← hfront]
  -- the first byte of a character is found nowhere else in it
  have hfirst : (String.utf8EncodeChar d)[front.length].IsUTF8FirstByte := by
    rw [hbyte]
    exact UInt8.isUTF8FirstByte_getElem_zero_utf8EncodeChar
  have hzero := UInt8.isUTF8FirstByte_getElem_utf8EncodeChar.mp hfirst
  rw [List.length_eq_zero_iff.mp hzero, List.nil_append] at hfront
  have heq : String.singleton c = String.singleton d := by
    apply encode_injective
    rw [encode_singleton, encode_singleton, hfront]
  simpa using congrArg String.toList heq

/-- **A suffix of the bytes of a text** that is the encoding of a text is its suffix. -/
theorem suffix_of_encode_suffix {s t : List Char}
    (h : t.flatMap String.utf8EncodeChar <:+ s.flatMap String.utf8EncodeChar) : t <:+ s := by
  induction t using List.reverseRecOn generalizing s with
  | nil => exact List.nil_suffix
  | append_singleton t c ih =>
    rcases List.eq_nil_or_concat s with rfl | ⟨s, d, rfl⟩
    · have hnil := List.suffix_nil.mp h
      simp [String.utf8EncodeChar_ne_nil] at hnil
    · rw [List.concat_eq_append] at h ⊢
      simp only [List.flatMap_append, List.flatMap_singleton] at h
      have hcd : c = d := by
        have hc := (List.suffix_append _ _).trans h
        have hd : String.utf8EncodeChar d <:+
          s.flatMap String.utf8EncodeChar ++ String.utf8EncodeChar d := List.suffix_append _ _
        obtain hcd | hdc := List.suffix_or_suffix_of_suffix hc hd
        · exact eq_of_suffix hcd
        · exact (eq_of_suffix hdc).symm
      subst hcd
      obtain ⟨front, hfront⟩ := h
      rw [← List.append_assoc] at hfront
      obtain ⟨hfront, -⟩ := List.append_inj' hfront rfl
      obtain ⟨front, rfl⟩ := ih ⟨front, hfront⟩
      exact ⟨front, (List.append_assoc _ _ _).symm⟩

/-! ## Where characters end -/

/-- A byte of a character after its first. -/
def isContinuation (b : UInt8) : Bool := within 0x80 0xBF b

/-- `str::is_char_boundary`: a character begins at this byte, or the text ends there. -/
def isCharBoundary (bytes : List UInt8) (i : ℕ) : Bool :=
  i == 0 || bytes[i]?.elim (i == bytes.length) fun b => !isContinuation b

theorem isContinuation_ofNat {n : ℕ} (h : n < 256) :
    isContinuation (UInt8.ofNat n) = decide (128 ≤ n ∧ n < 192) := by
  have hnat : (UInt8.ofNat n).toNat = n := by
    rw [UInt8.toNat_ofNat']
    omega
  have hlow : (0x80 : UInt8).toNat = 128 := rfl
  have hhigh : (0xBF : UInt8).toNat = 191 := rfl
  unfold isContinuation within
  rw [decide_eq_decide, UInt8.le_iff_toNat_le, UInt8.le_iff_toNat_le, hnat, hlow, hhigh]
  omega

theorem isContinuation_mod (n : ℕ) : isContinuation (UInt8.ofNat (n % 64) + 128) = true := by
  have hlt : n % 64 < 64 := Nat.mod_lt n (by decide)
  have hsum : UInt8.ofNat (n % 64) + 128 = UInt8.ofNat (n % 64 + 128) := by simp
  rw [hsum, isContinuation_ofNat (by omega), decide_eq_true_iff]
  omega

/-- **The bytes of a character**: the first begins it, and all others continue it. -/
theorem utf8EncodeChar_eq_cons (c : Char) : ∃ b rest, String.utf8EncodeChar c = b :: rest ∧
    isContinuation b = false ∧ ∀ b' ∈ rest, isContinuation b' = true := by
  unfold String.utf8EncodeChar
  simp only
  split_ifs
  all_goals
    refine ⟨_, _, rfl, ?_, by simp [isContinuation_mod]⟩
    rw [isContinuation_ofNat (by omega), decide_eq_false_iff_not]
    omega

/-- The front of a text is a boundary without a check of its own. -/
theorem isCharBoundary_eq (s : List Char) (i : ℕ) :
    isCharBoundary (s.flatMap String.utf8EncodeChar) i =
      (s.flatMap String.utf8EncodeChar)[i]?.elim
        (i == (s.flatMap String.utf8EncodeChar).length) fun b => !isContinuation b := by
  unfold isCharBoundary
  by_cases hzero : i = 0
  · subst hzero
    cases s with
    | nil => rfl
    | cons c s =>
      obtain ⟨b, rest, hbytes, hb, -⟩ := utf8EncodeChar_eq_cons c
      simp [List.flatMap_cons, hbytes, hb]
  · simp [hzero]

/-- Behind a character there are no boundaries but those of the rest. -/
theorem isCharBoundary_cons (c : Char) (s : List Char) (i : ℕ) :
    isCharBoundary ((c :: s).flatMap String.utf8EncodeChar) i = true ↔
      i = 0 ∨ ∃ j, i = (String.utf8EncodeChar c).length + j ∧
        isCharBoundary (s.flatMap String.utf8EncodeChar) j = true := by
  by_cases hzero : i = 0
  · simp [hzero, isCharBoundary]
  by_cases hlt : i < (String.utf8EncodeChar c).length
  · obtain ⟨b, rest, hbytes, -, hrest⟩ := utf8EncodeChar_eq_cons c
    obtain ⟨k, rfl⟩ : ∃ k, i = k + 1 := ⟨i - 1, by omega⟩
    have hk : k < rest.length := by
      rw [hbytes, List.length_cons] at hlt
      omega
    have hcontinues := hrest _ (List.getElem_mem hk)
    rw [isCharBoundary_eq, List.flatMap_cons, List.getElem?_append_left hlt, hbytes]
    simp [hk, hcontinues]
    omega
  · obtain ⟨j, rfl⟩ := Nat.exists_eq_add_of_le (not_lt.mp hlt)
    have hne : c.utf8Size ≠ 0 := c.utf8Size_pos.ne'
    rw [isCharBoundary_eq, List.flatMap_cons, List.getElem?_append_right (by omega)]
    cases hbyte : (s.flatMap String.utf8EncodeChar)[j]? <;> simp [isCharBoundary_eq, hbyte, hne]

/-- **Boundaries** are where the fronts of the text end. -/
theorem isCharBoundary_iff {s : List Char} {i : ℕ} :
    isCharBoundary (s.flatMap String.utf8EncodeChar) i = true ↔
      ∃ t, t <+: s ∧ (t.flatMap String.utf8EncodeChar).length = i := by
  induction s generalizing i with
  | nil =>
    rw [isCharBoundary_eq]
    simp
    exact eq_comm
  | cons c s ih =>
    rw [isCharBoundary_cons]
    constructor
    · rintro (rfl | ⟨j, rfl, hj⟩)
      · exact ⟨[], List.nil_prefix, rfl⟩
      · obtain ⟨t, ht, rfl⟩ := ih.mp hj
        exact ⟨c :: t, List.cons_prefix_cons.mpr ⟨rfl, ht⟩, by simp⟩
    · rintro ⟨t, ht, rfl⟩
      rcases List.prefix_cons_iff.mp ht with rfl | ⟨t, rfl, ht'⟩
      · exact .inl rfl
      · exact .inr ⟨_, by simp, ih.mpr ⟨t, ht', rfl⟩⟩

end Torvyn.Utf8
