/-
# Content types

`ContentType` of `torvyn-resources/src/handle.rs`: a text of at most 63 bytes, stored inline.  A
longer text is cut where a character ends, so that what is stored is always UTF-8; that is a field
of the structure, and `as_str` needs no check.
-/
import Torvyn.Data.Utf8

namespace Torvyn

open Utf8

/-- `ContentType`. -/
structure ContentType where
  data : Vector UInt8 63
  len : UInt8
  /-- the stored bytes are UTF-8 -/
  valid : (decode (data.toList.take len.toNat)).isSome = true

namespace ContentType

/-- `MAX_LEN`. -/
def maxLen : ℕ := 63

/-- `empty`. -/
def empty : ContentType := ⟨Vector.replicate 63 0, 0, by decide⟩

/-- The bytes that are in use. -/
def stored (c : ContentType) : List UInt8 := c.data.toList.take c.len.toNat

/-- `as_str`. -/
def asStr (c : ContentType) : String := (decode c.stored).get c.valid

/-- The loop of `from_str`: walk back to a character boundary. -/
def walkBack (bytes : List UInt8) : ℕ → ℕ
  | 0 => 0
  | n + 1 => if isCharBoundary bytes (n + 1) then n + 1 else walkBack bytes n

/-- How many bytes of a text `from_str` copies. -/
def copyLen (s : String) : ℕ := walkBack (encode s) (min (encode s).length maxLen)

/-- The bytes that are copied, in an array that is zero behind them. -/
def copied (s : String) : Vector UInt8 63 :=
  Vector.ofFn fun i => if i < copyLen s then (encode s).getD i 0 else 0

/-! ## Where a text is cut -/

/-- **The longest front** of a text that consists of whole characters and fits into `n` bytes. -/
def LongestFitting (n : ℕ) (s t : String) : Prop :=
  t.toList <+: s.toList ∧ (encode t).length ≤ n ∧
    ∀ u : String, u.toList <+: s.toList → (encode u).length ≤ n → u.toList <+: t.toList

theorem walkBack_eq (bytes : List UInt8) (n : ℕ) :
    walkBack bytes n = Nat.findGreatest (fun i => isCharBoundary bytes i = true) n := by
  induction n with
  | zero => rfl
  | succ n ih => rw [walkBack, Nat.findGreatest_succ, ih]

/-- A front with as many bytes is the whole text. -/
theorem eq_of_initial {s t : List Char} (h : t <+: s)
    (hlength : (s.flatMap String.utf8EncodeChar).length ≤
      (t.flatMap String.utf8EncodeChar).length) : t = s := by
  obtain ⟨rest, rfl⟩ := h
  rw [List.flatMap_append, List.length_append] at hlength
  have hnil : rest.flatMap String.utf8EncodeChar = [] := List.length_eq_zero_iff.mp (by omega)
  cases rest with
  | nil => rw [List.append_nil]
  | cons c rest =>
    rw [List.flatMap_cons, List.append_eq_nil_iff] at hnil
    exact absurd hnil.1 String.utf8EncodeChar_ne_nil

/-- A text is cut behind its longest front that fits. -/
theorem exists_longestFitting (s : String) :
    ∃ t, LongestFitting maxLen s t ∧ (encode t).length = copyLen s := by
  set fits := min (encode s).length maxLen with hfits
  have hgreatest : copyLen s =
      Nat.findGreatest (fun i => isCharBoundary (encode s) i = true) fits := walkBack_eq _ _
  have hboundary : isCharBoundary (encode s) (copyLen s) = true := by
    rw [hgreatest]
    exact Nat.findGreatest_spec (P := fun i => isCharBoundary (encode s) i = true)
      (Nat.zero_le _) rfl
  have hle : copyLen s ≤ fits := hgreatest ▸ Nat.findGreatest_le fits
  obtain ⟨t, hinitial, hlength⟩ := isCharBoundary_iff.mp hboundary
  have hencode : encode (String.ofList t) = t.flatMap String.utf8EncodeChar := by
    rw [encode, String.toList_ofList]
  refine ⟨String.ofList t, ⟨by rwa [String.toList_ofList], ?_, fun u hu hshort => ?_⟩, ?_⟩
  · rw [hencode, hlength]
    omega
  · have hend : isCharBoundary (encode s) (encode u).length = true :=
      isCharBoundary_iff.mpr ⟨u.toList, hu, rfl⟩
    have hall : (encode u).length ≤ (encode s).length := (hu.flatMap _).length_le
    have hlast : (encode u).length ≤ copyLen s := by
      rw [hgreatest]
      exact Nat.le_findGreatest (by omega) hend
    rw [String.toList_ofList]
    rcases List.prefix_or_prefix_of_prefix hu hinitial with h | h
    · exact h
    · rw [eq_of_initial h (hlast.trans hlength.ge)]
  · rw [hencode, hlength]

/-- What is copied are the bytes of that front. -/
theorem take_copied {s t : String} (ht : LongestFitting maxLen s t)
    (hlength : (encode t).length = copyLen s) : (copied s).toList.take (copyLen s) = encode t := by
  obtain ⟨hinitial, hshort, -⟩ := ht
  obtain ⟨rest, hrest⟩ : encode t <+: encode s := hinitial.flatMap _
  have hmax : copyLen s ≤ 63 := hlength ▸ hshort
  apply List.ext_getElem
  · simp [hlength, hmax]
  · intro i hi hi'
    have hlt : i < copyLen s := hlength ▸ hi'
    simp [copied, hlt, ← hrest, List.getElem?_append_left hi', List.getElem?_eq_getElem hi']

/-- What is stored is that front. -/
theorem exists_stored (s : String) : ∃ t, LongestFitting maxLen s t ∧
    (UInt8.ofNat (copyLen s)).toNat = (encode t).length ∧
    (copied s).toList.take (UInt8.ofNat (copyLen s)).toNat = encode t := by
  obtain ⟨t, ht, hlength⟩ := exists_longestFitting s
  have hmax : copyLen s ≤ 63 := hlength ▸ ht.2.1
  have hlen : (UInt8.ofNat (copyLen s)).toNat = copyLen s := by
    rw [UInt8.toNat_ofNat']
    omega
  rw [hlen]
  exact ⟨t, ht, hlength.symm, take_copied ht hlength⟩

/-- `from_str`. -/
def fromStr (s : String) : ContentType where
  data := copied s
  len := UInt8.ofNat (copyLen s)
  valid := by
    obtain ⟨t, -, -, hstored⟩ := exists_stored s
    rw [decode_eq_some_iff.mpr hstored, Option.isSome_some]

/-- **Truncation**: what is stored is the longest front of the text that consists of whole
characters and fits into 63 bytes, and it is what is read. -/
theorem fromStr_longest (s : String) :
    LongestFitting maxLen s (fromStr s).asStr ∧ (fromStr s).stored = encode (fromStr s).asStr ∧
      (fromStr s).len.toNat = (encode (fromStr s).asStr).length := by
  obtain ⟨t, ht, hlen, hstored⟩ := exists_stored s
  have hread : (fromStr s).asStr = t := Option.get_of_eq_some _ (decode_eq_some_iff.mpr hstored)
  rw [hread]
  exact ⟨ht, hstored, hlen⟩

end ContentType

end Torvyn
