/-
# Bytes as hexadecimal digits

Lower-case hexadecimal text, two digits to the byte.
-/
import Mathlib

namespace Torvyn.Hex

/-- The two digits of a byte. -/
def ofByte (b : UInt8) : List Char := [Nat.digitChar (b.toNat / 16), Nat.digitChar (b.toNat % 16)]

/-- The digits of bytes. -/
def encode (bytes : List UInt8) : List Char := bytes.flatMap ofByte

/-- Digits are told apart by their characters. -/
theorem digitChar_inj {m n : ℕ} (hm : m < 16) (hn : n < 16)
    (h : Nat.digitChar m = Nat.digitChar n) : m = n := by
  have hall : ∀ m < 16, ∀ n < 16, Nat.digitChar m = Nat.digitChar n → m = n := by decide
  exact hall m hm n hn h

/-- The digits determine the byte. -/
theorem ofByte_injective : Function.Injective ofByte := by
  intro a b h
  rw [ofByte, ofByte, List.cons.injEq, List.cons.injEq] at h
  have ha := a.toNat_lt
  have hb := b.toNat_lt
  have hhigh := digitChar_inj (by omega) (by omega) h.1
  have hlow := digitChar_inj (by omega) (by omega) h.2.1
  apply UInt8.toNat_inj.mp
  omega

/-- The text determines the bytes. -/
theorem encode_injective : Function.Injective encode := by
  intro l l' h
  induction l generalizing l' with
  | nil =>
    cases l' with
    | nil => rfl
    | cons b l' => cases h
  | cons a l ih =>
    cases l' with
    | nil => cases h
    | cons b l' =>
      rw [encode, encode, List.flatMap_cons, List.flatMap_cons] at h
      obtain ⟨hbyte, hrest⟩ := List.append_inj h rfl
      rw [ofByte_injective hbyte, ih hrest]

end Torvyn.Hex
