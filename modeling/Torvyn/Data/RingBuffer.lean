/-
# Ring buffers

A list of slots that is written round and round: the element of number `k` goes to the slot
`k % n`.  The slots then hold the last `n` of the elements that have been written, and from the
next slot on they hold them in the order of writing.
-/
import Mathlib

namespace Torvyn

namespace RingBuffer

variable {α : Type*} {slots written : List α}

/-- The last elements of a list. -/
def lastOf (n : ℕ) (written : List α) : List α := written.drop (written.length - n)

@[simp] theorem length_lastOf (n : ℕ) (written : List α) :
    (lastOf n written).length = min written.length n := by
  rw [lastOf, List.length_drop]
  omega

/-- The slots hold the last of the elements that have been written, each in its own slot. -/
def Holds (slots written : List α) : Prop :=
  ∀ k a, written[k]? = some a → written.length ≤ k + slots.length →
    slots[k % slots.length]? = some a

theorem Holds.nil (slots : List α) : Holds slots [] := by
  intro k a hk
  cases hk

/-- Two of the last numbers go to one slot only if they are equal. -/
theorem eq_of_mod_eq {n i j : ℕ} (hij : i ≤ j) (hlt : j < i + n) (h : i % n = j % n) : i = j := by
  have hdvd : n ∣ j - i := (Nat.modEq_iff_dvd' hij).mp h
  have hzero := Nat.eq_zero_of_dvd_of_lt hdvd (by omega)
  omega

/-- One element more. -/
theorem Holds.write (h : Holds slots written) (hpos : 0 < slots.length) (a : α) :
    Holds (slots.set (written.length % slots.length) a) (written ++ [a]) := by
  intro k b hk hlast
  rw [List.length_append, List.length_singleton, List.length_set] at hlast
  rw [List.length_set]
  have hlt : k < written.length + 1 := by
    have := (List.getElem?_eq_some_iff.mp hk).1
    rwa [List.length_append, List.length_singleton] at this
  rcases Nat.lt_succ_iff_lt_or_eq.mp hlt with hold | rfl
  · rw [List.getElem?_append_left hold] at hk
    rw [List.getElem?_set_ne]
    · exact h k b hk (by omega)
    · intro heq
      have := eq_of_mod_eq hold.le (by omega) heq.symm
      omega
  · rw [List.getElem?_concat_length] at hk
    rw [List.getElem?_set_self (Nat.mod_lt _ hpos)]
    exact hk

/-- Before the ring is full, the elements are in front. -/
theorem Holds.take_eq (h : Holds slots written) (hle : written.length ≤ slots.length) :
    slots.take written.length = lastOf slots.length written := by
  have hall : lastOf slots.length written = written := by
    rw [lastOf, Nat.sub_eq_zero_of_le hle, List.drop_zero]
  rw [hall]
  apply List.ext_getElem?
  intro k
  rw [List.getElem?_take]
  split
  · rename_i hk
    obtain ⟨a, ha⟩ : ∃ a, written[k]? = some a := ⟨_, List.getElem?_eq_getElem hk⟩
    have hslot := h k a ha (by omega)
    rw [Nat.mod_eq_of_lt (by omega)] at hslot
    rw [hslot, ha]
  · rw [List.getElem?_eq_none (by omega)]

/-- When the ring is full, the oldest element is in the slot that is written next. -/
theorem Holds.rotate_eq (h : Holds slots written) (hle : slots.length ≤ written.length) :
    slots.rotate (written.length % slots.length) = lastOf slots.length written := by
  apply List.ext_getElem?
  intro k
  by_cases hk : k < slots.length
  · have hnumber : written.length - slots.length + k < written.length := by omega
    have hslot := h _ _ (List.getElem?_eq_getElem hnumber) (by omega)
    rw [List.getElem?_rotate hk, lastOf, List.getElem?_drop, List.getElem?_eq_getElem hnumber,
      ← hslot, Nat.add_mod_mod]
    congr 1
    -- the two numbers differ by one turn
    have hturn : k + written.length = written.length - slots.length + k + slots.length := by omega
    rw [hturn, Nat.add_mod_right]
  · rw [List.getElem?_eq_none (by rw [List.length_rotate]; omega),
      List.getElem?_eq_none (by rw [length_lastOf]; omega)]

/-- A slot is written a second time exactly when there are more elements than slots. -/
theorem nodup_slots_iff {n : ℕ} (hpos : 0 < n) (count : ℕ) :
    ((List.range count).map (· % n)).Nodup ↔ count ≤ n := by
  constructor
  · intro hnodup
    by_contra hgt
    have hinj := List.inj_on_of_nodup_map hnodup (List.mem_range.mpr (by omega : 0 < count))
      (List.mem_range.mpr (by omega : n < count)) (by simp)
    omega
  · intro hle
    apply List.Nodup.map_on _ List.nodup_range
    intro i hi j hj h
    rw [List.mem_range] at hi hj
    rwa [Nat.mod_eq_of_lt (by omega), Nat.mod_eq_of_lt (by omega)] at h

end RingBuffer

end Torvyn
