/-
# Exclusive holdings

Holders that hold at most one token each, and no token twice. Tokens go by a name; a token is
taken from a holder, given to one that holds nothing of that name, or moved from one holder to
another.
-/
import Mathlib

namespace Torvyn

variable {κ τ ι : Type*} {name : τ → ι} {holds : κ → Option τ} {k k' : κ} {t t' : τ} {i : ι}

/-- No two holders hold tokens of one name. -/
def Exclusive (name : τ → ι) (holds : κ → Option τ) : Prop :=
  ∀ ⦃k k' t t'⦄, holds k = some t → holds k' = some t' → name t = name t' → k = k'

/-- Nobody holds a token of the name. -/
def Unheld (name : τ → ι) (holds : κ → Option τ) (i : ι) : Prop :=
  ∀ ⦃k t⦄, holds k = some t → name t ≠ i

namespace Exclusive

/-- Without tokens there is nothing to share. -/
theorem of_none (h : ∀ k, holds k = none) : Exclusive name holds := by
  intro k k' t t' hk
  rw [h k] at hk
  cases hk

variable [DecidableEq κ]

/-- What is held after a holder has been emptied was held before, by another one. -/
theorem of_update_none (h : Function.update holds k none k' = some t) :
    k' ≠ k ∧ holds k' = some t := by
  by_cases hk : k' = k
  · rw [hk, Function.update_self] at h
    cases h
  · rw [Function.update_of_ne hk] at h
    exact ⟨hk, h⟩

/-- A holder may lose what it holds. -/
theorem take (h : Exclusive name holds) (k : κ) :
    Exclusive name (Function.update holds k none) := by
  intro k₁ k₂ t₁ t₂ h₁ h₂ hname
  exact h (of_update_none h₁).2 (of_update_none h₂).2 hname

/-- What is taken from its holder is held by nobody. -/
theorem unheld_take (h : Exclusive name holds) (hk : holds k = some t) :
    Unheld name (Function.update holds k none) (name t) := by
  intro k' t' hk' hname
  obtain ⟨hne, hk'⟩ := of_update_none hk'
  exact hne (h hk' hk hname)

/-- A token that nobody holds may be given to anyone. -/
theorem give (h : Exclusive name holds) (hfree : Unheld name holds (name t)) (k : κ) :
    Exclusive name (Function.update holds k (some t)) := by
  intro k₁ k₂ t₁ t₂ h₁ h₂ hname
  by_cases hk₁ : k₁ = k <;> by_cases hk₂ : k₂ = k
  · rw [hk₁, hk₂]
  · rw [hk₁, Function.update_self] at h₁
    rw [Function.update_of_ne hk₂] at h₂
    obtain rfl := Option.some.inj h₁
    exact absurd hname.symm (hfree h₂)
  · rw [Function.update_of_ne hk₁] at h₁
    rw [hk₂, Function.update_self] at h₂
    obtain rfl := Option.some.inj h₂
    exact absurd hname (hfree h₁)
  · rw [Function.update_of_ne hk₁] at h₁
    rw [Function.update_of_ne hk₂] at h₂
    exact h h₁ h₂ hname

end Exclusive

/-- What is unheld stays so when a holder loses what it holds. -/
theorem Unheld.take [DecidableEq κ] (h : Unheld name holds i) (k : κ) :
    Unheld name (Function.update holds k none) i :=
  fun _ _ hk' => h (Exclusive.of_update_none hk').2

end Torvyn
