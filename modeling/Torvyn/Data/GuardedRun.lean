/-
# Guarded runs

A system that takes one step for each input, and the runs in which every input meets a
condition on the state it arrives in.
-/
import Mathlib

namespace Torvyn

variable {σ α : Type*} {step : σ → α → σ} {guard guard' : σ → α → Prop} {s : σ} {as as' : List α}

/-- Every input of the run meets the condition. -/
def Guarded (step : σ → α → σ) (guard : σ → α → Prop) (s : σ) : List α → Prop
  | [] => True
  | a :: as => guard s a ∧ Guarded step guard (step s a) as

instance decidableGuarded [∀ s a, Decidable (guard s a)] :
    ∀ (s : σ) (as : List α), Decidable (Guarded step guard s as)
  | _, [] => isTrue trivial
  | s, a :: as =>
      have := decidableGuarded (step s a) as
      inferInstanceAs (Decidable (guard s a ∧ Guarded step guard (step s a) as))

namespace Guarded

/-- What holds at the start and is kept by every guarded step holds at the end. -/
theorem invariant {P : σ → Prop} (h : Guarded step guard s as)
    (hstep : ∀ s a, guard s a → P s → P (step s a)) (hstart : P s) : P (as.foldl step s) := by
  induction as generalizing s with
  | nil => exact hstart
  | cons a as ih => exact ih h.2 (hstep s a h.1 hstart)

/-- A run is guarded when its two parts are. -/
theorem append_iff : Guarded step guard s (as ++ as') ↔
    Guarded step guard s as ∧ Guarded step guard (as.foldl step s) as' := by
  induction as generalizing s with
  | nil => simp [Guarded]
  | cons a as ih =>
    simp only [List.cons_append, Guarded, List.foldl_cons, and_assoc]
    rw [ih]

/-- Under a condition that holds throughout, two conditions that come to the same hold in the
same runs. -/
theorem congr {P Q : σ → α → Prop} (h : Guarded step guard s as)
    (hiff : ∀ s a, guard s a → (P s a ↔ Q s a)) : Guarded step P s as ↔ Guarded step Q s as := by
  induction as generalizing s with
  | nil => exact Iff.rfl
  | cons a as ih => exact and_congr (hiff s a h.1) (ih h.2)

/-- A run that meets a condition meets every weaker one. -/
theorem mono (h : Guarded step guard s as) (hguard : ∀ s a, guard s a → guard' s a) :
    Guarded step guard' s as := by
  induction as generalizing s with
  | nil => trivial
  | cons a as ih => exact ⟨hguard s a h.1, ih h.2⟩

/-- Two conditions hold throughout when their conjunction does. -/
theorem and (h : Guarded step guard s as) (h' : Guarded step guard' s as) :
    Guarded step (fun s a => guard s a ∧ guard' s a) s as := by
  induction as generalizing s with
  | nil => trivial
  | cons a as ih => exact ⟨⟨h.1, h'.1⟩, ih h.2 h'.2⟩

/-- A family of conditions holds throughout when each of them does. -/
theorem forall_iff {ι : Sort*} {P : ι → σ → α → Prop} :
    Guarded step (fun s a => ∀ i, P i s a) s as ↔ ∀ i, Guarded step (P i) s as := by
  induction as generalizing s with
  | nil => exact iff_of_true trivial fun _ => trivial
  | cons a as ih =>
    simp only [Guarded, ih]
    exact forall_and.symm

/-- What holds in every state that is reached is met by every input. -/
theorem of_forall {P : σ → Prop} (h : ∀ as : List α, P (as.foldl step s)) (as : List α) :
    Guarded step (fun s _ => P s) s as := by
  induction as generalizing s with
  | nil => trivial
  | cons a as ih => exact ⟨h [], ih fun as' => h (a :: as')⟩

/-- An invariant of the guarded steps holds wherever an input arrives. -/
theorem with_invariant {P : σ → Prop} (h : Guarded step guard s as)
    (hstep : ∀ s a, guard s a → P s → P (step s a)) (hstart : P s) :
    Guarded step (fun s a => guard s a ∧ P s) s as := by
  induction as generalizing s with
  | nil => trivial
  | cons a as ih => exact ⟨⟨h.1, hstart⟩, ih h.2 (hstep s a h.1 hstart)⟩

end Guarded

/-- What certain inputs bring about, and no other: where it holds at the end, it has held since
the last of these inputs. -/
theorem exists_last_of_foldl {P : α → Prop} {Q : σ → Prop}
    (hcause : ∀ s a, Q (step s a) → P a ∨ Q s) (hstart : ¬Q s) (hend : Q (as.foldl step s)) :
    ∃ before a after, as = before ++ a :: after ∧ P a ∧ (∀ b ∈ after, ¬P b) ∧
      Q ((before ++ [a]).foldl step s) := by
  induction as using List.reverseRecOn with
  | nil => exact absurd hend hstart
  | append_singleton as a ih =>
    by_cases ha : P a
    · exact ⟨as, a, [], rfl, ha, by simp, hend⟩
    · rw [List.foldl_append] at hend
      obtain ⟨before, b, after, rfl, hb, hafter, hlast⟩ :=
        ih ((hcause _ a hend).resolve_left ha)
      refine ⟨before, b, after ++ [a], by simp, hb, fun b' hb' => ?_, hlast⟩
      rcases List.mem_append.1 hb' with hold | hnew
      · exact hafter b' hold
      · rw [List.mem_singleton.1 hnew]
        exact ha

/-! ## Counting -/

section Counting

variable {p : σ → α → Bool}

/-- How many inputs of a run meet a condition on the state they arrive in. -/
def countSteps (step : σ → α → σ) (p : σ → α → Bool) (s : σ) : List α → ℕ
  | [] => 0
  | a :: as => (if p s a then 1 else 0) + countSteps step p (step s a) as

theorem countSteps_append : countSteps step p s (as ++ as') =
    countSteps step p s as + countSteps step p (as.foldl step s) as' := by
  induction as generalizing s with
  | nil => simp [countSteps]
  | cons a as ih => simp only [List.cons_append, countSteps, List.foldl_cons, ih, Nat.add_assoc]

/-- What every guarded step keeps of a state and a count holds of the whole count. -/
theorem Guarded.countSteps_invariant {Q : ℕ → σ → Prop} (h : Guarded step guard s as)
    (hstep : ∀ n s a, guard s a → Q n s → Q (n + if p s a then 1 else 0) (step s a)) {n : ℕ}
    (hstart : Q n s) : Q (n + countSteps step p s as) (as.foldl step s) := by
  induction as generalizing s n with
  | nil => exact hstart
  | cons a as ih =>
    have hrest := ih h.2 (hstep n s a h.1 hstart)
    rwa [Nat.add_assoc] at hrest

/-- Nothing is counted where no guarded input meets the condition. -/
theorem Guarded.countSteps_eq_zero (h : Guarded step guard s as)
    (hnone : ∀ s a, guard s a → p s a = false) : countSteps step p s as = 0 := by
  induction as generalizing s with
  | nil => rfl
  | cons a as ih => rw [countSteps, hnone s a h.1, ih h.2]; rfl

/-- Nothing is counted exactly where no input meets the condition. -/
theorem countSteps_eq_zero_iff : countSteps step p s as = 0 ↔
    Guarded step (fun s a => p s a = false) s as := by
  induction as generalizing s with
  | nil => exact iff_of_true rfl trivial
  | cons a as ih =>
    rw [countSteps, Nat.add_eq_zero_iff, ih]
    apply and_congr_left
    intro _
    show (if p s a = true then 1 else 0) = 0 ↔ p s a = false
    cases p s a <;> simp

end Counting

end Torvyn
