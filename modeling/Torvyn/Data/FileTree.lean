/-
# Programs that write files

A program that writes files is a list of steps, run over whatever stores the files; it stops at
the first step that fails.  `forall_written_iff` bounds what it can write over any storage, in which
any step may be made to fail.
-/
import Torvyn.Data.Paths

namespace Torvyn

/-! ## Steps -/

/-- A step.  The failure of a `tryWrite` is ignored. -/
inductive FsStep (E : Type*) where
  | createDirAll (path : PathBuf)
  | write (path : PathBuf) (data : List UInt8)
  | tryWrite (path : PathBuf) (data : List UInt8)
  | fail (error : E)

/-- What stores files: each operation says whether it has succeeded. -/
structure Storage (σ : Type*) where
  createDirAll : PathBuf → σ → Bool × σ
  write : PathBuf → List UInt8 → σ → Bool × σ

namespace FsStep

variable {E σ : Type*}

/-- A step, with the error for a path at which it fails. -/
def run (st : Storage σ) (io : PathBuf → E) (step : FsStep E) (s : σ) : Except E Unit × σ :=
  match step with
  | .createDirAll path =>
      let (ok, s) := st.createDirAll path s
      (if ok then .ok () else .error (io path), s)
  | .write path data =>
      let (ok, s) := st.write path data s
      (if ok then .ok () else .error (io path), s)
  | .tryWrite path data => (.ok (), (st.write path data s).2)
  | .fail error => (.error error, s)

/-- The steps in order, up to the first that fails. -/
def runAll (st : Storage σ) (io : PathBuf → E) : List (FsStep E) → σ → Except E Unit × σ
  | [], s => (.ok (), s)
  | step :: steps, s =>
      match step.run st io s with
      | (.ok (), s) => runAll st io steps s
      | (.error e, s) => (.error e, s)

/-- The steps go through. -/
def Takes (st : Storage σ) (io : PathBuf → E) (steps : List (FsStep E)) (s : σ) : Prop :=
  (runAll st io steps s).1 = .ok ()

/-- What the steps leave. -/
def after (st : Storage σ) (io : PathBuf → E) (steps : List (FsStep E)) (s : σ) : σ :=
  (runAll st io steps s).2

section Append

variable {st : Storage σ} {io : PathBuf → E} {s : σ}

theorem runAll_append (steps rest : List (FsStep E)) :
    runAll st io (steps ++ rest) s =
      if (runAll st io steps s).1.isOk then runAll st io rest (after st io steps s)
      else runAll st io steps s := by
  induction steps generalizing s with
  | nil => rfl
  | cons step steps ih =>
    unfold after
    rw [List.cons_append, runAll, runAll]
    cases step.run st io s with
    | mk result s' =>
      cases result with
      | error e => rfl
      | ok u => exact ih

theorem takes_append {steps rest : List (FsStep E)} :
    Takes st io (steps ++ rest) s ↔
      Takes st io steps s ∧ Takes st io rest (after st io steps s) := by
  unfold Takes
  rw [runAll_append]
  cases hrun : (runAll st io steps s).1 with
  | error e =>
    rw [if_neg (by simp [Except.isOk, Except.toBool]), hrun]
    simp
  | ok u => simp [Except.isOk, Except.toBool]

theorem after_append {steps : List (FsStep E)} (h : Takes st io steps s)
    (rest : List (FsStep E)) :
    after st io (steps ++ rest) s = after st io rest (after st io steps s) := by
  have hok : (runAll st io steps s).1 = .ok () := h
  conv_lhs => unfold after
  rw [runAll_append, if_pos (by rw [hok]; rfl)]
  rfl

end Append

/-! ## What is written -/

/-- A storage that also notes the files that it has written. -/
def logged (st : Storage σ) : Storage (σ × List PathBuf) where
  createDirAll path s :=
    let (ok, s') := st.createDirAll path s.1
    (ok, s', s.2)
  write path data s :=
    let (ok, s') := st.write path data s.1
    (ok, s', if ok then s.2 ++ [path] else s.2)

/-- The files that the steps write. -/
def written (st : Storage σ) (io : PathBuf → E) (steps : List (FsStep E)) (s : σ) :
    List PathBuf := (runAll (logged st) io steps (s, [])).2.2

/-- The file that a step would write. -/
def target : FsStep E → Option PathBuf
  | .write path _ => some path
  | .tryWrite path _ => some path
  | _ => none

/-- The step fails whatever the storage does. -/
def isFail : FsStep E → Bool
  | .fail _ => true
  | _ => false

/-- The files that the steps would write if nothing failed that can succeed. -/
def planned (steps : List (FsStep E)) : List PathBuf :=
  (steps.takeWhile fun step => !step.isFail).filterMap target

theorem planned_cons (step : FsStep E) (steps : List (FsStep E)) :
    planned (step :: steps) =
      if step.isFail then [] else step.target.toList ++ planned steps := by
  cases step <;> rfl

/-- Steps that can succeed plan all their targets, and go on. -/
theorem planned_append {steps : List (FsStep E)} (rest : List (FsStep E))
    (h : ∀ step ∈ steps, step.isFail = false) :
    planned (steps ++ rest) = steps.filterMap target ++ planned rest := by
  induction steps with
  | nil => rfl
  | cons step steps ih =>
    have hstep : step.isFail = false := h step List.mem_cons_self
    rw [List.cons_append, planned_cons, hstep, if_neg Bool.false_ne_true,
      ih fun other hother => h other (List.mem_cons_of_mem step hother), List.filterMap_cons]
    cases step.target <;> rfl

theorem planned_eq {steps : List (FsStep E)} (h : ∀ step ∈ steps, step.isFail = false) :
    planned steps = steps.filterMap target := by
  have happend := planned_append [] h
  rw [List.append_nil] at happend
  exact happend.trans (List.append_nil _)

/-- A step writes its target at most. -/
theorem mem_run_logged {st : Storage σ} {io : PathBuf → E} {step : FsStep E}
    {s : σ × List PathBuf} {path : PathBuf} (h : path ∈ (step.run (logged st) io s).2.2) :
    path ∈ s.2 ∨ path ∈ step.target.toList := by
  have hlog : ∀ (ok : Bool) (file : PathBuf), path ∈ (if ok then s.2 ++ [file] else s.2) →
      path ∈ s.2 ∨ path ∈ [file] := by
    intro ok file hpath
    cases ok with
    | true => exact List.mem_append.mp hpath
    | false => exact Or.inl hpath
  cases step with
  | createDirAll dir => exact Or.inl h
  | write file data => exact hlog _ file h
  | tryWrite file data => exact hlog _ file h
  | fail error => exact Or.inl h

/-- Only planned files are written. -/
theorem mem_planned_of_mem_runAll {st : Storage σ} {io : PathBuf → E} {steps : List (FsStep E)}
    {s : σ × List PathBuf} {path : PathBuf} (h : path ∈ (runAll (logged st) io steps s).2.2) :
    path ∈ s.2 ∨ path ∈ planned steps := by
  induction steps generalizing s with
  | nil => exact Or.inl h
  | cons step steps ih =>
    rw [runAll] at h
    rw [planned_cons]
    cases hrun : step.run (logged st) io s with
    | mk result s' =>
      rw [hrun] at h
      have hstep : path ∈ s'.2 → path ∈ s.2 ∨ path ∈ step.target.toList := by
        intro hpath
        apply mem_run_logged
        rw [hrun]
        exact hpath
      by_cases hfail : step.isFail
      · -- a step that fails writes nothing, and nothing follows it
        cases step with
        | fail error => cases hrun; exact Or.inl h
        | _ => cases hfail
      · rw [if_neg hfail]
        cases result with
        | error e =>
          obtain hs | htarget := hstep h
          · exact Or.inl hs
          · exact Or.inr (List.mem_append_left _ htarget)
        | ok u =>
          obtain hs' | hplanned := ih h
          · obtain hs | htarget := hstep hs'
            · exact Or.inl hs
            · exact Or.inr (List.mem_append_left _ htarget)
          · exact Or.inr (List.mem_append_right _ hplanned)

/-- A storage in which everything succeeds. -/
def obedient : Storage Unit where
  createDirAll _ _ := (true, ())
  write _ _ _ := (true, ())

/-- Where everything succeeds, every planned file is written. -/
theorem runAll_obedient (io : PathBuf → E) (steps : List (FsStep E)) (log : List PathBuf) :
    (runAll (logged obedient) io steps ((), log)).2.2 = log ++ planned steps := by
  induction steps generalizing log with
  | nil => exact (List.append_nil log).symm
  | cons step steps ih =>
    rw [planned_cons]
    cases step with
    | createDirAll dir => exact ih log
    | write file data =>
      have hrest := ih (log ++ [file])
      rw [List.append_assoc] at hrest
      exact hrest
    | tryWrite file data =>
      have hrest := ih (log ++ [file])
      rw [List.append_assoc] at hrest
      exact hrest
    | fail error => exact (List.append_nil log).symm

/-- **What a program can write.**  Over every storage it writes only such files, exactly when all
that it plans to write are such files. -/
theorem forall_written_iff {io : PathBuf → E} {steps : List (FsStep E)} {P : PathBuf → Prop} :
    (∀ (σ : Type) (st : Storage σ) (s : σ), ∀ path ∈ written st io steps s, P path) ↔
      ∀ path ∈ planned steps, P path := by
  constructor
  · intro h path hpath
    apply h Unit obedient () path
    rw [written, runAll_obedient]
    exact hpath
  · intro h σ st s path hpath
    obtain hnil | hplanned := mem_planned_of_mem_runAll hpath
    · cases hnil
    · exact h path hplanned

end FsStep

end Torvyn
