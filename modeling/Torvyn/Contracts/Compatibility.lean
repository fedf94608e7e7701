/-
# The compatibility check

`check_compatibility` of `torvyn-contracts/src/compatibility.rs`: two versions of a
package are compared item by item, every difference that is noticed becomes a
`ChangeEntry`, and the severest entry decides the verdict.
-/
import Torvyn.Contracts.Package

namespace Torvyn.Contracts

/-! ## Reports -/

/-- How severe a change is. -/
inductive ChangeSeverity where
  | patch
  | minor
  | breaking
  deriving DecidableEq, Repr

/-- The overall verdict. -/
inductive CompatibilityVerdict where
  | compatible
  | compatibleWithAdditions
  | breaking
  deriving DecidableEq, Repr

/-- One noticed change. -/
structure ChangeEntry where
  description : String
  severity : ChangeSeverity
  path : String
  deriving DecidableEq, Repr

/-- The result of comparing two versions of a package. -/
structure CompatibilityReport where
  verdict : CompatibilityVerdict
  changes : List ChangeEntry
  oldVersion : Version
  newVersion : Version
  deriving DecidableEq, Repr

/-! ## Type definitions -/

/-- The name of a kind of type definition. -/
def typeDefKindName : ParsedTypeDefKind → String
  | .record _ => "record"
  | .variant _ => "variant"
  | .enum _ => "enum"
  | .flags _ => "flags"
  | .resource => "resource"
  | .alias _ => "alias"

/-- The fields of a record as the map that the comparison collects. -/
def fieldMap (fields : List ParsedField) : KeyMap String ParsedType :=
  KeyMap.collect (fields.map fun f => (f.name, f.typ))

/-- The cases of a variant as the map that the comparison collects. -/
def caseMap (cases : List ParsedCase) : KeyMap String (Option ParsedType) :=
  KeyMap.collect (cases.map fun c => (c.name, c.typ))

/-- `compare_record_fields`: records are not extensible, so an added field breaks. -/
def compareRecordFields (old new : List ParsedField) (path : String) : List ChangeEntry :=
  let oldMap := fieldMap old
  let newMap := fieldMap new
  (oldMap.lacking newMap).map (fun name =>
      ⟨s!"field '{name}' was removed from record", .breaking, s!"{path}.{name}"⟩) ++
    (newMap.lacking oldMap).map (fun name =>
      ⟨s!"field '{name}' was added to record (breaking: WIT records are not extensible)",
        .breaking, s!"{path}.{name}"⟩) ++
    (oldMap.common newMap).flatMap fun (name, oldType, newType) =>
      if oldType ≠ newType then
        [⟨s!"field '{name}' type changed in record", .breaking, s!"{path}.{name}"⟩]
      else []

/-- `compare_variant_cases`: an added case is a minor change. -/
def compareVariantCases (old new : List ParsedCase) (path : String) : List ChangeEntry :=
  let oldMap := caseMap old
  let newMap := caseMap new
  (oldMap.lacking newMap).map (fun name =>
      ⟨s!"variant case '{name}' was removed", .breaking, s!"{path}.{name}"⟩) ++
    (newMap.lacking oldMap).map (fun name =>
      ⟨s!"variant case '{name}' was added", .minor, s!"{path}.{name}"⟩) ++
    (oldMap.common newMap).flatMap fun (name, oldType, newType) =>
      if oldType ≠ newType then
        [⟨s!"variant case '{name}' payload type changed", .breaking, s!"{path}.{name}"⟩]
      else []

/-- `compare_type_defs`. -/
def compareTypeDefs (old new : ParsedTypeDef) (path : String) : List ChangeEntry :=
  match old.kind, new.kind with
  | .record oldFields, .record newFields => compareRecordFields oldFields newFields path
  | .variant oldCases, .variant newCases => compareVariantCases oldCases newCases path
  | .enum oldCases, .enum newCases =>
      (oldCases.filter (· ∉ newCases)).map (fun case =>
          ⟨s!"enum case '{case}' was removed", .breaking, s!"{path}.{case}"⟩) ++
        (newCases.filter (· ∉ oldCases)).map fun case =>
          ⟨s!"enum case '{case}' was added", .minor, s!"{path}.{case}"⟩
  | oldKind, newKind =>
      -- flags, resources and aliases are compared by the name of their kind only
      let oldKindStr := typeDefKindName oldKind
      let newKindStr := typeDefKindName newKind
      if oldKindStr ≠ newKindStr then
        [⟨s!"type definition kind changed from {oldKindStr} to {newKindStr}", .breaking, path⟩]
      else []

/-! ## Interfaces and worlds -/

/-- The comparison of one function's signature. -/
def compareSignatures (pathPrefix funcName : String) (old new : ParsedFunction) :
    List ChangeEntry :=
  (if old.params.length ≠ new.params.length then
    [⟨s!"function '{funcName}' parameter count changed from " ++
        s!"{old.params.length} to {new.params.length}", .breaking, s!"{pathPrefix}.{funcName}"⟩]
  else
    (old.params.zip new.params).flatMap fun (oldP, newP) =>
      if oldP.typ ≠ newP.typ then
        [⟨s!"function '{funcName}' parameter '{oldP.name}' type changed", .breaking,
          s!"{pathPrefix}.{funcName}.{oldP.name}"⟩]
      else []) ++
  if old.result ≠ new.result then
    [⟨s!"function '{funcName}' return type changed", .breaking, s!"{pathPrefix}.{funcName}"⟩]
  else []

/-- `compare_interface_contents`. -/
def compareInterfaceContents (old new : ParsedInterface) (pathPrefix : String) :
    List ChangeEntry :=
  (old.functions.lacking new.functions).map (fun funcName =>
      ⟨s!"function '{funcName}' was removed from interface", .breaking,
        s!"{pathPrefix}.{funcName}"⟩) ++
    (new.functions.lacking old.functions).map (fun funcName =>
      ⟨s!"function '{funcName}' was added to interface", .minor, s!"{pathPrefix}.{funcName}"⟩) ++
    (old.functions.common new.functions).flatMap (fun (funcName, oldFunc, newFunc) =>
      compareSignatures pathPrefix funcName oldFunc newFunc) ++
    -- added resources are not looked for
    (old.resources.filter (· ∉ new.resources)).map (fun resName =>
      ⟨s!"resource '{resName}' was removed", .breaking, s!"{pathPrefix}.{resName}"⟩) ++
    old.types.entries.flatMap (fun e =>
      match new.types.lookup e.1 with
      | some newTd => compareTypeDefs e.2 newTd s!"{pathPrefix}.{e.1}"
      | none => [⟨s!"type '{e.1}' was removed", .breaking, s!"{pathPrefix}.{e.1}"⟩]) ++
    (new.types.lacking old.types).map fun typeName =>
      ⟨s!"type '{typeName}' was added", .minor, s!"{pathPrefix}.{typeName}"⟩

/-- `compare_interfaces`. -/
def compareInterfaces (old new : KeyMap String ParsedInterface) : List ChangeEntry :=
  (old.lacking new).map (fun name =>
      ⟨s!"interface '{name}' was removed", .breaking, name⟩) ++
    (new.lacking old).map (fun name =>
      ⟨s!"interface '{name}' was added", .minor, name⟩) ++
    (old.common new).flatMap fun (name, oldIface, newIface) =>
      compareInterfaceContents oldIface newIface name

/-- `compare_worlds`: worlds are compared by name only. -/
def compareWorlds (old new : KeyMap String ParsedWorld) : List ChangeEntry :=
  (old.lacking new).map (fun name =>
      ⟨s!"world '{name}' was removed", .breaking, s!"world:{name}"⟩) ++
    (new.lacking old).map fun name =>
      ⟨s!"world '{name}' was added", .minor, s!"world:{name}"⟩

/-! ## The verdict -/

/-- The verdict on a list of changes. -/
def verdictOf (changes : List ChangeEntry) : CompatibilityVerdict :=
  if changes.any fun c => c.severity = .breaking then .breaking
  else if changes.any fun c => c.severity = .minor then .compatibleWithAdditions
  else .compatible

/-- `check_compatibility`. -/
def checkCompatibility (old new : ParsedPackage) : CompatibilityReport :=
  let changes := compareInterfaces old.interfaces new.interfaces ++
    compareWorlds old.worlds new.worlds
  { verdict := verdictOf changes
    changes := changes
    oldVersion := old.version.getD (Version.new 0 0 0)
    newVersion := new.version.getD (Version.new 0 0 0) }

/-! ## Lists of changes without a severity -/

/-- No entry of the list has the severity. -/
def Silent (severity : ChangeSeverity) (changes : List ChangeEntry) : Prop :=
  ∀ c ∈ changes, c.severity ≠ severity

section Silent

variable {severity : ChangeSeverity}

@[simp] theorem silent_nil : Silent severity [] := by simp [Silent]

@[simp] theorem silent_append {as bs : List ChangeEntry} :
    Silent severity (as ++ bs) ↔ Silent severity as ∧ Silent severity bs :=
  List.forall_mem_append

@[simp] theorem silent_singleton {c : ChangeEntry} :
    Silent severity [c] ↔ c.severity ≠ severity := by
  simp [Silent]

@[simp] theorem silent_flatMap {α : Type*} {l : List α} {f : α → List ChangeEntry} :
    Silent severity (l.flatMap f) ↔ ∀ a ∈ l, Silent severity (f a) := by
  unfold Silent
  simp only [List.mem_flatMap]
  constructor
  · intro h a ha c hc
    exact h c ⟨a, ha, hc⟩
  · rintro h c ⟨a, ha, hc⟩
    exact h a ha c hc

@[simp] theorem silent_map {α : Type*} {l : List α} {f : α → ChangeEntry} :
    Silent severity (l.map f) ↔ ∀ a ∈ l, (f a).severity ≠ severity := by
  simp [Silent]

@[simp] theorem silent_ite {p : Prop} [Decidable p] {as bs : List ChangeEntry} :
    Silent severity (if p then as else bs) ↔
      (p → Silent severity as) ∧ (¬ p → Silent severity bs) := by
  split <;> simp [*]

end Silent

/-- A verdict other than breaking: no change is breaking. -/
theorem verdictOf_ne_breaking {changes : List ChangeEntry} :
    verdictOf changes ≠ .breaking ↔ Silent .breaking changes := by
  unfold verdictOf Silent
  by_cases hb : changes.any fun c => c.severity = .breaking
  · rw [if_pos hb]
    obtain ⟨c, hc, hsev⟩ := List.any_eq_true.mp hb
    simp only [ne_eq, not_true_eq_false, false_iff, not_forall, not_not]
    exact ⟨c, hc, of_decide_eq_true hsev⟩
  · rw [if_neg hb]
    have hall : ∀ c ∈ changes, c.severity ≠ .breaking := by simpa using hb
    split <;> simp only [ne_eq, reduceCtorEq, not_false_eq_true, true_iff] <;> exact hall

/-- The compatible verdict: no change is breaking and none is minor. -/
theorem verdictOf_eq_compatible {changes : List ChangeEntry} :
    verdictOf changes = .compatible ↔ Silent .breaking changes ∧ Silent .minor changes := by
  rw [← verdictOf_ne_breaking]
  unfold verdictOf Silent
  by_cases hb : changes.any fun c => c.severity = .breaking
  · simp [hb]
  · rw [if_neg hb]
    by_cases hm : changes.any fun c => c.severity = .minor
    · rw [if_pos hm]
      obtain ⟨c, hc, hsev⟩ := List.any_eq_true.mp hm
      simp only [reduceCtorEq, ne_eq, not_false_eq_true, true_and, false_iff, not_forall, not_not]
      exact ⟨c, hc, of_decide_eq_true hsev⟩
    · rw [if_neg hm]
      simpa using hm

end Torvyn.Contracts
