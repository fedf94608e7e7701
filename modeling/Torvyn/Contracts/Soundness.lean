/-
# What a compatibility verdict promises

A verdict other than `Breaking` should mean that everything of the old package is
still there, unchanged; the verdict `Compatible` that nothing is new either.  The
comparison sees most of a package: interfaces, functions, removed resources, records,
variants and enums.  It does not look into flags, alias targets and worlds, and it
does not look for added resources.  The promise is kept exactly where these agree.
-/
import Torvyn.Contracts.Compatibility

namespace Torvyn.Contracts

open KeyMap

/-! ## What it means to be unchanged -/

/-- The function takes and returns the same types. -/
def FunctionUnchanged (old new : ParsedFunction) : Prop :=
  old.params.map ParsedParam.typ = new.params.map ParsedParam.typ ∧ old.result = new.result

/-- The type definition is the same, except that a variant or an enum may have more
cases. -/
def KindUnchanged : ParsedTypeDefKind → ParsedTypeDefKind → Prop
  | .record old, .record new => ∀ f, f ∈ old ↔ f ∈ new
  | .variant old, .variant new => ∀ c ∈ old, c ∈ new
  | .enum old, .enum new => ∀ c ∈ old, c ∈ new
  | .flags old, .flags new => ∀ m, m ∈ old ↔ m ∈ new
  | .resource, .resource => True
  | .alias old, .alias new => old = new
  | _, _ => False

/-- The type definition has no case that the old one lacks. -/
def KindNothingNew : ParsedTypeDefKind → ParsedTypeDefKind → Prop
  | .variant old, .variant new => ∀ c ∈ new, c ∈ old
  | .enum old, .enum new => ∀ c ∈ new, c ∈ old
  | _, _ => True

/-- What a world imports or exports under a path is the same. -/
def ItemUnchanged : WorldImportExport → WorldImportExport → Prop
  | .interface old, .interface new => old = new
  | .function old, .function new => FunctionUnchanged old new
  | _, _ => False

/-- The world has the same imports and exports. -/
def WorldUnchanged (old new : ParsedWorld) : Prop :=
  (Kept ItemUnchanged old.imports new.imports ∧ ∀ path ∈ new.imports, path ∈ old.imports) ∧
    Kept ItemUnchanged old.exports new.exports ∧ ∀ path ∈ new.exports, path ∈ old.exports

/-- Every function, resource and type definition of the old interface is still there;
`R` says what a type definition must keep. -/
def InterfaceKept (R : ParsedTypeDefKind → ParsedTypeDefKind → Prop)
    (old new : ParsedInterface) : Prop :=
  Kept FunctionUnchanged old.functions new.functions ∧
    (∀ r ∈ old.resources, r ∈ new.resources) ∧
    Kept (fun o n => R o.kind n.kind) old.types new.types

/-- Every interface and world of the old package is still there; `R` says what a type
definition must keep and `W` what a world must keep. -/
def PackageKept (R : ParsedTypeDefKind → ParsedTypeDefKind → Prop)
    (W : ParsedWorld → ParsedWorld → Prop) (old new : ParsedPackage) : Prop :=
  Kept (InterfaceKept R) old.interfaces new.interfaces ∧ Kept W old.worlds new.worlds

/-- Everything of the old package exists unchanged in the new one. -/
def PackageUnchanged : ParsedPackage → ParsedPackage → Prop :=
  PackageKept KindUnchanged WorldUnchanged

/-- No function, resource, type definition or case of the new interface is new. -/
def InterfaceNothingNew (old new : ParsedInterface) : Prop :=
  (∀ name ∈ new.functions, name ∈ old.functions) ∧
    (∀ r ∈ new.resources, r ∈ old.resources) ∧
    (∀ name ∈ new.types, name ∈ old.types) ∧
    Shared (fun o n => KindNothingNew o.kind n.kind) old.types new.types

/-- The new package contains nothing that the old one lacks. -/
def PackageNothingNew (old new : ParsedPackage) : Prop :=
  (∀ name ∈ new.interfaces, name ∈ old.interfaces) ∧
    Shared InterfaceNothingNew old.interfaces new.interfaces ∧
    ∀ name ∈ new.worlds, name ∈ old.worlds

/-- The verdict on the two packages keeps its promise. -/
def VerdictSound (old new : ParsedPackage) : Prop :=
  ((checkCompatibility old new).verdict ≠ .breaking → PackageUnchanged old new) ∧
    ((checkCompatibility old new).verdict = .compatible →
      PackageUnchanged old new ∧ PackageNothingNew old new)

/-! ## What the comparison sees -/

/-- What is seen of a type definition: the fields of a record and the cases of a
variant by name, the cases of an enum, and otherwise the kind alone. -/
def KindSeen : ParsedTypeDefKind → ParsedTypeDefKind → Prop
  | .record old, .record new => ∀ name, (fieldMap old).lookup name = (fieldMap new).lookup name
  | .variant old, .variant new => Kept (· = ·) (caseMap old) (caseMap new)
  | .enum old, .enum new => ∀ c ∈ old, c ∈ new
  | .flags _, .flags _ => True
  | .resource, .resource => True
  | .alias _, .alias _ => True
  | _, _ => False

/-- No added case is seen. -/
def KindNothingNewSeen : ParsedTypeDefKind → ParsedTypeDefKind → Prop
  | .variant old, .variant new => ∀ name ∈ caseMap new, name ∈ caseMap old
  | .enum old, .enum new => ∀ c ∈ new, c ∈ old
  | _, _ => True

/-- Nothing that is compared differs, added items apart. -/
def PackageSeen : ParsedPackage → ParsedPackage → Prop :=
  PackageKept KindSeen fun _ _ => True

/-- No added function, type definition or case of an interface is seen. -/
def InterfaceNothingNewSeen (old new : ParsedInterface) : Prop :=
  (∀ name ∈ new.functions, name ∈ old.functions) ∧
    (∀ name ∈ new.types, name ∈ old.types) ∧
    Shared (fun o n => KindNothingNewSeen o.kind n.kind) old.types new.types

/-- No added item of the package is seen. -/
def PackageNothingNewSeen (old new : ParsedPackage) : Prop :=
  (∀ name ∈ new.interfaces, name ∈ old.interfaces) ∧
    Shared InterfaceNothingNewSeen old.interfaces new.interfaces ∧
    ∀ name ∈ new.worlds, name ∈ old.worlds

/-! ## What the comparison does not see -/

/-- The part of a type definition that is not compared is unchanged: the members of
flags, the target of an alias, and in a record or a variant that repeats a name the
entries that a later one overwrites. -/
def KindUnseenSame : ParsedTypeDefKind → ParsedTypeDefKind → Prop
  | .record old, .record new =>
      (∀ f ∈ old, (fieldMap old).lookup f.name ≠ some f.typ → f ∈ new) ∧
        ∀ f ∈ new, (fieldMap new).lookup f.name ≠ some f.typ → f ∈ old
  | .variant old, .variant new =>
      ∀ c ∈ old, (caseMap old).lookup c.name ≠ some c.typ → c ∈ new
  | .flags old, .flags new => ∀ m, m ∈ old ↔ m ∈ new
  | .alias old, .alias new => old = new
  | _, _ => True

/-- No case is new among those that a later one overwrites. -/
def KindNothingNewUnseen : ParsedTypeDefKind → ParsedTypeDefKind → Prop
  | .variant old, .variant new =>
      ∀ c ∈ new, (caseMap new).lookup c.name ≠ some c.typ → c ∈ old
  | _, _ => True

/-- What is not compared of the packages is unchanged: flags and aliases of the
interfaces, and the imports and exports of the worlds. -/
def PackageUnseenSame (old new : ParsedPackage) : Prop :=
  Shared (fun o n => Shared (fun s t => KindUnseenSame s.kind t.kind) o.types n.types)
      old.interfaces new.interfaces ∧
    Shared WorldUnchanged old.worlds new.worlds

/-- No interface that both packages have gets a new resource. -/
def PackageNothingNewUnseen (old new : ParsedPackage) : Prop :=
  Shared (fun o n => (∀ r ∈ n.resources, r ∈ o.resources) ∧
      Shared (fun s t => KindNothingNewUnseen s.kind t.kind) o.types n.types)
    old.interfaces new.interfaces

/-! ## Changes of a type definition -/

section Kinds

variable {path : String}

/-- A record changes silently exactly when the collected fields agree. -/
theorem silent_compareRecordFields {old new : List ParsedField} :
    Silent .breaking (compareRecordFields old new path) ↔
      ∀ name, (fieldMap old).lookup name = (fieldMap new).lookup name := by
  simp only [compareRecordFields, silent_append, silent_map, silent_flatMap, mem_lacking]
  constructor
  · rintro ⟨⟨hremoved, hadded⟩, hchanged⟩ name
    cases ho : (fieldMap old).lookup name with
    | none =>
        cases hn : (fieldMap new).lookup name with
        | none => rfl
        | some t =>
            -- a field of the new record alone was reported as added
            have hout : name ∉ fieldMap old := by simp [mem_iff_exists, ho]
            exact absurd rfl (hadded name ⟨mem_iff_exists.mpr ⟨t, hn⟩, hout⟩)
    | some t =>
        cases hn : (fieldMap new).lookup name with
        | none =>
            have hout : name ∉ fieldMap new := by simp [mem_iff_exists, hn]
            exact absurd rfl (hremoved name ⟨mem_iff_exists.mpr ⟨t, ho⟩, hout⟩)
        | some u =>
            have hsame := hchanged (name, t, u) (mem_common.mpr ⟨ho, hn⟩)
            by_contra hne
            have htu : t ≠ u := fun h => hne (by rw [h])
            simp [htu] at hsame
  · intro h
    refine ⟨⟨?_, ?_⟩, ?_⟩
    · rintro name ⟨hin, hout⟩
      rw [mem_iff_exists, h name, ← mem_iff_exists] at hin
      exact absurd hin hout
    · rintro name ⟨hin, hout⟩
      rw [mem_iff_exists, ← h name, ← mem_iff_exists] at hin
      exact absurd hin hout
    · rintro ⟨name, t, u⟩ hmem
      obtain ⟨ho, hn⟩ := mem_common.mp hmem
      rw [h name, hn] at ho
      cases ho
      simp

/-- No change of a record is minor. -/
theorem silent_minor_compareRecordFields {old new : List ParsedField} :
    Silent .minor (compareRecordFields old new path) := by
  simp [compareRecordFields]

/-- A variant changes silently exactly when its cases are kept. -/
theorem silent_compareVariantCases {old new : List ParsedCase} :
    Silent .breaking (compareVariantCases old new path) ↔
      Kept (· = ·) (caseMap old) (caseMap new) := by
  simp only [compareVariantCases, silent_append, silent_map, silent_flatMap, mem_lacking,
    kept_iff]
  constructor
  · rintro ⟨⟨hremoved, -⟩, hchanged⟩
    constructor
    · intro name hin
      by_contra hout
      exact absurd rfl (hremoved name ⟨hin, hout⟩)
    · intro name t u ho hn
      have hsame := hchanged (name, t, u) (mem_common.mpr ⟨ho, hn⟩)
      by_contra hne
      simp [hne] at hsame
  · rintro ⟨hkeys, hshared⟩
    refine ⟨⟨?_, ?_⟩, ?_⟩
    · rintro name ⟨hin, hout⟩
      exact absurd (hkeys name hin) hout
    · simp
    · rintro ⟨name, t, u⟩ hmem
      obtain ⟨ho, hn⟩ := mem_common.mp hmem
      have htu := hshared name t u ho hn
      simp [htu]

/-- An added case is the only minor change of a variant. -/
theorem silent_minor_compareVariantCases {old new : List ParsedCase} :
    Silent .minor (compareVariantCases old new path) ↔
      ∀ name ∈ caseMap new, name ∈ caseMap old := by
  simp only [compareVariantCases, silent_append, silent_map, silent_flatMap, mem_lacking]
  constructor
  · rintro ⟨⟨-, hadded⟩, -⟩ name hin
    by_contra hout
    exact absurd rfl (hadded name ⟨hin, hout⟩)
  · intro h
    refine ⟨⟨by simp, ?_⟩, by simp⟩
    rintro name ⟨hin, hout⟩
    exact absurd (h name hin) hout

/-- What is seen of two type definitions. -/
theorem silent_compareTypeDefs {old new : ParsedTypeDef} :
    Silent .breaking (compareTypeDefs old new path) ↔ KindSeen old.kind new.kind := by
  obtain ⟨old⟩ := old
  obtain ⟨new⟩ := new
  cases old <;> cases new
  case record.record => exact silent_compareRecordFields
  case variant.variant => exact silent_compareVariantCases
  case enum.enum old new =>
      simp only [compareTypeDefs, KindSeen, silent_append, silent_map, List.mem_filter]
      constructor
      · rintro ⟨hremoved, -⟩ c hin
        by_contra hout
        exact absurd rfl (hremoved c ⟨hin, by simpa using hout⟩)
      · intro h
        refine ⟨?_, by simp⟩
        rintro c ⟨hin, hout⟩
        exact absurd (h c hin) (by simpa using hout)
  all_goals simp [compareTypeDefs, KindSeen, typeDefKindName]

/-- Which additions to a type definition are seen. -/
theorem silent_minor_compareTypeDefs {old new : ParsedTypeDef} :
    Silent .minor (compareTypeDefs old new path) ↔ KindNothingNewSeen old.kind new.kind := by
  obtain ⟨old⟩ := old
  obtain ⟨new⟩ := new
  cases old <;> cases new
  case record.record => simp [compareTypeDefs, KindNothingNewSeen, silent_minor_compareRecordFields]
  case variant.variant => exact silent_minor_compareVariantCases
  case enum.enum old new =>
      simp only [compareTypeDefs, KindNothingNewSeen, silent_append, silent_map, List.mem_filter]
      constructor
      · rintro ⟨-, hadded⟩ c hin
        by_contra hout
        exact absurd rfl (hadded c ⟨hin, by simpa using hout⟩)
      · intro h
        refine ⟨by simp, ?_⟩
        rintro c ⟨hin, hout⟩
        exact absurd (h c hin) (by simpa using hout)
  all_goals simp [compareTypeDefs, KindNothingNewSeen, typeDefKindName]

end Kinds

/-- A field or case that is not overwritten belongs to every list whose collected map
agrees with it. -/
theorem mem_fields_of_lookup {fields : List ParsedField} {f : ParsedField}
    (h : (fieldMap fields).lookup f.name = some f.typ) : f ∈ fields := by
  obtain ⟨g, hg, heq⟩ := List.mem_map.mp (mem_of_lookup_collect h)
  cases g
  cases heq
  exact hg

theorem mem_cases_of_lookup {cases : List ParsedCase} {c : ParsedCase}
    (h : (caseMap cases).lookup c.name = some c.typ) : c ∈ cases := by
  obtain ⟨d, hd, heq⟩ := List.mem_map.mp (mem_of_lookup_collect h)
  cases d
  cases heq
  exact hd

/-- Of two type definitions that look the same, the first is unchanged exactly when
the part that is not compared is. -/
theorem kindUnchanged_iff {old new : ParsedTypeDefKind} (h : KindSeen old new) :
    KindUnchanged old new ↔ KindUnseenSame old new := by
  cases old <;> cases new
  case record.record old new =>
      constructor
      · intro hsame
        exact ⟨fun f hf _ => (hsame f).mp hf, fun f hf _ => (hsame f).mpr hf⟩
      · rintro ⟨hold, hnew⟩ f
        constructor
        · intro hf
          by_cases hlast : (fieldMap old).lookup f.name = some f.typ
          · exact mem_fields_of_lookup ((h f.name).symm.trans hlast)
          · exact hold f hf hlast
        · intro hf
          by_cases hlast : (fieldMap new).lookup f.name = some f.typ
          · exact mem_fields_of_lookup ((h f.name).trans hlast)
          · exact hnew f hf hlast
  case variant.variant old new =>
      constructor
      · exact fun hsame c hc _ => hsame c hc
      · intro hold c hc
        by_cases hlast : (caseMap old).lookup c.name = some c.typ
        · obtain ⟨t, ht, heq⟩ := h c.name c.typ hlast
          exact mem_cases_of_lookup (ht.trans (congrArg some heq.symm))
        · exact hold c hc hlast
  all_goals first | exact h.elim | simp_all [KindUnchanged, KindUnseenSame, KindSeen]

/-- Of two type definitions that look the same and show no addition, the second has
nothing new exactly when it hides nothing new. -/
theorem kindNothingNew_iff {old new : ParsedTypeDefKind} (h : KindSeen old new)
    (hnew : KindNothingNewSeen old new) :
    KindNothingNew old new ↔ KindNothingNewUnseen old new := by
  cases old <;> cases new
  case variant.variant old new =>
      constructor
      · exact fun hsame c hc _ => hsame c hc
      · intro hunseen c hc
        by_cases hlast : (caseMap new).lookup c.name = some c.typ
        · obtain ⟨t, ht⟩ := mem_iff_exists.mp (hnew c.name (mem_iff_exists.mpr ⟨_, hlast⟩))
          obtain ⟨u, hu, heq⟩ := h c.name t ht
          rw [hlast] at hu
          cases hu
          exact mem_cases_of_lookup (ht.trans (congrArg some heq))
        · exact hunseen c hc hlast
  all_goals simp_all [KindNothingNew, KindNothingNewUnseen, KindNothingNewSeen]

/-! ## Changes of an interface -/

/-- Two parameter lists have the same types exactly when they are equally long and
agree position by position. -/
theorem map_typ_eq_iff {old new : List ParsedParam} :
    old.map ParsedParam.typ = new.map ParsedParam.typ ↔
      old.length = new.length ∧ ∀ p ∈ old.zip new, p.1.typ = p.2.typ := by
  induction old generalizing new with
  | nil => cases new <;> simp
  | cons p old ih =>
      cases new with
      | nil => simp
      | cons q new =>
          simp only [List.map_cons, List.cons.injEq, ih, List.length_cons, Nat.add_right_cancel_iff,
            List.zip_cons_cons, List.forall_mem_cons]
          tauto

/-- A signature changes silently exactly when the function is unchanged. -/
theorem silent_compareSignatures {old new : ParsedFunction} {path name : String} :
    Silent .breaking (compareSignatures path name old new) ↔ FunctionUnchanged old new := by
  simp only [compareSignatures, silent_append, silent_ite, silent_singleton, silent_flatMap,
    silent_nil, FunctionUnchanged, map_typ_eq_iff, ne_eq, not_true_eq_false, imp_false, not_not,
    implies_true, and_true, Prod.forall]
  constructor
  · rintro ⟨⟨hlen, htypes⟩, hresult⟩
    exact ⟨⟨hlen, htypes hlen⟩, hresult⟩
  · rintro ⟨⟨hlen, htypes⟩, hresult⟩
    exact ⟨⟨hlen, fun _ => htypes⟩, hresult⟩

/-- No change of a signature is minor. -/
theorem silent_minor_compareSignatures {old new : ParsedFunction} {path name : String} :
    Silent .minor (compareSignatures path name old new) := by
  simp [compareSignatures]

/-- What is seen of two interfaces. -/
theorem silent_compareInterfaceContents {old new : ParsedInterface} {path : String} :
    Silent .breaking (compareInterfaceContents old new path) ↔ InterfaceKept KindSeen old new := by
  simp only [compareInterfaceContents, silent_append, silent_map, silent_flatMap, mem_lacking,
    silent_compareSignatures, Prod.forall, mem_common, List.mem_filter, InterfaceKept, kept_iff]
  constructor
  · rintro ⟨⟨⟨⟨⟨hremoved, -⟩, hfuncs⟩, hres⟩, htypes⟩, -⟩
    refine ⟨⟨?_, fun k v w hv hw => hfuncs k v w ⟨hv, hw⟩⟩, ?_, ?_, ?_⟩
    · intro name hin
      by_contra hout
      exact absurd rfl (hremoved name ⟨hin, hout⟩)
    · intro r hin
      by_contra hout
      exact absurd rfl (hres r ⟨hin, by simpa using hout⟩)
    · intro name hin
      obtain ⟨o, ho⟩ := mem_iff_exists.mp hin
      have hsilent := htypes ⟨name, o⟩ (mem_entries_iff.mpr ho)
      by_contra hout
      have hnone : new.types.lookup name = none := by
        simpa [mem_iff_exists, Option.eq_none_iff_forall_ne_some] using hout
      simp [hnone] at hsilent
    · intro name o n ho hn
      have hsilent := htypes ⟨name, o⟩ (mem_entries_iff.mpr ho)
      simp only [hn] at hsilent
      exact silent_compareTypeDefs.mp hsilent
  · rintro ⟨⟨hkeys, hfuncs⟩, hres, htkeys, htypes⟩
    refine ⟨⟨⟨⟨⟨?_, by simp⟩, fun k v w h => hfuncs k v w h.1 h.2⟩, ?_⟩, ?_⟩, by simp⟩
    · rintro name ⟨hin, hout⟩
      exact absurd (hkeys name hin) hout
    · rintro r ⟨hin, hout⟩
      exact absurd (hres r hin) (by simpa using hout)
    · rintro ⟨name, o⟩ hmem
      have ho := mem_entries_iff.mp hmem
      obtain ⟨n, hn⟩ := mem_iff_exists.mp (htkeys name (mem_iff_exists.mpr ⟨o, ho⟩))
      simp only [hn]
      exact silent_compareTypeDefs.mpr (htypes name o n ho hn)

/-- Which additions to an interface are seen. -/
theorem silent_minor_compareInterfaceContents {old new : ParsedInterface} {path : String} :
    Silent .minor (compareInterfaceContents old new path) ↔ InterfaceNothingNewSeen old new := by
  simp only [compareInterfaceContents, silent_append, silent_map, silent_flatMap, mem_lacking,
    silent_minor_compareSignatures, Prod.forall, List.mem_filter, InterfaceNothingNewSeen]
  constructor
  · rintro ⟨⟨⟨⟨⟨-, hadded⟩, -⟩, -⟩, htypes⟩, htadded⟩
    refine ⟨?_, ?_, ?_⟩
    · intro name hin
      by_contra hout
      exact absurd rfl (hadded name ⟨hin, hout⟩)
    · intro name hin
      by_contra hout
      exact absurd rfl (htadded name ⟨hin, hout⟩)
    · intro name o n ho hn
      have hsilent := htypes ⟨name, o⟩ (mem_entries_iff.mpr ho)
      simp only [hn] at hsilent
      exact silent_minor_compareTypeDefs.mp hsilent
  · rintro ⟨hkeys, htkeys, htypes⟩
    refine ⟨⟨⟨⟨⟨by simp, ?_⟩, by simp⟩, by simp⟩, ?_⟩, ?_⟩
    · rintro name ⟨hin, hout⟩
      exact absurd (hkeys name hin) hout
    · rintro ⟨name, o⟩ hmem
      have ho := mem_entries_iff.mp hmem
      cases hn : new.types.lookup name with
      | none => simp
      | some n => exact silent_minor_compareTypeDefs.mpr (htypes name o n ho hn)
    · rintro name ⟨hin, hout⟩
      exact absurd (htkeys name hin) hout

/-! ## The verdict -/

/-- The verdict is not breaking exactly when the packages look the same, additions
apart. -/
theorem verdict_ne_breaking_iff {old new : ParsedPackage} :
    (checkCompatibility old new).verdict ≠ .breaking ↔ PackageSeen old new := by
  simp only [checkCompatibility, verdictOf_ne_breaking, compareInterfaces, compareWorlds,
    silent_append, silent_map, silent_flatMap, mem_lacking, Prod.forall, mem_common,
    silent_compareInterfaceContents, PackageSeen, PackageKept, kept_iff]
  constructor
  · rintro ⟨⟨⟨hremoved, -⟩, hshared⟩, hworlds, -⟩
    refine ⟨⟨?_, fun k v w hv hw => hshared k v w ⟨hv, hw⟩⟩, ?_, fun _ _ _ _ _ => trivial⟩
    · intro name hin
      by_contra hout
      exact absurd rfl (hremoved name ⟨hin, hout⟩)
    · intro name hin
      by_contra hout
      exact absurd rfl (hworlds name ⟨hin, hout⟩)
  · rintro ⟨⟨hkeys, hshared⟩, hworlds, -⟩
    refine ⟨⟨⟨?_, by simp⟩, fun k v w h => hshared k v w h.1 h.2⟩, ?_, by simp⟩
    · rintro name ⟨hin, hout⟩
      exact absurd (hkeys name hin) hout
    · rintro name ⟨hin, hout⟩
      exact absurd (hworlds name hin) hout

/-- The verdict is compatible exactly when the packages look the same and no addition
is seen. -/
theorem verdict_eq_compatible_iff {old new : ParsedPackage} :
    (checkCompatibility old new).verdict = .compatible ↔
      PackageSeen old new ∧ PackageNothingNewSeen old new := by
  rw [← verdict_ne_breaking_iff]
  simp only [checkCompatibility, verdictOf_eq_compatible, verdictOf_ne_breaking]
  apply and_congr_right
  intro _
  simp only [compareInterfaces, compareWorlds, silent_append, silent_map, silent_flatMap,
    mem_lacking, Prod.forall, mem_common, silent_minor_compareInterfaceContents,
    PackageNothingNewSeen]
  constructor
  · rintro ⟨⟨⟨-, hadded⟩, hshared⟩, -, hworlds⟩
    refine ⟨?_, fun k v w hv hw => hshared k v w ⟨hv, hw⟩, ?_⟩
    · intro name hin
      by_contra hout
      exact absurd rfl (hadded name ⟨hin, hout⟩)
    · intro name hin
      by_contra hout
      exact absurd rfl (hworlds name ⟨hin, hout⟩)
  · rintro ⟨hkeys, hshared, hworlds⟩
    refine ⟨⟨⟨by simp, ?_⟩, fun k v w h => hshared k v w h.1 h.2⟩, by simp, ?_⟩
    · rintro name ⟨hin, hout⟩
      exact absurd (hkeys name hin) hout
    · rintro name ⟨hin, hout⟩
      exact absurd (hworlds name hin) hout

/-- Of two packages that look the same, the first is unchanged exactly when the part
that is not compared is. -/
theorem packageUnchanged_iff {old new : ParsedPackage} (h : PackageSeen old new) :
    PackageUnchanged old new ↔ PackageUnseenSame old new := by
  refine and_congr (kept_congr h.1 fun o n hin => ?_) (kept_congr h.2 fun _ _ _ => Iff.rfl)
  obtain ⟨hfuncs, hres, htypes⟩ := hin
  rw [InterfaceKept, and_iff_right hfuncs, and_iff_right hres]
  exact kept_congr htypes fun _ _ hkind => kindUnchanged_iff hkind

/-- Of two packages that look the same and show no addition, the second has nothing
new exactly when it hides nothing new. -/
theorem packageNothingNew_iff {old new : ParsedPackage} (h : PackageSeen old new)
    (hnew : PackageNothingNewSeen old new) :
    PackageNothingNew old new ↔ PackageNothingNewUnseen old new := by
  obtain ⟨hkeys, hshared, hworlds⟩ := hnew
  rw [PackageNothingNew, and_iff_right hkeys, and_iff_left hworlds]
  have hboth := shared_and.mpr ⟨(kept_iff.mp h.1).2, hshared⟩
  refine shared_congr hboth fun o n hin => ?_
  obtain ⟨⟨-, -, htypes⟩, hfkeys, htkeys, htseen⟩ := hin
  rw [InterfaceNothingNew, and_iff_right hfkeys, and_iff_right htkeys]
  refine and_congr_right fun _ => ?_
  exact shared_congr (shared_and.mpr ⟨(kept_iff.mp htypes).2, htseen⟩)
    fun _ _ hkind => kindNothingNew_iff hkind.1 hkind.2

/-- **A compatibility verdict is sound exactly when the packages look different, or
agree also in what is not compared**: flags, aliases and worlds, and, where no
addition is seen, the resources of each interface. -/
theorem verdict_sound_iff (old new : ParsedPackage) :
    VerdictSound old new ↔
      (PackageSeen old new → PackageUnseenSame old new ∧
        (PackageNothingNewSeen old new → PackageNothingNewUnseen old new)) := by
  rw [VerdictSound, verdict_ne_breaking_iff, verdict_eq_compatible_iff]
  constructor
  · rintro ⟨hunchanged, hnothing⟩ hseen
    refine ⟨(packageUnchanged_iff hseen).mp (hunchanged hseen), fun hnew => ?_⟩
    exact (packageNothingNew_iff hseen hnew).mp (hnothing ⟨hseen, hnew⟩).2
  · intro h
    constructor
    · exact fun hseen => (packageUnchanged_iff hseen).mpr (h hseen).1
    · rintro ⟨hseen, hnew⟩
      obtain ⟨hsame, hunseen⟩ := h hseen
      exact ⟨(packageUnchanged_iff hseen).mpr hsame,
        (packageNothingNew_iff hseen hnew).mpr (hunseen hnew)⟩

/-- A package of one interface with one flags type. -/
def flagsPackage (members : List String) : ParsedPackage where
  version := some (Version.new 1 0 0)
  interfaces := KeyMap.collect [("files", {
    functions := ∅
    types := KeyMap.collect [("mode", ⟨.flags members⟩)]
    resources := [] })]
  worlds := ∅

/-- A flag is removed and the verdict is `Compatible`: the members of flags are not
compared. -/
theorem verdict_unsound_on_flags :
    (checkCompatibility (flagsPackage ["read", "write"]) (flagsPackage ["read"])).verdict
        = .compatible ∧
      ¬ PackageUnchanged (flagsPackage ["read", "write"]) (flagsPackage ["read"]) := by
  constructor
  · decide
  · rintro ⟨hinterfaces, -⟩
    obtain ⟨n, hn, -, -, htypes⟩ := hinterfaces "files" _ rfl
    cases hn
    obtain ⟨t, ht, hflags⟩ := htypes "mode" _ rfl
    cases ht
    exact absurd ((hflags "write").mp (by decide)) (by decide)

end Torvyn.Contracts
