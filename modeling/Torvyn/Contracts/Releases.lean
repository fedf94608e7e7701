/-
# Chains of releases

What `check_compatibility` of `torvyn-contracts/src/compatibility.rs` says of the releases of a
package, taken two by two.  A verdict never gets worse on the way: two releases are at most as
far apart as the worst step between them (`releases_compose`).
-/
import Torvyn.Contracts.Soundness

namespace Torvyn.Contracts

open KeyMap

/-! ## Verdicts in order -/

/-- How bad a verdict is. -/
def CompatibilityVerdict.rank : CompatibilityVerdict → ℕ
  | .compatible => 0
  | .compatibleWithAdditions => 1
  | .breaking => 2

/-- The verdict on two releases is at most this bad. -/
def AtMost (bound : CompatibilityVerdict) (old new : ParsedPackage) : Prop :=
  (checkCompatibility old new).verdict.rank ≤ bound.rank

/-! ## One item in two steps -/

variable {old mid new : ParsedTypeDefKind}

theorem KindSeen.refl (kind : ParsedTypeDefKind) : KindSeen kind kind := by
  cases kind
  case record fields => exact fun _ => rfl
  case variant cases =>
      have h := Kept.refl (R := fun t u : Option ParsedType => t = u) (fun _ => rfl) (caseMap cases)
      exact h
  case enum cases => exact fun _ hc => hc
  all_goals trivial

/-- A type definition that looks the same twice looks the same. -/
theorem KindSeen.trans (h : KindSeen old mid) (h' : KindSeen mid new) : KindSeen old new := by
  cases old <;> cases mid <;> first | exact h.elim | skip
  all_goals cases new <;> first | exact h'.elim | skip
  case record.record.record => exact fun name => (h name).trans (h' name)
  case variant.variant.variant =>
      exact Kept.trans (R := fun t u : Option ParsedType => t = u)
        (S := fun t u : Option ParsedType => t = u) (fun _ _ _ => Eq.trans) h h'
  case enum.enum.enum => exact fun c hc => h' c (h c hc)
  all_goals trivial

/-- Nothing is added in no step. -/
theorem KindNothingNewSeen.refl (kind : ParsedTypeDefKind) : KindNothingNewSeen kind kind := by
  cases kind
  case variant cases => exact fun _ hname => hname
  case enum cases => exact fun _ hc => hc
  all_goals trivial

/-- The cases that are added in two steps are added in one of them. -/
theorem KindSeen.nothingNew_trans (hsame : KindSeen old mid) (h : KindNothingNewSeen old mid)
    (h' : KindNothingNewSeen mid new) : KindNothingNewSeen old new := by
  cases old <;> cases mid <;> first | exact hsame.elim | skip
  case variant.variant =>
      cases new
      case variant => exact fun name hname => h name (h' name hname)
      all_goals trivial
  case enum.enum =>
      cases new
      case enum => exact fun c hc => h c (h' c hc)
      all_goals trivial
  all_goals trivial

theorem FunctionUnchanged.refl (f : ParsedFunction) : FunctionUnchanged f f := ⟨rfl, rfl⟩

theorem FunctionUnchanged.trans {f g h : ParsedFunction} (hfg : FunctionUnchanged f g)
    (hgh : FunctionUnchanged g h) : FunctionUnchanged f h :=
  ⟨hfg.1.trans hgh.1, hfg.2.trans hgh.2⟩

/-! ## One interface in two steps -/

section Interfaces

variable {R : ParsedTypeDefKind → ParsedTypeDefKind → Prop} {i j k : ParsedInterface}

theorem InterfaceKept.refl (hR : ∀ kind, R kind kind) (i : ParsedInterface) :
    InterfaceKept R i i :=
  ⟨Kept.refl FunctionUnchanged.refl _, fun _ hr => hr, Kept.refl (fun t => hR t.kind) _⟩

theorem InterfaceKept.trans (hR : ∀ a b c, R a b → R b c → R a c) (h : InterfaceKept R i j)
    (h' : InterfaceKept R j k) : InterfaceKept R i k :=
  ⟨h.1.trans (fun f g k => @FunctionUnchanged.trans f g k) h'.1, fun r hr => h'.2.1 r (h.2.1 r hr),
    h.2.2.trans (fun s t u => hR s.kind t.kind u.kind) h'.2.2⟩

theorem InterfaceNothingNewSeen.refl (i : ParsedInterface) : InterfaceNothingNewSeen i i := by
  refine ⟨fun _ h => h, fun _ h => h, fun name t u ht hu => ?_⟩
  obtain rfl := Option.some.inj (ht.symm.trans hu)
  exact KindNothingNewSeen.refl t.kind

/-- What is added to an interface in two steps is added in one of them. -/
theorem InterfaceKept.nothingNew_trans (hkept : InterfaceKept KindSeen i j)
    (h : InterfaceNothingNewSeen i j) (h' : InterfaceNothingNewSeen j k) :
    InterfaceNothingNewSeen i k :=
  ⟨fun name hname => h.1 name (h'.1 name hname),
    fun name hname => h.2.1 name (h'.2.1 name hname),
    hkept.2.2.shared_trans (fun _ _ _ hsame => hsame.nothingNew_trans) h.2.2 h'.2.2⟩

end Interfaces

/-! ## One package in two steps -/

section Packages

variable {p q r : ParsedPackage}

theorem PackageSeen.refl (p : ParsedPackage) : PackageSeen p p :=
  ⟨Kept.refl (InterfaceKept.refl KindSeen.refl) _, Kept.refl (fun _ => trivial) _⟩

theorem PackageSeen.trans (h : PackageSeen p q) (h' : PackageSeen q r) : PackageSeen p r :=
  ⟨h.1.trans (fun i j k => @InterfaceKept.trans KindSeen i j k fun _ _ _ => KindSeen.trans) h'.1,
    h.2.trans (fun _ _ _ _ _ => trivial) h'.2⟩

theorem PackageNothingNewSeen.refl (p : ParsedPackage) : PackageNothingNewSeen p p := by
  refine ⟨fun _ h => h, fun name i j hi hj => ?_, fun _ h => h⟩
  obtain rfl := Option.some.inj (hi.symm.trans hj)
  exact InterfaceNothingNewSeen.refl i

theorem PackageSeen.nothingNew_trans (hsame : PackageSeen p q) (h : PackageNothingNewSeen p q)
    (h' : PackageNothingNewSeen q r) : PackageNothingNewSeen p r :=
  ⟨fun name hname => h.1 name (h'.1 name hname),
    hsame.1.shared_trans (fun _ _ _ hkept => hkept.nothingNew_trans) h.2.1 h'.2.1,
    fun name hname => h.2.2 name (h'.2.2 name hname)⟩

/-- Where nothing is missing on the way back, nothing is new. -/
theorem PackageSeen.nothingNew (hback : PackageSeen q p) : PackageNothingNewSeen p q := by
  obtain ⟨hinterfaces, hworlds⟩ := hback
  refine ⟨(kept_iff.mp hinterfaces).1, fun name i j hi hj => ?_, (kept_iff.mp hworlds).1⟩
  obtain ⟨hfunctions, -, htypes⟩ := (kept_iff.mp hinterfaces).2 name j i hj hi
  refine ⟨(kept_iff.mp hfunctions).1, (kept_iff.mp htypes).1, fun typeName t u ht hu => ?_⟩
  have hkind : KindSeen u.kind t.kind := (kept_iff.mp htypes).2 typeName u t hu ht
  show KindNothingNewSeen t.kind u.kind
  cases ht' : t.kind <;> cases hu' : u.kind <;> rw [ht', hu'] at hkind <;>
    first | exact hkind.elim | skip
  case variant.variant => exact (kept_iff.mp hkind).1
  case enum.enum => exact hkind
  all_goals trivial

/-! ## The verdict -/

theorem atMost_compatible :
    AtMost .compatible p q ↔ PackageSeen p q ∧ PackageNothingNewSeen p q := by
  rw [← verdict_eq_compatible_iff, AtMost]
  cases (checkCompatibility p q).verdict <;> simp [CompatibilityVerdict.rank]

theorem atMost_additions : AtMost .compatibleWithAdditions p q ↔ PackageSeen p q := by
  rw [← verdict_ne_breaking_iff, AtMost]
  cases (checkCompatibility p q).verdict <;> simp [CompatibilityVerdict.rank]

theorem atMost_breaking : AtMost .breaking p q := by
  rw [AtMost]
  cases (checkCompatibility p q).verdict <;> simp [CompatibilityVerdict.rank]

theorem AtMost.refl (bound : CompatibilityVerdict) (p : ParsedPackage) : AtMost bound p p := by
  have h : AtMost .compatible p p :=
    atMost_compatible.mpr ⟨PackageSeen.refl p, PackageNothingNewSeen.refl p⟩
  exact h.trans (Nat.zero_le _)

/-- The verdict on two steps is not worse than the verdicts on each. -/
theorem AtMost.trans {bound : CompatibilityVerdict} (h : AtMost bound p q)
    (h' : AtMost bound q r) : AtMost bound p r := by
  cases bound with
  | compatible =>
      obtain ⟨hseen, hnew⟩ := atMost_compatible.mp h
      obtain ⟨hseen', hnew'⟩ := atMost_compatible.mp h'
      exact atMost_compatible.mpr ⟨hseen.trans hseen', hseen.nothingNew_trans hnew hnew'⟩
  | compatibleWithAdditions =>
      exact atMost_additions.mpr ((atMost_additions.mp h).trans (atMost_additions.mp h'))
  | breaking => exact atMost_breaking

instance (bound : CompatibilityVerdict) : IsTrans ParsedPackage (AtMost bound) :=
  ⟨fun _ _ _ => AtMost.trans⟩

end Packages

/-- **Releases compose**: when each release of a package is checked against the one before it, any
two of them are at most as far apart as the worst step that was found; a release is compatible with
itself, and two releases of which neither breaks the other are compatible. -/
theorem releases_compose (releases : List ParsedPackage) :
    (∀ bound, releases.IsChain (AtMost bound) ↔ releases.Pairwise (AtMost bound)) ∧
      (∀ p, (checkCompatibility p p).verdict = .compatible) ∧
        ∀ p q, (checkCompatibility p q).verdict ≠ .breaking →
          (checkCompatibility q p).verdict ≠ .breaking →
            (checkCompatibility p q).verdict = .compatible := by
  refine ⟨fun bound => List.isChain_iff_pairwise, fun p => ?_, fun p q hpq hqp => ?_⟩
  · exact verdict_eq_compatible_iff.mpr ⟨PackageSeen.refl p, PackageNothingNewSeen.refl p⟩
  · exact verdict_eq_compatible_iff.mpr
      ⟨verdict_ne_breaking_iff.mp hpq, (verdict_ne_breaking_iff.mp hqp).nothingNew⟩

end Torvyn.Contracts
