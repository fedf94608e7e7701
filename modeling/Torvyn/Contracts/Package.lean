/-
# Parsed WIT packages

The data model of `torvyn-contracts/src/parser.rs`: what the validation and the
compatibility check know about a WIT package.  The maps of the source are keyed by
name; the names that the parser stores a second time inside the values, and the list
of source files, are read by no modelled function and left out.
-/
import Torvyn.Data.KeyMap

namespace Torvyn.Contracts

/-- A semantic version. -/
structure Version where
  major : ℕ
  minor : ℕ
  patch : ℕ
  pre : String
  build : String
  deriving DecidableEq, Repr

/-- `Version::new`: no pre-release and no build part. -/
def Version.new (major minor patch : ℕ) : Version := ⟨major, minor, patch, "", ""⟩

/-! ## Types -/

/-- A WIT type. -/
inductive ParsedType where
  | primitive (name : String)
  | named (name : String)
  | list (elem : ParsedType)
  | option (elem : ParsedType)
  | result (ok : Option ParsedType) (err : Option ParsedType)
  | tuple (elems : List ParsedType)
  | borrow (inner : ParsedType)
  | own (inner : ParsedType)
  deriving Repr

namespace ParsedType

-- The derived `PartialEq` of the source, which recurses through options and lists.
mutual

/-- Equality of two types. -/
def beq : ParsedType → ParsedType → Bool
  | .primitive a, .primitive b => a == b
  | .named a, .named b => a == b
  | .list a, .list b => beq a b
  | .option a, .option b => beq a b
  | .result ok err, .result ok' err' => beqOption ok ok' && beqOption err err'
  | .tuple as, .tuple bs => beqList as bs
  | .borrow a, .borrow b => beq a b
  | .own a, .own b => beq a b
  | _, _ => false

/-- Equality of two optional types. -/
def beqOption : Option ParsedType → Option ParsedType → Bool
  | none, none => true
  | some a, some b => beq a b
  | _, _ => false

/-- Equality of two lists of types. -/
def beqList : List ParsedType → List ParsedType → Bool
  | [], [] => true
  | a :: as, b :: bs => beq a b && beqList as bs
  | _, _ => false

end

mutual

theorem beq_iff : ∀ a b : ParsedType, beq a b = true ↔ a = b := by
  intro a b
  cases a <;> cases b <;> simp [beq, beq_iff, beqOption_iff, beqList_iff]

theorem beqOption_iff : ∀ a b : Option ParsedType, beqOption a b = true ↔ a = b := by
  intro a b
  cases a <;> cases b <;> simp [beqOption, beq_iff]

theorem beqList_iff : ∀ as bs : List ParsedType, beqList as bs = true ↔ as = bs := by
  intro as bs
  cases as <;> cases bs <;> simp [beqList, beq_iff, beqList_iff]

end

instance : DecidableEq ParsedType := fun a b => decidable_of_iff _ (beq_iff a b)

end ParsedType

/-! ## Packages -/

/-- A function parameter. -/
structure ParsedParam where
  name : String
  typ : ParsedType
  deriving DecidableEq

/-- A function signature. -/
structure ParsedFunction where
  params : List ParsedParam
  result : Option ParsedType
  deriving DecidableEq

/-- A record field. -/
structure ParsedField where
  name : String
  typ : ParsedType
  deriving DecidableEq

/-- A variant case, with the type of its payload if it has one. -/
structure ParsedCase where
  name : String
  typ : Option ParsedType
  deriving DecidableEq

/-- The kinds of type definition. -/
inductive ParsedTypeDefKind where
  | record (fields : List ParsedField)
  | variant (cases : List ParsedCase)
  | enum (cases : List String)
  | flags (members : List String)
  | resource
  | alias (target : ParsedType)
  deriving DecidableEq

/-- A type definition. -/
structure ParsedTypeDef where
  kind : ParsedTypeDefKind
  deriving DecidableEq

/-- An interface: its functions, type definitions and resources. -/
structure ParsedInterface where
  functions : KeyMap String ParsedFunction
  types : KeyMap String ParsedTypeDef
  resources : List String

/-- What a world imports or exports under a path. -/
inductive WorldImportExport where
  | interface (name : String)
  | function (f : ParsedFunction)
  deriving DecidableEq

/-- A world, with its imports and exports keyed by path. -/
structure ParsedWorld where
  imports : KeyMap String WorldImportExport
  exports : KeyMap String WorldImportExport

/-- A package. -/
structure ParsedPackage where
  version : Option Version
  interfaces : KeyMap String ParsedInterface
  worlds : KeyMap String ParsedWorld

end Torvyn.Contracts
