/-
# Paths

File paths as `std::path` sees them: a path is absolute or not and is made of components, without
empty ones and without `.`.  Joining an absolute name replaces the path; resolution is lexical,
from a working directory.
-/
import Torvyn.Data.LexicalPath
import Torvyn.Data.Utf8

namespace Torvyn

/-- The bytes of a name. -/
abbrev OsString := List UInt8

/-- A path. -/
structure PathBuf where
  isAbsolute : Bool
  components : List OsString
  deriving DecidableEq, Repr

namespace PathBuf

/-- The separator of components. -/
def separator : UInt8 := 47

/-- The full stop, which names the current directory and sets off an extension. -/
def dot : UInt8 := 46

/-- The name of the parent directory. -/
def up : OsString := [dot, dot]

/-- The components of a name. -/
def componentsOf (name : OsString) : List OsString := LexicalPath.components separator [dot] name

/-- The path of a name. -/
def parse (name : OsString) : PathBuf := ⟨name.head? = some separator, componentsOf name⟩

/-- `Path::join`. -/
def join (p : PathBuf) (name : OsString) : PathBuf :=
  if name.head? = some separator then parse name
  else ⟨p.isAbsolute, p.components ++ componentsOf name⟩

/-- What follows the last full stop of a name, if something precedes it. -/
def extensionOf (name : OsString) : Option OsString :=
  let after := (name.reverse.takeWhile (· ≠ dot)).reverse
  if name.length ≤ after.length + 1 then none else some after

/-- What precedes the extension of a name. -/
def stemOf (name : OsString) : OsString :=
  match extensionOf name with
  | none => name
  | some ext => name.take (name.length - ext.length - 1)

/-- `Path::with_extension`. -/
def withExtension (p : PathBuf) (ext : OsString) : PathBuf :=
  match p.components.getLast? with
  | none => p
  | some name =>
      if name = up then p
      else ⟨p.isAbsolute, p.components.dropLast ++ [stemOf name ++ dot :: ext]⟩

/-- Where a path leads from the working directory. -/
def resolve (cwd : List OsString) (p : PathBuf) : List OsString :=
  LexicalPath.walk up (if p.isAbsolute then [] else cwd) p.components

/-- Where a name leads from a directory. -/
def leadsTo (dir : List OsString) (name : OsString) : List OsString :=
  LexicalPath.walk up (if name.head? = some separator then [] else dir) (componentsOf name)

/-- The file lies below the directory. -/
def Under (dir file : List OsString) : Prop := dir <+: file ∧ dir ≠ file

instance (dir file : List OsString) : Decidable (Under dir file) :=
  inferInstanceAs (Decidable (_ ∧ _))

/-- A name that is one component. -/
def Plain (name : OsString) : Prop := componentsOf name = [name] ∧ name ≠ up

instance (name : OsString) : Decidable (Plain name) := inferInstanceAs (Decidable (_ ∧ _))

variable {cwd : List OsString} {p : PathBuf} {name : OsString}

/-- Joining a relative name goes on from the path. -/
theorem resolve_join (h : name.head? ≠ some separator) :
    (p.join name).resolve cwd = LexicalPath.walk up (p.resolve cwd) (componentsOf name) := by
  rw [join, if_neg h, resolve, LexicalPath.walk_append]
  rfl

/-- Joining an absolute name starts again. -/
theorem resolve_join_of_absolute (h : name.head? = some separator) :
    (p.join name).resolve cwd = LexicalPath.walk up [] (componentsOf name) := by
  simp [join, h, resolve, parse]

/-- A joined path leads where the name leads from the path. -/
theorem resolve_join_eq : (p.join name).resolve cwd = leadsTo (p.resolve cwd) name := by
  by_cases h : name.head? = some separator
  · rw [resolve_join_of_absolute h, leadsTo, if_pos h]
  · rw [resolve_join h, leadsTo, if_neg h]

/-- A file lies below what its directory lies at or below. -/
theorem under_concat_iff {dir parent : List OsString} :
    Under dir (parent ++ [name]) ↔ dir <+: parent := by
  constructor
  · rintro ⟨⟨rest, hrest⟩, hne⟩
    rcases List.eq_nil_or_concat rest with rfl | ⟨init, last, rfl⟩
    · exact absurd (hrest ▸ (List.append_nil dir).symm) hne
    · rw [List.concat_eq_append, ← List.append_assoc] at hrest
      exact ⟨init, (List.append_inj' hrest rfl).1⟩
  · rintro ⟨rest, rfl⟩
    refine ⟨⟨rest ++ [name], by rw [List.append_assoc]⟩, fun heq => ?_⟩
    have hlength := congrArg List.length heq
    simp at hlength

/-- A plain name has no separator, so it is relative. -/
theorem Plain.not_mem (h : Plain name) : separator ∉ name := by
  have hmem : name ∈ LexicalPath.components separator [dot] name := by
    rw [← componentsOf, h.1]
    exact List.mem_singleton_self _
  exact LexicalPath.not_mem_of_mem_components hmem

theorem Plain.relative (h : Plain name) : name.head? ≠ some separator := by
  intro hsep
  exact h.not_mem (List.mem_of_mem_head? hsep)

/-- Joining a plain name descends into it. -/
theorem resolve_join_plain (h : Plain name) :
    (p.join name).resolve cwd = p.resolve cwd ++ [name] := by
  rw [resolve_join h.relative, h.1]
  simp [LexicalPath.walk, LexicalPath.enter, h.2]

/-- A name ends with its extension. -/
theorem suffix_of_extensionOf {ext : OsString} (h : extensionOf name = some ext) :
    dot :: ext <:+ name := by
  unfold extensionOf at h
  dsimp only at h
  split at h
  · cases h
  · rename_i hlength
    obtain rfl := Option.some.inj h
    have hsplit := List.takeWhile_append_dropWhile (p := (· ≠ dot)) (l := name.reverse)
    cases hrest : name.reverse.dropWhile (· ≠ dot) with
    | nil =>
      rw [hrest, List.append_nil] at hsplit
      rw [hsplit] at hlength
      simp at hlength
    | cons byte rest =>
      have hbyte : byte = dot := by
        have hhead := List.head?_dropWhile_not (· ≠ dot) name.reverse
        rw [hrest] at hhead
        simpa using hhead
      subst hbyte
      rw [hrest] at hsplit
      refine ⟨rest.reverse, ?_⟩
      have hreverse := congrArg List.reverse hsplit
      simpa using hreverse

/-- What follows the last full stop of a name. -/
theorem extensionOf_append {stem ext : OsString} (hstem : stem ≠ []) (hext : dot ∉ ext) :
    extensionOf (stem ++ dot :: ext) = some ext := by
  have hafter : ((stem ++ dot :: ext).reverse.takeWhile (· ≠ dot)).reverse = ext := by
    have hall : ∀ b ∈ ext.reverse, decide (b ≠ dot) = true := fun b hb =>
      decide_eq_true fun h => hext (h ▸ List.mem_reverse.mp hb)
    rw [List.reverse_append, List.reverse_cons, List.append_assoc,
      List.takeWhile_append_of_pos hall, List.singleton_append,
      List.takeWhile_cons_of_neg (by simp), List.append_nil, List.reverse_reverse]
  rw [extensionOf, hafter, if_neg]
  have hpos := List.length_pos_of_ne_nil hstem
  rw [List.length_append, List.length_cons]
  omega

theorem stemOf_append {stem ext : OsString} (hstem : stem ≠ []) (hext : dot ∉ ext) :
    stemOf (stem ++ dot :: ext) = stem := by
  rw [stemOf, extensionOf_append hstem hext]
  dsimp only
  rw [List.take_left']
  rw [List.length_append, List.length_cons]
  omega

/-- Plain names joined to one path lead to different places. -/
theorem join_injective {other : OsString} (h : Plain name) (hother : Plain other)
    (heq : p.join name = p.join other) : name = other := by
  rw [join, join, if_neg h.relative, if_neg hother.relative, h.1, hother.1, mk.injEq] at heq
  exact List.singleton_injective (List.append_cancel_left heq.2)

/-! ## Names joined to a path -/

section Joined

variable {dir : List OsString} {names : List OsString}

theorem Plain.ne_nil (h : Plain name) : name ≠ [] := by
  rintro rfl
  have hcomponents := h.1
  rw [componentsOf, LexicalPath.components_nil] at hcomponents
  cases hcomponents

/-- Plain names with separators between them are the components of what they make. -/
theorem componentsOf_intercalate (h : ∀ name ∈ names, Plain name) :
    componentsOf ([separator].intercalate names) = names := by
  by_cases hnil : names = []
  · subst hnil
    exact LexicalPath.components_nil
  · unfold componentsOf LexicalPath.components
    rw [List.splitOn_intercalate separator (fun name hname => (h name hname).not_mem) hnil]
    refine List.filter_eq_self.mpr fun name hname => ?_
    have hmem : name ∈ LexicalPath.components separator [dot] name := by
      rw [← componentsOf, (h name hname).1]
      exact List.mem_singleton_self _
    exact (List.mem_filter.mp hmem).2

theorem relative_intercalate (h : ∀ name ∈ names, Plain name) :
    ([separator].intercalate names).head? ≠ some separator := by
  rcases names with - | ⟨name, names⟩
  · nofun
  · have hname := h name List.mem_cons_self
    obtain ⟨byte, rest, rfl⟩ := List.exists_cons_of_ne_nil hname.ne_nil
    rw [List.intercalate_cons_cons_left]
    exact hname.relative

/-- Components that do not climb are descended into. -/
theorem walk_eq_append (h : ∀ name ∈ names, name ≠ up) :
    LexicalPath.walk up dir names = dir ++ names := by
  induction names generalizing dir with
  | nil => exact (List.append_nil dir).symm
  | cons name names ih =>
    rw [List.forall_mem_cons] at h
    have henter : LexicalPath.enter up dir name = dir ++ [name] := if_neg h.1
    show LexicalPath.walk up (LexicalPath.enter up dir name) names = _
    rw [henter, ih h.2, List.append_assoc]
    rfl

/-- Joined plain names lead down, one after another. -/
theorem leadsTo_intercalate (h : ∀ name ∈ names, Plain name) :
    leadsTo dir ([separator].intercalate names) = dir ++ names := by
  rw [leadsTo, if_neg (relative_intercalate h), componentsOf_intercalate h]
  exact walk_eq_append fun name hname => (h name hname).2

end Joined

end PathBuf

end Torvyn
