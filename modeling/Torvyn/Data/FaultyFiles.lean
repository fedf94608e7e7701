/-
# Files with faults

A map from the places that paths lead to, to what the files there contain; there is a directory
where a file lies below.  Operations follow a script that says which of them fail, and what fails
leaves everything as it was.  `runAll_scripted` says what a program that writes files leaves when
nothing fails.
-/
import Torvyn.Data.FileTree
import Torvyn.Data.KeyMap

namespace Torvyn

/-- The contents of files, by the places that paths lead to. -/
abbrev FileMap := KeyMap (List OsString) (List UInt8)

namespace FileMap

variable {files : FileMap} {place path : List OsString} {data : List UInt8} {faults : List Bool}

/-- There is a file at a place, or below it. -/
def there (files : FileMap) (place : List OsString) : Bool :=
  files.keys.any fun path => place.isPrefixOf path

/-- What is at a place and below it is removed. -/
def removeAll (files : FileMap) (place : List OsString) : FileMap where
  entries := files.entries.filter fun e => !place.isPrefixOf e.1
  nodupKeys := files.nodupKeys.sublist List.filter_sublist

/-- Files are written, one after another. -/
def putAll (files : FileMap) (writes : List (List OsString × List UInt8)) : FileMap :=
  writes.foldl (fun files file => files.insert file.1 file.2) files

theorem there_iff : files.there place = true ↔ ∃ path, place <+: path ∧ path ∈ files := by
  rw [there, List.any_eq_true]
  constructor
  · rintro ⟨path, hpath, hbelow⟩
    exact ⟨path, List.isPrefixOf_iff_prefix.mp hbelow, AList.mem_keys.mpr hpath⟩
  · rintro ⟨path, hbelow, hpath⟩
    exact ⟨path, AList.mem_keys.mp hpath, List.isPrefixOf_iff_prefix.mpr hbelow⟩

theorem lookup_of_not_there (h : files.there place = false) (hbelow : place <+: path) :
    files.lookup path = none := by
  rw [← Option.not_isSome_iff_eq_none, AList.lookup_isSome]
  intro hpath
  rw [there_iff.mpr ⟨path, hbelow, hpath⟩] at h
  cases h

theorem lookup_removeAll (files : FileMap) (place path : List OsString) :
    (files.removeAll place).lookup path = if place <+: path then none else files.lookup path := by
  apply Option.ext
  intro data
  rw [← KeyMap.mem_entries_iff, removeAll, List.mem_filter]
  by_cases h : place <+: path
  · simp [h]
  · have hfalse : place.isPrefixOf path = false := by
      rw [← Bool.not_eq_true, List.isPrefixOf_iff_prefix]
      exact h
    simp [h, hfalse, KeyMap.mem_entries_iff]

/-- What is there after a removal has been there before. -/
theorem there_of_there_removeAll (h : (files.removeAll place).there path = true) :
    files.there path = true := by
  obtain ⟨file, hbelow, hfile⟩ := there_iff.mp h
  refine there_iff.mpr ⟨file, hbelow, ?_⟩
  rw [← AList.lookup_isSome, lookup_removeAll] at hfile
  rw [← AList.lookup_isSome]
  split_ifs at hfile with hplace
  · cases hfile
  · exact hfile

theorem lookup_putAll {writes : List (List OsString × List UInt8)}
    (h : (writes.map Prod.fst).Nodup) : (files.putAll writes).lookup path = some data ↔
      (path, data) ∈ writes ∨ path ∉ writes.map Prod.fst ∧ files.lookup path = some data :=
  KeyMap.lookup_foldl_insert h

theorem lookup_putAll_of_notMem {writes : List (List OsString × List UInt8)}
    (h : path ∉ writes.map Prod.fst) : (files.putAll writes).lookup path = files.lookup path := by
  induction writes generalizing files with
  | nil => rfl
  | cons file writes ih =>
    rw [List.map_cons, List.mem_cons, not_or] at h
    exact (ih h.2).trans (AList.lookup_insert_ne h.1)

/-! ## Operations -/

/-- The next operation fails. -/
def fails (faults : List Bool) : Bool := faults.headD false

/-- None of the next operations fails. -/
def Faultless (faults : List Bool) (n : ℕ) : Prop := ∀ b ∈ faults.take n, b = false

instance (faults : List Bool) (n : ℕ) : Decidable (Faultless faults n) :=
  inferInstanceAs (Decidable (∀ b ∈ _, _))

theorem faultless_succ {n : ℕ} : Faultless faults (n + 1) ↔
    fails faults = false ∧ Faultless faults.tail n := by
  cases faults with
  | nil => simp [Faultless, fails]
  | cons b faults => simp [Faultless, fails]

/-- A storage of files that follows a script. -/
def scripted (cwd : List OsString) : Storage (FileMap × List Bool) where
  createDirAll _ s := (!fails s.2, s.1, s.2.tail)
  write path data s :=
    if fails s.2 then (false, s.1, s.2.tail)
    else (true, s.1.insert (path.resolve cwd) data, s.2.tail)

/-- `remove_dir_all`. -/
def removeDirAll (place : List OsString) (s : FileMap × List Bool) : Bool × FileMap × List Bool :=
  if fails s.2 then (false, s.1, s.2.tail) else (true, s.1.removeAll place, s.2.tail)

/-- `remove_file`. -/
def removeFile (place : List OsString) (s : FileMap × List Bool) : Bool × FileMap × List Bool :=
  if fails s.2 then (false, s.1, s.2.tail) else (true, s.1.erase place, s.2.tail)

/-! ## Programs -/

section Programs

open FsStep

variable {E : Type*} {io : PathBuf → E} {cwd : List OsString} {steps : List (FsStep E)}

/-- What a step writes. -/
def written (cwd : List OsString) : FsStep E → Option (List OsString × List UInt8)
  | .write path data => some (path.resolve cwd, data)
  | .tryWrite path data => some (path.resolve cwd, data)
  | .createDirAll _ => none
  | .fail _ => none

/-- A program that begins with a step which can fail. -/
theorem runAll_createDirAll (dir : PathBuf) : runAll (scripted cwd) io (.createDirAll dir :: steps)
    (files, faults) = if fails faults then (.error (io dir), files, faults.tail)
      else runAll (scripted cwd) io steps (files, faults.tail) := by
  cases h : fails faults <;> simp [runAll, run, scripted, h]

theorem runAll_write (file : PathBuf) : runAll (scripted cwd) io (.write file data :: steps)
    (files, faults) = if fails faults then (.error (io file), files, faults.tail)
      else runAll (scripted cwd) io steps (files.insert (file.resolve cwd) data, faults.tail) := by
  cases h : fails faults <;> simp [runAll, run, scripted, h]

/-- **A program without faults** writes all its files. -/
theorem runAll_scripted (hsteps : ∀ step ∈ steps, step.isFail = false)
    (h : Faultless faults steps.length) : runAll (scripted cwd) io steps (files, faults) =
      (.ok (), files.putAll (steps.filterMap (written cwd)), faults.drop steps.length) := by
  induction steps generalizing files faults with
  | nil => rfl
  | cons step steps ih =>
    obtain ⟨hhead, htail⟩ := faultless_succ.mp h
    have hrest := fun files => @ih files faults.tail
      (fun step hstep => hsteps step (List.mem_cons_of_mem _ hstep)) htail
    have hdrop : faults.drop (step :: steps).length = faults.tail.drop steps.length := by
      rw [List.drop_tail, List.length_cons]
    rw [hdrop]
    cases step with
    | createDirAll path =>
      rw [runAll_createDirAll, hhead]
      exact hrest files
    | write path data =>
      rw [runAll_write, hhead]
      exact hrest _
    | tryWrite path data =>
      simp only [runAll, run, scripted, hhead, Bool.false_eq_true, if_false]
      exact hrest _
    | fail error => exact absurd (hsteps _ List.mem_cons_self) (by simp [isFail])

end Programs

end FileMap

end Torvyn
