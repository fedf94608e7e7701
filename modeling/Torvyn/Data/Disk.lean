/-
# Disks

Files and directories without links, by the components that lead to them.  A path is resolved
lexically from a working directory.  `takes_append` and the lemmas about single steps say when a
program that writes files goes through on a disk, and what it leaves there.
-/
import Torvyn.Data.FileTree

namespace Torvyn

/-- What a path leads to. -/
inductive Node where
  | dir
  | file (data : List UInt8)
  deriving DecidableEq, Repr

/-- Files and directories: the root is a directory, and so is what something lies in. -/
structure Disk where
  node : List OsString → Option Node
  root : node [] = some .dir
  parent : ∀ dir name, node (dir ++ [name]) ≠ none → node dir = some .dir

namespace Disk

variable {disk : Disk} {path other : List OsString} {data : List UInt8}

/-- There is a directory. -/
def IsDir (disk : Disk) (path : List OsString) : Prop := disk.node path = some .dir

/-- There is something that is no directory. -/
def IsFile (disk : Disk) (path : List OsString) : Prop :=
  disk.node path ≠ none ∧ disk.node path ≠ some .dir

instance (disk : Disk) (path : List OsString) : Decidable (disk.IsDir path) :=
  inferInstanceAs (Decidable (_ = _))

instance (disk : Disk) (path : List OsString) : Decidable (disk.IsFile path) :=
  inferInstanceAs (Decidable (_ ∧ _))

/-- What lies above a directory is a directory. -/
theorem isDir_ancestor (h : disk.IsDir path) (hp : other <+: path) : disk.IsDir other := by
  obtain ⟨rest, rfl⟩ := hp
  induction rest using List.reverseRecOn with
  | nil => rwa [List.append_nil] at h
  | append_singleton rest name ih =>
    apply ih
    rw [IsDir, ← List.append_assoc] at h
    exact disk.parent _ name (by rw [h]; exact Option.some_ne_none _)

/-- A disk with nothing on it. -/
def fresh : Disk where
  node path := if path = [] then some .dir else none
  root := rfl
  parent dir name h := by simp at h

theorem isDir_fresh : fresh.IsDir path ↔ path = [] := by simp [IsDir, fresh]

theorem not_isFile_fresh : ¬ fresh.IsFile path := by
  by_cases h : path = [] <;> simp [IsFile, fresh, h]

/-! ## Operations -/

/-- The directories on a path are made. -/
def makeDirs (disk : Disk) (path : List OsString) : Disk where
  node p := if p <+: path then some .dir else disk.node p
  root := if_pos List.nil_prefix
  parent dir name h := by
    by_cases hpath : dir ++ [name] <+: path
    · exact if_pos ((List.prefix_append dir [name]).trans hpath)
    · rw [if_neg hpath] at h
      split
      · rfl
      · exact disk.parent dir name h

/-- A file can be written at a path: it lies in a directory, and none is in its place. -/
def Writable (disk : Disk) (path : List OsString) : Prop :=
  path ≠ [] ∧ disk.IsDir path.dropLast ∧ ¬ disk.IsDir path

instance (disk : Disk) (path : List OsString) : Decidable (disk.Writable path) :=
  inferInstanceAs (Decidable (_ ∧ _))

/-- A file is put at a path. -/
def putFile (disk : Disk) (path : List OsString) (data : List UInt8) (h : disk.Writable path) :
    Disk where
  node := Function.update disk.node path (some (.file data))
  root := by
    rw [Function.update_of_ne h.1.symm]
    exact disk.root
  parent dir name hname := by
    by_cases hpath : dir ++ [name] = path
    · subst hpath
      have hdir := h.2.1
      have hne : dir ≠ dir ++ [name] := by simp
      rw [List.dropLast_concat] at hdir
      rwa [Function.update_of_ne hne]
    · rw [Function.update_of_ne hpath] at hname
      have hdir := disk.parent dir name hname
      -- nothing lies below a file
      rwa [Function.update_of_ne]
      rintro rfl
      exact h.2.2 hdir

/-- `create_dir_all`: it fails where a file is in the way. -/
def createDirAll (disk : Disk) (path : List OsString) : Bool × Disk :=
  if path.inits.all fun p => !decide (disk.IsFile p) then (true, disk.makeDirs path)
  else (false, disk)

/-- `fs::write`. -/
def write (disk : Disk) (path : List OsString) (data : List UInt8) : Bool × Disk :=
  if h : disk.Writable path then (true, disk.putFile path data h) else (false, disk)

/-- The storage of a disk. -/
def storage (cwd : List OsString) : Storage Disk where
  createDirAll path disk := disk.createDirAll (path.resolve cwd)
  write path data disk := disk.write (path.resolve cwd) data

/-! ## What an operation leaves -/

theorem isDir_makeDirs :
    (disk.makeDirs path).IsDir other ↔ other <+: path ∨ disk.IsDir other := by
  unfold IsDir makeDirs
  by_cases h : other <+: path <;> simp [h]

theorem node_makeDirs (h : ¬ other <+: path) :
    (disk.makeDirs path).node other = disk.node other := if_neg h

theorem node_write_of_ne (h : other ≠ path) :
    (disk.write path data).2.node other = disk.node other := by
  unfold write
  split
  · exact Function.update_of_ne h _ _
  · rfl

theorem node_write (h : disk.Writable path) :
    (disk.write path data).2.node path = some (.file data) := by
  unfold write
  rw [dif_pos h]
  exact Function.update_self _ _ _

/-- A write makes no directory, and takes none away. -/
theorem isDir_write : (disk.write path data).2.IsDir other ↔ disk.IsDir other := by
  unfold IsDir
  by_cases h : other = path
  · subst h
    by_cases hwritable : disk.Writable other
    · rw [node_write hwritable]
      exact iff_of_false nofun hwritable.2.2
    · rw [write, dif_neg hwritable]
  · rw [node_write_of_ne h]

theorem writable_write : (disk.write path data).2.Writable other ↔ disk.Writable other := by
  unfold Writable
  rw [isDir_write, isDir_write]

/-! ## Programs -/

section Programs

open FsStep

variable {E : Type*} {io : PathBuf → E} {cwd : List OsString}

theorem takes_createDirAll {dir : PathBuf} :
    Takes (storage cwd) io [.createDirAll dir] disk ↔
      ∀ p, p <+: dir.resolve cwd → ¬ disk.IsFile p := by
  have hall : ((dir.resolve cwd).inits.all fun p => !decide (disk.IsFile p)) = true ↔
      ∀ p, p <+: dir.resolve cwd → ¬ disk.IsFile p := by
    simp [List.all_eq_true]
  rw [← hall]
  by_cases h : ((dir.resolve cwd).inits.all fun p => !decide (disk.IsFile p)) = true
  · simp [Takes, runAll, run, storage, createDirAll, h]
  · simp [Takes, runAll, run, storage, createDirAll, h]

theorem after_createDirAll {dir : PathBuf}
    (h : Takes (storage cwd) io [.createDirAll dir] disk) :
    after (storage cwd) io [.createDirAll dir] disk = disk.makeDirs (dir.resolve cwd) := by
  have hfree := takes_createDirAll.mp h
  have hall : ((dir.resolve cwd).inits.all fun p => !decide (disk.IsFile p)) = true := by
    simpa [List.all_eq_true] using hfree
  simp [after, runAll, run, storage, createDirAll, hall]

theorem takes_write {file : PathBuf} :
    Takes (storage cwd) io [.write file data] disk ↔ disk.Writable (file.resolve cwd) := by
  by_cases h : disk.Writable (file.resolve cwd)
  · simp [Takes, runAll, run, storage, write, h]
  · simp [Takes, runAll, run, storage, write, h]

theorem takes_tryWrite {file : PathBuf} :
    Takes (storage cwd) io [.tryWrite file data] disk := rfl

theorem after_write {file : PathBuf} :
    after (storage cwd) io [.write file data] disk =
      (disk.write (file.resolve cwd) data).2 := by
  by_cases h : disk.Writable (file.resolve cwd)
  · simp [after, runAll, run, storage, write, h]
  · simp [after, runAll, run, storage, write, h]

theorem after_tryWrite {file : PathBuf} :
    after (storage cwd) io [.tryWrite file data] disk =
      (disk.write (file.resolve cwd) data).2 := rfl

/-- The steps that write files, one after another. -/
def writes (files : List (PathBuf × List UInt8)) : List (FsStep E) :=
  files.map fun file => .write file.1 file.2

theorem writes_cons (file : PathBuf × List UInt8) (files : List (PathBuf × List UInt8)) :
    (writes (file :: files) : List (FsStep E)) = [.write file.1 file.2] ++ writes files := rfl

theorem takes_writes {files : List (PathBuf × List UInt8)} :
    Takes (storage cwd) io (writes files) disk ↔
      ∀ file ∈ files, disk.Writable (file.1.resolve cwd) := by
  induction files generalizing disk with
  | nil => exact iff_of_true rfl nofun
  | cons file files ih =>
    rw [writes_cons, takes_append, takes_write, after_write, ih, List.forall_mem_cons]
    simp only [writable_write]

theorem after_writes_cons {file : PathBuf × List UInt8} {files : List (PathBuf × List UInt8)}
    (h : Takes (storage cwd) io (writes (file :: files)) disk) :
    after (storage cwd) io (writes (file :: files)) disk =
      after (storage cwd) io (writes files) (disk.write (file.1.resolve cwd) file.2).2 := by
  rw [writes_cons] at h ⊢
  rw [after_append (takes_append.mp h).1, after_write]

theorem takes_writes_tail {file : PathBuf × List UInt8} {files : List (PathBuf × List UInt8)}
    (h : Takes (storage cwd) io (writes (file :: files)) disk) :
    Takes (storage cwd) io (writes files) (disk.write (file.1.resolve cwd) file.2).2 := by
  rw [writes_cons, takes_append, after_write] at h
  exact h.2

theorem isDir_after_writes {files : List (PathBuf × List UInt8)}
    (h : Takes (storage cwd) io (writes files) disk) :
    (after (storage cwd) io (writes files) disk).IsDir other ↔ disk.IsDir other := by
  induction files generalizing disk with
  | nil => rfl
  | cons file files ih => rw [after_writes_cons h, ih (takes_writes_tail h), isDir_write]

/-- What is not written to stays as it is. -/
theorem node_after_writes_of_ne {files : List (PathBuf × List UInt8)}
    (h : Takes (storage cwd) io (writes files) disk)
    (hne : ∀ file ∈ files, other ≠ file.1.resolve cwd) :
    (after (storage cwd) io (writes files) disk).node other = disk.node other := by
  induction files generalizing disk with
  | nil => rfl
  | cons file files ih =>
    rw [List.forall_mem_cons] at hne
    rw [after_writes_cons h, ih (takes_writes_tail h) hne.2, node_write_of_ne hne.1]

/-- Files with paths of their own are there when all have been written. -/
theorem node_after_writes {files : List (PathBuf × List UInt8)}
    (h : Takes (storage cwd) io (writes files) disk)
    (hdistinct : (files.map fun file => file.1.resolve cwd).Nodup) :
    ∀ file ∈ files, (after (storage cwd) io (writes files) disk).node (file.1.resolve cwd) =
      some (.file file.2) := by
  induction files generalizing disk with
  | nil => nofun
  | cons file files ih =>
    obtain ⟨hfile, hrest⟩ := List.nodup_cons.mp hdistinct
    rw [List.forall_mem_cons, after_writes_cons h]
    refine ⟨?_, ih (takes_writes_tail h) hrest⟩
    rw [node_after_writes_of_ne (takes_writes_tail h), node_write]
    · exact takes_writes.mp h file List.mem_cons_self
    · rintro later hlater heq
      exact hfile (List.mem_map.mpr ⟨later, hlater, heq.symm⟩)

end Programs

end Disk

end Torvyn
