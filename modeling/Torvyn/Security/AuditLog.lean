/-
# The audit log on disk

`FileAuditSink`: audit events go to a log file, one line each.  Before a line that would take the
file over `max_bytes` the file is renamed to `.1`, what was `.1` to `.2` and so on, and a fresh
file is opened.  The files are compared with the batches of lines that rotation is meant to make.

The file system is taken to do what it is asked; a rename fails only when there is nothing to
rename.
-/
import Torvyn.Data.Batches

namespace Torvyn.Security

/-- The log file and the files it is rotated to. -/
inductive LogFile where
  | current
  | rotated (n : ℕ)
  deriving DecidableEq, Repr

/-- What the files hold that are there. -/
abbrev LogFiles := LogFile → Option String

namespace LogFiles

variable {files : LogFiles}

/-- A directory without log files. -/
def empty : LogFiles := fun _ => none

def remove (files : LogFiles) (file : LogFile) : LogFiles := Function.update files file none

/-- A file takes another name, in place of what was there. -/
def rename (files : LogFiles) (source target : LogFile) : LogFiles :=
  remove (Function.update files target (files source)) source

/-- A file is opened for appending, and made when it is not there. -/
def openAppend (files : LogFiles) (file : LogFile) : LogFiles :=
  Function.update files file (some ((files file).getD ""))

def append (files : LogFiles) (file : LogFile) (text : String) : LogFiles :=
  Function.update files file ((files file).map (· ++ text))

/-- One turn of the loop over the rotated files. -/
def shiftFile (maxFiles : ℕ) (files : LogFiles) (i : ℕ) : LogFiles :=
  if (files (.rotated i)).isSome then
    if maxFiles < i + 1 then files.remove (.rotated i)
    else files.rename (.rotated i) (.rotated (i + 1))
  else files

/-- The loop over the rotated files, from the oldest to the newest. -/
def shiftFiles (maxFiles : ℕ) (files : LogFiles) : LogFiles :=
  (List.range' 1 (maxFiles - 1)).reverse.foldl (shiftFile maxFiles) files

end LogFiles

/-- The sink, with the directory it writes to. -/
structure FileAuditSink where
  files : LogFiles
  currentBytes : ℕ
  maxBytes : UInt64
  maxFiles : UInt32

namespace FileAuditSink

/-- `FileAuditSink::new`: a log that is there is continued. -/
def new (files : LogFiles) (maxBytes : UInt64) (maxFiles : UInt32) : FileAuditSink where
  files := files.openAppend .current
  currentBytes := ((files .current).getD "").utf8ByteSize
  maxBytes := maxBytes
  maxFiles := maxFiles

/-- `rotate`, and whether it went through. -/
def rotate (sink : FileAuditSink) : FileAuditSink × Bool :=
  let files := sink.files.shiftFiles sink.maxFiles.toNat
  if (files .current).isSome then
    let files := files.rename .current (.rotated 1)
    let oldest := LogFile.rotated (sink.maxFiles + 1).toNat
    let files := if (files oldest).isSome then files.remove oldest else files
    ({ sink with files := files.openAppend .current, currentBytes := 0 }, true)
  else ({ sink with files := files }, false)

/-- `write_all`, and the bytes it adds. -/
def write (sink : FileAuditSink) (line : String) : FileAuditSink :=
  { sink with
    files := sink.files.append .current line
    currentBytes := sink.currentBytes + line.utf8ByteSize }

/-- A line of the log. -/
def recordLine (sink : FileAuditSink) (line : String) : FileAuditSink :=
  if sink.maxBytes.toNat < sink.currentBytes + line.utf8ByteSize then
    let (rotated, ok) := sink.rotate
    if ok then rotated.write line else rotated
  else sink.write line

variable {Event : Type*}

/-- `record`: an event without a text is passed over. -/
def record (toJson : Event → Option String) (sink : FileAuditSink) (event : Event) :
    FileAuditSink :=
  match toJson event with
  | some json => sink.recordLine (json ++ "\n")
  | none => sink

/-- What happens to the log: an event is recorded, or the process is started again. -/
inductive Action (Event : Type*) where
  | record (event : Event)
  | restart

/-- One step of the log. -/
def act (toJson : Event → Option String) (sink : FileAuditSink) : Action Event → FileAuditSink
  | .record event => sink.record toJson event
  | .restart => new sink.files sink.maxBytes sink.maxFiles

/-- The line that a step records. -/
def Action.line (toJson : Event → Option String) : Action Event → Option String
  | .record event => (toJson event).map (· ++ "\n")
  | .restart => none

/-- The lines that are recorded, in order. -/
def recorded (toJson : Event → Option String) (actions : List (Action Event)) : List String :=
  actions.filterMap (Action.line toJson)

/-- A log from the first start in an empty directory. -/
def run (toJson : Event → Option String) (maxBytes : UInt64) (maxFiles : UInt32)
    (actions : List (Action Event)) : FileAuditSink :=
  actions.foldl (act toJson) (new LogFiles.empty maxBytes maxFiles)

end FileAuditSink

/-! ## The loop -/

namespace LogFiles

variable {files : LogFiles} {maxFiles i n : ℕ}

@[simp] theorem remove_self (file : LogFile) : files.remove file file = none :=
  Function.update_self ..

theorem remove_of_ne {file other : LogFile} (h : other ≠ file) :
    files.remove file other = files other := Function.update_of_ne h ..

@[simp] theorem rename_target {source target : LogFile} (h : target ≠ source) :
    files.rename source target target = files source := by
  rw [rename, remove_of_ne h, Function.update_self]

@[simp] theorem rename_source (source target : LogFile) :
    files.rename source target source = none := remove_self source

theorem rename_of_ne {source target other : LogFile} (hsource : other ≠ source)
    (htarget : other ≠ target) : files.rename source target other = files other := by
  rw [rename, remove_of_ne hsource, Function.update_of_ne htarget]

@[simp] theorem openAppend_self (file : LogFile) :
    files.openAppend file file = some ((files file).getD "") := Function.update_self ..

theorem openAppend_of_ne {file other : LogFile} (h : other ≠ file) :
    files.openAppend file other = files other := Function.update_of_ne h ..

@[simp] theorem append_self (file : LogFile) (text : String) :
    files.append file text file = (files file).map (· ++ text) := Function.update_self ..

theorem append_of_ne {file other : LogFile} (h : other ≠ file) (text : String) :
    files.append file text other = files other := Function.update_of_ne h ..

@[simp] theorem shiftFile_current : files.shiftFile maxFiles i .current = files .current := by
  rw [shiftFile]
  split_ifs
  · exact remove_of_ne (by simp)
  · exact rename_of_ne (by simp) (by simp)
  · rfl

/-- A turn below the last file moves one file up, to where there is none. -/
theorem shiftFile_rotated (hi : i < maxFiles)
    (hgap : files (.rotated i) = none → files (.rotated (i + 1)) = none) :
    files.shiftFile maxFiles i (.rotated n) =
      if n = i + 1 then files (.rotated i) else if n = i then none else files (.rotated n) := by
  rw [shiftFile, if_neg (by omega : ¬ maxFiles < i + 1)]
  by_cases hthere : files (.rotated i) = none
  · rw [if_neg (by simp [hthere])]
    split_ifs with hup hat
    · rw [hup, hgap hthere, hthere]
    · rw [hat, hthere]
    · rfl
  · rw [if_pos (Option.isSome_iff_ne_none.mpr hthere)]
    split_ifs with hup hat
    · rw [hup, rename_target (by simp)]
    · rw [hat, rename_source]
    · exact rename_of_ne (by simpa using hat) (by simpa using hup)

theorem foldl_shiftFile_current (numbers : List ℕ) :
    numbers.foldl (shiftFile maxFiles) files .current = files .current := by
  induction numbers generalizing files with
  | nil => rfl
  | cons i numbers ih => rw [List.foldl_cons, ih, shiftFile_current]

@[simp] theorem shiftFiles_current : files.shiftFiles maxFiles .current = files .current :=
  foldl_shiftFile_current _

/-- The loop from some file down: each moves up by one, and the first place is left free. -/
theorem foldl_shiftFile_rotated (k : ℕ) (hk : k < maxFiles)
    (hgap : 1 ≤ k → files (.rotated k) = none → files (.rotated (k + 1)) = none) :
    (List.range' 1 k).reverse.foldl (shiftFile maxFiles) files (.rotated n) =
      if 2 ≤ n ∧ n ≤ k + 1 then files (.rotated (n - 1))
      else if n = 1 ∧ 1 ≤ k then none else files (.rotated n) := by
  induction k generalizing files with
  | zero =>
    rw [if_neg (by omega), if_neg (by omega)]
    rfl
  | succ k ih =>
    have hmoved := fun n => shiftFile_rotated (n := n) hk (hgap (by omega))
    rw [List.range'_1_concat, List.reverse_append, List.reverse_singleton, List.singleton_append,
      List.foldl_cons, Nat.add_comm 1 k, ih (by omega)]
    · rw [hmoved, hmoved]
      -- the file that was moved first, the ones below it, and what the loop does not touch
      split_ifs <;> first | rfl | (congr 2; omega)
    · intro _ _
      rw [hmoved, if_neg (by omega), if_pos rfl]

/-- The whole loop, when no file is missing in the middle. -/
theorem shiftFiles_rotated (hfiles : 1 ≤ maxFiles)
    (hgap : ∀ i, 1 ≤ i → files (.rotated i) = none → files (.rotated (i + 1)) = none)
    (hn : n ≠ 1) : files.shiftFiles maxFiles (.rotated n) =
      if 2 ≤ n ∧ n ≤ maxFiles then files (.rotated (n - 1)) else files (.rotated n) := by
  rw [shiftFiles, foldl_shiftFile_rotated _ (by omega) (hgap _), Nat.sub_add_cancel hfiles,
    if_neg (by omega : ¬ (n = 1 ∧ 1 ≤ maxFiles - 1))]

end LogFiles

/-! ## Against the batches -/

namespace FileAuditSink

variable {Event : Type*} {toJson : Event → Option String} {sink : FileAuditSink}
  {batches : Batches String} {n : ℕ} {maxBytes : UInt64} {maxFiles : UInt32}

/-- The files hold the batch that is being filled and the last of the closed ones, `.1` the newest
of them. -/
structure Holds (sink : FileAuditSink) (batches : Batches String) : Prop where
  current : sink.files .current = some (String.join batches.current)
  rotated : ∀ n, sink.files (.rotated (n + 1)) =
    if n < sink.maxFiles.toNat then batches.closed.reverse[n]?.map String.join else none
  rotated_zero : sink.files (.rotated 0) = none
  bytes : sink.currentBytes = Batches.total String.utf8ByteSize batches.current

@[simp] theorem files_write (line : String) :
    (sink.write line).files = sink.files.append .current line := rfl

theorem utf8ByteSize_join (lines : List String) :
    (String.join lines).utf8ByteSize = Batches.total String.utf8ByteSize lines := by
  induction lines with
  | nil => simp [Batches.total]
  | cons line lines ih =>
    rw [String.join_cons, String.utf8ByteSize_append, ih]
    simp [Batches.total]

/-- The first start. -/
theorem holds_new : Holds (new LogFiles.empty maxBytes maxFiles) Batches.empty where
  current := by simp [new, LogFiles.openAppend, LogFiles.empty, Batches.empty]
  rotated n := by simp [new, LogFiles.openAppend, LogFiles.empty, Batches.empty]
  rotated_zero := by simp [new, LogFiles.openAppend, LogFiles.empty]
  bytes := by simp [new, LogFiles.empty, Batches.empty]

/-- A later start. -/
theorem Holds.restart (h : Holds sink batches) :
    Holds (new sink.files sink.maxBytes sink.maxFiles) batches := by
  have hfiles : sink.files.openAppend .current = sink.files := by
    rw [LogFiles.openAppend, h.current, Option.getD_some, ← h.current, Function.update_eq_self]
  constructor
  · rw [new, hfiles]
    exact h.current
  · rw [new, hfiles]
    exact h.rotated
  · rw [new, hfiles]
    exact h.rotated_zero
  · rw [new, h.current, Option.getD_some]
    exact utf8ByteSize_join _

/-- A line goes to the file and to the batch that is being filled. -/
theorem Holds.write (h : Holds sink batches) (line : String) :
    Holds (sink.write line) (batches.push line) := by
  have hother : ∀ n, (sink.write line).files (.rotated n) = sink.files (.rotated n) := by
    intro n
    rw [files_write, LogFiles.append_of_ne (by simp)]
  constructor
  · rw [files_write, LogFiles.append_self, h.current, Option.map_some]
    simp [Batches.push]
  · intro n
    rw [hother, h.rotated]
    rfl
  · rw [hother, h.rotated_zero]
  · rw [Batches.push, Batches.total_concat, ← h.bytes]
    rfl

/-- No rotated file is missing before one that is there. -/
theorem Holds.gapless (h : Holds sink batches) {i : ℕ} (hi : 1 ≤ i)
    (hnone : sink.files (.rotated i) = none) : sink.files (.rotated (i + 1)) = none := by
  obtain ⟨n, rfl⟩ := Nat.exists_eq_add_of_le' hi
  rw [h.rotated] at hnone ⊢
  split
  · rw [if_pos (by omega), Option.map_eq_none_iff, List.getElem?_eq_none_iff] at hnone
    rw [List.getElem?_eq_none (by omega), Option.map_none]
  · rfl

/-- After the renames the file that was being filled is the newest of the rotated ones. -/
theorem Holds.renamed (h : Holds sink batches) (hfiles : 1 ≤ sink.maxFiles.toNat) :
    ((sink.files.shiftFiles sink.maxFiles.toNat).rename .current (.rotated 1))
        (.rotated (n + 1)) =
      if n < sink.maxFiles.toNat then batches.close.closed.reverse[n]?.map String.join
      else none := by
  rw [Batches.close, List.reverse_append, List.reverse_singleton, List.singleton_append]
  cases n with
  | zero =>
    rw [LogFiles.rename_target (by simp), LogFiles.shiftFiles_current, h.current, if_pos (by omega)]
    rfl
  | succ n =>
    rw [LogFiles.rename_of_ne (by simp) (by simp),
      LogFiles.shiftFiles_rotated hfiles (fun i => h.gapless) (by omega), List.getElem?_cons_succ]
    split_ifs with hmoved hlast hlast
    · rw [Nat.add_sub_cancel, h.rotated, if_pos (by omega)]
    · omega
    · omega
    · rw [h.rotated, if_neg (by omega)]

theorem Holds.renamed_zero (h : Holds sink batches) (hfiles : 1 ≤ sink.maxFiles.toNat) :
    ((sink.files.shiftFiles sink.maxFiles.toNat).rename .current (.rotated 1)) (.rotated 0) =
      none := by
  rw [LogFiles.rename_of_ne (by simp) (by simp),
    LogFiles.shiftFiles_rotated hfiles (fun i => h.gapless) (by omega), if_neg (by omega),
    h.rotated_zero]

/-- There is no file with the number that is removed: the oldest one has been replaced.  The number
is zero when `max_files` is the largest one. -/
theorem Holds.oldest_removed (h : Holds sink batches) (hfiles : 1 ≤ sink.maxFiles.toNat) :
    ((sink.files.shiftFiles sink.maxFiles.toNat).rename .current (.rotated 1))
      (.rotated (sink.maxFiles + 1).toNat) = none := by
  rw [UInt32.toNat_add]
  by_cases hwrap : sink.maxFiles.toNat + 1 < 2 ^ 32
  · rw [UInt32.toNat_one, Nat.mod_eq_of_lt hwrap, h.renamed hfiles, if_neg (by omega)]
  · have hmax : sink.maxFiles.toNat + 1 = 2 ^ 32 := by
      have := sink.maxFiles.toNat_lt
      omega
    rw [UInt32.toNat_one, hmax, Nat.mod_self, h.renamed_zero hfiles]

/-- A rotation goes through and closes a batch. -/
theorem Holds.rotate (h : Holds sink batches) (hfiles : 1 ≤ sink.maxFiles.toNat) :
    sink.rotate.2 = true ∧ Holds sink.rotate.1 batches.close := by
  have hcurrent : (sink.files.shiftFiles sink.maxFiles.toNat .current).isSome := by
    rw [LogFiles.shiftFiles_current, h.current]
    rfl
  rw [FileAuditSink.rotate, if_pos hcurrent]
  simp only [h.oldest_removed hfiles, Option.isSome_none, Bool.false_eq_true, if_false, true_and]
  constructor
  · simp [Batches.close]
  · intro n
    dsimp only
    rw [LogFiles.openAppend_of_ne (by simp)]
    exact h.renamed hfiles
  · dsimp only
    rw [LogFiles.openAppend_of_ne (by simp)]
    exact h.renamed_zero hfiles
  · rfl

/-- A line is added the way a batch takes an item. -/
theorem Holds.recordLine (h : Holds sink batches) (hfiles : 1 ≤ sink.maxFiles.toNat)
    (line : String) : Holds (sink.recordLine line)
      (batches.add String.utf8ByteSize sink.maxBytes.toNat line) := by
  rw [FileAuditSink.recordLine, Batches.add, h.bytes]
  split
  · obtain ⟨hok, hholds⟩ := h.rotate hfiles
    simp only [hok, if_true]
    exact hholds.write line
  · exact h.write line

/-! ## Runs -/

@[simp] theorem maxFiles_recordLine (line : String) :
    (sink.recordLine line).maxFiles = sink.maxFiles := by
  rw [FileAuditSink.recordLine, FileAuditSink.rotate]
  split_ifs <;> rfl

@[simp] theorem maxBytes_recordLine (line : String) :
    (sink.recordLine line).maxBytes = sink.maxBytes := by
  rw [FileAuditSink.recordLine, FileAuditSink.rotate]
  split_ifs <;> rfl

/-- The bounds stay as they are. -/
theorem bounds_act (toJson : Event → Option String) (sink : FileAuditSink)
    (action : Action Event) :
    (sink.act toJson action).maxFiles = sink.maxFiles ∧
      (sink.act toJson action).maxBytes = sink.maxBytes := by
  cases action with
  | restart => exact ⟨rfl, rfl⟩
  | record event =>
    rw [act, FileAuditSink.record]
    cases toJson event with
    | none => exact ⟨rfl, rfl⟩
    | some json => exact ⟨maxFiles_recordLine _, maxBytes_recordLine _⟩

theorem recorded_append (actions later : List (Action Event)) :
    recorded toJson (actions ++ later) = recorded toJson actions ++ recorded toJson later :=
  List.filterMap_append ..

/-- One step adds the lines it records. -/
theorem Holds.act (h : Holds sink batches) (hfiles : 1 ≤ sink.maxFiles.toNat)
    (action : Action Event) : Holds (sink.act toJson action)
      ((recorded toJson [action]).foldl
        (Batches.add String.utf8ByteSize sink.maxBytes.toNat) batches) := by
  cases action with
  | restart => exact h.restart
  | record event =>
    rw [FileAuditSink.act, FileAuditSink.record, recorded, List.filterMap_cons, Action.line]
    rcases toJson event with _ | json
    · exact h
    · exact h.recordLine hfiles _

/-- A run adds the lines it records, one after another. -/
theorem Holds.foldl_act (h : Holds sink batches) (hfiles : 1 ≤ sink.maxFiles.toNat)
    (actions : List (Action Event)) : Holds (actions.foldl (FileAuditSink.act toJson) sink)
      ((recorded toJson actions).foldl
        (Batches.add String.utf8ByteSize sink.maxBytes.toNat) batches) := by
  induction actions generalizing sink batches with
  | nil => exact h
  | cons action actions ih =>
    obtain ⟨hmaxFiles, hmaxBytes⟩ := bounds_act toJson sink action
    have hrest := ih (h.act hfiles action) (by rw [hmaxFiles]; exact hfiles)
    rw [hmaxBytes, ← List.foldl_append] at hrest
    rw [List.foldl_cons, ← List.singleton_append, recorded_append]
    exact hrest

theorem maxFiles_foldl_act (actions : List (Action Event)) :
    (actions.foldl (act toJson) sink).maxFiles = sink.maxFiles := by
  induction actions generalizing sink with
  | nil => rfl
  | cons action actions ih => rw [List.foldl_cons, ih, (bounds_act toJson _ action).1]

/-- What the log files hold of the lines that were written: `.1` and on from the newest of the kept
batches to the oldest, then no more; what has been dropped came before all of them. -/
structure Retains (sink : FileAuditSink) (written : List String) (maxBytes : UInt64)
    (maxFiles : UInt32) (dropped kept : List (List String)) (current : List String) : Prop where
  complete : dropped.flatten ++ kept.flatten ++ current = written
  newest : sink.files .current = some (String.join current)
  rotated : ∀ n, sink.files (.rotated n) =
    if n = 0 then none else kept.reverse[n - 1]?.map String.join
  few : kept.length ≤ maxFiles.toNat
  full : dropped ≠ [] → kept.length = maxFiles.toNat
  fits : ∀ batch ∈ kept ++ [current],
    Batches.Fits String.utf8ByteSize maxBytes.toNat batch

/-- The last of the closed batches are kept. -/
theorem Holds.retains (h : Holds sink batches) (maxBytes : UInt64)
    (hfit : batches.AllFit String.utf8ByteSize maxBytes.toNat) :
    Retains sink batches.items maxBytes sink.maxFiles
      (batches.closed.take (batches.closed.length - sink.maxFiles.toNat))
      (batches.closed.rtake sink.maxFiles.toNat) batches.current where
  complete := by
    rw [List.rtake, ← List.flatten_append, List.take_append_drop, Batches.items]
  newest := h.current
  rotated n := by
    cases n with
    | zero => exact h.rotated_zero
    | succ n =>
      rw [h.rotated, if_neg n.succ_ne_zero, Nat.add_sub_cancel, List.rtake_eq_reverse_take_reverse,
        List.reverse_reverse, List.getElem?_take]
      split <;> rfl
  few := by
    rw [List.rtake, List.length_drop]
    omega
  full hdropped := by
    have hlength : sink.maxFiles.toNat < batches.closed.length := by
      by_contra hle
      apply hdropped
      rw [Nat.sub_eq_zero_of_le (by omega), List.take_zero]
    rw [List.rtake, List.length_drop]
    omega
  fits batch hbatch := by
    apply hfit batch
    rcases List.mem_append.mp hbatch with hkept | hcurrent
    · exact List.mem_append_left _ (List.mem_of_mem_drop hkept)
    · exact List.mem_append_right _ hcurrent

/-- The batches that the lines of a run make. -/
def batchesOf (toJson : Event → Option String) (maxBytes : UInt64)
    (actions : List (Action Event)) : Batches String :=
  (recorded toJson actions).foldl (Batches.add String.utf8ByteSize maxBytes.toNat) .empty

theorem retains_run (hfiles : 1 ≤ maxFiles.toNat) (actions : List (Action Event)) :
    let closed := (batchesOf toJson maxBytes actions).closed
    Retains (run toJson maxBytes maxFiles actions) (recorded toJson actions) maxBytes maxFiles
      (closed.take (closed.length - maxFiles.toNat)) (closed.rtake maxFiles.toNat)
      (batchesOf toJson maxBytes actions).current := by
  intro closed
  have hholds : Holds (run toJson maxBytes maxFiles actions) (batchesOf toJson maxBytes actions) :=
    holds_new.foldl_act hfiles actions
  have hmaxFiles : (run toJson maxBytes maxFiles actions).maxFiles = maxFiles :=
    maxFiles_foldl_act actions
  have hretains := hholds.retains maxBytes (Batches.allFit_empty.foldl_add _)
  rw [hmaxFiles, batchesOf, Batches.items_foldl_add] at hretains
  exact hretains

/-- **Rotation loses nothing inside the retention window**: after any run the rotated files, from
the oldest to the newest, and the current file hold the last lines that were recorded, each in one
file.  Whatever follows, what is dropped is a row of oldest files, and the files that have been
rotated stay what they are. -/
theorem rotation_lossless (hfiles : 1 ≤ maxFiles.toNat) (actions later : List (Action Event)) :
    ∃ dropped kept current dropped' kept' current',
      Retains (run toJson maxBytes maxFiles actions) (recorded toJson actions) maxBytes maxFiles
        dropped kept current ∧
      Retains (run toJson maxBytes maxFiles (actions ++ later))
        (recorded toJson (actions ++ later)) maxBytes maxFiles dropped' kept' current' ∧
      dropped <+: dropped' ∧ dropped ++ kept <+: dropped' ++ kept' := by
  refine ⟨_, _, _, _, _, _, retains_run hfiles actions, retains_run hfiles (actions ++ later), ?_⟩
  have hgrows : (batchesOf toJson maxBytes actions).closed <+:
      (batchesOf toJson maxBytes (actions ++ later)).closed := by
    rw [batchesOf, batchesOf, recorded_append, List.foldl_append]
    exact Batches.closed_le_foldl_add _
  rw [List.rtake, List.rtake, List.take_append_drop, List.take_append_drop]
  refine ⟨?_, hgrows⟩
  obtain ⟨more, hmore⟩ := hgrows
  rw [← hmore, List.length_append]
  apply List.prefix_of_prefix_length_le (List.take_prefix _ _ |>.trans (List.prefix_append _ more))
    (List.take_prefix _ _)
  rw [List.length_take, List.length_take, List.length_append]
  omega

/-- Six lines of two bytes, with room for two in a file and for one rotated file. -/
theorem six_lines_rotated :
    let actions : List (Action String) := ["a", "b", "c", "d", "e", "f"].map .record
    (run some 4 1 actions).files (.rotated 1) = some "c\nd\n" ∧
      ∃ dropped kept current dropped' kept' current',
        Retains (run some 4 1 actions) (recorded some actions) 4 1 dropped kept current ∧
        Retains (run some 4 1 (actions ++ [.restart])) (recorded some (actions ++ [.restart])) 4 1
          dropped' kept' current' ∧
        dropped <+: dropped' ∧ dropped ++ kept <+: dropped' ++ kept' :=
  ⟨by decide, rotation_lossless (by decide) _ _⟩

end FileAuditSink

end Torvyn.Security
