/-
# Diagnostics as JSON

`Diagnostic`, `ValidationResult` and `to_json` of `torvyn-contracts/src/errors.rs`.  The text is
put together by hand: quotes in messages, labels, notes and help texts are written behind a
backslash, and nothing else is escaped.  `toJson_roundTrips_iff` says which results a JSON parser
reads again.
-/
import Torvyn.Data.Json
import Torvyn.Data.Utf8

namespace Torvyn.Contracts

/-! ## Diagnostics -/

/-- `ErrorCode`. -/
inductive ErrorCode where
  | witSyntaxError
  | witUnresolvedReference
  | witPackageDeclaration
  | manifestParseError
  | manifestMissingField
  | manifestCapabilityError
  | manifestVersionError
  | noExportedInterface
  | capabilityMismatch
  | unsatisfiableVersion
  | incompleteInterface
  | incompatibleMajorVersion
  | missingFunction
  | missingInterface
  | typeSignatureChanged
  | ownershipSemanticChanged
  | fieldRemoved
  | variantCaseRemoved
  | invalidTopology
  | sourceHasIncoming
  | sinkHasOutgoing
  | disconnectedComponent
  | unmetCapability
  | unknownRouterPort
  | interfaceTypeMismatch
  | versionRangeUnsatisfiable
  deriving DecidableEq, Repr

namespace ErrorCode

/-- The number of a code. -/
def number : ErrorCode → ℕ
  | witSyntaxError => 100
  | witUnresolvedReference => 101
  | witPackageDeclaration => 102
  | manifestParseError => 110
  | manifestMissingField => 111
  | manifestCapabilityError => 112
  | manifestVersionError => 113
  | noExportedInterface => 120
  | capabilityMismatch => 121
  | unsatisfiableVersion => 122
  | incompleteInterface => 123
  | incompatibleMajorVersion => 140
  | missingFunction => 141
  | missingInterface => 142
  | typeSignatureChanged => 143
  | ownershipSemanticChanged => 144
  | fieldRemoved => 145
  | variantCaseRemoved => 146
  | invalidTopology => 160
  | sourceHasIncoming => 161
  | sinkHasOutgoing => 162
  | disconnectedComponent => 163
  | unmetCapability => 164
  | unknownRouterPort => 165
  | interfaceTypeMismatch => 166
  | versionRangeUnsatisfiable => 167

/-- How a code is displayed: with four digits at least. -/
def display (code : ErrorCode) : String :=
  String.ofList ('E' :: (Nat.toDigits 10 code.number).leftpad 4 '0')

end ErrorCode

/-- `Severity`. -/
inductive Severity where
  | hint
  | warning
  | error
  deriving DecidableEq, Repr

/-- `SourceLocation`.  A path is a sequence of bytes. -/
structure SourceLocation where
  file : List UInt8
  line : UInt32
  column : UInt32
  deriving DecidableEq, Repr

/-- `LocationContext`. -/
structure LocationContext where
  location : SourceLocation
  label : String
  deriving DecidableEq, Repr

/-- `Diagnostic`. -/
structure Diagnostic where
  code : ErrorCode
  severity : Severity
  message : String
  locations : List LocationContext
  notes : List String
  help : Option String
  deriving DecidableEq, Repr

/-- `ValidationResult`. -/
structure ValidationResult where
  diagnostics : List Diagnostic
  deriving DecidableEq, Repr

/-! ## The text -/

/-- The name of a severity. -/
def Severity.name : Severity → String
  | hint => "hint"
  | warning => "warning"
  | error => "error"

/-- `Path::display`: what is not UTF-8 is replaced. -/
def displayPath (path : List UInt8) : String := Utf8.decodeLossy path

/-- `s.replace('"', "\\\"")`. -/
def replaceQuotes (s : String) : String :=
  String.ofList (s.toList.flatMap fun c => if c = '"' then ['\\', '"'] else [c])

/-- The text of a location. -/
def LocationContext.toJson (l : LocationContext) : String :=
  "\x7b\"file\":\"" ++ displayPath l.location.file ++ "\",\"line\":" ++ toString l.location.line ++
    ",\"column\":" ++ toString l.location.column ++ ",\"label\":\"" ++ replaceQuotes l.label ++
    "\"\x7d"

/-- The text of the notes, if there are any. -/
def notesJson (notes : List String) : String :=
  if notes = [] then ""
  else ",\"notes\":[" ++ ",".intercalate (notes.map fun n => "\"" ++ replaceQuotes n ++ "\"") ++ "]"

/-- The text of the help, if there is one. -/
def helpJson : Option String → String
  | some h => ",\"help\":\"" ++ replaceQuotes h ++ "\""
  | none => ""

/-- The text of a diagnostic. -/
def Diagnostic.toJson (d : Diagnostic) : String :=
  "\x7b\"code\":\"" ++ d.code.display ++ "\",\"severity\":\"" ++ d.severity.name ++
    "\",\"message\":\"" ++ replaceQuotes d.message ++ "\",\"locations\":[" ++
    ",".intercalate (d.locations.map LocationContext.toJson) ++ "]" ++ notesJson d.notes ++
    helpJson d.help ++ "\x7d"

/-- `to_json`. -/
def ValidationResult.toJson (r : ValidationResult) : String :=
  "[" ++ ",".intercalate (r.diagnostics.map Diagnostic.toJson) ++ "]"

/-! ## The values that the texts are meant to be -/

open Json (Value Reads)

/-- The object of a location. -/
def LocationContext.value (l : LocationContext) : Value :=
  .obj [("file", .str (displayPath l.location.file)), ("line", .num l.location.line.toNat),
    ("column", .num l.location.column.toNat), ("label", .str l.label)]

/-- The member for the notes, if there are any. -/
def notesMember (notes : List String) : List (String × Value) :=
  if notes = [] then [] else [("notes", .arr (notes.map .str))]

/-- The object of a diagnostic. -/
def Diagnostic.value (d : Diagnostic) : Value :=
  .obj ([("code", .str d.code.display), ("severity", .str d.severity.name),
    ("message", .str d.message), ("locations", .arr (d.locations.map LocationContext.value))] ++
    notesMember d.notes ++ d.help.toList.map fun h => ("help", .str h))

/-- The array of all diagnostics. -/
def ValidationResult.value (r : ValidationResult) : Value :=
  .arr (r.diagnostics.map Diagnostic.value)

/-- A path is displayed as what it is. -/
def Displayed (path : List UInt8) : Prop := Utf8.encode (displayPath path) = path

/-- **What is asked of the text**: a parser reads it as one object for each diagnostic, with
exactly its strings and numbers, and the strings that stand for paths are these paths. -/
def ValidationResult.RoundTrips (r : ValidationResult) : Prop :=
  Json.parse r.toJson = some r.value ∧
    ∀ d ∈ r.diagnostics, ∀ l ∈ d.locations, Displayed l.location.file

/-! ## What is read -/

/-- A text without backslashes and control characters, and without quotes where these are not
escaped. -/
def PlainText (escaped : Bool) (s : String) : Prop := ∀ c ∈ s.toList, Json.IsPlain escaped c

/-- What a location needs to be read again. -/
def LocationContext.Plain (l : LocationContext) : Prop :=
  PlainText false (displayPath l.location.file) ∧ PlainText true l.label

/-- What a diagnostic needs to be read again. -/
def Diagnostic.Plain (d : Diagnostic) : Prop :=
  PlainText true d.message ∧ (∀ l ∈ d.locations, l.Plain) ∧ (∀ n ∈ d.notes, PlainText true n) ∧
    ∀ h ∈ d.help, PlainText true h

/-- A string that is written as it is. -/
theorem reads_raw (s : String) :
    Reads (['"'] ++ s.toList ++ ['"']) [.str s] (PlainText false s) := by
  have hstring := Reads.string false s
  rw [Json.withQuotes_raw] at hstring
  exact hstring

/-- A string whose quotes are escaped. -/
theorem reads_escaped (s : String) :
    Reads (['"'] ++ (replaceQuotes s).toList ++ ['"']) [.str s] (PlainText true s) := by
  have hstring := Reads.string true s
  rw [replaceQuotes, String.toList_ofList]
  exact hstring

/-- Letters and digits are plain. -/
theorem isPlain_of_isAlphanum {c : Char} (h : c.isAlphanum = true) (escaped : Bool) :
    Json.IsPlain escaped c := by
  have hne : ∀ d : Char, d.isAlphanum = false → c ≠ d := by
    rintro d hd rfl
    exact absurd (h.symm.trans hd) (by decide)
  refine ⟨hne '\\' rfl, ?_, fun _ => hne '"' rfl⟩
  have hfirst : '0'.val ≤ c.val := by
    simp only [Char.isAlphanum, Char.isAlpha, Char.isUpper, Char.isLower, Char.isDigit,
      Bool.or_eq_true, Bool.and_eq_true, decide_eq_true_iff, ge_iff_le] at h
    have hupper : '0'.val ≤ 'A'.val := by decide
    have hlower : '0'.val ≤ 'a'.val := by decide
    rcases h with (h | h) | h
    · exact UInt32.le_trans hupper h.1
    · exact UInt32.le_trans hlower h.1
    · exact h.1
  have hspace : ' '.val ≤ '0'.val := by decide
  exact decide_eq_false (not_lt.mpr (hspace.trans hfirst))

/-- A string of letters and digits. -/
theorem reads_word {s : String} (h : s.toList.all Char.isAlphanum = true) :
    Reads (['"'] ++ s.toList ++ ['"']) [.str s] True :=
  (reads_raw s).congr <| iff_true_intro fun c hc =>
    isPlain_of_isAlphanum (List.all_eq_true.mp h c hc) false

/-- The text of a key with its colon. -/
def keyText (k : String) : List Char := ['"'] ++ k.toList ++ ['"'] ++ [':']

theorem reads_key {k : String} (h : k.toList.all Char.isAlphanum = true) :
    Reads (keyText k) ([.str k] ++ [.colon]) True :=
  (reads_word h).append_true (Reads.punct rfl)

theorem all_display (code : ErrorCode) : code.display.toList.all Char.isAlphanum = true := by
  have hdigits : ∀ c ∈ Nat.toDigits 10 code.number, c.isAlphanum = true := by
    intro c hc
    rw [Char.isAlphanum, Nat.isDigit_of_mem_toDigits (by decide) (by decide) hc, Bool.or_true]
  rw [ErrorCode.display, String.toList_ofList, List.all_eq_true]
  intro c hc
  rcases List.mem_cons.mp hc with rfl | hc
  · rfl
  · rcases List.mem_append.mp hc with hc | hc
    · rw [List.eq_of_mem_replicate hc]
      rfl
    · exact hdigits c hc

/-- **Locations.** -/
theorem reads_location (l : LocationContext) :
    Reads l.toJson.toList l.value.tokens l.Plain := by
  have hobject := (Reads.punct (c := '{') rfl).append_true <|
    (@reads_key "file" (by simp)).append_true <| (reads_raw (displayPath l.location.file)).append <|
    (Reads.punct (c := ',') rfl).append_true <| (@reads_key "line" (by simp)).append_true <|
    (Reads.nat l.location.line.toNat (c := ',') rfl).append_true <|
    (@reads_key "column" (by simp)).append_true <|
    (Reads.nat l.location.column.toNat (c := ',') rfl).append_true <|
    (@reads_key "label" (by simp)).append_true <| (reads_escaped l.label).append <|
    Reads.punct (c := '}') rfl
  have hline : (toString l.location.line).toList = Nat.toDigits 10 l.location.line.toNat :=
    Nat.toList_repr
  have hcolumn : (toString l.location.column).toList = Nat.toDigits 10 l.location.column.toNat :=
    Nat.toList_repr
  -- what stands between the values, cut into tokens
  have hfile : "\x7b\"file\":\"".toList = ['{'] ++ keyText "file" ++ ['"'] := by simp [keyText]
  have hline' : "\",\"line\":".toList = ['"'] ++ [','] ++ keyText "line" := by simp [keyText]
  have hcolumn' : ",\"column\":".toList = [','] ++ keyText "column" := by simp [keyText]
  have hlabel : ",\"label\":\"".toList = [','] ++ keyText "label" ++ ['"'] := by simp [keyText]
  have hend : "\"\x7d".toList = ['"'] ++ ['}'] := by simp
  refine hobject.of_eq ?_ ?_ ?_
  · unfold LocationContext.toJson
    simp only [String.toList_append, List.append_assoc, hline, hcolumn, hfile, hline', hcolumn',
      hlabel, hend]
  · simp [LocationContext.value, Json.memberTokens, Value.tokens]
  · unfold LocationContext.Plain
    simp only [and_true]

/-- The notes, behind what stands before them. -/
theorem reads_notes (notes : List String) :
    Reads (notesJson notes).toList
      ((notesMember notes).flatMap fun m => .comma :: Json.memberTokens m)
      (∀ n ∈ notes, PlainText true n) := by
  by_cases hnil : notes = []
  · subst hnil
    exact Reads.nil.congr (by simp)
  have hnotes := (Reads.punct (c := ',') rfl).append_true <|
    (@reads_key "notes" (by simp)).append_true <| (Reads.punct (c := '[') rfl).append_true <|
    (Reads.intercalate fun n (_ : n ∈ notes) => reads_escaped n).append
      (Reads.punct (c := ']') rfl)
  have htext : (String.toList ∘ fun n => "\"" ++ replaceQuotes n ++ "\"") =
      fun n => '"' :: (replaceQuotes n).toList ++ ['"'] := by
    funext n
    simp
  have htokens : Value.tokens ∘ Value.str = fun n => [.str n] := by
    funext n
    simp [Value.tokens]
  rw [notesJson, notesMember, if_neg hnil, if_neg hnil]
  simpa [Json.memberTokens, htext, htokens, keyText] using hnotes

/-- The help, behind what stands before it. -/
theorem reads_help (help : Option String) :
    Reads (helpJson help).toList
      ((help.toList.map fun h => ("help", Value.str h)).flatMap fun m =>
        .comma :: Json.memberTokens m) (∀ h ∈ help, PlainText true h) := by
  cases help with
  | none => exact Reads.nil.congr (by simp)
  | some h =>
    have hhelp := (Reads.punct (c := ',') rfl).append_true <|
      (@reads_key "help" (by simp)).append_true <| reads_escaped h
    simpa [helpJson, Json.memberTokens, Value.tokens, keyText] using hhelp

/-- What is separated is the first and, behind a separator each, the others. -/
theorem intercalate_cons {α : Type*} (sep : α) (xs : List α) (xss : List (List α)) :
    [sep].intercalate (xs :: xss) = xs ++ xss.flatMap (sep :: ·) := by
  induction xss generalizing xs with
  | nil => simp
  | cons ys xss ih => simp [List.intercalate_cons_cons, ih]

/-- **Diagnostics.** -/
theorem reads_diagnostic (d : Diagnostic) : Reads d.toJson.toList d.value.tokens d.Plain := by
  have hseverity : d.severity.name.toList.all Char.isAlphanum = true := by
    cases d.severity <;> simp [Severity.name]
  have hobject := (Reads.punct (c := '{') rfl).append_true <|
    (@reads_key "code" (by simp)).append_true <| (reads_word (all_display d.code)).append_true <|
    (Reads.punct (c := ',') rfl).append_true <| (@reads_key "severity" (by simp)).append_true <|
    (reads_word hseverity).append_true <| (Reads.punct (c := ',') rfl).append_true <|
    (@reads_key "message" (by simp)).append_true <| (reads_escaped d.message).append <|
    (Reads.punct (c := ',') rfl).append_true <| (@reads_key "locations" (by simp)).append_true <|
    (Reads.punct (c := '[') rfl).append_true <|
    (Reads.intercalate fun l (_ : l ∈ d.locations) => reads_location l).append <|
    (Reads.punct (c := ']') rfl).append_true <| (reads_notes d.notes).append <|
    (reads_help d.help).append <| Reads.punct (c := '}') rfl
  have htokens : d.value.tokens = .lbrace :: (Json.memberTokens ("code", .str d.code.display) ++
      .comma :: Json.memberTokens ("severity", .str d.severity.name) ++
      .comma :: Json.memberTokens ("message", .str d.message) ++
      .comma :: Json.memberTokens ("locations", .arr (d.locations.map LocationContext.value)) ++
      ((notesMember d.notes).flatMap fun m => .comma :: Json.memberTokens m) ++
      ((d.help.toList.map fun h => ("help", Value.str h)).flatMap fun m =>
        .comma :: Json.memberTokens m) ++ [.rbrace]) := by
    rw [Diagnostic.value, Value.tokens_obj]
    simp [intercalate_cons, List.flatMap_map]
  have hcode : "\x7b\"code\":\"".toList = ['{'] ++ keyText "code" ++ ['"'] := by simp [keyText]
  have hsev : "\",\"severity\":\"".toList = ['"'] ++ [','] ++ keyText "severity" ++ ['"'] := by
    simp [keyText]
  have hmessage : "\",\"message\":\"".toList = ['"'] ++ [','] ++ keyText "message" ++ ['"'] := by
    simp [keyText]
  have hlocations : "\",\"locations\":[".toList =
      ['"'] ++ [','] ++ keyText "locations" ++ ['['] := by simp [keyText]
  have hcomma : ",".toList = [','] := by simp
  have hclose : "]".toList = [']'] := by simp
  have hend : "\x7d".toList = ['}'] := by simp
  refine hobject.of_eq ?_ ?_ ?_
  · unfold Diagnostic.toJson
    simp only [String.toList_append, String.toList_intercalate, List.map_map, Function.comp_def,
      List.append_assoc, hcode, hsev, hmessage, hlocations, hcomma, hclose, hend]
  · rw [htokens]
    simp [Json.memberTokens, Value.tokens, Function.comp_def]
  · unfold Diagnostic.Plain
    simp only [and_true]

/-- **Results.** -/
theorem reads_result (r : ValidationResult) :
    Reads r.toJson.toList r.value.tokens (∀ d ∈ r.diagnostics, d.Plain) := by
  have harray := (Reads.punct (c := '[') rfl).append_true <|
    (Reads.intercalate fun d (_ : d ∈ r.diagnostics) => reads_diagnostic d).append <|
    Reads.punct (c := ']') rfl
  simpa [ValidationResult.toJson, ValidationResult.value, Function.comp_def] using harray

/-- The parser reads the text as the value exactly when all diagnostics are plain. -/
theorem parse_toJson (r : ValidationResult) :
    Json.parse r.toJson = some r.value ↔ ∀ d ∈ r.diagnostics, d.Plain := by
  have hreads := reads_result r [] []
  rw [List.append_nil, List.append_nil] at hreads
  rw [Json.parse_eq_some_iff, hreads]
  simp

/-- **Which results are read again**: those without backslashes and control characters in any text,
and with file names that are UTF-8 and have no quotes either. -/
theorem toJson_roundTrips_iff (r : ValidationResult) :
    r.RoundTrips ↔ ∀ d ∈ r.diagnostics, d.Plain ∧ ∀ l ∈ d.locations, Displayed l.location.file := by
  unfold ValidationResult.RoundTrips
  rw [parse_toJson]
  exact forall₂_and.symm

/-- A syntax error whose message has two lines. -/
def twoLines : ValidationResult :=
  ⟨[⟨.witSyntaxError, .error, "expected a name\nfound a number", [], [], none⟩]⟩

/-- **A message of two lines**: the line feed stands in a string as it is, and the text is no
JSON for the result. -/
theorem twoLines_lost : ¬twoLines.RoundTrips := by
  rintro ⟨hparse, -⟩
  have hplain := ((parse_toJson twoLines).mp hparse _ List.mem_cons_self).1
  have hcontrol := (hplain '\n' (by simp)).2.1
  exact absurd hcontrol (by decide)

end Torvyn.Contracts
