/-
# The roles of the nodes

`torvyn link` infers the role of a node in `commands/link.rs`, and the pipeline that is run infers
it in `torvyn-pipeline/src/convert.rs`.  The command reads the last segment of the interface, which
has to be the word for a role.  The pipeline looks for a segment that begins with such a word, and
takes the words in an order of its own.
-/
import Torvyn.Pipeline.Convert

namespace Torvyn.Linker

open Pipeline (NodeDef inferRoleFromInterface)

/-! ## What the command infers -/

/-- The role of a word. -/
def roleNamed (segment : String) : Option ComponentRole :=
  if segment = "source" then some .source
  else if segment = "sink" then some .sink
  else if segment = "filter" then some .filter
  else if segment = "router" then some .router
  else if segment = "processor" then some .processor
  else none

/-- `role_of`. -/
def roleOf (node : NodeDef) : ComponentRole :=
  (((some node.interface).filter fun iface => iface ≠ "").bind fun iface =>
    (split iface '/').getLast?.bind roleNamed).getD .processor

/-! ## Where they meet -/

/-- A segment of the interface, other than the first, begins with the word. -/
def Opens (interface word : String) : Prop :=
  ∃ segment ∈ (split interface '/').tail, startsWith segment word = true

instance (interface word : String) : Decidable (Opens interface word) :=
  inferInstanceAs (Decidable (∃ segment ∈ (split interface '/').tail, _))

/-- The words for roles, in the order in which the pipeline looks for them. -/
def roleWords : List String := ["source", "processor", "sink", "filter", "router"]

/-- The interfaces that both read alike.  Either the last of several segments is the word for a
role other than the processor, and no word that is sought before it begins a segment; or the last
segment is no such word, and what the pipeline finds first is a processor, if anything. -/
def ReadAlike (interface : String) : Prop :=
  (∃ word ∈ roleWords, word ≠ "processor" ∧ (split interface '/').getLast? = some word ∧
      2 ≤ (split interface '/').length ∧
      ∀ earlier ∈ roleWords.takeWhile (· ≠ word), ¬Opens interface earlier) ∨
    ((∀ word ∈ roleWords, word ≠ "processor" → (split interface '/').getLast? ≠ some word) ∧
      ¬Opens interface "source" ∧ (Opens interface "processor" ∨
        ∀ word ∈ ["sink", "filter", "router"], ¬Opens interface word))

section Roles

variable {interface word : String}

/-- What the pipeline looks for is a word behind a slash. -/
theorem contains_iff_opens {text : String} (htext : text.toList = '/' :: word.toList)
    (hword : '/' ∉ word.toList) : contains interface text = true ↔ Opens interface word := by
  unfold contains Opens split startsWith
  rw [decide_eq_true_iff, htext, cons_infix_iff hword, ← List.map_tail]
  constructor
  · rintro ⟨piece, hpiece, hprefix⟩
    refine ⟨String.ofList piece, List.mem_map_of_mem hpiece, ?_⟩
    rwa [List.isPrefixOf_iff_prefix, String.toList_ofList]
  · rintro ⟨segment, hsegment, hprefix⟩
    obtain ⟨piece, hpiece, rfl⟩ := List.mem_map.mp hsegment
    rw [List.isPrefixOf_iff_prefix, String.toList_ofList] at hprefix
    exact ⟨piece, hpiece, hprefix⟩

theorem opens_of_last (hlast : (split interface '/').getLast? = some word)
    (hlength : 2 ≤ (split interface '/').length) : Opens interface word := by
  refine ⟨word, ?_, ?_⟩
  · cases hsplit : split interface '/' with
    | nil => simp [hsplit] at hlength
    | cons first rest =>
        rw [hsplit] at hlast hlength
        have hne : rest ≠ [] := by
          rintro rfl
          simp at hlength
        rw [List.getLast?_cons_of_ne_nil hne] at hlast
        exact List.mem_of_getLast? hlast
  · exact List.isPrefixOf_iff_prefix.mpr List.prefix_rfl

theorem not_opens_of_short (hlength : (split interface '/').length < 2) :
    ¬Opens interface word := by
  rintro ⟨segment, hmem, -⟩
  have hpos := List.length_pos_of_mem hmem
  rw [List.length_tail] at hpos
  omega

/-- The role that the first of some words that begins a segment stands for. -/
def firstRole (interface : String) : List String → ComponentRole
  | [] => .processor
  | word :: words =>
      if Opens interface word then (roleNamed word).getD .processor
      else firstRole interface words

/-- The pipeline takes the first word, in its order, that begins a segment. -/
theorem inferred_eq (interface : String) :
    (inferRoleFromInterface interface).getD .processor = firstRole interface roleWords := by
  have hsource : contains interface "/source" = true ↔ Opens interface "source" :=
    contains_iff_opens (by decide) (by decide)
  have hprocessor : contains interface "/processor" = true ↔ Opens interface "processor" :=
    contains_iff_opens (by decide) (by decide)
  have hsink : contains interface "/sink" = true ↔ Opens interface "sink" :=
    contains_iff_opens (by decide) (by decide)
  have hfilter : contains interface "/filter" = true ↔ Opens interface "filter" :=
    contains_iff_opens (by decide) (by decide)
  have hrouter : contains interface "/router" = true ↔ Opens interface "router" :=
    contains_iff_opens (by decide) (by decide)
  unfold inferRoleFromInterface
  simp only [hsource, hprocessor, hsink, hfilter, hrouter, roleWords, firstRole]
  split_ifs
  all_goals rfl

/-- A word that begins a segment is the one that is taken if no word before it does. -/
theorem firstRole_eq_iff {words : List String} (hmem : word ∈ words)
    (hinj : ∀ other ∈ words, (roleNamed other).getD .processor = (roleNamed word).getD .processor →
      other = word) (hopens : Opens interface word) :
    firstRole interface words = (roleNamed word).getD .processor ↔
      ∀ earlier ∈ words.takeWhile (· ≠ word), ¬Opens interface earlier := by
  induction words with
  | nil => cases hmem
  | cons first words ih =>
      rw [firstRole]
      by_cases heq : first = word
      · subst heq
        rw [if_pos hopens, List.takeWhile_cons_of_neg (by simp)]
        simp
      · have hmem' : word ∈ words := (List.mem_cons.mp hmem).resolve_left (Ne.symm heq)
        rw [List.takeWhile_cons_of_pos (by simpa using heq), List.forall_mem_cons,
          ← ih hmem' fun other hother => hinj other (List.mem_cons_of_mem _ hother)]
        by_cases hfirst : Opens interface first
        · rw [if_pos hfirst]
          refine iff_of_false ?_ fun h => h.1 hfirst
          exact fun hrole => heq (hinj first List.mem_cons_self hrole)
        · rw [if_neg hfirst]
          exact (and_iff_right hfirst).symm

theorem firstRole_eq_processor_iff : firstRole interface roleWords = .processor ↔
    ¬Opens interface "source" ∧ (Opens interface "processor" ∨
      ∀ word ∈ ["sink", "filter", "router"], ¬Opens interface word) := by
  simp only [roleWords, firstRole, roleNamed, List.forall_mem_cons]
  by_cases hsource : Opens interface "source"
  · simp [hsource]
  by_cases hprocessor : Opens interface "processor"
  · simp [hsource, hprocessor]
  by_cases hsink : Opens interface "sink"
  · simp [hsource, hprocessor, hsink]
  by_cases hfilter : Opens interface "filter"
  · simp [hsource, hprocessor, hsink, hfilter]
  · simp [hsource, hprocessor, hsink, hfilter]

theorem roleOf_eq (node : NodeDef) : roleOf node =
    ((split node.interface '/').getLast?.bind roleNamed).getD .processor := by
  unfold roleOf
  by_cases hempty : node.interface = ""
  · rw [hempty]
    decide
  · rw [Option.filter_some_pos (by simpa using hempty), Option.bind_some]

/-- Every other word is read as a processor. -/
theorem roleNamed_of_other (hother : ∀ role ∈ roleWords, role ≠ "processor" → word ≠ role) :
    (roleNamed word).getD .processor = .processor := by
  unfold roleNamed
  rw [if_neg (hother _ (by decide) (by decide)), if_neg (hother _ (by decide) (by decide)),
    if_neg (hother _ (by decide) (by decide)), if_neg (hother _ (by decide) (by decide))]
  split
  · rfl
  · rfl

/-- **Exactly when the two agree on the role of a node.** -/
theorem roles_agree_iff (node : NodeDef) :
    roleOf node = (inferRoleFromInterface node.interface).getD .processor ↔
      ReadAlike node.interface := by
  have hinj : ∀ word ∈ roleWords, ∀ other ∈ roleWords,
      (roleNamed other).getD .processor = (roleNamed word).getD .processor → other = word := by
    decide
  rw [roleOf_eq, inferred_eq]
  by_cases hnamed : ∃ word ∈ roleWords, word ≠ "processor" ∧
      (split node.interface '/').getLast? = some word
  · obtain ⟨word, hword, hne, hlast⟩ := hnamed
    have hproper : (roleNamed word).getD .processor ≠ .processor := by
      have hall : ∀ word ∈ roleWords, word ≠ "processor" →
          (roleNamed word).getD .processor ≠ .processor := by decide
      exact hall word hword hne
    rw [hlast, Option.bind_some]
    by_cases hlength : 2 ≤ (split node.interface '/').length
    · rw [eq_comm, firstRole_eq_iff hword (hinj word hword) (opens_of_last hlast hlength)]
      constructor
      · exact fun hfirst => .inl ⟨word, hword, hne, hlast, hlength, hfirst⟩
      · rintro (⟨word', -, -, hlast', -, hfirst⟩ | ⟨hother, -⟩)
        · obtain rfl := Option.some.inj (hlast.symm.trans hlast')
          exact hfirst
        · exact absurd hlast (hother word hword hne)
    · -- a word on its own is not behind a slash
      have hnone : ∀ other, ¬Opens node.interface other := fun other =>
        not_opens_of_short (Nat.lt_of_not_le hlength)
      have hprocessor : firstRole node.interface roleWords = .processor :=
        firstRole_eq_processor_iff.mpr ⟨hnone _, .inr fun other _ => hnone other⟩
      rw [hprocessor]
      refine iff_of_false hproper ?_
      rintro (⟨_, -, -, -, hlength', -⟩ | ⟨hother, -⟩)
      · exact hlength hlength'
      · exact hother word hword hne hlast
  · have hother : ∀ word ∈ roleWords, word ≠ "processor" →
        (split node.interface '/').getLast? ≠ some word := by
      intro word hword hne hlast
      exact hnamed ⟨word, hword, hne, hlast⟩
    have hprocessor : ((split node.interface '/').getLast?.bind roleNamed).getD .processor =
        .processor := by
      cases hlast : (split node.interface '/').getLast? with
      | none => rfl
      | some last =>
          apply roleNamed_of_other
          rintro role hrole hne rfl
          exact hother last hrole hne hlast
    rw [hprocessor, eq_comm, firstRole_eq_processor_iff]
    constructor
    · exact fun h => .inr ⟨hother, h⟩
    · rintro (⟨word, hword, hne, hlast, -⟩ | ⟨-, h⟩)
      · exact absurd hlast (hother word hword hne)
      · exact h

/-- A source that pins the version of its contract is a source to the pipeline only. -/
theorem versioned_source_misread :
    roleOf ⟨"reader", "torvyn:streaming/source@0.1.0", none, none, none, none⟩ = .processor ∧
      (inferRoleFromInterface "torvyn:streaming/source@0.1.0").getD .processor = .source := by
  decide

end Roles

end Torvyn.Linker
