/-
# Reading artifact references

`OciReference::parse` of `torvyn-packaging/src/oci.rs` against `to_string_ref`.  A
reference is `registry/repository`, with `@digest` or `:tag` at its end, and its
text may begin with `oci://`.

A colon can also stand in the registry (a port) or in the repository, so it
begins a tag only when no slash follows it.  `parse_eq_some_iff` says which texts
are read, and as what.
-/
import Torvyn.Packaging.Resolution

namespace Torvyn.Packaging

namespace OciReference

/-- `to_string_ref`. -/
def toStringRef (r : OciReference) : String :=
  match r.digest, r.tag with
  | some digest, _ => r.registry ++ "/" ++ r.repository ++ "@" ++ digest
  | none, some tag => r.registry ++ "/" ++ r.repository ++ ":" ++ tag
  | none, none => r.registry ++ "/" ++ r.repository

/-- What the parts of a reference must be so that its text can be taken apart again. -/
structure Readable (r : OciReference) : Prop where
  registry_ne : r.registry ≠ ""
  repository_ne : r.repository ≠ ""
  slash_notMem : '/' ∉ r.registry.toList
  at_notMem : '@' ∉ r.registry.toList ∧ '@' ∉ r.repository.toList
  /-- a digest excludes a tag -/
  tag_none : ∀ digest, r.digest = some digest → r.tag = none
  tag_plain : ∀ tag, r.tag = some tag → '@' ∉ tag.toList ∧ ':' ∉ tag.toList ∧ '/' ∉ tag.toList
  /-- without a tag and a digest, a slash follows the last colon -/
  slash_of_colon : r.tag = none → r.digest = none → ∀ before after,
    r.repository = before ++ ":" ++ after → ':' ∉ after.toList → '/' ∈ after.toList

end OciReference

/-! ## Splitting -/

theorem eq_append_singleton_iff {s a b : String} {c : Char} :
    s = a ++ String.singleton c ++ b ↔ s.toList = a.toList ++ c :: b.toList := by
  rw [← String.toList_inj]
  simp

/-- `split_once` cuts at the first occurrence. -/
theorem splitOnce_eq_some_iff {s a b : String} {c : Char} :
    splitOnce s c = some (a, b) ↔ s = a ++ String.singleton c ++ b ∧ c ∉ a.toList := by
  rw [eq_append_singleton_iff]
  constructor
  · intro h
    by_cases hc : c ∈ s.toList
    · obtain ⟨l, r, hs, hl⟩ := List.eq_append_cons_of_mem hc
      have hsplit : splitOnce s c = some (String.ofList l, String.ofList r) :=
        splitOnce_eq (by simpa using hs) (by simpa using hl)
      rw [hsplit] at h
      cases h
      simpa using ⟨hs, hl⟩
    · rw [splitOnce_eq_none hc] at h
      cases h
  · rintro ⟨hs, hc⟩
    exact splitOnce_eq hs hc

/-- `rsplit_once` cuts at the last occurrence. -/
theorem rsplitOnce_eq_some_iff {s a b : String} {c : Char} :
    rsplitOnce s c = some (a, b) ↔ s = a ++ String.singleton c ++ b ∧ c ∉ b.toList := by
  rw [eq_append_singleton_iff]
  constructor
  · intro h
    by_cases hc : c ∈ s.toList
    · obtain ⟨r, l, hs, hr⟩ := List.eq_append_cons_of_mem (List.mem_reverse.mpr hc)
      have hrev : s.toList = l.reverse ++ c :: r.reverse := by
        rw [← List.reverse_reverse s.toList, hs]
        simp
      have hsplit : rsplitOnce s c = some (String.ofList l.reverse, String.ofList r.reverse) :=
        rsplitOnce_eq (by simpa using hrev) (by simpa using hr)
      rw [hsplit] at h
      cases h
      simpa using ⟨hrev, hr⟩
    · rw [rsplitOnce, if_neg hc] at h
      cases h
  · rintro ⟨hs, hc⟩
    exact rsplitOnce_eq hs hc

theorem splitOnce_eq_none_iff {s : String} {c : Char} : splitOnce s c = none ↔ c ∉ s.toList := by
  refine ⟨fun h hc => ?_, splitOnce_eq_none⟩
  rw [splitOnce, if_pos hc] at h
  cases h

/-- `split_registry_repo` cuts at the first slash, and neither part is empty. -/
theorem splitRegistryRepo_eq_some_iff {s registry repo : String} :
    splitRegistryRepo s = some (registry, repo) ↔
      s = registry ++ "/" ++ repo ∧ '/' ∉ registry.toList ∧ registry ≠ "" ∧ repo ≠ "" := by
  have hsplit := @splitOnce_eq_some_iff s registry repo '/'
  rw [show String.singleton '/' = "/" from rfl] at hsplit
  rw [splitRegistryRepo]
  constructor
  · intro h
    cases hs : splitOnce s '/' with
    | none =>
        rw [hs] at h
        cases h
    | some parts =>
        rw [hs] at h
        dsimp only at h
        split_ifs at h with hempty
        cases h
        obtain ⟨heq, hslash⟩ := hsplit.mp hs
        exact ⟨heq, hslash, not_or.mp hempty⟩
  · rintro ⟨heq, hslash, hregistry, hrepo⟩
    rw [hsplit.mpr ⟨heq, hslash⟩]
    exact if_neg (not_or.mpr ⟨hregistry, hrepo⟩)

/-! ## What is read -/

namespace OciReference

variable {s : String} {r : OciReference}

/-- `OciReference::parse` behind `oci://`. -/
def parsePlain (s : String) : Option OciReference :=
  match splitOnce s '@' with
  | some (path, digest) =>
      (splitRegistryRepo path).map fun (registry, repository) =>
        ⟨registry, repository, none, some digest⟩
  | none =>
      match (rsplitOnce s ':').filter fun (_, tag) => '/' ∉ tag.toList with
      | some (path, tag) =>
          (splitRegistryRepo path).map fun (registry, repository) =>
            ⟨registry, repository, some tag, none⟩
      | none =>
          (splitRegistryRepo s).map fun (registry, repository) =>
            ⟨registry, repository, none, none⟩

theorem parse_eq_parsePlain (s : String) :
    parse s = parsePlain ((stripPrefix s "oci://").getD s) := rfl

theorem readable_of_parsePlain (h : parsePlain s = some r) :
    r.Readable ∧ s = r.toStringRef := by
  rw [parsePlain] at h
  cases hat : splitOnce s '@' with
  | some parts =>
      obtain ⟨path, digest⟩ := parts
      rw [hat] at h
      obtain ⟨⟨registry, repository⟩, hsplit, rfl⟩ := Option.map_eq_some_iff.mp h
      obtain ⟨rfl, hslash, hregistry, hrepository⟩ := splitRegistryRepo_eq_some_iff.mp hsplit
      obtain ⟨rfl, hpath⟩ := splitOnce_eq_some_iff.mp hat
      simp only [String.toList_append, List.mem_append, not_or] at hpath
      exact ⟨⟨hregistry, hrepository, hslash, ⟨hpath.1.1, hpath.2⟩, fun _ _ => rfl,
        fun _ htag => (by cases htag), fun _ hdigest => (by cases hdigest)⟩, rfl⟩
  | none =>
      rw [hat] at h
      rw [splitOnce_eq_none_iff] at hat
      dsimp only at h
      cases hcolon : (rsplitOnce s ':').filter fun (_, tag) => '/' ∉ tag.toList with
      | some parts =>
          obtain ⟨path, tag⟩ := parts
          rw [hcolon] at h
          obtain ⟨hlast, htag⟩ := Option.filter_eq_some_iff.mp hcolon
          obtain ⟨⟨registry, repository⟩, hsplit, rfl⟩ := Option.map_eq_some_iff.mp h
          obtain ⟨rfl, hslash, hregistry, hrepository⟩ := splitRegistryRepo_eq_some_iff.mp hsplit
          obtain ⟨rfl, hplain⟩ := rsplitOnce_eq_some_iff.mp hlast
          simp only [String.toList_append, List.mem_append, not_or] at hat
          refine ⟨⟨hregistry, hrepository, hslash, ⟨hat.1.1.1.1, hat.1.1.2⟩,
            fun _ hdigest => (by cases hdigest), fun t ht => ?_, fun hnone => (by cases hnone)⟩,
            rfl⟩
          cases ht
          exact ⟨hat.2, hplain, of_decide_eq_true htag⟩
      | none =>
          rw [hcolon] at h
          obtain ⟨⟨registry, repository⟩, hsplit, rfl⟩ := Option.map_eq_some_iff.mp h
          obtain ⟨rfl, hslash, hregistry, hrepository⟩ := splitRegistryRepo_eq_some_iff.mp hsplit
          simp only [String.toList_append, List.mem_append, not_or] at hat
          refine ⟨⟨hregistry, hrepository, hslash, ⟨hat.1.1, hat.2⟩, fun _ _ => rfl,
            fun _ htag => (by cases htag), fun _ _ before after heq hlast => ?_⟩, rfl⟩
          -- the last colon of the repository is the last colon of the text
          have hsplit : rsplitOnce (registry ++ "/" ++ repository) ':' =
              some (registry ++ "/" ++ before, after) := by
            refine rsplitOnce_eq_some_iff.mpr ⟨?_, hlast⟩
            rw [show repository = before ++ ":" ++ after from heq]
            simp only [String.append_assoc]
            rfl
          rw [hsplit] at hcolon
          by_contra hno
          rw [Option.filter_some, if_pos (decide_eq_true hno)] at hcolon
          cases hcolon

/-- A slash follows the last colon of the text: it lies before the separating slash, or in the
repository. -/
theorem slash_after_colon {registry repository before after : String}
    (heq : registry ++ "/" ++ repository = before ++ String.singleton ':' ++ after)
    (hcolon : ':' ∉ after.toList) (hrepository : ∀ b a : String,
      repository = b ++ ":" ++ a → ':' ∉ a.toList → '/' ∈ a.toList) : '/' ∈ after.toList := by
  rw [eq_append_singleton_iff] at heq
  simp only [String.toList_append, List.append_assoc] at heq
  rcases List.append_eq_append_iff.mp heq with ⟨l, hbefore, hrest⟩ | ⟨l, hregistry, hrest⟩
  · -- the colon lies behind the separating slash
    cases l with
    | nil => exact absurd hrest (by simp)
    | cons c l =>
        have hrepo : '/' = c ∧ repository.toList = l ++ ':' :: after.toList := by
          simpa using hrest
        refine hrepository (String.ofList l) after ?_ hcolon
        rw [← String.toList_inj]
        simpa using hrepo.2
  · cases l with
    | nil => exact absurd hrest (by simp)
    | cons c l =>
        have hafter : ':' = c ∧ after.toList = l ++ '/' :: repository.toList := by
          simpa using hrest
        rw [hafter.2]
        simp

theorem parsePlain_of_readable (h : r.Readable) : parsePlain r.toStringRef = some r := by
  obtain ⟨registry, repository, tag, digest⟩ := r
  obtain ⟨hregistry, hrepository, hslash, ⟨hat, hat'⟩, htag_none, htag, hbare⟩ := h
  have hsplit : splitRegistryRepo (registry ++ "/" ++ repository) = some (registry, repository) :=
    splitRegistryRepo_eq_some_iff.mpr ⟨rfl, hslash, hregistry, hrepository⟩
  have hpath : '@' ∉ (registry ++ "/" ++ repository).toList := by
    simp only [String.toList_append, List.mem_append, not_or]
    exact ⟨⟨hat, by decide⟩, hat'⟩
  rw [parsePlain]
  cases digest with
  | some digest =>
      cases htag_none digest rfl
      have hdigest : splitOnce (toStringRef ⟨registry, repository, none, some digest⟩) '@' =
          some (registry ++ "/" ++ repository, digest) :=
        splitOnce_eq_some_iff.mpr ⟨rfl, hpath⟩
      rw [hdigest]
      dsimp only
      rw [hsplit]
      rfl
  | none =>
      cases tag with
      | some tag =>
          obtain ⟨htag_at, htag_colon, htag_slash⟩ := htag tag rfl
          have hno : splitOnce (toStringRef ⟨registry, repository, some tag, none⟩) '@' = none := by
            rw [splitOnce_eq_none_iff]
            show '@' ∉ (registry ++ "/" ++ repository ++ ":" ++ tag).toList
            rw [String.toList_append, String.toList_append, List.mem_append, List.mem_append]
            rintro ((h | h) | h)
            · exact hpath h
            · exact absurd h (by decide)
            · exact htag_at h
          have hcolon : rsplitOnce (toStringRef ⟨registry, repository, some tag, none⟩) ':' =
              some (registry ++ "/" ++ repository, tag) :=
            rsplitOnce_eq_some_iff.mpr ⟨rfl, htag_colon⟩
          rw [hno, hcolon, Option.filter_some, if_pos (decide_eq_true htag_slash)]
          dsimp only
          rw [hsplit]
          rfl
      | none =>
          have hno : splitOnce (toStringRef ⟨registry, repository, none, none⟩) '@' = none :=
            splitOnce_eq_none_iff.mpr hpath
          have hcolon : ((rsplitOnce (toStringRef ⟨registry, repository, none, none⟩) ':').filter
              fun (_, tag) => '/' ∉ tag.toList) = none := by
            rw [Option.filter_eq_none_iff]
            rintro ⟨before, after⟩ hlast
            obtain ⟨heq, hcolon⟩ := rsplitOnce_eq_some_iff.mp hlast
            rw [decide_eq_true_eq, not_not]
            exact slash_after_colon heq hcolon (hbare rfl rfl)
          rw [hno, hcolon]
          dsimp only
          show (splitRegistryRepo (registry ++ "/" ++ repository)).map _ = _
          rw [hsplit]
          rfl

theorem parsePlain_eq_some_iff : parsePlain s = some r ↔ r.Readable ∧ s = r.toStringRef := by
  refine ⟨readable_of_parsePlain, ?_⟩
  rintro ⟨h, rfl⟩
  exact parsePlain_of_readable h

/-- **Reading references.**  A text is read as a reference if and only if the reference is
readable and the text is its text, or `oci://` and its text.  A text that begins with `oci://` is
read in the second way only. -/
theorem parse_reference_iff (s : String) (r : OciReference) :
    parse s = some r ↔ r.Readable ∧
      (s = "oci://" ++ r.toStringRef ∨ s = r.toStringRef ∧ startsWith s "oci://" = false) := by
  rw [parse_eq_parsePlain, parsePlain_eq_some_iff]
  cases hstrip : stripPrefix s "oci://" with
  | some t =>
      have hs := stripPrefix_eq_some_iff.mp hstrip
      have hstarts : startsWith s "oci://" = true := by
        by_contra hno
        rw [stripPrefix, if_neg hno] at hstrip
        cases hstrip
      rw [Option.getD_some, hstarts, hs]
      simp
  | none =>
      have hstarts : startsWith s "oci://" = false := by
        by_contra hyes
        rw [stripPrefix, if_pos (Bool.eq_true_of_not_eq_false hyes)] at hstrip
        cases hstrip
      have hne : s ≠ "oci://" ++ r.toStringRef := fun h => by
        rw [stripPrefix_eq_some_iff.mpr h] at hstrip
        cases hstrip
      rw [Option.getD_none, hstarts]
      tauto

end OciReference

end Torvyn.Packaging
