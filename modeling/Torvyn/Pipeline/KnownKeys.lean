/-
# Suggestions for misspelt keys

`edit_distance` and `nearest_known_key` of `torvyn-config/src/error.rs`.  The distance is filled
in row by row, with two rows that change places.  `RowOf` is what the row that has been filled
last holds, `fillRow_spec` carries it over one character of the key that was found, and
`nearestKnownKey_spec` says which known key is suggested.
-/
import Torvyn.Data.Levenshtein

namespace Torvyn.Pipeline

/-! ## Two rows of the table -/

/-- A row for a key of `n` characters. -/
abbrev Row (n : ℕ) := Vector ℕ (n + 1)

/-- The body of the inner loop: one more entry of the current row. -/
def fillEntry (aChar : Char) (b : List Char) (previous current : Row b.length)
    (j : Fin b.length) : Row b.length :=
  let substitution := previous[j.val] + if aChar ≠ b[j] then 1 else 0
  current.set (j.val + 1) (min (min substitution (previous[j.val + 1] + 1)) (current[j.val] + 1))

/-- The body of the outer loop.  The current row starts with what an earlier row has left in it,
and becomes the previous one. -/
def fillRow (b : List Char) (rows : Row b.length × Row b.length) (aChar : Char × ℕ) :
    Row b.length × Row b.length :=
  let current := rows.2.set 0 (aChar.2 + 1)
  let current := Fin.foldl b.length (fillEntry aChar.1 b rows.1) current
  (current, rows.1)

/-- `edit_distance`. -/
def editDistance (a b : String) : ℕ :=
  let bChars := b.toList
  let previous : Row bChars.length := Vector.range (bChars.length + 1)
  let current : Row bChars.length := Vector.replicate (bChars.length + 1) 0
  let rows := a.toList.zipIdx.foldl (fillRow bChars) (previous, current)
  rows.1[bChars.length]

/-! ## What the rows hold -/

section Rows

variable {b front : List Char} {aChar : Char}

/-- The first `k` entries of a row are distances of prefixes of `b`. -/
def FilledTo (front b : List Char) (row : Row b.length) (k : ℕ) : Prop :=
  ∀ (j : ℕ) (hj : j < b.length + 1), j < k → row[j] = levenshtein front (b.take j)

/-- A row that is filled. -/
def RowOf (front b : List Char) (row : Row b.length) : Prop :=
  FilledTo front b row (b.length + 1)

/-- A loop over `n` indices keeps what each of its steps carries on. -/
theorem foldl_induction {α : Type*} {n : ℕ} {f : α → Fin n → α} {P : ℕ → α → Prop} {x : α}
    (hzero : P 0 x) (hstep : ∀ (a : α) (j : Fin n), P j a → P (j + 1) (f a j)) :
    P n (Fin.foldl n f x) := by
  induction n with
  | zero => simpa using hzero
  | succ n ih =>
    rw [Fin.foldl_succ_last]
    apply hstep _ (Fin.last n)
    apply ih
    intro a j hj
    exact hstep a j.castSucc hj

/-- **One entry more.** -/
theorem fillEntry_spec {previous current : Row b.length} (hprevious : RowOf front b previous)
    {j : Fin b.length} (hcurrent : FilledTo (front ++ [aChar]) b current (j + 1)) :
    FilledTo (front ++ [aChar]) b (fillEntry aChar b previous current j) (j + 2) := by
  intro i hi hlt
  unfold fillEntry
  rw [Vector.getElem_set]
  split
  · rename_i heq
    subst heq
    have htake : b.take (j + 1) = b.take j ++ [b[j]] := (List.take_append_getElem j.isLt).symm
    rw [hprevious j (by omega) (by omega), hprevious (j + 1) (by omega) (by omega),
      hcurrent j (by omega) (by omega), htake, levenshtein_concat, min_assoc, ite_not]
  · exact hcurrent i hi (by omega)

/-- **One row more**, whatever the other row has held. -/
theorem fillRow_spec {rows : Row b.length × Row b.length} (h : RowOf front b rows.1) :
    RowOf (front ++ [aChar]) b (fillRow b rows (aChar, front.length)).1 := by
  apply foldl_induction (P := fun j row => FilledTo (front ++ [aChar]) b row (j + 1))
  · intro j hj hlt
    obtain rfl : j = 0 := by omega
    simp
  · intro current j hcurrent
    exact fillEntry_spec h hcurrent

/-- The rows after all characters of the key. -/
theorem fillRows_spec (a : List Char) {rows : Row b.length × Row b.length}
    (h : RowOf [] b rows.1) : RowOf a b (a.zipIdx.foldl (fillRow b) rows).1 := by
  induction a using List.reverseRecOn with
  | nil => exact h
  | append_singleton front aChar ih =>
    rw [List.zipIdx_append, List.foldl_append]
    simpa using fillRow_spec ih

end Rows

/-- **The distance of two keys.** -/
theorem editDistance_eq_levenshtein (a b : String) :
    editDistance a b = levenshtein a.toList b.toList := by
  have hfirst : RowOf [] b.toList (Vector.range (b.toList.length + 1)) := by
    intro j hj _
    rw [Vector.getElem_range, levenshtein_nil_left, List.length_take]
    omega
  have hlast := @fillRows_spec b.toList a.toList (_, Vector.replicate _ 0) hfirst b.toList.length
    (by omega) (by omega)
  rw [List.take_length] at hlast
  exact hlast

/-! ## The suggestion -/

/-- How far a suggestion may be from the key that was found. -/
def editBudget (found : String) : ℕ := max 1 (min 3 (found.utf8ByteSize / 3))

/-- The known keys that are near enough, with their distances. -/
def nearKeys (found : String) (known : List String) : List (ℕ × String) :=
  (known.map fun candidate => (editDistance found candidate, candidate)).filter
    fun candidate => candidate.1 ≤ editBudget found

/-- `nearest_known_key`.  Of several keys at the same distance `min_by_key` takes the first. -/
def nearestKnownKey (found : String) (known : List String) : Option String :=
  ((nearKeys found known).argmin Prod.fst).map Prod.snd

/-- Before the first minimum all elements are greater. -/
theorem split_of_argmin {α β : Type*} [LinearOrder β] {f : α → β} {l : List α} {m : α}
    (h : l.argmin f = some m) :
    ∃ before after, l = before ++ m :: after ∧ ∀ a ∈ before, f m < f a := by
  classical
  obtain ⟨before, after, rfl, hnot⟩ := List.eq_append_cons_of_mem (List.argmin_mem h)
  refine ⟨before, after, rfl, fun a ha => ?_⟩
  by_contra hle
  have hindex := List.index_of_argmin h (List.mem_append_left _ ha) (not_lt.mp hle)
  rw [List.idxOf_append_of_notMem hnot, List.idxOf_append_of_mem ha] at hindex
  have hlt := List.idxOf_lt_length_of_mem ha
  omega

section Nearest

variable {found key : String} {known : List String}

theorem mem_nearKeys (hkey : key ∈ known) (hnear : editDistance found key ≤ editBudget found) :
    (editDistance found key, key) ∈ nearKeys found known :=
  List.mem_filter.mpr ⟨List.mem_map.mpr ⟨key, hkey, rfl⟩, decide_eq_true hnear⟩

theorem nearestKnownKey_eq_none :
    nearestKnownKey found known = none ↔
      ∀ key ∈ known, editBudget found < editDistance found key := by
  simp [nearestKnownKey, nearKeys, List.argmin_eq_none]

/-- The suggestion is the first minimum of what is near enough. -/
theorem argmin_of_nearestKnownKey (h : nearestKnownKey found known = some key) :
    editDistance found key ≤ editBudget found ∧
      (nearKeys found known).argmin Prod.fst = some (editDistance found key, key) := by
  obtain ⟨⟨distance, _⟩, hmin, rfl⟩ := Option.map_eq_some_iff.mp h
  obtain ⟨hmem, hnear⟩ := List.mem_filter.mp (List.argmin_mem hmin)
  obtain ⟨candidate, -, heq⟩ := List.mem_map.mp hmem
  obtain ⟨rfl, rfl⟩ := Prod.mk.inj heq
  exact ⟨of_decide_eq_true hnear, hmin⟩

/-- No known key is nearer than the suggestion. -/
theorem nearestKnownKey_le (h : nearestKnownKey found known = some key) {other : String}
    (hother : other ∈ known) : editDistance found key ≤ editDistance found other := by
  obtain ⟨hbudget, hmin⟩ := argmin_of_nearestKnownKey h
  by_cases hnear : editDistance found other ≤ editBudget found
  · have hle := List.le_of_mem_argmin (mem_nearKeys hother hnear) hmin
    exact hle
  · omega

/-- All known keys before the suggestion are farther. -/
theorem split_of_nearestKnownKey (h : nearestKnownKey found known = some key) :
    ∃ before after, known = before ++ key :: after ∧
      ∀ other ∈ before, editDistance found key < editDistance found other := by
  obtain ⟨hbudget, hmin⟩ := argmin_of_nearestKnownKey h
  obtain ⟨nearer, farther, hsplit, hnearer⟩ := split_of_argmin hmin
  -- the filter and the map are taken back, part by part
  obtain ⟨front, back, hcandidates, rfl, hback⟩ := List.filter_eq_append_iff.mp hsplit
  obtain ⟨middle, after, rfl, hmiddle, -, -⟩ := List.filter_eq_cons_iff.mp hback
  obtain ⟨known₁, rest, rfl, rfl, hrest⟩ := List.map_eq_append_iff.mp hcandidates
  obtain ⟨known₂, last, rfl, rfl, hlast⟩ := List.map_eq_append_iff.mp hrest
  obtain ⟨candidate, known₃, rfl, hcandidate, -⟩ := List.map_eq_cons_iff.mp hlast
  obtain rfl : candidate = key := congrArg Prod.snd hcandidate
  refine ⟨known₁ ++ known₂, known₃, by simp, fun other hother => ?_⟩
  by_cases hnear : editDistance found other ≤ editBudget found
  · rcases List.mem_append.mp hother with hother | hother
    · exact hnearer _ (mem_nearKeys hother hnear)
    · exact absurd (decide_eq_true hnear) (hmiddle _ (List.mem_map_of_mem hother))
  · omega

end Nearest

/-- **Suggestions.**  The distance is the least number of edits between the characters of the two
keys.  A key is suggested exactly when some known key lies within the budget; it is then the first
of the known keys that are nearest. -/
theorem nearestKnownKey_spec (found : String) (known : List String) :
    (∀ a b : String, IsLeast {n | Edits n a.toList b.toList} (editDistance a b)) ∧
      ((nearestKnownKey found known).isSome ↔
        ∃ key ∈ known, editDistance found key ≤ editBudget found) ∧
      ∀ key, nearestKnownKey found known = some key →
        editDistance found key ≤ editBudget found ∧
          (∀ other ∈ known, editDistance found key ≤ editDistance found other) ∧
          ∃ before after, known = before ++ key :: after ∧
            ∀ other ∈ before, editDistance found key < editDistance found other := by
  refine ⟨fun a b => ?_, ?_, fun key hkey => ?_⟩
  · rw [editDistance_eq_levenshtein]
    exact isLeast_levenshtein a.toList b.toList
  · rw [← Option.ne_none_iff_isSome, Ne, nearestKnownKey_eq_none]
    simp only [not_forall, not_lt, exists_prop]
  · exact ⟨(argmin_of_nearestKnownKey hkey).1, fun other => nearestKnownKey_le hkey,
      split_of_nearestKnownKey hkey⟩

end Torvyn.Pipeline
