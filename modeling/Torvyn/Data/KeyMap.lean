/-
# Keyed maps

Two finite maps over the same keys, compared the way a diff compares them: the keys
that one side lacks, the entries that share a key, and a map collected from a list
in which a key may occur twice.  `Kept` and `Shared` lift a relation between values
to the maps.  `modify` and `mapValues` change values under their keys.
-/
import Mathlib

namespace Torvyn

/-- A finite map.  The order of the entries is one order in which the map can be
iterated. -/
abbrev KeyMap (κ V : Type*) := AList fun _ : κ => V

namespace KeyMap

variable {κ V W X : Type*} [DecidableEq κ]

/-! ## Loops over two maps -/

/-- The keys of `m` that `other` lacks. -/
def lacking (m : KeyMap κ V) (other : KeyMap κ W) : List κ :=
  m.keys.filter fun k => k ∉ other

/-- The entries of `m` whose key `other` has too, with both values. -/
def common (m : KeyMap κ V) (other : KeyMap κ W) : List (κ × V × W) :=
  m.entries.filterMap fun e => (other.lookup e.1).map fun w => (e.1, e.2, w)

theorem mem_lacking {m : KeyMap κ V} {other : KeyMap κ W} {k : κ} :
    k ∈ m.lacking other ↔ k ∈ m ∧ k ∉ other := by
  simp [lacking, AList.mem_keys]

/-- An entry is stored under a key exactly when looking the key up finds it. -/
theorem mem_entries_iff {m : KeyMap κ V} {k : κ} {v : V} :
    (⟨k, v⟩ : Sigma fun _ : κ => V) ∈ m.entries ↔ m.lookup k = some v :=
  (AList.mem_lookup_iff (s := m)).symm

theorem mem_common {m : KeyMap κ V} {other : KeyMap κ W} {k : κ} {v : V} {w : W} :
    (k, v, w) ∈ m.common other ↔ m.lookup k = some v ∧ other.lookup k = some w := by
  simp only [common, List.mem_filterMap, Option.map_eq_some_iff, Prod.mk.injEq]
  constructor
  · rintro ⟨⟨k', v'⟩, hmem, w', hw, rfl, rfl, rfl⟩
    exact ⟨mem_entries_iff.mp hmem, hw⟩
  · rintro ⟨hv, hw⟩
    exact ⟨⟨k, v⟩, mem_entries_iff.mpr hv, w, hw, rfl, rfl, rfl⟩

/-- A key of the map has a value. -/
theorem mem_iff_exists {m : KeyMap κ V} {k : κ} : k ∈ m ↔ ∃ v, m.lookup k = some v := by
  rw [← AList.lookup_isSome, Option.isSome_iff_exists]

/-! ## Relations between maps -/

/-- Every entry of the first map has a related entry of the same key in the second. -/
def Kept (R : V → W → Prop) (m : KeyMap κ V) (other : KeyMap κ W) : Prop :=
  ∀ k v, m.lookup k = some v → ∃ w, other.lookup k = some w ∧ R v w

/-- The entries that share a key are related. -/
def Shared (R : V → W → Prop) (m : KeyMap κ V) (other : KeyMap κ W) : Prop :=
  ∀ k v w, m.lookup k = some v → other.lookup k = some w → R v w

/-- Keeping the entries is keeping the keys and relating what they share. -/
theorem kept_iff {R : V → W → Prop} {m : KeyMap κ V} {other : KeyMap κ W} :
    Kept R m other ↔ (∀ k ∈ m, k ∈ other) ∧ Shared R m other := by
  constructor
  · intro h
    constructor
    · intro k hk
      obtain ⟨v, hv⟩ := mem_iff_exists.mp hk
      obtain ⟨w, hw, -⟩ := h k v hv
      exact mem_iff_exists.mpr ⟨w, hw⟩
    · intro k v w hv hw
      obtain ⟨w', hw', hR⟩ := h k v hv
      rw [hw] at hw'
      cases hw'
      exact hR
  · rintro ⟨hkeys, hshared⟩ k v hv
    obtain ⟨w, hw⟩ := mem_iff_exists.mp (hkeys k (mem_iff_exists.mpr ⟨v, hv⟩))
    exact ⟨w, hw, hshared k v w hv hw⟩

/-- Where the entries are kept in one sense, keeping them in another sense is a
matter of the shared entries alone. -/
theorem kept_congr {R S T : V → W → Prop} {m : KeyMap κ V} {other : KeyMap κ W}
    (h : Kept R m other) (hST : ∀ v w, R v w → (S v w ↔ T v w)) :
    Kept S m other ↔ Shared T m other := by
  obtain ⟨hkeys, hshared⟩ := kept_iff.mp h
  rw [kept_iff, and_iff_right hkeys]
  constructor
  · intro hS k v w hv hw
    exact (hST v w (hshared k v w hv hw)).mp (hS k v w hv hw)
  · intro hT k v w hv hw
    exact (hST v w (hshared k v w hv hw)).mpr (hT k v w hv hw)

/-- Two relations that agree on the shared entries lift alike. -/
theorem shared_congr {R S T : V → W → Prop} {m : KeyMap κ V} {other : KeyMap κ W}
    (h : Shared R m other) (hST : ∀ v w, R v w → (S v w ↔ T v w)) :
    Shared S m other ↔ Shared T m other := by
  constructor
  · intro hS k v w hv hw
    exact (hST v w (h k v w hv hw)).mp (hS k v w hv hw)
  · intro hT k v w hv hw
    exact (hST v w (h k v w hv hw)).mpr (hT k v w hv hw)

/-- Two relations hold of the shared entries together when each does. -/
theorem shared_and {R S : V → W → Prop} {m : KeyMap κ V} {other : KeyMap κ W} :
    Shared (fun v w => R v w ∧ S v w) m other ↔ Shared R m other ∧ Shared S m other := by
  constructor
  · intro h
    exact ⟨fun k v w hv hw => (h k v w hv hw).1, fun k v w hv hw => (h k v w hv hw).2⟩
  · rintro ⟨hR, hS⟩ k v w hv hw
    exact ⟨hR k v w hv hw, hS k v w hv hw⟩

/-- A map keeps its own entries. -/
theorem Kept.refl {R : V → V → Prop} (hR : ∀ v, R v v) (m : KeyMap κ V) : Kept R m m :=
  fun _ v hv => ⟨v, hv, hR v⟩

/-- What is kept twice is kept. -/
theorem Kept.trans {R : V → W → Prop} {S : W → X → Prop} {T : V → X → Prop}
    (hRST : ∀ v w x, R v w → S w x → T v x) {m : KeyMap κ V} {m' : KeyMap κ W}
    {m'' : KeyMap κ X} (h : Kept R m m') (h' : Kept S m' m'') : Kept T m m'' := by
  intro k v hv
  obtain ⟨w, hw, hR⟩ := h k v hv
  obtain ⟨x, hx, hS⟩ := h' k w hw
  exact ⟨x, hx, hRST v w x hR hS⟩

/-- Relations between shared entries compose where the entries are kept in between. -/
theorem Kept.shared_trans {R S : V → W → Prop} {S' : W → X → Prop} {T : V → X → Prop}
    (hRST : ∀ v w x, R v w → S v w → S' w x → T v x) {m : KeyMap κ V} {m' : KeyMap κ W}
    {m'' : KeyMap κ X} (hkept : Kept R m m') (h : Shared S m m') (h' : Shared S' m' m'') :
    Shared T m m'' := by
  intro k v x hv hx
  obtain ⟨w, hw, hR⟩ := hkept k v hv
  exact hRST v w x hR (h k v w hv hw) (h' k w x hw hx)

/-! ## Sums -/

/-- Erasing an entry takes its summand from a sum over the entries. -/
theorem sum_entries_erase {m : KeyMap κ V} {k : κ} {v : V} (h : m.lookup k = some v)
    (f : (Sigma fun _ : κ => V) → ℕ) :
    ((m.erase k).entries.map f).sum + f ⟨k, v⟩ = (m.entries.map f).sum := by
  have hmem : k ∈ m.entries.keys := AList.mem_keys.mpr (mem_iff_exists.mpr ⟨v, h⟩)
  obtain ⟨w, l₁, l₂, -, hentries, herase⟩ := List.exists_of_kerase hmem
  have hw : w = v := by
    have hlookup : m.lookup k = some w := by
      rw [← mem_entries_iff, hentries]
      exact List.mem_append_right _ List.mem_cons_self
    exact Option.some.inj (hlookup.symm.trans h)
  subst hw
  have hentries' : (m.erase k).entries = l₁ ++ l₂ := herase
  rw [hentries', hentries, List.map_append, List.map_append, List.sum_append, List.sum_append,
    List.map_cons, List.sum_cons]
  omega

/-! ## Changing values -/

/-- Change the value of one key, if the map has it. -/
def modify (m : KeyMap κ V) (k : κ) (f : V → V) : KeyMap κ V :=
  match m.lookup k with
  | some v => m.insert k (f v)
  | none => m

theorem modify_of_lookup {m : KeyMap κ V} {k : κ} {v : V} (h : m.lookup k = some v) (f : V → V) :
    m.modify k f = m.insert k (f v) := by
  simp only [modify, h]

theorem lookup_modify (m : KeyMap κ V) (k k' : κ) (f : V → V) :
    (m.modify k f).lookup k' = if k' = k then (m.lookup k).map f else m.lookup k' := by
  unfold modify
  by_cases h : k' = k
  · subst h
    rw [if_pos rfl]
    cases hv : m.lookup k' with
    | none => exact hv
    | some v => exact AList.lookup_insert m
  · rw [if_neg h]
    cases m.lookup k with
    | none => rfl
    | some v => exact AList.lookup_insert_ne h

/-- Change all values. -/
def mapValues (m : KeyMap κ V) (f : V → W) : KeyMap κ W where
  entries := m.entries.map fun e => ⟨e.1, f e.2⟩
  nodupKeys := by
    have hkeys : (m.entries.map fun e => (⟨e.1, f e.2⟩ : Sigma fun _ : κ => W)).keys =
        m.entries.keys := by
      simp [List.keys, List.map_map, Function.comp_def]
    rw [List.NodupKeys, hkeys]
    exact m.nodupKeys

theorem lookup_mapValues (m : KeyMap κ V) (f : V → W) (k : κ) :
    (m.mapValues f).lookup k = (m.lookup k).map f := by
  refine Option.ext fun w => ?_
  rw [← Option.mem_def, AList.mem_lookup_iff, Option.map_eq_some_iff]
  constructor
  · intro h
    obtain ⟨⟨k', v⟩, hmem, heq⟩ := List.mem_map.mp h
    cases heq
    exact ⟨v, mem_entries_iff.mp hmem, rfl⟩
  · rintro ⟨v, hv, rfl⟩
    exact List.mem_map.mpr ⟨⟨k, v⟩, mem_entries_iff.mpr hv, rfl⟩

/-! ## Collecting a map -/

/-- A map collected from a list of pairs: a later pair overwrites an earlier one of
the same key. -/
def collect (l : List (κ × V)) : KeyMap κ V :=
  ⟨(l.reverse.map fun p => (⟨p.1, p.2⟩ : Sigma fun _ : κ => V)).dedupKeys,
    List.nodupKeys_dedupKeys _⟩

theorem lookup_collect (l : List (κ × V)) (k : κ) :
    (collect l).lookup k =
      (l.reverse.map fun p => (⟨p.1, p.2⟩ : Sigma fun _ : κ => V)).dlookup k :=
  List.dlookup_dedupKeys _ _

/-- What a collected map stores comes from the list. -/
theorem mem_of_lookup_collect {l : List (κ × V)} {k : κ} {v : V}
    (h : (collect l).lookup k = some v) : (k, v) ∈ l := by
  rw [lookup_collect] at h
  have hmem := List.of_mem_dlookup (Option.mem_def.mpr h)
  obtain ⟨p, hp, heq⟩ := List.mem_map.mp hmem
  cases heq
  exact List.mem_reverse.mp hp

/-- A collected map has the keys of the list. -/
theorem mem_collect {l : List (κ × V)} {k : κ} : k ∈ collect l ↔ ∃ v, (k, v) ∈ l := by
  rw [← AList.lookup_isSome, lookup_collect, List.dlookup_isSome]
  simp [List.keys]

/-- Entries with keys of their own, inserted one after another. -/
theorem lookup_foldl_insert {l : List (κ × V)} (h : (l.map Prod.fst).Nodup) {m : KeyMap κ V}
    {k : κ} {v : V} : (l.foldl (fun m p => m.insert p.1 p.2) m).lookup k = some v ↔
      (k, v) ∈ l ∨ k ∉ l.map Prod.fst ∧ m.lookup k = some v := by
  induction l generalizing m with
  | nil => simp
  | cons p l ih =>
    obtain ⟨hp, hl⟩ := List.nodup_cons.mp h
    rw [List.foldl_cons, ih hl, List.map_cons, List.mem_cons, List.mem_cons]
    by_cases hk : k = p.1
    · subst hk
      have hnone : (p.1, v) ∉ l := fun hmem => hp (List.mem_map.mpr ⟨_, hmem, rfl⟩)
      rw [AList.lookup_insert]
      constructor
      · rintro (hmem | ⟨-, hv⟩)
        · exact absurd hmem hnone
        · exact .inl (.inl (Prod.ext rfl (Option.some.inj hv).symm))
      · rintro ((heq | hmem) | ⟨hne, -⟩)
        · exact .inr ⟨hp, congrArg (fun q => some q.2) heq.symm⟩
        · exact absurd hmem hnone
        · exact absurd (.inl rfl) hne
    · have hne : (k, v) ≠ p := fun heq => hk (congrArg Prod.fst heq)
      rw [AList.lookup_insert_ne hk]
      simp [hk, hne]

end KeyMap

end Torvyn
