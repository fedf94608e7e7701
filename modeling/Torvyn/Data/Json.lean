/-
# JSON values

The values that JSON texts stand for, and a parser.  `parse_eq_some_iff` says that a text is read
as a value exactly when its tokens are those of the value.
-/
import Torvyn.Data.JsonText

namespace Torvyn.Json

/-! ## Values -/

/-- A value. -/
inductive Value where
  | null
  | bool (b : Bool)
  | num (q : ℚ)
  | str (s : String)
  | arr (items : List Value)
  | obj (members : List (String × Value))

/-- The tokens of a value. -/
def Value.tokens : Value → List Token
  | .null => [.null]
  | .bool b => [.bool b]
  | .num q => [.num q]
  | .str s => [.str s]
  | .arr items => .lbracket :: [.comma].intercalate (items.map tokens) ++ [.rbracket]
  | .obj members =>
      .lbrace :: [.comma].intercalate (members.map fun m => .str m.1 :: .colon :: m.2.tokens) ++
        [.rbrace]
  termination_by v => sizeOf v
  decreasing_by
    · have hlt := List.sizeOf_lt_of_mem ‹_›
      simp
      omega
    · have hlt := List.sizeOf_lt_of_mem ‹_›
      obtain ⟨k, v⟩ := m
      simp at hlt ⊢
      omega

/-- The tokens of a member of an object. -/
def memberTokens (m : String × Value) : List Token := .str m.1 :: .colon :: m.2.tokens

@[simp] theorem Value.tokens_arr (vs : List Value) :
    (arr vs).tokens = .lbracket :: [.comma].intercalate (vs.map tokens) ++ [.rbracket] := by
  rw [tokens]

@[simp] theorem Value.tokens_obj (ms : List (String × Value)) :
    (obj ms).tokens = .lbrace :: [.comma].intercalate (ms.map memberTokens) ++ [.rbrace] := by
  rw [tokens]
  rfl

/-- Items that are separated by commas, up to a token that closes them, with a bound on their
number. -/
def items {α : Type*} (item : List Token → Option (α × List Token)) (close : Token) :
    ℕ → List Token → Option (List α × List Token)
  | 0, _ => none
  | n + 1, ts =>
      (item ts).bind fun (a, ts) =>
        if ts.head? = some close then some ([a], ts.tail)
        else if ts.head? = some .comma then
          (items item close n ts.tail).map fun (as, ts) => (a :: as, ts)
        else none

/-- A member of an object, by a parser for its value. -/
def member (value : List Token → Option (Value × List Token)) :
    List Token → Option ((String × Value) × List Token)
  | .str k :: .colon :: ts => (value ts).map fun (v, ts) => ((k, v), ts)
  | _ => none

/-- The value with which the tokens begin, with a bound on its size. -/
def value : ℕ → List Token → Option (Value × List Token)
  | 0, _ => none
  | _ + 1, [] => none
  | n + 1, t :: ts =>
      match t with
      | .null => some (.null, ts)
      | .bool b => some (.bool b, ts)
      | .num q => some (.num q, ts)
      | .str s => some (.str s, ts)
      | .lbracket =>
          if ts.head? = some .rbracket then some (.arr [], ts.tail)
          else (items (value n) .rbracket n ts).map fun (vs, ts) => (.arr vs, ts)
      | .lbrace =>
          if ts.head? = some .rbrace then some (.obj [], ts.tail)
          else (items (member (value n)) .rbrace n ts).map fun (ms, ts) => (.obj ms, ts)
      | _ => none

/-- **The parser.** -/
def parse (text : String) : Option Value :=
  (lex text.toList).bind fun ts =>
    (value ts.length ts).bind fun (v, rest) => if rest = [] then some v else none

section Parser

variable {α : Type*} {item : List Token → Option (α × List Token)} {close : Token}
  {toks : α → List Token}

/-- What is read as items are their tokens. -/
theorem items_sound (hitem : ∀ ts a rest, item ts = some (a, rest) → ts = toks a ++ rest) {n : ℕ}
    {ts rest : List Token} {as : List α} (h : items item close n ts = some (as, rest)) :
    as ≠ [] ∧ ts = [.comma].intercalate (as.map toks) ++ close :: rest := by
  induction n generalizing ts as with
  | zero => cases h
  | succ n ih =>
    rw [items] at h
    obtain ⟨⟨a, ts₁⟩, ha, hrest⟩ := Option.bind_eq_some_iff.mp h
    obtain rfl := hitem ts a ts₁ ha
    simp only at hrest
    split_ifs at hrest with hclose hcomma
    · obtain ⟨rfl, rfl⟩ := Prod.mk.inj (Option.some.inj hrest)
      obtain ⟨ts₂, rfl⟩ := List.head?_eq_some_iff.mp hclose
      simp
    · obtain ⟨⟨as', ts₂⟩, has, heq⟩ := Option.map_eq_some_iff.mp hrest
      obtain ⟨rfl, rfl⟩ := Prod.mk.inj heq
      obtain ⟨hne, htail⟩ := ih has
      obtain ⟨ts₃, rfl⟩ := List.head?_eq_some_iff.mp hcomma
      rw [List.tail_cons] at htail
      refine ⟨by simp, ?_⟩
      rw [List.map_cons, List.intercalate_cons_of_ne_nil (by simpa using hne), htail]
      simp

/-- The tokens of items are read again. -/
theorem items_complete (hclose : close ≠ .comma) {n : ℕ} {as : List α} (hne : as ≠ [])
    (hn : as.length ≤ n) (hitem : ∀ a ∈ as, ∀ rest, item (toks a ++ rest) = some (a, rest))
    (rest : List Token) :
    items item close n ([.comma].intercalate (as.map toks) ++ close :: rest) = some (as, rest) := by
  induction n generalizing as with
  | zero => exact absurd (List.length_eq_zero_iff.mp (Nat.le_zero.mp hn)) hne
  | succ n ih =>
    obtain ⟨a, as, rfl⟩ := List.exists_cons_of_ne_nil hne
    have ha := hitem a List.mem_cons_self
    cases as with
    | nil => simp [items, ha]
    | cons b as =>
      have hrest := ih (by simp) (by simpa using hn) fun c hc => hitem c (List.mem_cons_of_mem _ hc)
      rw [List.map_cons] at hrest
      simp [items, List.intercalate_cons_cons, ha, hrest, hclose.symm]

theorem member_sound {value : List Token → Option (Value × List Token)}
    (hvalue : ∀ ts v rest, value ts = some (v, rest) → ts = v.tokens ++ rest) (ts : List Token)
    (m : String × Value) (rest : List Token) (h : member value ts = some (m, rest)) :
    ts = memberTokens m ++ rest := by
  unfold member at h
  split at h
  · obtain ⟨⟨v, rest'⟩, hv, heq⟩ := Option.map_eq_some_iff.mp h
    obtain ⟨rfl, rfl⟩ := Prod.mk.inj heq
    rw [hvalue _ v rest' hv]
    rfl
  · cases h

/-- **What is read as a value** are its tokens. -/
theorem value_sound {n : ℕ} {ts rest : List Token} {v : Value}
    (h : value n ts = some (v, rest)) : ts = v.tokens ++ rest := by
  induction n generalizing ts rest v with
  | zero => cases h
  | succ n ih =>
    cases ts with
    | nil => cases h
    | cons t ts =>
      cases t with
      | null | bool b | num q | str s =>
        rw [value] at h
        cases h
        simp [Value.tokens]
      | lbracket =>
        simp only [value] at h
        split_ifs at h with hclose
        · cases h
          obtain ⟨ts, rfl⟩ := List.head?_eq_some_iff.mp hclose
          simp
        · obtain ⟨⟨vs, rest'⟩, hvs, heq⟩ := Option.map_eq_some_iff.mp h
          obtain ⟨rfl, rfl⟩ := Prod.mk.inj heq
          obtain ⟨-, htokens⟩ := items_sound (fun ts v rest => ih) hvs
          simp [htokens]
      | lbrace =>
        simp only [value] at h
        split_ifs at h with hclose
        · cases h
          obtain ⟨ts, rfl⟩ := List.head?_eq_some_iff.mp hclose
          simp
        · obtain ⟨⟨ms, rest'⟩, hms, heq⟩ := Option.map_eq_some_iff.mp h
          obtain ⟨rfl, rfl⟩ := Prod.mk.inj heq
          obtain ⟨-, htokens⟩ := items_sound (member_sound fun ts v rest => ih) hms
          simp [htokens]
      | _ => cases h

/-- Tokens that are put together are at least as many as those of each part, and as the parts. -/
theorem length_intercalate {xss : List (List Token)} (hne : ∀ xs ∈ xss, xs ≠ []) :
    xss.length ≤ ([Token.comma].intercalate xss).length ∧
      ∀ xs ∈ xss, xs.length ≤ ([Token.comma].intercalate xss).length := by
  induction xss with
  | nil => simp
  | cons xs xss ih =>
    obtain ⟨hlength, hparts⟩ := ih fun ys hys => hne ys (List.mem_cons_of_mem _ hys)
    have hpos := List.length_pos_iff.mpr (hne xs List.mem_cons_self)
    cases xss with
    | nil =>
      simp
      omega
    | cons ys xss =>
      rw [List.intercalate_cons_cons]
      simp only [List.length_append, List.length_cons, List.length_nil, List.mem_cons,
        forall_eq_or_imp] at hlength hparts ⊢
      refine ⟨by omega, by omega, by omega, fun zs hzs => ?_⟩
      have hle := hparts.2 zs hzs
      omega

/-- The tokens of items are read again, with a bound on the number of the tokens. -/
theorem items_of_tokens (hclose : close ≠ .comma) {n : ℕ} {as : List α} (hne : as ≠ [])
    (hn : ([.comma].intercalate (as.map toks)).length ≤ n)
    (hhead : ∀ a ∈ as, ∃ t ts, toks a = t :: ts ∧ t ≠ close)
    (hitem : ∀ a ∈ as, (toks a).length ≤ n → ∀ rest, item (toks a ++ rest) = some (a, rest))
    (rest : List Token) :
    ([.comma].intercalate (as.map toks) ++ close :: rest).head? ≠ some close ∧
      items item close n ([.comma].intercalate (as.map toks) ++ close :: rest) =
        some (as, rest) := by
  have htokens : ∀ ts ∈ as.map toks, ts ≠ [] := by
    rw [List.forall_mem_map]
    intro a ha
    obtain ⟨t, ts, heq, -⟩ := hhead a ha
    rw [heq]
    exact List.cons_ne_nil t ts
  obtain ⟨hlength, hparts⟩ := length_intercalate htokens
  rw [List.length_map] at hlength
  refine ⟨?_, items_complete hclose hne (hlength.trans hn) (fun a ha =>
    hitem a ha ((hparts _ (List.mem_map_of_mem ha)).trans hn)) rest⟩
  obtain ⟨a, as, rfl⟩ := List.exists_cons_of_ne_nil hne
  obtain ⟨t, ts, heq, ht⟩ := hhead a List.mem_cons_self
  cases as with
  | nil => simp [heq, ht]
  | cons b as => simp [List.intercalate_cons_cons, heq, ht]

/-- No value begins with a token that closes an array. -/
theorem head_tokens (v : Value) : ∃ t ts, v.tokens = t :: ts ∧ t ≠ .rbracket := by
  cases v <;> simp [Value.tokens]

/-- **The tokens of a value are read again.** -/
theorem value_complete {n : ℕ} {v : Value} (hn : v.tokens.length ≤ n) (rest : List Token) :
    value n (v.tokens ++ rest) = some (v, rest) := by
  induction n generalizing v rest with
  | zero =>
    obtain ⟨t, ts, htokens, -⟩ := head_tokens v
    rw [htokens, List.length_cons] at hn
    omega
  | succ n ih =>
    cases v with
    | null | bool b | num q | str s => simp [Value.tokens, value]
    | arr vs =>
      by_cases hnil : vs = []
      · subst hnil
        simp [value]
      · rw [Value.tokens_arr] at hn ⊢
        simp only [List.length_cons, List.length_append, List.length_nil] at hn
        obtain ⟨hhead, hall⟩ := items_of_tokens (by decide) hnil (by omega)
          (fun v _ => head_tokens v) (fun v _ hle rest => @ih v hle rest) rest
        simp only [List.cons_append, List.append_assoc, List.nil_append, value]
        rw [if_neg hhead, hall]
        rfl
    | obj ms =>
      by_cases hnil : ms = []
      · subst hnil
        simp [value]
      · rw [Value.tokens_obj] at hn ⊢
        simp only [List.length_cons, List.length_append, List.length_nil] at hn
        have hmember : ∀ m ∈ ms, (memberTokens m).length ≤ n → ∀ rest,
            member (value n) (memberTokens m ++ rest) = some (m, rest) := by
          intro m _ hle rest
          have hvalue := @ih m.2 (by simp [memberTokens] at hle; omega) rest
          simp [memberTokens, member, hvalue]
        have hstart : ∀ m ∈ ms, ∃ t ts, memberTokens m = t :: ts ∧ t ≠ .rbrace :=
          fun m _ => ⟨_, _, rfl, by simp⟩
        obtain ⟨hhead, hall⟩ :=
          items_of_tokens (by decide) hnil (by omega) hstart hmember rest
        simp only [List.cons_append, List.append_assoc, List.nil_append, value]
        rw [if_neg hhead, hall]
        rfl

/-- **A text is read as a value** exactly when its tokens are those of the value. -/
theorem parse_eq_some_iff {text : String} {v : Value} :
    parse text = some v ↔ lex text.toList = some v.tokens := by
  constructor
  · intro h
    obtain ⟨ts, hts, h⟩ := Option.bind_eq_some_iff.mp h
    obtain ⟨⟨v', rest⟩, hv, h⟩ := Option.bind_eq_some_iff.mp h
    simp only at h
    split_ifs at h with hrest
    cases h
    rw [hts, value_sound hv, hrest, List.append_nil]
  · intro h
    have hvalue := value_complete (Nat.le_refl v.tokens.length) []
    rw [List.append_nil] at hvalue
    simp [parse, h, hvalue]

end Parser

end Torvyn.Json
