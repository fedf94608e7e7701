/-
# The cycle that a validation reports

`find_cycle` of `torvyn-pipeline/src/validate.rs` searches depth first, with an explicit stack of
nodes and positions in their adjacency lists.  A round keeps `Searching`: the gray nodes are those
on the stack, each below its parent's, and what is black leads only to what is black.  So a gray
successor closes a walk along edges (`Searching.closedWalk`), and a search that runs its stack empty
has found no cycle among the nodes that it has visited.  Each round does a unit of `work`, which
bounds the rounds by the nodes and edges.

With it `validateTopology_agrees_iff` says when the order that `validate_topology` returns agrees
with what it reports.
-/
import Torvyn.Graph.CycleSearch
import Torvyn.Pipeline.Topology

namespace Torvyn.Pipeline

open Torvyn.Graph Relation

/-! ## The stack -/

/-- The nodes on a stack. -/
def stackNodes (stack : List (ℕ × ℕ)) : List ℕ := stack.map Prod.fst

/-- Where a recursive search would stand. -/
def DfsMarks.state (marks : DfsMarks) (n : ℕ) (stack : List (ℕ × ℕ)) : DfsState ℕ where
  visited := (Finset.range n).filter fun v => marks.color v ≠ .white
  inStack := (Finset.range n).filter fun v => marks.color v = .gray
  path := (stackNodes stack).reverse

/-- The successors that the nodes on the stack have looked at are black, or above them. -/
def Scanned (succ : ℕ → List ℕ) (color : ℕ → Color) : List (ℕ × ℕ) → List ℕ → Prop
  | [], _ => True
  | (v, i) :: stack, above =>
      (∀ w ∈ (succ v).take i, color w = .black ∨ w ∈ above) ∧ Scanned succ color stack (v :: above)

/-- What the rounds of a search keep. -/
structure Searching (succ : ℕ → List ℕ) (n : ℕ) (stack : List (ℕ × ℕ)) (marks : DfsMarks) :
    Prop where
  finished : Finished succ (marks.state n stack)
  gray : ∀ v, marks.color v = .gray ↔ v ∈ stackNodes stack
  bound : ∀ v ∈ stackNodes stack, v < n
  nodup : (stackNodes stack).Nodup
  chain : (stackNodes stack).IsChain fun v up => marks.parent v = some up ∧ v ∈ succ up
  scanned : Scanned succ marks.color stack []

/-- What a search may still do: enter a node, look at a successor, or leave a node. -/
def work (succ : ℕ → List ℕ) (n : ℕ) (color : ℕ → Color) (stack : List (ℕ × ℕ)) : ℕ :=
  (∑ v ∈ (Finset.range n).filter fun v => color v = .white, ((succ v).length + 1)) +
    (stack.map fun p => (succ p.1).length - p.2 + 1).sum

variable {succ : ℕ → List ℕ} {n : ℕ} {marks : DfsMarks} {stack : List (ℕ × ℕ)} {node i next : ℕ}

theorem Scanned.mono {color color' : ℕ → Color} {above above' : List ℕ}
    (h : Scanned succ color stack above)
    (himp : ∀ w, color w = .black ∨ w ∈ above → color' w = .black ∨ w ∈ above') :
    Scanned succ color' stack above' := by
  induction stack generalizing above above' with
  | nil => trivial
  | cons entry stack ih =>
    obtain ⟨hseen, hrest⟩ := h
    refine ⟨fun w hw => himp w (hseen w hw), ih hrest fun w hw => ?_⟩
    rcases hw with hblack | hmem
    · exact (himp w (.inl hblack)).imp_right (List.mem_cons_of_mem _)
    · rcases List.mem_cons.mp hmem with heq | hmem
      · exact .inr (List.mem_cons.mpr (.inl heq))
      · exact (himp w (.inr hmem)).imp_right (List.mem_cons_of_mem _)

/-! ## A round -/

/-- Looking at a successor and turning to it. -/
theorem Scanned.look {color : ℕ → Color} {above above' : List ℕ}
    (h : ∀ w ∈ (succ node).take i, color w = .black ∨ w ∈ above)
    (hnext : (succ node)[i]? = some next) (hseen : color next = .black ∨ next ∈ above')
    (hsub : above ⊆ above') :
    ∀ w ∈ (succ node).take (i + 1), color w = .black ∨ w ∈ above' := by
  intro w hw
  rw [List.take_add_one, hnext, Option.toList_some, List.mem_append, List.mem_singleton] at hw
  rcases hw with hw | rfl
  · exact (h w hw).imp_right fun hmem => hsub hmem
  · exact hseen

theorem state_enter {color : ℕ → Color} (hlt : next < n) (parent parent' : ℕ → Option ℕ)
    (stack stack' : List (ℕ × ℕ)) :
    (⟨Function.update color next .gray, parent'⟩ : DfsMarks).state n stack' =
      ⟨insert next ((⟨color, parent⟩ : DfsMarks).state n stack).visited,
        insert next ((⟨color, parent⟩ : DfsMarks).state n stack).inStack,
        (stackNodes stack').reverse⟩ := by
  unfold DfsMarks.state
  congr 1 <;> ext v <;> by_cases hv : v = next <;> simp [hv, hlt]

theorem gray_enter {color : ℕ → Color} {names : List ℕ}
    (h : ∀ v, color v = .gray ↔ v ∈ names) (v : ℕ) :
    Function.update color next .gray v = .gray ↔ v ∈ next :: names := by
  by_cases hv : v = next
  · simp [hv]
  · rw [Function.update_of_ne hv, h v, List.mem_cons, or_iff_right hv]

/-- **A node to search from** is entered. -/
theorem Searching.start (h : Searching succ n [] marks) (hlt : node < n)
    (hwhite : marks.color node = .white) :
    Searching succ n [(node, 0)]
      { marks with color := Function.update marks.color node .gray } where
  finished := by
    rw [state_enter hlt marks.parent marks.parent [] [(node, 0)]]
    refine h.finished.enter ?_ _
    simp [DfsMarks.state, hwhite]
  gray := gray_enter h.gray
  bound := by
    intro v hv
    rw [List.mem_singleton.mp hv]
    exact hlt
  nodup := List.nodup_singleton node
  chain := List.isChain_singleton node
  scanned := ⟨fun w hw => absurd hw (by simp), trivial⟩

/-- **A white successor** is entered. -/
theorem Searching.push (h : Searching succ n ((node, i) :: stack) marks)
    (hclosed : ∀ u, ∀ w ∈ succ u, w < n) (hnext : (succ node)[i]? = some next)
    (hwhite : marks.color next = .white) :
    Searching succ n ((next, 0) :: (node, i + 1) :: stack)
      ⟨Function.update marks.color next .gray, Function.update marks.parent next (some node)⟩ := by
  have hmem : next ∈ succ node := List.mem_of_getElem? hnext
  have hlt : next < n := hclosed node next hmem
  have hnot : next ∉ stackNodes ((node, i) :: stack) := fun hin => by
    rw [(h.gray next).mpr hin] at hwhite
    cases hwhite
  have hne : ∀ {v}, v ∈ stackNodes ((node, i) :: stack) → v ≠ next :=
    fun hv heq => hnot (heq ▸ hv)
  have hblack : ∀ w, marks.color w = .black →
      Function.update marks.color next .gray w = .black := by
    intro w hw
    rw [Function.update_of_ne (fun heq => by rw [heq, hwhite] at hw; cases hw)]
    exact hw
  refine ⟨?_, fun v => ?_, ?_, List.nodup_cons.mpr ⟨hnot, h.nodup⟩, ?_, ?_, ?_, ?_⟩
  · rw [state_enter hlt marks.parent _ ((node, i) :: stack)]
    refine h.finished.enter ?_ _
    simp [DfsMarks.state, hwhite]
  · exact gray_enter h.gray v
  · exact List.forall_mem_cons.mpr ⟨hlt, h.bound⟩
  · refine List.isChain_cons_cons.mpr ⟨⟨Function.update_self _ _ _, hmem⟩, ?_⟩
    refine h.chain.imp_of_mem_imp fun v up hv _ hlink => ?_
    show Function.update marks.parent next (some node) v = some up ∧ v ∈ succ up
    rw [Function.update_of_ne (hne hv)]
    exact hlink
  · exact fun w hw => absurd hw (by simp)
  · refine Scanned.look (fun w hw => (h.scanned.1 w hw).imp_left (hblack w)) hnext
      (.inr (List.mem_singleton_self next)) (List.nil_subset _)
  · refine h.scanned.2.mono fun w hw => hw.imp (hblack w) fun hin => ?_
    rw [List.mem_singleton] at hin
    rw [hin]
    exact List.mem_cons_self

/-- **A black successor** is passed over. -/
theorem Searching.advance (h : Searching succ n ((node, i) :: stack) marks)
    (hnext : (succ node)[i]? = some next) (hblack : marks.color next = .black) :
    Searching succ n ((node, i + 1) :: stack) marks where
  finished := h.finished
  gray := h.gray
  bound := h.bound
  nodup := h.nodup
  chain := h.chain
  scanned := ⟨Scanned.look h.scanned.1 hnext (.inl hblack) (List.Subset.refl _), h.scanned.2⟩

/-- **A node whose successors have all been looked at** is left. -/
theorem Searching.pop (h : Searching succ n ((node, i) :: stack) marks)
    (hclosed : ∀ u, ∀ w ∈ succ u, w < n) (hend : (succ node)[i]? = none) :
    Searching succ n stack { marks with color := Function.update marks.color node .black } := by
  have hgray : marks.color node = .gray := (h.gray node).mpr List.mem_cons_self
  have hlt : node < n := h.bound node List.mem_cons_self
  obtain ⟨hnot, hnodup⟩ := List.nodup_cons.mp h.nodup
  have hsucc : ∀ w ∈ succ node, marks.color w = .black := by
    intro w hw
    have hall : (succ node).take i = succ node :=
      List.take_of_length_le (List.getElem?_eq_none_iff.mp hend)
    have hseen : w ∈ (succ node).take i := by rwa [hall]
    rcases h.scanned.1 w hseen with hblack | hin
    · exact hblack
    · cases hin
  refine ⟨?_, fun v => ?_, fun v hv => h.bound v (List.mem_cons_of_mem _ hv), hnodup,
    h.chain.tail, ?_⟩
  · have hstate : ({ marks with color := Function.update marks.color node .black } :
        DfsMarks).state n stack =
        ⟨(marks.state n ((node, i) :: stack)).visited,
          (marks.state n ((node, i) :: stack)).inStack.erase node, (stackNodes stack).reverse⟩ := by
      unfold DfsMarks.state
      congr 1 <;> ext v <;> by_cases hv : v = node <;> simp [hv, hgray, and_comm]
    rw [hstate]
    refine h.finished.leave ?_ (fun w hw => ?_) _
    · simp [DfsMarks.state, hgray, hlt]
    · simp [DfsMarks.state, hsucc w hw, hclosed node w hw]
  · show Function.update marks.color node .black v = .gray ↔ _
    by_cases hv : v = node
    · rw [hv, Function.update_self]
      exact iff_of_false (fun h => by cases h) hnot
    · rw [Function.update_of_ne hv, h.gray v]
      exact List.mem_cons.trans (or_iff_right hv)
  · refine h.scanned.2.mono fun w hw => .inl ?_
    show Function.update marks.color node .black w = .black
    by_cases hv : w = node
    · rw [hv, Function.update_self]
    · rw [Function.update_of_ne hv]
      exact hw.resolve_right fun hin => hv (List.mem_singleton.mp hin)

/-- Walking up the parents lists the nodes of the stack above `next`. -/
theorem traceCycle_eq {parent : ℕ → Option ℕ} {names : List ℕ} {v fuel : ℕ}
    (hchain : (v :: names).IsChain fun u up => parent u = some up) (hmem : next ∈ v :: names)
    (hfuel : (v :: names).length ≤ fuel) :
    traceCycle parent next fuel v = (v :: names).takeWhile (· ≠ next) := by
  induction names generalizing v fuel with
  | nil =>
    obtain rfl := List.mem_singleton.mp hmem
    obtain ⟨fuel, rfl⟩ := Nat.exists_eq_add_of_le' hfuel
    rw [List.length_singleton, traceCycle, if_pos rfl]
    simp
  | cons up names ih =>
    obtain ⟨fuel, rfl⟩ : ∃ rest, fuel = rest + 1 :=
      Nat.exists_eq_succ_of_ne_zero (Nat.ne_of_gt (Nat.lt_of_lt_of_le (Nat.succ_pos _) hfuel))
    obtain ⟨hparent, hrest⟩ := List.isChain_cons_cons.mp hchain
    rw [traceCycle]
    by_cases hv : v = next
    · rw [if_pos hv]
      simp [hv]
    · have hmem' : next ∈ up :: names := (List.mem_cons.mp hmem).resolve_left (Ne.symm hv)
      rw [List.length_cons] at hfuel
      rw [if_neg hv, hparent, List.takeWhile_cons_of_pos (by simpa using hv)]
      simp only
      rw [ih hrest hmem' (by omega)]

/-- **A gray successor closes a walk**: the nodes of the stack from the successor on. -/
theorem Searching.closedWalk (h : Searching succ n ((node, i) :: stack) marks)
    (hnext : (succ node)[i]? = some next) (hgray : marks.color next = .gray) :
    ClosedWalk (Edge succ) (next :: traceCycle marks.parent next n node ++ [next]).reverse := by
  have hmem : next ∈ node :: stackNodes stack := (h.gray next).mp hgray
  have hchain : (node :: stackNodes stack).IsChain fun u up => Edge succ up u :=
    h.chain.imp fun u up hlink => hlink.2
  have hparents : (node :: stackNodes stack).IsChain fun u up => marks.parent u = some up :=
    h.chain.imp fun u up hlink => hlink.1
  have hlength : (node :: stackNodes stack).length ≤ n := by
    have hcard := List.toFinset_card_of_nodup h.nodup
    rw [← Finset.card_range n]
    refine hcard.symm.trans_le (Finset.card_le_card fun v hv => ?_)
    exact Finset.mem_range.mpr (h.bound v (List.mem_toFinset.mp hv))
  obtain ⟨above, below, hsplit, hnot⟩ := List.eq_append_cons_of_mem hmem
  have habove : ∀ v ∈ above, decide (v ≠ next) = true := by
    intro v hv
    exact decide_eq_true fun heq => hnot (heq ▸ hv)
  have htrace : traceCycle marks.parent next n node = above := by
    rw [traceCycle_eq hparents hmem hlength, hsplit,
      List.takeWhile_append_of_pos habove,
      List.takeWhile_cons_of_neg (by simp), List.append_nil]
  have hhead : (above ++ [next]).head? = some node := by
    have hfirst := congrArg List.head? hsplit
    rw [List.head?_cons, List.head?_append, List.head?_cons] at hfirst
    rw [List.head?_append, List.head?_cons, ← hfirst]
  have hpath : (above ++ [next]).IsChain fun u up => Edge succ up u :=
    (List.isChain_split.mp (hsplit ▸ hchain)).1
  rw [htrace]
  refine ⟨List.isChain_reverse.mpr (List.isChain_cons.mpr ⟨fun v hv => ?_, hpath⟩), ?_, ?_⟩
  · have hfirst : some node = some v := hhead.symm.trans hv
    rw [← Option.some.inj hfirst]
    exact List.mem_of_getElem? hnext
  · rw [List.head?_reverse, List.getLast?_reverse, List.getLast?_concat]
    rfl
  · simp

/-! ## A search -/

/-- Entering a node moves its work to the stack. -/
theorem work_push {color : ℕ → Color} (hlt : next < n) (hwhite : color next = .white)
    (stack : List (ℕ × ℕ)) :
    work succ n (Function.update color next .gray) ((next, 0) :: stack) =
      work succ n color stack := by
  have hmem : next ∈ (Finset.range n).filter fun v => color v = .white :=
    Finset.mem_filter.mpr ⟨Finset.mem_range.mpr hlt, hwhite⟩
  have hrest : ((Finset.range n).filter fun v => Function.update color next .gray v = .white) =
      ((Finset.range n).filter fun v => color v = .white).erase next := by
    ext v
    by_cases hv : v = next <;> simp [hv]
  unfold work
  rw [hrest, ← Finset.add_sum_erase _ _ hmem, List.map_cons, List.sum_cons]
  simp only [Nat.sub_zero]
  omega

/-- Looking at a successor is a unit of work. -/
theorem work_look {color : ℕ → Color} (hnext : (succ node)[i]? = some next) :
    work succ n color ((node, i) :: stack) = work succ n color ((node, i + 1) :: stack) + 1 := by
  obtain ⟨hlt, -⟩ := List.getElem?_eq_some_iff.mp hnext
  unfold work
  rw [List.map_cons, List.map_cons, List.sum_cons, List.sum_cons]
  dsimp only
  omega

/-- So is leaving a node. -/
theorem work_pop {color : ℕ → Color} (hgray : color node = .gray)
    (hend : (succ node)[i]? = none) :
    work succ n color ((node, i) :: stack) =
      work succ n (Function.update color node .black) stack + 1 := by
  have hle := List.getElem?_eq_none_iff.mp hend
  have hsame : ((Finset.range n).filter fun v => Function.update color node .black v = .white) =
      (Finset.range n).filter fun v => color v = .white := by
    ext v
    by_cases hv : v = node <;> simp [hv, hgray]
  unfold work
  rw [hsame, List.map_cons, List.sum_cons]
  dsimp only
  omega

/-- No colour turns white again. -/
theorem update_ne_white {color : ℕ → Color} {v : ℕ} {c : Color} (hc : c ≠ .white) (w : ℕ)
    (hw : color w ≠ .white) : Function.update color v c w ≠ .white := by
  by_cases heq : w = v
  · rw [heq, Function.update_self]
    exact hc
  · rw [Function.update_of_ne heq]
    exact hw

/-- **A search** that has the fuel for its work ends with a cycle, which is a closed walk along the
edges, or with an empty stack. -/
theorem searchCycle_spec (hclosed : ∀ u, ∀ w ∈ succ u, w < n) {fuel : ℕ}
    (h : Searching succ n stack marks) (hfuel : work succ n marks.color stack ≤ fuel) :
    (∀ cycle, searchCycle succ n fuel stack marks = .error cycle → ClosedWalk (Edge succ) cycle) ∧
      ∀ marks', searchCycle succ n fuel stack marks = .ok marks' →
        Searching succ n [] marks' ∧ ∀ v, marks.color v ≠ .white → marks'.color v ≠ .white := by
  induction fuel generalizing stack marks with
  | zero =>
    refine ⟨fun cycle hcycle => (by cases hcycle), fun marks' hmarks => ?_⟩
    obtain rfl := Except.ok.inj hmarks
    -- an entry on the stack is work to be done
    cases stack with
    | nil => exact ⟨h, fun _ hv => hv⟩
    | cons entry stack =>
      unfold work at hfuel
      rw [List.map_cons, List.sum_cons] at hfuel
      omega
  | succ fuel ih =>
    cases stack with
    | nil =>
      refine ⟨fun cycle hcycle => (by cases hcycle), fun marks' hmarks => ?_⟩
      obtain rfl := Except.ok.inj hmarks
      exact ⟨h, fun _ hv => hv⟩
    | cons entry stack =>
      obtain ⟨node, i⟩ := entry
      cases hnext : (succ node)[i]? with
      | none =>
        have hgray : marks.color node = .gray := (h.gray node).mpr List.mem_cons_self
        rw [work_pop hgray hnext] at hfuel
        obtain ⟨herror, hok⟩ := ih (h.pop hclosed hnext) (Nat.le_of_succ_le_succ hfuel)
        simp only [searchCycle, hnext]
        refine ⟨herror, fun marks' hmarks => ?_⟩
        obtain ⟨hsearching, hkept⟩ := hok marks' hmarks
        exact ⟨hsearching, fun v hv => hkept v (update_ne_white (by decide) v hv)⟩
      | some next =>
        rw [work_look hnext] at hfuel
        have hless := Nat.le_of_succ_le_succ hfuel
        cases hcolor : marks.color next with
        | gray =>
          simp only [searchCycle, hnext, hcolor]
          refine ⟨fun cycle hcycle => ?_, fun marks' hmarks => by cases hmarks⟩
          obtain rfl := Except.error.inj hcycle
          exact h.closedWalk hnext hcolor
        | white =>
          have hlt : next < n := hclosed node next (List.mem_of_getElem? hnext)
          obtain ⟨herror, hok⟩ := ih (h.push hclosed hnext hcolor)
            ((work_push hlt hcolor _).trans_le hless)
          simp only [searchCycle, hnext, hcolor]
          refine ⟨herror, fun marks' hmarks => ?_⟩
          obtain ⟨hsearching, hkept⟩ := hok marks' hmarks
          exact ⟨hsearching, fun v hv => hkept v (update_ne_white (by decide) v hv)⟩
        | black =>
          obtain ⟨herror, hok⟩ := ih (h.advance hnext hcolor) hless
          simp only [searchCycle, hnext, hcolor]
          exact ⟨herror, hok⟩

/-! ## The searches from all nodes that are left over -/

/-- The cycle that the searches end with, if any. -/
def cycleOf : Except (List ℕ) DfsMarks → List ℕ
  | .error cycle => cycle
  | .ok _ => []

/-- The successors of each node, once each and in order. -/
def sortedAdj (edges : List TopologyEdge) (u : ℕ) : List ℕ := (adj edges u).dedup.mergeSort

section Report

variable {flowName : String} {nodes : List TopologyNode} {edges : List TopologyEdge}

theorem edge_sortedAdj : Edge (sortedAdj edges) = Link edges := by
  rw [← edge_adj]
  funext u v
  unfold Edge sortedAdj
  rw [List.mem_mergeSort, List.mem_dedup]

theorem searching_nil : Searching succ n [] ⟨fun _ => .white, fun _ => none⟩ where
  finished := by
    refine ⟨fun v hv => ?_, fun x hx => ?_, fun x hx => ?_⟩
    · simp [DfsMarks.state] at hv
    · simp [DfsMarks.state] at hx
    · simp [DfsMarks.state] at hx
  gray := fun v => iff_of_false (fun h => by cases h) List.not_mem_nil
  bound := fun v hv => absurd hv List.not_mem_nil
  nodup := List.nodup_nil
  chain := List.isChain_nil
  scanned := trivial

/-- The edges from the nodes are among the edges. -/
theorem sum_countP_le (edges : List TopologyEdge) (n : ℕ) :
    (∑ u ∈ Finset.range n, edges.countP fun e => e.fromNode = u) ≤ edges.length := by
  induction edges with
  | nil => simp
  | cons e edges ih =>
    simp only [List.countP_cons, decide_eq_true_eq, Finset.sum_add_distrib, Finset.sum_ite_eq,
      List.length_cons]
    split <;> omega

/-- All the work there is. -/
theorem work_le (color : ℕ → Color) :
    work (sortedAdj edges) n color [] ≤ n + edges.length := by
  have hlength : ∀ u, (sortedAdj edges u).length ≤ edges.countP fun e => e.fromNode = u := by
    intro u
    unfold sortedAdj
    rw [List.length_mergeSort, List.countP_eq_length_filter]
    refine (List.dedup_sublist _).length_le.trans ?_
    rw [adj, bucket_apply, List.length_map]
  unfold work
  rw [List.map_nil, List.sum_nil, Nat.add_zero]
  calc (∑ v ∈ (Finset.range n).filter fun v => color v = .white, ((sortedAdj edges v).length + 1))
      ≤ ∑ v ∈ Finset.range n, ((sortedAdj edges v).length + 1) :=
        Finset.sum_le_sum_of_subset (Finset.filter_subset _ _)
    _ ≤ ∑ v ∈ Finset.range n, ((edges.countP fun e => e.fromNode = v) + 1) :=
        Finset.sum_le_sum fun v _ => Nat.add_le_add_right (hlength v) 1
    _ ≤ n + edges.length := by
        rw [Finset.sum_add_distrib, Finset.sum_const, Finset.card_range, smul_eq_mul, mul_one,
          Nat.add_comm]
        exact Nat.add_le_add_left (sum_countP_le edges n) n

variable (hbounds : ∀ e ∈ edges, e.fromNode < nodes.length ∧ e.toNode < nodes.length)
include hbounds

/-- **The cycle that is reported** is a closed walk, when there is one among the nodes. -/
theorem closedWalk_findCycle {left : List ℕ} (hleft : ∀ v ∈ left, v < nodes.length)
    (hcycle : ∃ v ∈ left, TransGen (Link edges) v v) :
    ClosedWalk (Link edges) (findCycle nodes edges left) := by
  have hclosed : ∀ u, ∀ w ∈ sortedAdj edges u, w < nodes.length := by
    intro u w hw
    have hlink : Link edges u w := edge_sortedAdj ▸ hw
    obtain ⟨e, he, -, rfl⟩ := hlink
    exact (hbounds e he).2
  let turn : DfsMarks → ℕ → Except (List ℕ) DfsMarks := fun marks start =>
    if marks.color start = .white then
      searchCycle (sortedAdj edges) nodes.length (nodes.length + edges.length + 1) [(start, 0)]
        { marks with color := Function.update marks.color start .gray }
    else .ok marks
  -- one search keeps the marks, and visits the node that it starts from
  have hturn : ∀ start ∈ left, ∀ marks, Searching (sortedAdj edges) nodes.length [] marks →
      (∀ cycle, turn marks start = .error cycle → ClosedWalk (Link edges) cycle) ∧
      ∀ marks', turn marks start = .ok marks' → Searching (sortedAdj edges) nodes.length [] marks' ∧
        marks'.color start ≠ .white ∧ ∀ v, marks.color v ≠ .white → marks'.color v ≠ .white := by
    intro start hstart marks h
    simp only [turn]
    split
    · rename_i hwhite
      have hlt := hleft start hstart
      have hwork : work (sortedAdj edges) nodes.length (Function.update marks.color start .gray)
          [(start, 0)] ≤ nodes.length + edges.length + 1 := by
        rw [work_push hlt hwhite]
        exact (work_le marks.color).trans (Nat.le_succ _)
      obtain ⟨herror, hok⟩ := searchCycle_spec hclosed (h.start hlt hwhite) hwork
      rw [edge_sortedAdj] at herror
      refine ⟨herror, fun marks' hmarks => ?_⟩
      obtain ⟨hsearching, hkept⟩ := hok marks' hmarks
      refine ⟨hsearching, hkept start ?_, fun v hv =>
        hkept v (update_ne_white (by decide) v hv)⟩
      show Function.update marks.color start .gray start ≠ .white
      rw [Function.update_self]
      decide
    · rename_i hseen
      refine ⟨fun cycle hcycle => (by cases hcycle), fun marks' hmarks => ?_⟩
      obtain rfl := Except.ok.inj hmarks
      exact ⟨h, hseen, fun _ hv => hv⟩
  have hwalk := @foldlM_except (List ℕ) DfsMarks ℕ turn
    (Searching (sortedAdj edges) nodes.length []) (ClosedWalk (Link edges)) left
    ⟨fun _ => .white, fun _ => none⟩ searching_nil fun start hstart marks h =>
      ⟨(hturn start hstart marks h).1, fun marks' hmarks =>
        ((hturn start hstart marks h).2 marks' hmarks).1⟩
  have hvisited := @foldlM_outcome (List ℕ) DfsMarks ℕ turn
    (Searching (sortedAdj edges) nodes.length []) (fun v marks => marks.color v ≠ .white) True left
    ⟨fun _ => .white, fun _ => none⟩ searching_nil fun start hstart marks h => by
      cases hresult : turn marks start with
      | error cycle => trivial
      | ok marks' => exact (hturn start hstart marks h).2 marks' hresult
  show ClosedWalk (Link edges) (cycleOf (left.foldlM turn ⟨fun _ => .white, fun _ => none⟩))
  generalize left.foldlM turn ⟨fun _ => .white, fun _ => none⟩ = result at hwalk hvisited ⊢
  cases result with
  | error cycle => exact hwalk.1 cycle rfl
  | ok marks =>
    -- all nodes are done with, so none of them lies on a cycle
    obtain ⟨hsearching, hall, -⟩ := hvisited
    obtain ⟨v, hv, hpath⟩ := hcycle
    have hlt := hleft v hv
    have hnotGray : marks.color v ≠ .gray := fun hgray =>
      absurd ((hsearching.gray v).mp hgray) List.not_mem_nil
    rw [← edge_sortedAdj] at hpath
    refine absurd hpath (hsearching.finished.acyclic v ?_ ?_)
    · simp [DfsMarks.state, hlt, hall v hv]
    · simp [DfsMarks.state, hnotGray]

/-- A sort that fails reports one error: the names along a closed walk. -/
theorem topologicalSort_cycle (hcyclic : ¬ Acyclic (Link edges)) :
    ∃ walk, ClosedWalk (Link edges) walk ∧ topologicalSort flowName nodes edges =
      ([.cycleDetected flowName (walk.map (nodeName nodes))], []) := by
  have hlength : (kahnOrder nodes edges).length ≠ nodes.length := fun h =>
    hcyclic ((kahnOrder_length_iff hbounds).mp h)
  let left := (List.range nodes.length).filter (· ∉ kahnOrder nodes edges)
  have hwalk : ClosedWalk (Link edges) (findCycle nodes edges left) := by
    refine closedWalk_findCycle hbounds (fun v hv => ?_) ?_
    · exact List.mem_range.mp (List.mem_filter.mp hv).1
    · unfold Acyclic at hcyclic
      push Not at hcyclic
      obtain ⟨v, hcycle⟩ := hcyclic
      -- the nodes of a cycle are left over
      have hnot : v ∉ kahnOrder nodes edges := not_mem_kahn_of_cycle List.nodup_range
        (fun u w => adj_lt hbounds) (inDegree_eq hbounds) (edge_adj ▸ hcycle)
      obtain ⟨_, ⟨e, he, rfl, -⟩, -⟩ := TransGen.head'_iff.mp hcycle
      exact ⟨_, List.mem_filter.mpr ⟨List.mem_range.mpr (hbounds e he).1, decide_eq_true hnot⟩,
        hcycle⟩
  have hne : findCycle nodes edges left ≠ [] := fun hnil => by
    have hlong := hwalk.length
    rw [hnil] at hlong
    cases hlong
  refine ⟨findCycle nodes edges left, hwalk, ?_⟩
  unfold topologicalSort
  rw [if_pos hlength]
  exact congrArg (fun cycle : List ℕ =>
    ([PipelineError.cycleDetected flowName (cycle.map (nodeName nodes))], [])) (if_neg hne)

end Report

/-! ## Agreement -/

/-- The order that a validation returns agrees with its report: it is an order of all nodes when
there are no errors, and empty when there are some; and a cycle that is reported is one. -/
structure Agrees (nodes : List TopologyNode) (edges : List TopologyEdge)
    (result : List PipelineError × List ℕ) : Prop where
  ordered : result.1 = [] → result.2.Perm (List.range nodes.length) ∧
    ∀ e ∈ edges, result.2.idxOf e.fromNode < result.2.idxOf e.toNode
  empty : result.1 ≠ [] → result.2 = []
  walks : ∀ flow cycle, .cycleDetected flow cycle ∈ result.1 →
    ∃ walk, ClosedWalk (Link edges) walk ∧ cycle = walk.map (nodeName nodes)

section Agreement

variable {flowName : String} {nodes : List TopologyNode} {edges : List TopologyEdge}

/-- Only the sort reports a cycle. -/
theorem cycleDetected_of_validateTopology {order : PortOrder} {flow : String} {cycle : List String}
    (h : .cycleDetected flow cycle ∈ (validateTopology flowName nodes edges order).1) :
    .cycleDetected flow cycle ∈ (topologicalSort flowName nodes edges).1 := by
  unfold validateTopology at h
  split at h
  · simp at h
  · simp only [List.mem_append] at h
    rcases h with (((h | h) | h) | h) | h
    · unfold checkSourceAndSink at h
      rcases List.mem_append.mp h with h | h <;> split at h <;> simp at h
    · obtain ⟨⟨node, idx⟩, -, h⟩ := List.mem_flatMap.mp h
      simp only at h
      unfold roleErrors at h
      split at h <;> split at h <;> simp at h
    · rcases List.mem_append.mp h with h | h
      · obtain ⟨key, -, h⟩ := List.mem_flatMap.mp h
        simp only at h
        split at h <;> simp at h
      · obtain ⟨key, -, h⟩ := List.mem_flatMap.mp h
        simp only at h
        split at h <;> simp at h
    · exact h
    · split at h
      · cases h
      · obtain ⟨⟨node, idx⟩, -, h⟩ := List.mem_flatMap.mp h
        simp only at h
        split at h <;> simp at h

/-- **When the order agrees with the report**: when there are no nodes, when there is a cycle, or
when nothing at all is wrong. -/
theorem validateTopology_agrees_iff (flowName : String) (nodes : List TopologyNode)
    (edges : List TopologyEdge) (order : PortOrder)
    (hbounds : ∀ e ∈ edges, e.fromNode < nodes.length ∧ e.toNode < nodes.length) :
    Agrees nodes edges (validateTopology flowName nodes edges order) ↔
      nodes = [] ∨ ¬ Acyclic (Link edges) ∨ Sound nodes edges := by
  obtain ⟨hsound, horder⟩ := @validateTopology_spec flowName nodes edges hbounds order
  have hwalks : ∀ flow cycle,
      .cycleDetected flow cycle ∈ (validateTopology flowName nodes edges order).1 →
        ∃ walk, ClosedWalk (Link edges) walk ∧ cycle = walk.map (nodeName nodes) := by
    intro flow cycle h
    have hsort := cycleDetected_of_validateTopology h
    by_cases hacyclic : Acyclic (Link edges)
    · unfold topologicalSort at hsort
      rw [if_neg (not_not.mpr ((kahnOrder_length_iff hbounds).mpr hacyclic))] at hsort
      cases hsort
    · obtain ⟨walk, hwalk, heq⟩ := @topologicalSort_cycle flowName nodes edges hbounds hacyclic
      rw [heq] at hsort
      obtain ⟨-, rfl⟩ := PipelineError.cycleDetected.inj (List.mem_singleton.mp hsort)
      exact ⟨walk, hwalk, rfl⟩
  constructor
  · intro h
    by_contra hnot
    rw [not_or, not_or, not_not] at hnot
    obtain ⟨hnodes, hacyclic, hunsound⟩ := hnot
    have hempty := h.empty fun hnone => hunsound (hsound.mp hnone)
    have hlength := (kahnOrder_length_iff hbounds).mpr hacyclic
    unfold validateTopology topologicalSort at hempty
    rw [if_neg hnodes, if_neg (not_not.mpr hlength)] at hempty
    rw [show kahnOrder nodes edges = [] from hempty] at hlength
    exact hnodes (List.eq_nil_of_length_eq_zero hlength.symm)
  · rintro (hnodes | hcyclic | hgood)
    · unfold validateTopology at hwalks ⊢
      rw [if_pos hnodes] at hwalks ⊢
      exact ⟨fun h => (by cases h), fun _ => rfl, hwalks⟩
    · refine ⟨fun hnone => absurd (hsound.mp hnone).acyclic hcyclic, fun _ => ?_, hwalks⟩
      obtain ⟨walk, -, heq⟩ := @topologicalSort_cycle flowName nodes edges hbounds hcyclic
      unfold validateTopology
      rw [heq]
      split <;> rfl
    · have hnone := hsound.mpr hgood
      obtain ⟨hsame, hlength⟩ := horder hnone
      refine ⟨fun _ => ?_, fun herror => absurd hnone herror, hwalks⟩
      rw [hsame]
      exact kahnOrder_spec hbounds hlength

end Agreement

/-- A source, and nothing else. -/
def loneSource : List TopologyNode := [⟨"a", "mock://a", "torvyn:streaming/source", .source⟩]

/-- **An order beside an error**: a flow without a sink is ordered all the same. -/
theorem loneSource_ordered :
    ¬ Agrees loneSource [] (validateTopology "main" loneSource [] givenOrder) := by
  intro h
  have hempty := h.empty (by decide)
  revert hempty
  decide

theorem loneSource_agrees_iff :
    Agrees loneSource [] (validateTopology "main" loneSource [] givenOrder) ↔
      loneSource = [] ∨ ¬ Acyclic (Link []) ∨ Sound loneSource [] :=
  validateTopology_agrees_iff "main" loneSource [] givenOrder fun _ he =>
    absurd he List.not_mem_nil

end Torvyn.Pipeline
