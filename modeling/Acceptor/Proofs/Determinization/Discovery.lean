import Acceptor.Proofs.Acceptance.Trim
import Acceptor.Proofs.Determinization.Correctness
import Acceptor.Proofs.Determinization.Report

/-!
# The order of discovery

The states of a deterministic automaton are numbered as the sets that they
stand for were discovered: set by set, by ascending number, and for each set
symbol by symbol.  Both orders can be read off the automaton.  Its rows list
symbols in the order in which the rows of the members list them first, and
whoever reads its edges from the beginning meets the states in the order of
their numbers, each of them first on an edge from a state with a smaller number.
-/

namespace Acceptor

universe u

variable {σ : Type u} [DecidableEq σ] [Hashable σ]

namespace Automaton

/-! ## What a state stands for -/

/--
A state of the second automaton stands for a set of states of the first: some
word leads to it, and after every such word the runs are in this set.
-/
def Represents (nfa dfa : Automaton σ) (state : State) (composite : StateSet) : Prop :=
  (∃ word, dfa.Path dfa.initial word state) ∧
    ∀ word, dfa.Path dfa.initial word state →
      nfa.moveAll (nfa.epsilonClosureOf nfa.initial) word = composite

theorem Subsets.represents
    {nfa dfa : Automaton σ}
    {composites : Enumeration StateSet}
    (subsets : nfa.Subsets dfa composites)
    (wellFormed : nfa.WellFormed)
    {state : State}
    {composite : StateSet}
    (found : composites.get? state.toNat = some composite) :
    nfa.Represents dfa state composite := by
  rw [Represents, subsets.initial]
  constructor
  · rcases subsets.enumerates.reached composite (Enumeration.mem_of_get? found) with ⟨word, rfl⟩
    exact ⟨word, (subsets.path_zero_iff wellFormed).mpr found⟩
  · intro word path
    have standing := (subsets.path_zero_iff wellFormed).mp path
    exact Option.some.inj (standing.symm.trans found)

/-! ## Ascending sources -/

/-- Edges are listed by ascending source. -/
theorem pairwise_source_transitions
    {automaton : Automaton σ}
    (bounded : automaton.rows.size ≤ UInt32.size) :
    automaton.transitions.Pairwise fun first second => first.1 ≤ second.1 := by
  refine pairwise_transitions bounded ?_ fun _ _ => UInt32.le_of_lt
  intro source
  refine List.pairwise_of_forall_mem_list fun first firstMember second secondMember => ?_
  rw [← (mem_rowEdges_iff.mp firstMember).1, ← (mem_rowEdges_iff.mp secondMember).1]
  exact UInt32.le_refl source

/-- The first edge to a state does not come from a later source than any other edge to it. -/
theorem exists_first_edge
    {automaton : Automaton σ}
    (bounded : automaton.rows.size ≤ UInt32.size)
    {edge : State × σ × State}
    (listed : edge ∈ automaton.transitions) :
    ∃ first, automaton.transitions.find? (fun other => other.2.2 = edge.2.2) = some first ∧
      first.1 ≤ edge.1 := by
  have some : (automaton.transitions.find? fun other => other.2.2 = edge.2.2).isSome := by
    rw [List.find?_isSome]
    exact ⟨edge, listed, by simp⟩
  rcases Option.isSome_iff_exists.mp some with ⟨first, found⟩
  refine ⟨first, found, ?_⟩
  rcases List.find?_eq_some_iff_append.mp found with ⟨_, before, after, split, others⟩
  have ascending := pairwise_source_transitions bounded
  rw [split] at listed ascending
  rcases List.mem_append.mp listed with earlier | later
  · have different := others edge earlier
    simp at different
  · rcases List.mem_cons.mp later with rfl | later
    · exact UInt32.le_refl _
    · exact (List.pairwise_cons.mp (List.pairwise_append.mp ascending).2.1).1 edge later

end Automaton

namespace Exploration

/-! ## Numbers in their order -/

/-- Members of an enumeration have their places as numbers. -/
theorem map_number_toList (composites : Enumeration StateSet) :
    composites.toList.map (number composites) =
      (List.range composites.size).map UInt32.ofNat := by
  apply List.ext_getElem?
  intro index
  rw [List.getElem?_map, List.getElem?_map, Enumeration.getElem?_toList]
  rcases Nat.lt_or_ge index composites.size with below | beyond
  · rcases Enumeration.exists_get?_of_lt below with ⟨composite, found⟩
    rw [found, List.getElem?_range below, Option.map_some, Option.map_some,
      number_eq_of_position? (Enumeration.position?_eq_some_iff.mpr found)]
  · rw [← Enumeration.getElem?_toList, List.getElem?_eq_none (by simpa using beyond),
      List.getElem?_eq_none (by simpa using beyond)]
    rfl

theorem number_inj
    {composites : Enumeration StateSet}
    (bounded : composites.size ≤ UInt32.size)
    {first second : StateSet}
    (firstMember : first ∈ composites)
    (secondMember : second ∈ composites)
    (same : number composites first = number composites second) :
    first = second := by
  have firstFound := (number_eq_iff bounded firstMember).mp rfl
  have secondFound := (number_eq_iff bounded secondMember).mp rfl
  rw [same, secondFound] at firstFound
  exact (Option.some.inj firstFound).symm

section Complete

variable {automaton : Automaton σ} {exploration : Exploration σ}
  (explored : Explored automaton exploration.composites.size exploration)

include explored

/-- Edges lead to the numbers of the targets, in the order in which they are met. -/
theorem map_destination_followed :
    exploration.transitions.toList.map (fun edge => edge.2.2) =
      (exploration.composites.toList.flatMap (targets automaton)).map
        (number exploration.composites) := by
  rw [explored.toList_transitions, List.map_flatMap, List.map_flatMap, ← map_snd_numbered,
    List.flatMap_map]
  simp only [edgesOf, targets, List.map_map, Function.comp_def]

variable (bounded : exploration.composites.size < UInt32.size)

include bounded

/-- The first state and the destinations of the edges first occur in the order of their numbers. -/
theorem eraseDups_destinations_followed :
    ((0 : State) :: exploration.transitions.toList.map fun edge => edge.2.2).eraseDups =
      (List.range exploration.composites.size).map UInt32.ofNat := by
  have first : number exploration.composites (automaton.epsilonClosureOf automaton.initial) = 0 :=
    number_eq_of_position? (Enumeration.position?_eq_some_iff.mpr explored.enumerates.first)
  have numbers : (met automaton exploration.composites.toList).map
        (number exploration.composites) =
      0 :: exploration.transitions.toList.map fun edge => edge.2.2 := by
    rw [met, List.map_cons, first, map_destination_followed explored]
  have known : ∀ composite ∈ met automaton exploration.composites.toList,
      composite ∈ exploration.composites := by
    intro composite member
    rw [Enumeration.mem_def, explored.toList_composites, List.mem_eraseDups]
    exact member
  rw [← numbers, ← map_eraseDups, ← explored.toList_composites, map_number_toList]
  intro composite member other otherMember
  exact number_inj (Nat.le_of_lt bounded) (known composite member) (known other otherMember)

/-- Every state but the first one is the destination of an edge from a smaller state. -/
theorem exists_edge_from_smaller
    {state : State}
    (below : state.toNat < exploration.composites.size)
    (later : state ≠ 0) :
    ∃ edge ∈ exploration.transitions.toList, edge.2.2 = state ∧ edge.1 < state := by
  rcases Enumeration.exists_get?_of_lt below with ⟨composite, found⟩
  rcases explored.discovered_from_smaller found with
    rfl | ⟨earlier, smaller, source, sourceFound, symbol, labels, rfl⟩
  · have first := Enumeration.get?_inj found explored.enumerates.first
    exact absurd (UInt32.toNat_inj.mp first) later
  · have place : (UInt32.ofNat earlier).toNat = earlier :=
      UInt32.toNat_ofNat_of_lt' (Nat.lt_trans (Nat.lt_trans smaller below) bounded)
    refine ⟨(UInt32.ofNat earlier, symbol, state), ?_, rfl, ?_⟩
    · rw [← place] at sourceFound
      exact (mem_transitions_iff explored bounded).mpr ⟨source, sourceFound, labels, found⟩
    · rw [UInt32.lt_iff_toNat_lt, place]
      exact smaller

/-- The row of a state lists the symbols of the members' rows at their first occurrences. -/
theorem map_fst_row_layout
    {state : State}
    {composite : StateSet}
    (found : exploration.composites.get? state.toNat = some composite) :
    (exploration.builder.layout.row state).toList.map Prod.fst =
      (composite.toList.flatMap fun member =>
        (automaton.row member).toList.map Prod.fst).eraseDups := by
  rw [toList_row_layout explored bounded found, numberedMoves, List.map_map,
    ← List.map_flatMap, ← Enumeration.toList_ofList]
  exact automaton.map_fst_moves composite

end Complete

end Exploration

namespace Automaton

/-- The rows and the numbers of a deterministic automaton are in the order of discovery. -/
structure InDiscoveryOrder (nfa dfa : Automaton σ) : Prop where
  /--
  A row lists each symbol once, in the order in which it occurs first when the
  rows of the members are read one after the other.
  -/
  row : ∀ state < dfa.numStates, ∃ composite, nfa.Represents dfa state composite ∧
    (dfa.row state).toList.map Prod.fst =
      (composite.toList.flatMap fun member => (nfa.row member).toList.map Prod.fst).eraseDups
  /-- Apart from the state zero, destinations occur first in the order of their numbers. -/
  destinations :
    ((dfa.transitions.map fun edge => edge.2.2).filter fun state => state != 0).eraseDups =
      (List.range' 1 (dfa.numStates.toNat - 1)).map UInt32.ofNat
  /-- The first edge to a state comes from a state with a smaller number. -/
  earlier : ∀ state < dfa.numStates, state ≠ 0 →
    ∃ edge, dfa.transitions.find? (fun edge => edge.2.2 = state) = some edge ∧ edge.1 < state

/-- Determinization lists symbols and numbers states in the order of their discovery. -/
theorem determinize_in_discovery_order {nfa : Automaton σ}
    (built : nfa.Built) (fit : nfa.CompositesFit) :
    ∃ dfa, nfa.determinize = .ok dfa ∧ nfa.InDiscoveryOrder dfa := by
  rcases nfa.exists_explored with ⟨exploration, result, explored⟩
  have bounded : exploration.composites.size < UInt32.size := fit exploration result
  have subsets := Exploration.subsets_layout explored bounded
  refine ⟨exploration.builder.layout, ?_, ?_, ?_, ?_⟩
  · exact (determinizeWithLimit_none result bounded).1
  · intro state below
    rcases subsets.exists_get?_of_lt below with ⟨composite, found⟩
    exact ⟨composite, subsets.represents built.wellFormed found,
      Exploration.map_fst_row_layout explored bounded found⟩
  · have inOrder := Exploration.eraseDups_destinations_followed explored bounded
    rcases Nat.exists_eq_add_one.mpr explored.size_pos with ⟨others, size⟩
    rw [size, List.range_eq_range', List.range'_succ, List.map_cons,
      List.eraseDups_cons] at inOrder
    rw [Exploration.transitions_layout explored bounded, subsets.numStates, size]
    exact (List.cons.inj inOrder).2
  · intro state below later
    rw [UInt32.lt_iff_toNat_lt, subsets.numStates] at below
    rcases Exploration.exists_edge_from_smaller explored bounded below later with
      ⟨edge, followed, rfl, smaller⟩
    rw [← Exploration.transitions_layout explored bounded] at followed
    rcases exists_first_edge subsets.wellFormed.rows_bounded followed with ⟨first, found, before⟩
    exact ⟨first, found, UInt32.lt_of_le_of_lt before smaller⟩

theorem determinize_in_discovery_order_tangled :
    Builder.tangled.layout.Built ∧ Builder.tangled.layout.CompositesFit ∧
      ∃ dfa, Builder.tangled.layout.determinize = .ok dfa ∧
        Builder.tangled.layout.InDiscoveryOrder dfa :=
  ⟨Builder.built_tangled, Builder.compositesFit_tangled,
    determinize_in_discovery_order Builder.built_tangled Builder.compositesFit_tangled⟩

end Automaton

end Acceptor
