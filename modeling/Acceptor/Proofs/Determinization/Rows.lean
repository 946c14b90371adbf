import Acceptor.Proofs.Builder.Collected
import Acceptor.Proofs.Builder.Listed
import Acceptor.Proofs.Determinization.Subsets

/-!
# The rows of the automaton of the composite states

The row of the state that stands for a composite state lists the moves of the
composite state, in their order, each with the one state that stands for its
target.  The edges of the whole automaton are listed in the order in which the
exploration followed them.
-/

namespace Acceptor

universe u

variable {σ : Type u}

namespace Exploration

/-- Composite states that can be numbered have different numbers. -/
theorem nodup_numbers
    {composites : Enumeration StateSet}
    (bounded : composites.size ≤ UInt32.size) :
    ((numbered composites).map Prod.fst).Nodup := by
  rw [numbered, List.map_map]
  exact Automaton.nodup_ofNat_zipIdx (by simpa using bounded)

/-- The moves of a composite state, each with the number of its target. -/
def numberedMoves [DecidableEq σ] [Hashable σ]
    (automaton : Automaton σ) (composites : Enumeration StateSet) (composite : StateSet) :
    List (σ × StateSet) :=
  (automaton.moves composite).map fun move => (move.1, {number composites move.2})

theorem rowEdges_of_toList_eq_numberedMoves
    [DecidableEq σ] [Hashable σ]
    {automaton : Automaton σ}
    {composites : Enumeration StateSet}
    {composite : StateSet}
    {row : OrderedMap σ StateSet}
    (listed : row.toList = numberedMoves automaton composites composite)
    (state : State) :
    Automaton.rowEdges state row = edgesOf automaton composites (state, composite) := by
  rw [Automaton.rowEdges, listed, numberedMoves, List.flatMap_map]
  simp only [StateSet.toList_singleton, List.map_singleton]
  exact List.flatMap_pure_eq_map _ _

section Complete

variable [DecidableEq σ] [Hashable σ] {automaton : Automaton σ} {exploration : Exploration σ}
  (explored : Explored automaton exploration.composites.size exploration)
  (bounded : exploration.composites.size < UInt32.size)

include explored bounded

/-- No two edges between composite states have the same source and symbol. -/
theorem nodup_keys_followed :
    (exploration.transitions.toList.map fun edge => (edge.1, edge.2.1)).Nodup := by
  rw [explored.toList_transitions, List.map_flatMap, List.nodup_flatMap]
  constructor
  · rintro ⟨state, composite⟩ _
    have distinct : ((automaton.moves composite).map Prod.fst).Nodup := by
      rw [Automaton.map_fst_moves]
      exact Enumeration.nodup_toList _
    rw [List.Nodup, List.pairwise_map] at distinct
    rw [edgesOf, List.map_map, List.Nodup, List.pairwise_map]
    exact distinct.imp fun different same => different (congrArg Prod.snd same)
  · have distinct := nodup_numbers (Nat.le_of_lt bounded)
    rw [List.Nodup, List.pairwise_map] at distinct
    refine distinct.imp fun different => ?_
    intro key firstMember secondMember
    simp only [edgesOf, List.map_map, List.mem_map] at firstMember secondMember
    rcases firstMember with ⟨_, _, rfl⟩
    rcases secondMember with ⟨_, _, same⟩
    exact different (congrArg Prod.fst same).symm

/-- Each edge that is followed has a group of its own. -/
theorem toList_labelled_builder :
    exploration.builder.labelled.toList =
      exploration.transitions.toList.map fun edge => ((edge.1, edge.2.1), {edge.2.2}) := by
  have distinct : ((exploration.transitions.toList.map Builder.keyed).map Prod.fst).Nodup := by
    rw [List.map_map]
    exact nodup_keys_followed explored bounded
  have collected := Builder.toList_grouped_of_distinct distinct
  rw [List.map_map] at collected
  rw [builder, Builder.labelled_addTransitions]
  exact collected

/-- The row of a state lists the moves of the composite state that it stands for. -/
theorem toList_row_layout
    {state : State}
    {composite : StateSet}
    (found : exploration.composites.get? state.toNat = some composite) :
    (exploration.builder.layout.row state).toList =
      numberedMoves automaton exploration.composites composite := by
  have small := Nat.le_of_lt bounded
  have inside := (Builder.inside_iff exploration.populated_builder).mp
    (inside_builder explored bounded)
  have kept : ∀ entry : State × StateSet,
      (edgesOf automaton exploration.composites entry).filterMap
          (Builder.keptBy state ∘ fun edge => ((edge.1, edge.2.1), {edge.2.2})) =
        if entry.1 = state then numberedMoves automaton exploration.composites entry.2
        else [] := by
    intro entry
    rw [edgesOf, List.filterMap_map]
    by_cases same : entry.1 = state
    · rw [if_pos same, numberedMoves, ← List.filterMap_eq_map]
      exact List.filterMap_congr fun move _ => if_pos same
    · rw [if_neg same, List.filterMap_eq_nil_iff]
      exact fun move _ => if_neg same
  have selected := flatMap_of_key Prod.fst
    (fun entry => numberedMoves automaton exploration.composites entry.2)
    (nodup_numbers small) ((mem_numbered_iff small).mpr found)
  rw [Builder.toList_row_layout inside, toList_labelled_builder explored bounded,
    List.filterMap_map, explored.toList_transitions, List.filterMap_flatMap, ← selected]
  simp only [kept]

/-- The edges are listed in the order in which they were followed. -/
theorem transitions_layout :
    exploration.builder.layout.transitions = exploration.transitions.toList := by
  have subsets := subsets_layout explored bounded
  have size : exploration.builder.layout.rows.size = exploration.composites.size := by
    rw [subsets.wellFormed.size_rows, subsets.numStates]
  have same : (exploration.builder.layout.rows.toList.zipIdx.map fun entry =>
        Automaton.rowEdges (UInt32.ofNat entry.2) entry.1) =
      (numbered exploration.composites).map
        (edgesOf automaton exploration.composites) := by
    apply List.ext_getElem?
    intro index
    rw [List.getElem?_map, List.getElem?_map, List.getElem?_zipIdx, getElem?_numbered,
      Array.getElem?_toList]
    rcases Nat.lt_or_ge index exploration.composites.size with below | beyond
    · rcases Enumeration.exists_get?_of_lt below with ⟨composite, found⟩
      have place : (UInt32.ofNat index).toNat = index :=
        UInt32.toNat_ofNat_of_lt' (Nat.lt_trans below bounded)
      have standing : exploration.builder.layout.rows[index]? =
          some (exploration.builder.layout.row (UInt32.ofNat index)) := by
        rw [Automaton.row, place, Array.getD_eq_getD_getElem?,
          Array.getElem?_eq_getElem (size ▸ below), Option.getD_some]
      have listed := toList_row_layout explored bounded (place.symm ▸ found)
      rw [standing, found, Option.map_some, Option.map_some, Option.map_some, Option.map_some,
        Nat.zero_add, rowEdges_of_toList_eq_numberedMoves listed]
    · rw [Array.getElem?_eq_none (size ▸ beyond), ← Enumeration.getElem?_toList,
        List.getElem?_eq_none (by simpa using beyond)]
      rfl
  rw [explored.toList_transitions, Automaton.transitions, List.flatMap_def, List.flatMap_def, same]

end Complete

end Exploration

end Acceptor
