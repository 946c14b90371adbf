import Acceptor.Proofs.Determinization.Correctness
import Acceptor.Proofs.Determinization.Renaming

/-!
# Determinizing twice

In the automaton of the composite states a run is in one state at a time.  Its
own composite states are the sets of one state, and the moves of such a set are
the row of the state.  Rows list the moves of composite states in their order,
so the second exploration is the first one with every composite state renamed
into the set of its number: it numbers the states as they were numbered before
and assembles the very same automaton.
-/

namespace Acceptor

universe u

variable {σ : Type u} [DecidableEq σ] [Hashable σ]

namespace Automaton

/-! ## Sets of one state -/

/-- The steps of one state are its row. -/
theorem steps_singleton (automaton : Automaton σ) (state : State) :
    automaton.steps {state} = automaton.row state := by
  have fresh : ∀ group ∈ (automaton.row state).toList,
      group.1 ∉ (OrderedMap.empty : OrderedMap σ StateSet).keys := by
    simp [OrderedMap.empty, Enumeration.mem_def]
  have groups : automaton.groups {state} = (automaton.row state).toList := by
    rw [Automaton.groups, StateSet.toList_singleton, List.flatMap_singleton]
  have collected := OrderedMap.toList_foldl_upsert_of_distinct (automaton.row state).nodup_keys
    Prod.snd (fun group => (· ∪ group.2)) fresh
  apply OrderedMap.ext_toList
  rw [steps, groups]
  exact collected.trans (List.map_id _)

/-- Without epsilon edges every set is closed. -/
theorem epsilonClosure_eq_self
    {automaton : Automaton σ}
    (none : ∀ state, automaton.epsilonsFrom state = ∅)
    (states : StateSet) :
    automaton.epsilonClosure states = states := by
  ext state
  rw [mem_epsilonClosure_iff]
  simp only [reaches_iff_eq none, exists_eq_right]

/-- Without epsilon edges the moves of one state are its row. -/
theorem moves_singleton
    {automaton : Automaton σ}
    (none : ∀ state, automaton.epsilonsFrom state = ∅)
    (state : State) :
    automaton.moves {state} = (automaton.row state).toList := by
  rw [moves_eq_map, steps_singleton]
  simp only [epsilonClosure_eq_self none]
  exact List.map_id _

theorem intersects_singleton {state : State} {set : StateSet} :
    ({state} : StateSet).intersects set = true ↔ state ∈ set := by
  rw [StateSet.intersects_eq_true_iff]
  simp only [StateSet.mem_singleton, exists_eq_left]

end Automaton

/-! ## Sets of one number -/

namespace Exploration

variable {nfa : Automaton σ} {exploration : Exploration σ}
  (explored : Explored nfa exploration.composites.size exploration)
  (bounded : exploration.composites.size < UInt32.size)

include explored bounded

/-- The second exploration renames each composite state into the set of its number. -/
theorem renames_layout :
    nfa.Renames exploration.builder.layout exploration.composites fun composite =>
      {number exploration.composites composite} := by
  have small := Nat.le_of_lt bounded
  have subsets := subsets_layout explored bounded
  have standing : ∀ composite ∈ exploration.composites,
      exploration.composites.get? (number exploration.composites composite).toNat =
        some composite :=
    fun composite member => (number_eq_iff small member).mp rfl
  constructor
  case injective =>
    intro first firstMember second secondMember same
    have numbers := congrArg StateSet.toList same
    rw [StateSet.toList_singleton, StateSet.toList_singleton, List.singleton_inj] at numbers
    have firstFound := standing first firstMember
    rw [numbers, standing second secondMember] at firstFound
    exact (Option.some.inj firstFound).symm
  case initial =>
    have known : nfa.epsilonClosureOf nfa.initial ∈ exploration.composites :=
      Enumeration.mem_of_get? explored.enumerates.first
    rw [subsets.initial, Automaton.epsilonClosureOf,
      Automaton.epsilonClosure_eq_self subsets.epsilonsFrom,
      ← (number_eq_iff small known).mpr subsets.get?_zero]
  case moves =>
    intro composite member
    rw [Automaton.moves_singleton subsets.epsilonsFrom,
      toList_row_layout explored bounded (standing composite member), numberedMoves]
  case final =>
    intro composite member
    rw [Bool.eq_iff_iff, Automaton.intersects_singleton, subsets.final_iff,
      standing composite member]
    simp only [Option.some.injEq, exists_eq_left']

end Exploration

namespace Automaton

/-- Determinizing a deterministic automaton that came from determinizing changes nothing. -/
theorem determinize_idempotent {nfa : Automaton σ} (fit : nfa.CompositesFit) :
    ∃ dfa, nfa.determinize = .ok dfa ∧ dfa.determinize = .ok dfa := by
  rcases nfa.exists_explored with ⟨exploration, result, explored⟩
  have bounded : exploration.composites.size < UInt32.size := fit exploration result
  have made : nfa.determinize = .ok exploration.builder.layout := by
    rw [determinize_eq result, Exploration.assemble_eq_ok explored bounded]
    rfl
  have again := (Exploration.renames_layout explored bounded).determinize_eq result
  exact ⟨exploration.builder.layout, made, again.trans made⟩

theorem determinize_idempotent_tangled :
    Builder.tangled.layout.CompositesFit ∧
      ∃ dfa, Builder.tangled.layout.determinize = .ok dfa ∧ dfa.determinize = .ok dfa :=
  ⟨Builder.compositesFit_tangled, determinize_idempotent Builder.compositesFit_tangled⟩

end Automaton

end Acceptor
