import Acceptor.Automaton.Emptiness
import Acceptor.Proofs.Acceptance.Trim
import Acceptor.Proofs.Search.Closure

/-!
# Emptiness found by a search

The search for a final state comes upon exactly the states to which a path
leads from the initial state.  It does not follow single epsilon edges: it
begins with a closure and goes on to the closures of what symbols lead to, and
a path is put together from these.

Hence the search comes upon a final state when some word is accepted, and
otherwise ends without one.
-/

namespace Acceptor.Automaton

universe u

variable {σ : Type u} [DecidableEq σ] [Hashable σ] {automaton : Automaton σ}

theorem goal_seekingFinal_iff {state : State} :
    automaton.seekingFinal.goal state = true ↔ state ∈ automaton.finals :=
  StateSet.contains_eq_true_iff

/-- A state leads to what its symbols lead to and to what epsilon edges lead to from there. -/
theorem mem_follow_seekingFinal_iff {state next : State} :
    next ∈ automaton.seekingFinal.follow state ↔
      ∃ symbol, ∃ middle ∈ automaton.destinations state symbol,
        Reaches automaton.epsilonsFrom middle next := by
  simp only [seekingFinal, List.mem_flatMap, StateSet.mem_toList, mem_epsilonClosure_iff,
    mem_destinations_iff, Prod.exists]
  constructor
  · rintro ⟨symbol, group, entry, middle, member, path⟩
    exact ⟨symbol, middle, ⟨group, entry, member⟩, path⟩
  · rintro ⟨symbol, middle, ⟨group, entry, member⟩, path⟩
    exact ⟨symbol, group, entry, middle, member, path⟩

/-- A word leads to each state that the search comes upon. -/
theorem leads_of_reached {state : State} (reached : automaton.seekingFinal.Reached state) :
    automaton.Leads automaton.initial state := by
  induction reached with
  | start member => exact ⟨[], Path.ofReaches (mem_epsilonClosureOf_iff.mp member)⟩
  | follow _ edge induction =>
      rcases mem_follow_seekingFinal_iff.mp edge with ⟨symbol, middle, labelled, path⟩
      exact (induction.trans (.symbol labelled)).trans ⟨[], Path.ofReaches path⟩

/-- Once a state and all that epsilon edges reach from it are come upon, paths are followed. -/
theorem reached_of_path
    {source target : State}
    {word : List σ}
    (path : automaton.Path source word target)
    (closed : ∀ state, Reaches automaton.epsilonsFrom source state →
      automaton.seekingFinal.Reached state) :
    automaton.seekingFinal.Reached target := by
  induction path with
  | stay state => exact closed state (.refl state)
  | epsilon edge _ induction =>
      exact induction fun state reached => closed state (.step edge reached)
  | @symbol source middle target symbol word edge _ induction =>
      refine induction fun state reached => .follow (closed source (.refl source)) ?_
      exact mem_follow_seekingFinal_iff.mpr ⟨symbol, middle, edge, reached⟩

theorem reached_seekingFinal_iff {state : State} :
    automaton.seekingFinal.Reached state ↔ automaton.Leads automaton.initial state := by
  constructor
  · exact leads_of_reached
  · rintro ⟨word, path⟩
    exact reached_of_path path fun other reached =>
      .start (mem_epsilonClosureOf_iff.mpr reached)

/-- The search comes upon a final state exactly when some word is accepted. -/
theorem isExhausted_eq_isEmpty
    {outcome : Search.Outcome}
    (answers : automaton.seekingFinal.Answers outcome) :
    outcome.isExhausted = automaton.isEmpty := by
  cases outcome with
  | found state =>
      rcases reached_seekingFinal_iff.mp answers.1 with ⟨word, path⟩
      have accepted := accepts_eq_true_iff.mpr ⟨state, goal_seekingFinal_iff.mp answers.2, path⟩
      exact (isEmpty_eq_false_iff.mpr ⟨word, accepted⟩).symm
  | exhausted visited =>
      symm
      rw [Search.Outcome.isExhausted, ← Bool.not_eq_false, isEmpty_eq_false_iff]
      rintro ⟨word, accepted⟩
      rcases accepts_eq_true_iff.mp accepted with ⟨final, isFinal, path⟩
      have seen := (answers.1 final).mpr (reached_seekingFinal_iff.mpr ⟨word, path⟩)
      exact Bool.false_ne_true
        ((answers.2 final seen).symm.trans (goal_seekingFinal_iff.mpr isFinal))

/-- With enough turns the search answers whether the automaton is empty. -/
theorem WellFormed.exists_bound_seekingFinal (wellFormed : automaton.WellFormed) :
    ∃ bound, ∀ turns, bound < turns →
      (automaton.seekingFinal.outcome? turns).map Search.Outcome.isExhausted =
        some automaton.isEmpty := by
  have covered : ∀ state, ∀ next ∈ automaton.seekingFinal.follow state,
      state ∈ automaton.states := by
    intro state next edge
    rcases mem_follow_seekingFinal_iff.mp edge with ⟨symbol, middle, labelled, _⟩
    exact mem_states_iff.mpr (wellFormed.source_lt_of_destination labelled)
  refine ⟨automaton.seekingFinal.budget automaton.states automaton.seekingFinal.begin, ?_⟩
  intro turns enough
  rcases Search.exists_outcome automaton.nodup_states covered enough with
    ⟨outcome, ended, answers⟩
  rw [ended, Option.map_some, isExhausted_eq_isEmpty answers]

/-- The search for a final state ends, and it finds none exactly when no word is accepted. -/
theorem isEmpty_iff_accepts_nothing (built : automaton.Built) :
    (∃ bound, ∀ turns, bound < turns →
      (automaton.seekingFinal.outcome? turns).map Search.Outcome.isExhausted =
        some automaton.isEmpty) ∧
      (automaton.isEmpty = true ↔ ¬ ∃ word, automaton.accepts word = true) := by
  refine ⟨built.wellFormed.exists_bound_seekingFinal, ?_⟩
  rw [← isEmpty_eq_false_iff, Bool.not_eq_false]

theorem isEmpty_iff_accepts_nothing_tangled :
    Builder.tangled.layout.Built ∧
      (∃ bound, ∀ turns, bound < turns →
        (Builder.tangled.layout.seekingFinal.outcome? turns).map Search.Outcome.isExhausted =
          some Builder.tangled.layout.isEmpty) ∧
      (Builder.tangled.layout.isEmpty = true ↔
        ¬ ∃ word, Builder.tangled.layout.accepts word = true) :=
  ⟨Builder.built_tangled, isEmpty_iff_accepts_nothing Builder.built_tangled⟩

end Acceptor.Automaton
