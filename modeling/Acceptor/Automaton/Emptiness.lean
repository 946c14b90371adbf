import Acceptor.Automaton.Path

/-!
# Automata that accept nothing

Some word is accepted exactly when a final state can be reached from the
initial one along edges of either kind, whatever they carry: the path that
reaches it spells the word.
-/

namespace Acceptor

universe u

namespace Automaton

variable {σ : Type u} [DecidableEq σ] [Hashable σ]

/-- The successors of a state are the destinations of its edges of either kind. -/
theorem mem_successors_iff {automaton : Automaton σ} {source state : State} :
    state ∈ automaton.successors source ↔
      state ∈ automaton.epsilonsFrom source ∨
        ∃ symbol, state ∈ automaton.destinations source symbol := by
  rw [successors, ← Array.foldl_toList, ← OrderedMap.map_snd_toList, List.foldl_map,
    StateSet.mem_foldl_union]
  simp only [mem_destinations_iff, Prod.exists]

/-- What can be reached at all is reached by a path that spells some word. -/
theorem reaches_successors_iff {automaton : Automaton σ} {source target : State} :
    Reaches automaton.successors source target ↔
      ∃ word, automaton.Path source word target := by
  constructor
  · intro path
    induction path with
    | refl state => exact ⟨[], .stay state⟩
    | step edge _ induction =>
        obtain ⟨word, rest⟩ := induction
        rcases mem_successors_iff.mp edge with edge | ⟨symbol, edge⟩
        · exact ⟨word, .epsilon edge rest⟩
        · exact ⟨symbol :: word, .symbol edge rest⟩
  · rintro ⟨word, path⟩
    induction path with
    | stay state => exact .refl state
    | epsilon edge _ induction =>
        exact .step (mem_successors_iff.mpr (Or.inl edge)) induction
    | symbol edge _ induction =>
        exact .step (mem_successors_iff.mpr (Or.inr ⟨_, edge⟩)) induction

/-- An automaton is empty when there is no word that it accepts. -/
theorem isEmpty_eq_false_iff {automaton : Automaton σ} :
    automaton.isEmpty = false ↔ ∃ word, automaton.accepts word = true := by
  rw [isEmpty, Bool.not_eq_false', StateSet.intersects_eq_true_iff]
  simp only [mem_reachable_iff, accepts_eq_true_iff, StateSet.mem_singleton, exists_eq_left,
    reaches_successors_iff]
  constructor
  · rintro ⟨final, ⟨word, path⟩, isFinal⟩
    exact ⟨word, final, isFinal, path⟩
  · rintro ⟨word, final, isFinal, path⟩
    exact ⟨final, ⟨word, path⟩, isFinal⟩

end Automaton

end Acceptor
