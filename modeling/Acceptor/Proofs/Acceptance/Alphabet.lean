import Acceptor.Proofs.Acceptance.Trim
import Acceptor.Proofs.Builder.Listed

/-!
# The alphabet of an automaton

The symbols that label an edge are all that a path can spell, so a word that
contains another symbol is rejected.  In a trim automaton they are not too
many either: each edge lies on a path from the initial state to a final one,
and hence each symbol occurs in some accepted word.
-/

namespace Acceptor.Automaton

universe u

variable {σ : Type u} [DecidableEq σ] [Hashable σ] {automaton : Automaton σ}

/-- The alphabet consists of the symbols of the edges that can be followed. -/
theorem WellFormed.mem_alphabet_iff
    (wellFormed : automaton.WellFormed)
    {symbol : σ} :
    symbol ∈ automaton.alphabet ↔
      ∃ source destination, destination ∈ automaton.destinations source symbol := by
  rw [Enumeration.mem_def, wellFormed.toList_alphabet, List.mem_eraseDups, List.mem_map]
  constructor
  · rintro ⟨⟨source, symbol, destination⟩, edge, rfl⟩
    exact ⟨source, destination, (mem_transitions_iff wellFormed.rows_bounded).mp edge⟩
  · rintro ⟨source, destination, edge⟩
    exact ⟨(source, symbol, destination),
      (mem_transitions_iff wellFormed.rows_bounded).mpr edge, rfl⟩

theorem WellFormed.mem_alphabet_of_path
    (wellFormed : automaton.WellFormed)
    {source target : State}
    {word : List σ}
    (path : automaton.Path source word target) :
    ∀ symbol ∈ word, symbol ∈ automaton.alphabet := by
  induction path with
  | stay state => exact fun symbol member => absurd member List.not_mem_nil
  | epsilon edge rest induction => exact induction
  | symbol edge rest induction =>
      exact List.forall_mem_cons.mpr ⟨wellFormed.mem_alphabet_iff.mpr ⟨_, _, edge⟩, induction⟩

/-- A word that contains a symbol outside the alphabet is rejected. -/
theorem WellFormed.accepts_eq_false
    (wellFormed : automaton.WellFormed)
    {word : List σ}
    (foreign : ∃ symbol ∈ word, symbol ∉ automaton.alphabet) :
    automaton.accepts word = false := by
  rw [Bool.eq_false_iff]
  intro accepted
  rcases accepts_eq_true_iff.mp accepted with ⟨final, _, path⟩
  rcases foreign with ⟨symbol, member, outside⟩
  exact outside (wellFormed.mem_alphabet_of_path path symbol member)

/-- The alphabet of a trim automaton consists of the symbols that occur in accepted words. -/
theorem Trim.mem_alphabet_iff
    (trim : automaton.Trim)
    (wellFormed : automaton.WellFormed)
    {symbol : σ} :
    symbol ∈ automaton.alphabet ↔ ∃ word, automaton.accepts word = true ∧ symbol ∈ word := by
  constructor
  · intro member
    rcases wellFormed.mem_alphabet_iff.mp member with ⟨source, destination, edge⟩
    rcases trim.accessible source (wellFormed.source_lt_of_destination edge) with
      ⟨front, before⟩
    rcases trim.coaccessible destination (wellFormed.destination_lt _ _ _ edge) with
      ⟨final, isFinal, back, after⟩
    refine ⟨front ++ symbol :: back, accepts_eq_true_iff.mpr ⟨final, isFinal, ?_⟩,
      List.mem_append_right _ (List.mem_cons_self ..)⟩
    exact before.append (.symbol edge after)
  · rintro ⟨word, accepted, occurs⟩
    rcases accepts_eq_true_iff.mp accepted with ⟨final, _, path⟩
    exact wellFormed.mem_alphabet_of_path path symbol occurs

end Acceptor.Automaton
