import Acceptor.Automaton.Checked
import Acceptor.Proofs.Combinators.Pairs
import Acceptor.Proofs.Combinators.Repetition

/-!
# When no sum is too large

As long as the states of its result can be numbered, none of the sums that a
construction forms is too large, and checking them makes no difference.
-/

namespace Acceptor

theorem sum?_eq_some
    {left right : State}
    (small : left.toNat + right.toNat < UInt32.size) :
    sum? left right = some (left + right) :=
  if_pos small

namespace Automaton

variable {σ : Type} [DecidableEq σ] [Hashable σ]

section Copying

variable {automaton : Automaton σ} (wellFormed : automaton.WellFormed)

include wellFormed

theorem WellFormed.lt_of_mem_renumbered
    {state : State}
    (listed : state ∈ automaton.renumbered) :
    state < automaton.numStates := by
  simp only [renumbered, List.cons_append, List.mem_cons, List.mem_append, List.mem_flatMap,
    List.not_mem_nil, or_false, or_assoc] at listed
  rcases listed with rfl | final | ⟨⟨source, symbol, destination⟩, edge, same⟩ |
    ⟨⟨source, destination⟩, edge, same⟩
  · exact wellFormed.initial_lt
  · exact wellFormed.final_lt state final
  · rw [mem_transitions_iff wellFormed.rows_bounded] at edge
    rcases same with rfl | rfl
    · exact wellFormed.source_lt_of_destination edge
    · exact wellFormed.destination_lt _ _ _ edge
  · rw [mem_epsilonTransitions_iff wellFormed.epsilons_bounded] at edge
    rcases same with rfl | rfl
    · exact wellFormed.source_lt_of_epsilon edge
    · exact wellFormed.epsilon_lt _ _ edge

/-- A copy can be made when the numbers of all its states are 32-bit words. -/
theorem WellFormed.copy?_eq_some
    {offset : State}
    (small : automaton.numStates.toNat + offset.toNat ≤ UInt32.size) :
    automaton.copy? offset = some (automaton.copy offset) := by
  refine if_pos (List.all_eq_true.mpr fun state listed => ?_)
  have below := UInt32.lt_iff_toNat_lt.mp (wellFormed.lt_of_mem_renumbered listed)
  rw [sum?_eq_some (by omega)]
  rfl

theorem WellFormed.copy?_zero_eq_some :
    automaton.copy? 0 = some (automaton.copy 0) :=
  wellFormed.copy?_eq_some (Nat.le_of_lt automaton.numStates.toNat_lt)

end Copying

/-- Joining copies of two automata that leave room for two states forms no sum that is too large. -/
theorem compose?_eq_some
    {first second : Automaton σ}
    (firstFormed : first.WellFormed)
    (secondFormed : second.WellFormed)
    (small : first.numStates.toNat + second.numStates.toNat + 2 < 2 ^ 32)
    (join : Copy σ → Copy σ → State → Builder σ) :
    compose? join first second = some (compose join first second) := by
  have count : sum? first.numStates second.numStates =
      some (first.numStates + second.numStates) :=
    sum?_eq_some (Nat.lt_of_add_right_lt small)
  have total : sum? (first.numStates + second.numStates) 2 =
      some (first.numStates + second.numStates + 2) := by
    apply sum?_eq_some
    rw [(toNat_pair small).1]
    exact small
  have shifted : second.numStates.toNat + first.numStates.toNat ≤ UInt32.size := by
    rw [Nat.add_comm]
    exact Nat.le_of_lt (Nat.lt_of_add_right_lt small)
  simp only [compose?, count, total, firstFormed.copy?_zero_eq_some,
    secondFormed.copy?_eq_some shifted, Option.bind_eq_bind, Option.bind_some]
  rfl

/-- Repeating a body whose states leave room for two more forms no sum that is too large. -/
theorem star?_eq_some
    {body : Automaton σ}
    (wellFormed : body.WellFormed)
    (small : body.numStates.toNat + 2 < 2 ^ 32) :
    body.star? = some body.star := by
  rw [star?, sum?_eq_some small, wellFormed.copy?_zero_eq_some]
  rfl

end Automaton

end Acceptor
