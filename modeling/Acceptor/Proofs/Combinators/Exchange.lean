import Acceptor.Proofs.Combinators.Pairs
import Acceptor.Proofs.Relabelling

/-!
# Unions in either order

A union copies its first operand to the front and its second operand behind
it; its initial and its final state come last.  In the union of the operands in
the other order the two blocks have changed places, and nothing else has
changed.  Each union is thus the other one under other names.
-/

namespace Acceptor

universe u

/-! ## Two blocks change places -/

/-- The new name of a state when the second of two blocks of states is put before the first. -/
def State.exchange (left right state : State) : State :=
  if state < left then state + right
  else if state < left + right then state - left
  else state

namespace State

variable {left right state : State}

theorem toNat_add_of_lt (small : left.toNat + right.toNat < UInt32.size) :
    (left + right).toNat = left.toNat + right.toNat := by
  rw [UInt32.toNat_add]
  exact Nat.mod_eq_of_lt small

theorem exchange_first (below : state < left) : exchange left right state = state + right :=
  if_pos below

variable (small : left.toNat + right.toNat < UInt32.size)

include small

/-- As long as the blocks can be numbered, no new name is too large. -/
theorem toNat_exchange (state : State) :
    (exchange left right state).toNat =
      if state.toNat < left.toNat then state.toNat + right.toNat
      else if state.toNat < left.toNat + right.toNat then state.toNat - left.toNat
      else state.toNat := by
  have sum := toNat_add_of_lt small
  simp only [exchange, UInt32.lt_iff_toNat_lt, sum]
  split
  case isTrue first => exact toNat_add_of_lt (by omega)
  case isFalse first =>
    split
    · exact UInt32.toNat_sub_of_le _ _ (UInt32.le_iff_toNat_le.mpr (Nat.le_of_not_lt first))
    · rfl

theorem exchange_second (below : state < right) : exchange left right (state + left) = state := by
  rw [UInt32.lt_iff_toNat_lt] at below
  rw [← UInt32.toNat_inj, toNat_exchange small, toNat_add_of_lt (by omega), if_neg (by omega),
    if_pos (by omega), Nat.add_sub_cancel]

theorem exchange_behind (behind : left + right ≤ state) : exchange left right state = state := by
  rw [UInt32.le_iff_toNat_le, toNat_add_of_lt small] at behind
  rw [← UInt32.toNat_inj, toNat_exchange small, if_neg (by omega), if_neg (by omega)]

/-- The names of the blocks stay among themselves. -/
theorem exchange_lt
    {bound : State}
    (room : left + right ≤ bound)
    (below : state < bound) :
    exchange left right state < bound := by
  rw [UInt32.le_iff_toNat_le, toNat_add_of_lt small] at room
  rw [UInt32.lt_iff_toNat_lt] at below ⊢
  rw [toNat_exchange small]
  split_ifs <;> omega

/-- Changing places twice changes nothing. -/
theorem exchange_exchange : exchange right left (exchange left right state) = state := by
  have swapped : right.toNat + left.toNat < UInt32.size := Nat.add_comm .. ▸ small
  rw [← UInt32.toNat_inj, toNat_exchange swapped, toNat_exchange small]
  split_ifs <;> omega

theorem bijOn_exchange {bound : State} (room : left + right ≤ bound) :
    Set.BijOn (exchange left right) {state | state < bound} {state | state < bound} := by
  have swapped : right.toNat + left.toNat < UInt32.size := Nat.add_comm .. ▸ small
  refine Set.InvOn.bijOn ⟨fun _ _ => exchange_exchange small, fun _ _ => exchange_exchange swapped⟩
    (fun _ below => exchange_lt small room below) fun _ below => exchange_lt swapped ?_ below
  rw [UInt32.add_comm]
  exact room

end State

/-! ## Unions -/

namespace Automaton

variable {σ : Type u} [DecidableEq σ] [Hashable σ]

section Moved

variable {part : Automaton σ} {offset newOffset source destination : State}
  {rename : State → State}
  (wellFormed : part.WellFormed)
  (moved : ∀ state < part.numStates, rename (state + offset) = state + newOffset)

include wellFormed moved

theorem WellFormed.mem_shiftedTransitions_of_moved
    {symbol : σ}
    (listed : (source, symbol, destination) ∈ part.shiftedTransitions offset) :
    (rename source, symbol, rename destination) ∈ part.shiftedTransitions newOffset := by
  rcases wellFormed.mem_shiftedTransitions_iff.mp listed with ⟨start, stop, inner, rfl, rfl⟩
  rw [moved start (wellFormed.source_lt_of_destination inner),
    moved stop (wellFormed.destination_lt _ _ _ inner)]
  exact wellFormed.mem_shiftedTransitions_iff.mpr ⟨start, stop, inner, rfl, rfl⟩

theorem WellFormed.mem_shiftedEpsilons_of_moved
    (listed : (source, destination) ∈ part.shiftedEpsilons offset) :
    (rename source, rename destination) ∈ part.shiftedEpsilons newOffset := by
  rcases wellFormed.mem_shiftedEpsilons_iff.mp listed with ⟨start, stop, inner, rfl, rfl⟩
  rw [moved start (wellFormed.source_lt_of_epsilon inner),
    moved stop (wellFormed.epsilon_lt _ _ inner)]
  exact wellFormed.mem_shiftedEpsilons_iff.mpr ⟨start, stop, inner, rfl, rfl⟩

end Moved

variable {first second whole other : Automaton σ}

/-- An automaton is the union of two others, copied one behind the other. -/
structure Unites (whole first second : Automaton σ) : Prop where
  numStates : whole.numStates = first.numStates + second.numStates + 2
  initial : whole.initial = first.numStates + second.numStates
  composed : whole.Composed [(first, 0), (second, first.numStates)]
    (pairSplices first second [first.initial, second.initial + first.numStates]
      (first.numStates + second.numStates + 1))

/-- When the operands of a union change places, their copies do and the edges stay. -/
theorem Unites.carries
    (small : first.numStates.toNat + second.numStates.toNat + 2 < 2 ^ 32)
    (unites : whole.Unites first second)
    (exchanged : other.Unites second first) :
    whole.Carries other (State.exchange first.numStates second.numStates) := by
  have fits : first.numStates.toNat + second.numStates.toNat < UInt32.size :=
    Nat.lt_of_add_right_lt small
  rcases toNat_pair small with ⟨count, total, last⟩
  have commuted : second.numStates + first.numStates = first.numStates + second.numStates :=
    UInt32.add_comm _ _
  have firstFormed := unites.composed.operand _ first_mem_copies
  have secondFormed := unites.composed.operand _ second_mem_copies
  have firstMoved : ∀ state < first.numStates,
      State.exchange first.numStates second.numStates (state + 0) =
        state + second.numStates := by
    intro state below
    rw [UInt32.add_zero]
    exact State.exchange_first below
  have secondMoved : ∀ state < second.numStates,
      State.exchange first.numStates second.numStates (state + first.numStates) = state + 0 := by
    intro state below
    rw [UInt32.add_zero]
    exact State.exchange_second fits below
  have initialKept : State.exchange first.numStates second.numStates
      (first.numStates + second.numStates) = first.numStates + second.numStates :=
    State.exchange_behind fits (UInt32.le_refl _)
  have finalKept : State.exchange first.numStates second.numStates
      (first.numStates + second.numStates + 1) = first.numStates + second.numStates + 1 := by
    refine State.exchange_behind fits ?_
    rw [UInt32.le_iff_toNat_le, count, last]
    exact Nat.le_succ _
  constructor
  case state =>
    intro state below
    rw [unites.numStates] at below
    rw [exchanged.numStates, commuted]
    refine State.exchange_lt fits ?_ below
    rw [UInt32.le_iff_toNat_le, count, total]
    exact Nat.le_add_right _ _
  case initial => rw [unites.initial, exchanged.initial, initialKept, commuted]
  case final =>
    intro state final
    rw [(unites.composed.final_iff state).mp final, unites.initial, finalKept,
      exchanged.composed.final_iff, exchanged.initial, commuted]
  case transition =>
    intro source symbol destination edge
    rcases (unites.composed.destination_iff _ _ _).mp edge with ⟨copy, member, listed⟩
    rw [exchanged.composed.destination_iff]
    rcases List.mem_pair.mp member with rfl | rfl
    · exact ⟨_, second_mem_copies, firstFormed.mem_shiftedTransitions_of_moved firstMoved listed⟩
    · exact ⟨_, first_mem_copies, secondFormed.mem_shiftedTransitions_of_moved secondMoved listed⟩
  case epsilon =>
    intro source destination edge
    rw [exchanged.composed.epsilon_iff]
    rcases (unites.composed.epsilon_iff _ _).mp edge with splice | ⟨copy, member, listed⟩
    · refine Or.inl (mem_pairSplices_iff.mpr ?_)
      simp only [UInt32.add_zero] at firstMoved secondMoved
      rw [commuted]
      rcases mem_pairSplices_iff.mp splice with
        ⟨rfl, entrance⟩ | ⟨final, rfl⟩ | ⟨state, final, rfl, rfl⟩
      · refine Or.inl ⟨initialKept, List.mem_pair.mpr ?_⟩
        rcases List.mem_pair.mp entrance with rfl | rfl
        · exact Or.inr (firstMoved _ firstFormed.initial_lt)
        · exact Or.inl (secondMoved _ secondFormed.initial_lt)
      · exact Or.inr (Or.inr ⟨source, final,
          (firstMoved source (firstFormed.final_lt source final)).symm, finalKept⟩)
      · refine Or.inr (Or.inl ⟨?_, finalKept⟩)
        rw [secondMoved state (secondFormed.final_lt state final)]
        exact final
    · refine Or.inr ?_
      rcases List.mem_pair.mp member with rfl | rfl
      · exact ⟨_, second_mem_copies, firstFormed.mem_shiftedEpsilons_of_moved firstMoved listed⟩
      · exact ⟨_, first_mem_copies, secondFormed.mem_shiftedEpsilons_of_moved secondMoved listed⟩

/-- The unions of two automata in either order differ in names only. -/
theorem exists_unions_relabelled
    (firstFormed : first.WellFormed)
    (secondFormed : second.WellFormed)
    (small : first.numStates.toNat + second.numStates.toNat + 2 < 2 ^ 32) :
    ∃ whole other, first.union second = .ok whole ∧ second.union first = .ok other ∧
      whole.WellFormed ∧ other.WellFormed ∧
      whole.Relabels other (State.exchange first.numStates second.numStates) := by
  have swapped : second.numStates.toNat + first.numStates.toNat + 2 < 2 ^ 32 := by omega
  have fits : first.numStates.toNat + second.numStates.toNat < UInt32.size :=
    Nat.lt_of_add_right_lt small
  rcases exists_union firstFormed secondFormed small with
    ⟨whole, made, numStates, initial, composed⟩
  rcases exists_union secondFormed firstFormed swapped with
    ⟨other, otherMade, otherNumStates, otherInitial, otherComposed⟩
  have unites : whole.Unites first second := ⟨numStates, initial, composed⟩
  have exchanged : other.Unites second first := ⟨otherNumStates, otherInitial, otherComposed⟩
  have isomorphism : whole.Isomorphism other
      (State.exchange first.numStates second.numStates)
      (State.exchange second.numStates first.numStates) :=
    { wellFormed := composed.wellFormed
      otherFormed := otherComposed.wellFormed
      forward := unites.carries small exchanged
      backward := exchanged.carries swapped unites
      back_rename := fun _ _ => State.exchange_exchange fits
      rename_back := fun _ _ => State.exchange_exchange (Nat.add_comm .. ▸ fits) }
  exact ⟨whole, other, made, otherMade, composed.wellFormed, otherComposed.wellFormed,
    isomorphism.relabels⟩

end Automaton

end Acceptor
