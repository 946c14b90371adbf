import Acceptor.Automaton.Combinators
import Acceptor.Proofs.Combinators.Copies

/-!
# What a construction puts together

A construction puts copies of its operands side by side, adds an initial and a
final state behind them and splices everything together with epsilon edges.
This is described once for all constructions, by the list of copies and the
list of splices.
-/

namespace Acceptor

universe u

variable {σ : Type u} [DecidableEq σ] [Hashable σ]

namespace Automaton

/-! ## Shifted edges -/

theorem WellFormed.mem_shiftedTransitions_iff
    {automaton : Automaton σ}
    (wellFormed : automaton.WellFormed)
    {offset source destination : State}
    {symbol : σ} :
    (source, symbol, destination) ∈ automaton.shiftedTransitions offset ↔
      ∃ start stop, stop ∈ automaton.destinations start symbol ∧
        start + offset = source ∧ stop + offset = destination := by
  have bounded := wellFormed.rows_bounded
  constructor
  · intro listed
    rcases List.mem_map.mp listed with ⟨⟨start, label, stop⟩, edge, same⟩
    cases same
    exact ⟨start, stop, (mem_transitions_iff bounded).mp edge, rfl, rfl⟩
  · rintro ⟨start, stop, edge, rfl, rfl⟩
    exact List.mem_map.mpr ⟨(start, symbol, stop), (mem_transitions_iff bounded).mpr edge, rfl⟩

theorem WellFormed.mem_shiftedEpsilons_iff
    {automaton : Automaton σ}
    (wellFormed : automaton.WellFormed)
    {offset source destination : State} :
    (source, destination) ∈ automaton.shiftedEpsilons offset ↔
      ∃ start stop, stop ∈ automaton.epsilonsFrom start ∧
        start + offset = source ∧ stop + offset = destination := by
  have bounded := wellFormed.epsilons_bounded
  constructor
  · intro listed
    rcases List.mem_map.mp listed with ⟨⟨start, stop⟩, edge, same⟩
    cases same
    exact ⟨start, stop, (mem_epsilonTransitions_iff bounded).mp edge, rfl, rfl⟩
  · rintro ⟨start, stop, edge, rfl, rfl⟩
    exact List.mem_map.mpr ⟨(start, stop), (mem_epsilonTransitions_iff bounded).mpr edge, rfl⟩

@[simp]
theorem shiftedTransitions_zero (automaton : Automaton σ) :
    automaton.shiftedTransitions 0 = automaton.transitions := by
  simp [shiftedTransitions]

@[simp]
theorem shiftedEpsilons_zero (automaton : Automaton σ) :
    automaton.shiftedEpsilons 0 = automaton.epsilonTransitions := by
  simp [shiftedEpsilons]

@[simp]
theorem initial_copy_zero (automaton : Automaton σ) :
    (automaton.copy 0).initial = automaton.initial :=
  UInt32.add_zero _

@[simp]
theorem finals_copy_zero (automaton : Automaton σ) :
    (automaton.copy 0).finals = automaton.finals.toList := by
  simp [copy]

@[simp]
theorem transitions_copy (automaton : Automaton σ) (offset : State) :
    (automaton.copy offset).transitions = automaton.shiftedTransitions offset := rfl

@[simp]
theorem epsilonTransitions_copy (automaton : Automaton σ) (offset : State) :
    (automaton.copy offset).epsilonTransitions = automaton.shiftedEpsilons offset := rfl

theorem mem_exits_iff {automaton : Automaton σ} {offset outlet source destination : State} :
    (source, destination) ∈ (automaton.copy offset).exits outlet ↔
      ∃ final ∈ automaton.finals, final + offset = source ∧ destination = outlet := by
  simp [Copy.exits, copy, eq_comm]

/-! ## Compositions -/

/--
An automaton consists of copies of others, each past an offset, of an initial
and a final state behind them and of epsilon edges that splice them together.
-/
structure Composed
    (whole : Automaton σ)
    (copies : List (Automaton σ × State))
    (splices : List (State × State)) : Prop where
  wellFormed : whole.WellFormed
  operand : ∀ copy ∈ copies, copy.1.WellFormed
  fits : ∀ copy ∈ copies,
    copy.1.numStates.toNat + copy.2.toNat + 2 ≤ whole.numStates.toNat
  initial : whole.initial.toNat + 2 = whole.numStates.toNat
  final_iff : ∀ state, state ∈ whole.finals ↔ state = whole.initial + 1
  destination_iff : ∀ source symbol destination,
    destination ∈ whole.destinations source symbol ↔
      ∃ copy ∈ copies, (source, symbol, destination) ∈ copy.1.shiftedTransitions copy.2
  epsilon_iff : ∀ source destination,
    destination ∈ whole.epsilonsFrom source ↔
      (source, destination) ∈ splices ∨
        ∃ copy ∈ copies, (source, destination) ∈ copy.1.shiftedEpsilons copy.2

/-- A copy that ends below a bound contains no state from the bound on. -/
theorem toNat_add_offset
    {numStates offset state : State}
    {bound : Nat}
    (fits : numStates.toNat + offset.toNat ≤ bound)
    (small : bound < 2 ^ 32)
    (below : state < numStates) :
    (state + offset).toNat = state.toNat + offset.toNat := by
  have less := UInt32.lt_iff_toNat_lt.mp below
  rw [UInt32.toNat_add]
  omega

end Automaton

/-! ## Putting together -/

theorem State.add_two_sub_one (count : State) : count + 2 - 1 = count + 1 := by
  grind

namespace Builder

section Framed

variable {count source destination : State} {symbol : σ}

@[simp]
theorem numStates_framed : (framed count : Builder σ).numStates = count := rfl

@[simp]
theorem initial_framed : (framed (count + 2) : Builder σ).initial = count :=
  UInt32.add_sub_cancel count 2

@[simp]
theorem mem_finals_framed {state : State} :
    state ∈ (framed (count + 2) : Builder σ).finals ↔ state = count + 1 := by
  simp [framed, addFinal, setInitial, new, State.add_two_sub_one]

@[simp]
theorem hasTransition_framed :
    ¬ (framed count).HasTransition source symbol destination := by
  simp [framed]

@[simp]
theorem hasEpsilon_framed :
    ¬ (framed count : Builder σ).HasEpsilon source destination := by
  simp [framed]

theorem populated_framed : (framed count : Builder σ).Populated :=
  ((Populated.new _).setInitial _).addFinal _

end Framed

end Builder

/-- A builder that has collected copies and splices builds their composition. -/
theorem Builder.exists_composed
    {builder : Builder σ}
    {copies : List (Automaton σ × State)}
    {splices : List (State × State)}
    (populated : builder.Populated)
    (operand : ∀ copy ∈ copies, copy.1.WellFormed)
    (fits : ∀ copy ∈ copies,
      copy.1.numStates.toNat + copy.2.toNat + 2 ≤ builder.numStates.toNat)
    (initial : builder.initial.toNat + 2 = builder.numStates.toNat)
    (final_iff : ∀ state, state ∈ builder.finals ↔ state = builder.initial + 1)
    (transition_iff : ∀ source symbol destination,
      builder.HasTransition source symbol destination ↔
        ∃ copy ∈ copies, (source, symbol, destination) ∈ copy.1.shiftedTransitions copy.2)
    (epsilon_iff : ∀ source destination,
      builder.HasEpsilon source destination ↔
        (source, destination) ∈ splices ∨
          ∃ copy ∈ copies, (source, destination) ∈ copy.1.shiftedEpsilons copy.2)
    (spliced : ∀ splice ∈ splices,
      splice.1 < builder.numStates ∧ splice.2 < builder.numStates) :
    ∃ whole, builder.build = .ok whole ∧ whole.numStates = builder.numStates ∧
      whole.initial = builder.initial ∧ whole.Composed copies splices := by
  have size := builder.numStates.toNat_lt
  have within : ∀ copy ∈ copies, ∀ state < copy.1.numStates,
      state + copy.2 < builder.numStates := by
    intro copy member state below
    have copyFits := fits copy member
    have less := UInt32.lt_iff_toNat_lt.mp below
    rw [UInt32.lt_iff_toNat_lt, Automaton.toNat_add_offset (Nat.le_refl _) (by omega) below]
    omega
  have last : (builder.initial + 1).toNat = builder.initial.toNat + 1 := by
    rw [UInt32.toNat_add, UInt32.toNat_one]
    omega
  have inside : builder.Inside := by
    refine ⟨?_, ?_, ?_, ?_⟩
    · rw [UInt32.lt_iff_toNat_lt]
      omega
    · intro state final
      rw [(final_iff state).mp final, UInt32.lt_iff_toNat_lt, last]
      omega
    · intro source symbol destination edge
      rcases (transition_iff _ _ _).mp edge with ⟨copy, member, listed⟩
      have wellFormed := operand copy member
      rcases wellFormed.mem_shiftedTransitions_iff.mp listed with
        ⟨start, stop, inner, rfl, rfl⟩
      exact ⟨within copy member start (wellFormed.source_lt_of_destination inner),
        within copy member stop (wellFormed.destination_lt _ _ _ inner)⟩
    · intro source destination edge
      rcases (epsilon_iff _ _).mp edge with splice | ⟨copy, member, listed⟩
      · exact spliced _ splice
      have wellFormed := operand copy member
      rcases wellFormed.mem_shiftedEpsilons_iff.mp listed with
        ⟨start, stop, inner, rfl, rfl⟩
      exact ⟨within copy member start (wellFormed.source_lt_of_epsilon inner),
        within copy member stop (wellFormed.epsilon_lt _ _ inner)⟩
  refine ⟨builder.layout, build_of_inside populated inside, rfl, rfl, ?_⟩
  exact
    { wellFormed := wellFormed_layout populated inside
      operand
      fits
      initial
      final_iff
      destination_iff := by
        intro source symbol destination
        rw [mem_destinations_layout_iff populated inside, transition_iff]
      epsilon_iff := by
        intro source destination
        rw [mem_epsilonsFrom_layout_iff populated inside, epsilon_iff] }

namespace Automaton.Composed

variable {whole : Automaton σ} {copies : List (Automaton σ × State)}
  {splices : List (State × State)}

/-- The states of a copy come before the initial and the final state. -/
theorem add_offset_lt
    (composed : whole.Composed copies splices)
    {copy : Automaton σ × State}
    (member : copy ∈ copies)
    {state : State}
    (below : state < copy.1.numStates) :
    (state + copy.2).toNat = state.toNat + copy.2.toNat ∧
      (state + copy.2).toNat < whole.initial.toNat := by
  have size := whole.numStates.toNat_lt
  have fits := composed.fits copy member
  have initial := composed.initial
  have less := UInt32.lt_iff_toNat_lt.mp below
  have shifted : (state + copy.2).toNat = state.toNat + copy.2.toNat :=
    toNat_add_offset (Nat.le_refl _) (by omega) below
  exact ⟨shifted, by omega⟩

theorem toNat_final (composed : whole.Composed copies splices) :
    (whole.initial + 1).toNat = whole.initial.toNat + 1 := by
  have size := whole.numStates.toNat_lt
  have initial := composed.initial
  rw [UInt32.toNat_add, UInt32.toNat_one]
  omega

theorem initial_ne_final (composed : whole.Composed copies splices) :
    whole.initial ≠ whole.initial + 1 := by
  intro same
  have different := composed.toNat_final
  rw [← same] at different
  omega

theorem add_offset_ne_initial
    (composed : whole.Composed copies splices)
    {copy : Automaton σ × State}
    (member : copy ∈ copies)
    {state : State}
    (below : state < copy.1.numStates) :
    state + copy.2 ≠ whole.initial := by
  intro same
  have before := (composed.add_offset_lt member below).2
  rw [same] at before
  exact Nat.lt_irrefl _ before

theorem add_offset_ne_final
    (composed : whole.Composed copies splices)
    {copy : Automaton σ × State}
    (member : copy ∈ copies)
    {state : State}
    (below : state < copy.1.numStates) :
    state + copy.2 ≠ whole.initial + 1 := by
  intro same
  have before := (composed.add_offset_lt member below).2
  rw [same, composed.toNat_final] at before
  omega

/-- No labelled edge leaves a state behind the copies. -/
theorem not_mem_destinations
    (composed : whole.Composed copies splices)
    {source destination : State}
    (behind : whole.initial.toNat ≤ source.toNat)
    (symbol : σ) :
    destination ∉ whole.destinations source symbol := by
  intro edge
  rcases (composed.destination_iff _ _ _).mp edge with ⟨copy, member, listed⟩
  have wellFormed := composed.operand copy member
  rcases wellFormed.mem_shiftedTransitions_iff.mp listed with ⟨start, stop, inner, rfl, rfl⟩
  have below := composed.add_offset_lt member (wellFormed.source_lt_of_destination inner)
  omega

/-- The epsilon edges that leave a state behind the copies are splices. -/
theorem mem_epsilonsFrom_iff
    (composed : whole.Composed copies splices)
    {source destination : State}
    (behind : whole.initial.toNat ≤ source.toNat) :
    destination ∈ whole.epsilonsFrom source ↔ (source, destination) ∈ splices := by
  rw [composed.epsilon_iff]
  constructor
  · rintro (splice | ⟨copy, member, listed⟩)
    · exact splice
    have wellFormed := composed.operand copy member
    rcases wellFormed.mem_shiftedEpsilons_iff.mp listed with ⟨start, stop, inner, rfl, rfl⟩
    have below := composed.add_offset_lt member (wellFormed.source_lt_of_epsilon inner)
    omega
  · exact Or.inl

/-- A composition accepts what leads from one of its entrances to the final state. -/
theorem mem_language_iff
    (composed : whole.Composed copies splices)
    {word : List σ} :
    word ∈ whole.language ↔
      ∃ entrance, (whole.initial, entrance) ∈ splices ∧
        word ∈ whole.between entrance (whole.initial + 1) := by
  have final := composed.toNat_final
  rw [Automaton.mem_language_iff]
  constructor
  · rintro ⟨state, isFinal, path⟩
    rw [(composed.final_iff state).mp isFinal] at path
    generalize target : whole.initial + 1 = stop at path final
    generalize start : whole.initial = source at path final
    cases path with
    | stay state => omega
    | epsilon edge rest =>
        rw [← start, composed.mem_epsilonsFrom_iff (Nat.le_refl _)] at edge
        exact ⟨_, start ▸ edge, rest⟩
    | symbol edge rest =>
        rw [← start] at edge
        exact absurd edge (composed.not_mem_destinations (Nat.le_refl _) _)
  · rintro ⟨entrance, splice, path⟩
    exact ⟨_, (composed.final_iff _).mpr rfl,
      .epsilon ((composed.mem_epsilonsFrom_iff (Nat.le_refl _)).mpr splice) path⟩

/-- No path goes on from the final state. -/
theorem eq_nil_of_path_final
    (composed : whole.Composed copies splices)
    (last : ∀ destination, (whole.initial + 1, destination) ∉ splices)
    {word : List σ}
    {target : State}
    (path : whole.Path (whole.initial + 1) word target) :
    word = [] := by
  have behind : whole.initial.toNat ≤ (whole.initial + 1).toNat := by
    rw [composed.toNat_final]
    exact Nat.le_succ _
  cases path with
  | stay state => rfl
  | epsilon edge rest =>
      exact absurd ((composed.mem_epsilonsFrom_iff behind).mp edge) (last _)
  | symbol edge rest => exact absurd edge (composed.not_mem_destinations behind _)

/-- A copy that shares no state with the others is left through its splices. -/
theorem copied
    (composed : whole.Composed copies splices)
    {part : Automaton σ}
    {offset : State}
    (member : (part, offset) ∈ copies)
    (apart : ∀ other ∈ copies, other = (part, offset) ∨
      ∀ state < part.numStates, ∀ otherState < other.1.numStates,
        otherState + other.2 ≠ state + offset)
    {outlets : State → Prop}
    (spliced : ∀ source < part.numStates, ∀ destination,
      (source + offset, destination) ∈ splices ↔
        source ∈ part.finals ∧ outlets destination) :
    part.CopiedInto whole offset outlets := by
  have wellFormed := composed.operand _ member
  refine ⟨wellFormed, ?_, ?_⟩
  · intro source below symbol destination
    rw [composed.destination_iff]
    constructor
    · rintro ⟨other, otherMember, listed⟩
      have otherWellFormed := composed.operand _ otherMember
      rcases otherWellFormed.mem_shiftedTransitions_iff.mp listed with
        ⟨start, stop, edge, same, rfl⟩
      rcases apart other otherMember with rfl | distinct
      · rw [UInt32.add_left_inj] at same
        exact ⟨stop, same ▸ edge, rfl⟩
      · have startBelow := otherWellFormed.source_lt_of_destination edge
        exact absurd same (distinct source below start startBelow)
    · rintro ⟨inner, edge, rfl⟩
      exact ⟨_, member, wellFormed.mem_shiftedTransitions_iff.mpr
        ⟨source, inner, edge, rfl, rfl⟩⟩
  · intro source below destination
    rw [composed.epsilon_iff, spliced source below, or_comm]
    apply or_congr_left
    constructor
    · rintro ⟨other, otherMember, listed⟩
      have otherWellFormed := composed.operand _ otherMember
      rcases otherWellFormed.mem_shiftedEpsilons_iff.mp listed with
        ⟨start, stop, edge, same, rfl⟩
      rcases apart other otherMember with rfl | distinct
      · rw [UInt32.add_left_inj] at same
        exact ⟨stop, same ▸ edge, rfl⟩
      · have startBelow := otherWellFormed.source_lt_of_epsilon edge
        exact absurd same (distinct source below start startBelow)
    · rintro ⟨inner, edge, rfl⟩
      exact ⟨_, member, wellFormed.mem_shiftedEpsilons_iff.mpr
        ⟨source, inner, edge, rfl, rfl⟩⟩

end Automaton.Composed

end Acceptor
