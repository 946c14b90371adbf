import Acceptor.Proofs.Builder.Regrouping
import Acceptor.Proofs.Combinators.Pairs
import Acceptor.Proofs.Combinators.Repetition
import Acceptor.Proofs.Determinization.Correctness

/-!
# What a construction lists

A construction adds the labelled edges of its operands in the order in which
they are listed, those of the second operand past the first.  The sources of
the second copy are higher than those of the first, so the result lists the
edges of the one before the shifted edges of the other, and nothing else.

The epsilon edges are those of the copies and the splices between them.  The
splices lead out of the initial state and out of copies of final states, and
they lead to copies of initial states and to the final state.  So nothing
enters the initial state, and nothing leaves the final one.
-/

namespace Acceptor.Automaton

universe u

variable {σ : Type u} [DecidableEq σ] [Hashable σ] {first second body whole : Automaton σ}

/-! ## Labelled edges -/

/-- A pair of automata adds the edges of the first and then those of the second. -/
theorem labelled_pairParts (entrances : List State) (outlet : State) :
    (pairParts first second entrances outlet).labelled =
      Builder.grouped
        ((first.transitions ++ second.shiftedTransitions first.numStates).map Builder.keyed) := by
  rw [List.map_append, Builder.grouped, List.foldl_append]
  simp only [pairParts, Copy.joined, Builder.labelled_addEpsilons, Builder.labelled_addTransitions,
    transitions_copy, shiftedTransitions_zero]
  rfl

theorem labelled_starParts :
    body.starParts.labelled = Builder.grouped (body.transitions.map Builder.keyed) := by
  simp only [starParts, Copy.repeated, Builder.labelled_addEpsilons,
    Builder.labelled_addTransitions, Builder.labelled_addEpsilon, transitions_copy,
    shiftedTransitions_zero]
  rfl

/-- The edges of a well-formed automaton lead from state to state. -/
theorem WellFormed.ends_lt
    (wellFormed : body.WellFormed) :
    ∀ edge ∈ body.transitions, edge.1 < body.numStates ∧ edge.2.2 < body.numStates := by
  rintro ⟨source, symbol, destination⟩ listed
  have edge := (mem_transitions_iff wellFormed.rows_bounded).mp listed
  exact ⟨wellFormed.source_lt_of_destination edge, wellFormed.destination_lt _ _ _ edge⟩

/-- The edges of the second automaton, copied past the first, come after those of the first. -/
theorem inOrder_pair
    (firstFormed : first.WellFormed)
    (secondFormed : second.WellFormed)
    (small : first.numStates.toNat + second.numStates.toNat + 2 < 2 ^ 32) :
    InOrder (first.transitions ++ second.shiftedTransitions first.numStates) := by
  have shifted : ∀ state < second.numStates,
      (state + first.numStates).toNat = state.toNat + first.numStates.toNat :=
    fun state below => toNat_add_offset (Nat.le_refl _) (by omega) below
  refine firstFormed.inOrder_transitions.append ?_ ?_
  · refine secondFormed.inOrder_transitions.map (· + first.numStates) secondFormed.ends_lt ?_
    intro state below other otherBelow before
    rw [UInt32.lt_iff_toNat_lt] at before ⊢
    rw [shifted state below, shifted other otherBelow]
    exact Nat.add_lt_add_right before _
  · intro edge member other otherMember
    rcases List.mem_map.mp otherMember with ⟨original, originalMember, rfl⟩
    have below := UInt32.lt_iff_toNat_lt.mp (firstFormed.ends_lt edge member).1
    rw [UInt32.lt_iff_toNat_lt]
    have place := shifted original.1 (secondFormed.ends_lt original originalMember).1
    show edge.1.toNat < (original.1 + first.numStates).toNat
    omega

/-! ## Epsilon edges -/

/--
An automaton consists of copied edges and splices, of an initial state which
nothing enters and, behind it, of one final state which nothing leaves.
-/
structure Encloses
    (whole : Automaton σ)
    (count : Nat)
    (edges : List (State × σ × State))
    (copied splices : List (State × State)) : Prop where
  toNat_numStates : whole.numStates.toNat = count + 2
  initial : whole.initial = whole.numStates - 2
  finals : whole.finals = {whole.numStates - 1}
  transitions : whole.transitions = edges
  mem_epsilonTransitions_iff : ∀ edge,
    edge ∈ whole.epsilonTransitions ↔ edge ∈ copied ∨ edge ∈ splices
  nodup_epsilonTransitions : whole.epsilonTransitions.Nodup
  into_initial : (∀ edge ∈ whole.transitions, edge.2.2 ≠ whole.initial) ∧
    ∀ edge ∈ whole.epsilonTransitions, edge.2 ≠ whole.initial
  out_of_final : (∀ edge ∈ whole.transitions, edge.1 ∉ whole.finals) ∧
    ∀ edge ∈ whole.epsilonTransitions, edge.1 ∉ whole.finals

theorem Composed.encloses
    {copies : List (Automaton σ × State)}
    {splices copied : List (State × State)}
    (composed : whole.Composed copies splices)
    {count : Nat}
    (numStates : whole.numStates.toNat = count + 2)
    (copied_iff : ∀ edge, edge ∈ copied ↔ ∃ copy ∈ copies, edge ∈ copy.1.shiftedEpsilons copy.2)
    (entered : ∀ splice ∈ splices, splice.2 ≠ whole.initial)
    (left : ∀ splice ∈ splices, splice.1 ≠ whole.initial + 1) :
    whole.Encloses count whole.transitions copied splices := by
  have wellFormed := composed.wellFormed
  have initial : whole.initial = whole.numStates - 2 := by
    have two : (2 : State) ≤ whole.numStates := by
      rw [UInt32.le_iff_toNat_le, numStates]
      exact Nat.le_add_left 2 count
    rw [← UInt32.toNat_inj, UInt32.toNat_sub_of_le _ _ two, ← composed.initial]
    rfl
  have final : whole.initial + 1 = whole.numStates - 1 := by
    rw [initial]
    grind
  have finals : whole.finals = {whole.initial + 1} := by
    ext state
    rw [composed.final_iff, StateSet.mem_singleton]
  have listed : ∀ edge, edge ∈ whole.epsilonTransitions ↔ edge ∈ copied ∨ edge ∈ splices := by
    rintro ⟨source, destination⟩
    rw [mem_epsilonTransitions_iff wellFormed.epsilons_bounded, composed.epsilon_iff, copied_iff,
      or_comm]
  -- An edge of a copy neither begins nor ends behind the copies.
  have within : ∀ edge ∈ whole.transitions,
      edge.2.2 ≠ whole.initial ∧ edge.1 ≠ whole.initial + 1 := by
    rintro ⟨source, symbol, destination⟩ member
    have edge := (mem_transitions_iff wellFormed.rows_bounded).mp member
    rcases (composed.destination_iff _ _ _).mp edge with ⟨copy, copyMember, shifted⟩
    have formed := composed.operand copy copyMember
    rcases formed.mem_shiftedTransitions_iff.mp shifted with ⟨start, stop, inner, rfl, rfl⟩
    exact ⟨composed.add_offset_ne_initial copyMember (formed.destination_lt _ _ _ inner),
      composed.add_offset_ne_final copyMember (formed.source_lt_of_destination inner)⟩
  have spliced : ∀ edge ∈ whole.epsilonTransitions,
      edge.2 ≠ whole.initial ∧ edge.1 ≠ whole.initial + 1 := by
    intro edge member
    rcases (listed edge).mp member with inside | splice
    · rcases (copied_iff edge).mp inside with ⟨copy, copyMember, shifted⟩
      have formed := composed.operand copy copyMember
      rcases formed.mem_shiftedEpsilons_iff.mp shifted with
        ⟨start, stop, inner, source, destination⟩
      rw [← source, ← destination]
      exact ⟨composed.add_offset_ne_initial copyMember (formed.epsilon_lt _ _ inner),
        composed.add_offset_ne_final copyMember (formed.source_lt_of_epsilon inner)⟩
    · exact ⟨entered edge splice, left edge splice⟩
  constructor
  case toNat_numStates => exact numStates
  case initial => exact initial
  case finals => rw [finals, final]
  case transitions => rfl
  case mem_epsilonTransitions_iff => exact listed
  case nodup_epsilonTransitions => exact nodup_epsilonTransitions wellFormed.epsilons_bounded
  case into_initial =>
    exact ⟨fun edge member => (within edge member).1, fun edge member => (spliced edge member).1⟩
  case out_of_final =>
    rw [finals]
    simp only [StateSet.mem_singleton]
    exact ⟨fun edge member => (within edge member).2, fun edge member => (spliced edge member).2⟩

/-- The splices of a construction with two operands lead out of its initial state and of copies. -/
theorem pairSplices_eq
    {entrances : List State}
    {outlet : State}
    (numStates : whole.numStates = first.numStates + second.numStates + 2)
    (initial : whole.initial = first.numStates + second.numStates) :
    pairSplices first second entrances outlet =
      entrances.map (fun entrance => (whole.initial, entrance)) ++
        first.finals.toList.map (fun state => (state, outlet)) ++
        second.finals.toList.map
          (fun state => (state + first.numStates, whole.numStates - 1)) := by
  have final : whole.numStates - 1 = first.numStates + second.numStates + 1 := by
    rw [numStates, State.add_two_sub_one]
  simp [pairSplices, Copy.exits, copy, initial, final, Function.comp_def]

/-- A construction with two operands lists their edges and its splices. -/
theorem encloses_of_pair
    {entrances : List State}
    {outlet : State}
    (made : (pairParts first second entrances outlet).build = .ok whole)
    (numStates : whole.numStates = first.numStates + second.numStates + 2)
    (initial : whole.initial = first.numStates + second.numStates)
    (composed : whole.Composed [(first, 0), (second, first.numStates)]
      (pairSplices first second entrances outlet))
    (small : first.numStates.toNat + second.numStates.toNat + 2 < 2 ^ 32)
    (entrancesEntered : ∀ entrance ∈ entrances, entrance ≠ whole.initial)
    (outletEntered : outlet ≠ whole.initial) :
    whole.Encloses (first.numStates.toNat + second.numStates.toNat)
      (first.transitions ++ second.shiftedTransitions first.numStates)
      (first.epsilonTransitions ++ second.shiftedEpsilons first.numStates)
      (pairSplices first second entrances outlet) := by
  have firstFormed := composed.operand _ first_mem_copies
  have secondFormed := composed.operand _ second_mem_copies
  have listed := Builder.transitions_of_build (populated_pairParts ..) made
    (labelled_pairParts entrances outlet) (inOrder_pair firstFormed secondFormed small)
  rw [← listed]
  refine composed.encloses ?_ ?_ ?_ ?_
  · rw [numStates]
    exact (toNat_pair small).2.1
  · simp [shiftedEpsilons_zero]
  · rintro ⟨source, destination⟩ splice
    rcases mem_pairSplices_iff.mp splice with ⟨_, member⟩ | ⟨_, rfl⟩ | ⟨_, _, _, rfl⟩
    · exact entrancesEntered _ member
    · exact outletEntered
    · rw [← initial]
      exact composed.initial_ne_final.symm
  · rintro ⟨source, destination⟩ splice rfl
    exact not_mem_pairSplices_final initial composed destination splice

section Pair

variable (firstFormed : first.WellFormed) (secondFormed : second.WellFormed)
  (small : first.numStates.toNat + second.numStates.toNat + 2 < 2 ^ 32)

/-- The copies of the initial states of two operands differ from the initial state. -/
theorem Composed.initials_ne_initial
    {splices : List (State × State)}
    (composed : whole.Composed [(first, 0), (second, first.numStates)] splices) :
    first.initial ≠ whole.initial ∧ second.initial + first.numStates ≠ whole.initial := by
  have firstFormed := composed.operand _ first_mem_copies
  have secondFormed := composed.operand _ second_mem_copies
  have different := composed.add_offset_ne_initial first_mem_copies firstFormed.initial_lt
  rw [UInt32.add_zero] at different
  exact ⟨different, composed.add_offset_ne_initial second_mem_copies secondFormed.initial_lt⟩

include firstFormed secondFormed small

theorem exists_concatenation_encloses :
    ∃ whole, first.concatenation second = .ok whole ∧
      whole.Encloses (first.numStates.toNat + second.numStates.toNat)
        (first.transitions ++ second.shiftedTransitions first.numStates)
        (first.epsilonTransitions ++ second.shiftedEpsilons first.numStates)
        ([(whole.initial, first.initial)] ++
          first.finals.toList.map (fun state => (state, second.initial + first.numStates)) ++
          second.finals.toList.map
            (fun state => (state + first.numStates, whole.numStates - 1))) := by
  rcases exists_concatenation firstFormed secondFormed small with
    ⟨whole, made, numStates, initial, composed⟩
  rcases composed.initials_ne_initial with ⟨firstEntered, secondEntered⟩
  rw [concatenation_eq] at made ⊢
  have encloses := encloses_of_pair made numStates initial composed small
    (List.forall_mem_singleton.mpr firstEntered) secondEntered
  rw [pairSplices_eq numStates initial] at encloses
  exact ⟨whole, made, encloses⟩

theorem exists_union_encloses :
    ∃ whole, first.union second = .ok whole ∧
      whole.Encloses (first.numStates.toNat + second.numStates.toNat)
        (first.transitions ++ second.shiftedTransitions first.numStates)
        (first.epsilonTransitions ++ second.shiftedEpsilons first.numStates)
        ([(whole.initial, first.initial), (whole.initial, second.initial + first.numStates)] ++
          first.finals.toList.map (fun state => (state, whole.numStates - 1)) ++
          second.finals.toList.map
            (fun state => (state + first.numStates, whole.numStates - 1))) := by
  rcases exists_union firstFormed secondFormed small with
    ⟨whole, made, numStates, initial, composed⟩
  rcases composed.initials_ne_initial with ⟨firstEntered, secondEntered⟩
  have final : whole.numStates - 1 = first.numStates + second.numStates + 1 := by
    rw [numStates, State.add_two_sub_one]
  have entered : ∀ entrance ∈ [first.initial, second.initial + first.numStates],
      entrance ≠ whole.initial := by
    intro entrance member
    rcases List.mem_pair.mp member with rfl | rfl
    · exact firstEntered
    · exact secondEntered
  have outlet : whole.numStates - 1 ≠ whole.initial := by
    rw [final, ← initial]
    exact composed.initial_ne_final.symm
  rw [union_eq, State.add_two_sub_one, ← final] at made ⊢
  rw [← final] at composed
  have encloses := encloses_of_pair made numStates initial composed small entered outlet
  rw [pairSplices_eq numStates initial] at encloses
  exact ⟨whole, made, encloses⟩

end Pair

/-- A repetition lists the edges of its body and its splices. -/
theorem exists_star_encloses
    (wellFormed : body.WellFormed)
    (small : body.numStates.toNat + 2 < 2 ^ 32) :
    ∃ whole, body.star = .ok whole ∧
      whole.Encloses body.numStates.toNat body.transitions body.epsilonTransitions
        ((whole.initial, whole.numStates - 1) :: (whole.initial, body.initial) ::
          body.finals.toList.flatMap fun state =>
            [(state, whole.numStates - 1), (state, body.initial)]) := by
  rcases exists_star wellFormed small with ⟨whole, made, numStates, initial, composed⟩
  have member : (body, (0 : State)) ∈ [(body, (0 : State))] := List.mem_singleton_self _
  have listed := Builder.transitions_of_build (populated_starParts body) made labelled_starParts
    wellFormed.inOrder_transitions
  have final : whole.numStates - 1 = body.numStates + 1 := by
    rw [numStates, State.add_two_sub_one]
  refine ⟨whole, made, ?_⟩
  rw [initial, final, ← listed]
  refine composed.encloses ?_ ?_ ?_ ?_
  · rw [numStates, UInt32.toNat_add]
    exact Nat.mod_eq_of_lt small
  · simp [shiftedEpsilons_zero]
  · rintro ⟨source, destination⟩ splice
    rcases (mem_starSplices_iff.mp splice).2 with rfl | rfl
    · rw [← initial]
      exact composed.initial_ne_final.symm
    · have different := composed.add_offset_ne_initial member wellFormed.initial_lt
      rwa [UInt32.add_zero] at different
  · rintro ⟨source, destination⟩ splice rfl
    rcases (mem_starSplices_iff.mp splice).1 with same | isFinal
    · exact composed.initial_ne_final (initial.trans same.symm)
    · exact composed.add_offset_ne_final member (wellFormed.final_lt _ isFinal)
        (UInt32.add_zero _)

/-! ## The constructions -/

/--
The constructions copy their operands as they are.  Concatenation splices the
first copy to the second, union puts the two side by side, and repetition
splices the end of its body to the beginning.
-/
theorem constructions_copy_operands
    (firstBuilt : first.Built)
    (secondBuilt : second.Built) :
    (first.numStates.toNat + second.numStates.toNat + 2 < 2 ^ 32 →
      (∃ whole, first.concatenation second = .ok whole ∧
        whole.Encloses (first.numStates.toNat + second.numStates.toNat)
          (first.transitions ++ second.transitions.map fun (source, symbol, destination) =>
            (source + first.numStates, symbol, destination + first.numStates))
          (first.epsilonTransitions ++ second.epsilonTransitions.map fun (source, destination) =>
            (source + first.numStates, destination + first.numStates))
          ([(whole.initial, first.initial)] ++
            first.finals.toList.map (fun state =>
              (state, second.initial + first.numStates)) ++
            second.finals.toList.map (fun state =>
              (state + first.numStates, whole.numStates - 1)))) ∧
      ∃ whole, first.union second = .ok whole ∧
        whole.Encloses (first.numStates.toNat + second.numStates.toNat)
          (first.transitions ++ second.transitions.map fun (source, symbol, destination) =>
            (source + first.numStates, symbol, destination + first.numStates))
          (first.epsilonTransitions ++ second.epsilonTransitions.map fun (source, destination) =>
            (source + first.numStates, destination + first.numStates))
          ([(whole.initial, first.initial),
              (whole.initial, second.initial + first.numStates)] ++
            first.finals.toList.map (fun state =>
              (state, whole.numStates - 1)) ++
            second.finals.toList.map (fun state =>
              (state + first.numStates, whole.numStates - 1)))) ∧
    (first.numStates.toNat + 2 < 2 ^ 32 →
      ∃ whole, first.star = .ok whole ∧
        whole.Encloses first.numStates.toNat first.transitions first.epsilonTransitions
          ([(whole.initial, whole.numStates - 1), (whole.initial, first.initial)] ++
            first.finals.toList.flatMap fun state =>
              [(state, whole.numStates - 1), (state, first.initial)])) := by
  have firstFormed := firstBuilt.wellFormed
  have secondFormed := secondBuilt.wellFormed
  refine ⟨fun small => ⟨?concatenation, ?union⟩, fun small => ?star⟩
  case concatenation => exact exists_concatenation_encloses firstFormed secondFormed small
  case union => exact exists_union_encloses firstFormed secondFormed small
  case star => exact exists_star_encloses firstFormed small

theorem constructions_copy_operands_tangled :
    Builder.tangled.layout.Built ∧ (Builder.ofCalls 7 Builder.scattered).layout.Built ∧
      (∃ whole, Builder.tangled.layout.concatenation
          (Builder.ofCalls 7 Builder.scattered).layout = .ok whole ∧
        whole.numStates = 9 ∧ whole.initial = 7 ∧ whole.finals = {8} ∧
        whole.transitions = Builder.tangled.layout.transitions ++
          (Builder.ofCalls 7 Builder.scattered).layout.transitions.map
            fun (source, symbol, destination) => (source + 4, symbol, destination + 4)) ∧
      ∃ whole, Builder.tangled.layout.star = .ok whole ∧
        whole.numStates = 6 ∧ whole.transitions = Builder.tangled.layout.transitions := by
  rcases constructions_copy_operands Builder.built_tangled Builder.built_scattered with
    ⟨pair, star⟩
  rcases (pair (by decide)).1 with ⟨whole, made, encloses⟩
  rcases star (by decide) with ⟨repeated, repeatedMade, repeatedEncloses⟩
  have count : whole.numStates = 9 := UInt32.toNat_inj.mp encloses.toNat_numStates
  have initial := encloses.initial
  have finals := encloses.finals
  rw [count] at initial finals
  exact ⟨Builder.built_tangled, Builder.built_scattered,
    ⟨whole, made, count, initial, finals, encloses.transitions⟩,
    repeated, repeatedMade, UInt32.toNat_inj.mp repeatedEncloses.toNat_numStates,
    repeatedEncloses.transitions⟩

end Acceptor.Automaton
