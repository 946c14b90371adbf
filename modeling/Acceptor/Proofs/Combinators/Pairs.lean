import Acceptor.Proofs.Combinators.Composition

/-!
# The languages of concatenations and unions

The two constructions with two operands differ in two respects only: which
initial states the new initial state leads to, and where the final states of
the first operand lead.  Both succeed as long as the states of the result can
be numbered.  The language of a concatenation is the product, and that of a
union the sum, of the languages of the operands, which may be any well-formed
automata.
-/

namespace Acceptor.Automaton

universe u

variable {σ : Type u} [DecidableEq σ] [Hashable σ]

/-- The parts of a construction with two operands. -/
def pairParts
    (first second : Automaton σ)
    (entrances : List State)
    (outlet : State) :
    Builder σ :=
  (first.copy 0).joined (second.copy first.numStates)
    (first.numStates + second.numStates + 2) entrances outlet

theorem populated_pairParts
    (first second : Automaton σ)
    (entrances : List State)
    (outlet : State) :
    (pairParts first second entrances outlet).Populated :=
  (((((Builder.populated_framed.addEpsilons _).addEpsilons _).addTransitions _)
    |>.addEpsilons _).addEpsilons _).addTransitions _ |>.addEpsilons _

/-- The epsilon edges that a construction with two operands adds. -/
def pairSplices
    (first second : Automaton σ)
    (entrances : List State)
    (outlet : State) :
    List (State × State) :=
  let count := first.numStates + second.numStates
  entrances.map (fun entrance => (count, entrance)) ++
    (first.copy 0).exits outlet ++ (second.copy first.numStates).exits (count + 1)

theorem concatenation_eq (first second : Automaton σ) :
    first.concatenation second =
      (pairParts first second [first.initial] (second.initial + first.numStates)).build := by
  rw [← initial_copy_zero first]
  rfl

theorem union_eq (first second : Automaton σ) :
    first.union second =
      (pairParts first second [first.initial, second.initial + first.numStates]
        (first.numStates + second.numStates + 2 - 1)).build := by
  rw [← initial_copy_zero first]
  rfl

theorem mem_pairSplices_iff
    {first second : Automaton σ}
    {entrances : List State}
    {outlet source destination : State} :
    (source, destination) ∈ pairSplices first second entrances outlet ↔
      (source = first.numStates + second.numStates ∧ destination ∈ entrances) ∨
        (source ∈ first.finals ∧ destination = outlet) ∨
          ∃ final ∈ second.finals, final + first.numStates = source ∧
            destination = first.numStates + second.numStates + 1 := by
  simp only [pairSplices, List.mem_append, List.mem_map, mem_exits_iff, UInt32.add_zero,
    Prod.mk.injEq, or_assoc]
  constructor
  · rintro (⟨entrance, member, rfl, rfl⟩ | ⟨final, member, rfl, same⟩ | splice)
    · exact Or.inl ⟨rfl, member⟩
    · exact Or.inr (Or.inl ⟨member, same⟩)
    · exact Or.inr (Or.inr splice)
  · rintro (⟨rfl, member⟩ | ⟨member, same⟩ | splice)
    · exact Or.inl ⟨destination, member, rfl, rfl⟩
    · exact Or.inr (Or.inl ⟨source, member, rfl, same⟩)
    · exact Or.inr (Or.inr splice)

section Pair

variable {first second : Automaton σ}

theorem first_mem_copies :
    (first, (0 : State)) ∈ [(first, 0), (second, first.numStates)] :=
  List.mem_cons_self ..

theorem second_mem_copies :
    (second, first.numStates) ∈ [(first, (0 : State)), (second, first.numStates)] :=
  List.mem_cons_of_mem _ (List.mem_singleton_self _)

theorem toNat_pair
    (small : first.numStates.toNat + second.numStates.toNat + 2 < 2 ^ 32) :
    (first.numStates + second.numStates).toNat =
        first.numStates.toNat + second.numStates.toNat ∧
      (first.numStates + second.numStates + 2).toNat =
        first.numStates.toNat + second.numStates.toNat + 2 ∧
      (first.numStates + second.numStates + 1).toNat =
        first.numStates.toNat + second.numStates.toNat + 1 := by
  rw [UInt32.toNat_add _ 2, UInt32.toNat_add _ 1, UInt32.toNat_add]
  have two : UInt32.toNat 2 = 2 := rfl
  have one : UInt32.toNat 1 = 1 := rfl
  omega

theorem exists_pair
    (firstFormed : first.WellFormed)
    (secondFormed : second.WellFormed)
    (small : first.numStates.toNat + second.numStates.toNat + 2 < 2 ^ 32)
    {entrances : List State}
    {outlet : State}
    (entrancesInside : ∀ entrance ∈ entrances,
      entrance < first.numStates + second.numStates + 2)
    (outletInside : outlet < first.numStates + second.numStates + 2) :
    ∃ whole, (pairParts first second entrances outlet).build = .ok whole ∧
      whole.numStates = first.numStates + second.numStates + 2 ∧
      whole.initial = first.numStates + second.numStates ∧
      whole.Composed [(first, 0), (second, first.numStates)]
        (pairSplices first second entrances outlet) := by
  have numStates : (pairParts first second entrances outlet).numStates =
      first.numStates + second.numStates + 2 := by simp [pairParts, Copy.joined]
  have initial : (pairParts first second entrances outlet).initial =
      first.numStates + second.numStates := by simp [pairParts, Copy.joined]
  rcases toNat_pair small with ⟨count, total, last⟩
  rw [← numStates, ← initial]
  apply Builder.exists_composed
  · exact populated_pairParts first second entrances outlet
  · intro copy member
    rcases List.mem_pair.mp member with rfl | rfl
    · exact firstFormed
    · exact secondFormed
  · intro copy member
    rw [numStates, total]
    rcases List.mem_pair.mp member with rfl | rfl
    · show first.numStates.toNat + 0 + 2 ≤ _
      omega
    · show second.numStates.toNat + first.numStates.toNat + 2 ≤ _
      omega
  · rw [initial, numStates, total, count]
  · intro state
    simp [pairParts, Copy.joined]
  · intro source symbol destination
    simp [pairParts, Copy.joined]
  · intro source destination
    simp only [pairParts, Copy.joined, Builder.hasEpsilon_addEpsilons,
      Builder.hasEpsilon_addTransitions, Builder.hasEpsilon_framed, pairSplices,
      State.add_two_sub_one, UInt32.add_sub_cancel, List.mem_append, List.mem_cons,
      List.not_mem_nil, or_false, false_or, exists_eq_or_imp, exists_eq_left,
      epsilonTransitions_copy]
    tauto
  · rintro ⟨source, destination⟩ splice
    rw [numStates]
    simp only [UInt32.lt_iff_toNat_lt, total] at entrancesInside outletInside ⊢
    rcases mem_pairSplices_iff.mp splice with
      ⟨rfl, member⟩ | ⟨member, rfl⟩ | ⟨final, member, rfl, rfl⟩
    · exact ⟨by omega, entrancesInside destination member⟩
    · have below := UInt32.lt_iff_toNat_lt.mp (firstFormed.final_lt source member)
      exact ⟨by omega, outletInside⟩
    · have below := UInt32.lt_iff_toNat_lt.mp (secondFormed.final_lt final member)
      rw [UInt32.toNat_add final]
      exact ⟨by omega, by omega⟩

/-- Each operand is copied with its own way out. -/
theorem copied_of_pair
    {whole : Automaton σ}
    {entrances : List State}
    {outlet : State}
    (initial : whole.initial = first.numStates + second.numStates)
    (composed : whole.Composed [(first, 0), (second, first.numStates)]
      (pairSplices first second entrances outlet)) :
    first.CopiedInto whole 0 (· = outlet) ∧
      second.CopiedInto whole first.numStates (· = whole.initial + 1) := by
  have apart : ∀ state < first.numStates, ∀ other < second.numStates,
      other + first.numStates ≠ state := by
    intro state below other otherBelow same
    have shifted : (other + first.numStates).toNat =
        other.toNat + first.numStates.toNat :=
      (composed.add_offset_lt second_mem_copies otherBelow).1
    have less := UInt32.lt_iff_toNat_lt.mp below
    rw [same] at shifted
    omega
  constructor
  · apply composed.copied first_mem_copies
    · intro other member
      rcases List.mem_pair.mp member with rfl | rfl
      · exact Or.inl rfl
      · refine Or.inr fun state below otherState otherBelow => ?_
        rw [UInt32.add_zero]
        exact apart state below otherState otherBelow
    · intro source below destination
      have different := composed.add_offset_ne_initial first_mem_copies below
      rw [UInt32.add_zero] at different ⊢
      rw [mem_pairSplices_iff, ← initial, or_iff_right fun splice => different splice.1,
        or_iff_left]
      rintro ⟨final, member, same, _⟩
      exact apart source below final
        ((composed.operand _ second_mem_copies).final_lt final member) same
  · apply composed.copied second_mem_copies
    · intro other member
      rcases List.mem_pair.mp member with rfl | rfl
      · refine Or.inr fun state below otherState otherBelow => ?_
        rw [UInt32.add_zero]
        exact (apart otherState otherBelow state below).symm
      · exact Or.inl rfl
    · intro source below destination
      have different := composed.add_offset_ne_initial second_mem_copies below
      rw [mem_pairSplices_iff, ← initial, or_iff_right fun splice => different splice.1,
        or_iff_right]
      · constructor
        · rintro ⟨final, member, same, leaves⟩
          rw [UInt32.add_left_inj] at same
          exact ⟨same ▸ member, leaves⟩
        · rintro ⟨member, leaves⟩
          exact ⟨source, member, rfl, leaves⟩
      · rintro ⟨member, _⟩
        exact apart _ ((composed.operand _ first_mem_copies).final_lt _ member) source below rfl

theorem not_mem_pairSplices_final
    {whole : Automaton σ}
    {entrances : List State}
    {outlet : State}
    (initial : whole.initial = first.numStates + second.numStates)
    (composed : whole.Composed [(first, 0), (second, first.numStates)]
      (pairSplices first second entrances outlet))
    (destination : State) :
    (whole.initial + 1, destination) ∉ pairSplices first second entrances outlet := by
  intro splice
  rcases mem_pairSplices_iff.mp splice with
    ⟨same, _⟩ | ⟨member, _⟩ | ⟨final, member, same, _⟩
  · exact composed.initial_ne_final (initial.trans same.symm)
  · have below := (composed.operand _ first_mem_copies).final_lt _ member
    exact composed.add_offset_ne_final first_mem_copies below (UInt32.add_zero _)
  · have below := (composed.operand _ second_mem_copies).final_lt final member
    exact composed.add_offset_ne_final second_mem_copies below same

/-- Only the empty word leads from the final state to itself. -/
theorem Composed.between_final_eq_one
    {whole : Automaton σ}
    {copies : List (Automaton σ × State)}
    {splices : List (State × State)}
    (composed : whole.Composed copies splices)
    (last : ∀ destination, (whole.initial + 1, destination) ∉ splices) :
    whole.between (whole.initial + 1) (whole.initial + 1) = 1 := by
  ext word
  rw [Language.mem_one]
  constructor
  · exact composed.eq_nil_of_path_final last
  · rintro rfl
    exact .stay _

/-- A construction with two operands is entered through its entrances. -/
theorem mem_language_of_pair_iff
    {whole : Automaton σ}
    {entrances : List State}
    {outlet : State}
    (initial : whole.initial = first.numStates + second.numStates)
    (composed : whole.Composed [(first, 0), (second, first.numStates)]
      (pairSplices first second entrances outlet))
    {word : List σ} :
    word ∈ whole.language ↔
      ∃ entrance ∈ entrances, word ∈ whole.between entrance (whole.initial + 1) := by
  rw [composed.mem_language_iff]
  apply exists_congr
  intro entrance
  apply and_congr_left'
  rw [mem_pairSplices_iff]
  constructor
  · rintro (⟨_, member⟩ | ⟨member, _⟩ | ⟨final, member, same, _⟩)
    · exact member
    · have below := (composed.operand _ first_mem_copies).final_lt _ member
      exact absurd (UInt32.add_zero _) (composed.add_offset_ne_initial first_mem_copies below)
    · have below := (composed.operand _ second_mem_copies).final_lt final member
      exact absurd same (composed.add_offset_ne_initial second_mem_copies below)
  · intro member
    exact Or.inl ⟨initial, member⟩

theorem between_of_pair
    {whole : Automaton σ}
    {entrances : List State}
    {outlet : State}
    (initial : whole.initial = first.numStates + second.numStates)
    (composed : whole.Composed [(first, 0), (second, first.numStates)]
      (pairSplices first second entrances outlet)) :
    whole.between first.initial (whole.initial + 1) =
        first.language * whole.between outlet (whole.initial + 1) ∧
      whole.between (second.initial + first.numStates) (whole.initial + 1) =
        second.language := by
  rcases copied_of_pair initial composed with ⟨firstCopied, secondCopied⟩
  have last := composed.between_final_eq_one (not_mem_pairSplices_final initial composed)
  constructor
  · rw [← firstCopied.between_eq, UInt32.add_zero]
    intro inner below
    exact composed.add_offset_ne_final first_mem_copies below
  · rw [secondCopied.between_eq, last, mul_one]
    intro inner below
    exact composed.add_offset_ne_final second_mem_copies below

end Pair

/-! ## The languages -/

section

variable {first second : Automaton σ}
  (firstFormed : first.WellFormed)
  (secondFormed : second.WellFormed)
  (small : first.numStates.toNat + second.numStates.toNat + 2 < 2 ^ 32)

include firstFormed secondFormed small

theorem initial_lt_pair :
    first.initial < first.numStates + second.numStates + 2 ∧
      second.initial + first.numStates < first.numStates + second.numStates + 2 := by
  rcases toNat_pair small with ⟨count, total, last⟩
  have firstBelow := UInt32.lt_iff_toNat_lt.mp firstFormed.initial_lt
  have secondBelow := UInt32.lt_iff_toNat_lt.mp secondFormed.initial_lt
  rw [UInt32.lt_iff_toNat_lt, UInt32.lt_iff_toNat_lt, total, UInt32.toNat_add]
  omega

theorem exists_concatenation :
    ∃ whole, first.concatenation second = .ok whole ∧
      whole.numStates = first.numStates + second.numStates + 2 ∧
      whole.initial = first.numStates + second.numStates ∧
      whole.Composed [(first, 0), (second, first.numStates)]
        (pairSplices first second [first.initial] (second.initial + first.numStates)) := by
  rcases initial_lt_pair firstFormed secondFormed small with ⟨firstInside, secondInside⟩
  rw [concatenation_eq]
  exact exists_pair firstFormed secondFormed small
    (List.forall_mem_singleton.mpr firstInside) secondInside

theorem exists_union :
    ∃ whole, first.union second = .ok whole ∧
      whole.numStates = first.numStates + second.numStates + 2 ∧
      whole.initial = first.numStates + second.numStates ∧
      whole.Composed [(first, 0), (second, first.numStates)]
        (pairSplices first second [first.initial, second.initial + first.numStates]
          (first.numStates + second.numStates + 1)) := by
  rcases toNat_pair small with ⟨count, total, last⟩
  rcases initial_lt_pair firstFormed secondFormed small with ⟨firstInside, secondInside⟩
  have outletInside : first.numStates + second.numStates + 1 <
      first.numStates + second.numStates + 2 := by
    rw [UInt32.lt_iff_toNat_lt, last, total]
    omega
  have entrancesInside : ∀ entrance ∈ [first.initial, second.initial + first.numStates],
      entrance < first.numStates + second.numStates + 2 := by
    intro entrance member
    rcases List.mem_pair.mp member with rfl | rfl
    · exact firstInside
    · exact secondInside
  rw [union_eq, State.add_two_sub_one]
  exact exists_pair firstFormed secondFormed small entrancesInside outletInside

/-- The concatenation of two automata accepts words of the first before words of the second. -/
theorem exists_concatenation_language :
    ∃ whole, first.concatenation second = .ok whole ∧ whole.WellFormed ∧
      whole.numStates.toNat = first.numStates.toNat + second.numStates.toNat + 2 ∧
      whole.language = first.language * second.language := by
  rcases exists_concatenation firstFormed secondFormed small with
    ⟨whole, made, numStates, initial, composed⟩
  rcases between_of_pair initial composed with ⟨firstBetween, secondBetween⟩
  refine ⟨whole, made, composed.wellFormed, numStates ▸ (toNat_pair small).2.1, ?_⟩
  rw [← secondBetween, ← firstBetween]
  ext word
  rw [mem_language_of_pair_iff initial composed]
  simp

/-- The union of two automata accepts the words of both. -/
theorem exists_union_language :
    ∃ whole, first.union second = .ok whole ∧ whole.WellFormed ∧
      whole.numStates.toNat = first.numStates.toNat + second.numStates.toNat + 2 ∧
      whole.language = first.language + second.language := by
  rcases exists_union firstFormed secondFormed small with
    ⟨whole, made, numStates, initial, composed⟩
  rcases between_of_pair initial composed with ⟨firstBetween, secondBetween⟩
  have final := composed.between_final_eq_one (not_mem_pairSplices_final initial composed)
  refine ⟨whole, made, composed.wellFormed, numStates ▸ (toNat_pair small).2.1, ?_⟩
  rw [← initial, final, mul_one] at firstBetween
  rw [← secondBetween, ← firstBetween]
  ext word
  rw [mem_language_of_pair_iff initial composed, Language.mem_add]
  simp

end

end Acceptor.Automaton
