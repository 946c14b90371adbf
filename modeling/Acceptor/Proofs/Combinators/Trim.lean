import Acceptor.Proofs.Acceptance.Trim
import Acceptor.Proofs.Combinators.Pairs
import Acceptor.Proofs.Combinators.Repetition
import Acceptor.Proofs.Combinators.Simplest

/-!
# Constructions without useless states

The simplest automata are trim, provided that there is a symbol to accept, and
every construction makes a trim automaton of trim operands: a copy is entered
through the initial state of its operand and left from its final states, and
whatever lies between them in the operand lies between them in the copy.
-/

namespace Acceptor

universe u

variable {σ : Type u} [DecidableEq σ] [Hashable σ]

namespace Automaton

/-! ## Copies -/

namespace CopiedInto

variable {part whole : Automaton σ} {offset : State} {outlets : State → Prop}
  (copied : part.CopiedInto whole offset outlets)

include copied

theorem leads {source target : State} (inner : part.Leads source target) :
    whole.Leads (source + offset) (target + offset) := by
  rcases inner with ⟨word, path⟩
  exact ⟨word, copied.path path⟩

/-- Each state of a copy of a trim automaton leads to each outlet. -/
theorem leads_outlet
    (trim : part.Trim)
    {state outlet : State}
    (below : state < part.numStates)
    (leaving : outlets outlet) :
    whole.Leads (state + offset) outlet := by
  rcases trim.coaccessible state below with ⟨final, isFinal, inner⟩
  have edge := (copied.epsilon_iff final (copied.wellFormed.final_lt final isFinal) outlet).mpr
    (Or.inr ⟨isFinal, leaving⟩)
  exact (copied.leads inner).trans (.epsilon edge)

end CopiedInto

/-! ## Compositions -/

namespace Composed

variable {whole : Automaton σ} {copies : List (Automaton σ × State)}
  {splices : List (State × State)}
  (composed : whole.Composed copies splices)

include composed

theorem leads_of_splice {source target : State} (splice : (source, target) ∈ splices) :
    whole.Leads source target :=
  .epsilon ((composed.epsilon_iff source target).mpr (Or.inl splice))

/-- The states are those before the initial state, the initial state and the final state. -/
theorem lt_or_eq_of_lt {state : State} (below : state < whole.numStates) :
    state < whole.initial ∨ state = whole.initial ∨ state = whole.initial + 1 := by
  have initial := composed.initial
  have final := composed.toNat_final
  simp only [UInt32.lt_iff_toNat_lt, ← UInt32.toNat_inj] at below ⊢
  omega

/--
A composition of trim automata is trim if its copies leave no gap, if each of
them can be entered and if each of them can be left for the final state.
-/
theorem trim
    (some : copies ≠ [])
    (covered : ∀ state < whole.initial,
      ∃ copy ∈ copies, ∃ inner < copy.1.numStates, inner + copy.2 = state)
    (trim : ∀ copy ∈ copies, copy.1.Trim)
    (entered : ∀ copy ∈ copies, whole.Leads whole.initial (copy.1.initial + copy.2))
    (left : ∀ copy ∈ copies, ∃ outlets, copy.1.CopiedInto whole copy.2 outlets ∧
      ∃ outlet, outlets outlet ∧ whole.Leads outlet (whole.initial + 1)) :
    whole.Trim := by
  have leaving : ∀ copy ∈ copies, ∀ inner < copy.1.numStates,
      whole.Leads (inner + copy.2) (whole.initial + 1) := by
    intro copy member inner below
    rcases left copy member with ⟨outlets, copied, outlet, leaves, onward⟩
    exact (copied.leads_outlet (trim copy member) below leaves).trans onward
  have through : whole.Leads whole.initial (whole.initial + 1) := by
    rcases List.exists_mem_of_ne_nil _ some with ⟨copy, member⟩
    exact (entered copy member).trans
      (leaving copy member _ (composed.operand copy member).initial_lt)
  have last : whole.initial + 1 ∈ whole.finals := (composed.final_iff _).mpr rfl
  constructor
  · intro state below
    rcases composed.lt_or_eq_of_lt below with before | rfl | rfl
    · rcases covered state before with ⟨copy, member, inner, innerBelow, rfl⟩
      rcases left copy member with ⟨outlets, copied, _⟩
      exact (entered copy member).trans
        (copied.leads ((trim copy member).accessible inner innerBelow))
    · exact .refl _
    · exact through
  · intro state below
    refine ⟨whole.initial + 1, last, ?_⟩
    rcases composed.lt_or_eq_of_lt below with before | rfl | rfl
    · rcases covered state before with ⟨copy, member, inner, innerBelow, rfl⟩
      exact leaving copy member inner innerBelow
    · exact through
    · exact .refl _

end Composed

/-! ## The constructions -/

theorem Trim.star
    {body whole : Automaton σ}
    (trim : body.Trim)
    (wellFormed : body.WellFormed)
    (small : body.numStates.toNat + 2 < 2 ^ 32)
    (made : body.star = .ok whole) :
    whole.Trim := by
  rcases exists_star wellFormed small with ⟨other, otherMade, numStates, initial, composed⟩
  cases made.symm.trans otherMade
  have member : (body, (0 : State)) ∈ [(body, (0 : State))] := List.mem_singleton_self _
  have copied := copied_of_star initial composed
  apply composed.trim (List.cons_ne_nil _ _)
  case covered =>
    intro state before
    exact ⟨_, member, state, initial ▸ before, UInt32.add_zero state⟩
  case trim =>
    intro copy member
    rw [List.mem_singleton.mp member]
    exact trim
  case entered =>
    intro copy member
    rw [List.mem_singleton.mp member, UInt32.add_zero]
    exact composed.leads_of_splice (mem_starSplices_iff.mpr ⟨Or.inl initial, Or.inr rfl⟩)
  case left =>
    intro copy member
    rw [List.mem_singleton.mp member]
    exact ⟨_, copied, whole.initial + 1, Or.inl rfl, .refl _⟩

section Pair

variable {first second whole : Automaton σ}

/-- A construction with two operands has no states between their copies. -/
theorem exists_of_lt_pair
    (small : first.numStates.toNat + second.numStates.toNat + 2 < 2 ^ 32)
    {state : State}
    (below : state < first.numStates + second.numStates) :
    ∃ copy ∈ [(first, 0), (second, first.numStates)],
      ∃ inner < copy.1.numStates, inner + copy.2 = state := by
  rw [UInt32.lt_iff_toNat_lt, (toNat_pair small).1] at below
  rcases UInt32.lt_or_le state first.numStates with before | behind
  · exact ⟨_, first_mem_copies, state, before, UInt32.add_zero state⟩
  · have inner : state - first.numStates < second.numStates := by
      rw [UInt32.lt_iff_toNat_lt, UInt32.toNat_sub_of_le _ _ behind]
      rw [UInt32.le_iff_toNat_le] at behind
      omega
    exact ⟨_, second_mem_copies, _, inner, UInt32.sub_add_cancel _ _⟩

/-- A construction with two trim operands is trim if both are entered and left. -/
theorem trim_of_pair
    {entrances : List State}
    {outlet : State}
    (small : first.numStates.toNat + second.numStates.toNat + 2 < 2 ^ 32)
    (initial : whole.initial = first.numStates + second.numStates)
    (composed : whole.Composed [(first, 0), (second, first.numStates)]
      (pairSplices first second entrances outlet))
    (firstTrim : first.Trim)
    (secondTrim : second.Trim)
    (firstEntered : whole.Leads whole.initial first.initial)
    (secondEntered : whole.Leads whole.initial (second.initial + first.numStates))
    (firstLeft : whole.Leads outlet (whole.initial + 1)) :
    whole.Trim := by
  rcases copied_of_pair initial composed with ⟨firstCopied, secondCopied⟩
  apply composed.trim (List.cons_ne_nil _ _)
  case covered => exact fun state before => exists_of_lt_pair small (initial ▸ before)
  case trim =>
    intro copy member
    rcases List.mem_pair.mp member with rfl | rfl
    · exact firstTrim
    · exact secondTrim
  case entered =>
    intro copy member
    rcases List.mem_pair.mp member with rfl | rfl
    · rw [UInt32.add_zero]
      exact firstEntered
    · exact secondEntered
  case left =>
    intro copy member
    rcases List.mem_pair.mp member with rfl | rfl
    · exact ⟨_, firstCopied, outlet, rfl, firstLeft⟩
    · exact ⟨_, secondCopied, whole.initial + 1, rfl, .refl _⟩

variable (firstTrim : first.Trim) (secondTrim : second.Trim)
  (firstFormed : first.WellFormed) (secondFormed : second.WellFormed)
  (small : first.numStates.toNat + second.numStates.toNat + 2 < 2 ^ 32)

include firstTrim secondTrim firstFormed secondFormed small

theorem Trim.concatenation (made : first.concatenation second = .ok whole) : whole.Trim := by
  rcases exists_concatenation firstFormed secondFormed small with
    ⟨other, otherMade, numStates, initial, composed⟩
  cases made.symm.trans otherMade
  rcases copied_of_pair initial composed with ⟨firstCopied, secondCopied⟩
  have firstEntered : whole.Leads whole.initial first.initial :=
    composed.leads_of_splice
      (mem_pairSplices_iff.mpr (Or.inl ⟨initial, List.mem_singleton_self _⟩))
  -- The second operand is entered through the first one.
  have crossed : whole.Leads first.initial (second.initial + first.numStates) := by
    rw [← UInt32.add_zero first.initial]
    exact firstCopied.leads_outlet firstTrim firstFormed.initial_lt rfl
  exact trim_of_pair small initial composed firstTrim secondTrim firstEntered
    (firstEntered.trans crossed)
    (secondCopied.leads_outlet secondTrim secondFormed.initial_lt rfl)

theorem Trim.union (made : first.union second = .ok whole) : whole.Trim := by
  rcases exists_union firstFormed secondFormed small with
    ⟨other, otherMade, numStates, initial, composed⟩
  cases made.symm.trans otherMade
  have entered : ∀ entrance ∈ [first.initial, second.initial + first.numStates],
      whole.Leads whole.initial entrance :=
    fun entrance member =>
      composed.leads_of_splice (mem_pairSplices_iff.mpr (Or.inl ⟨initial, member⟩))
  apply trim_of_pair small initial composed firstTrim secondTrim
  · exact entered _ (List.mem_cons_self ..)
  · exact entered _ (List.mem_cons_of_mem _ (List.mem_singleton_self _))
  · rw [initial]
    exact .refl _

end Pair

/-! ## The simplest automata -/

theorem trim_emptyInput {automaton : Automaton σ} (made : emptyInput = .ok automaton) :
    automaton.Trim := by
  have built : (emptyInput : Except AutomatonError (Automaton σ)) =
      .ok emptyInputParts.layout :=
    Builder.build_of_inside populated_emptyInputParts inside_emptyInputParts
  cases built.symm.trans made
  have only : ∀ state < (emptyInputParts : Builder σ).layout.numStates, state = 0 := by
    intro state below
    have below : state < 1 := below
    grind
  constructor
  · intro state below
    rw [only state below]
    exact .refl 0
  · intro state below
    rw [only state below]
    exact ⟨0, mem_finals_emptyInputParts_iff.mpr rfl, .refl 0⟩

/-- An automaton of one step is trim if it accepts any symbol. -/
theorem trim_oneStep
    {symbols : List σ}
    {automaton : Automaton σ}
    (some : symbols ≠ [])
    (made : (oneStepParts symbols).build = .ok automaton) :
    automaton.Trim := by
  have inside : (oneStepParts symbols).Inside := inside_oneStepParts
  have built := Builder.build_of_inside populated_oneStepParts inside
  cases built.symm.trans made
  rcases List.exists_mem_of_ne_nil _ some with ⟨symbol, member⟩
  have step : (oneStepParts symbols).layout.Leads 0 1 :=
    .symbol (mem_destinations_oneStep_iff.mpr ⟨member, rfl, rfl⟩)
  have initial : (oneStepParts symbols).layout.initial = 0 := initial_oneStepParts symbols
  have two : ∀ state < (oneStepParts symbols).layout.numStates, state = 0 ∨ state = 1 := by
    intro state below
    have below : state < 2 := numStates_oneStepParts symbols ▸ below
    grind
  constructor
  · intro state below
    rw [initial]
    rcases two state below with rfl | rfl
    · exact .refl 0
    · exact step
  · intro state below
    refine ⟨1, mem_finals_oneStepParts_iff.mpr rfl, ?_⟩
    rcases two state below with rfl | rfl
    · exact step
    · exact .refl 1

end Automaton

end Acceptor
