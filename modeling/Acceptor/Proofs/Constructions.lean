import Acceptor.Proofs.Combinators.Pairs
import Acceptor.Proofs.Combinators.Repetition
import Acceptor.Proofs.Combinators.Simplest
import Acceptor.Proofs.Determinization.Correctness
import Acceptor.Regex

/-!
# Automata that constructions make

Automata come from builders, from the simplest languages, from other automata
and from patterns.  All of these ways end in building what has been collected,
and building checks it.  Hence every automaton is well formed, however many
constructions it went through: its tables match its universe, and neither its
edges nor the runs along them lead out of it.

No bound on the numbers of states is asked for.  A result whose states could
not all be numbered has been checked against the universe that it declares, as
any other.
-/

namespace Acceptor

open Automaton

/-! ## Building -/

section Building

universe u

variable {σ : Type u} [DecidableEq σ] [Hashable σ]

/-- What is built is well formed, whatever is built. -/
theorem Builder.Populated.wellFormed_of_build
    {builder : Builder σ}
    {automaton : Automaton σ}
    (populated : builder.Populated)
    (made : builder.build = .ok automaton) :
    automaton.WellFormed := by
  rcases build_eq_ok_iff.mp made with ⟨mentioned, rfl⟩
  exact wellFormed_layout populated ((inside_iff populated).mpr mentioned)

namespace Automaton

theorem wellFormed_of_emptyInput
    {automaton : Automaton σ}
    (made : emptyInput = .ok automaton) :
    automaton.WellFormed :=
  populated_emptyInputParts.wellFormed_of_build made

theorem wellFormed_of_singleSymbol
    {symbol : σ}
    {automaton : Automaton σ}
    (made : singleSymbol symbol = .ok automaton) :
    automaton.WellFormed := by
  have populated : (oneStepParts [symbol]).Populated := populated_oneStepParts
  exact populated.wellFormed_of_build made

theorem wellFormed_of_allSymbols
    [Alphabet σ]
    {automaton : Automaton σ}
    (made : allSymbols = .ok automaton) :
    automaton.WellFormed := by
  have populated : (oneStepParts (Alphabet.symbols : List σ)).Populated := populated_oneStepParts
  exact populated.wellFormed_of_build made

theorem wellFormed_of_concatenation
    {first second whole : Automaton σ}
    (made : first.concatenation second = .ok whole) :
    whole.WellFormed := by
  rw [concatenation_eq] at made
  exact (populated_pairParts ..).wellFormed_of_build made

theorem wellFormed_of_union
    {first second whole : Automaton σ}
    (made : first.union second = .ok whole) :
    whole.WellFormed := by
  rw [union_eq] at made
  exact (populated_pairParts ..).wellFormed_of_build made

theorem wellFormed_of_star
    {body whole : Automaton σ}
    (made : body.star = .ok whole) :
    whole.WellFormed :=
  body.populated_starParts.wellFormed_of_build made

theorem wellFormed_of_determinizeWithLimit
    {nfa dfa : Automaton σ}
    {limit : Option Nat}
    (made : (nfa.determinizeWithLimit limit).result = .ok dfa) :
    dfa.WellFormed := by
  unfold determinizeWithLimit at made
  split at made
  · cases made
  split at made
  · cases made
  next exploration _ =>
    rw [Exploration.assemble_eq] at made
    cases built : exploration.builder.build with
    | error cause =>
        rw [built] at made
        cases made
    | ok whole =>
        rw [built] at made
        cases made
        exact exploration.populated_builder.wellFormed_of_build built

end Automaton

end Building

/-! ## Patterns -/

/-- When two computations in a row succeed, each of them does. -/
theorem exists_of_bind_eq_ok
    {ε α β : Type}
    {first : Except ε α}
    {second : α → Except ε β}
    {outcome : β}
    (made : first >>= second = .ok outcome) :
    ∃ middle, first = .ok middle ∧ second middle = .ok outcome := by
  cases first with
  | error cause => cases made
  | ok middle => exact ⟨middle, rfl, made⟩

namespace Pattern

/-- What comes out of a fold is the first value or the result of a step. -/
theorem wellFormed_of_foldlM
    {β : Type}
    {step : Automaton CodeUnit → β → Except AutomatonError (Automaton CodeUnit)}
    (each : ∀ before part after, step before part = .ok after → after.WellFormed)
    {parts : List β}
    {first whole : Automaton CodeUnit}
    (formed : first.WellFormed)
    (made : parts.foldlM step first = .ok whole) :
    whole.WellFormed := by
  induction parts generalizing first with
  | nil =>
      cases made
      exact formed
  | cons part rest induction =>
      rw [List.foldlM_cons] at made
      rcases exists_of_bind_eq_ok made with ⟨next, stepped, folded⟩
      exact induction (each first part next stepped) folded

theorem Leaf.wellFormed_of_automaton
    {leaf : Leaf}
    {automaton : Automaton CodeUnit}
    (made : leaf.automaton = .ok automaton) :
    automaton.WellFormed := by
  cases leaf with
  | any => exact wellFormed_of_allSymbols made
  | literal unit ordinary => exact wellFormed_of_singleSymbol made

section

variable {α : Type} {atomAutomaton : α → Except AutomatonError (Automaton CodeUnit)}
  {automaton : Automaton CodeUnit}
  (atoms : ∀ content made, atomAutomaton content = .ok made → made.WellFormed)

include atoms

theorem Item.wellFormed_of_automaton
    {item : Item α}
    (made : item.automaton atomAutomaton = .ok automaton) :
    automaton.WellFormed := by
  rcases exists_of_bind_eq_ok made with ⟨body, bodyMade, repeated⟩
  cases starred : item.starred with
  | true =>
      rw [starred] at repeated
      exact wellFormed_of_star repeated
  | false =>
      rw [starred] at repeated
      cases repeated
      exact atoms item.atom automaton bodyMade

theorem Branch.wellFormed_of_automaton
    {branch : Branch α}
    (made : Branch.automaton atomAutomaton branch = .ok automaton) :
    automaton.WellFormed := by
  cases branch with
  | nil => exact wellFormed_of_emptyInput made
  | cons item rest =>
      rcases exists_of_bind_eq_ok made with ⟨first, firstMade, folded⟩
      refine wellFormed_of_foldlM ?_ (Item.wellFormed_of_automaton atoms firstMade) folded
      intro before item after joined
      rcases exists_of_bind_eq_ok joined with ⟨next, _, joined⟩
      exact wellFormed_of_concatenation joined

theorem Alternation.wellFormed_of_automaton
    {alternation : Alternation α}
    (made : alternation.automaton atomAutomaton = .ok automaton) :
    automaton.WellFormed := by
  rcases exists_of_bind_eq_ok made with ⟨first, firstMade, folded⟩
  refine wellFormed_of_foldlM ?_ (Branch.wellFormed_of_automaton atoms firstMade) folded
  intro before branch after joined
  rcases exists_of_bind_eq_ok joined with ⟨next, _, joined⟩
  exact wellFormed_of_union joined

end

theorem Atom.wellFormed_of_automaton
    {atom : Atom}
    {automaton : Automaton CodeUnit}
    (made : atom.automaton = .ok automaton) :
    automaton.WellFormed := by
  cases atom with
  | leaf content => exact content.wellFormed_of_automaton made
  | group body =>
      exact Alternation.wellFormed_of_automaton
        (fun leaf _ leafMade => leaf.wellFormed_of_automaton leafMade) made

theorem wellFormed_of_compile
    {units : List CodeUnit}
    {automaton : Automaton CodeUnit}
    (made : compile units = .ok automaton) :
    automaton.WellFormed := by
  rw [compile] at made
  split at made
  · cases made
  next pattern _ =>
    cases whole : toAutomaton pattern with
    | error cause =>
        rw [whole] at made
        cases made
    | ok result =>
        rw [whole] at made
        cases made
        exact Alternation.wellFormed_of_automaton
          (fun atom _ atomMade => atom.wellFormed_of_automaton atomMade) whole

end Pattern

theorem Regex.wellFormed_of_compileWithLimit
    {text : String}
    {limit : Option Nat}
    {regex : Regex}
    (made : (compileWithLimit text limit).result = .ok regex) :
    regex.automaton.WellFormed := by
  cases compiled : Pattern.compile (Text.units text) with
  | error cause =>
      rw [compileWithLimit_of_error compiled] at made
      cases made
  | ok nfa =>
      cases determinized : (nfa.determinizeWithLimit limit).result with
      | error cause =>
          rw [compileWithLimit_of_determinize_error compiled determinized] at made
          cases made
      | ok dfa =>
          rw [compileWithLimit_of_determinize_ok compiled determinized] at made
          cases made
          exact wellFormed_of_determinizeWithLimit determinized

/-! ## Runs stay in the universe -/

namespace Automaton

universe u

variable {σ : Type u} [DecidableEq σ] [Hashable σ]

/-- Every member of a set is a state of the automaton. -/
def Contains (automaton : Automaton σ) (states : StateSet) : Prop :=
  ∀ state ∈ states, state < automaton.numStates

/-- The tables and the universe fit together, and no run leaves the universe. -/
structure Coherent (automaton : Automaton σ) : Prop extends automaton.WellFormed where
  transition_lt : ∀ source symbol destination,
    (source, symbol, destination) ∈ automaton.transitions →
      source < automaton.numStates ∧ destination < automaton.numStates
  epsilonTransition_lt : ∀ source destination,
    (source, destination) ∈ automaton.epsilonTransitions →
      source < automaton.numStates ∧ destination < automaton.numStates
  contains_epsilonClosure : ∀ states,
    automaton.Contains states → automaton.Contains (automaton.epsilonClosure states)
  contains_move : ∀ states symbol,
    automaton.Contains states → automaton.Contains (automaton.move states symbol)
  epsilonClosure_ne_empty : ∀ source,
    ∀ entry ∈ (automaton.row source).toList, automaton.epsilonClosure entry.2 ≠ ∅

namespace WellFormed

variable {automaton : Automaton σ} (wellFormed : automaton.WellFormed)

include wellFormed

theorem contains_epsilonClosure
    {states : StateSet}
    (contained : automaton.Contains states) :
    automaton.Contains (automaton.epsilonClosure states) := by
  intro state member
  rcases mem_epsilonClosure_iff.mp member with ⟨source, present, path⟩
  exact wellFormed.lt_of_path (.ofReaches path) (contained source present)

/-- An edge leads into the universe, wherever it comes from. -/
theorem contains_step (states : StateSet) (symbol : σ) :
    automaton.Contains (automaton.step states symbol) := by
  intro state member
  rcases mem_step_iff.mp member with ⟨source, _, edge⟩
  exact wellFormed.destination_lt source symbol state edge

theorem epsilonClosure_ne_empty
    {source : State}
    {entry : σ × StateSet}
    (stored : entry ∈ (automaton.row source).toList) :
    automaton.epsilonClosure entry.2 ≠ ∅ := by
  rcases StateSet.exists_mem_of_ne_empty (wellFormed.group_ne_empty source entry stored) with
    ⟨state, member⟩
  exact StateSet.ne_empty_of_mem (automaton.subset_epsilonClosure entry.2 state member)

theorem toCoherent : automaton.Coherent where
  toWellFormed := wellFormed
  transition_lt source symbol destination listed := by
    have edge := (mem_transitions_iff wellFormed.rows_bounded).mp listed
    exact ⟨wellFormed.source_lt_of_destination edge, wellFormed.destination_lt _ _ _ edge⟩
  epsilonTransition_lt source destination listed := by
    have edge := (mem_epsilonTransitions_iff wellFormed.epsilons_bounded).mp listed
    exact ⟨wellFormed.source_lt_of_epsilon edge, wellFormed.epsilon_lt _ _ edge⟩
  contains_epsilonClosure _ contained := wellFormed.contains_epsilonClosure contained
  contains_move states symbol _ :=
    wellFormed.contains_epsilonClosure (wellFormed.contains_step states symbol)
  epsilonClosure_ne_empty _ _ stored := wellFormed.epsilonClosure_ne_empty stored

end WellFormed

end Automaton

/-! ## Constructions, one after the other -/

namespace Automaton

/-- Some finite sequence of constructions makes the automaton. -/
inductive Constructible :
    {σ : Type} → [DecidableEq σ] → [Hashable σ] → Automaton σ → Prop where
  | built {σ : Type} [DecidableEq σ] [Hashable σ] {automaton : Automaton σ}
      (built : automaton.Built) :
      Constructible automaton
  | emptyInput {σ : Type} [DecidableEq σ] [Hashable σ] {automaton : Automaton σ}
      (made : Automaton.emptyInput = .ok automaton) :
      Constructible automaton
  | singleSymbol {σ : Type} [DecidableEq σ] [Hashable σ] {automaton : Automaton σ}
      {symbol : σ}
      (made : Automaton.singleSymbol symbol = .ok automaton) :
      Constructible automaton
  | allSymbols {σ : Type} [DecidableEq σ] [Hashable σ] [Alphabet σ] {automaton : Automaton σ}
      (made : Automaton.allSymbols = .ok automaton) :
      Constructible automaton
  | concatenation {σ : Type} [DecidableEq σ] [Hashable σ] {first second whole : Automaton σ}
      (firstOperand : Constructible first)
      (secondOperand : Constructible second)
      (made : first.concatenation second = .ok whole) :
      Constructible whole
  | union {σ : Type} [DecidableEq σ] [Hashable σ] {first second whole : Automaton σ}
      (firstOperand : Constructible first)
      (secondOperand : Constructible second)
      (made : first.union second = .ok whole) :
      Constructible whole
  | star {σ : Type} [DecidableEq σ] [Hashable σ] {body whole : Automaton σ}
      (operand : Constructible body)
      (made : body.star = .ok whole) :
      Constructible whole
  | determinize {σ : Type} [DecidableEq σ] [Hashable σ] {nfa dfa : Automaton σ}
      (operand : Constructible nfa)
      (made : nfa.determinize = .ok dfa) :
      Constructible dfa
  | determinizeWithLimit {σ : Type} [DecidableEq σ] [Hashable σ] {nfa dfa : Automaton σ}
      {limit : Option Nat}
      (operand : Constructible nfa)
      (made : (nfa.determinizeWithLimit limit).result = .ok dfa) :
      Constructible dfa
  | pattern {units : List CodeUnit} {nfa : Automaton CodeUnit}
      (made : Pattern.compile units = .ok nfa) :
      Constructible nfa
  | regex {text : String} {limit : Option Nat} {regex : Regex}
      (made : (Regex.compileWithLimit text limit).result = .ok regex) :
      Constructible regex.automaton

variable {σ : Type} [DecidableEq σ] [Hashable σ] {automaton : Automaton σ}

theorem Constructible.wellFormed (constructible : automaton.Constructible) :
    automaton.WellFormed := by
  cases constructible with
  | built built => exact built.wellFormed
  | emptyInput made => exact wellFormed_of_emptyInput made
  | singleSymbol made => exact wellFormed_of_singleSymbol made
  | allSymbols made => exact wellFormed_of_allSymbols made
  | concatenation _ _ made => exact wellFormed_of_concatenation made
  | union _ _ made => exact wellFormed_of_union made
  | star _ made => exact wellFormed_of_star made
  | determinize _ made => exact wellFormed_of_determinizeWithLimit made
  | determinizeWithLimit _ made => exact wellFormed_of_determinizeWithLimit made
  | pattern made => exact Pattern.wellFormed_of_compile made
  | regex made => exact Regex.wellFormed_of_compileWithLimit made

/-- Whatever the constructions make is coherent. -/
theorem Constructible.coherent (constructible : automaton.Constructible) :
    automaton.Coherent :=
  constructible.wellFormed.toCoherent

theorem coherent_determinize_star_tangled :
    ∃ whole dfa, Builder.tangled.layout.star = .ok whole ∧ whole.determinize = .ok dfa ∧
      dfa.Constructible ∧ dfa.Coherent := by
  rcases exists_star Builder.built_tangled.wellFormed (by decide) with
    ⟨whole, made, numStates, _, composed⟩
  have few : whole.numStates.toNat ≤ 32 := by
    rw [numStates]
    decide
  rcases exists_subsets (composed.wellFormed.compositesFit few) with ⟨dfa, _, determinized, _⟩
  have constructible : dfa.Constructible :=
    .determinize (.star (.built Builder.built_tangled) made) determinized
  exact ⟨whole, dfa, made, determinized, constructible, constructible.coherent⟩

end Automaton

end Acceptor
