import Acceptor.Automaton.Combinators
import Acceptor.Proofs.Combinators.Copies

/-!
# The simplest languages

The automaton for the empty word has no labelled edge, and the automata for
single symbols lead from their initial to their final state in one step.
-/

namespace Acceptor.Automaton

universe u

variable {σ : Type u} [DecidableEq σ] [Hashable σ]

/-! ## The empty word -/

/-- The parts of the automaton for the empty word. -/
def emptyInputParts : Builder σ :=
  (Builder.new 1).setInitial 0 |>.addFinal 0 |>.addEpsilon 0 0

theorem populated_emptyInputParts : (emptyInputParts : Builder σ).Populated :=
  (((Builder.Populated.new 1).setInitial 0).addFinal 0).addEpsilon 0 0

theorem mem_finals_emptyInputParts_iff {state : State} :
    state ∈ (emptyInputParts : Builder σ).finals ↔ state = 0 := by
  simp [emptyInputParts, Builder.addFinal, Builder.setInitial, Builder.new]

theorem inside_emptyInputParts : (emptyInputParts : Builder σ).Inside where
  initial := by
    show (0 : State) < 1
    decide
  finals := by
    intro state final
    rw [mem_finals_emptyInputParts_iff.mp final]
    show (0 : State) < 1
    decide
  transitions := by simp [emptyInputParts]
  epsilons := by
    intro source destination edge
    have only : source = 0 ∧ destination = 0 := by simpa [emptyInputParts] using edge
    rw [only.1, only.2]
    show (0 : State) < 1 ∧ (0 : State) < 1
    decide

/-- Without labelled edges nothing can be spelled. -/
theorem Path.eq_nil_of_unlabelled
    {automaton : Automaton σ}
    (unlabelled : ∀ source symbol destination,
      destination ∉ automaton.destinations source symbol)
    {source target : State}
    {word : List σ}
    (path : automaton.Path source word target) :
    word = [] := by
  induction path with
  | stay => rfl
  | epsilon _ _ induction => exact induction
  | symbol edge => exact absurd edge (unlabelled _ _ _)

variable (σ) in
/-- The automaton for the empty word accepts it alone. -/
theorem exists_emptyInput_language :
    ∃ automaton : Automaton σ, emptyInput = .ok automaton ∧ automaton.WellFormed ∧
      automaton.numStates.toNat = 1 ∧ automaton.language = 1 := by
  have populated : (emptyInputParts : Builder σ).Populated := populated_emptyInputParts
  have inside : (emptyInputParts : Builder σ).Inside := inside_emptyInputParts
  refine ⟨emptyInputParts.layout, Builder.build_of_inside populated inside,
    Builder.wellFormed_layout populated inside, rfl, ?_⟩
  ext word
  rw [mem_language_iff, Language.mem_one]
  constructor
  · rintro ⟨final, _, path⟩
    apply path.eq_nil_of_unlabelled
    intro source symbol destination
    rw [Builder.mem_destinations_layout_iff populated inside]
    simp [emptyInputParts]
  · rintro rfl
    exact ⟨0, mem_finals_emptyInputParts_iff.mpr rfl, .stay 0⟩

/-! ## Single symbols -/

/-- The parts of an automaton that goes from one state to another along given symbols. -/
def oneStepParts (symbols : List σ) : Builder σ :=
  (Builder.new 2).setInitial 0 |>.addFinal 1
    |>.addTransitions (symbols.map fun symbol => (0, symbol, 1))

section OneStep

variable {symbols : List σ}

theorem populated_oneStepParts : (oneStepParts symbols).Populated :=
  (((Builder.Populated.new 2).setInitial 0).addFinal 1).addTransitions _

theorem mem_finals_oneStepParts_iff {state : State} :
    state ∈ (oneStepParts symbols).finals ↔ state = 1 := by
  rw [oneStepParts, Builder.finals_addTransitions]
  simp [Builder.addFinal, Builder.setInitial, Builder.new]

theorem hasTransition_oneStepParts_iff {source destination : State} {symbol : σ} :
    (oneStepParts symbols).HasTransition source symbol destination ↔
      symbol ∈ symbols ∧ source = 0 ∧ destination = 1 := by
  simp [oneStepParts, eq_comm, and_left_comm]

theorem not_hasEpsilon_oneStepParts {source destination : State} :
    ¬ (oneStepParts symbols).HasEpsilon source destination := by
  simp [oneStepParts]

theorem numStates_oneStepParts (symbols : List σ) : (oneStepParts symbols).numStates = 2 := by
  rw [oneStepParts, Builder.numStates_addTransitions]
  rfl

theorem initial_oneStepParts (symbols : List σ) : (oneStepParts symbols).initial = 0 := by
  rw [oneStepParts, Builder.initial_addTransitions]
  rfl

theorem inside_oneStepParts : (oneStepParts symbols).Inside := by
  constructor
  · rw [numStates_oneStepParts, initial_oneStepParts]
    decide
  · intro state final
    rw [numStates_oneStepParts, mem_finals_oneStepParts_iff.mp final]
    decide
  · intro source symbol destination edge
    rcases hasTransition_oneStepParts_iff.mp edge with ⟨_, rfl, rfl⟩
    rw [numStates_oneStepParts]
    decide
  · intro source destination edge
    exact absurd edge not_hasEpsilon_oneStepParts

/-- The labelled edges of an automaton of one step go from its first to its second state. -/
theorem mem_destinations_oneStep_iff {source destination : State} {symbol : σ} :
    destination ∈ (oneStepParts symbols).layout.destinations source symbol ↔
      symbol ∈ symbols ∧ source = 0 ∧ destination = 1 := by
  rw [Builder.mem_destinations_layout_iff populated_oneStepParts inside_oneStepParts,
    hasTransition_oneStepParts_iff]

/-- An automaton of one step accepts the words of one of its symbols. -/
theorem exists_oneStep_language (symbols : List σ) :
    ∃ automaton, (oneStepParts symbols).build = .ok automaton ∧ automaton.WellFormed ∧
      automaton.numStates.toNat = 2 ∧
      automaton.language = { word | ∃ symbol ∈ symbols, word = [symbol] } := by
  have populated : (oneStepParts symbols).Populated := populated_oneStepParts
  have inside : (oneStepParts symbols).Inside := inside_oneStepParts
  have initial : (oneStepParts symbols).layout.initial = 0 := initial_oneStepParts symbols
  have blank : ∀ source destination,
      destination ∉ (oneStepParts symbols).layout.epsilonsFrom source := by
    intro source destination edge
    rw [Builder.mem_epsilonsFrom_layout_iff populated inside] at edge
    exact not_hasEpsilon_oneStepParts edge
  refine ⟨(oneStepParts symbols).layout, Builder.build_of_inside populated inside,
    Builder.wellFormed_layout populated inside, ?_, ?_⟩
  · show (oneStepParts symbols).numStates.toNat = 2
    rw [numStates_oneStepParts]
    rfl
  ext word
  rw [mem_language_iff, initial]
  constructor
  · rintro ⟨final, isFinal, path⟩
    have last : final = 1 := mem_finals_oneStepParts_iff.mp isFinal
    cases path with
    | stay => cases last
    | epsilon edge => exact absurd edge (blank _ _)
    | symbol edge rest =>
        rcases mem_destinations_oneStep_iff.mp edge with ⟨member, _, rfl⟩
        refine ⟨_, member, ?_⟩
        cases rest with
        | stay => rfl
        | epsilon edge => exact absurd edge (blank _ _)
        | symbol edge =>
            have start := (mem_destinations_oneStep_iff.mp edge).2.1
            cases start
  · rintro ⟨symbol, member, rfl⟩
    exact ⟨1, mem_finals_oneStepParts_iff.mpr rfl,
      .symbol (mem_destinations_oneStep_iff.mpr ⟨member, rfl, rfl⟩) (.stay 1)⟩

end OneStep

/-- The automaton for a symbol accepts the word of that symbol alone. -/
theorem exists_singleSymbol_language (symbol : σ) :
    ∃ automaton, singleSymbol symbol = .ok automaton ∧ automaton.WellFormed ∧
      automaton.numStates.toNat = 2 ∧ automaton.language = {[symbol]} := by
  rcases exists_oneStep_language [symbol] with ⟨automaton, made, wellFormed, count, language⟩
  refine ⟨automaton, made, wellFormed, count, ?_⟩
  rw [language]
  ext word
  show (∃ other ∈ [symbol], word = [other]) ↔ word = [symbol]
  simp

variable (σ) in
/-- The automaton for all symbols accepts the words of length one. -/
theorem exists_allSymbols_language [Alphabet σ] :
    ∃ automaton : Automaton σ, allSymbols = .ok automaton ∧ automaton.WellFormed ∧
      automaton.numStates.toNat = 2 ∧
      automaton.language = { word | word.length = 1 } := by
  rcases exists_oneStep_language (Alphabet.symbols : List σ) with
    ⟨automaton, made, wellFormed, count, language⟩
  refine ⟨automaton, made, wellFormed, count, ?_⟩
  rw [language]
  ext word
  show (∃ symbol ∈ Alphabet.symbols, word = [symbol]) ↔ word.length = 1
  rw [List.length_eq_one_iff]
  simp [Alphabet.mem_symbols]

end Acceptor.Automaton
