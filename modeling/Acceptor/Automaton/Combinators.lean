import Acceptor.Automaton.Builder
import Acceptor.Symbol

/-!
# Composing automata

The automata for the simplest languages, and the constructions that compose
larger ones from them: concatenation, union and repetition.

Each construction makes a new automaton.  It copies its operands side by side,
the second operand past the first, and adds two states of its own at the end:
the initial state and, after it, the only final state.  A few epsilon edges
splice the copies together.  State numbers are 32-bit words, and so is the
arithmetic on them.
-/

namespace Acceptor

universe u

/-- A universe the last two states of which are the initial and the only final state. -/
def Builder.framed {σ : Type u} [DecidableEq σ] [Hashable σ] (numStates : State) : Builder σ :=
  (new numStates).setInitial (numStates - 2) |>.addFinal (numStates - 1)

namespace Automaton

variable {σ : Type u} [DecidableEq σ] [Hashable σ]

/-! ## Simplest languages -/

/-- An automaton for the empty word alone. -/
def emptyInput : Except AutomatonError (Automaton σ) :=
  (Builder.new 1).setInitial 0 |>.addFinal 0 |>.addEpsilon 0 0 |>.build

/-- An automaton for the word of one given symbol. -/
def singleSymbol (symbol : σ) : Except AutomatonError (Automaton σ) :=
  (Builder.new 2).setInitial 0 |>.addFinal 1 |>.addTransition 0 symbol 1 |>.build

/-- An automaton for every word of one symbol. -/
def allSymbols [Alphabet σ] : Except AutomatonError (Automaton σ) :=
  (Builder.new 2).setInitial 0 |>.addFinal 1
    |>.addTransitions ((Alphabet.symbols : List σ).map fun symbol => (0, symbol, 1))
    |>.build

/-! ## Copies -/

/-- A copy of an automaton among the states of another. -/
structure Copy (σ : Type u) where
  /-- The copy of the initial state. -/
  initial : State
  /-- The copies of the final states. -/
  finals : List State
  /-- The copies of the labelled edges. -/
  transitions : List (State × σ × State)
  /-- The copies of the epsilon edges. -/
  epsilonTransitions : List (State × State)

/-- The labelled edges of an automaton copied past a number of other states. -/
def shiftedTransitions (automaton : Automaton σ) (offset : State) :
    List (State × σ × State) :=
  automaton.transitions.map fun (source, symbol, destination) =>
    (source + offset, symbol, destination + offset)

/-- The epsilon edges of an automaton copied past a number of other states. -/
def shiftedEpsilons (automaton : Automaton σ) (offset : State) : List (State × State) :=
  automaton.epsilonTransitions.map fun (source, destination) =>
    (source + offset, destination + offset)

/-- An automaton copied past a number of other states. -/
def copy (automaton : Automaton σ) (offset : State) : Copy σ where
  initial := automaton.initial + offset
  finals := automaton.finals.toList.map (· + offset)
  transitions := automaton.shiftedTransitions offset
  epsilonTransitions := automaton.shiftedEpsilons offset

namespace Copy

/-- Epsilon edges from the final states of a copy to one state. -/
def exits (copy : Copy σ) (destination : State) : List (State × State) :=
  copy.finals.map fun state => (state, destination)

/--
Two copies, with an initial and a final state behind them.  The initial state
leads to the entrances, the final states of the first copy lead to the outlet
and those of the second copy to the final state.
-/
def joined
    (first second : Copy σ)
    (numStates : State)
    (entrances : List State)
    (outlet : State) :
    Builder σ :=
  let initial := numStates - 2
  let final := numStates - 1
  (Builder.framed numStates)
    |>.addEpsilons (entrances.map fun entrance => (initial, entrance))
    |>.addEpsilons (first.exits outlet)
    |>.addTransitions first.transitions
    |>.addEpsilons first.epsilonTransitions
    |>.addEpsilons (second.exits final)
    |>.addTransitions second.transitions
    |>.addEpsilons second.epsilonTransitions

/-- The first copy is entered, and leads on to the second. -/
def concatenated (first second : Copy σ) (numStates : State) : Builder σ :=
  first.joined second numStates [first.initial] second.initial

/-- Both copies are entered, and both lead to the final state. -/
def united (first second : Copy σ) (numStates : State) : Builder σ :=
  first.joined second numStates [first.initial, second.initial] (numStates - 1)

/-- A copy that may be passed by, and after which it may be entered again. -/
def repeated (body : Copy σ) (numStates : State) : Builder σ :=
  let initial := numStates - 2
  let final := numStates - 1
  (Builder.framed numStates)
    |>.addEpsilon initial final
    |>.addEpsilon initial body.initial
    |>.addEpsilons (body.finals.flatMap fun state => [(state, final), (state, body.initial)])
    |>.addTransitions body.transitions
    |>.addEpsilons body.epsilonTransitions

end Copy

/-! ## Constructions -/

/-- Put copies of two automata side by side and join them. -/
def compose
    (join : Copy σ → Copy σ → State → Builder σ)
    (first second : Automaton σ) :
    Except AutomatonError (Automaton σ) :=
  let offset := first.numStates
  let numStates := offset + second.numStates + 2
  (join (first.copy 0) (second.copy offset) numStates).build

/-- An automaton for the words of the first automaton followed by words of the second. -/
def concatenation (first second : Automaton σ) : Except AutomatonError (Automaton σ) :=
  compose Copy.concatenated first second

/-- An automaton for the words of either automaton. -/
def union (first second : Automaton σ) : Except AutomatonError (Automaton σ) :=
  compose Copy.united first second

/-- An automaton for any number of words of the body, one after the other. -/
def star (body : Automaton σ) : Except AutomatonError (Automaton σ) :=
  let numStates := body.numStates + 2
  ((body.copy 0).repeated numStates).build

end Automaton

end Acceptor
