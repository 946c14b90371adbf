import Acceptor.Automaton.Combinators

/-!
# Constructions that check their sums

Constructions add numbers of states as 32-bit words, and a sum that is no such
word wraps around.  The constructions here join the same copies in the same way
but check each sum: that of the numbers of states, and those that give the
copied states their numbers.  They give up if one of them is too large.
-/

namespace Acceptor

/-- A computation that gives up, fails or succeeds. -/
abbrev Checked (ε α : Type) := ExceptT ε Option α

/-- The sum of two numbers of states, if it is a 32-bit word. -/
def sum? (left right : State) : Option State :=
  if left.toNat + right.toNat < UInt32.size then some (left + right) else none

namespace Automaton

variable {σ : Type} [DecidableEq σ] [Hashable σ]

/-- The states that are given new numbers when an automaton is copied. -/
def renumbered (automaton : Automaton σ) : List State :=
  automaton.initial :: automaton.finals.toList ++
    automaton.transitions.flatMap (fun (source, _, destination) => [source, destination]) ++
    automaton.epsilonTransitions.flatMap fun (source, destination) => [source, destination]

/-- An automaton copied past a number of other states, if the copied states can be numbered. -/
def copy? (automaton : Automaton σ) (offset : State) : Option (Copy σ) :=
  if automaton.renumbered.all fun state => (sum? state offset).isSome then
    some (automaton.copy offset)
  else none

/-- Put copies of two automata side by side and join them. -/
def compose?
    (join : Copy σ → Copy σ → State → Builder σ)
    (first second : Automaton σ) :
    Checked AutomatonError (Automaton σ) :=
  ExceptT.mk do
    let offset := first.numStates
    let numStates ← sum? (← sum? offset second.numStates) 2
    return (join (← first.copy? 0) (← second.copy? offset) numStates).build

/-- An automaton for the words of the first automaton followed by words of the second. -/
def concatenation? (first second : Automaton σ) : Checked AutomatonError (Automaton σ) :=
  compose? Copy.concatenated first second

/-- An automaton for the words of either automaton. -/
def union? (first second : Automaton σ) : Checked AutomatonError (Automaton σ) :=
  compose? Copy.united first second

/-- An automaton for any number of words of the body, one after the other. -/
def star? (body : Automaton σ) : Checked AutomatonError (Automaton σ) :=
  ExceptT.mk do
    let numStates ← sum? body.numStates 2
    return ((← body.copy? 0).repeated numStates).build

end Automaton

end Acceptor
