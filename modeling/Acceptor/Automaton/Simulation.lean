import Acceptor.Automaton.Basic
import Acceptor.Reachability

/-!
# Running an automaton

All runs of an automaton over an input are followed at once by keeping the
set of states they can be in.  Epsilon edges are followed eagerly: the set is
closed under them at the start and after each symbol.  The input is consumed
to its end, so a final state that is passed through on the way does not count.
-/

namespace Acceptor

universe u

namespace Automaton

variable {σ : Type u} [DecidableEq σ] [Hashable σ]

/-- The states that can be reached from a set through epsilon edges alone. -/
def epsilonClosure (automaton : Automaton σ) (states : StateSet) : StateSet :=
  reachable automaton.epsilonsFrom states

/-- The states that can be reached from a state through epsilon edges alone. -/
def epsilonClosureOf (automaton : Automaton σ) (state : State) : StateSet :=
  automaton.epsilonClosure {state}

/-- The destinations of the edges of a set of states that carry a symbol. -/
def step (automaton : Automaton σ) (states : StateSet) (symbol : σ) : StateSet :=
  states.toList.foldl (fun reached state => reached ∪ automaton.destinations state symbol) ∅

/-- The states in which the runs can be after one more symbol. -/
def move (automaton : Automaton σ) (states : StateSet) (symbol : σ) : StateSet :=
  automaton.epsilonClosure (automaton.step states symbol)

/-- Whether some run from a set of states over a word ends in a final state. -/
def acceptsFrom (automaton : Automaton σ) (states : StateSet) : List σ → Bool
  | [] => states.intersects automaton.finals
  | symbol :: word =>
      if states.isEmpty then false
      else automaton.acceptsFrom (automaton.move states symbol) word

/-- Whether some run from the initial state over a word ends in a final state. -/
def accepts (automaton : Automaton σ) (word : List σ) : Bool :=
  automaton.acceptsFrom (automaton.epsilonClosureOf automaton.initial) word

/-- The destinations of all edges of a state, whatever they carry. -/
def successors (automaton : Automaton σ) (state : State) : StateSet :=
  (automaton.row state).values.foldl (· ∪ ·) (automaton.epsilonsFrom state)

/-- Whether no word at all is accepted. -/
def isEmpty (automaton : Automaton σ) : Bool :=
  !(reachable automaton.successors {automaton.initial}).intersects automaton.finals

end Automaton

end Acceptor
