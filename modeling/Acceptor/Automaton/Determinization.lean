import Acceptor.Automaton.Builder
import Acceptor.Automaton.Exploration

/-!
# Determinization

The deterministic automaton of an automaton has its composite states as
states: the sets of states in which the runs can be after some word.  They
are numbered in the order of their discovery, beginning with the closure of
the initial state.  The empty set is not among them, so a word after which no
run is left has no path at all.
-/

namespace Acceptor

universe u

variable {σ : Type u} [DecidableEq σ] [Hashable σ]

/-- The automaton that a complete exploration describes. -/
def Exploration.assemble (exploration : Exploration σ) : Except AutomatonError (Automaton σ) :=
  (Builder.new (UInt32.ofNat exploration.composites.size)).setInitial 0
    |>.addFinals exploration.finals.toList
    |>.addTransitions exploration.transitions.toList
    |>.build

namespace Automaton

/-- The exploration of an automaton from the closure of its initial state. -/
def explored (automaton : Automaton σ) (limit : Option Nat) :
    Except (StoppedExploration σ) (Exploration σ) :=
  (Exploration.start (automaton.epsilonClosureOf automaton.initial)).run automaton limit

/--
An automaton for the same words without epsilon edges and with at most one
edge per state and symbol, if it needs no more states than the limit allows.
-/
def determinizeWithLimit (automaton : Automaton σ) (limit : Option Nat) :
    Logged (Except DeterminizeError (Automaton σ)) :=
  match Exploration.exhausted? limit 0 with
  | some bound => { log := #[], result := .error (.stateLimitExceeded bound) }
  | none =>
      match automaton.explored limit with
      | .error stopped =>
          { log := stopped.exploration.log
            result := .error (.stateLimitExceeded stopped.limit) }
      | .ok exploration =>
          { log := exploration.log.push (.determinized automaton.numStates
              exploration.composites.size exploration.transitions.size)
            result := exploration.assemble.mapError .automaton }

/--
An automaton for the same words without epsilon edges and with at most one
edge per state and symbol.
-/
def determinize (automaton : Automaton σ) : Except DeterminizeError (Automaton σ) :=
  (automaton.determinizeWithLimit none).result

end Automaton

end Acceptor
