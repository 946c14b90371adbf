import Acceptor.Automaton.Basic
import Acceptor.Error

/-!
# Assembling automata

A `Builder` collects the parts of an automaton in any order.  Nothing is
checked while parts are added: a state may be mentioned before the universe
that contains it is declared, and only the universe declared last counts.
`build` looks at every state mentioned, once, in a fixed order, and either
reports the first one outside the universe or lays the edges out by source.
-/

namespace Acceptor

universe u

/-- The parts of an automaton as they have been added so far. -/
structure Builder (σ : Type u) [DecidableEq σ] [Hashable σ] where
  /-- The declared number of states. -/
  numStates : State
  /-- The initial state, the state zero unless another is chosen. -/
  initial : State
  /-- The final states. -/
  finals : StateSet
  /-- The destinations of each source and symbol, in the order of their first addition. -/
  labelled : OrderedMap (State × σ) StateSet
  /-- The epsilon destinations of each source, in the order of their first addition. -/
  epsilons : OrderedMap State StateSet

namespace Builder

variable {σ : Type u} [DecidableEq σ] [Hashable σ]

/-- A builder for an automaton with a number of states and nothing else yet. -/
def new (numStates : State) : Builder σ where
  numStates := numStates
  initial := 0
  finals := ∅
  labelled := .empty
  epsilons := .empty

/-- Declare the number of states. -/
def setNumStates (builder : Builder σ) (numStates : State) : Builder σ :=
  { builder with numStates }

/-- Choose the initial state. -/
def setInitial (builder : Builder σ) (initial : State) : Builder σ :=
  { builder with initial }

/-- Add a final state. -/
def addFinal (builder : Builder σ) (state : State) : Builder σ :=
  { builder with finals := builder.finals.insert state }

/-- Add several final states. -/
def addFinals (builder : Builder σ) (states : List State) : Builder σ :=
  { builder with finals := builder.finals.insertMany states }

/-- Add a labelled edge. -/
def addTransition (builder : Builder σ) (source : State) (symbol : σ) (destination : State) :
    Builder σ :=
  { builder with
    labelled := builder.labelled.upsert (source, symbol) {destination} (·.insert destination) }

/-- Add an epsilon edge. -/
def addEpsilon (builder : Builder σ) (source destination : State) : Builder σ :=
  { builder with
    epsilons := builder.epsilons.upsert source {destination} (·.insert destination) }

/-- Add labelled edges one after the other. -/
def addTransitions (builder : Builder σ) (edges : List (State × σ × State)) : Builder σ :=
  edges.foldl (fun builder (source, symbol, destination) =>
    builder.addTransition source symbol destination) builder

/-- Add epsilon edges one after the other. -/
def addEpsilons (builder : Builder σ) (edges : List (State × State)) : Builder σ :=
  edges.foldl (fun builder (source, destination) =>
    builder.addEpsilon source destination) builder

/-! ## Checking -/

/--
Every state that is mentioned, in the order in which they are checked: the
initial state, the final states, then the groups of labelled edges and the
groups of epsilon edges, each source before its destinations.
-/
def mentioned (builder : Builder σ) : List State :=
  builder.initial :: builder.finals.toList ++
    builder.labelled.toList.flatMap (fun entry => entry.1.1 :: entry.2.toList) ++
    builder.epsilons.toList.flatMap (fun entry => entry.1 :: entry.2.toList)

/-- The first mentioned state that is not in the universe. -/
def firstOutside? (builder : Builder σ) : Option State :=
  builder.mentioned.find? fun state => !decide (state < builder.numStates)

/-! ## Building -/

/-- The labelled edges laid out by source. -/
def rows (builder : Builder σ) : Array (OrderedMap σ StateSet) :=
  builder.labelled.toList.foldl
    (fun rows entry => rows.modify entry.1.1.toNat (·.insert entry.1.2 entry.2))
    (Array.replicate builder.numStates.toNat .empty)

/-- The epsilon edges laid out by source. -/
def epsilonRows (builder : Builder σ) : Array StateSet :=
  builder.epsilons.toList.foldl
    (fun rows entry => rows.setIfInBounds entry.1.toNat entry.2)
    (Array.replicate builder.numStates.toNat ∅)

/-- The collected parts laid out, whether or not they lie in the declared universe. -/
def layout (builder : Builder σ) : Automaton σ where
  numStates := builder.numStates
  initial := builder.initial
  finals := builder.finals
  rows := builder.rows
  epsilons := builder.epsilonRows

/-- The automaton with the collected parts, if they all lie in the declared universe. -/
def build (builder : Builder σ) : Except AutomatonError (Automaton σ) :=
  match builder.firstOutside? with
  | some state => .error (.stateNotInUniverse state builder.numStates)
  | none => .ok builder.layout

end Builder

end Acceptor
