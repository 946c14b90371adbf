import Acceptor.OrderedMap
import Acceptor.StateSet.Lemmas

/-!
# Finite automata

An automaton has states numbered from zero, one of them initial and some of
them final, and two kinds of edges: labelled edges, which consume the symbol
they carry, and epsilon edges, which consume nothing.  A state may have any
number of edges with the same label, so the type covers deterministic and
nondeterministic automata alike.

The edges are stored by source.  The row of a state lists its symbols in the
order in which they were first added, each with the set of its destinations.
A state outside the automaton simply has no edges.
-/

namespace Acceptor

universe u v

/-- A finite automaton over symbols of type `σ`. -/
structure Automaton (σ : Type u) [DecidableEq σ] [Hashable σ] where
  /-- The states are the numbers below this one. -/
  numStates : State
  /-- The state in which every run begins. -/
  initial : State
  /-- The states in which a run may end successfully. -/
  finals : StateSet
  /-- For each state its labelled edges, grouped by symbol. -/
  rows : Array (OrderedMap σ StateSet)
  /-- For each state the destinations of its epsilon edges. -/
  epsilons : Array StateSet

namespace Automaton

variable {σ : Type u} [DecidableEq σ] [Hashable σ]

instance : DecidableEq (Automaton σ) := fun left right =>
  decidable_of_iff
    (left.numStates = right.numStates ∧ left.initial = right.initial ∧
      left.finals = right.finals ∧ left.rows = right.rows ∧ left.epsilons = right.epsilons)
    ⟨by
      intro same
      cases left
      cases right
      simpa using same,
    by rintro rfl; simp⟩

/-- The labelled edges of a state, grouped by symbol. -/
def row (automaton : Automaton σ) (state : State) : OrderedMap σ StateSet :=
  automaton.rows.getD state.toNat .empty

/-- The destinations of the edges of a state that carry a symbol. -/
def destinations (automaton : Automaton σ) (state : State) (symbol : σ) : StateSet :=
  ((automaton.row state).get? symbol).getD ∅

/-- What stands under a key is what its group holds, if it has one. -/
theorem mem_group_iff {κ : Type v} [DecidableEq κ] [Hashable κ]
    {groups : OrderedMap κ StateSet} {key : κ} {state : State} :
    state ∈ (groups.get? key).getD ∅ ↔
      ∃ group, (key, group) ∈ groups.toList ∧ state ∈ group := by
  constructor
  · intro member
    cases found : groups.get? key with
    | none =>
        rw [found] at member
        exact absurd member (StateSet.not_mem_empty state)
    | some group =>
        rw [found] at member
        exact ⟨group, OrderedMap.get?_eq_some_iff.mp found, member⟩
  · rintro ⟨group, entry, member⟩
    rw [OrderedMap.get?_eq_some_iff.mpr entry]
    exact member

theorem mem_destinations_iff {automaton : Automaton σ} {source state : State} {symbol : σ} :
    state ∈ automaton.destinations source symbol ↔
      ∃ group, (symbol, group) ∈ (automaton.row source).toList ∧ state ∈ group :=
  mem_group_iff

/-- The destinations of the epsilon edges of a state. -/
def epsilonsFrom (automaton : Automaton σ) (state : State) : StateSet :=
  automaton.epsilons.getD state.toNat ∅

/-- The labelled edges of a row, symbol by symbol. -/
def rowEdges (source : State) (row : OrderedMap σ StateSet) : List (State × σ × State) :=
  row.toList.flatMap fun entry =>
    entry.2.toList.map fun destination => (source, entry.1, destination)

/-- Every labelled edge as source, symbol and destination. -/
def transitions (automaton : Automaton σ) : List (State × σ × State) :=
  automaton.rows.toList.zipIdx.flatMap fun (row, source) =>
    rowEdges (UInt32.ofNat source) row

/-- Every epsilon edge as source and destination. -/
def epsilonTransitions (automaton : Automaton σ) : List (State × State) :=
  automaton.epsilons.toList.zipIdx.flatMap fun (destinations, source) =>
    destinations.toList.map fun destination => (UInt32.ofNat source, destination)

/-- The symbols that label an edge, in the order of their first occurrence. -/
def alphabet (automaton : Automaton σ) : Enumeration σ :=
  .ofList (automaton.rows.toList.flatMap fun row => row.keys.toList)

/-- Whether no epsilon edge exists and no state has two edges with the same label. -/
def isDeterministic (automaton : Automaton σ) : Bool :=
  automaton.epsilons.all StateSet.isEmpty &&
    automaton.rows.all fun row => row.values.all fun destinations => destinations.size ≤ 1

end Automaton

end Acceptor
