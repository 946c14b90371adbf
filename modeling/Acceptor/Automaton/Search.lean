import Acceptor.Automaton.Simulation

/-!
# Searching state by state

A search keeps the states that it has visited and a queue of states that it
has yet to look at.  In each turn it takes the state that has waited longest.
A state that has been visited is passed over, for a state can join the queue
several times before its first turn comes.  Any other state is visited now.
If it is what the search looks for, the search ends; otherwise the states to
which it leads join the queue, except for those that have been visited.

Two questions about an automaton are answered by a search.  The closure of a
set of states is found by following epsilon edges and looking for nothing.
Whether any word is accepted is found by looking for a final state, where a
state leads to the closure of the destinations of each of its symbols.
-/

namespace Acceptor

/-- A way of going through states. -/
structure Search where
  /-- The states that wait at the beginning, the first to be looked at in front. -/
  start : List State
  /-- The states to which a state leads, in the order in which they join the queue. -/
  follow : State → List State
  /-- The states that the search looks for. -/
  goal : State → Bool

namespace Search

/-- How far a search has come. -/
structure Progress where
  /-- The states that have been visited. -/
  visited : StateSet
  /-- The states that wait, the first to be looked at in front. -/
  queue : List State

/-- What a search comes to. -/
inductive Outcome where
  /-- It has come upon a state that it looks for. -/
  | found (state : State)
  /-- No state is waiting any more; these have been visited. -/
  | exhausted (visited : StateSet)
  deriving DecidableEq

/-- Whether the search came upon nothing. -/
def Outcome.isExhausted : Outcome → Bool
  | found _ => false
  | exhausted _ => true

/-- Before the first turn. -/
def begin (search : Search) : Progress where
  visited := ∅
  queue := search.start

/-- One turn, after which the search has ended or goes on. -/
def turn (search : Search) (progress : Progress) : Outcome ⊕ Progress :=
  match progress.queue with
  | [] => .inl (.exhausted progress.visited)
  | state :: rest =>
      match progress.visited.containsThenInsert state with
      | (true, _) => .inr { progress with queue := rest }
      | (false, visited) =>
          if search.goal state then .inl (.found state)
          else
            .inr
              { visited
                queue := rest ++ (search.follow state).filter fun next => !visited.contains next }

/-- What the search has come to after a number of turns, if it has ended by then. -/
def run (search : Search) : Nat → Progress → Option Outcome
  | 0, _ => none
  | turns + 1, progress =>
      match search.turn progress with
      | .inl outcome => some outcome
      | .inr next => search.run turns next

/-- What the search has come to after a number of turns from its beginning. -/
def outcome? (search : Search) (turns : Nat) : Option Outcome :=
  search.run turns search.begin

end Search

namespace Automaton

universe u

variable {σ : Type u} [DecidableEq σ] [Hashable σ]

/-- The search for the states that can be reached from a set through epsilon edges. -/
def closing (automaton : Automaton σ) (states : StateSet) : Search where
  start := states.toList
  follow state := (automaton.epsilonsFrom state).toList
  goal _ := false

/-- The search for a final state. -/
def seekingFinal (automaton : Automaton σ) : Search where
  start := (automaton.epsilonClosureOf automaton.initial).toList
  follow state := (automaton.row state).toList.flatMap fun entry =>
    (automaton.epsilonClosure entry.2).toList
  goal := automaton.finals.contains

end Automaton

end Acceptor
