import Acceptor.Automaton.Closure

/-!
# Where a set of states can go

The moves of a set of states are the symbols on the edges that leave its
members, each with the set of states that one such symbol leads to.  Symbols
come in the order in which they are first met when the rows of the members
are read one after the other, by ascending member.
-/

namespace Acceptor

universe u

namespace Automaton

variable {σ : Type u} [DecidableEq σ] [Hashable σ]

/-- Add the destinations of an edge group to what its symbol reaches. -/
def addGroup (moves : OrderedMap σ StateSet) (group : σ × StateSet) : OrderedMap σ StateSet :=
  moves.upsert group.1 group.2 (· ∪ group.2)

/-- The edge groups of the members, row after row. -/
def groups (automaton : Automaton σ) (states : StateSet) : List (σ × StateSet) :=
  states.toList.flatMap fun state => (automaton.row state).toList

/-- For each symbol the states that an edge from a member leads to. -/
def steps (automaton : Automaton σ) (states : StateSet) : OrderedMap σ StateSet :=
  (automaton.groups states).foldl addGroup .empty

/--
Close each set of a list under epsilon edges, when the closure of one set is
known already, and append the results to those at hand.  A set that equals the
one before it is not closed again.
-/
def closeAll (automaton : Automaton σ) (known closure : StateSet)
    (closed : Array (σ × StateSet)) : List (σ × StateSet) → Array (σ × StateSet)
  | [] => closed
  | (symbol, states) :: rest =>
      if states = known then
        automaton.closeAll known closure (closed.push (symbol, closure)) rest
      else
        let next := automaton.epsilonClosure states
        automaton.closeAll states next (closed.push (symbol, next)) rest

/-- For each symbol the states in which the runs can be after it. -/
def moves (automaton : Automaton σ) (states : StateSet) : List (σ × StateSet) :=
  (automaton.closeAll ∅ ∅ #[] (automaton.steps states).toList).toList

/-- Reusing a closure does not change the result. -/
theorem toList_closeAll (automaton : Automaton σ) {known closure : StateSet}
    (valid : automaton.epsilonClosure known = closure) (closed : Array (σ × StateSet))
    (list : List (σ × StateSet)) :
    (automaton.closeAll known closure closed list).toList =
      closed.toList ++ list.map fun entry => (entry.1, automaton.epsilonClosure entry.2) := by
  induction list generalizing known closure closed with
  | nil => simp [closeAll]
  | cons first rest induction =>
      obtain ⟨symbol, states⟩ := first
      unfold closeAll
      split
      · next same => simp [induction valid, same, valid]
      · simp [induction rfl]

/-- The moves are the steps, each followed by epsilon edges. -/
theorem moves_eq_map (automaton : Automaton σ) (states : StateSet) :
    automaton.moves states =
      (automaton.steps states).toList.map fun entry =>
        (entry.1, automaton.epsilonClosure entry.2) := by
  rw [moves, automaton.toList_closeAll automaton.epsilonClosure_empty]
  rfl

end Automaton

end Acceptor
