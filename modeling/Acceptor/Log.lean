import Acceptor.StateSet.Basic
import Acceptor.Text.Quoted

/-!
# What the library reports about its work

Determinization and the compilation of patterns leave a record of the states
they number and of the sizes they arrive at.  Records are values; their
wording is produced in one place.  A computation that reports returns its
records together with its result, also when the result is an error.
-/

namespace Acceptor

universe u

/-- How detailed a record is. -/
inductive Level where
  /-- A single step of the work. -/
  | trace
  /-- The outcome of a piece of work. -/
  | debug
  deriving DecidableEq, Repr

/-- The name of a level. -/
def Level.name : Level → String
  | trace => "TRACE"
  | debug => "DEBUG"

/-- One thing that was reported. -/
inductive Record where
  /-- A set of states was met for the first time and numbered. -/
  | composite (state : State) (members : StateSet)
  /-- An automaton was determinized. -/
  | determinized (before : State) (after transitions : Nat)
  /-- A pattern was compiled. -/
  | compiled (pattern : String) (nondeterministic deterministic : State)
  deriving DecidableEq

namespace Record

/-- The level of a record. -/
def level : Record → Level
  | composite .. => .trace
  | determinized .. => .debug
  | compiled .. => .debug

/-- The wording of a record. -/
def text : Record → String
  | composite state members => s!"composite state {state} = {members}"
  | determinized before after transitions =>
      s!"determinized {before} NFA states into {after} DFA states ({transitions} transitions)"
  | compiled pattern nondeterministic deterministic =>
      "compiled " ++ Text.quoted pattern ++
        s!": {nondeterministic} NFA states, {deterministic} DFA states"

end Record

/-- A result together with what was reported on the way to it. -/
structure Logged (α : Type u) where
  /-- The records in the order in which they were made. -/
  log : Array Record
  /-- The result. -/
  result : α

end Acceptor
