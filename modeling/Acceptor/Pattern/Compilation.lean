import Acceptor.Automaton.Combinators
import Acceptor.Pattern.Parser

/-!
# From patterns to automata

A pattern becomes an automaton by the structure of the pattern: a leaf by the
automaton for one unit, a group by what it encloses, a star by repetition, the
items of a branch by concatenation and the branches of an alternation by union,
both from left to right.  A branch without items becomes the automaton for the
empty word.
-/

namespace Acceptor.Pattern

/-- The automaton of a leaf. -/
def Leaf.automaton : Leaf → Except AutomatonError (Automaton CodeUnit)
  | any => Automaton.allSymbols
  | literal unit _ => Automaton.singleSymbol unit

section

variable {α : Type} (atomAutomaton : α → Except AutomatonError (Automaton CodeUnit))

/-- The automaton of an item, given those of atoms. -/
def Item.automaton (item : Item α) : Except AutomatonError (Automaton CodeUnit) := do
  let atom ← atomAutomaton item.atom
  if item.starred then atom.star else pure atom

/-- The automaton of a branch, given those of atoms. -/
def Branch.automaton : Branch α → Except AutomatonError (Automaton CodeUnit)
  | [] => Automaton.emptyInput
  | item :: rest => do
      let first ← item.automaton atomAutomaton
      rest.foldlM (fun before item => do
        before.concatenation (← item.automaton atomAutomaton)) first

/-- The automaton of an alternation, given those of atoms. -/
def Alternation.automaton (alternation : Alternation α) :
    Except AutomatonError (Automaton CodeUnit) := do
  let first ← Branch.automaton atomAutomaton alternation.first
  alternation.rest.foldlM (fun before branch => do
    before.union (← Branch.automaton atomAutomaton branch)) first

end

/-- The automaton of an atom. -/
def Atom.automaton : Atom → Except AutomatonError (Automaton CodeUnit)
  | leaf content => content.automaton
  | group body => body.automaton Leaf.automaton

/-- The automaton of a pattern. -/
def toAutomaton (pattern : Pattern) : Except AutomatonError (Automaton CodeUnit) :=
  pattern.automaton Atom.automaton

/-- The automaton of the pattern that code units spell. -/
def compile (units : List CodeUnit) : Except RegexError (Automaton CodeUnit) :=
  match parse units with
  | .error cause => .error (.malformed cause)
  | .ok pattern => (toAutomaton pattern).mapError .automaton

end Acceptor.Pattern
