import Acceptor.StateSet.Basic

/-!
# What can go wrong

Each error names its cause; the wording shown to a reader is produced in one
place per type.  Errors of a lower layer keep their wording when a higher
layer reports them.
-/

namespace Acceptor

/-- What can be wrong with an automaton under construction. -/
inductive AutomatonError where
  /-- A state was mentioned that does not belong to the declared universe. -/
  | stateNotInUniverse (state numStates : State)
  deriving DecidableEq, Repr

/-- What can prevent determinization. -/
inductive DeterminizeError where
  /-- The deterministic automaton could not be assembled. -/
  | automaton (cause : AutomatonError)
  /-- More states would be needed than the limit allows. -/
  | stateLimitExceeded (limit : Nat)
  deriving DecidableEq, Repr

/-- What can be wrong with a pattern, and at which of its code units it shows. -/
inductive SyntaxError where
  /-- A group is opened and no parenthesis follows. -/
  | unmatchedGroup (index : Nat)
  /-- A group is closed that was not opened. -/
  | strayClosingGroup (index : Nat)
  /-- A group is opened inside a group. -/
  | strayOpeningGroup (index : Nat)
  /-- A star stands where a branch begins. -/
  | nothingToRepeat (index : Nat)
  /-- A star follows a star. -/
  | notQuantifiable (index : Nat)
  deriving DecidableEq, Repr

/-- What can prevent a pattern from becoming a regular expression. -/
inductive RegexError where
  /-- The pattern does not follow the grammar. -/
  | malformed (cause : SyntaxError)
  /-- The deterministic automaton would need more states than the limit allows. -/
  | tooManyStates (limit : Nat)
  /-- An automaton could not be assembled. -/
  | automaton (cause : AutomatonError)
  deriving DecidableEq, Repr

namespace AutomatonError

/-- The wording of an error. -/
def message : AutomatonError → String
  | stateNotInUniverse state numStates =>
      s!"State {state} not in universe of {numStates} states"

end AutomatonError

namespace DeterminizeError

/-- The wording of an error. -/
def message : DeterminizeError → String
  | automaton cause => cause.message
  | stateLimitExceeded limit => s!"determinized automaton exceeds {limit} states"

end DeterminizeError

namespace SyntaxError

/-- The code unit at which the error shows. -/
def index : SyntaxError → Nat
  | unmatchedGroup index => index
  | strayClosingGroup index => index
  | strayOpeningGroup index => index
  | nothingToRepeat index => index
  | notQuantifiable index => index

/-- The wording of an error. -/
def message : SyntaxError → String
  | unmatchedGroup index => s!"No matching group close for index {index}"
  | strayClosingGroup index => s!"Stray closing group at index {index}"
  | strayOpeningGroup index => s!"Stray opening group at index {index}"
  | nothingToRepeat index => s!"No expression preceeds Kleene star at index {index}"
  | notQuantifiable index =>
      s!"Non-quantifiable expression preceeding Kleene star at index {index}"

end SyntaxError

namespace RegexError

/-- The code unit of the pattern at which the error shows, when it lies in the pattern. -/
def index? : RegexError → Option Nat
  | malformed cause => some cause.index
  | tooManyStates _ => none
  | automaton _ => none

/-- The wording of an error. -/
def message : RegexError → String
  | malformed cause => cause.message
  | tooManyStates limit => s!"determinized automaton exceeds {limit} states"
  | automaton cause => cause.message

/-- An error of determinization, as an error of the regular expression it was done for. -/
def ofDeterminizeError : DeterminizeError → RegexError
  | .automaton cause => automaton cause
  | .stateLimitExceeded limit => tooManyStates limit

instance : Coe AutomatonError DeterminizeError := ⟨.automaton⟩

instance : Coe AutomatonError RegexError := ⟨.automaton⟩

instance : Coe SyntaxError RegexError := ⟨.malformed⟩

instance : Coe DeterminizeError RegexError := ⟨ofDeterminizeError⟩

/-- Reporting an error through determinization does not change its wording. -/
@[simp]
theorem message_ofDeterminizeError (error : DeterminizeError) :
    (ofDeterminizeError error).message = error.message := by
  cases error <;> rfl

/-- An error of assembly is the same whether or not it passes through determinization. -/
@[simp]
theorem ofDeterminizeError_automaton (cause : AutomatonError) :
    ofDeterminizeError (.automaton cause) = .automaton cause := rfl

end RegexError

end Acceptor
