import Acceptor.Automaton.Determinization
import Acceptor.Pattern.Compilation
import Acceptor.Text.Utf16

/-!
# Regular expressions

A regular expression is a pattern together with the deterministic automaton
that decides which texts match it.  The automaton is made once, when the
pattern is compiled, and reads the 16-bit code units of a text.  A text
matches only as a whole.
-/

namespace Acceptor

/-- A compiled pattern. -/
structure Regex where
  /-- The pattern as it was written. -/
  pattern : String
  /-- The deterministic automaton of the pattern. -/
  automaton : Automaton CodeUnit

namespace Regex

/--
What becomes of a pattern that has been compiled into an automaton, or could
not be: the automaton is made deterministic, if this needs no more states than
the limit allows.
-/
def ofCompiled
    (pattern : String)
    (limit : Option Nat)
    (compiled : Except RegexError (Automaton CodeUnit)) :
    Logged (Except RegexError Regex) :=
  match compiled with
  | .error cause => { log := #[], result := .error cause }
  | .ok automaton =>
      let determinized := automaton.determinizeWithLimit limit
      match determinized.result with
      | .error cause =>
          { log := determinized.log, result := .error (.ofDeterminizeError cause) }
      | .ok deterministic =>
          { log := determinized.log.push
              (.compiled pattern automaton.numStates deterministic.numStates)
            result := .ok { pattern, automaton := deterministic } }

/-- Compile a pattern, if its deterministic automaton needs no more states than the limit allows. -/
def compileWithLimit (pattern : String) (limit : Option Nat) :
    Logged (Except RegexError Regex) :=
  ofCompiled pattern limit (Pattern.compile (Text.units pattern))

/-- Compile a pattern, however many states its deterministic automaton needs. -/
def compile (pattern : String) : Except RegexError Regex :=
  (compileWithLimit pattern none).result

/-- Whether a text as a whole is in the language of the pattern. -/
def isMatch (regex : Regex) (text : String) : Bool :=
  regex.automaton.accepts (Text.units text)

/-! ## How far a text comes -/

section

variable {text : String} {limit : Option Nat}

/-- What cannot be translated is not determinized. -/
theorem compileWithLimit_of_error
    {cause : RegexError}
    (failed : Pattern.compile (Text.units text) = .error cause) :
    compileWithLimit text limit = { log := #[], result := .error cause } := by
  rw [compileWithLimit, failed, ofCompiled]

variable {nfa : Automaton CodeUnit} (compiled : Pattern.compile (Text.units text) = .ok nfa)

include compiled

/-- What cannot be determinized is reported as far as it has come. -/
theorem compileWithLimit_of_determinize_error
    {cause : DeterminizeError}
    (failed : (nfa.determinizeWithLimit limit).result = .error cause) :
    compileWithLimit text limit =
      { log := (nfa.determinizeWithLimit limit).log
        result := .error (.ofDeterminizeError cause) } := by
  rw [compileWithLimit, compiled]
  simp only [ofCompiled, failed]

/-- The last record is that of the compilation. -/
theorem compileWithLimit_of_determinize_ok
    {dfa : Automaton CodeUnit}
    (determinized : (nfa.determinizeWithLimit limit).result = .ok dfa) :
    compileWithLimit text limit =
      { log := (nfa.determinizeWithLimit limit).log.push
          (.compiled text nfa.numStates dfa.numStates)
        result := .ok { pattern := text, automaton := dfa } } := by
  rw [compileWithLimit, compiled]
  simp only [ofCompiled, determinized]

end

end Regex

end Acceptor
