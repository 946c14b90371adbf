import Acceptor.Automaton.Checked
import Acceptor.Pattern.Assembly

/-!
# Assembling with checked sums

The single pass over a pattern, made with the constructions that check their
sums.  It fails for the same reasons, but gives up where a sum of numbers of
states is too large.
-/

namespace Acceptor.Pattern

/-- The constructions that check their sums. -/
def Constructions.checked : Constructions (Checked RegexError) where
  emptyInput := liftExcept Constructions.plain.emptyInput
  leaf leaf := liftExcept (Constructions.plain.leaf leaf)
  concatenation first second := (first.concatenation? second).adapt .automaton
  union first second := (first.union? second).adapt .automaton
  star body := body.star?.adapt .automaton

/-- Compile the pattern that code units spell in a single pass that checks its sums. -/
def assemble? (units : List CodeUnit) : Option (Except RegexError (Automaton CodeUnit)) :=
  (Assembly.ofUnits .checked units).run

end Acceptor.Pattern
