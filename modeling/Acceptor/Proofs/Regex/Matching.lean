import Acceptor.Pattern.RoundTrip
import Acceptor.Proofs.Determinization.Subsets
import Acceptor.Proofs.Pattern.Assembly
import Acceptor.Regex

/-!
# What regular expressions match

Compiling a text that spells a pattern succeeds as long as the states of both
automata can be numbered.  The regular expression that results matches exactly
the texts whose code units, all of them, are in the language of the pattern.

What is compiled is the tree of the pattern.  A single pass over the text leads
to the same regular expression or error, and to the same records.
-/

namespace Acceptor.Regex

theorem compile_eq_of_determinize
    {text : String}
    {nondeterministic deterministic : Automaton CodeUnit}
    (compiled : Pattern.compile (Text.units text) = .ok nondeterministic)
    (determinized : nondeterministic.determinize = .ok deterministic) :
    compile text = .ok { pattern := text, automaton := deterministic } := by
  rw [compile, compileWithLimit_of_determinize_ok compiled determinized]

/-- It makes no difference if a text is compiled in a single pass. -/
theorem compileWithLimit_eq_ofCompiled_assemble
    {text : String}
    (short : 4 * (Text.units text).length + 1 < 2 ^ 32)
    (limit : Option Nat) :
    compileWithLimit text limit = ofCompiled text limit (Pattern.assemble (Text.units text)) := by
  rw [compileWithLimit, Pattern.assemble_eq_compile short]

/-- A text that spells a pattern becomes the regular expression for its language. -/
theorem exists_compile_matching
    {text : String}
    {pattern : Pattern}
    (spelled : Text.units text = Pattern.units pattern)
    (short : 4 * (Text.units text).length + 1 < 2 ^ 32)
    (fit : ∀ nfa, Pattern.toAutomaton pattern = .ok nfa → nfa.CompositesFit) :
    ∃ regex, compile text = .ok regex ∧
      (∀ word, regex.automaton.accepts word = true ↔ word ∈ Pattern.language pattern) ∧
      ∀ subject, regex.isMatch subject = true ↔
        Text.units subject ∈ Pattern.language pattern := by
  rw [spelled] at short
  rcases Pattern.yields_of_short pattern short with ⟨nfa, translated, realizes⟩
  rcases Automaton.exists_subsets (fit nfa translated) with
    ⟨dfa, composites, determinized, subsets⟩
  have compiled : Pattern.compile (Text.units text) = .ok nfa := by
    rw [Pattern.compile, Pattern.parse_eq_ok_iff.mpr spelled.symm]
    simp only [translated]
    rfl
  have accepted : ∀ word, dfa.accepts word = true ↔ word ∈ Pattern.language pattern := by
    intro word
    rw [subsets.accepts_eq, ← realizes.language]
    exact Iff.rfl
  exact ⟨_, compile_eq_of_determinize compiled determinized, accepted,
    fun subject => accepted (Text.units subject)⟩

/-- Any number of the letters a and b, and the letter c after them. -/
def letters : Pattern where
  first :=
    [{ atom := .group
        { first := [{ atom := .literal 0x61 (by decide), starred := false }]
          rest := [[{ atom := .literal 0x62 (by decide), starred := false }]] }
       starred := true },
     { atom := .leaf (.literal 0x63 (by decide)), starred := false }]
  rest := []

theorem units_letters : Text.units "(a|b)*c" = Pattern.units letters := by
  decide

theorem fit_letters (nfa : Automaton CodeUnit)
    (translated : Pattern.toAutomaton letters = .ok nfa) :
    nfa.CompositesFit := by
  rcases Pattern.yields letters (by decide) with ⟨automaton, made, realizes⟩
  rw [made] at translated
  cases translated
  exact realizes.wellFormed.compositesFit (realizes.numStates ▸ by decide)

theorem exists_compile_matching_letters :
    Text.units "(a|b)*c" = Pattern.units letters ∧
      4 * (Text.units "(a|b)*c").length + 1 < 2 ^ 32 ∧
      (∀ nfa, Pattern.toAutomaton letters = .ok nfa → nfa.CompositesFit) ∧
      ∃ regex, compile "(a|b)*c" = .ok regex ∧
        (∀ word, regex.automaton.accepts word = true ↔ word ∈ Pattern.language letters) ∧
        ∀ subject, regex.isMatch subject = true ↔
          Text.units subject ∈ Pattern.language letters :=
  ⟨units_letters, by decide, fit_letters,
    exists_compile_matching units_letters (by decide) fit_letters⟩

end Acceptor.Regex
