import Acceptor.Proofs.Acceptance.Alphabet
import Acceptor.Proofs.Pattern.Letters
import Acceptor.Proofs.Regex.Trim

/-!
# The alphabet of a regular expression

The automaton of a regular expression is trim, so its alphabet consists of the
code units that occur in matching words.  These are the literals of the
pattern, or every code unit if the pattern contains the sign that stands for
any of them.  Neither determinization nor any construction before it drops or
invents a label.
-/

namespace Acceptor.Regex

section Compiled

variable {text : String} {pattern : Pattern}
  (spelled : Text.units text = Pattern.units pattern)
  (short : 4 * (Text.units text).length + 1 < 2 ^ 32)
  (fit : ∀ nfa, Pattern.toAutomaton pattern = .ok nfa → nfa.CompositesFit)

include spelled short fit

/--
The alphabet of a regular expression lists the literals of its text, each once,
or all code units if the text contains a dot.  A word with any other code unit
is rejected.
-/
theorem exists_compile_alphabet :
    ∃ regex, compile text = .ok regex ∧
      (Pattern.Leaf.any.unit ∉ Text.units text →
        ∀ unit, unit ∈ regex.automaton.alphabet ↔
          unit ∈ Text.units text ∧ unit ∉ Pattern.specialUnits) ∧
      (Pattern.Leaf.any.unit ∈ Text.units text →
        ∀ unit, unit ∈ regex.automaton.alphabet) ∧
      regex.automaton.alphabet.toList.Nodup ∧
      ∀ word, (∃ unit ∈ word, unit ∉ regex.automaton.alphabet) →
        regex.automaton.accepts word = false := by
  rcases exists_compile_subsets spelled short fit with
    ⟨nfa, regex, composites, realizes, compiled, subsets⟩
  have trim := subsets.trim realizes.wellFormed realizes.trim
  have occurs : ∀ unit, unit ∈ regex.automaton.alphabet ↔
      Pattern.Leaf.any.unit ∈ Text.units text ∨
        unit ∈ Text.units text ∧ unit ∉ Pattern.specialUnits := by
    intro unit
    rw [spelled, Pattern.units, ← Pattern.mem_lettersOf_iff,
      ← (Pattern.writtenWith pattern).occurs_iff, trim.mem_alphabet_iff subsets.wellFormed]
    simp only [subsets.accepts_eq, realizes.accepts_iff]
  refine ⟨regex, compiled, ?_, ?_, regex.automaton.alphabet.nodup_toList, ?_⟩
  · exact fun dotless unit => (occurs unit).trans (or_iff_right dotless)
  · exact fun dot unit => (occurs unit).mpr (Or.inl dot)
  · exact fun word foreign => subsets.wellFormed.accepts_eq_false foreign

end Compiled

theorem exists_compile_alphabet_letters :
    Text.units "(a|b)*c" = Pattern.units letters ∧
      4 * (Text.units "(a|b)*c").length + 1 < 2 ^ 32 ∧
      (∀ nfa, Pattern.toAutomaton letters = .ok nfa → nfa.CompositesFit) ∧
      ∃ regex, compile "(a|b)*c" = .ok regex ∧
        (∀ unit, unit ∈ regex.automaton.alphabet ↔ unit ∈ [0x61, 0x62, 0x63]) ∧
        regex.automaton.alphabet.toList.Nodup := by
  rcases exists_compile_alphabet units_letters (by decide) fit_letters with
    ⟨regex, compiled, dotless, _, distinct, _⟩
  have literals : (Text.units "(a|b)*c").filter (· ∉ Pattern.specialUnits) =
      [0x61, 0x62, 0x63] := by
    decide
  refine ⟨units_letters, by decide, fit_letters, regex, compiled, fun unit => ?_, distinct⟩
  rw [dotless (by decide), ← literals, List.mem_filter, decide_eq_true_iff]

end Acceptor.Regex
