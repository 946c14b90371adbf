import Acceptor.Proofs.Regex.Matching

/-!
# Regular expressions without useless states

Every construction that translates a pattern makes trim automata of trim ones,
and determinization keeps them trim.  So no state of a regular expression is
useless: each can be reached, and from each the rest of some match can be read.
Matching fails at the first code unit after which no match is possible any
more, and no regular expression is without a match.
-/

namespace Acceptor.Regex

section Compiled

variable {text : String} {pattern : Pattern}
  (spelled : Text.units text = Pattern.units pattern)
  (short : 4 * (Text.units text).length + 1 < 2 ^ 32)
  (fit : ∀ nfa, Pattern.toAutomaton pattern = .ok nfa → nfa.CompositesFit)

include spelled short fit

/-- A text that spells a pattern is compiled to the composite states of its automaton. -/
theorem exists_compile_subsets :
    ∃ nfa regex composites,
      Pattern.Realizes nfa (Pattern.stateCount pattern) (Pattern.language pattern) ∧
      compile text = .ok regex ∧ nfa.Subsets regex.automaton composites := by
  rw [spelled] at short
  rcases Pattern.yields_of_short pattern short with ⟨nfa, translated, realizes⟩
  rcases Automaton.exists_subsets (fit nfa translated) with
    ⟨dfa, composites, determinized, subsets⟩
  have compiled : Pattern.compile (Text.units text) = .ok nfa := by
    rw [spelled, Pattern.compile_units_eq_ok_iff]
    exact translated
  exact ⟨nfa, _, composites, realizes, compile_eq_of_determinize compiled determinized, subsets⟩

/--
The automaton of a regular expression is trim.  It accepts some word, and it
has a path for a word exactly when some accepted word begins with it.
-/
theorem exists_compile_trim :
    ∃ regex, compile text = .ok regex ∧ regex.automaton.Trim ∧
      regex.automaton.isEmpty = false ∧
      ∀ word, (∃ state, regex.automaton.Path regex.automaton.initial word state) ↔
        ∃ rest, regex.automaton.accepts (word ++ rest) = true := by
  rcases exists_compile_subsets spelled short fit with
    ⟨nfa, regex, composites, realizes, compiled, subsets⟩
  have trim := subsets.trim realizes.wellFormed realizes.trim
  exact ⟨regex, compiled, trim, trim.isEmpty_eq_false subsets.wellFormed,
    fun word => trim.exists_path_iff subsets.wellFormed⟩

end Compiled

theorem exists_compile_trim_letters :
    Text.units "(a|b)*c" = Pattern.units letters ∧
      4 * (Text.units "(a|b)*c").length + 1 < 2 ^ 32 ∧
      (∀ nfa, Pattern.toAutomaton letters = .ok nfa → nfa.CompositesFit) ∧
      ∃ regex, compile "(a|b)*c" = .ok regex ∧ regex.automaton.Trim ∧
        regex.automaton.isEmpty = false ∧
        ∀ word, (∃ state, regex.automaton.Path regex.automaton.initial word state) ↔
          ∃ rest, regex.automaton.accepts (word ++ rest) = true :=
  ⟨units_letters, by decide, fit_letters,
    exists_compile_trim units_letters (by decide) fit_letters⟩

end Acceptor.Regex
