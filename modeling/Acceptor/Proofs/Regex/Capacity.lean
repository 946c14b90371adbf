import Acceptor.Proofs.Constructions
import Acceptor.Proofs.Pattern.Assembly
import Acceptor.Proofs.Pattern.Sums
import Acceptor.Proofs.Regex.Matching
import Acceptor.Proofs.Regex.Rejection

/-!
# How many states a pattern needs

The automaton of a pattern has a number of states that is read off the text:
four for each leaf, two for each star and three for each empty branch, and two
fewer altogether.  Since this is little more than four for each code unit, a
text that is not too long never leads to a sum of numbers of states that is too
large, and compiling it fails for no other reason than that it is malformed.
-/

namespace Acceptor.Pattern

/-- What a text is assembled into weighs what its code units weigh. -/
theorem weightFrom_units (units : List CodeUnit) :
    weightFrom true (units.map Sign.ofUnit) =
      4 * leafCount units + 2 * starCount units + 3 * emptyBranchCount units := by
  have spelled : (units.map Sign.ofUnit).map Sign.unit = units := by
    simp [Function.comp_def]
  rw [weightFrom_eq, spelled, emptyBranchCount_eq]

/-- A text weighs at most four for each code unit, and three more. -/
theorem weightFrom_units_le (units : List CodeUnit) :
    weightFrom true (units.map Sign.ofUnit) ≤ 4 * units.length + 3 := by
  have bound := weightFrom_le true (units.map Sign.ofUnit)
  rw [List.length_map] at bound
  exact bound

theorem room_of_short
    {units : List CodeUnit}
    (short : 4 * units.length + 1 < 2 ^ 32) :
    weightFrom true (units.map Sign.ofUnit) < 2 ^ 32 + 2 := by
  have bound := weightFrom_units_le units
  omega

/-- The automaton of a pattern has the states that its code units call for. -/
theorem exists_compile_counted
    {pattern : Pattern}
    {text : List CodeUnit}
    (spelled : units pattern = text)
    (short : 4 * text.length + 1 < 2 ^ 32) :
    ∃ nfa, compile text = .ok nfa ∧ assemble text = .ok nfa ∧
      nfa.numStates.toNat + 2 =
        4 * leafCount text + 2 * starCount text + 3 * emptyBranchCount text ∧
      nfa.numStates.toNat ≤ 4 * text.length + 1 := by
  rcases compile_eq_ok_of_parse short (parse_eq_ok_iff.mpr spelled) with ⟨nfa, compiled⟩
  have assembled : assemble text = .ok nfa := (assemble_eq_compile short).trans compiled
  have weight : nfa.weight = weightFrom true (text.map Sign.ofUnit) := by
    rcases (assemble_cases (room_of_short short)).2 with ⟨cause, failed⟩ | ⟨other, made, weight⟩
    · rw [failed] at assembled
      cases assembled
    · rw [made] at assembled
      cases assembled
      exact weight
  have bound := weightFrom_units_le text
  refine ⟨nfa, compiled, assembled, ?_, ?_⟩
  · rw [← weightFrom_units, ← weight, Automaton.weight]
  · rw [← weight, Automaton.weight] at bound
    exact Nat.le_of_add_le_add_right bound

/-- Compiling never fails for want of numbers for states. -/
theorem compile_ne_automaton
    {text : List CodeUnit}
    (short : 4 * text.length + 1 < 2 ^ 32)
    (cause : AutomatonError) :
    compile text ≠ .error (.automaton cause) := by
  intro failed
  rcases (compile_eq_error_iff short).mp failed with ⟨_, same, _⟩
  cases same

end Acceptor.Pattern

namespace Acceptor.Regex

theorem compile_ne_automaton
    {text : String}
    (short : 4 * (Text.units text).length + 1 < 2 ^ 32)
    (fit : ∀ nfa, Pattern.compile (Text.units text) = .ok nfa → nfa.CompositesFit)
    (cause : AutomatonError) :
    compile text ≠ .error (.automaton cause) := by
  cases compiled : Pattern.compile (Text.units text) with
  | error error =>
      rw [compile, compileWithLimit_of_error compiled]
      intro failed
      cases failed
      exact Pattern.compile_ne_automaton short cause compiled
  | ok nfa =>
      rcases Automaton.exists_subsets (fit nfa compiled) with ⟨dfa, _, determinized, _⟩
      rw [compile_eq_of_determinize compiled determinized]
      exact fun failed => by cases failed

/--
The states of a pattern are counted in its text, and a text that is not too
long, whether or not it spells a pattern, neither makes a construction form a
sum that is too large nor makes one fail.
-/
theorem compile_capacity
    {units : List CodeUnit}
    (short : 4 * units.length + 1 < 2 ^ 32) :
    (∀ pattern, Pattern.units pattern = units →
      ∃ nfa, Pattern.compile units = .ok nfa ∧ Pattern.assemble units = .ok nfa ∧
        nfa.numStates.toNat + 2 =
          4 * Pattern.leafCount units + 2 * Pattern.starCount units +
            3 * Pattern.emptyBranchCount units ∧
        nfa.numStates.toNat ≤ 4 * units.length + 1) ∧
    Pattern.assemble? units = some (Pattern.assemble units) ∧
    (∀ cause, Pattern.assemble units ≠ .error (.automaton cause)) ∧
    (∀ cause, Pattern.compile units ≠ .error (.automaton cause)) ∧
    ∀ text, Text.units text = units →
      (∀ nfa, Pattern.compile units = .ok nfa → nfa.CompositesFit) →
        ∀ cause, compile text ≠ .error (.automaton cause) := by
  refine ⟨fun pattern spelled => Pattern.exists_compile_counted spelled short,
    (Pattern.assemble_cases (Pattern.room_of_short short)).1, ?_,
    Pattern.compile_ne_automaton short, ?_⟩
  · rw [Pattern.assemble_eq_compile short]
    exact Pattern.compile_ne_automaton short
  · rintro text rfl fit
    exact compile_ne_automaton short fit

/-- The text `(x|.)*y|` has three leaves, one star and an empty branch at its end. -/
theorem compile_capacity_choices :
    4 * (Pattern.units Pattern.choices).length + 1 < 2 ^ 32 ∧
      ∃ nfa, Pattern.compile (Pattern.units Pattern.choices) = .ok nfa ∧
        Pattern.assemble? (Pattern.units Pattern.choices) = some (.ok nfa) ∧
        nfa.numStates.toNat = 15 ∧
        ∀ cause, compile "(x|.)*y|" ≠ .error (.automaton cause) := by
  have short : 4 * (Pattern.units Pattern.choices).length + 1 < 2 ^ 32 := by decide
  have features : Pattern.leafCount (Pattern.units Pattern.choices) = 3 ∧
      Pattern.starCount (Pattern.units Pattern.choices) = 1 ∧
      Pattern.emptyBranchCount (Pattern.units Pattern.choices) = 1 := by decide
  rcases compile_capacity short with ⟨counted, checked, _, _, sound⟩
  rcases counted Pattern.choices rfl with ⟨nfa, compiled, assembled, count, _⟩
  rw [features.1, features.2.1, features.2.2] at count
  rw [assembled] at checked
  refine ⟨short, nfa, compiled, checked, by omega, sound "(x|.)*y|" (by decide) ?_⟩
  intro other same
  rw [compiled] at same
  cases same
  exact (Pattern.wellFormed_of_compile compiled).compositesFit (by omega)

end Acceptor.Regex
