import Acceptor.Proofs.Pattern.Translation
import Acceptor.Proofs.Pattern.Violation
import Acceptor.Regex

/-!
# Which patterns are rejected

A text that is not too long fails to compile only because it violates the
grammar, and the error is that of the first violation.  Determinization never
makes up such an error, so that regular expressions are rejected for the same
reason.
-/

namespace Acceptor.Pattern

/-- Translation does not fail for code units that are not too many. -/
theorem compile_eq_ok_of_parse
    {units : List CodeUnit}
    (short : 4 * units.length + 1 < 2 ^ 32)
    {pattern : Pattern}
    (read : parse units = .ok pattern) :
    ∃ automaton, compile units = .ok automaton := by
  rw [← parse_eq_ok_iff.mp read] at short
  rcases yields_of_short pattern short with ⟨automaton, translated, _⟩
  refine ⟨automaton, ?_⟩
  rw [compile, read]
  simp only [translated]
  rfl

theorem compile_eq_error_of_parse
    {units : List CodeUnit}
    {cause : SyntaxError}
    (read : parse units = .error cause) :
    compile units = .error (.malformed cause) := by
  rw [compile, read]

theorem compile_eq_error_iff
    {units : List CodeUnit}
    (short : 4 * units.length + 1 < 2 ^ 32)
    {error : RegexError} :
    compile units = .error error ↔
      ∃ cause, error = .malformed cause ∧ parse units = .error cause := by
  cases read : parse units with
  | error cause =>
      rw [compile_eq_error_of_parse read]
      simp [eq_comm]
  | ok pattern =>
      rcases compile_eq_ok_of_parse short read with ⟨automaton, compiled⟩
      rw [compiled]
      simp

theorem exists_compile_eq_ok_iff
    {units : List CodeUnit}
    (short : 4 * units.length + 1 < 2 ^ 32) :
    (∃ automaton, compile units = .ok automaton) ↔
      ∀ place cause, ¬ Violation units place cause := by
  rw [← exists_parse_eq_ok_iff]
  constructor
  · rintro ⟨automaton, compiled⟩
    cases read : parse units with
    | error cause =>
        rw [compile_eq_error_of_parse read] at compiled
        cases compiled
    | ok pattern => exact ⟨pattern, rfl⟩
  · rintro ⟨pattern, read⟩
    exact compile_eq_ok_of_parse short read

end Acceptor.Pattern

namespace Acceptor.Regex

/-- A regular expression is malformed when its pattern is. -/
theorem compile_eq_malformed_iff {text : String} {cause : SyntaxError} :
    compile text = .error (.malformed cause) ↔
      Pattern.compile (Text.units text) = .error (.malformed cause) := by
  cases compiled : Pattern.compile (Text.units text) with
  | error other => simp [compile, compileWithLimit_of_error compiled]
  | ok automaton =>
      cases determinized : (automaton.determinizeWithLimit none).result with
      | error other =>
          rw [compile, compileWithLimit_of_determinize_error compiled determinized]
          cases other <;> simp [RegexError.ofDeterminizeError]
      | ok deterministic =>
          simp [compile, compileWithLimit_of_determinize_ok compiled determinized]

/--
Compiling reports the first violation of the grammar and fails for no other
reason, and what it reports lies in the pattern.
-/
theorem compile_reports_first_violation
    {units : List CodeUnit}
    (short : 4 * units.length + 1 < 2 ^ 32) :
    (∀ cause, Pattern.compile units = .error (.malformed cause) ↔
        ∃ place, Pattern.FirstViolation units place cause) ∧
      (∀ text, Text.units text = units → ∀ cause,
        compile text = .error (.malformed cause) ↔
          ∃ place, Pattern.FirstViolation units place cause) ∧
      ((∃ automaton, Pattern.compile units = .ok automaton) ↔
        ∀ place cause, ¬ Pattern.Violation units place cause) ∧
      ∀ error, Pattern.compile units = .error error →
        ∃ cause, error = .malformed cause ∧ cause.index < units.length := by
  have reported : ∀ cause, Pattern.compile units = .error (.malformed cause) ↔
      ∃ place, Pattern.FirstViolation units place cause := by
    intro cause
    rw [← Pattern.parse_eq_error_iff_firstViolation, Pattern.compile_eq_error_iff short]
    simp
  refine ⟨reported, ?_, Pattern.exists_compile_eq_ok_iff short, ?_⟩
  · rintro text rfl cause
    rw [compile_eq_malformed_iff, reported]
  · intro error failed
    rcases (Pattern.compile_eq_error_iff short).mp failed with ⟨cause, rfl, read⟩
    rcases Pattern.parse_eq_error_iff_firstViolation.mp read with ⟨place, first⟩
    exact ⟨cause, rfl, first.violation.index_lt⟩

theorem first_violation_of_nested_group :
    4 * (Text.units "a(*|b(").length + 1 < 2 ^ 32 ∧
      ∃ place, Pattern.FirstViolation (Text.units "a(*|b(") place (.strayOpeningGroup 5) :=
  ⟨by decide, ((compile_reports_first_violation (by decide)).1 _).mp (by decide)⟩

end Acceptor.Regex
