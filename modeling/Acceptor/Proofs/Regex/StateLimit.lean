import Acceptor.Proofs.Determinization.Limits
import Acceptor.Proofs.Regex.Matching
import Acceptor.Proofs.Regex.Rejection

/-!
# Compiling under a state limit

A limit on the states of the deterministic automaton is looked at only after
the pattern has been read.  A text that spells no pattern is rejected for the
same reason under every limit, and nothing is reported.  For any other text the
limit either makes no difference at all or is exceeded; then it is named in the
error, and what has been reported are the composite states that it allows.
-/

namespace Acceptor.Pattern

/-- A text that spells no pattern is malformed. -/
theorem exists_parse_eq_error
    {units : List CodeUnit}
    (unspelled : ∀ pattern, Pattern.units pattern ≠ units) :
    ∃ cause, parse units = .error cause := by
  cases read : parse units with
  | error cause => exact ⟨cause, rfl⟩
  | ok pattern => exact absurd (units_of_parse read) (unspelled pattern)

end Acceptor.Pattern

namespace Acceptor.Regex

/-- What results depends on the limit only as far as it allows the composite states or not. -/
theorem result_compileWithLimit
    {text : String}
    {nfa : Automaton CodeUnit}
    (compiled : Pattern.compile (Text.units text) = .ok nfa)
    {exploration : Exploration CodeUnit}
    (result : nfa.explored none = .ok exploration)
    (bounded : exploration.composites.size < UInt32.size) :
    compile text = .ok { pattern := text, automaton := exploration.builder.layout } ∧
      ∀ allowed, (compileWithLimit text (some allowed)).result =
        if exploration.composites.size ≤ allowed then
          .ok { pattern := text, automaton := exploration.builder.layout }
        else .error (.tooManyStates allowed) := by
  have unlimited := (Automaton.determinizeWithLimit_none result bounded).1
  constructor
  · exact congrArg Logged.result (compileWithLimit_of_determinize_ok compiled unlimited)
  · intro allowed
    split
    case isTrue few =>
      rw [← Automaton.determinizeWithLimit_of_le result few] at unlimited
      rw [compileWithLimit_of_determinize_ok compiled unlimited]
    case isFalse many =>
      have refused := (Automaton.determinizeWithLimit_of_lt result (Nat.lt_of_not_le many)).1
      rw [compileWithLimit_of_determinize_error compiled refused]
      rfl

/--
A limit changes nothing about a malformed text, refuses a pattern whose
deterministic automaton has more states, and changes nothing otherwise.
-/
theorem compileWithLimit_transparent
    (text : String)
    (short : 4 * (Text.units text).length + 1 < 2 ^ 32)
    (fit : ∀ nfa, Pattern.compile (Text.units text) = .ok nfa → nfa.CompositesFit) :
    ((∀ pattern, Pattern.units pattern ≠ Text.units text) →
      ∃ cause, compile text = .error (.malformed cause) ∧
        ∀ limit, compileWithLimit text limit =
          { log := #[], result := .error (.malformed cause) }) ∧
    ∀ pattern, Pattern.units pattern = Text.units text →
      ∃ nfa regex composites,
        Pattern.compile (Text.units text) = .ok nfa ∧
        compile text = .ok regex ∧ regex.pattern = text ∧
        nfa.Subsets regex.automaton composites ∧
        (∀ limit < regex.automaton.numStates.toNat,
          (compileWithLimit text (some limit)).result = .error (.tooManyStates limit) ∧
          (compileWithLimit text (some limit)).log.toList =
            Exploration.recordsBelow composites limit) ∧
        ∀ limit, (∀ allowed, limit = some allowed →
            regex.automaton.numStates.toNat ≤ allowed) →
          (compileWithLimit text limit).result = .ok regex ∧
          (compileWithLimit text limit).log.toList =
            Exploration.recordsBelow composites regex.automaton.numStates.toNat ++
              [.determinized nfa.numStates regex.automaton.numStates.toNat
                regex.automaton.transitions.length,
               .compiled text nfa.numStates regex.automaton.numStates] := by
  constructor
  · intro unspelled
    rcases Pattern.exists_parse_eq_error unspelled with ⟨cause, read⟩
    have failed := Pattern.compile_eq_error_of_parse read
    refine ⟨cause, ?_, fun limit => compileWithLimit_of_error failed⟩
    rw [compile, compileWithLimit_of_error failed]
  · intro pattern spelled
    rcases Pattern.compile_eq_ok_of_parse short (Pattern.parse_eq_ok_iff.mpr spelled) with
      ⟨nfa, compiled⟩
    rcases nfa.exists_explored with ⟨exploration, result, explored⟩
    have bounded : exploration.composites.size < UInt32.size := fit nfa compiled exploration result
    have subsets := Exploration.subsets_layout explored bounded
    rcases Automaton.determinizeWithLimit_none result bounded with ⟨unlimited, log⟩
    have whole := compileWithLimit_of_determinize_ok compiled unlimited
    refine ⟨nfa, _, exploration.composites, compiled, congrArg Logged.result whole, rfl,
      subsets, ?_, ?_⟩
    · intro limit many
      rw [subsets.numStates] at many
      rcases Automaton.determinizeWithLimit_of_lt result many with ⟨refused, reported⟩
      rw [compileWithLimit_of_determinize_error compiled refused]
      exact ⟨rfl, reported⟩
    · intro limit room
      have same : nfa.determinizeWithLimit limit = nfa.determinizeWithLimit none := by
        cases limit with
        | none => rfl
        | some allowed =>
            have few := room allowed rfl
            rw [subsets.numStates] at few
            exact Automaton.determinizeWithLimit_of_le result few
      rw [← same] at unlimited log
      rw [compileWithLimit_of_determinize_ok compiled unlimited]
      refine ⟨rfl, ?_⟩
      rw [Array.toList_push, log, subsets.numStates, List.append_assoc]
      rfl

theorem fit_compile_letters (nfa : Automaton CodeUnit)
    (compiled : Pattern.compile (Text.units "(a|b)*c") = .ok nfa) :
    nfa.CompositesFit := by
  rw [units_letters, Pattern.compile_units_eq_ok_iff] at compiled
  exact fit_letters nfa compiled

theorem compileWithLimit_transparent_letters :
    4 * (Text.units "(a|b)*c").length + 1 < 2 ^ 32 ∧
      (∀ nfa, Pattern.compile (Text.units "(a|b)*c") = .ok nfa → nfa.CompositesFit) ∧
      ∃ regex, compile "(a|b)*c" = .ok regex ∧
        (∀ limit < regex.automaton.numStates.toNat,
          (compileWithLimit "(a|b)*c" (some limit)).result = .error (.tooManyStates limit)) ∧
        ∀ limit, regex.automaton.numStates.toNat ≤ limit →
          (compileWithLimit "(a|b)*c" (some limit)).result = .ok regex := by
  refine ⟨by decide, fit_compile_letters, ?_⟩
  rcases (compileWithLimit_transparent "(a|b)*c" (by decide) fit_compile_letters).2
    letters units_letters.symm with ⟨_, regex, _, _, compiled, _, _, refused, accepted⟩
  refine ⟨regex, compiled, fun limit many => (refused limit many).1, fun limit few => ?_⟩
  exact (accepted (some limit) fun allowed same => Option.some.inj same ▸ few).1

end Acceptor.Regex
