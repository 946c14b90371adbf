import Acceptor.Pattern.Compilation
import Acceptor.Pattern.RoundTrip
import Acceptor.Proofs.Combinators.Trim
import Acceptor.Proofs.Pattern.Language

/-!
# The automaton of a pattern

As long as the states of the whole can be numbered, every pattern has an
automaton.  It is well formed and trim, has as many states as were counted and
accepts the language that the pattern denotes.  The facts are proved together,
along the structure of the pattern, since each construction needs the number
of states of its operands.
-/

namespace Acceptor.Pattern

open Computability

/-- An automaton is well formed and trim, has a number of states and accepts a language. -/
structure Realizes
    (automaton : Automaton CodeUnit)
    (count : Nat)
    (language : Language CodeUnit) : Prop where
  wellFormed : automaton.WellFormed
  numStates : automaton.numStates.toNat = count
  language : automaton.language = language
  trim : automaton.Trim

theorem Realizes.accepts_iff
    {automaton : Automaton CodeUnit}
    {count : Nat}
    {language : Language CodeUnit}
    (realizes : Realizes automaton count language)
    (word : List CodeUnit) :
    automaton.accepts word = true ↔ word ∈ language := by
  rw [Automaton.accepts_iff_mem_language, realizes.language]

/-- An automaton results, with a number of states and a language. -/
def Yields
    (result : Except AutomatonError (Automaton CodeUnit))
    (count : Nat)
    (language : Language CodeUnit) : Prop :=
  ∃ automaton, result = .ok automaton ∧ Realizes automaton count language

/-! ## The constructions -/

theorem Realizes.star
    {body : Automaton CodeUnit}
    {count : Nat}
    {language : Language CodeUnit}
    (realizes : Realizes body count language)
    (small : count + 2 < 2 ^ 32) :
    Yields body.star (count + 2) language∗ := by
  rcases realizes with ⟨wellFormed, rfl, rfl, trim⟩
  rcases Automaton.exists_star_language wellFormed small with
    ⟨whole, made, formed, numStates, same⟩
  exact ⟨whole, made, formed, numStates, same, trim.star wellFormed small made⟩

section

variable {first second : Automaton CodeUnit} {firstCount secondCount : Nat}
  {firstLanguage secondLanguage : Language CodeUnit}

theorem Realizes.concatenation
    (firstRealizes : Realizes first firstCount firstLanguage)
    (secondRealizes : Realizes second secondCount secondLanguage)
    (small : firstCount + secondCount + 2 < 2 ^ 32) :
    Yields (first.concatenation second) (firstCount + secondCount + 2)
      (firstLanguage * secondLanguage) := by
  rcases firstRealizes with ⟨firstFormed, rfl, rfl, firstTrim⟩
  rcases secondRealizes with ⟨secondFormed, rfl, rfl, secondTrim⟩
  rcases Automaton.exists_concatenation_language firstFormed secondFormed small with
    ⟨whole, made, formed, numStates, same⟩
  have trim := firstTrim.concatenation secondTrim firstFormed secondFormed small made
  exact ⟨whole, made, formed, numStates, same, trim⟩

theorem Realizes.union
    (firstRealizes : Realizes first firstCount firstLanguage)
    (secondRealizes : Realizes second secondCount secondLanguage)
    (small : firstCount + secondCount + 2 < 2 ^ 32) :
    Yields (first.union second) (firstCount + secondCount + 2)
      (firstLanguage + secondLanguage) := by
  rcases firstRealizes with ⟨firstFormed, rfl, rfl, firstTrim⟩
  rcases secondRealizes with ⟨secondFormed, rfl, rfl, secondTrim⟩
  rcases Automaton.exists_union_language firstFormed secondFormed small with
    ⟨whole, made, formed, numStates, same⟩
  have trim := firstTrim.union secondTrim firstFormed secondFormed small made
  exact ⟨whole, made, formed, numStates, same, trim⟩

end

/--
Composing automata one after the other onto a first one adds up their states
and combines their languages, if each single step does so.
-/
theorem yields_foldlM
    {β : Type}
    {step : Automaton CodeUnit → β → Except AutomatonError (Automaton CodeUnit)}
    {count : β → Nat}
    {language : β → Language CodeUnit}
    {combine : Language CodeUnit → Language CodeUnit → Language CodeUnit}
    (stepYields : ∀ before part beforeCount beforeLanguage,
      Realizes before beforeCount beforeLanguage →
      beforeCount + count part + 2 < 2 ^ 32 →
      Yields (step before part) (beforeCount + count part + 2)
        (combine beforeLanguage (language part)))
    {parts : List β}
    {first : Automaton CodeUnit}
    {firstCount : Nat}
    {firstLanguage : Language CodeUnit}
    (realizes : Realizes first firstCount firstLanguage)
    (small : firstCount + (parts.map fun part => count part + 2).sum < 2 ^ 32) :
    Yields (parts.foldlM step first)
      (firstCount + (parts.map fun part => count part + 2).sum)
      ((parts.map language).foldl combine firstLanguage) := by
  induction parts generalizing first firstCount firstLanguage with
  | nil => exact ⟨first, rfl, realizes⟩
  | cons part rest induction =>
      rw [List.map_cons, List.sum_cons] at small ⊢
      rcases stepYields first part firstCount firstLanguage realizes (by omega) with
        ⟨next, made, nextRealizes⟩
      rcases induction nextRealizes (by omega) with ⟨whole, folded, wholeRealizes⟩
      refine ⟨whole, ?_, ?_⟩
      · rw [List.foldlM_cons, made]
        exact folded
      · rw [← Nat.add_assoc, ← Nat.add_assoc]
        exact wholeRealizes

theorem foldl_mul (languages : List (Language CodeUnit)) (first : Language CodeUnit) :
    languages.foldl (fun before next => before * next) first = first * languages.prod := by
  induction languages generalizing first with
  | nil => exact (mul_one first).symm
  | cons next rest induction => rw [List.foldl_cons, induction, List.prod_cons, mul_assoc]

theorem foldl_add (languages : List (Language CodeUnit)) (first : Language CodeUnit) :
    languages.foldl (fun before next => before + next) first = first + languages.sum := by
  induction languages generalizing first with
  | nil => exact (add_zero first).symm
  | cons next rest induction => rw [List.foldl_cons, induction, List.sum_cons, add_assoc]

/-! ## The structure of patterns -/

theorem Leaf.yields (leaf : Leaf) :
    Yields leaf.automaton 2 leaf.language := by
  cases leaf with
  | any =>
      rcases Automaton.exists_allSymbols_language CodeUnit with
        ⟨whole, made, formed, numStates, same⟩
      have some : (Alphabet.symbols : List CodeUnit) ≠ [] :=
        List.ne_nil_of_mem (Alphabet.mem_symbols 0)
      exact ⟨whole, made, formed, numStates, same, Automaton.trim_oneStep some made⟩
  | literal unit ordinary =>
      rcases Automaton.exists_singleSymbol_language unit with
        ⟨whole, made, formed, numStates, same⟩
      have trim := Automaton.trim_oneStep (List.cons_ne_nil unit []) made
      exact ⟨whole, made, formed, numStates, same, trim⟩

section

variable {α : Type} {atomAutomaton : α → Except AutomatonError (Automaton CodeUnit)}
  {atomCount : α → Nat} {atomLanguage : α → Language CodeUnit}
  (atoms : ∀ content, atomCount content < 2 ^ 32 →
    Yields (atomAutomaton content) (atomCount content) (atomLanguage content))

include atoms

theorem Item.yields
    (item : Item α)
    (small : item.stateCount atomCount < 2 ^ 32) :
    Yields (item.automaton atomAutomaton) (item.stateCount atomCount)
      (item.language atomLanguage) := by
  rw [stateCount] at small ⊢
  rw [language, automaton]
  cases starred : item.starred with
  | true =>
      rw [starred] at small
      rcases atoms item.atom (by simp at small; omega) with ⟨body, made, realizes⟩
      rw [made]
      exact realizes.star small
  | false =>
      rw [starred] at small
      rcases atoms item.atom small with ⟨body, made, realizes⟩
      rw [made]
      exact ⟨body, rfl, realizes⟩

theorem Item.step_yields
    (before : Automaton CodeUnit)
    (item : Item α)
    (beforeCount : Nat)
    (beforeLanguage : Language CodeUnit)
    (realizes : Realizes before beforeCount beforeLanguage)
    (small : beforeCount + item.stateCount atomCount + 2 < 2 ^ 32) :
    Yields (do before.concatenation (← item.automaton atomAutomaton))
      (beforeCount + item.stateCount atomCount + 2)
      (beforeLanguage * item.language atomLanguage) := by
  rcases Item.yields atoms item (by omega) with ⟨next, made, nextRealizes⟩
  rw [made]
  exact realizes.concatenation nextRealizes small

theorem Branch.yields
    (branch : Branch α)
    (small : Branch.stateCount atomCount branch < 2 ^ 32) :
    Yields (Branch.automaton atomAutomaton branch) (Branch.stateCount atomCount branch)
      (Branch.language atomLanguage branch) := by
  cases branch with
  | nil =>
      rcases Automaton.exists_emptyInput_language CodeUnit with
        ⟨whole, made, formed, numStates, same⟩
      exact ⟨whole, made, formed, numStates, same, Automaton.trim_emptyInput made⟩
  | cons item rest =>
      rw [Branch.stateCount] at small ⊢
      rcases Item.yields atoms item (by omega) with ⟨first, made, realizes⟩
      have folded := yields_foldlM (Item.step_yields atoms) realizes small
      rw [foldl_mul] at folded
      rw [Branch.automaton, made, Branch.language, List.map_cons, List.prod_cons]
      exact folded

theorem Branch.step_yields
    (before : Automaton CodeUnit)
    (branch : Branch α)
    (beforeCount : Nat)
    (beforeLanguage : Language CodeUnit)
    (realizes : Realizes before beforeCount beforeLanguage)
    (small : beforeCount + Branch.stateCount atomCount branch + 2 < 2 ^ 32) :
    Yields (do before.union (← Branch.automaton atomAutomaton branch))
      (beforeCount + Branch.stateCount atomCount branch + 2)
      (beforeLanguage + Branch.language atomLanguage branch) := by
  rcases Branch.yields atoms branch (by omega) with ⟨next, made, nextRealizes⟩
  rw [made]
  exact realizes.union nextRealizes small

theorem Alternation.yields
    (alternation : Alternation α)
    (small : alternation.stateCount atomCount < 2 ^ 32) :
    Yields (alternation.automaton atomAutomaton) (alternation.stateCount atomCount)
      (alternation.language atomLanguage) := by
  rw [Alternation.stateCount] at small ⊢
  rcases Branch.yields atoms alternation.first (by omega) with ⟨first, made, realizes⟩
  have folded := yields_foldlM (Branch.step_yields atoms) realizes small
  rw [foldl_add] at folded
  rw [Alternation.automaton, made, Alternation.language, branches, List.map_cons, List.sum_cons]
  exact folded

end

theorem Atom.yields (atom : Atom) (small : atom.stateCount < 2 ^ 32) :
    Yields atom.automaton atom.stateCount atom.language := by
  cases atom with
  | leaf content => exact content.yields
  | group body => exact Alternation.yields (fun leaf _ => leaf.yields) body small

/-- A pattern yields an automaton for the language that it denotes. -/
theorem yields (pattern : Pattern) (small : stateCount pattern < 2 ^ 32) :
    Yields (toAutomaton pattern) (stateCount pattern) (language pattern) :=
  Alternation.yields Atom.yields pattern small

/-- A pattern that is not too long yields an automaton. -/
theorem yields_of_short
    (pattern : Pattern)
    (short : 4 * (units pattern).length + 1 < 2 ^ 32) :
    Yields (toAutomaton pattern) (stateCount pattern) (language pattern) :=
  yields pattern (Nat.lt_of_le_of_lt (stateCount_le pattern) short)

/-- The code units that spell a pattern are compiled to its automaton. -/
theorem compile_units_eq_ok_iff {pattern : Pattern} {automaton : Automaton CodeUnit} :
    compile (units pattern) = .ok automaton ↔ toAutomaton pattern = .ok automaton := by
  have unfolded : compile (units pattern) = (toAutomaton pattern).mapError .automaton := by
    rw [compile, parse_units]
  rw [unfolded]
  cases toAutomaton pattern <;> simp [Except.mapError]

end Acceptor.Pattern
