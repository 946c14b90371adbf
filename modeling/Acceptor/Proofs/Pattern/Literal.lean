import Acceptor.Proofs.Pattern.Language

/-!
# Patterns that stand for themselves

A word without any of the five special units is a pattern: one branch, in which
each unit is a literal.  Its language consists of the word alone.  Its automaton
has two states for each unit, and two more for each concatenation.
-/

namespace Acceptor.Pattern

/-- A literal that is not repeated, for each of several ordinary units. -/
def literals (units : List CodeUnit) (ordinary : ∀ unit ∈ units, unit ∉ specialUnits) :
    Branch Atom :=
  units.pmap (fun unit ordinary => ⟨.leaf (.literal unit ordinary), false⟩) ordinary

/-- The pattern that several ordinary units spell. -/
def literal (units : List CodeUnit) (ordinary : ∀ unit ∈ units, unit ∉ specialUnits) :
    Pattern :=
  ⟨literals units ordinary, []⟩

theorem literals_cons
    {unit : CodeUnit}
    {rest : List CodeUnit}
    (ordinary : ∀ other ∈ unit :: rest, other ∉ specialUnits) :
    literals (unit :: rest) ordinary =
      ⟨.leaf (.literal unit (ordinary unit (List.mem_cons_self ..))), false⟩ ::
        literals rest fun other member => ordinary other (List.mem_cons_of_mem _ member) :=
  rfl

section

variable (units : List CodeUnit) (ordinary : ∀ unit ∈ units, unit ∉ specialUnits)

theorem units_literals :
    (Branch.write Atom.signs (.mark .star) (literals units ordinary)).map Sign.unit = units := by
  induction units with
  | nil => rfl
  | cons unit rest induction =>
      rw [literals_cons, Branch.write, List.flatMap_cons, List.map_append, ← Branch.write,
        induction]
      rfl

/-- The code units that spell the pattern are the given ones. -/
theorem units_literal : Pattern.units (literal units ordinary) = units := by
  rw [Pattern.units, signs, Alternation.write, List.map_append]
  exact (List.append_nil _).trans (units_literals units ordinary)

theorem sum_stateCount_literals :
    ((literals units ordinary).map fun item => item.stateCount Atom.stateCount + 2).sum =
      4 * units.length := by
  induction units with
  | nil => rfl
  | cons unit rest induction =>
      rw [literals_cons, List.map_cons, List.sum_cons, induction, List.length_cons, Nat.mul_succ,
        Nat.add_comm]
      rfl

/-- There are four states for each unit, but for two of the first one. -/
theorem stateCount_literal :
    stateCount (literal units ordinary) = max 1 (4 * units.length - 2) := by
  have first : stateCount (literal units ordinary) =
      Branch.stateCount Atom.stateCount (literals units ordinary) := rfl
  rw [first]
  cases units with
  | nil => rfl
  | cons unit rest =>
      rw [literals_cons, Branch.stateCount, sum_stateCount_literals, List.length_cons]
      show 2 + 4 * rest.length = _
      omega

theorem language_literals :
    Branch.language Atom.language (literals units ordinary) = {units} := by
  induction units with
  | nil => rfl
  | cons unit rest induction =>
      rw [literals_cons, Branch.language, List.map_cons, List.prod_cons, ← Branch.language,
        induction]
      ext word
      rw [Language.mem_mul]
      constructor
      · rintro ⟨front, rfl, back, rfl, rfl⟩
        rfl
      · rintro rfl
        exact ⟨[unit], rfl, rest, rfl, rfl⟩

/-- The only word in the language of the pattern is the one that spells it. -/
theorem language_literal : language (literal units ordinary) = {units} := by
  have first : language (literal units ordinary) =
      Branch.language Atom.language (literals units ordinary) + 0 := rfl
  rw [first, add_zero, language_literals]

end

end Acceptor.Pattern
