import Acceptor.Pattern.Printer
import Mathlib.Algebra.GroupWithZero.Nat
import Mathlib.Computability.Language

/-!
# What patterns mean

A pattern denotes a language of code units by its structure: `.` stands for
the words of length one, a literal for itself, a star for any number of words,
the items of a branch for the product of their languages and the branches of
an alternation for the sum of theirs.  A branch without items denotes the empty
word.

The automaton of a pattern needs a number of states that depends on the
structure alone and stays below a multiple of the length of the pattern.
-/

namespace Acceptor.Pattern

open Computability

/-! ## Languages -/

/-- The words that a leaf stands for. -/
def Leaf.language : Leaf → Language CodeUnit
  | any => { word | word.length = 1 }
  | literal unit _ => {[unit]}

section

variable {α : Type} (atomLanguage : α → Language CodeUnit)

/-- The words that an item stands for, given those of atoms. -/
def Item.language (item : Item α) : Language CodeUnit :=
  if item.starred then (atomLanguage item.atom)∗ else atomLanguage item.atom

/-- The words that a branch stands for, given those of atoms. -/
def Branch.language (branch : Branch α) : Language CodeUnit :=
  (branch.map (Item.language atomLanguage)).prod

/-- The words that an alternation stands for, given those of atoms. -/
def Alternation.language (alternation : Alternation α) : Language CodeUnit :=
  (alternation.branches.map (Branch.language atomLanguage)).sum

end

/-- The words that an atom stands for. -/
def Atom.language : Atom → Language CodeUnit
  | leaf content => content.language
  | group body => body.language Leaf.language

/-- The words that match a pattern. -/
def language (pattern : Pattern) : Language CodeUnit :=
  Alternation.language Atom.language pattern

/-! ## Numbers of states -/

section

variable {α : Type} (atomCount : α → Nat)

/-- The number of states for an item, given those for atoms. -/
def Item.stateCount (item : Item α) : Nat :=
  if item.starred then atomCount item.atom + 2 else atomCount item.atom

/-- The number of states for a branch, given those for atoms. -/
def Branch.stateCount : Branch α → Nat
  | [] => 1
  | first :: rest =>
      first.stateCount atomCount + (rest.map fun item => item.stateCount atomCount + 2).sum

/-- The number of states for an alternation, given those for atoms. -/
def Alternation.stateCount (alternation : Alternation α) : Nat :=
  Branch.stateCount atomCount alternation.first +
    (alternation.rest.map fun branch => Branch.stateCount atomCount branch + 2).sum

end

/-- The number of states for an atom. -/
def Atom.stateCount : Atom → Nat
  | leaf _ => 2
  | group body => body.stateCount fun _ => 2

/-- The number of states for a pattern. -/
def stateCount (pattern : Pattern) : Nat :=
  Alternation.stateCount Atom.stateCount pattern

section

variable {α τ : Type} {atom : α → List τ} {star bar : τ} {atomCount : α → Nat}

theorem Item.stateCount_add_two_le
    (atoms : ∀ content, atomCount content + 2 ≤ 4 * (atom content).length)
    (item : Item α) :
    item.stateCount atomCount + 2 ≤ 4 * (item.write atom star).length := by
  have bound := atoms item.atom
  rw [stateCount, write]
  split
  · rw [List.length_append, List.length_singleton]
    omega
  · exact bound

/-- What holds of each part of a list of signs holds of the whole. -/
theorem sum_le_length_flatMap
    {β : Type}
    {count : β → Nat}
    {write : β → List τ}
    (bound : ∀ part, count part ≤ 4 * (write part).length)
    (parts : List β) :
    (parts.map count).sum ≤ 4 * (parts.flatMap write).length := by
  induction parts with
  | nil => exact Nat.le_refl 0
  | cons part rest induction =>
      have first := bound part
      rw [List.map_cons, List.sum_cons, List.flatMap_cons, List.length_append]
      omega

theorem Branch.stateCount_le
    (atoms : ∀ content, atomCount content + 2 ≤ 4 * (atom content).length)
    (branch : Branch α) :
    Branch.stateCount atomCount branch ≤ 4 * (Branch.write atom star branch).length + 1 := by
  cases branch with
  | nil => exact Nat.le_add_left 1 _
  | cons first rest =>
      have whole : ((first :: rest).map fun item => item.stateCount atomCount + 2).sum ≤
          4 * (Branch.write atom star (first :: rest)).length :=
        sum_le_length_flatMap (Item.stateCount_add_two_le atoms) (first :: rest)
      rw [List.map_cons, List.sum_cons] at whole
      rw [Branch.stateCount]
      omega

theorem Alternation.stateCount_le
    (atoms : ∀ content, atomCount content + 2 ≤ 4 * (atom content).length)
    (alternation : Alternation α) :
    alternation.stateCount atomCount ≤ 4 * (alternation.write atom star bar).length + 1 := by
  have first : Branch.stateCount atomCount alternation.first ≤
      4 * (Branch.write atom star alternation.first).length + 1 :=
    Branch.stateCount_le atoms alternation.first
  have rest : (alternation.rest.map fun branch => Branch.stateCount atomCount branch + 2).sum ≤
      4 * (alternation.rest.flatMap fun branch => bar :: Branch.write atom star branch).length := by
    apply sum_le_length_flatMap
    intro branch
    have bound : Branch.stateCount atomCount branch ≤
        4 * (Branch.write atom star branch).length + 1 :=
      Branch.stateCount_le atoms branch
    rw [List.length_cons]
    omega
  rw [stateCount, write, List.length_append]
  omega

end

theorem Atom.stateCount_add_two_le (atom : Atom) :
    atom.stateCount + 2 ≤ 4 * atom.signs.length := by
  cases atom with
  | leaf content => exact Nat.le_refl 4
  | group body =>
      have inner : body.stateCount (fun _ => 2) ≤ 4 * body.marks.length + 1 :=
        Alternation.stateCount_le (fun _ => Nat.le_refl 4) body
      rw [stateCount, signs, List.cons_append, List.length_cons, List.length_append,
        List.length_map, List.length_singleton]
      omega

/-- There are at most four states for each code unit, and one more. -/
theorem stateCount_le (pattern : Pattern) :
    stateCount pattern ≤ 4 * (units pattern).length + 1 := by
  rw [units, List.length_map]
  exact Alternation.stateCount_le Atom.stateCount_add_two_le pattern

end Acceptor.Pattern
