import Acceptor.Pattern.Basic

/-!
# The signs of a pattern

Each code unit of a pattern is one sign.  Parentheses divide a pattern into
stretches; the signs of a stretch are its marks.  Code units and signs
correspond one to one.
-/

namespace Acceptor.Pattern

/-- A sign inside a stretch without parentheses. -/
inductive Mark where
  /-- The end of a branch. -/
  | bar
  /-- The repetition of what stands before. -/
  | star
  /-- A leaf. -/
  | leaf (leaf : Leaf)
  deriving DecidableEq

/-- The two ends of a group. -/
inductive Parenthesis where
  /-- The beginning of a group. -/
  | opening
  /-- The end of a group. -/
  | closing
  deriving DecidableEq

/-- The meaning of a code unit in a pattern. -/
inductive Sign where
  /-- A sign that does not divide the pattern. -/
  | mark (mark : Mark)
  /-- A parenthesis. -/
  | parenthesis (parenthesis : Parenthesis)
  deriving DecidableEq

/-- The code unit of a leaf. -/
def Leaf.unit : Leaf → CodeUnit
  | any => 0x2E
  | literal unit _ => unit

/-- The code unit of a mark. -/
def Mark.unit : Mark → CodeUnit
  | bar => 0x7C
  | star => 0x2A
  | leaf content => content.unit

/-- The code unit of a parenthesis. -/
def Parenthesis.unit : Parenthesis → CodeUnit
  | opening => 0x28
  | closing => 0x29

/-- The code unit of a sign. -/
def Sign.unit : Sign → CodeUnit
  | mark content => content.unit
  | parenthesis content => content.unit

/-- The sign that a code unit is. -/
def Sign.ofUnit (unit : CodeUnit) : Sign :=
  if special : unit ∈ specialUnits then
    if unit = 0x28 then .parenthesis .opening
    else if unit = 0x29 then .parenthesis .closing
    else if unit = 0x2A then .mark .star
    else if unit = 0x2E then .mark (.leaf .any)
    else .mark .bar
  else
    .mark (.leaf (.literal unit special))

@[simp]
theorem Sign.unit_ofUnit (unit : CodeUnit) : (ofUnit unit).unit = unit := by
  unfold ofUnit
  by_cases special : unit ∈ specialUnits
  · simp only [specialUnits, List.mem_cons, List.not_mem_nil, or_false] at special
    rcases special with rfl | rfl | rfl | rfl | rfl <;> rfl
  · rw [dif_neg special]
    rfl

@[simp]
theorem Sign.ofUnit_unit (sign : Sign) : ofUnit sign.unit = sign := by
  match sign with
  | .parenthesis .opening => rfl
  | .parenthesis .closing => rfl
  | .mark .bar => rfl
  | .mark .star => rfl
  | .mark (.leaf .any) => rfl
  | .mark (.leaf (.literal unit ordinary)) =>
      show ofUnit unit = _
      rw [ofUnit, dif_neg ordinary]

end Acceptor.Pattern
