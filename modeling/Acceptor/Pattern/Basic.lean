import Acceptor.Symbol

/-!
# Patterns

A pattern describes a set of texts.  From the loosest binding to the tightest
it is made as follows.

* An alternation is one or more branches, parted by `|`.
* A branch is any number of items, one after the other.
* An item is an atom, followed or not by `*`.
* An atom is a leaf, or a group: an alternation of leaves in parentheses.
* A leaf is `.`, which stands for any code unit, or a literal, which stands
  for itself.

Groups do not contain groups, so that the syntax has two levels and no
recursion: alternations are the same at both levels and differ in their
atoms alone.  The five units `(`, `)`, `*`, `.` and `|` have a meaning of
their own and cannot be literals.
-/

namespace Acceptor

namespace Pattern

/-- The code units that are not literals: `(`, `)`, `*`, `.` and `|`. -/
def specialUnits : List CodeUnit := [0x28, 0x29, 0x2A, 0x2E, 0x7C]

/-- What stands for a single code unit. -/
inductive Leaf where
  /-- Any code unit. -/
  | any
  /-- One code unit, which has no meaning of its own. -/
  | literal (unit : CodeUnit) (ordinary : unit ∉ specialUnits)
  deriving DecidableEq

/-- An atom, and whether it is repeated. -/
structure Item (α : Type) where
  /-- What the item consists of. -/
  atom : α
  /-- Whether a star follows. -/
  starred : Bool
  deriving DecidableEq

/-- Items, one after the other. -/
abbrev Branch (α : Type) := List (Item α)

/-- One or more branches. -/
structure Alternation (α : Type) where
  /-- The first branch. -/
  first : Branch α
  /-- The branches after the first. -/
  rest : List (Branch α)
  deriving DecidableEq

/-- The branches of an alternation. -/
def Alternation.branches {α : Type} (alternation : Alternation α) : List (Branch α) :=
  alternation.first :: alternation.rest

/-- What a star applies to. -/
inductive Atom where
  /-- A leaf by itself. -/
  | leaf (leaf : Leaf)
  /-- An alternation of leaves in parentheses. -/
  | group (body : Alternation Leaf)
  deriving DecidableEq

end Pattern

/-- A pattern is an alternation in which groups may occur. -/
abbrev Pattern := Pattern.Alternation Pattern.Atom

end Acceptor
