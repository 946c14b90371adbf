import Acceptor.Pattern.Sign

/-!
# Writing patterns

Every pattern is spelled by exactly one sequence of code units.  Writing is
the same at both levels of the syntax: items follow one another, a star
follows what it repeats, and bars part the branches.
-/

namespace Acceptor.Pattern

variable {α τ : Type}

/-- The signs of an item, given those of atoms and the star. -/
def Item.write (atom : α → List τ) (star : τ) (item : Item α) : List τ :=
  if item.starred then atom item.atom ++ [star] else atom item.atom

/-- The signs of a branch, given those of atoms and the star. -/
def Branch.write (atom : α → List τ) (star : τ) (branch : Branch α) : List τ :=
  branch.flatMap (Item.write atom star)

/-- The signs of an alternation, given those of atoms, the star and the bar. -/
def Alternation.write (atom : α → List τ) (star bar : τ) (alternation : Alternation α) :
    List τ :=
  Branch.write atom star alternation.first ++
    alternation.rest.flatMap fun branch => bar :: Branch.write atom star branch

/-- The marks of the body of a group. -/
def Alternation.marks (body : Alternation Leaf) : List Mark :=
  body.write (fun leaf => [.leaf leaf]) .star .bar

/-- The signs of an atom. -/
def Atom.signs : Atom → List Sign
  | leaf content => [.mark (.leaf content)]
  | group body =>
      .parenthesis .opening :: body.marks.map .mark ++ [.parenthesis .closing]

/-- The signs of a pattern. -/
def signs (pattern : Pattern) : List Sign :=
  pattern.write Atom.signs (.mark .star) (.mark .bar)

/-- The code units that spell a pattern. -/
def units (pattern : Pattern) : List CodeUnit :=
  (signs pattern).map Sign.unit

end Acceptor.Pattern
