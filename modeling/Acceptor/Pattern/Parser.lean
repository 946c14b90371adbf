import Acceptor.Error
import Acceptor.Pattern.Sign

/-!
# Reading patterns

A pattern is read from left to right into a draft: the branches that have
been closed, and the items of the branch that is still open.  Parentheses are
looked at first, and in pairs; a group is read only when it is known to end.
The first thing that does not follow the grammar is reported with the index
of its code unit.
-/

namespace Acceptor.Pattern

/-- An alternation that is being read, the latest branch and the latest item first. -/
structure Draft (α : Type) where
  /-- The branches that have been closed. -/
  closed : List (Branch α)
  /-- The items of the open branch. -/
  items : Branch α

namespace Draft

variable {α : Type}

/-- The draft with nothing in it. -/
def empty : Draft α where
  closed := []
  items := []

/-- Add an atom to the open branch. -/
def push (draft : Draft α) (atom : α) : Draft α :=
  { draft with items := { atom, starred := false } :: draft.items }

/-- Close the open branch and begin another. -/
def close (draft : Draft α) : Draft α where
  closed := draft.items.reverse :: draft.closed
  items := []

/-- Repeat the last item of the open branch, on account of the star at an index. -/
def star (draft : Draft α) (index : Nat) : Except SyntaxError (Draft α) :=
  match draft.items with
  | [] => .error (.nothingToRepeat index)
  | { atom, starred } :: earlier =>
      if starred then .error (.notQuantifiable index)
      else .ok { draft with items := { atom, starred := true } :: earlier }

/-- The alternation that has been read. -/
def finish (draft : Draft α) : Alternation α :=
  draft.closed.foldl
    (fun later branch => { first := branch, rest := later.first :: later.rest })
    { first := draft.items.reverse, rest := [] }

/-- Read the mark at an index. -/
def read (ofLeaf : Leaf → α) (index : Nat) (draft : Draft α) : Mark → Except SyntaxError (Draft α)
  | .bar => .ok draft.close
  | .star => draft.star index
  | .leaf leaf => .ok (draft.push (ofLeaf leaf))

/-- Read marks that begin at an index. -/
def readMarks (ofLeaf : Leaf → α) (index : Nat) (draft : Draft α) :
    List Mark → Except SyntaxError (Draft α)
  | [] => .ok draft
  | mark :: rest =>
      match draft.read ofLeaf index mark with
      | .error cause => .error cause
      | .ok next => next.readMarks ofLeaf (index + 1) rest

/-- Read a stretch of marks as the body of a group. -/
def readBody (index : Nat) (marks : List Mark) : Except SyntaxError (Alternation Leaf) :=
  (readMarks id index empty marks).map finish

/-- Read stretches of marks, each after its parenthesis, that begin at an index. -/
def readStretches (index : Nat) (draft : Draft Atom) :
    List (Parenthesis × List Mark) → Except SyntaxError (Draft Atom)
  | [] => .ok draft
  | (.closing, _) :: _ => .error (.strayClosingGroup index)
  | [(.opening, _)] => .error (.unmatchedGroup index)
  | (.opening, body) :: (.opening, _) :: _ =>
      .error (.strayOpeningGroup (index + 1 + body.length))
  | (.opening, body) :: (.closing, marks) :: rest =>
      match readBody (index + 1) body with
      | .error cause => .error cause
      | .ok group =>
          let after := index + body.length + 2
          match (draft.push (.group group)).readMarks .leaf after marks with
          | .error cause => .error cause
          | .ok next => next.readStretches (after + marks.length) rest

end Draft

/-- Divide signs into the marks before the first parenthesis and those after each one. -/
def stretches : List Sign → List Mark × List (Parenthesis × List Mark)
  | [] => ([], [])
  | .mark mark :: rest => (mark :: (stretches rest).1, (stretches rest).2)
  | .parenthesis parenthesis :: rest => ([], (parenthesis, (stretches rest).1) :: (stretches rest).2)

/-- Read signs that begin at an index. -/
def Draft.readSigns (index : Nat) (draft : Draft Atom) (signs : List Sign) :
    Except SyntaxError (Draft Atom) :=
  match draft.readMarks .leaf index (stretches signs).1 with
  | .error cause => .error cause
  | .ok next => next.readStretches (index + (stretches signs).1.length) (stretches signs).2

/-- The pattern that code units spell. -/
def parse (units : List CodeUnit) : Except SyntaxError Pattern :=
  (Draft.empty.readSigns 0 (units.map Sign.ofUnit)).map Draft.finish

end Acceptor.Pattern
