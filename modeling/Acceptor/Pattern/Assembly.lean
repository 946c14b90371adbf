import Acceptor.Pattern.Compilation

/-!
# Assembling automata while reading

A pattern can also be compiled in a single pass, without a tree in between.
Each atom becomes an automaton as soon as it is read, and a star replaces the
last of these by its repetition.  A bar, and the end of what is read, composes
the automata since the last bar into one for the branch.  For a group, the end
is looked for first; then the body is read in the same way as the whole.

The pass asks for automata and for constructions, whatever else these do
besides making automata.
-/

namespace Acceptor.Pattern

/-- The automata and the constructions that a pass asks for. -/
structure Constructions (m : Type → Type) where
  /-- The automaton for the empty word. -/
  emptyInput : m (Automaton CodeUnit)
  /-- The automaton of a leaf. -/
  leaf : Leaf → m (Automaton CodeUnit)
  /-- The concatenation of two automata. -/
  concatenation : Automaton CodeUnit → Automaton CodeUnit → m (Automaton CodeUnit)
  /-- The union of two automata. -/
  union : Automaton CodeUnit → Automaton CodeUnit → m (Automaton CodeUnit)
  /-- The repetition of an automaton. -/
  star : Automaton CodeUnit → m (Automaton CodeUnit)

/-- The constructions as they are. -/
def Constructions.plain : Constructions (Except RegexError) where
  emptyInput := Automaton.emptyInput.mapError .automaton
  leaf leaf := leaf.automaton.mapError .automaton
  concatenation first second := (first.concatenation second).mapError .automaton
  union first second := (first.union second).mapError .automaton
  star body := body.star.mapError .automaton

/--
The body of the group that was opened at an index and the signs after the
group, where the signs that may belong to the body begin at another index.
-/
def groupBody (opened index : Nat) : List Sign → Except SyntaxError (List Mark × List Sign)
  | [] => .error (.unmatchedGroup opened)
  | .parenthesis .opening :: _ => .error (.strayOpeningGroup index)
  | .parenthesis .closing :: after => .ok ([], after)
  | .mark mark :: rest =>
      match groupBody opened (index + 1) rest with
      | .error cause => .error cause
      | .ok (body, after) => .ok (mark :: body, after)

/-- The signs before the end of a group are those of its body. -/
theorem eq_of_groupBody
    {opened index : Nat}
    {signs after : List Sign}
    {body : List Mark}
    (found : groupBody opened index signs = .ok (body, after)) :
    signs = body.map .mark ++ .parenthesis .closing :: after := by
  induction signs generalizing index body with
  | nil => cases found
  | cons sign rest induction =>
      match sign with
      | .parenthesis .opening => cases found
      | .parenthesis .closing =>
          cases found
          rfl
      | .mark mark =>
          rw [groupBody] at found
          split at found
          · cases found
          · next inner later innerFound =>
              cases found
              rw [induction innerFound]
              rfl

/-- A group has a sign at its end. -/
theorem length_of_groupBody
    {opened index : Nat}
    {signs after : List Sign}
    {body : List Mark}
    (found : groupBody opened index signs = .ok (body, after)) :
    signs.length = body.length + after.length + 1 := by
  rw [eq_of_groupBody found, List.length_append, List.length_map, List.length_cons,
    Nat.add_assoc]

/-- What has been assembled, the latest branch and the latest atom first. -/
structure Assembly where
  /-- The automata of the branches that have been closed. -/
  branches : List (Automaton CodeUnit)
  /-- The automata since the last bar. -/
  atoms : List (Automaton CodeUnit)
  /-- Whether a star may follow. -/
  quantifiable : Bool

namespace Assembly

/-- Nothing has been assembled. -/
def empty : Assembly where
  branches := []
  atoms := []
  quantifiable := true

/-- Add the automaton of an atom. -/
def push (assembly : Assembly) (automaton : Automaton CodeUnit) : Assembly :=
  { assembly with atoms := automaton :: assembly.atoms, quantifiable := true }

section Pass

variable {m : Type → Type} [Monad m] [MonadExceptOf RegexError m] (make : Constructions m)

/-- Compose automata from left to right; without any, make the one for the empty word. -/
def combine
    (compose : Automaton CodeUnit → Automaton CodeUnit → m (Automaton CodeUnit)) :
    List (Automaton CodeUnit) → m (Automaton CodeUnit)
  | [] => make.emptyInput
  | first :: rest => rest.foldlM compose first

/-- Compose the automata since the last bar. -/
def close (assembly : Assembly) : m Assembly := do
  let branch ← combine make make.concatenation assembly.atoms.reverse
  return { assembly with branches := branch :: assembly.branches, atoms := [] }

/-- Repeat the last automaton, on account of the star at an index. -/
def star (assembly : Assembly) (index : Nat) : m Assembly :=
  match assembly.atoms with
  | [] => throw (.malformed (.nothingToRepeat index))
  | last :: earlier =>
      if assembly.quantifiable then do
        let repeated ← make.star last
        return { assembly with atoms := repeated :: earlier, quantifiable := false }
      else throw (.malformed (.notQuantifiable index))

/-- Compose what has been assembled. -/
def finish (assembly : Assembly) : m (Automaton CodeUnit) := do
  let closed ← assembly.close make
  combine make make.union closed.branches.reverse

/-- Read the mark at an index. -/
def readMark (index : Nat) (assembly : Assembly) : Mark → m Assembly
  | .bar => assembly.close make
  | .star => assembly.star make index
  | .leaf leaf => do
      let automaton ← make.leaf leaf
      return assembly.push automaton

/-- Read signs that begin at an index. -/
def read (index : Nat) (assembly : Assembly) (signs : List Sign) : m Assembly :=
  match signs with
  | [] => pure assembly
  | .parenthesis .closing :: _ => throw (.malformed (.strayClosingGroup index))
  | .parenthesis .opening :: rest =>
      match _ : groupBody index (index + 1) rest with
      | .error cause => throw (.malformed cause)
      | .ok (body, after) => do
          let inside ← read (index + 1) empty (body.map .mark)
          let group ← inside.finish make
          read (index + body.length + 2) (assembly.push group) after
  | .mark mark :: rest => do
      let next ← assembly.readMark make index mark
      read (index + 1) next rest
termination_by signs.length
decreasing_by
  all_goals simp only [List.length_cons, List.length_map]
  · have whole := length_of_groupBody ‹_›
    omega
  · have whole := length_of_groupBody ‹_›
    omega
  · exact Nat.lt_add_one _

theorem read_nil (index : Nat) (assembly : Assembly) :
    assembly.read make index [] = pure assembly := by
  rw [read]

theorem read_closing (index : Nat) (assembly : Assembly) (rest : List Sign) :
    assembly.read make index (.parenthesis .closing :: rest) =
      throw (.malformed (.strayClosingGroup index)) := by
  rw [read]

theorem read_mark (index : Nat) (assembly : Assembly) (mark : Mark) (rest : List Sign) :
    assembly.read make index (.mark mark :: rest) =
      assembly.readMark make index mark >>= fun next => next.read make (index + 1) rest := by
  rw [read]

theorem read_opening_of_error
    {index : Nat}
    {rest : List Sign}
    {cause : SyntaxError}
    (unfinished : groupBody index (index + 1) rest = .error cause)
    (assembly : Assembly) :
    assembly.read make index (.parenthesis .opening :: rest) = throw (.malformed cause) := by
  rw [read]
  split
  · next other found =>
      rw [unfinished] at found
      cases found
      rfl
  · next found =>
      rw [unfinished] at found
      cases found

theorem read_opening_of_ok
    {index : Nat}
    {rest after : List Sign}
    {body : List Mark}
    (found : groupBody index (index + 1) rest = .ok (body, after))
    (assembly : Assembly) :
    assembly.read make index (.parenthesis .opening :: rest) =
      empty.read make (index + 1) (body.map .mark) >>= fun inside =>
        inside.finish make >>= fun group =>
          (assembly.push group).read make (index + body.length + 2) after := by
  rw [read]
  split
  · next other =>
      rw [found] at other
      cases other
  · next other =>
      rw [found] at other
      cases other
      rfl

/-- Assemble the whole of the signs that code units stand for. -/
def ofUnits (units : List CodeUnit) : m (Automaton CodeUnit) := do
  let assembly ← empty.read make 0 (units.map Sign.ofUnit)
  assembly.finish make

end Pass

end Assembly

/-- Compile the pattern that code units spell in a single pass. -/
def assemble (units : List CodeUnit) : Except RegexError (Automaton CodeUnit) :=
  Assembly.ofUnits .plain units

end Acceptor.Pattern
