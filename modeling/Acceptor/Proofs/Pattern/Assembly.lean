import Acceptor.Pattern.Assembly
import Acceptor.Proofs.Pattern.Translation
import Acceptor.Proofs.Pattern.Violation

/-!
# Assembling agrees with translating the tree

Compiling in a single pass and translating the tree of a pattern lead to the
same automaton, with the same states, and to the same error.  The pass keeps
an automaton for each branch and each item of the draft that the reader keeps,
and each sign leads to the same on both sides.

The reader goes on where an automaton cannot be made, and the pass does not.
This makes no difference for code units that are not too many, since then no
branch of a draft is too long to be translated.
-/

namespace Acceptor.Pattern

/-! ## Composing parts -/

/-- Each part is made into the automaton at the same place. -/
abbrev Made
    {β : Type}
    (make : β → Except AutomatonError (Automaton CodeUnit)) :
    List β → List (Automaton CodeUnit) → Prop :=
  List.Forall₂ fun part automaton => make part = .ok automaton

/-- Composing what parts have been made into is the same as making them on the way. -/
theorem foldlM_of_made
    {β : Type}
    {make : β → Except AutomatonError (Automaton CodeUnit)}
    {compose : Automaton CodeUnit → Automaton CodeUnit →
      Except AutomatonError (Automaton CodeUnit)}
    {parts : List β}
    {automata : List (Automaton CodeUnit)}
    (made : Made make parts automata)
    (first : Automaton CodeUnit) :
    automata.foldlM (fun before next => (compose before next).mapError RegexError.automaton) first =
      (parts.foldlM (fun before part => do compose before (← make part)) first).mapError
        .automaton := by
  induction made generalizing first with
  | nil => rfl
  | @cons part automaton _ _ head tail induction =>
      have joined : (do compose first (← make part)) = compose first automaton := by
        rw [head]
        rfl
      rw [List.foldlM_cons, List.foldlM_cons, joined]
      cases compose first automaton with
      | error cause => rfl
      | ok whole => exact induction whole

section

variable {α : Type} {atomAutomaton : α → Except AutomatonError (Automaton CodeUnit)}

theorem Item.automaton_plain (content : α) :
    Item.automaton atomAutomaton { atom := content, starred := false } =
      atomAutomaton content :=
  bind_pure _

theorem Item.automaton_starred (content : α) :
    Item.automaton atomAutomaton { atom := content, starred := true } =
      (atomAutomaton content).bind Automaton.star := rfl

theorem Branch.automaton_singleton (item : Item α) :
    Branch.automaton atomAutomaton [item] = item.automaton atomAutomaton :=
  bind_pure _

theorem Branch.combine_of_made
    {branch : Branch α}
    {automata : List (Automaton CodeUnit)}
    (made : Made (Item.automaton atomAutomaton) branch automata) :
    Assembly.combine .plain Constructions.plain.concatenation automata =
      (Branch.automaton atomAutomaton branch).mapError .automaton := by
  cases made with
  | nil => rfl
  | cons head tail =>
      rw [Branch.automaton, head]
      exact foldlM_of_made tail _

theorem Alternation.combine_of_made
    {alternation : Alternation α}
    {automata : List (Automaton CodeUnit)}
    (made : Made (Branch.automaton atomAutomaton) alternation.branches automata) :
    Assembly.combine .plain Constructions.plain.union automata =
      (alternation.automaton atomAutomaton).mapError .automaton := by
  cases made with
  | cons head tail =>
      rw [Alternation.automaton, head]
      exact foldlM_of_made tail _

end

/-! ## What a draft is assembled into -/

section

variable {α τ : Type} (atomAutomaton : α → Except AutomatonError (Automaton CodeUnit))

/-- Each branch and each item of a draft has been made into an automaton. -/
structure Assembles (draft : Draft α) (assembly : Assembly) : Prop where
  branches : Made (Branch.automaton atomAutomaton) draft.closed assembly.branches
  atoms : Made (Item.automaton atomAutomaton) draft.items assembly.atoms
  quantifiable : ∀ item ∈ draft.items.head?, assembly.quantifiable = !item.starred

/-- Reading and assembling fail for the same reason, or both lead to the same. -/
def Agrees
    (read : Except SyntaxError (Draft α))
    (assembled : Except RegexError Assembly) : Prop :=
  (∃ cause, read = .error cause ∧ assembled = .error (.malformed cause)) ∨
    ∃ draft assembly, read = .ok draft ∧ assembled = pure assembly ∧
      Assembles atomAutomaton draft assembly

/-- Branches that are not too long can be translated. -/
def Translates (atom : α → List τ) (star : τ) : Prop :=
  ∀ branch : Branch α, 4 * (Branch.write atom star branch).length + 1 < 2 ^ 32 →
    ∃ automaton, Branch.automaton atomAutomaton branch = .ok automaton

end

theorem Assembles.empty {α : Type}
    (atomAutomaton : α → Except AutomatonError (Automaton CodeUnit)) :
    Assembles atomAutomaton Draft.empty Assembly.empty :=
  ⟨.nil, .nil, fun _ member => by cases member⟩

section

variable {α τ : Type} {atomAutomaton : α → Except AutomatonError (Automaton CodeUnit)}
  {atom : α → List τ} {star bar : τ} {draft : Draft α} {assembly : Assembly}

/-- Reading and assembling go on together, unless they have failed. -/
theorem Agrees.bind
    {read : Except SyntaxError (Draft α)}
    {assembled : Except RegexError Assembly}
    (agrees : Agrees atomAutomaton read assembled)
    {readNext : Draft α → Except SyntaxError (Draft α)}
    {assembledNext : Assembly → Except RegexError Assembly}
    (continued : ∀ draft assembly, read = .ok draft → Assembles atomAutomaton draft assembly →
      Agrees atomAutomaton (readNext draft) (assembledNext assembly)) :
    Agrees atomAutomaton (read.bind readNext) (assembled >>= assembledNext) := by
  rcases agrees with ⟨cause, rfl, rfl⟩ | ⟨draft, assembly, rfl, rfl, assembles⟩
  · exact Or.inl ⟨cause, rfl, rfl⟩
  · rw [pure_bind]
    exact continued draft assembly rfl assembles

theorem Draft.length_items_le_written :
    (Branch.write atom star draft.items.reverse).length ≤
      (draft.written atom star bar).length := by
  rw [written, List.length_append]
  exact Nat.le_add_left _ _

theorem Assembles.push
    (assembles : Assembles atomAutomaton draft assembly)
    {content : α}
    {automaton : Automaton CodeUnit}
    (made : atomAutomaton content = .ok automaton) :
    Assembles atomAutomaton (draft.push content) (assembly.push automaton) := by
  refine ⟨assembles.branches, .cons ?_ assembles.atoms, ?_⟩
  · rw [Item.automaton, made]
    rfl
  · rintro item member
    cases member
    rfl

variable (translates : Translates atomAutomaton atom star)

include translates

theorem Assembles.close
    (assembles : Assembles atomAutomaton draft assembly)
    (short : 4 * (draft.written atom star bar).length + 1 < 2 ^ 32) :
    ∃ next, assembly.close .plain = pure next ∧ Assembles atomAutomaton draft.close next := by
  have shorter : (Branch.write atom star draft.items.reverse).length ≤
      (draft.written atom star bar).length :=
    Draft.length_items_le_written
  rcases translates draft.items.reverse (by omega) with ⟨automaton, made⟩
  have composed : Assembly.combine .plain Constructions.plain.concatenation
      assembly.atoms.reverse = pure automaton := by
    rw [Branch.combine_of_made (List.rel_reverse assembles.atoms), made]
    rfl
  refine ⟨{ assembly with branches := automaton :: assembly.branches, atoms := [] }, ?_,
    .cons made assembles.branches, .nil, fun _ member => by cases member⟩
  rw [Assembly.close, composed]
  rfl

/-- What a draft is assembled into is composed into the automaton of its alternation. -/
theorem Assembles.finish
    (assembles : Assembles atomAutomaton draft assembly)
    (short : 4 * (draft.written atom star bar).length + 1 < 2 ^ 32) :
    assembly.finish .plain = (draft.finish.automaton atomAutomaton).mapError .automaton := by
  rcases assembles.close translates short with ⟨next, closed, whole⟩
  have made : Made (Branch.automaton atomAutomaton) draft.finish.branches
      next.branches.reverse := by
    rw [Draft.branches_finish, ← List.reverse_cons]
    exact List.rel_reverse whole.branches
  rw [Assembly.finish, closed, ← Alternation.combine_of_made made]
  rfl

/-- A star is read and assembled in the same way. -/
theorem Assembles.agrees_star
    (assembles : Assembles atomAutomaton draft assembly)
    (short : 4 * ((draft.written atom star bar).length + 1) + 1 < 2 ^ 32)
    (index : Nat) :
    Agrees atomAutomaton (draft.star index) (assembly.star .plain index) := by
  have shorter : (Branch.write atom star draft.items.reverse).length ≤
      (draft.written atom star bar).length :=
    Draft.length_items_le_written
  obtain ⟨closed, items⟩ := draft
  obtain ⟨branches, automata, quantifiable⟩ := assembly
  obtain ⟨made, atoms, last⟩ := assembles
  cases atoms with
  | nil => exact Or.inl ⟨.nothingToRepeat index, rfl, rfl⟩
  | @cons item automaton earlier automata head tail =>
      obtain ⟨content, starred⟩ := item
      have allowed : quantifiable = !starred := last _ rfl
      cases starred with
      | true => exact Or.inl ⟨.notQuantifiable index, rfl, by rw [allowed]; rfl⟩
      | false =>
          -- A repeated item is a branch of its own, to which the bound on branches applies.
          have small : 4 * (Branch.write atom star
              [{ atom := content, starred := true }]).length + 1 < 2 ^ 32 := by
            simp only [Branch.write, List.reverse_cons, List.flatMap_append, List.flatMap_cons,
              List.flatMap_nil, List.append_nil, Item.write, if_true, Bool.false_eq_true,
              if_false, List.length_append, List.length_singleton] at shorter ⊢
            omega
          rcases translates _ small with ⟨repeated, translated⟩
          rw [Branch.automaton_singleton] at translated
          have starred : automaton.star = .ok repeated := by
            rw [Item.automaton_plain] at head
            rw [← translated, Item.automaton_starred, head]
            rfl
          refine Or.inr ⟨_, { branches, atoms := repeated :: automata, quantifiable := false },
            rfl, ?_, made, .cons translated tail, ?_⟩
          · rw [Assembly.star, allowed]
            simp only [Bool.not_false, if_true, Constructions.plain, starred]
            rfl
          · rintro item member
            cases member
            rfl

/-- A mark is read and assembled in the same way. -/
theorem Assembles.agrees_readMark
    (ofLeaf : Leaf → α)
    (leaves : ∀ leaf, atomAutomaton (ofLeaf leaf) = leaf.automaton)
    (assembles : Assembles atomAutomaton draft assembly)
    (short : 4 * ((draft.written atom star bar).length + 1) + 1 < 2 ^ 32)
    (index : Nat)
    (mark : Mark) :
    Agrees atomAutomaton (draft.read ofLeaf index mark) (assembly.readMark .plain index mark) := by
  cases mark with
  | bar =>
      have shorter : 4 * (draft.written atom star bar).length + 1 < 2 ^ 32 := by omega
      rcases assembles.close translates shorter with ⟨next, closed, whole⟩
      exact Or.inr ⟨draft.close, next, rfl, closed, whole⟩
  | star => exact assembles.agrees_star translates short index
  | leaf leaf =>
      rcases leaf.yields with ⟨automaton, made, _⟩
      have planted : Constructions.plain.leaf leaf = .ok automaton :=
        congrArg (Except.mapError RegexError.automaton) made
      refine Or.inr ⟨draft.push (ofLeaf leaf), assembly.push automaton, rfl, ?_,
        assembles.push ((leaves leaf).trans made)⟩
      rw [Assembly.readMark, planted]
      rfl

end

/-- Branches are translated when atoms are, with not too many states for their signs. -/
theorem translates_of_yields
    {α τ : Type}
    {atomAutomaton : α → Except AutomatonError (Automaton CodeUnit)}
    {atomCount : α → Nat}
    {atomLanguage : α → Language CodeUnit}
    {atom : α → List τ}
    (atoms : ∀ content, atomCount content < 2 ^ 32 →
      Yields (atomAutomaton content) (atomCount content) (atomLanguage content))
    (few : ∀ content, atomCount content + 2 ≤ 4 * (atom content).length)
    (star : τ) :
    Translates atomAutomaton atom star := by
  intro branch short
  have bound : Branch.stateCount atomCount branch ≤
      4 * (Branch.write atom star branch).length + 1 :=
    Branch.stateCount_le few branch
  rcases Branch.yields atoms branch (Nat.lt_of_le_of_lt bound short) with ⟨automaton, made, _⟩
  exact ⟨automaton, made⟩

/-! ## The body of a group -/

theorem translates_leaves :
    Translates Leaf.automaton (fun leaf => [Mark.leaf leaf]) .star :=
  translates_of_yields (fun leaf _ => leaf.yields) (fun _ => Nat.le_refl 4) _

/-- The marks of a draft of the body of a group. -/
def Draft.marks (draft : Draft Leaf) : List Mark :=
  draft.written (fun leaf => [.leaf leaf]) .star .bar

theorem Draft.marks_read
    {index : Nat}
    {draft next : Draft Leaf}
    {mark : Mark}
    (result : draft.read id index mark = .ok next) :
    next.marks = draft.marks ++ [mark] := by
  rw [marks, written_read result]
  cases mark <;> rfl

theorem Draft.readMarks_cons
    (index : Nat)
    (draft : Draft Leaf)
    (mark : Mark)
    (rest : List Mark) :
    draft.readMarks id index (mark :: rest) =
      (draft.read id index mark).bind fun next => next.readMarks id (index + 1) rest := by
  rw [readMarks]
  cases draft.read id index mark <;> rfl

/-- Marks are read and assembled in the same way. -/
theorem Assembles.agrees_readMarks
    {draft : Draft Leaf}
    {assembly : Assembly}
    (assembles : Assembles Leaf.automaton draft assembly)
    (index : Nat)
    (marks : List Mark)
    (short : 4 * (draft.marks.length + marks.length) + 1 < 2 ^ 32) :
    Agrees Leaf.automaton (draft.readMarks id index marks)
      (assembly.read .plain index (marks.map .mark)) := by
  induction marks generalizing index draft assembly with
  | nil => exact Or.inr ⟨draft, assembly, rfl, Assembly.read_nil .plain index assembly, assembles⟩
  | cons mark rest induction =>
      rw [List.length_cons] at short
      have room : 4 * (draft.marks.length + 1) + 1 < 2 ^ 32 := by omega
      rw [Draft.readMarks_cons, List.map_cons, Assembly.read_mark]
      apply (assembles.agrees_readMark translates_leaves id (fun _ => rfl) room index mark).bind
      intro next after read continued
      apply induction continued
      rw [Draft.marks_read read, List.length_append, List.length_singleton]
      omega

/-- The body of a group is read and assembled in the same way. -/
theorem agrees_readBody
    (index : Nat)
    (marks : List Mark)
    (short : 4 * marks.length + 1 < 2 ^ 32) :
    (∃ cause, Draft.readBody index marks = .error cause ∧
        Assembly.empty.read .plain index (marks.map .mark) = .error (.malformed cause)) ∨
      ∃ body inside automaton, Draft.readBody index marks = .ok body ∧
        Assembly.empty.read .plain index (marks.map .mark) = pure inside ∧
        inside.finish .plain = pure automaton ∧
        (Atom.group body).automaton = .ok automaton := by
  rw [Draft.readBody]
  have room : 4 * ((Draft.empty : Draft Leaf).marks.length + marks.length) + 1 < 2 ^ 32 := by
    simpa [Draft.marks, Draft.written, Draft.empty, Branch.write] using short
  rcases (Assembles.empty Leaf.automaton).agrees_readMarks index marks room with
    ⟨cause, read, assembled⟩ | ⟨draft, inside, read, assembled, whole⟩
  · rw [read]
    exact Or.inl ⟨cause, rfl, assembled⟩
  · have spelled : draft.marks = marks := by
      rw [Draft.marks, Draft.written_readMarks read, Draft.flatMap_markSigns_id]
      rfl
    have few : draft.finish.stateCount (fun _ => 2) ≤ 4 * draft.marks.length + 1 := by
      rw [Draft.marks, ← Draft.write_finish]
      exact Alternation.stateCount_le (fun _ => Nat.le_refl 4) draft.finish
    rw [← spelled] at short
    rcases Atom.yields (.group draft.finish) (Nat.lt_of_le_of_lt few short) with
      ⟨automaton, made, _⟩
    rw [read]
    refine Or.inr ⟨draft.finish, inside, automaton, rfl, assembled, ?_, made⟩
    rw [whole.finish translates_leaves short]
    exact congrArg (Except.mapError RegexError.automaton) made

/-! ## Groups and whole patterns -/

theorem translates_atoms : Translates Atom.automaton Atom.signs (.mark .star) :=
  translates_of_yields Atom.yields Atom.stateCount_add_two_le _

/-- The search for the end of a group passes over marks. -/
theorem groupBody_marks
    (opened index : Nat)
    (marks : List Mark)
    (rest : List Sign) :
    groupBody opened index (marks.map .mark ++ rest) =
      (groupBody opened (index + marks.length) rest).map fun found =>
        (marks ++ found.1, found.2) := by
  induction marks generalizing index with
  | nil =>
      rw [List.map_nil, List.nil_append, List.length_nil, Nat.add_zero]
      cases groupBody opened index rest <;> rfl
  | cons mark marks induction =>
      rw [List.map_cons, List.cons_append, groupBody, induction, List.length_cons,
        Nat.add_right_comm, Nat.add_assoc]
      cases groupBody opened (index + (marks.length + 1)) rest <;> rfl

/-- A group is read once its end has been found. -/
theorem Draft.readSigns_opening (index : Nat) (draft : Draft Atom) (rest : List Sign) :
    draft.readSigns index (.parenthesis .opening :: rest) =
      (groupBody index (index + 1) rest).bind fun found =>
        (readBody (index + 1) found.1).bind fun group =>
          (draft.push (.group group)).readSigns (index + found.1.length + 2) found.2 := by
  rcases eq_marks_or_exists_parenthesis rest with
    ⟨marks, rfl⟩ | ⟨marks, parenthesis, after, rfl⟩
  · rw [← List.append_nil (marks.map Sign.mark), groupBody_marks, readSigns]
    simp only [stretches, stretches_append]
    rfl
  · rw [groupBody_marks, readSigns]
    simp only [stretches, stretches_append, List.append_nil]
    cases parenthesis with
    | opening => rfl
    | closing =>
        simp only [groupBody, Except.map, Except.bind, List.append_nil, readMarks,
          List.length_nil, Nat.add_zero, readStretches]
        cases readBody (index + 1) marks <;> rfl

theorem Draft.signs_read
    {index : Nat}
    {draft next : Draft Atom}
    {mark : Mark}
    (result : draft.read .leaf index mark = .ok next) :
    next.signs = draft.signs ++ [.mark mark] := by
  rw [signs, written_read result]
  cases mark <;> rfl

/-- Signs are read and assembled in the same way. -/
theorem Assembles.agrees_readSigns
    {draft : Draft Atom}
    {assembly : Assembly}
    (assembles : Assembles Atom.automaton draft assembly)
    (index : Nat)
    (signs : List Sign)
    (short : 4 * (draft.signs.length + signs.length) + 1 < 2 ^ 32) :
    Agrees Atom.automaton (draft.readSigns index signs) (assembly.read .plain index signs) := by
  match signs with
  | [] => exact Or.inr ⟨draft, assembly, rfl, Assembly.read_nil .plain index assembly, assembles⟩
  | .mark mark :: rest =>
      rw [List.length_cons] at short
      have room : 4 * (draft.signs.length + 1) + 1 < 2 ^ 32 := by omega
      rw [Draft.readSigns_mark, Assembly.read_mark]
      apply (assembles.agrees_readMark translates_atoms .leaf (fun _ => rfl) room index mark).bind
      intro next after read continued
      apply continued.agrees_readSigns (index + 1) rest
      rw [Draft.signs_read read, List.length_append, List.length_singleton]
      omega
  | .parenthesis .closing :: rest =>
      exact Or.inl ⟨.strayClosingGroup index, rfl, Assembly.read_closing .plain index assembly rest⟩
  | .parenthesis .opening :: rest =>
      rw [List.length_cons] at short
      rw [Draft.readSigns_opening]
      match found : groupBody index (index + 1) rest with
      | .error cause =>
          exact Or.inl ⟨cause, rfl, Assembly.read_opening_of_error .plain found assembly⟩
      | .ok (body, after) =>
          -- The body consists of marks, and so the same pass one level down ends there.
          have length := length_of_groupBody found
          rw [Assembly.read_opening_of_ok .plain found]
          rcases agrees_readBody (index + 1) body (by omega) with
            ⟨cause, read, assembled⟩ |
              ⟨group, inside, automaton, read, assembled, finished, made⟩
          · rw [assembled]
            refine Or.inl ⟨cause, ?_, rfl⟩
            simp only [Except.bind, read]
          · rw [assembled, pure_bind, finished, pure_bind]
            simp only [Except.bind, read]
            apply (assembles.push made).agrees_readSigns
            rw [Draft.signs_push_group, Draft.marks_readBody read, List.length_append,
              List.cons_append, List.length_cons, List.length_append, List.length_map,
              List.length_singleton]
            omega
termination_by signs.length
decreasing_by
  · exact Nat.lt_add_one _
  · rw [List.length_cons]
    omega

/-- Compiling in a single pass leads to the same automaton, or to the same error. -/
theorem assemble_eq_compile
    {text : List CodeUnit}
    (short : 4 * text.length + 1 < 2 ^ 32) :
    assemble text = compile text := by
  have blank : (Draft.empty : Draft Atom).signs = [] := rfl
  have room : 4 * ((Draft.empty : Draft Atom).signs.length +
      (text.map Sign.ofUnit).length) + 1 < 2 ^ 32 := by
    rw [blank, List.length_nil, List.length_map]
    omega
  rw [assemble, Assembly.ofUnits, compile, parse]
  rcases (Assembles.empty Atom.automaton).agrees_readSigns 0 (text.map Sign.ofUnit) room with
    ⟨cause, read, assembled⟩ | ⟨draft, assembly, read, assembled, whole⟩
  · rw [read, assembled]
    rfl
  · rw [← List.length_append, ← Draft.signs_readSigns read] at room
    rw [read, assembled, pure_bind, whole.finish translates_atoms room]
    rfl

/--
A text spells at most one pattern, and what is compiled in a single pass is the
translation of that pattern.
-/
theorem compile_syntax_directed
    {text : List CodeUnit}
    {pattern : Pattern}
    (spelled : units pattern = text)
    (short : 4 * text.length + 1 < 2 ^ 32) :
    (∀ other, units other = text → other = pattern) ∧
      ∃ automaton, toAutomaton pattern = .ok automaton ∧
        assemble text = .ok automaton ∧ compile text = .ok automaton := by
  constructor
  · intro other same
    exact units_inj.mp (same.trans spelled.symm)
  · rw [assemble_eq_compile short]
    subst spelled
    rcases yields_of_short pattern short with ⟨automaton, made, _⟩
    have compiled := compile_units_eq_ok_iff.mpr made
    exact ⟨automaton, made, compiled, compiled⟩

/-- The pattern `(x|.)*y|`, which ends with an empty branch. -/
def choices : Pattern where
  first :=
    [{ atom := .group
        { first := [{ atom := .literal 0x78 (by decide), starred := false }]
          rest := [[{ atom := .any, starred := false }]] }
       starred := true },
     { atom := .leaf (.literal 0x79 (by decide)), starred := false }]
  rest := [[]]

theorem compile_syntax_directed_choices :
    units choices = [0x28, 0x78, 0x7C, 0x2E, 0x29, 0x2A, 0x79, 0x7C] ∧
      ∃ automaton, toAutomaton choices = .ok automaton ∧
        assemble [0x28, 0x78, 0x7C, 0x2E, 0x29, 0x2A, 0x79, 0x7C] = .ok automaton ∧
        compile [0x28, 0x78, 0x7C, 0x2E, 0x29, 0x2A, 0x79, 0x7C] = .ok automaton :=
  ⟨by decide, (compile_syntax_directed (by decide) (by decide)).2⟩

end Acceptor.Pattern
