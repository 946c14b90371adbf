import Acceptor.Pattern.Parser
import Acceptor.Pattern.Printer

/-!
# Reading what was written

Reading accepts exactly what writing produces: every pattern is read back
from the code units that spell it, and whatever is read was spelled by the
pattern that results.  So a text has at most one parse.

Both directions follow a draft through the reading.  In one direction the
signs that a draft stands for grow by the signs that have been read; in the
other, reading the signs of an item adds just that item.
-/

namespace Acceptor.Pattern

variable {α τ : Type}

/-! ## What a draft stands for -/

/-- Alternations with the same branches are equal. -/
theorem Alternation.branches_inj {left right : Alternation α} :
    left.branches = right.branches ↔ left = right := by
  constructor
  · intro same
    cases left
    cases right
    simpa [branches] using same
  · exact congrArg branches

namespace Draft

/-- The signs that have been read into a draft. -/
def written (atom : α → List τ) (star bar : τ) (draft : Draft α) : List τ :=
  draft.closed.reverse.flatMap (fun branch => Branch.write atom star branch ++ [bar]) ++
    Branch.write atom star draft.items.reverse

@[simp]
theorem branches_finish (draft : Draft α) :
    draft.finish.branches = draft.closed.reverse ++ [draft.items.reverse] := by
  have general : ∀ (closed : List (Branch α)) (later : Alternation α),
      (closed.foldl (fun later branch =>
        { first := branch, rest := later.first :: later.rest }) later).branches =
      closed.reverse ++ later.branches := by
    intro closed
    induction closed with
    | nil => intro later; rfl
    | cons branch closed induction =>
        intro later
        rw [List.foldl_cons, induction]
        simp [Alternation.branches]
  rw [finish, general]
  rfl

/-- The alternation of a draft is written as the draft was read. -/
theorem write_finish (atom : α → List τ) (star bar : τ) (draft : Draft α) :
    draft.finish.write atom star bar = draft.written atom star bar := by
  have general : ∀ (branches : List (Branch α)) (last : Branch α) (alternation : Alternation α),
      alternation.branches = branches ++ [last] →
      alternation.write atom star bar =
        branches.flatMap (fun branch => Branch.write atom star branch ++ [bar]) ++
          Branch.write atom star last := by
    intro branches
    induction branches with
    | nil =>
        intro last alternation same
        obtain ⟨first, rest⟩ := alternation
        simp only [Alternation.branches, List.nil_append, List.cons.injEq] at same
        simp [Alternation.write, same.1, same.2]
    | cons branch branches induction =>
        intro last alternation same
        obtain ⟨first, rest⟩ := alternation
        simp only [Alternation.branches, List.cons_append, List.cons.injEq] at same
        obtain ⟨rfl, same⟩ := same
        cases rest with
        | nil => simp at same
        | cons second rest =>
            have next := induction last { first := second, rest := rest } same
            simp only [Alternation.write] at next
            simp [Alternation.write, next]
  exact general draft.closed.reverse draft.items.reverse draft.finish (branches_finish draft)

/-! ## What is read was written -/

variable {atom : α → List τ} {star bar : τ} {ofLeaf : Leaf → α}

/-- The signs of a mark, when the atom of a leaf has been chosen. -/
def markSigns (atom : α → List τ) (star bar : τ) (ofLeaf : Leaf → α) : Mark → List τ
  | .bar => [bar]
  | .star => [star]
  | .leaf leaf => atom (ofLeaf leaf)

theorem written_read {index : Nat} {draft next : Draft α} {mark : Mark}
    (result : draft.read ofLeaf index mark = .ok next) :
    next.written atom star bar =
      draft.written atom star bar ++ markSigns atom star bar ofLeaf mark := by
  cases mark with
  | bar =>
      cases result
      simp [written, close, markSigns, Branch.write]
  | leaf leaf =>
      cases result
      simp [written, push, markSigns, Branch.write, Item.write]
  | star =>
      obtain ⟨closed, items⟩ := draft
      cases items with
      | nil => cases result
      | cons item earlier =>
          obtain ⟨body, starred⟩ := item
          cases starred with
          | true => cases result
          | false =>
              cases result
              simp [written, markSigns, Branch.write, Item.write]

theorem written_readMarks {index : Nat} {draft next : Draft α} {marks : List Mark}
    (result : draft.readMarks ofLeaf index marks = .ok next) :
    next.written atom star bar =
      draft.written atom star bar ++ marks.flatMap (markSigns atom star bar ofLeaf) := by
  induction marks generalizing index draft with
  | nil =>
      cases result
      simp
  | cons mark rest induction =>
      unfold readMarks at result
      split at result
      · cases result
      · next first read =>
          rw [induction result, written_read read, List.flatMap_cons, List.append_assoc]

/-- The signs of a draft of a pattern. -/
def signs (draft : Draft Atom) : List Sign :=
  draft.written Atom.signs (.mark .star) (.mark .bar)

theorem flatMap_markSigns_leaf (marks : List Mark) :
    marks.flatMap (markSigns Atom.signs (.mark .star) (.mark .bar) .leaf) =
      marks.map .mark := by
  induction marks with
  | nil => rfl
  | cons mark rest induction =>
      rw [List.flatMap_cons, induction]
      cases mark <;> rfl

theorem flatMap_markSigns_id (marks : List Mark) :
    marks.flatMap (markSigns (fun leaf => [.leaf leaf]) .star .bar id) = marks := by
  induction marks with
  | nil => rfl
  | cons mark rest induction =>
      rw [List.flatMap_cons, induction]
      cases mark <;> rfl

theorem signs_readMarks {index : Nat} {draft next : Draft Atom} {marks : List Mark}
    (result : draft.readMarks .leaf index marks = .ok next) :
    next.signs = draft.signs ++ marks.map .mark := by
  rw [signs, written_readMarks result, flatMap_markSigns_leaf]
  rfl

/-- The body of a group is written as it was read. -/
theorem marks_readBody {index : Nat} {marks : List Mark} {body : Alternation Leaf}
    (result : readBody index marks = .ok body) :
    body.marks = marks := by
  unfold readBody at result
  cases read : readMarks id index empty marks with
  | error cause =>
      rw [read] at result
      cases result
  | ok draft =>
      rw [read] at result
      cases result
      rw [Alternation.marks, write_finish, written_readMarks read, flatMap_markSigns_id]
      rfl

theorem signs_push_group (draft : Draft Atom) (body : Alternation Leaf) :
    (draft.push (.group body)).signs =
      draft.signs ++ (.parenthesis .opening :: body.marks.map .mark ++
        [.parenthesis .closing]) := by
  simp [signs, written, push, Branch.write, Item.write, Atom.signs]

/-- The signs of stretches, each after its parenthesis. -/
def stretchSigns (stretches : List (Parenthesis × List Mark)) : List Sign :=
  stretches.flatMap fun stretch => .parenthesis stretch.1 :: stretch.2.map .mark

theorem signs_readStretches {index : Nat} {draft next : Draft Atom}
    {stretches : List (Parenthesis × List Mark)}
    (result : draft.readStretches index stretches = .ok next) :
    next.signs = draft.signs ++ stretchSigns stretches := by
  fun_induction readStretches index draft stretches with
  | case1 =>
      cases result
      simp [stretchSigns]
  | case2 => cases result
  | case3 => cases result
  | case4 => cases result
  | case5 => cases result
  | case6 => cases result
  | case7 index draft body marks rest group readGroup after next' readNext induction =>
      rw [induction result, signs_readMarks readNext, signs_push_group, marks_readBody readGroup]
      simp [stretchSigns]

end Draft

/-- Dividing signs into stretches loses nothing. -/
theorem stretches_join (signs : List Sign) :
    (stretches signs).1.map .mark ++ Draft.stretchSigns (stretches signs).2 = signs := by
  induction signs with
  | nil => rfl
  | cons sign rest induction =>
      cases sign with
      | mark mark =>
          simp only [stretches, List.map_cons, List.cons_append]
          rw [induction]
      | parenthesis parenthesis =>
          simp only [stretches, List.map_nil, List.nil_append, Draft.stretchSigns,
            List.flatMap_cons, List.cons_append]
          rw [Draft.stretchSigns] at induction
          rw [induction]

theorem Draft.signs_readSigns {index : Nat} {draft next : Draft Atom} {list : List Sign}
    (result : draft.readSigns index list = .ok next) :
    next.signs = draft.signs ++ list := by
  unfold readSigns at result
  split at result
  · cases result
  · next first readFirst =>
      rw [signs_readStretches result, signs_readMarks readFirst, List.append_assoc,
        stretches_join]

/-- Whatever is read was spelled by the pattern that results. -/
theorem units_of_parse {text : List CodeUnit} {pattern : Pattern}
    (result : parse text = .ok pattern) :
    units pattern = text := by
  unfold parse at result
  cases read : Draft.empty.readSigns 0 (text.map Sign.ofUnit) with
  | error cause =>
      rw [read] at result
      cases result
  | ok draft =>
      rw [read] at result
      cases result
      have written : signs draft.finish = text.map Sign.ofUnit := by
        rw [signs, Draft.write_finish]
        exact Draft.signs_readSigns read
      rw [units, written, List.map_map]
      have same : Sign.unit ∘ Sign.ofUnit = id := funext Sign.unit_ofUnit
      rw [same, List.map_id]

/-! ## What was written is read -/

namespace Draft

/-- Add an item to the open branch. -/
def add (draft : Draft α) (item : Item α) : Draft α :=
  { draft with items := item :: draft.items }

/-- Close the open branch and open another one with the items of a branch. -/
def next (draft : Draft α) (branch : Branch α) : Draft α :=
  branch.foldl add draft.close

theorem foldl_add (draft : Draft α) (branch : Branch α) :
    branch.foldl add draft = { draft with items := branch.reverse ++ draft.items } := by
  induction branch generalizing draft with
  | nil => rfl
  | cons item rest induction => simp [induction, add]

theorem finish_foldl_next (rest : List (Branch α)) (draft : Draft α) :
    (rest.foldl next draft).finish.branches = draft.finish.branches ++ rest := by
  induction rest generalizing draft with
  | nil => simp
  | cons branch rest induction =>
      rw [List.foldl_cons, induction]
      simp [next, foldl_add, close]

/--
A reader that closes a branch at a bar and adds an item for its signs reads a
written alternation back.
-/
theorem read_write {atom : α → List τ} {star bar : τ}
    (reader : Nat → Draft α → List τ → Except SyntaxError (Draft α))
    (atEnd : ∀ index draft, reader index draft [] = .ok draft)
    (atBar : ∀ index draft signs,
      reader index draft (bar :: signs) = reader (index + 1) draft.close signs)
    (atItem : ∀ index draft (item : Item α) signs,
      reader index draft (item.write atom star ++ signs) =
        reader (index + (item.write atom star).length) (draft.add item) signs)
    (index : Nat) (alternation : Alternation α) :
    (reader index empty (alternation.write atom star bar)).map finish = .ok alternation := by
  have branch : ∀ (items : Branch α) index draft signs, ∃ after,
      reader index draft (Branch.write atom star items ++ signs) =
        reader after (items.foldl add draft) signs := by
    intro items
    induction items with
    | nil => exact fun index draft signs => ⟨index, rfl⟩
    | cons item items induction =>
        intro index draft signs
        obtain ⟨after, same⟩ := induction (index + (item.write atom star).length)
          (draft.add item) signs
        refine ⟨after, ?_⟩
        rw [List.foldl_cons, ← same, ← atItem, Branch.write, List.flatMap_cons,
          List.append_assoc]
        rfl
  have branches : ∀ (rest : List (Branch α)) index draft,
      reader index draft
          (rest.flatMap fun branch => bar :: Branch.write atom star branch) =
        .ok (rest.foldl next draft) := by
    intro rest
    induction rest with
    | nil => exact fun index draft => atEnd index draft
    | cons items rest induction =>
        intro index draft
        rw [List.flatMap_cons, List.cons_append, atBar]
        obtain ⟨after, same⟩ := branch items (index + 1) draft.close
          (rest.flatMap fun branch => bar :: Branch.write atom star branch)
        rw [same, induction]
        rfl
  obtain ⟨after, same⟩ := branch alternation.first index empty
    (alternation.rest.flatMap fun branch => bar :: Branch.write atom star branch)
  rw [Alternation.write, same, branches]
  apply congrArg Except.ok
  apply Alternation.branches_inj.mp
  rw [finish_foldl_next, branches_finish, foldl_add]
  simp [Alternation.branches, empty]

/-- The body of a group is read back from its marks. -/
theorem readBody_marks (index : Nat) (body : Alternation Leaf) :
    readBody index body.marks = .ok body := by
  apply read_write (fun index draft marks => draft.readMarks id index marks)
  · exact fun _ _ => rfl
  · exact fun _ _ _ => rfl
  · intro index draft item marks
    obtain ⟨leaf, starred⟩ := item
    cases starred <;> rfl

/-! ### Signs, one at a time -/

theorem readSigns_nil (index : Nat) (draft : Draft Atom) :
    draft.readSigns index [] = .ok draft := rfl

theorem readSigns_mark (index : Nat) (draft : Draft Atom) (mark : Mark) (rest : List Sign) :
    draft.readSigns index (.mark mark :: rest) =
      (draft.read .leaf index mark).bind fun next => next.readSigns (index + 1) rest := by
  unfold readSigns
  simp only [stretches, readMarks, List.length_cons]
  cases draft.read .leaf index mark with
  | error cause => rfl
  | ok first =>
      have same : index + ((stretches rest).1.length + 1) =
          index + 1 + (stretches rest).1.length := by omega
      rw [same]
      rfl

theorem stretches_append (marks : List Mark) (rest : List Sign) :
    stretches (marks.map .mark ++ rest) =
      (marks ++ (stretches rest).1, (stretches rest).2) := by
  induction marks with
  | nil => rfl
  | cons mark marks induction => simp [stretches, induction]

theorem readSigns_group (index : Nat) (draft : Draft Atom) (body : Alternation Leaf)
    (rest : List Sign) :
    draft.readSigns index ((Atom.group body).signs ++ rest) =
      (draft.push (.group body)).readSigns (index + body.marks.length + 2) rest := by
  have divided : stretches ((Atom.group body).signs ++ rest) =
      ([], (.opening, body.marks) :: (.closing, (stretches rest).1) :: (stretches rest).2) := by
    simp [Atom.signs, stretches, stretches_append]
  unfold readSigns
  rw [divided]
  simp only [readMarks, List.length_nil, Nat.add_zero, readStretches, readBody_marks]

end Draft

/-- Every pattern is read back from its signs. -/
theorem readSigns_signs (pattern : Pattern) :
    (Draft.empty.readSigns 0 (signs pattern)).map Draft.finish = .ok pattern := by
  apply Draft.read_write (fun index draft signs => draft.readSigns index signs)
  · exact Draft.readSigns_nil
  · intro index draft rest
    rw [Draft.readSigns_mark]
    rfl
  · intro index draft item rest
    obtain ⟨atom, starred⟩ := item
    have single : ∀ rest, draft.readSigns index (atom.signs ++ rest) =
        (draft.push atom).readSigns (index + atom.signs.length) rest := by
      intro rest
      cases atom with
      | leaf leaf => exact Draft.readSigns_mark index draft (.leaf leaf) rest
      | group body =>
          rw [Draft.readSigns_group]
          simp [Atom.signs, Nat.add_assoc]
    cases starred with
    | false => exact single rest
    | true =>
        simp only [Item.write, if_true, List.append_assoc, List.cons_append, List.nil_append,
          List.length_append, List.length_cons, List.length_nil]
        rw [single, Draft.readSigns_mark]
        rfl

/-- Every pattern is read back from the code units that spell it. -/
@[simp]
theorem parse_units (pattern : Pattern) : parse (units pattern) = .ok pattern := by
  have same : (units pattern).map Sign.ofUnit = signs pattern := by
    rw [units, List.map_map]
    have inverse : Sign.ofUnit ∘ Sign.unit = id := funext Sign.ofUnit_unit
    rw [inverse, List.map_id]
  rw [parse, same, readSigns_signs]

/-- A text is read as a pattern exactly when the pattern spells it. -/
theorem parse_eq_ok_iff {text : List CodeUnit} {pattern : Pattern} :
    parse text = .ok pattern ↔ units pattern = text :=
  ⟨units_of_parse, fun spelled => spelled ▸ parse_units pattern⟩

/-- A pattern is determined by the code units that spell it. -/
theorem units_inj {left right : Pattern} : units left = units right ↔ left = right := by
  constructor
  · intro same
    have read := parse_units left
    rw [same, parse_units] at read
    exact (Except.ok.inj read).symm
  · exact congrArg units

end Acceptor.Pattern
