import Acceptor.Pattern.RoundTrip

/-!
# Who is to blame for a malformed pattern

Reading keeps a draft, looks ahead for the end of a group and reads the body of
a group by itself.  All the same each sign that stops it could be told from the
signs around it.  This is made precise by a scan that blames each sign for what
surrounds it: reading stops at the first sign that the scan blames.

The two agree because the last item of a draft tells which sign was read last.
-/

namespace Acceptor.Pattern

/-! ## Blame -/

/-- The first parenthesis among signs. -/
def firstParenthesis (signs : List Sign) : Option Parenthesis :=
  (stretches signs).2.head?.map Prod.fst

/-- The error for which a sign is to blame, given the signs before and after it. -/
def blame (before : List Sign) (sign : Sign) (after : List Sign) : Option SyntaxError :=
  match sign with
  | .mark .bar => none
  | .mark (.leaf _) => none
  | .mark .star =>
      match before.getLast? with
      | none => some (.nothingToRepeat before.length)
      | some (.mark .bar) => some (.nothingToRepeat before.length)
      | some (.parenthesis .opening) => some (.nothingToRepeat before.length)
      | some (.mark .star) => some (.notQuantifiable before.length)
      | some (.mark (.leaf _)) => none
      | some (.parenthesis .closing) => none
  | .parenthesis .opening =>
      match firstParenthesis after with
      | none => some (.unmatchedGroup before.length)
      | some .opening =>
          some (.strayOpeningGroup (before.length + 1 + (stretches after).1.length))
      | some .closing => none
  | .parenthesis .closing =>
      match firstParenthesis before.reverse with
      | some .opening => none
      | some .closing => some (.strayClosingGroup before.length)
      | none => some (.strayClosingGroup before.length)

/-- The error for which the first of some signs is to blame, given the signs before them. -/
def firstBlame (before : List Sign) : List Sign → Option SyntaxError
  | [] => none
  | sign :: after =>
      (blame before sign after).or (firstBlame (before ++ [sign]) after)

@[simp]
theorem firstParenthesis_parenthesis (parenthesis : Parenthesis) (rest : List Sign) :
    firstParenthesis (.parenthesis parenthesis :: rest) = some parenthesis := rfl

@[simp]
theorem firstParenthesis_marks (marks : List Mark) (rest : List Sign) :
    firstParenthesis (marks.map .mark ++ rest) = firstParenthesis rest := by
  rw [firstParenthesis, Draft.stretches_append, firstParenthesis]

theorem firstParenthesis_reverse_marks (before : List Sign) (marks : List Mark) :
    firstParenthesis (before ++ marks.map Sign.mark).reverse =
      firstParenthesis before.reverse := by
  rw [List.reverse_append, ← List.map_reverse, firstParenthesis_marks]

theorem firstParenthesis_reverse_of_marks (marks : List Mark) :
    firstParenthesis (marks.map Sign.mark).reverse = none := by
  rw [← List.nil_append (marks.map _), firstParenthesis_reverse_marks]
  rfl

theorem firstParenthesis_reverse_of_parenthesis
    (earlier : List Sign)
    (parenthesis : Parenthesis)
    (marks : List Mark) :
    firstParenthesis
        (earlier ++ Sign.parenthesis parenthesis :: marks.map Sign.mark).reverse =
      some parenthesis := by
  rw [List.append_cons, firstParenthesis_reverse_marks, List.reverse_concat,
    firstParenthesis_parenthesis]

/-! ## Reading agrees with the scan -/

namespace Draft

variable {α : Type} (ofLeaf : Leaf → α)

/-- The last item of a draft is what the sign before it leaves behind. -/
def Follows (draft : Draft α) : Option Sign → Prop
  | none => draft.items = []
  | some (.mark .bar) => draft.items = []
  | some (.parenthesis .opening) => draft.items = []
  | some (.mark .star) =>
      ∃ atom earlier, draft.items = { atom, starred := true } :: earlier
  | some (.mark (.leaf _)) =>
      ∃ atom earlier, draft.items = { atom, starred := false } :: earlier
  | some (.parenthesis .closing) =>
      ∃ atom earlier, draft.items = { atom, starred := false } :: earlier

theorem star_of_items_eq_nil {draft : Draft α} (blank : draft.items = []) (index : Nat) :
    draft.star index = .error (.nothingToRepeat index) := by
  rw [star, blank]

theorem star_of_items_eq_cons {draft : Draft α} {atom : α} {starred : Bool}
    {earlier : Branch α} (items : draft.items = { atom, starred } :: earlier)
    (index : Nat) :
    draft.star index =
      if starred then .error (.notQuantifiable index)
      else .ok { draft with items := { atom, starred := true } :: earlier } := by
  rw [star, items]

/-- A mark is read unless it is to blame. -/
theorem read_of_follows {draft : Draft α} {before : List Sign}
    (follows : draft.Follows before.getLast?) (mark : Mark) (after : List Sign) :
    (∃ cause, draft.read ofLeaf before.length mark = .error cause ∧
        blame before (.mark mark) after = some cause) ∨
      ∃ next, draft.read ofLeaf before.length mark = .ok next ∧
        next.Follows (some (.mark mark)) ∧
        blame before (.mark mark) after = none := by
  cases mark with
  | bar => exact Or.inr ⟨draft.close, rfl, rfl, rfl⟩
  | leaf leaf => exact Or.inr ⟨draft.push (ofLeaf leaf), rfl, ⟨_, _, rfl⟩, rfl⟩
  | star =>
      simp only [read, blame]
      match before.getLast?, follows with
      | none, blank => exact Or.inl ⟨_, star_of_items_eq_nil blank _, rfl⟩
      | some (.mark .bar), blank => exact Or.inl ⟨_, star_of_items_eq_nil blank _, rfl⟩
      | some (.parenthesis .opening), blank =>
          exact Or.inl ⟨_, star_of_items_eq_nil blank _, rfl⟩
      | some (.mark .star), ⟨atom, earlier, items⟩ =>
          exact Or.inl ⟨_, star_of_items_eq_cons items _, rfl⟩
      | some (.mark (.leaf _)), ⟨atom, earlier, items⟩ =>
          exact Or.inr ⟨_, star_of_items_eq_cons items _, ⟨atom, earlier, rfl⟩, rfl⟩
      | some (.parenthesis .closing), ⟨atom, earlier, items⟩ =>
          exact Or.inr ⟨_, star_of_items_eq_cons items _, ⟨atom, earlier, rfl⟩, rfl⟩

/-- Marks are read up to the first one that is to blame. -/
theorem readMarks_of_follows {draft : Draft α} {before : List Sign}
    (follows : draft.Follows before.getLast?) (marks : List Mark) (after : List Sign) :
    (∃ cause, draft.readMarks ofLeaf before.length marks = .error cause ∧
        firstBlame before (marks.map .mark ++ after) = some cause) ∨
      ∃ next, draft.readMarks ofLeaf before.length marks = .ok next ∧
        firstBlame before (marks.map .mark ++ after) =
          firstBlame (before ++ marks.map .mark) after := by
  induction marks generalizing draft before with
  | nil =>
      rw [List.map_nil, List.append_nil, List.nil_append]
      exact Or.inr ⟨draft, rfl, rfl⟩
  | cons mark rest induction =>
      rw [readMarks, List.map_cons, List.cons_append, firstBlame]
      rcases read_of_follows ofLeaf follows mark (rest.map Sign.mark ++ after) with
        ⟨cause, read, blamed⟩ | ⟨next, read, nextFollows, blameless⟩
      · rw [read, blamed]
        exact Or.inl ⟨cause, rfl, rfl⟩
      · rw [read, blameless, Option.none_or]
        have last : (before ++ [Sign.mark mark]).getLast? = some (.mark mark) :=
          List.getLast?_concat
        have continued := induction (last ▸ nextFollows)
        rw [List.length_append, List.length_singleton, List.append_assoc] at continued
        exact continued

theorem stretchSigns_cons
    (parenthesis : Parenthesis)
    (marks : List Mark)
    (rest : List (Parenthesis × List Mark)) :
    stretchSigns ((parenthesis, marks) :: rest) =
      .parenthesis parenthesis :: (marks.map .mark ++ stretchSigns rest) := rfl

theorem blame_opening_of_nil (before : List Sign) (body : List Mark) :
    blame before (.parenthesis .opening) (body.map .mark) =
      some (.unmatchedGroup before.length) := by
  have alone := firstParenthesis_marks body []
  rw [List.append_nil] at alone
  rw [blame, alone]
  rfl

theorem blame_opening_of_opening
    (before : List Sign)
    (body : List Mark)
    (after : List Sign) :
    blame before (.parenthesis .opening)
        (body.map .mark ++ .parenthesis .opening :: after) =
      some (.strayOpeningGroup (before.length + 1 + body.length)) := by
  rw [blame, firstParenthesis_marks, firstParenthesis_parenthesis, stretches_append]
  simp [stretches]

theorem blame_opening_of_closing
    (before : List Sign)
    (body : List Mark)
    (after : List Sign) :
    blame before (.parenthesis .opening)
        (body.map .mark ++ .parenthesis .closing :: after) =
      none := by
  rw [blame, firstParenthesis_marks, firstParenthesis_parenthesis]

theorem blame_closing_of_outside
    {before : List Sign}
    (outside : firstParenthesis before.reverse ≠ some .opening)
    (after : List Sign) :
    blame before (.parenthesis .closing) after =
      some (.strayClosingGroup before.length) := by
  rw [blame]
  match firstParenthesis before.reverse, outside with
  | none, _ => rfl
  | some .closing, _ => rfl
  | some .opening, outside => exact absurd rfl outside

/-- The parenthesis that ends a group is not to blame. -/
theorem blame_closing_of_body
    (before : List Sign)
    (body : List Mark)
    (after : List Sign) :
    blame (before ++ .parenthesis .opening :: body.map .mark) (.parenthesis .closing) after =
      none := by
  rw [blame, firstParenthesis_reverse_of_parenthesis]

/-- The body of a group is read unless one of its signs is to blame. -/
theorem readBody_of_blame
    (before : List Sign)
    (body : List Mark)
    (after : List Sign) :
    (∃ cause, readBody (before.length + 1) body = .error cause ∧
        firstBlame (before ++ [.parenthesis .opening]) (body.map .mark ++ after) =
          some cause) ∨
      ∃ group, readBody (before.length + 1) body = .ok group ∧
        firstBlame (before ++ [.parenthesis .opening]) (body.map .mark ++ after) =
          firstBlame (before ++ .parenthesis .opening :: body.map .mark) after := by
  have follows : (empty : Draft Leaf).Follows
      (before ++ [Sign.parenthesis .opening]).getLast? := by
    rw [List.getLast?_concat]
    rfl
  have length : (before ++ [Sign.parenthesis .opening]).length = before.length + 1 :=
    List.length_append
  rw [readBody, ← length]
  rcases readMarks_of_follows id follows body after with
    ⟨cause, read, blamed⟩ | ⟨next, read, blameless⟩
  · rw [read]
    exact Or.inl ⟨cause, rfl, blamed⟩
  · rw [read]
    refine Or.inr ⟨next.finish, rfl, ?_⟩
    rw [blameless, List.append_assoc, List.singleton_append]

/-- The parentheses of a group are not to blame. -/
theorem firstBlame_group
    (before : List Sign)
    (body : List Mark)
    (after : List Sign) :
    firstBlame before
        (.parenthesis .opening :: (body.map .mark ++ .parenthesis .closing :: after)) =
      firstBlame (before ++ [.parenthesis .opening])
        (body.map .mark ++ .parenthesis .closing :: after) := by
  rw [firstBlame, blame_opening_of_closing, Option.none_or]

theorem firstBlame_closing_of_body
    (before : List Sign)
    (body : List Mark)
    (after : List Sign) :
    firstBlame (before ++ .parenthesis .opening :: body.map .mark)
        (.parenthesis .closing :: after) =
      firstBlame
        (before ++ .parenthesis .opening :: body.map .mark ++ [.parenthesis .closing])
        after := by
  rw [firstBlame, blame_closing_of_body, Option.none_or]

/-- Stretches are read unless one of their signs is to blame. -/
theorem readStretches_of_outside
    {before : List Sign}
    (outside : firstParenthesis before.reverse ≠ some .opening)
    (draft : Draft Atom)
    (stretches : List (Parenthesis × List Mark)) :
    (∃ cause, draft.readStretches before.length stretches = .error cause ∧
        firstBlame before (stretchSigns stretches) = some cause) ∨
      ∃ next, draft.readStretches before.length stretches = .ok next ∧
        firstBlame before (stretchSigns stretches) = none := by
  match stretches with
  | [] => exact Or.inr ⟨draft, rfl, rfl⟩
  | (.closing, marks) :: rest =>
      refine Or.inl ⟨_, rfl, ?_⟩
      rw [stretchSigns_cons, firstBlame, blame_closing_of_outside outside]
      rfl
  | [(.opening, body)] =>
      refine Or.inl ⟨_, rfl, ?_⟩
      rw [stretchSigns_cons, stretchSigns, List.flatMap_nil, List.append_nil, firstBlame,
        blame_opening_of_nil]
      rfl
  | (.opening, body) :: (.opening, marks) :: rest =>
      refine Or.inl ⟨_, rfl, ?_⟩
      rw [stretchSigns_cons, stretchSigns_cons, firstBlame, blame_opening_of_opening]
      rfl
  | (.opening, body) :: (.closing, marks) :: rest =>
      rw [readStretches, stretchSigns_cons, stretchSigns_cons, firstBlame_group]
      rcases readBody_of_blame before body
          (.parenthesis .closing :: (marks.map .mark ++ stretchSigns rest)) with
        ⟨cause, read, blamed⟩ | ⟨group, read, blameless⟩
      · rw [read]
        exact Or.inl ⟨cause, rfl, blamed⟩
      rw [read, blameless, firstBlame_closing_of_body]
      -- Whatever the draft held before, it now ends with a group that can be repeated.
      have closed : (draft.push (.group group)).Follows
          (before ++ Sign.parenthesis .opening :: body.map Sign.mark ++
            [Sign.parenthesis .closing]).getLast? := by
        rw [List.getLast?_concat]
        exact ⟨_, _, rfl⟩
      generalize ended : before ++ Sign.parenthesis .opening :: body.map Sign.mark ++
        [Sign.parenthesis .closing] = past at closed
      have length : before.length + body.length + 2 = past.length := by
        rw [← ended]
        simp
        omega
      simp only [length]
      rcases readMarks_of_follows .leaf closed marks (stretchSigns rest) with
        ⟨cause, readNext, blamed⟩ | ⟨next, readNext, blameless⟩
      · rw [readNext]
        exact Or.inl ⟨cause, rfl, blamed⟩
      rw [readNext, blameless]
      have outside : firstParenthesis (past ++ marks.map Sign.mark).reverse ≠ some .opening := by
        rw [firstParenthesis_reverse_marks, ← ended, List.reverse_concat,
          firstParenthesis_parenthesis]
        decide
      have continued := readStretches_of_outside outside next rest
      rw [List.length_append, List.length_map] at continued
      exact continued

/-- Signs are read unless one of them is to blame. -/
theorem readSigns_of_blame (signs : List Sign) :
    (∃ cause, empty.readSigns 0 signs = .error cause ∧ firstBlame [] signs = some cause) ∨
      ∃ next, empty.readSigns 0 signs = .ok next ∧ firstBlame [] signs = none := by
  have joined := stretches_join signs
  have follows : (empty : Draft Atom).Follows ([] : List Sign).getLast? := rfl
  rw [readSigns]
  generalize stretches signs = divided at joined
  rw [← joined]
  rcases readMarks_of_follows .leaf follows divided.1 (stretchSigns divided.2) with
    ⟨cause, read, blamed⟩ | ⟨next, read, blameless⟩
  · rw [List.length_nil] at read
    rw [read]
    exact Or.inl ⟨cause, rfl, blamed⟩
  · rw [List.length_nil] at read
    rw [read, blameless]
    have outside : firstParenthesis ([] ++ divided.1.map Sign.mark).reverse ≠
        some .opening := by
      rw [List.nil_append, firstParenthesis_reverse_of_marks]
      decide
    have continued := readStretches_of_outside outside next divided.2
    rw [List.nil_append, List.length_map] at continued
    rw [List.nil_append, Nat.zero_add]
    exact continued

end Draft

/-- A pattern is malformed when one of its signs is to blame. -/
theorem parse_eq_error_iff {units : List CodeUnit} {cause : SyntaxError} :
    parse units = .error cause ↔ firstBlame [] (units.map Sign.ofUnit) = some cause := by
  rw [parse]
  rcases Draft.readSigns_of_blame (units.map Sign.ofUnit) with
    ⟨actual, read, blamed⟩ | ⟨next, read, blameless⟩
  · rw [read, blamed]
    show Except.error actual = _ ↔ _
    rw [Except.error.injEq, Option.some.injEq]
  · rw [read, blameless]
    show Except.ok next.finish = _ ↔ _
    simp

end Acceptor.Pattern
