import Acceptor.Proofs.Pattern.Blame

/-!
# The first violation

Where code units violate the grammar can be seen from the units alone: a star
from the unit before it, a parenthesis from the parentheses next to it.  What
is reported is the violation with the smallest place.
-/

namespace Acceptor.Pattern

/-! ## Violations -/

/-- No parenthesis stands at the places from the first up to the last, the last not included. -/
def PlainBetween (units : List CodeUnit) (first last : Nat) : Prop :=
  ∀ place, first ≤ place → place < last →
    ∀ parenthesis : Parenthesis, units[place]? ≠ some parenthesis.unit

/-- A place where code units do not follow the grammar, and the error that tells so. -/
inductive Violation (units : List CodeUnit) : Nat → SyntaxError → Prop where
  /-- A star begins a branch. -/
  | nothingToRepeat {place : Nat} (star : units[place]? = some Mark.star.unit)
      (begins : place = 0 ∨ units[place - 1]? = some Mark.bar.unit ∨
        units[place - 1]? = some Parenthesis.opening.unit) :
      Violation units place (.nothingToRepeat place)
  /-- A star follows a star. -/
  | notQuantifiable {place : Nat} (star : units[place]? = some Mark.star.unit)
      (later : 0 < place) (starred : units[place - 1]? = some Mark.star.unit) :
      Violation units place (.notQuantifiable place)
  /-- No parenthesis follows an opening one. -/
  | unmatchedGroup {place : Nat}
      (opening : units[place]? = some Parenthesis.opening.unit)
      (last : PlainBetween units (place + 1) units.length) :
      Violation units place (.unmatchedGroup place)
  /-- The parenthesis that follows an opening one is another opening one. -/
  | strayOpeningGroup {place next : Nat}
      (opening : units[place]? = some Parenthesis.opening.unit) (later : place < next)
      (again : units[next]? = some Parenthesis.opening.unit)
      (between : PlainBetween units (place + 1) next) :
      Violation units place (.strayOpeningGroup next)
  /-- The parenthesis before a closing one, if there is any, is another closing one. -/
  | strayClosingGroup {place : Nat}
      (closing : units[place]? = some Parenthesis.closing.unit)
      (unopened : PlainBetween units 0 place ∨
        ∃ previous < place, units[previous]? = some Parenthesis.closing.unit ∧
          PlainBetween units (previous + 1) place) :
      Violation units place (.strayClosingGroup place)

/-- A violation stands at a code unit of the pattern. -/
theorem Violation.lt_length {units : List CodeUnit} {place : Nat} {cause : SyntaxError}
    (violation : Violation units place cause) :
    place < units.length := by
  cases violation with
  | nothingToRepeat star => exact (List.getElem?_eq_some_iff.mp star).1
  | notQuantifiable star => exact (List.getElem?_eq_some_iff.mp star).1
  | unmatchedGroup opening => exact (List.getElem?_eq_some_iff.mp opening).1
  | strayOpeningGroup opening => exact (List.getElem?_eq_some_iff.mp opening).1
  | strayClosingGroup closing => exact (List.getElem?_eq_some_iff.mp closing).1

/-- What is reported lies in the pattern. -/
theorem Violation.index_lt {units : List CodeUnit} {place : Nat} {cause : SyntaxError}
    (violation : Violation units place cause) :
    cause.index < units.length := by
  cases violation with
  | nothingToRepeat star => exact (List.getElem?_eq_some_iff.mp star).1
  | notQuantifiable star => exact (List.getElem?_eq_some_iff.mp star).1
  | unmatchedGroup opening => exact (List.getElem?_eq_some_iff.mp opening).1
  | strayOpeningGroup _ _ again => exact (List.getElem?_eq_some_iff.mp again).1
  | strayClosingGroup closing => exact (List.getElem?_eq_some_iff.mp closing).1

/-! ## Blame is laid on violations -/

theorem getElem?_eq_unit_iff {units : List CodeUnit} {place : Nat} {sign : Sign} :
    units[place]? = some sign.unit ↔ (units.map Sign.ofUnit)[place]? = some sign := by
  rw [List.getElem?_map, Option.map_eq_some_iff]
  constructor
  · intro found
    exact ⟨sign.unit, found, Sign.ofUnit_unit sign⟩
  · rintro ⟨unit, found, rfl⟩
    rw [Sign.unit_ofUnit, found]

theorem Parenthesis.unit_inj {left right : Parenthesis} (same : left.unit = right.unit) :
    left = right := by
  cases left <;> cases right <;> first | rfl | exact absurd same (by decide)

/-- Signs are marks, or marks up to a parenthesis. -/
theorem eq_marks_or_exists_parenthesis (signs : List Sign) :
    (∃ marks : List Mark, signs = marks.map .mark) ∨
      ∃ (marks : List Mark) (parenthesis : Parenthesis) (rest : List Sign),
        signs = marks.map .mark ++ .parenthesis parenthesis :: rest := by
  have joined := stretches_join signs
  match divided : (stretches signs).2 with
  | [] =>
      rw [divided, Draft.stretchSigns, List.flatMap_nil, List.append_nil] at joined
      exact Or.inl ⟨_, joined.symm⟩
  | (parenthesis, marks) :: rest =>
      rw [divided, Draft.stretchSigns_cons] at joined
      exact Or.inr ⟨_, _, _, joined.symm⟩

theorem eq_marks_or_exists_parenthesis_last (signs : List Sign) :
    (∃ marks : List Mark, signs = marks.map .mark) ∨
      ∃ (earlier : List Sign) (parenthesis : Parenthesis) (marks : List Mark),
        signs = earlier ++ .parenthesis parenthesis :: marks.map .mark := by
  rcases eq_marks_or_exists_parenthesis signs.reverse with
    ⟨marks, equal⟩ | ⟨marks, parenthesis, rest, equal⟩
  · refine Or.inl ⟨marks.reverse, ?_⟩
    rw [List.map_reverse, ← equal, List.reverse_reverse]
  · refine Or.inr ⟨rest.reverse, parenthesis, marks.reverse, ?_⟩
    rw [← List.reverse_reverse signs, equal]
    simp

namespace PlainBetween

variable {units : List CodeUnit}

/-- There is no parenthesis among marks. -/
theorem of_marks
    {before after : List Sign}
    {marks : List Mark}
    (divided : units.map Sign.ofUnit = before ++ (marks.map .mark ++ after)) :
    PlainBetween units before.length (before.length + marks.length) := by
  intro place above below parenthesis found
  rw [show parenthesis.unit = (Sign.parenthesis parenthesis).unit from rfl,
    getElem?_eq_unit_iff, divided, List.getElem?_append_right above,
    List.getElem?_append_left (by simp; omega), List.getElem?_map,
    Option.map_eq_some_iff] at found
  rcases found with ⟨mark, _, differ⟩
  cases differ

/-- The first parenthesis from a place on stands at one place only. -/
theorem first_unique
    {first left right : Nat}
    {leftParenthesis rightParenthesis : Parenthesis}
    (leftPlain : PlainBetween units first left)
    (rightPlain : PlainBetween units first right)
    (leftAbove : first ≤ left)
    (rightAbove : first ≤ right)
    (leftFound : units[left]? = some leftParenthesis.unit)
    (rightFound : units[right]? = some rightParenthesis.unit) :
    left = right := by
  rcases Nat.lt_trichotomy left right with less | equal | greater
  · exact absurd leftFound (rightPlain left leftAbove less leftParenthesis)
  · exact equal
  · exact absurd rightFound (leftPlain right rightAbove greater rightParenthesis)

/-- The last parenthesis before a place stands at one place only. -/
theorem last_unique
    {left right last : Nat}
    {leftParenthesis rightParenthesis : Parenthesis}
    (leftPlain : PlainBetween units (left + 1) last)
    (rightPlain : PlainBetween units (right + 1) last)
    (leftBelow : left < last)
    (rightBelow : right < last)
    (leftFound : units[left]? = some leftParenthesis.unit)
    (rightFound : units[right]? = some rightParenthesis.unit) :
    left = right := by
  rcases Nat.lt_trichotomy left right with less | equal | greater
  · exact absurd rightFound (leftPlain right less rightBelow rightParenthesis)
  · exact equal
  · exact absurd leftFound (rightPlain left greater leftBelow leftParenthesis)

end PlainBetween

section

variable {units : List CodeUnit} {before after : List Sign} {sign : Sign}
  (divided : units.map Sign.ofUnit = before ++ sign :: after)

include divided

theorem getElem?_length_before_iff {other : Sign} :
    units[before.length]? = some other.unit ↔ sign = other := by
  rw [getElem?_eq_unit_iff, divided, List.getElem?_append_right (Nat.le_refl _), Nat.sub_self,
    List.getElem?_cons_zero, Option.some.injEq]

theorem getLast?_before_eq_some_iff {other : Sign} :
    before.getLast? = some other ↔
      0 < before.length ∧ units[before.length - 1]? = some other.unit := by
  rw [getElem?_eq_unit_iff, divided, List.getLast?_eq_getElem?]
  constructor
  · intro last
    have positive : 0 < before.length := by
      rcases before with _ | ⟨_, _⟩
      · cases last
      · exact Nat.succ_pos _
    rw [List.getElem?_append_left (by omega)]
    exact ⟨positive, last⟩
  · rintro ⟨positive, last⟩
    rwa [List.getElem?_append_left (by omega)] at last

theorem plainBetween_after {marks : List Mark} {rest : List Sign}
    (marked : after = marks.map .mark ++ rest) :
    PlainBetween units (before.length + 1) (before.length + 1 + marks.length) := by
  have shifted : units.map Sign.ofUnit = before ++ [sign] ++ (marks.map .mark ++ rest) := by
    simp [divided, marked]
  have plain := PlainBetween.of_marks shifted
  rw [List.length_append, List.length_singleton] at plain
  exact plain

theorem getElem?_after {marks : List Mark} {parenthesis : Parenthesis} {rest : List Sign}
    (marked : after = marks.map .mark ++ .parenthesis parenthesis :: rest) :
    units[before.length + 1 + marks.length]? = some parenthesis.unit := by
  have shifted : units.map Sign.ofUnit =
      (before ++ sign :: marks.map .mark) ++ .parenthesis parenthesis :: rest := by
    simp [divided, marked]
  have found : units[(before ++ sign :: marks.map Sign.mark).length]? =
      some (Sign.parenthesis parenthesis).unit :=
    (getElem?_length_before_iff shifted).mpr rfl
  rw [List.length_append, List.length_cons, List.length_map] at found
  rwa [Nat.add_assoc, Nat.add_comm 1]

theorem length_eq_of_marks_after {marks : List Mark} (marked : after = marks.map .mark) :
    units.length = before.length + 1 + marks.length := by
  have length := congrArg List.length divided
  rw [marked, List.length_map, List.length_append, List.length_cons, List.length_map] at length
  omega

theorem plainBetween_before {earlier : List Sign} {marks : List Mark}
    (marked : before = earlier ++ marks.map .mark) :
    PlainBetween units earlier.length before.length := by
  have shifted : units.map Sign.ofUnit = earlier ++ (marks.map .mark ++ sign :: after) := by
    simp [divided, marked]
  have plain := PlainBetween.of_marks shifted
  rw [marked, List.length_append, List.length_map]
  exact plain

theorem getElem?_before {earlier later : List Sign} {other : Sign}
    (marked : before = earlier ++ other :: later) :
    units[earlier.length]? = some other.unit := by
  have shifted : units.map Sign.ofUnit = earlier ++ other :: (later ++ sign :: after) := by
    simp [divided, marked]
  exact (getElem?_length_before_iff shifted).mpr rfl

/-- The last parenthesis before a sign, and where it stands. -/
theorem last_parenthesis_before {earlier : List Sign} {parenthesis : Parenthesis}
    {marks : List Mark} (marked : before = earlier ++ .parenthesis parenthesis :: marks.map .mark) :
    units[earlier.length]? = some parenthesis.unit ∧ earlier.length < before.length ∧
      PlainBetween units (earlier.length + 1) before.length := by
  have found : units[earlier.length]? = some (Sign.parenthesis parenthesis).unit :=
    getElem?_before divided marked
  have below : earlier.length < before.length := by
    rw [marked, List.length_append, List.length_cons]
    omega
  rw [List.append_cons] at marked
  have plain := plainBetween_before divided marked
  rw [List.length_append, List.length_singleton] at plain
  exact ⟨found, below, plain⟩

theorem Violation.of_blame_star {cause : SyntaxError} (star : sign = .mark .star)
    (blamed : blame before sign after = some cause) :
    Violation units before.length cause := by
  have found := (getElem?_length_before_iff divided).mpr star
  rw [star, blame] at blamed
  rcases last : before.getLast? with _ | ((bar | star | leaf) | (opening | closing)) <;>
    rw [last] at blamed <;> cases blamed
  · rw [List.getLast?_eq_none_iff.mp last] at found ⊢
    exact .nothingToRepeat found (Or.inl rfl)
  · have place := (getLast?_before_eq_some_iff divided).mp last
    exact .nothingToRepeat found (Or.inr (Or.inl place.2))
  · have place := (getLast?_before_eq_some_iff divided).mp last
    exact .notQuantifiable found place.1 place.2
  · have place := (getLast?_before_eq_some_iff divided).mp last
    exact .nothingToRepeat found (Or.inr (Or.inr place.2))

theorem Violation.of_blame_opening {cause : SyntaxError}
    (opening : sign = .parenthesis .opening)
    (blamed : blame before sign after = some cause) :
    Violation units before.length cause := by
  have found := (getElem?_length_before_iff divided).mpr opening
  rcases eq_marks_or_exists_parenthesis after with
    ⟨marks, marked⟩ | ⟨marks, parenthesis, rest, marked⟩
  · rw [opening, marked, Draft.blame_opening_of_nil] at blamed
    cases blamed
    have length := length_eq_of_marks_after divided marked
    rw [← List.append_nil (marks.map _)] at marked
    exact .unmatchedGroup found (length ▸ plainBetween_after divided marked)
  · cases parenthesis with
    | opening =>
        rw [opening, marked, Draft.blame_opening_of_opening] at blamed
        cases blamed
        exact .strayOpeningGroup found (by omega) (getElem?_after divided marked)
          (plainBetween_after divided marked)
    | closing =>
        rw [opening, marked, Draft.blame_opening_of_closing] at blamed
        cases blamed

theorem Violation.of_blame_closing {cause : SyntaxError}
    (closing : sign = .parenthesis .closing)
    (blamed : blame before sign after = some cause) :
    Violation units before.length cause := by
  have found := (getElem?_length_before_iff divided).mpr closing
  rcases eq_marks_or_exists_parenthesis_last before with
    ⟨marks, marked⟩ | ⟨earlier, parenthesis, marks, marked⟩
  · have outside : firstParenthesis before.reverse ≠ some .opening := by
      rw [marked, firstParenthesis_reverse_of_marks]
      decide
    rw [closing, Draft.blame_closing_of_outside outside] at blamed
    cases blamed
    rw [← List.nil_append (marks.map _)] at marked
    exact .strayClosingGroup found (Or.inl (plainBetween_before divided marked))
  · cases parenthesis with
    | opening =>
        rw [closing, marked, Draft.blame_closing_of_body] at blamed
        cases blamed
    | closing =>
        rcases last_parenthesis_before divided marked with ⟨previous, below, plain⟩
        have outside : firstParenthesis before.reverse ≠ some .opening := by
          rw [marked, firstParenthesis_reverse_of_parenthesis]
          decide
        rw [closing, Draft.blame_closing_of_outside outside] at blamed
        cases blamed
        exact .strayClosingGroup found (Or.inr ⟨earlier.length, below, previous, plain⟩)

theorem blame_of_nothingToRepeat
    (star : units[before.length]? = some Mark.star.unit)
    (begins : before.length = 0 ∨ units[before.length - 1]? = some Mark.bar.unit ∨
      units[before.length - 1]? = some Parenthesis.opening.unit) :
    blame before sign after = some (.nothingToRepeat before.length) := by
  have starred : sign = .mark .star := (getElem?_length_before_iff divided).mp star
  rcases Nat.eq_zero_or_pos before.length with zero | positive
  · rw [starred, List.length_eq_zero_iff.mp zero]
    rfl
  rcases begins with zero | bar | opening
  · omega
  · have last : before.getLast? = some (.mark .bar) :=
      (getLast?_before_eq_some_iff divided).mpr ⟨positive, bar⟩
    rw [starred, blame, last]
  · have last : before.getLast? = some (.parenthesis .opening) :=
      (getLast?_before_eq_some_iff divided).mpr ⟨positive, opening⟩
    rw [starred, blame, last]

theorem blame_of_notQuantifiable
    (star : units[before.length]? = some Mark.star.unit)
    (later : 0 < before.length)
    (starred : units[before.length - 1]? = some Mark.star.unit) :
    blame before sign after = some (.notQuantifiable before.length) := by
  have here : sign = .mark .star := (getElem?_length_before_iff divided).mp star
  have last : before.getLast? = some (.mark .star) :=
    (getLast?_before_eq_some_iff divided).mpr ⟨later, starred⟩
  rw [here, blame, last]

theorem blame_of_unmatchedGroup
    (opening : units[before.length]? = some Parenthesis.opening.unit)
    (last : PlainBetween units (before.length + 1) units.length) :
    blame before sign after = some (.unmatchedGroup before.length) := by
  have here : sign = .parenthesis .opening := (getElem?_length_before_iff divided).mp opening
  rcases eq_marks_or_exists_parenthesis after with
    ⟨marks, marked⟩ | ⟨marks, parenthesis, rest, marked⟩
  · rw [here, marked, Draft.blame_opening_of_nil]
  · have found := getElem?_after divided marked
    have below := (List.getElem?_eq_some_iff.mp found).1
    exact absurd found (last _ (by omega) below parenthesis)

theorem blame_of_strayOpeningGroup {next : Nat}
    (opening : units[before.length]? = some Parenthesis.opening.unit)
    (later : before.length < next)
    (again : units[next]? = some Parenthesis.opening.unit)
    (between : PlainBetween units (before.length + 1) next) :
    blame before sign after = some (.strayOpeningGroup next) := by
  have here : sign = .parenthesis .opening := (getElem?_length_before_iff divided).mp opening
  rcases eq_marks_or_exists_parenthesis after with
    ⟨marks, marked⟩ | ⟨marks, parenthesis, rest, marked⟩
  · have length := length_eq_of_marks_after divided marked
    have below := (List.getElem?_eq_some_iff.mp again).1
    rw [← List.append_nil (marks.map _)] at marked
    exact absurd again (plainBetween_after divided marked next later (by omega) .opening)
  · have found := getElem?_after divided marked
    have same := between.first_unique (plainBetween_after divided marked) later (by omega)
      again found
    rw [← same, again, Option.some.injEq] at found
    rw [here, marked, ← Parenthesis.unit_inj found, Draft.blame_opening_of_opening, same]

theorem blame_of_strayClosingGroup
    (closing : units[before.length]? = some Parenthesis.closing.unit)
    (unopened : PlainBetween units 0 before.length ∨
      ∃ previous < before.length, units[previous]? = some Parenthesis.closing.unit ∧
        PlainBetween units (previous + 1) before.length) :
    blame before sign after = some (.strayClosingGroup before.length) := by
  have here : sign = .parenthesis .closing := (getElem?_length_before_iff divided).mp closing
  rw [here]
  apply Draft.blame_closing_of_outside
  rcases eq_marks_or_exists_parenthesis_last before with
    ⟨marks, marked⟩ | ⟨earlier, parenthesis, marks, marked⟩
  · rw [marked, firstParenthesis_reverse_of_marks]
    decide
  · rcases last_parenthesis_before divided marked with ⟨found, below, plain⟩
    rcases unopened with none | ⟨previous, previousBelow, again, between⟩
    · exact absurd found (none earlier.length (Nat.zero_le _) below parenthesis)
    · have same := between.last_unique plain previousBelow below again found
      rw [← same, again, Option.some.injEq] at found
      rw [marked, firstParenthesis_reverse_of_parenthesis, ← Parenthesis.unit_inj found]
      decide

/-- A sign is blamed for the violation at its place. -/
theorem blame_eq_some_iff {cause : SyntaxError} :
    blame before sign after = some cause ↔ Violation units before.length cause := by
  constructor
  · intro blamed
    match sign with
    | .mark .star => exact Violation.of_blame_star divided rfl blamed
    | .mark .bar => cases blamed
    | .mark (.leaf _) => cases blamed
    | .parenthesis .opening => exact Violation.of_blame_opening divided rfl blamed
    | .parenthesis .closing => exact Violation.of_blame_closing divided rfl blamed
  · intro violation
    cases violation with
    | nothingToRepeat star begins => exact blame_of_nothingToRepeat divided star begins
    | notQuantifiable star later starred =>
        exact blame_of_notQuantifiable divided star later starred
    | unmatchedGroup opening last => exact blame_of_unmatchedGroup divided opening last
    | strayOpeningGroup opening later again between =>
        exact blame_of_strayOpeningGroup divided opening later again between
    | strayClosingGroup closing unopened =>
        exact blame_of_strayClosingGroup divided closing unopened

end

/-- A violation that no other one precedes. -/
structure FirstViolation (units : List CodeUnit) (place : Nat) (cause : SyntaxError) :
    Prop where
  /-- It is a violation. -/
  violation : Violation units place cause
  /-- Every violation stands at its place or later. -/
  first : ∀ other otherCause, Violation units other otherCause → place ≤ other

/-- Where there are violations, one of them is first. -/
theorem Violation.exists_first
    {units : List CodeUnit}
    {place : Nat}
    {cause : SyntaxError}
    (violation : Violation units place cause) :
    ∃ first reported, FirstViolation units first reported := by
  induction place using Nat.strongRecOn generalizing cause with
  | ind place induction =>
      by_cases earlier : ∃ other < place, ∃ otherCause, Violation units other otherCause
      · rcases earlier with ⟨other, less, otherCause, found⟩
        exact induction other less found
      · refine ⟨place, cause, violation, ?_⟩
        intro other otherCause found
        exact Nat.le_of_not_lt fun less => earlier ⟨other, less, otherCause, found⟩

/-- The scan blames the first violation from where it begins. -/
theorem firstBlame_eq_some_iff
    {units : List CodeUnit}
    {before after : List Sign}
    (divided : units.map Sign.ofUnit = before ++ after)
    (clean : ∀ place cause, Violation units place cause → before.length ≤ place)
    {cause : SyntaxError} :
    firstBlame before after = some cause ↔ ∃ place, FirstViolation units place cause := by
  induction after generalizing before with
  | nil =>
      have length : units.length = before.length := by
        simpa using congrArg List.length divided
      constructor
      · intro blamed
        cases blamed
      · rintro ⟨place, violation, _⟩
        have below := violation.lt_length
        have above := clean place cause violation
        omega
  | cons sign rest induction =>
      rw [firstBlame]
      cases blamed : blame before sign rest with
      | some here =>
          have violation := (blame_eq_some_iff divided).mp blamed
          rw [Option.some_or]
          constructor
          · intro equal
            cases equal
            exact ⟨before.length, violation, clean⟩
          · rintro ⟨place, reported, first⟩
            have place : place = before.length :=
              Nat.le_antisymm (first _ _ violation) (clean _ _ reported)
            rw [place] at reported
            exact blamed.symm.trans ((blame_eq_some_iff divided).mpr reported)
      | none =>
          rw [Option.none_or]
          apply induction
          · rw [divided, List.append_cons]
          · intro place other violation
            have above := clean place other violation
            have elsewhere : place ≠ before.length := by
              intro place
              rw [place] at violation
              rw [(blame_eq_some_iff divided).mpr violation] at blamed
              cases blamed
            rw [List.length_append, List.length_singleton]
            omega

/-- A pattern that does not follow the grammar is reported with its first violation. -/
theorem parse_eq_error_iff_firstViolation {units : List CodeUnit} {cause : SyntaxError} :
    parse units = .error cause ↔ ∃ place, FirstViolation units place cause := by
  rw [parse_eq_error_iff]
  apply firstBlame_eq_some_iff
  · rfl
  · intro place other _
    exact Nat.zero_le place

/-- A pattern follows the grammar when nothing violates it. -/
theorem exists_parse_eq_ok_iff {units : List CodeUnit} :
    (∃ pattern, parse units = .ok pattern) ↔
      ∀ place cause, ¬ Violation units place cause := by
  constructor
  · rintro ⟨pattern, read⟩ place cause violation
    rcases violation.exists_first with ⟨first, reported, isFirst⟩
    rw [parse_eq_error_iff_firstViolation.mpr ⟨first, isFirst⟩] at read
    cases read
  · intro clean
    match read : parse units with
    | .ok pattern => exact ⟨pattern, rfl⟩
    | .error cause =>
        rcases parse_eq_error_iff_firstViolation.mp read with ⟨place, first⟩
        exact absurd first.violation (clean place cause)

end Acceptor.Pattern
