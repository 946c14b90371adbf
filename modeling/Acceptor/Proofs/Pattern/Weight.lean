import Acceptor.Pattern.Sign

/-!
# The weight of a pattern

The signs of a pattern have a weight that tells how many states its automaton
will have.  A leaf weighs four and a star two.  Bars and parentheses weigh
nothing by themselves, but where a branch ends that has not begun yet, the empty
branch weighs three.

The weight is read off the code units: it takes the number of leaves, the
number of stars and the number of places at which a branch both begins and
ends.
-/

namespace Acceptor.Pattern

/-! ## The weight of signs -/

/-- What signs weigh, when a branch does or does not begin before the first of them. -/
def weightFrom (begins : Bool) : List Sign → Nat
  | [] => if begins then 3 else 0
  | .mark .bar :: rest => (if begins then 3 else 0) + weightFrom true rest
  | .mark .star :: rest => 2 + weightFrom false rest
  | .mark (.leaf _) :: rest => 4 + weightFrom false rest
  | .parenthesis .opening :: rest => weightFrom true rest
  | .parenthesis .closing :: rest => (if begins then 3 else 0) + weightFrom false rest

/-- Signs weigh at most four each, and an empty branch before them three more. -/
theorem weightFrom_le (begins : Bool) (signs : List Sign) :
    weightFrom begins signs ≤ 4 * signs.length + if begins then 3 else 0 := by
  induction signs generalizing begins with
  | nil => exact Nat.le_add_left _ _
  | cons sign rest induction =>
      have begun : weightFrom true rest ≤ 4 * rest.length + 3 := induction true
      have continued : weightFrom false rest ≤ 4 * rest.length := induction false
      rw [List.length_cons]
      cases begins <;> match sign with
        | .mark .bar | .mark .star | .mark (.leaf _) | .parenthesis .opening
        | .parenthesis .closing =>
            simp only [weightFrom, if_true, Bool.false_eq_true, if_false]
            omega

/-- What follows the body of a group continues a branch. -/
theorem weightFrom_group (begins : Bool) (body : List Mark) (after : List Sign) :
    weightFrom begins (body.map .mark ++ .parenthesis .closing :: after) =
      weightFrom begins (body.map .mark) + weightFrom false after := by
  induction body generalizing begins with
  | nil => rfl
  | cons mark rest induction =>
      cases mark with
      | bar | star | leaf =>
          simp only [List.map_cons, List.cons_append, weightFrom, induction, Nat.add_assoc]

/-! ## Counting in the text -/

/-- The number of code units that are literals or dots. -/
def leafCount (units : List CodeUnit) : Nat :=
  units.countP fun unit => unit = Leaf.any.unit ∨ unit ∉ specialUnits

/-- The number of code units that are stars. -/
def starCount (units : List CodeUnit) : Nat :=
  units.count Mark.star.unit

/-- A branch begins at a place between code units, and ends at the same place. -/
def EmptyBranchAt (units : List CodeUnit) (place : Nat) : Prop :=
  (place = 0 ∨ units[place - 1]? = some Mark.bar.unit ∨
    units[place - 1]? = some Parenthesis.opening.unit) ∧
  (place = units.length ∨ units[place]? = some Mark.bar.unit ∨
    units[place]? = some Parenthesis.closing.unit)

instance (units : List CodeUnit) (place : Nat) : Decidable (EmptyBranchAt units place) := by
  unfold EmptyBranchAt
  infer_instance

/-- The number of places at which a branch is empty. -/
def emptyBranchCount (units : List CodeUnit) : Nat :=
  (List.range (units.length + 1)).countP fun place => EmptyBranchAt units place

/-- Whether a branch begins after a code unit. -/
def beginsAfter (unit : CodeUnit) : Bool :=
  unit = Mark.bar.unit ∨ unit = Parenthesis.opening.unit

/-- Whether a branch ends before a code unit. -/
def endsBefore (unit : CodeUnit) : Bool :=
  unit = Mark.bar.unit ∨ unit = Parenthesis.closing.unit

/-- Whether a branch begins at a place, when it is known whether one begins at the first. -/
def beginsAt (begins : Bool) (units : List CodeUnit) : Nat → Bool
  | 0 => begins
  | place + 1 => units[place]?.any beginsAfter

/-- The number of empty branches, when it is known whether a branch begins at the first place. -/
def emptyBranchesFrom (begins : Bool) (units : List CodeUnit) : Nat :=
  (List.range (units.length + 1)).countP fun place =>
    beginsAt begins units place && units[place]?.all endsBefore

theorem emptyBranchesFrom_cons (begins : Bool) (unit : CodeUnit) (rest : List CodeUnit) :
    emptyBranchesFrom begins (unit :: rest) =
      (begins && endsBefore unit).toNat + emptyBranchesFrom (beginsAfter unit) rest := by
  rw [emptyBranchesFrom, List.length_cons, List.range_succ_eq_map, List.countP_cons,
    List.countP_map, Nat.add_comm]
  congr 1
  · show (if begins && endsBefore unit then 1 else 0) = _
    cases begins && endsBefore unit <;> rfl
  · refine List.countP_congr fun place _ => ?_
    cases place <;> rfl

theorem all_endsBefore_iff (units : List CodeUnit) (place : Nat) :
    units[place]?.all endsBefore = true ↔
      units[place]? = none ∨ units[place]? = some Mark.bar.unit ∨
        units[place]? = some Parenthesis.closing.unit := by
  cases units[place]? with
  | none => simp
  | some unit => simp [endsBefore]

theorem beginsAt_true_iff (units : List CodeUnit) (place : Nat) :
    beginsAt true units place = true ↔
      place = 0 ∨ units[place - 1]? = some Mark.bar.unit ∨
        units[place - 1]? = some Parenthesis.opening.unit := by
  cases place with
  | zero => simp [beginsAt]
  | succ place =>
      rw [beginsAt, Nat.add_sub_cancel]
      cases units[place]? with
      | none => simp
      | some unit => simp [beginsAfter]

theorem emptyBranchCount_eq (units : List CodeUnit) :
    emptyBranchCount units = emptyBranchesFrom true units := by
  refine List.countP_congr fun place inside => ?_
  have last : units[place]? = none ↔ place = units.length := by
    have bound := List.mem_range.mp inside
    rw [List.getElem?_eq_none_iff]
    omega
  rw [decide_eq_true_iff, EmptyBranchAt, Bool.and_eq_true, beginsAt_true_iff, all_endsBefore_iff,
    last]

theorem leafCount_cons (unit : CodeUnit) (rest : List CodeUnit) :
    leafCount (unit :: rest) =
      leafCount rest + if unit = Leaf.any.unit ∨ unit ∉ specialUnits then 1 else 0 := by
  simp only [leafCount, List.countP_cons, decide_eq_true_eq]

theorem starCount_cons (unit : CodeUnit) (rest : List CodeUnit) :
    starCount (unit :: rest) = starCount rest + if unit = Mark.star.unit then 1 else 0 := by
  simp only [starCount, List.count_cons, beq_iff_eq]

/-- The first sign adds to the weight for what it is, and for the branch that it ends. -/
theorem weightFrom_cons (begins : Bool) (sign : Sign) (rest : List Sign) :
    weightFrom begins (sign :: rest) =
      4 * (if sign.unit = Leaf.any.unit ∨ sign.unit ∉ specialUnits then 1 else 0) +
        2 * (if sign.unit = Mark.star.unit then 1 else 0) +
        3 * (begins && endsBefore sign.unit).toNat + weightFrom (beginsAfter sign.unit) rest := by
  match sign with
  | .mark .bar => cases begins <;> rfl
  | .mark .star => cases begins <;> rfl
  | .mark (.leaf .any) => cases begins <;> rfl
  | .mark (.leaf (.literal unit ordinary)) =>
      have different : ∀ special ∈ specialUnits, unit ≠ special := by
        rintro special member rfl
        exact ordinary member
      have bar := different Mark.bar.unit (by decide)
      have star := different Mark.star.unit (by decide)
      have opening := different Parenthesis.opening.unit (by decide)
      have closing := different Parenthesis.closing.unit (by decide)
      have ends : endsBefore unit = false := by simp [endsBefore, bar, closing]
      have continued : beginsAfter unit = false := by simp [beginsAfter, bar, opening]
      show 4 + weightFrom false rest =
        4 * (if unit = Leaf.any.unit ∨ unit ∉ specialUnits then 1 else 0) +
          2 * (if unit = Mark.star.unit then 1 else 0) +
          3 * (begins && endsBefore unit).toNat + weightFrom (beginsAfter unit) rest
      rw [if_pos (Or.inr ordinary), if_neg star, ends, continued, Bool.and_false]
      rfl
  | .parenthesis .opening => cases begins <;> exact (Nat.zero_add _).symm
  | .parenthesis .closing => cases begins <;> rfl

/-- The weight of signs is read off the code units. -/
theorem weightFrom_eq (begins : Bool) (signs : List Sign) :
    weightFrom begins signs =
      4 * leafCount (signs.map Sign.unit) + 2 * starCount (signs.map Sign.unit) +
        3 * emptyBranchesFrom begins (signs.map Sign.unit) := by
  induction signs generalizing begins with
  | nil => cases begins <;> rfl
  | cons sign rest induction =>
      rw [List.map_cons, emptyBranchesFrom_cons, leafCount_cons, starCount_cons, weightFrom_cons,
        induction]
      omega

end Acceptor.Pattern
