import Acceptor.StateSet.Basic

/-!
# Sets of states through their members

A set of states is known by its members: sets with the same members are
equal, and each operation is described by the membership it produces.  A set
has at most as many members as there are 32-bit words.
-/

namespace Acceptor

universe u

namespace StateSet

theorem mem_def {set : StateSet} {state : State} : state ∈ set ↔ state ∈ set.members :=
  Iff.rfl

@[simp]
theorem mem_toList {set : StateSet} {state : State} : state ∈ set.toList ↔ state ∈ set :=
  Iff.rfl

@[simp]
theorem contains_eq_true_iff {set : StateSet} {state : State} :
    set.contains state = true ↔ state ∈ set := by
  simp [contains]

theorem toList_inj {left right : StateSet} : left.toList = right.toList ↔ left = right := by
  constructor
  · intro same
    cases left
    cases right
    simpa [toList] using same
  · exact congrArg toList

theorem nodup_of_ascending {list : List State} (ascending : list.Pairwise (· < ·)) :
    list.Nodup :=
  ascending.imp UInt32.ne_of_lt

theorem nodup_toList (set : StateSet) : set.toList.Nodup :=
  nodup_of_ascending set.ascending

/-- Two ascending lists with the same members are the same list. -/
theorem eq_of_ascending {left right : List State}
    (leftAscending : left.Pairwise (· < ·)) (rightAscending : right.Pairwise (· < ·))
    (same : ∀ state, state ∈ left ↔ state ∈ right) :
    left = right := by
  have permuted : left.Perm right :=
    (List.perm_ext_iff_of_nodup (nodup_of_ascending leftAscending)
      (nodup_of_ascending rightAscending)).mpr same
  refine permuted.eq_of_pairwise ?_ leftAscending rightAscending
  intro first second _ _ below above
  exact absurd (UInt32.lt_trans below above) (UInt32.lt_irrefl first)

/-- Sets with the same members are equal. -/
@[ext]
theorem ext_mem {left right : StateSet} (same : ∀ state, state ∈ left ↔ state ∈ right) :
    left = right :=
  toList_inj.mp (eq_of_ascending left.ascending right.ascending same)

/-! ## Operations -/

@[simp]
theorem not_mem_empty (state : State) : state ∉ (∅ : StateSet) :=
  List.not_mem_nil

@[simp]
theorem mem_singleton {state other : State} : other ∈ ({state} : StateSet) ↔ other = state :=
  List.mem_singleton

@[simp]
theorem toList_empty : (∅ : StateSet).toList = [] := rfl

@[simp]
theorem toList_singleton (state : State) : ({state} : StateSet).toList = [state] := rfl

@[simp]
theorem mem_insert {set : StateSet} {state other : State} :
    other ∈ set.insert state ↔ other = state ∨ other ∈ set :=
  mem_insertAscending

@[simp]
theorem mem_insertMany {set : StateSet} {states : List State} {state : State} :
    state ∈ set.insertMany states ↔ state ∈ set ∨ state ∈ states := by
  induction states generalizing set with
  | nil => simp [insertMany]
  | cons first rest induction =>
      have step : set.insertMany (first :: rest) = (set.insert first).insertMany rest := rfl
      rw [step, induction, mem_insert, List.mem_cons]
      grind

@[simp]
theorem mem_ofList {states : List State} {state : State} :
    state ∈ ofList states ↔ state ∈ states := by
  rw [ofList, mem_insertMany]
  exact or_iff_right (not_mem_empty state)

@[simp]
theorem ofList_toList (set : StateSet) : ofList set.toList = set := by
  ext state
  simp

@[simp]
theorem mem_union {left right : StateSet} {state : State} :
    state ∈ left ∪ right ↔ state ∈ left ∨ state ∈ right :=
  mem_mergeAscending

/-- A union over a list has the members of its parts. -/
theorem mem_foldl_union {α : Type u} {part : α → StateSet} {list : List α}
    {start : StateSet} {state : State} :
    state ∈ list.foldl (fun reached element => reached ∪ part element) start ↔
      state ∈ start ∨ ∃ element ∈ list, state ∈ part element := by
  induction list generalizing start with
  | nil => simp
  | cons first rest induction =>
      rw [List.foldl_cons, induction, mem_union]
      simp [or_assoc]

theorem intersects_eq_true_iff {left right : StateSet} :
    left.intersects right = true ↔ ∃ state, state ∈ left ∧ state ∈ right := by
  rw [intersects, List.any_eq_true]
  constructor
  · rintro ⟨state, leftMember, rightMember⟩
    exact ⟨state, leftMember, contains_eq_true_iff.mp rightMember⟩
  · rintro ⟨state, leftMember, rightMember⟩
    exact ⟨state, leftMember, contains_eq_true_iff.mpr rightMember⟩

theorem isEmpty_eq_true_iff {set : StateSet} : set.isEmpty = true ↔ set = ∅ := by
  rw [isEmpty, List.isEmpty_iff]
  exact ⟨fun nil => toList_inj.mp nil, fun equal => congrArg members equal⟩

theorem eq_empty_iff {set : StateSet} : set = ∅ ↔ ∀ state, state ∉ set := by
  constructor
  · rintro rfl
    exact not_mem_empty
  · intro none
    ext state
    exact ⟨fun member => absurd member (none state),
      fun member => absurd member (not_mem_empty state)⟩

theorem ne_empty_of_mem {set : StateSet} {state : State} (member : state ∈ set) : set ≠ ∅ :=
  fun equal => eq_empty_iff.mp equal state member

theorem exists_mem_of_ne_empty {set : StateSet} (nonempty : set ≠ ∅) :
    ∃ state, state ∈ set := by
  apply Classical.byContradiction
  intro none
  exact nonempty (eq_empty_iff.mpr fun state member => none ⟨state, member⟩)

/-- Inserting a new state makes a set larger by one. -/
theorem size_insert_of_not_mem {set : StateSet} {state : State} (absent : state ∉ set) :
    (set.insert state).size = set.size + 1 := by
  have lengths : ∀ list : List State, state ∉ list →
      (insertAscending state list).length = list.length + 1 := by
    intro list absent
    induction list with
    | nil => rfl
    | cons least rest induction =>
        rw [List.mem_cons, not_or] at absent
        unfold insertAscending
        split
        · rfl
        · rw [if_neg absent.1, List.length_cons, induction absent.2, List.length_cons]
  exact lengths set.members absent

/-! ## Bounds -/

/-- An ascending list of numbers between two bounds fits between them. -/
theorem length_le_of_ascending {list : List Nat} (lower upper : Nat)
    (ascending : list.Pairwise (· < ·)) (atLeast : ∀ number ∈ list, lower ≤ number)
    (below : ∀ number ∈ list, number < upper) :
    list.length ≤ upper - lower := by
  induction list generalizing lower with
  | nil => exact Nat.zero_le _
  | cons first rest induction =>
      obtain ⟨firstBelow, ascending⟩ := List.pairwise_cons.mp ascending
      have firstAtLeast := atLeast first (List.mem_cons_self ..)
      have firstUpper := below first (List.mem_cons_self ..)
      have tail := induction (first + 1) ascending (fun number member => firstBelow number member)
        (fun number member => below number (List.mem_cons_of_mem _ member))
      rw [List.length_cons]
      omega

/-- A set has no more members than there are states. -/
theorem size_le (set : StateSet) : set.size ≤ UInt32.size := by
  have numbers : (set.members.map UInt32.toNat).Pairwise (· < ·) :=
    List.pairwise_map.mpr (set.ascending.imp UInt32.lt_iff_toNat_lt.mp)
  have bound := length_le_of_ascending 0 UInt32.size numbers
    (fun _ _ => Nat.zero_le _) (by
      intro number member
      obtain ⟨state, _, rfl⟩ := List.mem_map.mp member
      exact UInt32.toNat_lt state)
  simpa [size] using bound

end StateSet

end Acceptor
