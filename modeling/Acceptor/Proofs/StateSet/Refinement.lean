import Acceptor.StateSet.Bits
import Mathlib.Data.Finset.Sort

/-!
# What sets of states stand for

A set of states that is kept in some form stands for a finite set of numbers.
Each operation takes kept sets that stand for finite sets to a kept set that
stands for what the operation means for finite sets, and each observation
tells something about the finite set alone.  Hence nothing that a program
observes depends on how long the vectors of bits have become or on the order
in which states went in.
-/

namespace Acceptor

universe u

/-! ## Finite sets -/

namespace SetCommand

/-- The value that a command gives, as a finite set of states. -/
def meaning (sets : Nat → Finset State) : SetCommand → Finset State
  | empty _ | withCapacity _ _ => ∅
  | singleton _ state _ => {state}
  | collect _ states => states.toFinset
  | insert name state => Insert.insert state (sets name)
  | extend name states => sets name ∪ states.toFinset
  | union name other => sets name ∪ sets other
  | copy _ original => sets original

/-- The finite sets after a command. -/
def effect (sets : Nat → Finset State) (command : SetCommand) : Nat → Finset State :=
  fun name => if name = command.name then command.meaning sets else sets name

/-- The finite sets after commands, when all of them are empty at first. -/
def members (commands : List SetCommand) : Nat → Finset State :=
  commands.foldl effect fun _ => ∅

end SetCommand

theorem pairwise_sort_lt (members : Finset State) :
    (members.sort (· ≤ ·)).Pairwise (· < ·) := by
  have distinct : (members.sort (· ≤ ·)).Pairwise (· ≠ ·) := members.sort_nodup _
  refine ((members.pairwise_sort (· ≤ ·)).and distinct).imp ?_
  rintro first second ⟨least, different⟩
  exact UInt32.lt_of_le_of_ne least different

/-- A strictly ascending list of the members of a finite set is the sorted one. -/
theorem eq_sort_of_ascending
    {list : List State}
    {members : Finset State}
    (ascending : list.Pairwise (· < ·))
    (same : ∀ state, state ∈ list ↔ state ∈ members) :
    list = members.sort (· ≤ ·) := by
  refine StateSet.eq_of_ascending ascending (pairwise_sort_lt members) fun state => ?_
  rw [same, Finset.mem_sort]

theorem sort_inj {left right : Finset State} :
    left.sort (· ≤ ·) = right.sort (· ≤ ·) ↔ left = right := by
  constructor
  · intro same
    ext state
    rw [← Finset.mem_sort (· ≤ ·), same, Finset.mem_sort]
  · rintro rfl
    rfl

/-! ## Standing for finite sets -/

/--
Operations on kept sets do what they mean for the finite sets that kept sets
stand for.
-/
structure SetOperations.Faithful {τ : Type u}
    (operations : SetOperations τ)
    (standsFor : τ → Finset State → Prop) : Prop where
  empty : standsFor operations.empty ∅
  withCapacity : ∀ capacity, standsFor (operations.withCapacity capacity) ∅
  singleton : ∀ state capacity, standsFor (operations.singleton state capacity) {state}
  collect : ∀ states, standsFor (operations.collect states) states.toFinset
  insert : ∀ {set members}, standsFor set members → ∀ state,
    standsFor (operations.insert set state).2 (Insert.insert state members)
  extend : ∀ {set members}, standsFor set members → ∀ states,
    standsFor (operations.extend set states) (members ∪ states.toFinset)
  union : ∀ {left right leftMembers rightMembers},
    standsFor left leftMembers → standsFor right rightMembers →
      standsFor (operations.union left right) (leftMembers ∪ rightMembers)
  fresh : ∀ {set members}, standsFor set members → ∀ state,
    (operations.insert set state).1 = true ↔ state ∉ members
  contains : ∀ {set members}, standsFor set members → ∀ state,
    operations.contains set state = true ↔ state ∈ members
  isEmpty : ∀ {set members}, standsFor set members →
    (operations.isEmpty set = true ↔ members = ∅)
  size : ∀ {set members}, standsFor set members → operations.size set = members.card
  intersects : ∀ {left right leftMembers rightMembers},
    standsFor left leftMembers → standsFor right rightMembers →
      (operations.intersects left right = true ↔ ¬ Disjoint leftMembers rightMembers)
  toList : ∀ {set members}, standsFor set members →
    operations.toList set = members.sort (· ≤ ·)
  equal : ∀ {left right leftMembers rightMembers},
    standsFor left leftMembers → standsFor right rightMembers →
      (operations.equal left right = true ↔ leftMembers = rightMembers)
  text : ∀ {set members}, standsFor set members →
    operations.text set = listing (members.sort (· ≤ ·))

namespace SetOperations.Faithful

variable {τ : Type u} {operations : SetOperations τ} {standsFor : τ → Finset State → Prop}
  (faithful : operations.Faithful standsFor)

include faithful

/-- After a command each name still stands for its finite set. -/
theorem apply
    {sets : Nat → τ}
    {members : Nat → Finset State}
    (before : ∀ name, standsFor (sets name) (members name))
    (command : SetCommand)
    (name : Nat) :
    standsFor (command.apply operations sets name) (command.effect members name) := by
  have given : standsFor (command.value operations sets) (command.meaning members) := by
    cases command with
    | empty _ => exact faithful.empty
    | withCapacity _ capacity => exact faithful.withCapacity capacity
    | singleton _ state capacity => exact faithful.singleton state capacity
    | collect _ states => exact faithful.collect states
    | insert target state => exact faithful.insert (before target) state
    | extend target states => exact faithful.extend (before target) states
    | union target other => exact faithful.union (before target) (before other)
    | copy _ original => exact before original
  unfold SetCommand.apply SetCommand.effect
  split
  · exact given
  · exact before name

/-- After any commands each name stands for its finite set. -/
theorem run (commands : List SetCommand) (name : Nat) :
    standsFor (SetCommand.run operations commands name) (SetCommand.members commands name) := by
  have general : ∀ (sets : Nat → τ) (members : Nat → Finset State),
      (∀ name, standsFor (sets name) (members name)) →
        ∀ name, standsFor (commands.foldl (SetCommand.apply operations) sets name)
          (commands.foldl SetCommand.effect members name) := by
    induction commands with
    | nil => exact fun sets members before => before
    | cons command rest induction =>
        intro sets members before
        exact induction _ _ fun name => faithful.apply before command name
  exact general _ _ (fun _ => faithful.empty) name

end SetOperations.Faithful

/-! ## Bits -/

namespace BitVector

variable {β : Type u} {vectors : BitVector β}

theorem lt_length_of_get {bits : β} {index : Nat} (set : vectors.get bits index = true) :
    index < vectors.length bits := by
  apply Nat.lt_of_not_le
  intro beyond
  rw [vectors.get_of_length_le bits index beyond] at set
  cases set

theorem le_length_lengthen (bits : β) (count : Nat) :
    count ≤ vectors.length (vectors.lengthen bits count) := by
  unfold lengthen
  split
  · rw [vectors.length_grow]
    exact Nat.le_max_right _ _
  · next enough => exact Nat.le_of_not_lt enough

theorem get_lengthen (bits : β) (count index : Nat) :
    vectors.get (vectors.lengthen bits count) index = vectors.get bits index := by
  unfold lengthen
  split
  · exact vectors.get_grow bits count index
  · rfl

theorem insert_fst (bits : β) (state : State) :
    (vectors.insert bits state).1 = !vectors.get bits state.toNat := by
  have below : state.toNat < vectors.length (vectors.lengthen bits (state.toNat + 1)) :=
    le_length_lengthen bits _
  rw [insert, vectors.put_fst _ _ below, get_lengthen]

theorem get_insert (bits : β) (state : State) (index : Nat) :
    vectors.get (vectors.insert bits state).2 index =
      (decide (index = state.toNat) || vectors.get bits index) := by
  have below : state.toNat < vectors.length (vectors.lengthen bits (state.toNat + 1)) :=
    le_length_lengthen bits _
  rw [insert, vectors.get_put _ _ _ below, get_lengthen]

variable (vectors) in
/-- The bits that are set are those at the numbers of the members. -/
def StandsFor (bits : β) (members : Finset State) : Prop :=
  ∀ index, vectors.get bits index = true ↔ ∃ state ∈ members, state.toNat = index

namespace StandsFor

variable {bits left right : β} {members leftMembers rightMembers : Finset State}

theorem of_clear (clear : ∀ index, vectors.get bits index = false) :
    vectors.StandsFor bits ∅ := by
  intro index
  rw [clear]
  simp

theorem empty : vectors.StandsFor vectors.empty ∅ := by
  refine of_clear fun index => vectors.get_of_length_le _ _ ?_
  rw [vectors.length_empty]
  exact Nat.zero_le index

theorem insert (standing : vectors.StandsFor bits members) (state : State) :
    vectors.StandsFor (vectors.insert bits state).2 (Insert.insert state members) := by
  intro index
  rw [get_insert, Bool.or_eq_true, decide_eq_true_iff, standing, Finset.exists_mem_insert]
  exact or_congr_left eq_comm

theorem extend (standing : vectors.StandsFor bits members) (states : List State) :
    vectors.StandsFor (vectors.extend bits states) (members ∪ states.toFinset) := by
  induction states generalizing bits members with
  | nil =>
      rw [List.toFinset_nil, Finset.union_empty]
      exact standing
  | cons state rest induction =>
      rw [List.toFinset_cons, Finset.union_insert, ← Finset.insert_union]
      exact induction (standing.insert state)

theorem union
    (leftStanding : vectors.StandsFor left leftMembers)
    (rightStanding : vectors.StandsFor right rightMembers) :
    vectors.StandsFor (vectors.operations.union left right) (leftMembers ∪ rightMembers) := by
  intro index
  rw [operations, vectors.get_unionWith, get_lengthen, Bool.or_eq_true, leftStanding,
    rightStanding]
  simp only [Finset.mem_union, or_and_right, exists_or]

theorem get_toNat_iff (standing : vectors.StandsFor bits members) {state : State} :
    vectors.get bits state.toNat = true ↔ state ∈ members := by
  rw [standing]
  constructor
  · rintro ⟨other, member, same⟩
    rw [← UInt32.toNat_inj.mp same]
    exact member
  · exact fun member => ⟨state, member, rfl⟩

/-- The indices of set bits are numbers of states, so that none of them is truncated. -/
theorem toNat_ofNat
    (standing : vectors.StandsFor bits members)
    {index : Nat}
    (set : vectors.get bits index = true) :
    (UInt32.ofNat index).toNat = index := by
  rcases (standing index).mp set with ⟨state, _, rfl⟩
  rw [UInt32.ofNat_toNat]

theorem mem_ones_iff {index : Nat} :
    index ∈ vectors.ones bits ↔ vectors.get bits index = true := by
  rw [vectors.ones_eq, List.mem_filter, List.mem_range]
  exact and_iff_right_of_imp lt_length_of_get

theorem mem_toList_iff (standing : vectors.StandsFor bits members) {state : State} :
    state ∈ vectors.toList bits ↔ state ∈ members := by
  rw [toList, List.mem_map]
  constructor
  · rintro ⟨index, member, rfl⟩
    have set := mem_ones_iff.mp member
    rw [← standing.get_toNat_iff, standing.toNat_ofNat set]
    exact set
  · intro member
    exact ⟨state.toNat, mem_ones_iff.mpr (standing.get_toNat_iff.mpr member),
      UInt32.ofNat_toNat⟩

theorem ascending_toList (standing : vectors.StandsFor bits members) :
    (vectors.toList bits).Pairwise (· < ·) := by
  have indices : (vectors.ones bits).Pairwise (· < ·) := by
    rw [vectors.ones_eq]
    exact List.pairwise_lt_range.filter _
  refine List.pairwise_map.mpr (indices.imp_of_mem ?_)
  intro first second firstMember secondMember below
  rw [UInt32.lt_iff_toNat_lt, standing.toNat_ofNat (mem_ones_iff.mp firstMember),
    standing.toNat_ofNat (mem_ones_iff.mp secondMember)]
  exact below

theorem toList_eq_sort (standing : vectors.StandsFor bits members) :
    vectors.toList bits = members.sort (· ≤ ·) :=
  eq_sort_of_ascending standing.ascending_toList fun _ => standing.mem_toList_iff

theorem countOnes_eq_card (standing : vectors.StandsFor bits members) :
    vectors.countOnes bits = members.card := by
  rw [← members.length_sort (· ≤ ·), ← standing.toList_eq_sort, toList, List.length_map,
    vectors.ones_eq, vectors.countOnes_eq, List.countP_eq_length_filter]

theorem isClear_iff (standing : vectors.StandsFor bits members) :
    vectors.isClear bits = true ↔ members = ∅ := by
  rw [vectors.isClear_iff, Finset.eq_empty_iff_forall_notMem]
  constructor
  · intro clear state member
    have set := standing.get_toNat_iff.mpr member
    rw [clear] at set
    cases set
  · intro none index
    rw [Bool.eq_false_iff, ne_eq, standing]
    rintro ⟨state, member, _⟩
    exact none state member

theorem intersection_eq_nil_iff
    (leftStanding : vectors.StandsFor left leftMembers)
    (rightStanding : vectors.StandsFor right rightMembers) :
    vectors.intersection left right = [] ↔ Disjoint leftMembers rightMembers := by
  rw [List.eq_nil_iff_forall_not_mem, Finset.disjoint_left]
  constructor
  · intro none state leftMember rightMember
    refine none state.toNat ((vectors.mem_intersection_iff _ _ _).mpr ⟨?_, ?_⟩)
    · exact leftStanding.get_toNat_iff.mpr leftMember
    · exact rightStanding.get_toNat_iff.mpr rightMember
  · intro apart index member
    rcases (vectors.mem_intersection_iff _ _ _).mp member with ⟨leftSet, rightSet⟩
    rcases (leftStanding index).mp leftSet with ⟨state, leftMember, rfl⟩
    exact apart leftMember (rightStanding.get_toNat_iff.mp rightSet)

end StandsFor

/-- Sets of states kept as bits do what they mean. -/
theorem faithful (vectors : BitVector β) : vectors.operations.Faithful vectors.StandsFor where
  empty := .empty
  withCapacity capacity := .of_clear (vectors.get_withCapacity capacity)
  singleton state capacity :=
    (StandsFor.of_clear (vectors.get_withCapacity capacity)).insert state
  collect states := by
    have blank : vectors.StandsFor vectors.empty ∅ := .empty
    have standing := blank.extend states
    rw [Finset.empty_union] at standing
    exact standing
  insert standing state := standing.insert state
  extend standing states := standing.extend states
  union left right := left.union right
  fresh {set members} standing state := by
    show (vectors.insert set state).1 = true ↔ _
    rw [insert_fst, ← standing.get_toNat_iff, Bool.not_eq_true', Bool.not_eq_true]
  contains {set members} standing state := by
    show (decide _ && _) = true ↔ _
    rw [Bool.and_eq_true, decide_eq_true_iff, standing.get_toNat_iff]
    exact and_iff_right_of_imp fun member =>
      lt_length_of_get (standing.get_toNat_iff.mpr member)
  isEmpty standing := standing.isClear_iff
  size standing := standing.countOnes_eq_card
  intersects {left right leftMembers rightMembers} leftStanding rightStanding := by
    show (!(vectors.intersection left right).isEmpty) = true ↔ _
    rw [Bool.not_eq_true', Bool.eq_false_iff, ne_eq, List.isEmpty_iff,
      leftStanding.intersection_eq_nil_iff rightStanding]
  toList standing := standing.toList_eq_sort
  equal {left right leftMembers rightMembers} leftStanding rightStanding := by
    show decide (vectors.toList left = vectors.toList right) = true ↔ _
    rw [decide_eq_true_iff, leftStanding.toList_eq_sort, rightStanding.toList_eq_sort]
    exact sort_inj
  text {set members} standing := by
    show listing (vectors.toList set) = _
    rw [standing.toList_eq_sort]

end BitVector

/-! ## Ascending lists -/

namespace StateSet

/-- The members are those of the finite set. -/
def StandsFor (set : StateSet) (members : Finset State) : Prop :=
  ∀ state, state ∈ set ↔ state ∈ members

namespace StandsFor

variable {set left right : StateSet} {members leftMembers rightMembers : Finset State}

theorem toList_eq_sort (standing : set.StandsFor members) :
    set.toList = members.sort (· ≤ ·) :=
  eq_sort_of_ascending set.ascending standing

theorem eq_iff
    (leftStanding : left.StandsFor leftMembers)
    (rightStanding : right.StandsFor rightMembers) :
    left = right ↔ leftMembers = rightMembers := by
  rw [← toList_inj, leftStanding.toList_eq_sort, rightStanding.toList_eq_sort]
  exact sort_inj

end StandsFor

theorem standsFor_empty : StandsFor ∅ ∅ :=
  fun state => iff_of_false (not_mem_empty state) (Finset.notMem_empty state)

/-- Sets of states kept as ascending lists do what they mean. -/
theorem faithful : operations.Faithful StandsFor where
  empty := standsFor_empty
  withCapacity _ := standsFor_empty
  singleton state _ other := mem_singleton.trans Finset.mem_singleton.symm
  collect states state := mem_ofList.trans List.mem_toFinset.symm
  insert {set members} standing state other := by
    rw [Finset.mem_insert, ← standing other]
    exact mem_insert
  extend {set members} standing states state := by
    rw [Finset.mem_union, List.mem_toFinset, ← standing state]
    exact mem_insertMany
  union {left right leftMembers rightMembers} leftStanding rightStanding state := by
    rw [Finset.mem_union, ← leftStanding state, ← rightStanding state]
    exact mem_union
  fresh {set members} standing state := by
    show (!set.contains state) = true ↔ _
    rw [Bool.not_eq_true', Bool.eq_false_iff, ne_eq, contains_eq_true_iff, standing state]
  contains standing state := contains_eq_true_iff.trans (standing state)
  isEmpty {set members} standing := by
    show set.isEmpty = true ↔ _
    rw [isEmpty_eq_true_iff, eq_empty_iff, Finset.eq_empty_iff_forall_notMem]
    exact forall_congr' fun state => not_congr (standing state)
  size {set members} standing := by
    rw [← members.length_sort (· ≤ ·), ← standing.toList_eq_sort]
    rfl
  intersects {left right leftMembers rightMembers} leftStanding rightStanding := by
    show left.intersects right = true ↔ _
    rw [intersects_eq_true_iff, Finset.not_disjoint_iff]
    exact exists_congr fun state => and_congr (leftStanding state) (rightStanding state)
  toList standing := standing.toList_eq_sort
  equal {left right leftMembers rightMembers} leftStanding rightStanding := by
    show decide (left = right) = true ↔ _
    rw [decide_eq_true_iff, leftStanding.eq_iff rightStanding]
  text {set members} standing := by
    rw [← standing.toList_eq_sort]
    rfl

end StateSet

/-! ## Programs -/

end Acceptor
