/-!
# Sets of states

States are numbered by 32-bit words.  A `StateSet` holds finitely many of
them as a strictly ascending list, so that equal sets are equal values: a set
can be compared, hashed and used as a key, and its members come out in
ascending order whatever the order in which they went in.

A set holds any states at all; which of them belong to the universe of some
automaton is not its concern.
-/

namespace Acceptor

/-- A state is named by its number. -/
abbrev State := UInt32

/-- States as text, between braces and parted by a comma and a blank. -/
def listing (states : List State) : String :=
  "\x7b" ++ ", ".intercalate (states.map fun state => state.toNat.repr) ++ "\x7d"

/-- A finite set of states, listed in strictly ascending order. -/
structure StateSet where
  /-- The members in ascending order. -/
  members : List State
  /-- Every member is smaller than the ones after it. -/
  ascending : members.Pairwise (· < ·)
  deriving DecidableEq, Hashable

namespace StateSet

/-! ## Ascending lists -/

/-- Insert a state into an ascending list at its place, once. -/
def insertAscending (state : State) : List State → List State
  | [] => [state]
  | least :: rest =>
      if state < least then state :: least :: rest
      else if state = least then least :: rest
      else least :: insertAscending state rest

/-- Merge two ascending lists, keeping one copy of what they share. -/
def mergeAscending : List State → List State → List State
  | [], right => right
  | left, [] => left
  | first :: left, second :: right =>
      if first < second then first :: mergeAscending left (second :: right)
      else if second < first then second :: mergeAscending (first :: left) right
      else first :: mergeAscending left right
  termination_by left right => left.length + right.length

theorem mem_insertAscending {state other : State} {list : List State} :
    other ∈ insertAscending state list ↔ other = state ∨ other ∈ list := by
  induction list with
  | nil => simp [insertAscending]
  | cons least rest induction =>
      unfold insertAscending
      split
      · simp
      · split
        · next same => simp [same]
        · simp only [List.mem_cons, induction]
          grind

theorem pairwise_insertAscending {state : State} {list : List State}
    (ascending : list.Pairwise (· < ·)) :
    (insertAscending state list).Pairwise (· < ·) := by
  induction list with
  | nil => simp [insertAscending]
  | cons least rest induction =>
      obtain ⟨below, ascending⟩ := List.pairwise_cons.mp ascending
      unfold insertAscending
      split
      · next smaller =>
          refine List.pairwise_cons.mpr ⟨?_, List.pairwise_cons.mpr ⟨below, ascending⟩⟩
          intro other member
          cases member with
          | head => exact smaller
          | tail _ member => exact UInt32.lt_trans smaller (below other member)
      · split
        · exact List.pairwise_cons.mpr ⟨below, ascending⟩
        · next notSmaller different =>
            refine List.pairwise_cons.mpr ⟨?_, induction ascending⟩
            intro other member
            rcases mem_insertAscending.mp member with rfl | member
            · grind
            · exact below other member

theorem mem_mergeAscending {state : State} {left right : List State} :
    state ∈ mergeAscending left right ↔ state ∈ left ∨ state ∈ right := by
  fun_induction mergeAscending left right with
  | case1 => simp
  | case2 => simp
  | case3 first left second right smaller induction =>
      simp only [List.mem_cons, induction]
      grind
  | case4 first left second right notSmaller greater induction =>
      simp only [List.mem_cons, induction]
      grind
  | case5 first left second right notSmaller notGreater induction =>
      have same : first = second := by grind
      simp only [List.mem_cons, induction, same]
      grind

theorem pairwise_mergeAscending {left right : List State}
    (leftAscending : left.Pairwise (· < ·)) (rightAscending : right.Pairwise (· < ·)) :
    (mergeAscending left right).Pairwise (· < ·) := by
  fun_induction mergeAscending left right with
  | case1 => exact rightAscending
  | case2 => exact leftAscending
  | case3 first left second right smaller induction =>
      have belowLeft := List.pairwise_cons.mp leftAscending
      have belowRight := List.pairwise_cons.mp rightAscending
      refine List.pairwise_cons.mpr ⟨?_, induction belowLeft.2 rightAscending⟩
      intro other member
      rw [mem_mergeAscending, List.mem_cons] at member
      rcases member with member | rfl | member
      · exact belowLeft.1 other member
      · exact smaller
      · exact UInt32.lt_trans smaller (belowRight.1 other member)
  | case4 first left second right notSmaller greater induction =>
      have belowLeft := List.pairwise_cons.mp leftAscending
      have belowRight := List.pairwise_cons.mp rightAscending
      refine List.pairwise_cons.mpr ⟨?_, induction leftAscending belowRight.2⟩
      intro other member
      rw [mem_mergeAscending, List.mem_cons] at member
      rcases member with (rfl | member) | member
      · exact greater
      · exact UInt32.lt_trans greater (belowLeft.1 other member)
      · exact belowRight.1 other member
  | case5 first left second right notSmaller notGreater induction =>
      have same : first = second := by grind
      have belowLeft := List.pairwise_cons.mp leftAscending
      have belowRight := List.pairwise_cons.mp rightAscending
      refine List.pairwise_cons.mpr ⟨?_, induction belowLeft.2 belowRight.2⟩
      intro other member
      rw [mem_mergeAscending] at member
      rcases member with member | member
      · exact belowLeft.1 other member
      · exact same ▸ belowRight.1 other member

/-! ## Operations -/

/-- The set without members. -/
def empty : StateSet where
  members := []
  ascending := .nil

instance : EmptyCollection StateSet := ⟨empty⟩

instance : Inhabited StateSet := ⟨empty⟩

/-- The empty set, for a caller that expects to insert a number of states. -/
def emptyWithCapacity (_capacity : Nat) : StateSet :=
  empty

/-- The set of a single state. -/
def singleton (state : State) : StateSet where
  members := [state]
  ascending := List.pairwise_singleton _ state

/-- The set of a single state, for a caller that expects to insert a number of others. -/
def singletonWithCapacity (state : State) (_capacity : Nat) : StateSet :=
  singleton state

instance : Singleton State StateSet := ⟨singleton⟩

instance : Membership State StateSet where
  mem set state := state ∈ set.members

instance (state : State) (set : StateSet) : Decidable (state ∈ set) :=
  inferInstanceAs (Decidable (state ∈ set.members))

/-- Whether a state is a member. -/
def contains (set : StateSet) (state : State) : Bool :=
  decide (state ∈ set)

/-- Whether there are no members. -/
def isEmpty (set : StateSet) : Bool :=
  set.members.isEmpty

/-- The number of members. -/
def size (set : StateSet) : Nat :=
  set.members.length

/-- The members in ascending order. -/
def toList (set : StateSet) : List State :=
  set.members

/-- Add a state to a set. -/
def insert (set : StateSet) (state : State) : StateSet where
  members := insertAscending state set.members
  ascending := pairwise_insertAscending set.ascending

instance : Insert State StateSet := ⟨fun state set => set.insert state⟩

/-- Add a state to a set, and report whether it was a member before. -/
def containsThenInsert (set : StateSet) (state : State) : Bool × StateSet :=
  (set.contains state, set.insert state)

/-- Add every state of a list to a set. -/
def insertMany (set : StateSet) (states : List State) : StateSet :=
  states.foldl insert set

/-- The set of the states in a list. -/
def ofList (states : List State) : StateSet :=
  insertMany empty states

/-- The states that are in one set or the other. -/
def union (left right : StateSet) : StateSet where
  members := mergeAscending left.members right.members
  ascending := pairwise_mergeAscending left.ascending right.ascending

instance : Union StateSet := ⟨union⟩

/-- Whether two sets share a member. -/
def intersects (left right : StateSet) : Bool :=
  left.members.any right.contains

instance : HasSubset StateSet where
  Subset left right := ∀ state, state ∈ left → state ∈ right

/-- The members in ascending order as text. -/
def text (set : StateSet) : String :=
  listing set.members

instance : ToString StateSet := ⟨text⟩

end StateSet

end Acceptor
