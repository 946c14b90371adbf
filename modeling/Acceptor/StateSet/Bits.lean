import Acceptor.StateSet.Lemmas

/-!
# Sets of states as bits

A set of states can be kept as a vector of bits with a length, in which the
bits at the numbers of the members are set.  The length says nothing about the
members: a vector is made as long as its maker expects it to become, and grows
when a state beyond its end is inserted.

What is asked of vectors of bits is put down as a structure, since any
representation of them will do.  Whatever the kept form, the operations on
sets of states are the same, and so are the programs that use them.
-/

namespace Acceptor

universe u

/-- Vectors of bits with a length, kept as values of type `β`. -/
structure BitVector (β : Type u) where
  /-- The vector without bits. -/
  empty : β
  /-- A vector of a length without set bits. -/
  withCapacity : Nat → β
  /-- The number of bits, set or not. -/
  length : β → Nat
  /-- Whether the bit at an index is set. -/
  get : β → Nat → Bool
  /-- Add bits that are not set until a length is reached. -/
  grow : β → Nat → β
  /-- Set the bit at an index, and report whether it was set before. -/
  put : β → Nat → Bool × β
  /-- Whether no bit is set. -/
  isClear : β → Bool
  /-- The number of set bits. -/
  countOnes : β → Nat
  /-- The indices of the set bits in ascending order. -/
  ones : β → List Nat
  /-- The bits that are set in one vector or the other. -/
  unionWith : β → β → β
  /-- The indices of the bits that are set in both vectors. -/
  intersection : β → β → List Nat
  length_empty : length empty = 0
  length_withCapacity : ∀ capacity, length (withCapacity capacity) = capacity
  get_withCapacity : ∀ capacity index, get (withCapacity capacity) index = false
  get_of_length_le : ∀ bits index, length bits ≤ index → get bits index = false
  length_grow : ∀ bits count, length (grow bits count) = max (length bits) count
  get_grow : ∀ bits count index, get (grow bits count) index = get bits index
  put_fst : ∀ bits index, index < length bits → (put bits index).1 = get bits index
  length_put : ∀ bits index, index < length bits → length (put bits index).2 = length bits
  get_put : ∀ bits index other, index < length bits →
    get (put bits index).2 other = (decide (other = index) || get bits other)
  isClear_iff : ∀ bits, isClear bits = true ↔ ∀ index, get bits index = false
  countOnes_eq : ∀ bits, countOnes bits = (List.range (length bits)).countP (get bits)
  ones_eq : ∀ bits, ones bits = (List.range (length bits)).filter (get bits)
  length_unionWith : ∀ left right,
    length (unionWith left right) = max (length left) (length right)
  get_unionWith : ∀ left right index,
    get (unionWith left right) index = (get left index || get right index)
  mem_intersection_iff : ∀ left right index,
    index ∈ intersection left right ↔ get left index = true ∧ get right index = true

namespace BitVector

/-! ## Lists of truth values -/

/-- The bit at an index of a list, not set when the list ends before it. -/
def bitAt (bits : List Bool) (index : Nat) : Bool :=
  bits.getD index false

theorem bitAt_of_length_le {bits : List Bool} {index : Nat} (beyond : bits.length ≤ index) :
    bitAt bits index = false := by
  rw [bitAt, List.getD_eq_getElem?_getD, List.getElem?_eq_none beyond, Option.getD_none]

theorem bitAt_of_lt {bits : List Bool} {index : Nat} (below : index < bits.length) :
    bitAt bits index = bits[index] := by
  rw [bitAt, List.getD_eq_getElem?_getD, List.getElem?_eq_getElem below, Option.getD_some]

theorem lt_length_of_bitAt {bits : List Bool} {index : Nat} (set : bitAt bits index = true) :
    index < bits.length := by
  apply Nat.lt_of_not_le
  intro beyond
  rw [bitAt_of_length_le beyond] at set
  cases set

theorem bitAt_replicate (count index : Nat) : bitAt (List.replicate count false) index = false := by
  rw [bitAt, List.getD_eq_getElem?_getD, List.getElem?_replicate]
  split <;> rfl

theorem bitAt_append_replicate (bits : List Bool) (count index : Nat) :
    bitAt (bits ++ List.replicate count false) index = bitAt bits index := by
  by_cases below : index < bits.length
  · simp [bitAt, List.getD_eq_getElem?_getD, List.getElem?_append_left below]
  · have beyond := Nat.le_of_not_lt below
    rw [bitAt_of_length_le beyond, bitAt, List.getD_eq_getElem?_getD,
      List.getElem?_append_right beyond, ← List.getD_eq_getElem?_getD]
    exact bitAt_replicate count (index - bits.length)

/-- The bits that are set in one list or the other, as far as the longer one goes. -/
def joined (left right : List Bool) : List Bool :=
  (List.range (max left.length right.length)).map fun index =>
    bitAt left index || bitAt right index

theorem bitAt_joined (left right : List Bool) (index : Nat) :
    bitAt (joined left right) index = (bitAt left index || bitAt right index) := by
  by_cases below : index < max left.length right.length
  · simp [joined, bitAt, List.getD_eq_getElem?_getD, below]
  · have beyond := Nat.le_of_not_lt below
    have ends : (joined left right).length = max left.length right.length := by simp [joined]
    rw [bitAt_of_length_le (by omega), bitAt_of_length_le (by omega),
      bitAt_of_length_le (by omega)]
    rfl

theorem all_not_iff (bits : List Bool) :
    bits.all not = true ↔ ∀ index, bitAt bits index = false := by
  rw [List.all_eq_true]
  constructor
  · intro clear index
    cases set : bitAt bits index with
    | false => rfl
    | true =>
        have below := lt_length_of_bitAt set
        have unset := clear _ (List.getElem_mem below)
        rw [← bitAt_of_lt below, set] at unset
        cases unset
  · intro clear bit member
    rcases List.mem_iff_getElem.mp member with ⟨index, below, rfl⟩
    rw [← bitAt_of_lt below, clear]
    rfl

/-- Vectors of bits, kept as lists of truth values. -/
def lists : BitVector (List Bool) where
  empty := []
  withCapacity capacity := List.replicate capacity false
  length := List.length
  get := bitAt
  grow bits count := bits ++ List.replicate (count - bits.length) false
  put bits index := (bitAt bits index, bits.set index true)
  isClear bits := bits.all not
  countOnes bits := (List.range bits.length).countP (bitAt bits)
  ones bits := (List.range bits.length).filter (bitAt bits)
  unionWith := joined
  intersection left right :=
    (List.range left.length).filter fun index => bitAt left index && bitAt right index
  length_empty := rfl
  length_withCapacity capacity := List.length_replicate
  get_withCapacity := bitAt_replicate
  get_of_length_le bits index beyond := bitAt_of_length_le beyond
  length_grow bits count := by
    rw [List.length_append, List.length_replicate]
    omega
  get_grow bits count := bitAt_append_replicate bits (count - bits.length)
  put_fst bits index below := rfl
  length_put bits index below := List.length_set
  get_put bits index other below := by
    by_cases same : other = index
    · simp [bitAt, same, below]
    · simp [bitAt, same, Ne.symm same]
  isClear_iff := all_not_iff
  countOnes_eq bits := rfl
  ones_eq bits := rfl
  length_unionWith left right := by rw [joined, List.length_map, List.length_range]
  get_unionWith := bitAt_joined
  mem_intersection_iff left right index := by
    rw [List.mem_filter, List.mem_range, Bool.and_eq_true]
    exact and_iff_right_of_imp fun both => lt_length_of_bitAt both.1

end BitVector

/-! ## Operations on sets of states -/

/-- What can be done with sets of states that are kept as values of type `τ`. -/
structure SetOperations (τ : Type u) where
  /-- The set without members. -/
  empty : τ
  /-- The set without members, made for an expected number of states. -/
  withCapacity : Nat → τ
  /-- The set of one state, made for an expected number of states. -/
  singleton : State → Nat → τ
  /-- The set of the states in a list. -/
  collect : List State → τ
  /-- Add a state, and report whether it is new. -/
  insert : τ → State → Bool × τ
  /-- Add the states in a list. -/
  extend : τ → List State → τ
  /-- Add the members of another set. -/
  union : τ → τ → τ
  /-- Whether a state is a member. -/
  contains : τ → State → Bool
  /-- Whether there are no members. -/
  isEmpty : τ → Bool
  /-- The number of members. -/
  size : τ → Nat
  /-- Whether two sets share a member. -/
  intersects : τ → τ → Bool
  /-- The members, one after the other. -/
  toList : τ → List State
  /-- Whether two sets are equal. -/
  equal : τ → τ → Bool
  /-- The members as text. -/
  text : τ → String

namespace BitVector

variable {β : Type u} (vectors : BitVector β)

/-- A vector of at least a given length with the same bits set. -/
def lengthen (set : β) (count : Nat) : β :=
  if vectors.length set < count then vectors.grow set count else set

/-- Set the bit of a state in a vector that is long enough, and report whether it is new. -/
def insert (set : β) (state : State) : Bool × β :=
  let changed := vectors.put (vectors.lengthen set (state.toNat + 1)) state.toNat
  (!changed.1, changed.2)

/-- Insert states one after the other. -/
def extend (set : β) (states : List State) : β :=
  states.foldl (fun set state => (vectors.insert set state).2) set

/-- The states whose bits are set. -/
def toList (set : β) : List State :=
  (vectors.ones set).map UInt32.ofNat

/-- Sets of states kept as bits. -/
def operations : SetOperations β where
  empty := vectors.empty
  withCapacity := vectors.withCapacity
  singleton state capacity := (vectors.insert (vectors.withCapacity capacity) state).2
  collect := vectors.extend vectors.empty
  insert := vectors.insert
  extend := vectors.extend
  union left right :=
    vectors.unionWith (vectors.lengthen left (vectors.length right)) right
  contains set state :=
    decide (state.toNat < vectors.length set) && vectors.get set state.toNat
  isEmpty := vectors.isClear
  size := vectors.countOnes
  intersects left right := !(vectors.intersection left right).isEmpty
  toList := vectors.toList
  equal left right := decide (vectors.toList left = vectors.toList right)
  text set := listing (vectors.toList set)

end BitVector

/-- Sets of states kept as ascending lists. -/
def StateSet.operations : SetOperations StateSet where
  empty := empty
  withCapacity := emptyWithCapacity
  singleton := singletonWithCapacity
  collect := ofList
  insert set state :=
    let changed := set.containsThenInsert state
    (!changed.1, changed.2)
  extend := insertMany
  union := union
  contains := contains
  isEmpty := isEmpty
  size := size
  intersects := intersects
  toList := toList
  equal left right := decide (left = right)
  text := text

/-! ## Programs -/

/-- An operation on sets that have numbers as names. -/
inductive SetCommand where
  | empty (name : Nat)
  | withCapacity (name capacity : Nat)
  | singleton (name : Nat) (state : State) (capacity : Nat)
  | collect (name : Nat) (states : List State)
  | insert (name : Nat) (state : State)
  | extend (name : Nat) (states : List State)
  | union (name other : Nat)
  | copy (name original : Nat)
  deriving DecidableEq, Repr

namespace SetCommand

/-- The set whose name a command gives a new value to. -/
def name : SetCommand → Nat
  | empty name | withCapacity name _ | singleton name _ _ | collect name _ | insert name _
  | extend name _ | union name _ | copy name _ => name

/-- The value that a command gives, when the sets have given values. -/
def value {τ : Type u} (operations : SetOperations τ) (sets : Nat → τ) : SetCommand → τ
  | empty _ => operations.empty
  | withCapacity _ capacity => operations.withCapacity capacity
  | singleton _ state capacity => operations.singleton state capacity
  | collect _ states => operations.collect states
  | insert name state => (operations.insert (sets name) state).2
  | extend name states => operations.extend (sets name) states
  | union name other => operations.union (sets name) (sets other)
  | copy _ original => sets original

/-- The sets after a command. -/
def apply {τ : Type u} (operations : SetOperations τ) (sets : Nat → τ) (command : SetCommand) :
    Nat → τ :=
  fun name => if name = command.name then command.value operations sets else sets name

/-- The sets after commands, when all of them are empty at first. -/
def run {τ : Type u} (operations : SetOperations τ) (commands : List SetCommand) : Nat → τ :=
  commands.foldl (apply operations) fun _ => operations.empty

end SetCommand

end Acceptor
