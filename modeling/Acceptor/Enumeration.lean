import Std.Data.ExtHashMap

/-!
# Enumerations of distinct values

An `Enumeration` is a finite sequence without repetitions that can be asked
both ways: which value stands at an index, and at which index a value stands.
Values keep the index they received when they were first inserted, so an
enumeration is what numbers things in the order of their discovery.

The sequence of items determines everything else.  The index from values to
positions is an extensional hash map tied to the items by a proof field;
consequently two enumerations with the same items are equal, and every
operation is described by what it does to `toList`.
-/

namespace Acceptor

universe u

/-- A sequence of distinct values together with its inverse. -/
structure Enumeration (α : Type u) [DecidableEq α] [Hashable α] where
  /-- The values in the order of their insertion. -/
  items : Array α
  /-- The index at which each value stands. -/
  positions : Std.ExtHashMap α Nat
  /-- The two directions agree; in particular no value stands twice. -/
  positions_iff : ∀ (value : α) (index : Nat),
    positions[value]? = some index ↔ items[index]? = some value

namespace Enumeration

variable {α : Type u} [DecidableEq α] [Hashable α]

/-- The enumeration of no values. -/
def empty : Enumeration α where
  items := #[]
  positions := ∅
  positions_iff := by simp

instance : Inhabited (Enumeration α) := ⟨empty⟩

instance : EmptyCollection (Enumeration α) := ⟨empty⟩

/-- The number of values. -/
def size (enumeration : Enumeration α) : Nat :=
  enumeration.items.size

/-- The values in the order of their insertion. -/
def toList (enumeration : Enumeration α) : List α :=
  enumeration.items.toList

/-- The value that stands at an index. -/
def get? (enumeration : Enumeration α) (index : Nat) : Option α :=
  enumeration.items[index]?

/-- The index at which a value stands. -/
def position? (enumeration : Enumeration α) (value : α) : Option Nat :=
  enumeration.positions[value]?

instance : Membership α (Enumeration α) where
  mem enumeration value := value ∈ enumeration.toList

theorem mem_def {enumeration : Enumeration α} {value : α} :
    value ∈ enumeration ↔ value ∈ enumeration.toList :=
  Iff.rfl

theorem position?_eq_some_iff {enumeration : Enumeration α} {value : α} {index : Nat} :
    enumeration.position? value = some index ↔ enumeration.get? index = some value :=
  enumeration.positions_iff value index

@[simp]
theorem getElem?_toList (enumeration : Enumeration α) (index : Nat) :
    enumeration.toList[index]? = enumeration.get? index := by
  simp [toList, get?]

@[simp]
theorem length_toList (enumeration : Enumeration α) :
    enumeration.toList.length = enumeration.size := by
  simp [toList, size]

theorem get?_lt {enumeration : Enumeration α} {value : α} {index : Nat}
    (found : enumeration.get? index = some value) :
    index < enumeration.size :=
  (Array.getElem?_eq_some_iff.mp found).1

theorem exists_get?_of_lt {enumeration : Enumeration α} {index : Nat}
    (below : index < enumeration.size) :
    ∃ value, enumeration.get? index = some value :=
  ⟨_, Array.getElem?_eq_getElem below⟩

theorem position?_lt {enumeration : Enumeration α} {value : α} {index : Nat}
    (found : enumeration.position? value = some index) :
    index < enumeration.size :=
  get?_lt (position?_eq_some_iff.mp found)

theorem mem_iff_get? {enumeration : Enumeration α} {value : α} :
    value ∈ enumeration ↔ ∃ index, enumeration.get? index = some value := by
  rw [mem_def, List.mem_iff_getElem?]
  simp

theorem mem_of_get? {enumeration : Enumeration α} {value : α} {index : Nat}
    (found : enumeration.get? index = some value) :
    value ∈ enumeration :=
  mem_iff_get?.mpr ⟨index, found⟩

/-- A value has no position exactly when it has not been inserted. -/
theorem position?_eq_none_iff {enumeration : Enumeration α} {value : α} :
    enumeration.position? value = none ↔ value ∉ enumeration := by
  rw [mem_iff_get?]
  constructor
  · rintro missing ⟨index, found⟩
    rw [position?_eq_some_iff.mpr found] at missing
    cases missing
  · intro missing
    cases found : enumeration.position? value with
    | none => rfl
    | some index => exact absurd ⟨index, position?_eq_some_iff.mp found⟩ missing

instance (value : α) (enumeration : Enumeration α) : Decidable (value ∈ enumeration) :=
  match found : enumeration.position? value with
  | none => isFalse (position?_eq_none_iff.mp found)
  | some _ => isTrue (mem_of_get? (position?_eq_some_iff.mp found))

/-- One value stands at one index only. -/
theorem get?_inj {enumeration : Enumeration α} {value : α} {first second : Nat}
    (atFirst : enumeration.get? first = some value)
    (atSecond : enumeration.get? second = some value) :
    first = second := by
  rw [← position?_eq_some_iff] at atFirst atSecond
  exact Option.some.inj (atFirst.symm.trans atSecond)

theorem nodup_toList (enumeration : Enumeration α) : enumeration.toList.Nodup := by
  rw [List.Nodup, List.pairwise_iff_getElem]
  intro first second firstBound secondBound ordered same
  have atFirst : enumeration.get? first = some enumeration.toList[first] := by
    rw [← getElem?_toList, List.getElem?_eq_getElem]
  have atSecond : enumeration.get? second = some enumeration.toList[second] := by
    rw [← getElem?_toList, List.getElem?_eq_getElem]
  have : first = second := get?_inj atFirst (same ▸ atSecond)
  omega

/-- Enumerations are determined by the sequence of their values. -/
theorem ext_toList {left right : Enumeration α} (same : left.toList = right.toList) :
    left = right := by
  have sameItems : left.items = right.items := Array.toList_inj.mp same
  have samePositions : left.positions = right.positions := by
    apply Std.ExtHashMap.ext_getElem?
    intro value
    apply Option.ext
    intro index
    rw [left.positions_iff, right.positions_iff, sameItems]
  cases left
  cases right
  cases sameItems
  cases samePositions
  rfl

theorem toList_inj {left right : Enumeration α} :
    left.toList = right.toList ↔ left = right :=
  ⟨ext_toList, congrArg toList⟩

instance : DecidableEq (Enumeration α) := fun left right =>
  decidable_of_iff (left.items = right.items)
    ⟨fun same => ext_toList (congrArg Array.toList same), congrArg items⟩

/-! ## Growing -/

theorem positions_iff_push {value : α} (enumeration : Enumeration α)
    (fresh : enumeration.position? value = none) (other : α) (index : Nat) :
    (enumeration.positions.insert value enumeration.items.size)[other]? = some index ↔
      (enumeration.items.push value)[index]? = some other := by
  have absent : ∀ place : Nat, enumeration.items[place]? ≠ some value := by
    intro place found
    rw [position?, (enumeration.positions_iff value place).mpr found] at fresh
    cases fresh
  rw [Std.ExtHashMap.getElem?_insert, Array.getElem?_push]
  have agree := enumeration.positions_iff other index
  have bound : enumeration.items[index]? = some other → index < enumeration.items.size :=
    fun found => (Array.getElem?_eq_some_iff.mp found).1
  grind

/-- Append a value that is not there yet. -/
def push (enumeration : Enumeration α) (value : α)
    (fresh : enumeration.position? value = none) : Enumeration α :=
  -- The size is taken first, so that the array of items is not shared when it grows.
  let index := enumeration.items.size
  { items := enumeration.items.push value
    positions := enumeration.positions.insert value index
    positions_iff := enumeration.positions_iff_push fresh }

/-- Append a value unless it is there already. -/
def insert (enumeration : Enumeration α) (value : α) : Enumeration α :=
  match fresh : enumeration.position? value with
  | none => enumeration.push value fresh
  | some _ => enumeration

/-- Insert the members of a list from left to right. -/
def insertMany (enumeration : Enumeration α) (values : List α) : Enumeration α :=
  values.foldl insert enumeration

/-- The distinct members of a list in the order of their first occurrence. -/
def ofList (values : List α) : Enumeration α :=
  insertMany empty values

@[simp]
theorem toList_empty : (empty : Enumeration α).toList = [] := rfl

@[simp]
theorem size_empty : (empty : Enumeration α).size = 0 := rfl

@[simp]
theorem position?_empty (value : α) : (empty : Enumeration α).position? value = none := by
  simp [position?, empty]

@[simp]
theorem toList_push {enumeration : Enumeration α} {value : α}
    (fresh : enumeration.position? value = none) :
    (enumeration.push value fresh).toList = enumeration.toList ++ [value] := by
  simp [push, toList]

@[simp]
theorem size_push {enumeration : Enumeration α} {value : α}
    (fresh : enumeration.position? value = none) :
    (enumeration.push value fresh).size = enumeration.size + 1 := by
  simp [push, size]

theorem position?_push {enumeration : Enumeration α} {value : α}
    (fresh : enumeration.position? value = none) (other : α) :
    (enumeration.push value fresh).position? other =
      if value = other then some enumeration.size else enumeration.position? other := by
  simp [push, position?, size, Std.ExtHashMap.getElem?_insert]

theorem insert_of_mem {enumeration : Enumeration α} {value : α}
    (present : value ∈ enumeration) :
    enumeration.insert value = enumeration := by
  unfold insert
  split
  · next fresh => exact absurd present (position?_eq_none_iff.mp fresh)
  · rfl

theorem insert_of_not_mem {enumeration : Enumeration α} {value : α}
    (absent : value ∉ enumeration) :
    enumeration.insert value =
      enumeration.push value (position?_eq_none_iff.mpr absent) := by
  unfold insert
  split
  · rfl
  · next found => exact absurd (mem_of_get? (position?_eq_some_iff.mp found)) absent

theorem toList_insert (enumeration : Enumeration α) (value : α) :
    (enumeration.insert value).toList =
      if value ∈ enumeration.toList then enumeration.toList
      else enumeration.toList ++ [value] := by
  by_cases present : value ∈ enumeration
  · rw [insert_of_mem present, if_pos (mem_def.mp present)]
  · rw [insert_of_not_mem present, toList_push, if_neg (mt mem_def.mpr present)]

@[simp]
theorem mem_insert {enumeration : Enumeration α} {value other : α} :
    other ∈ enumeration.insert value ↔ other ∈ enumeration ∨ other = value := by
  rw [mem_def, mem_def, toList_insert]
  split <;> grind

theorem toList_insertMany (enumeration : Enumeration α) (values : List α) :
    (enumeration.insertMany values).toList =
      enumeration.toList ++ (values.filter (· ∉ enumeration.toList)).eraseDups := by
  induction values generalizing enumeration with
  | nil => simp [insertMany]
  | cons value rest induction =>
    have step : enumeration.insertMany (value :: rest) =
        (enumeration.insert value).insertMany rest := rfl
    rw [step, induction, toList_insert]
    by_cases present : value ∈ enumeration.toList
    · simp [present]
    · simp only [present, if_false, List.filter_cons, not_false_eq_true, decide_true, if_true,
        List.eraseDups_cons, List.append_assoc, List.singleton_append, List.filter_filter]
      congr 3
      apply List.filter_congr
      intro other _
      by_cases same : other = value <;> simp [same]

/-- Enumerating a list keeps the first occurrence of each member. -/
@[simp]
theorem toList_ofList (values : List α) : (ofList values).toList = values.eraseDups := by
  rw [ofList, toList_insertMany, toList_empty, List.nil_append, List.filter_eq_self.mpr]
  simp

end Enumeration

end Acceptor
