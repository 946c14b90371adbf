import Acceptor.Enumeration

/-!
# Maps in insertion order

An `OrderedMap` associates values with distinct keys and remembers the order
in which the keys were first inserted.  Replacing or updating the value of a
key that is already present leaves the key where it stands.

The list of entries is the view through which the operations are described:
it determines the map, and looking a key up finds the one entry that carries
it.
-/

namespace Acceptor

universe u v w

/-- Values for distinct keys, in the order of the first insertion of each key. -/
structure OrderedMap (κ : Type u) (ν : Type v) [DecidableEq κ] [Hashable κ] where
  /-- The keys in the order of their first insertion. -/
  keys : Enumeration κ
  /-- The value of each key, at the index of the key. -/
  values : Array ν
  /-- Every key has a value and there are no others. -/
  size_values : values.size = keys.size

namespace OrderedMap

variable {κ : Type u} {ν : Type v} [DecidableEq κ] [Hashable κ]

/-- The map without entries. -/
def empty : OrderedMap κ ν where
  keys := .empty
  values := #[]
  size_values := rfl

instance : Inhabited (OrderedMap κ ν) := ⟨empty⟩

instance : EmptyCollection (OrderedMap κ ν) := ⟨empty⟩

/-- The number of keys. -/
def size (map : OrderedMap κ ν) : Nat :=
  map.keys.size

/-- The entries in insertion order. -/
def toList (map : OrderedMap κ ν) : List (κ × ν) :=
  map.keys.toList.zip map.values.toList

/-- The value of a key. -/
def get? (map : OrderedMap κ ν) (key : κ) : Option ν :=
  (map.keys.position? key).bind (map.values[·]?)

/-- Update the value of a key, or append the key with a first value. -/
def upsert (map : OrderedMap κ ν) (key : κ) (first : ν) (update : ν → ν) :
    OrderedMap κ ν :=
  match found : map.keys.position? key with
  | some index =>
      { keys := map.keys
        values := map.values.modify index update
        size_values := by simp [map.size_values] }
  | none =>
      { keys := map.keys.push key found
        values := map.values.push first
        size_values := by simp [map.size_values] }

/-- Set the value of a key. -/
def insert (map : OrderedMap κ ν) (key : κ) (value : ν) : OrderedMap κ ν :=
  map.upsert key value fun _ => value

/-! ## Entries -/

@[simp]
theorem toList_empty : (empty : OrderedMap κ ν).toList = [] := rfl

@[simp]
theorem map_fst_toList (map : OrderedMap κ ν) :
    map.toList.map Prod.fst = map.keys.toList := by
  rw [toList, List.map_fst_zip]
  simp [map.size_values]

@[simp]
theorem map_snd_toList (map : OrderedMap κ ν) :
    map.toList.map Prod.snd = map.values.toList := by
  rw [toList, List.map_snd_zip]
  simp [map.size_values]

@[simp]
theorem length_toList (map : OrderedMap κ ν) : map.toList.length = map.size := by
  simp [toList, size, map.size_values]

theorem nodup_keys (map : OrderedMap κ ν) : (map.toList.map Prod.fst).Nodup := by
  rw [map_fst_toList]
  exact map.keys.nodup_toList

theorem getElem?_toList_eq_some_iff {map : OrderedMap κ ν} {index : Nat} {key : κ}
    {value : ν} :
    map.toList[index]? = some (key, value) ↔
      map.keys.get? index = some key ∧ map.values[index]? = some value := by
  simp [toList, List.getElem?_zip_eq_some]

/-- A lookup finds exactly the entry that carries the key. -/
theorem get?_eq_some_iff {map : OrderedMap κ ν} {key : κ} {value : ν} :
    map.get? key = some value ↔ (key, value) ∈ map.toList := by
  rw [List.mem_iff_getElem?]
  simp only [getElem?_toList_eq_some_iff, get?, Option.bind_eq_some_iff,
    Enumeration.position?_eq_some_iff]

/-- The values are what lookups find. -/
theorem mem_values_iff {map : OrderedMap κ ν} {value : ν} :
    value ∈ map.values ↔ ∃ key, map.get? key = some value := by
  rw [← Array.mem_toList_iff, ← map_snd_toList]
  simp only [List.mem_map, Prod.exists, exists_eq_right, get?_eq_some_iff]

@[simp]
theorem lookup_toList (map : OrderedMap κ ν) (key : κ) : map.toList.lookup key = map.get? key := by
  cases found : map.toList.lookup key with
  | none =>
      rw [List.lookup_eq_none_iff] at found
      apply Eq.symm
      apply Option.eq_none_iff_forall_not_mem.mpr
      intro value member
      have entry := found _ (get?_eq_some_iff.mp member)
      simp at entry
  | some value =>
      obtain ⟨before, after, split, _⟩ := List.lookup_eq_some_iff.mp found
      refine (get?_eq_some_iff.mpr ?_).symm
      rw [split]
      simp

theorem get?_eq_none_iff {map : OrderedMap κ ν} {key : κ} :
    map.get? key = none ↔ key ∉ map.keys := by
  rw [← Enumeration.position?_eq_none_iff, get?]
  cases found : map.keys.position? key with
  | none => simp
  | some index =>
      have bound := Enumeration.position?_lt found
      rw [← map.size_values] at bound
      simp [bound]

theorem mem_keys_of_get? {map : OrderedMap κ ν} {key : κ} {value : ν}
    (found : map.get? key = some value) :
    key ∈ map.keys := by
  apply Decidable.byContradiction
  intro absent
  rw [get?_eq_none_iff.mpr absent] at found
  cases found

/-- Maps are determined by their entries in order. -/
theorem ext_toList {left right : OrderedMap κ ν} (same : left.toList = right.toList) :
    left = right := by
  have sameKeys : left.keys = right.keys := by
    apply Enumeration.ext_toList
    rw [← map_fst_toList, ← map_fst_toList, same]
  have sameValues : left.values = right.values := by
    apply Array.toList_inj.mp
    rw [← map_snd_toList, ← map_snd_toList, same]
  cases left
  cases right
  cases sameKeys
  cases sameValues
  rfl

theorem toList_inj {left right : OrderedMap κ ν} :
    left.toList = right.toList ↔ left = right :=
  ⟨ext_toList, congrArg toList⟩

instance [DecidableEq ν] : DecidableEq (OrderedMap κ ν) := fun left right =>
  decidable_of_iff (left.toList = right.toList) toList_inj

/-! ## Updates -/

@[simp]
theorem get?_empty (key : κ) : (empty : OrderedMap κ ν).get? key = none := by
  simp [get?, empty]

theorem keys_upsert (map : OrderedMap κ ν) (key : κ) (first : ν) (update : ν → ν) :
    (map.upsert key first update).keys = map.keys.insert key := by
  unfold upsert
  split
  · next found =>
      exact (Enumeration.insert_of_mem
        (Enumeration.mem_of_get? (Enumeration.position?_eq_some_iff.mp found))).symm
  · next fresh =>
      exact (Enumeration.insert_of_not_mem (Enumeration.position?_eq_none_iff.mp fresh)).symm

/-- An upsert changes the value of its own key and of no other. -/
theorem get?_upsert (map : OrderedMap κ ν) (key : κ) (first : ν) (update : ν → ν)
    (other : κ) :
    (map.upsert key first update).get? other =
      if key = other then some ((map.get? key).elim first update) else map.get? other := by
  unfold upsert
  split
  · next index found =>
      simp only [get?, found]
      by_cases same : key = other
      · subst same
        have bound := Enumeration.position?_lt found
        rw [← map.size_values] at bound
        simp [found, bound, Array.getElem?_modify]
      · rw [if_neg same]
        cases position : map.keys.position? other with
        | none => rfl
        | some place =>
            have different : index ≠ place := by
              rintro rfl
              rw [Enumeration.position?_eq_some_iff] at found position
              exact same (Option.some.inj (found.symm.trans position))
            simp [Array.getElem?_modify, different]
  · next fresh =>
      simp only [get?, fresh, Enumeration.position?_push, ← map.size_values]
      by_cases same : key = other
      · simp [same]
      · rw [if_neg same, if_neg same]
        cases position : map.keys.position? other with
        | none => rfl
        | some place =>
            have bound := Enumeration.position?_lt position
            rw [← map.size_values] at bound
            simp [Array.getElem?_push, Nat.ne_of_lt bound]

theorem keys_insert (map : OrderedMap κ ν) (key : κ) (value : ν) :
    (map.insert key value).keys = map.keys.insert key :=
  keys_upsert map key value _

@[simp]
theorem get?_insert (map : OrderedMap κ ν) (key : κ) (value : ν) (other : κ) :
    (map.insert key value).get? other =
      if key = other then some value else map.get? other := by
  rw [insert, get?_upsert]
  cases map.get? key <;> rfl

/-- A new key goes to the end. -/
theorem toList_upsert_of_not_mem {map : OrderedMap κ ν} {key : κ} (first : ν)
    (update : ν → ν) (absent : key ∉ map.keys) :
    (map.upsert key first update).toList = map.toList ++ [(key, first)] := by
  unfold upsert
  split
  · next found =>
      exact absurd (Enumeration.mem_of_get? (Enumeration.position?_eq_some_iff.mp found)) absent
  · next fresh =>
      simp only [toList, Enumeration.toList_push, Array.toList_push]
      rw [List.zip_append (by simp [map.size_values])]
      rfl

theorem toList_insert_of_not_mem {map : OrderedMap κ ν} {key : κ} (value : ν)
    (absent : key ∉ map.keys) :
    (map.insert key value).toList = map.toList ++ [(key, value)] :=
  toList_upsert_of_not_mem value _ absent

/-- Upserts one after the other bring in their keys in the order of their first occurrence. -/
theorem keys_foldl_upsert {α : Type w} (key : α → κ) (first : α → ν) (update : α → ν → ν)
    (elements : List α) (map : OrderedMap κ ν) :
    (elements.foldl (fun map element =>
      map.upsert (key element) (first element) (update element)) map).keys =
      map.keys.insertMany (elements.map key) := by
  induction elements generalizing map with
  | nil => rfl
  | cons element rest induction =>
      rw [List.foldl_cons, induction, keys_upsert]
      rfl

/-- Upserts of new and different keys append their entries. -/
theorem toList_foldl_upsert_of_distinct {α : Type w} {key : α → κ} {elements : List α}
    (distinct : (elements.map key).Nodup) (first : α → ν) (update : α → ν → ν)
    {map : OrderedMap κ ν} (fresh : ∀ element ∈ elements, key element ∉ map.keys) :
    (elements.foldl (fun map element =>
      map.upsert (key element) (first element) (update element)) map).toList =
      map.toList ++ elements.map fun element => (key element, first element) := by
  induction elements generalizing map with
  | nil => simp
  | cons element rest induction =>
      rw [List.map_cons, List.nodup_cons] at distinct
      rw [List.foldl_cons, induction distinct.2,
        toList_upsert_of_not_mem _ _ (fresh element (List.mem_cons_self ..)), List.append_assoc]
      · rfl
      · intro other member
        rw [keys_upsert, Enumeration.mem_insert, not_or]
        refine ⟨fresh other (List.mem_cons_of_mem _ member), fun same => distinct.1 ?_⟩
        rw [← same]
        exact List.mem_map_of_mem member

end OrderedMap

end Acceptor
