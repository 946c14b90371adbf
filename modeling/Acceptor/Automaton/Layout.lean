import Acceptor.Automaton.Builder

/-!
# What a built automaton holds

Building succeeds exactly when every state mentioned lies in the declared
universe, and otherwise names the first one that does not.  The automaton that
is built holds what was collected: the row of a state lists the groups of
edges from it in the order in which they were begun, and its epsilon edges are
those collected for it.
-/

namespace Acceptor

universe u

namespace Builder

variable {σ : Type u} [DecidableEq σ] [Hashable σ]

theorem firstOutside?_eq_none_iff {builder : Builder σ} :
    builder.firstOutside? = none ↔
      ∀ state ∈ builder.mentioned, state < builder.numStates := by
  simp [firstOutside?, List.find?_eq_none]

/-- Building succeeds when every state mentioned lies in the declared universe. -/
theorem build_eq_ok_iff {builder : Builder σ} {automaton : Automaton σ} :
    builder.build = .ok automaton ↔
      (∀ state ∈ builder.mentioned, state < builder.numStates) ∧
        builder.layout = automaton := by
  rw [← firstOutside?_eq_none_iff, build]
  cases builder.firstOutside? with
  | none => simp
  | some state => simp

/-- Building fails with the first state mentioned outside the declared universe. -/
theorem build_eq_error_iff {builder : Builder σ} {error : AutomatonError} :
    builder.build = .error error ↔
      ∃ state, builder.firstOutside? = some state ∧
        error = .stateNotInUniverse state builder.numStates := by
  rw [build]
  cases builder.firstOutside? with
  | none => simp
  | some state => simp [eq_comm]

/-! ## Rows -/

/-- The row of a state in a table of rows. -/
def rowAt (rows : Array (OrderedMap σ StateSet)) (state : State) : OrderedMap σ StateSet :=
  rows.getD state.toNat .empty

/-- The part of an edge group that a row keeps, if the group is of the source of the row. -/
def keptBy (source : State) (entry : (State × σ) × StateSet) : Option (σ × StateSet) :=
  if entry.1.1 = source then some (entry.1.2, entry.2) else none

theorem rowAt_modify {rows : Array (OrderedMap σ StateSet)} {source : State}
    (update : OrderedMap σ StateSet → OrderedMap σ StateSet)
    (bound : source.toNat < rows.size) (state : State) :
    rowAt (rows.modify source.toNat update) state =
      if source = state then update (rowAt rows state) else rowAt rows state := by
  unfold rowAt
  rw [Array.getD_eq_getD_getElem?, Array.getD_eq_getD_getElem?, Array.getElem?_modify]
  by_cases same : source = state
  · subst same
    simp [bound]
  · have different : source.toNat ≠ state.toNat := fun equal => same (UInt32.toNat_inj.mp equal)
    rw [if_neg different, if_neg same]

theorem toList_rowAt_foldl {entries : List ((State × σ) × StateSet)}
    {rows : Array (OrderedMap σ StateSet)}
    (bounds : ∀ entry ∈ entries, entry.1.1.toNat < rows.size)
    (distinct : (entries.map Prod.fst).Nodup)
    (fresh : ∀ entry ∈ entries, entry.1.2 ∉ (rowAt rows entry.1.1).keys) (source : State) :
    (rowAt (entries.foldl
        (fun rows entry => rows.modify entry.1.1.toNat (·.insert entry.1.2 entry.2)) rows)
      source).toList =
      (rowAt rows source).toList ++ entries.filterMap (keptBy source) := by
  induction entries generalizing rows with
  | nil => simp
  | cons first rest induction =>
      have firstBound := bounds first (List.mem_cons_self ..)
      have firstFresh := fresh first (List.mem_cons_self ..)
      rw [List.map_cons, List.nodup_cons] at distinct
      rw [List.foldl_cons, induction]
      · rw [rowAt_modify _ firstBound, List.filterMap_cons]
        by_cases same : first.1.1 = source
        · subst same
          rw [if_pos rfl, OrderedMap.toList_insert_of_not_mem _ firstFresh, List.append_assoc]
          simp [keptBy]
        · rw [if_neg same]
          simp [keptBy, same]
      · intro entry member
        rw [Array.size_modify]
        exact bounds entry (List.mem_cons_of_mem _ member)
      · exact distinct.2
      · intro entry member
        have entryFresh := fresh entry (List.mem_cons_of_mem _ member)
        rw [rowAt_modify _ firstBound]
        by_cases same : first.1.1 = entry.1.1
        · rw [if_pos same, OrderedMap.keys_insert, Enumeration.mem_insert, not_or]
          refine ⟨entryFresh, fun symbolsEqual => distinct.1 ?_⟩
          have keysEqual : first.1 = entry.1 := Prod.ext same symbolsEqual.symm
          rw [keysEqual]
          exact List.mem_map_of_mem member
        · rw [if_neg same]
          exact entryFresh

/-- The states mentioned are the initial state, the final states and the ends of the edges. -/
theorem mem_mentioned_iff {builder : Builder σ} {state : State} :
    state ∈ builder.mentioned ↔
      state = builder.initial ∨ state ∈ builder.finals ∨
        (∃ entry ∈ builder.labelled.toList, state = entry.1.1 ∨ state ∈ entry.2) ∨
        (∃ entry ∈ builder.epsilons.toList, state = entry.1 ∨ state ∈ entry.2) := by
  simp [mentioned]

/-- The row of a state lists the groups of edges from it, in their order. -/
theorem toList_row_layout {builder : Builder σ}
    (inside : ∀ state ∈ builder.mentioned, state < builder.numStates) (source : State) :
    (builder.layout.row source).toList =
      builder.labelled.toList.filterMap (keptBy source) := by
  have blank : ∀ state : State,
      rowAt (Array.replicate builder.numStates.toNat (.empty : OrderedMap σ StateSet))
        state = .empty := by
    intro state
    unfold rowAt
    rw [Array.getD_eq_getD_getElem?, Array.getElem?_replicate]
    split <;> rfl
  have bounds : ∀ entry ∈ builder.labelled.toList, entry.1.1.toNat <
      (Array.replicate builder.numStates.toNat (.empty : OrderedMap σ StateSet)).size := by
    intro entry member
    have mentioned := mem_mentioned_iff.mpr (Or.inr (Or.inr (Or.inl ⟨entry, member, Or.inl rfl⟩)))
    simpa using UInt32.lt_iff_toNat_lt.mp (inside entry.1.1 mentioned)
  have result := toList_rowAt_foldl bounds builder.labelled.nodup_keys
    (fun entry _ => by rw [blank, Enumeration.mem_def]; simp [OrderedMap.empty]) source
  rw [blank] at result
  exact result

theorem getD_setIfInBounds {rows : Array StateSet} {source : State} {destinations : StateSet}
    (bound : source.toNat < rows.size) (state : State) :
    (rows.setIfInBounds source.toNat destinations).getD state.toNat ∅ =
      if source = state then destinations else rows.getD state.toNat ∅ := by
  rw [Array.getD_eq_getD_getElem?, Array.getD_eq_getD_getElem?, Array.getElem?_setIfInBounds]
  by_cases same : source = state
  · subst same
    simp [bound]
  · have different : source.toNat ≠ state.toNat := fun equal => same (UInt32.toNat_inj.mp equal)
    rw [if_neg different, if_neg same]

theorem getD_foldl_set {entries : List (State × StateSet)} {rows : Array StateSet}
    (bounds : ∀ entry ∈ entries, entry.1.toNat < rows.size)
    (distinct : (entries.map Prod.fst).Nodup) (source : State) :
    (entries.foldl (fun rows entry => rows.setIfInBounds entry.1.toNat entry.2) rows).getD
        source.toNat ∅ =
      (entries.lookup source).getD (rows.getD source.toNat ∅) := by
  induction entries generalizing rows with
  | nil => rfl
  | cons first rest induction =>
      obtain ⟨state, destinations⟩ := first
      have firstBound : state.toNat < rows.size := bounds _ (List.mem_cons_self ..)
      rw [List.map_cons, List.nodup_cons] at distinct
      rw [List.foldl_cons, induction, getD_setIfInBounds firstBound, List.lookup_cons]
      · by_cases same : state = source
        · subst same
          have absent : rest.lookup state = none := by
            rw [List.lookup_eq_none_iff]
            intro entry member
            have different : entry.1 ≠ state := by
              rintro rfl
              exact distinct.1 (List.mem_map.mpr ⟨entry, member, rfl⟩)
            simpa using different.symm
          simp [absent]
        · have notEqual : (source == state) = false := by simpa using Ne.symm same
          simp [same, notEqual]
      · intro entry member
        rw [Array.size_setIfInBounds]
        exact bounds entry (List.mem_cons_of_mem _ member)
      · exact distinct.2

/-- The epsilon edges of a state are those collected for it. -/
theorem epsilonsFrom_layout {builder : Builder σ}
    (inside : ∀ state ∈ builder.mentioned, state < builder.numStates) (source : State) :
    builder.layout.epsilonsFrom source = (builder.epsilons.get? source).getD ∅ := by
  have bounds : ∀ entry ∈ builder.epsilons.toList, entry.1.toNat <
      (Array.replicate builder.numStates.toNat (∅ : StateSet)).size := by
    intro entry member
    have mentioned := mem_mentioned_iff.mpr (Or.inr (Or.inr (Or.inr ⟨entry, member, Or.inl rfl⟩)))
    simpa using UInt32.lt_iff_toNat_lt.mp (inside entry.1 mentioned)
  have blank : (Array.replicate builder.numStates.toNat (∅ : StateSet)).getD source.toNat ∅ =
      ∅ := by
    rw [Array.getD_eq_getD_getElem?, Array.getElem?_replicate]
    split <;> rfl
  have laidOut := getD_foldl_set bounds builder.epsilons.nodup_keys source
  rw [blank, OrderedMap.lookup_toList] at laidOut
  exact laidOut

end Builder

end Acceptor
