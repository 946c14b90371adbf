import Acceptor.Proofs.Builder.Built
import Acceptor.Proofs.Occurrences

/-!
# What a sequence of operations collects

Operations on a builder may come in any order and may repeat themselves.  What
they leave behind is described without following them one by one: the universe
and the initial state are those of the last operation that names one, and the
final states and the edges are those that some operation adds.

Edges are kept in groups, one for each source and symbol, or for each source
of epsilon edges.  The groups stand in the order in which they are begun, and
each holds the destinations that are added for it.
-/

namespace Acceptor

universe u v

namespace Builder

variable {σ : Type u} [DecidableEq σ] [Hashable σ]

/-! ## What operations name and add -/

namespace Call

/-- The size of the universe that an operation declares. -/
def numStates? : Call σ → Option State
  | setNumStates numStates => some numStates
  | _ => none

/-- The initial state that an operation chooses. -/
def initial? : Call σ → Option State
  | setInitial state => some state
  | _ => none

/-- The final states that an operation adds. -/
def finals : Call σ → List State
  | addFinal state => [state]
  | addFinals states => states
  | _ => []

/-- The labelled edge that an operation adds. -/
def transition? : Call σ → Option (State × σ × State)
  | addTransition source symbol destination => some (source, symbol, destination)
  | _ => none

/-- The epsilon edge that an operation adds. -/
def epsilon? : Call σ → Option (State × State)
  | addEpsilon source destination => some (source, destination)
  | _ => none

end Call

/-- The size of the universe that is declared last. -/
def declared (numStates : State) (calls : List (Call σ)) : State :=
  (calls.filterMap Call.numStates?).getLastD numStates

section Added

variable (calls : List (Call σ))

/-- The initial state that is chosen last, the state zero if none is chosen. -/
def chosen : State :=
  (calls.filterMap Call.initial?).getLastD 0

/-- The final states in the order in which they are added. -/
def addedFinals : List State :=
  calls.flatMap Call.finals

/-- The labelled edges in the order in which they are added. -/
def addedTransitions : List (State × σ × State) :=
  calls.filterMap Call.transition?

/-- The epsilon edges in the order in which they are added. -/
def addedEpsilons : List (State × State) :=
  calls.filterMap Call.epsilon?

end Added

/-! ## Groups -/

section Groups

variable {κ : Type v} [DecidableEq κ]

/-- The destinations that are added for a key. -/
def gathered (entries : List (κ × State)) (key : κ) : List State :=
  (entries.filter (·.1 = key)).map Prod.snd

theorem mem_gathered_iff {entries : List (κ × State)} {key : κ} {state : State} :
    state ∈ gathered entries key ↔ (key, state) ∈ entries := by
  simp [gathered]

variable [Hashable κ]

/-- Add a destination to the group of its key. -/
def addTo (groups : OrderedMap κ StateSet) (entry : κ × State) : OrderedMap κ StateSet :=
  groups.upsert entry.1 {entry.2} (·.insert entry.2)

/-- Destinations in groups, each under the key that it is added for. -/
def grouped (entries : List (κ × State)) : OrderedMap κ StateSet :=
  entries.foldl addTo .empty

theorem mem_foldl_addTo_iff
    {entries : List (κ × State)}
    {groups : OrderedMap κ StateSet}
    {key : κ}
    {state : State} :
    state ∈ ((entries.foldl addTo groups).get? key).getD ∅ ↔
      state ∈ (groups.get? key).getD ∅ ∨ (key, state) ∈ entries := by
  induction entries generalizing groups with
  | nil => simp
  | cons entry rest induction =>
      rw [List.foldl_cons, induction, addTo, mem_upsert_group, or_assoc, List.mem_cons,
        Prod.ext_iff]

theorem getD_get?_grouped (entries : List (κ × State)) (key : κ) :
    ((grouped entries).get? key).getD ∅ = .ofList (gathered entries key) := by
  ext state
  rw [grouped, mem_foldl_addTo_iff, StateSet.mem_ofList, mem_gathered_iff]
  simp

/-- The groups stand in the order in which they are begun and hold what is added for them. -/
theorem toList_grouped (entries : List (κ × State)) :
    (grouped entries).toList =
      (entries.map Prod.fst).eraseDups.map fun key =>
        (key, .ofList (gathered entries key)) := by
  have keys : (grouped entries).keys.toList = (entries.map Prod.fst).eraseDups := by
    have inserted : (grouped entries).keys = .ofList (entries.map Prod.fst) :=
      OrderedMap.keys_foldl_upsert Prod.fst (fun entry => {entry.2})
        (fun entry group => StateSet.insert group entry.2) entries .empty
    rw [inserted, Enumeration.toList_ofList]
  rw [← keys, ← OrderedMap.map_fst_toList, List.map_map]
  refine (List.map_id _).symm.trans (List.map_congr_left fun entry member => ?_)
  have found := OrderedMap.get?_eq_some_iff.mpr member
  rw [Function.comp_apply, ← getD_get?_grouped, found]
  rfl

/-- Destinations under different keys are in groups of their own. -/
theorem toList_grouped_of_distinct
    {entries : List (κ × State)}
    (distinct : (entries.map Prod.fst).Nodup) :
    (grouped entries).toList = entries.map fun entry => (entry.1, {entry.2}) := by
  have fresh : ∀ entry ∈ entries, entry.1 ∉ (OrderedMap.empty : OrderedMap κ StateSet).keys := by
    simp [OrderedMap.empty, Enumeration.mem_def]
  exact OrderedMap.toList_foldl_upsert_of_distinct distinct _ _ fresh

end Groups

/-- A labelled edge as a destination that is added for a source and a symbol. -/
def keyed (edge : State × σ × State) : (State × σ) × State :=
  ((edge.1, edge.2.1), edge.2.2)

omit [Hashable σ] in
theorem mem_gathered_keyed_iff
    {edges : List (State × σ × State)}
    {source destination : State}
    {symbol : σ} :
    destination ∈ gathered (edges.map keyed) (source, symbol) ↔
      (source, symbol, destination) ∈ edges := by
  rw [mem_gathered_iff, List.mem_map]
  constructor
  · rintro ⟨edge, member, same⟩
    cases same
    exact member
  · exact fun member => ⟨_, member, rfl⟩

/-! ## What is collected -/

theorem foldl_apply (calls : List (Call σ)) (builder : Builder σ) :
    calls.foldl Call.apply builder =
      { numStates := (calls.filterMap Call.numStates?).getLastD builder.numStates
        initial := (calls.filterMap Call.initial?).getLastD builder.initial
        finals := builder.finals.insertMany (addedFinals calls)
        labelled := ((addedTransitions calls).map keyed).foldl addTo builder.labelled
        epsilons := (addedEpsilons calls).foldl addTo builder.epsilons } := by
  induction calls generalizing builder with
  | nil => rfl
  | cons call rest induction =>
      rw [List.foldl_cons, induction]
      cases call <;>
        simp only [StateSet.insertMany, addedFinals, addedTransitions, addedEpsilons,
          Call.numStates?, Call.initial?, Call.finals, Call.transition?, Call.epsilon?,
          List.filterMap_cons, List.flatMap_cons, List.foldl_append, List.getLastD_cons] <;>
        rfl

/-- Edges that are added one after the other go into groups one after the other. -/
theorem labelled_addTransitions (builder : Builder σ) (edges : List (State × σ × State)) :
    (builder.addTransitions edges).labelled = (edges.map keyed).foldl addTo builder.labelled := by
  induction edges generalizing builder with
  | nil => rfl
  | cons edge rest induction => exact induction _

/-- What operations collect does not depend on how they follow one another. -/
theorem ofCalls_eq (numStates : State) (calls : List (Call σ)) :
    ofCalls numStates calls =
      { numStates := declared numStates calls
        initial := chosen calls
        finals := .ofList (addedFinals calls)
        labelled := grouped ((addedTransitions calls).map keyed)
        epsilons := grouped (addedEpsilons calls) } :=
  foldl_apply calls (new numStates)

section Edges

variable {numStates : State} {calls : List (Call σ)}

@[simp]
theorem numStates_ofCalls (numStates : State) (calls : List (Call σ)) :
    (ofCalls numStates calls).numStates = declared numStates calls := by
  rw [ofCalls_eq]

@[simp]
theorem initial_ofCalls (numStates : State) (calls : List (Call σ)) :
    (ofCalls numStates calls).initial = chosen calls := by
  rw [ofCalls_eq]

@[simp]
theorem mem_finals_ofCalls_iff {state : State} :
    state ∈ (ofCalls numStates calls).finals ↔ state ∈ addedFinals calls := by
  rw [ofCalls_eq]
  exact StateSet.mem_ofList

theorem hasTransition_ofCalls_iff {source destination : State} {symbol : σ} :
    (ofCalls numStates calls).HasTransition source symbol destination ↔
      (source, symbol, destination) ∈ addedTransitions calls := by
  rw [HasTransition, ofCalls_eq, getD_get?_grouped, StateSet.mem_ofList, mem_gathered_keyed_iff]

theorem hasEpsilon_ofCalls_iff {source destination : State} :
    (ofCalls numStates calls).HasEpsilon source destination ↔
      (source, destination) ∈ addedEpsilons calls := by
  rw [HasEpsilon, ofCalls_eq, getD_get?_grouped, StateSet.mem_ofList, mem_gathered_iff]

/-- The states that were named and added are compared with the universe that is declared last. -/
theorem inside_ofCalls_iff :
    (ofCalls numStates calls).Inside ↔
      chosen calls < declared numStates calls ∧
        (∀ state ∈ addedFinals calls, state < declared numStates calls) ∧
        (∀ edge ∈ addedTransitions calls,
          edge.1 < declared numStates calls ∧ edge.2.2 < declared numStates calls) ∧
        ∀ edge ∈ addedEpsilons calls,
          edge.1 < declared numStates calls ∧ edge.2 < declared numStates calls := by
  rw [← initial_ofCalls numStates calls, ← numStates_ofCalls numStates calls]
  constructor
  · intro inside
    refine ⟨inside.initial, ?_, ?_, ?_⟩
    · intro state added
      exact inside.finals state (mem_finals_ofCalls_iff.mpr added)
    · rintro ⟨source, symbol, destination⟩ added
      exact inside.transitions source symbol destination (hasTransition_ofCalls_iff.mpr added)
    · rintro ⟨source, destination⟩ added
      exact inside.epsilons source destination (hasEpsilon_ofCalls_iff.mpr added)
  · rintro ⟨initial, finals, transitions, epsilons⟩
    refine ⟨initial, ?_, ?_, ?_⟩
    · intro state final
      exact finals state (mem_finals_ofCalls_iff.mp final)
    · intro source symbol destination edge
      exact transitions _ (hasTransition_ofCalls_iff.mp edge)
    · intro source destination edge
      exact epsilons _ (hasEpsilon_ofCalls_iff.mp edge)

end Edges

end Builder

end Acceptor
