import Acceptor.Proofs.Builder.Collected

/-!
# The first state outside the universe

Building compares every state that was named or added with the universe that
was declared last, whatever was declared when the state was added.  It succeeds
if all of them are inside.  Otherwise it names the first one that is not, in an
order that is fixed by what was added: the initial state, the final states, the
labelled edges group by group and the epsilon edges group by group.
-/

namespace Acceptor

universe u v

namespace Builder

/-! ## Ascending states -/

/-- The different states of a list, by ascending number. -/
def ascending (states : List State) : List State :=
  states.eraseDups.mergeSort

theorem pairwise_ascending (states : List State) :
    (ascending states).Pairwise (· < ·) := by
  have sorted : (ascending states).Pairwise fun first second =>
      decide (first ≤ second) = true := by
    apply List.pairwise_mergeSort
    · intro first second third below above
      exact decide_eq_true (UInt32.le_trans (of_decide_eq_true below) (of_decide_eq_true above))
    · intro first second
      simpa using UInt32.le_total first second
  have distinct : (ascending states).Nodup := by
    rw [ascending, (List.mergeSort_perm _ _).nodup_iff, ← Enumeration.toList_ofList]
    exact Enumeration.nodup_toList _
  refine sorted.imp₂ (fun first second below different => ?_) distinct
  exact UInt32.lt_of_le_of_ne (of_decide_eq_true below) different

/-- A set lists the states that were put into it by ascending number. -/
theorem toList_ofList_eq_ascending (states : List State) :
    (StateSet.ofList states).toList = ascending states := by
  refine StateSet.eq_of_ascending (StateSet.ascending _) (pairwise_ascending states) ?_
  intro state
  rw [ascending, List.mem_mergeSort, List.mem_eraseDups]
  exact StateSet.mem_ofList

variable {σ : Type u} [DecidableEq σ] [Hashable σ]

/-! ## The order of checking -/

/-- The groups in the order in which they are begun, each source before its destinations. -/
def inspectedGroups {κ : Type v} [DecidableEq κ]
    (source : κ → State) (entries : List (κ × State)) : List State :=
  (entries.map Prod.fst).eraseDups.flatMap fun key =>
    source key :: ascending (gathered entries key)

/--
The states that operations have named or added, in the order in which they are
checked: the initial state, the final states, the labelled edges in groups of
one source and symbol, and the epsilon edges in groups of one source.
-/
def inspected (calls : List (Call σ)) : List State :=
  chosen calls :: ascending (addedFinals calls) ++
    inspectedGroups Prod.fst ((addedTransitions calls).map keyed) ++
    inspectedGroups id (addedEpsilons calls)

theorem flatMap_toList_grouped
    {κ : Type v} [DecidableEq κ] [Hashable κ]
    (source : κ → State)
    (entries : List (κ × State)) :
    (grouped entries).toList.flatMap (fun entry => source entry.1 :: entry.2.toList) =
      inspectedGroups source entries := by
  rw [toList_grouped, List.flatMap_map]
  simp only [toList_ofList_eq_ascending]
  rfl

theorem mentioned_ofCalls (numStates : State) (calls : List (Call σ)) :
    (ofCalls numStates calls).mentioned = inspected calls := by
  have labelled := flatMap_toList_grouped Prod.fst ((addedTransitions calls).map keyed)
  have epsilons := flatMap_toList_grouped id (addedEpsilons calls)
  rw [ofCalls_eq, inspected, ← labelled, ← epsilons, ← toList_ofList_eq_ascending]
  rfl

/-! ## The outcome of building -/

/-- The first state that is found outside the universe comes after others that are inside. -/
theorem firstOutside?_ofCalls_eq_some_iff
    {numStates state : State}
    {calls : List (Call σ)} :
    (ofCalls numStates calls).firstOutside? = some state ↔
      ∃ before after, inspected calls = before ++ state :: after ∧
        (∀ earlier ∈ before, earlier < declared numStates calls) ∧
        declared numStates calls ≤ state := by
  rw [firstOutside?, mentioned_ofCalls, numStates_ofCalls, List.find?_eq_some_iff_append]
  simp only [Bool.not_eq_true', decide_eq_false_iff_not, Bool.not_not, decide_eq_true_eq,
    UInt32.not_lt]
  constructor
  · rintro ⟨outside, before, after, split, earlier⟩
    exact ⟨before, after, split, earlier, outside⟩
  · rintro ⟨before, after, split, earlier, outside⟩
    exact ⟨outside, before, after, split, earlier⟩

/--
Building succeeds exactly when everything that was named or added lies in the
universe that was declared last; otherwise it reports that universe and the
first state outside it.
-/
theorem build_reports_first_outside (numStates : State) (calls : List (Call σ)) :
    ((∃ automaton, (ofCalls numStates calls).build = .ok automaton) ↔
      chosen calls < declared numStates calls ∧
        (∀ state ∈ addedFinals calls, state < declared numStates calls) ∧
        (∀ edge ∈ addedTransitions calls,
          edge.1 < declared numStates calls ∧ edge.2.2 < declared numStates calls) ∧
        ∀ edge ∈ addedEpsilons calls,
          edge.1 < declared numStates calls ∧ edge.2 < declared numStates calls) ∧
    ∀ error, (ofCalls numStates calls).build = .error error ↔
      ∃ before state after, inspected calls = before ++ state :: after ∧
        (∀ earlier ∈ before, earlier < declared numStates calls) ∧
        declared numStates calls ≤ state ∧
        error = .stateNotInUniverse state (declared numStates calls) := by
  constructor
  · rw [← inside_ofCalls_iff, inside_iff (populated_ofCalls numStates calls)]
    simp only [build_eq_ok_iff, exists_and_left, exists_eq', and_true]
  · intro error
    simp only [build_eq_error_iff, firstOutside?_ofCalls_eq_some_iff, numStates_ofCalls]
    constructor
    · rintro ⟨state, ⟨before, after, split, earlier, outside⟩, reported⟩
      exact ⟨before, state, after, split, earlier, outside, reported⟩
    · rintro ⟨before, state, after, split, earlier, outside, reported⟩
      exact ⟨state, ⟨before, after, split, earlier, outside⟩, reported⟩

end Builder

end Acceptor
