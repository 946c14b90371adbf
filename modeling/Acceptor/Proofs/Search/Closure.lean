import Acceptor.Automaton.Closure
import Acceptor.Proofs.Builder.Built
import Acceptor.Proofs.Determinization.Correctness
import Acceptor.Proofs.Search.Answers
import Acceptor.Symbol
import Mathlib.Logic.Relation

/-!
# Closures found by a search

The search that follows epsilon edges from a set of states ends with the
closure of the set, whatever cycles the edges make and whether or not the
members are states of the automaton.  It looks at most once at each member and
once for each epsilon edge, however often a state joins the queue.

The closure is described by the epsilon edges that the automaton lists.  It is
what can be reached along them, and so obeys the laws of a closure.
-/

namespace Acceptor

universe u

/-- A path leads from a state to another exactly when a chain of steps does. -/
theorem reaches_iff_reflTransGen
    {successors : State → StateSet}
    {source target : State} :
    Reaches successors source target ↔
      Relation.ReflTransGen (fun state next => next ∈ successors state) source target := by
  constructor
  · intro path
    induction path with
    | refl state => exact .refl
    | step edge _ induction => exact .head edge induction
  · intro chain
    induction chain using Relation.ReflTransGen.head_induction_on with
    | refl => exact .refl _
    | head edge _ induction => exact .step edge induction

namespace Automaton

variable {σ : Type u} [DecidableEq σ] [Hashable σ] {automaton : Automaton σ}

/-! ## The states of an automaton -/

/-- The states of an automaton in ascending order. -/
def states (automaton : Automaton σ) : List State :=
  (List.range automaton.numStates.toNat).map UInt32.ofNat

theorem toNat_ofNat_of_lt_numStates {number : Nat} (below : number < automaton.numStates.toNat) :
    (UInt32.ofNat number).toNat = number :=
  UInt32.toNat_ofNat_of_lt' (Nat.lt_trans below automaton.numStates.toNat_lt)

theorem nodup_states (automaton : Automaton σ) : automaton.states.Nodup :=
  nodup_map_range fun _ => toNat_ofNat_of_lt_numStates

theorem mem_states_iff {state : State} :
    state ∈ automaton.states ↔ state < automaton.numStates := by
  rw [UInt32.lt_iff_toNat_lt]
  constructor
  · intro listed
    rcases List.mem_map.mp listed with ⟨number, below, rfl⟩
    rw [List.mem_range] at below
    rwa [toNat_ofNat_of_lt_numStates below]
  · intro below
    exact List.mem_map.mpr ⟨state.toNat, List.mem_range.mpr below, UInt32.ofNat_toNat⟩

/-! ## Following epsilon edges -/

/-- The search comes upon the members of the closure. -/
theorem reached_closing_iff {states : StateSet} {state : State} :
    (automaton.closing states).Reached state ↔ state ∈ automaton.epsilonClosure states := by
  constructor
  · intro reached
    induction reached with
    | start member => exact automaton.subset_epsilonClosure states _ member
    | follow _ edge induction => exact epsilonClosure_closed induction edge
  · intro member
    rcases mem_epsilonClosure_iff.mp member with ⟨source, sourceMember, path⟩
    have reached : (automaton.closing states).Reached source := .start sourceMember
    clear member sourceMember
    induction path with
    | refl state => exact reached
    | step edge _ induction => exact induction (.follow reached edge)

namespace WellFormed

variable (wellFormed : automaton.WellFormed)

include wellFormed

/-- The epsilon edges out of all states are as many as are listed. -/
theorem sum_length_epsilonsFrom :
    (automaton.states.map fun state => (automaton.epsilonsFrom state).toList.length).sum =
      automaton.epsilonTransitions.length := by
  rw [epsilonTransitions, List.length_flatMap, states, List.map_map]
  congr 1
  apply List.ext_getElem
  · simp [wellFormed.size_epsilons]
  · intro index indexBelow entryBelow
    have below : index < automaton.numStates.toNat := by simpa using indexBelow
    have stored : index < automaton.epsilons.size := wellFormed.size_epsilons ▸ below
    simp [epsilonsFrom, toNat_ofNat_of_lt_numStates below, stored]

theorem budget_closing (states : StateSet) :
    (automaton.closing states).budget automaton.states (automaton.closing states).begin =
      states.size + automaton.epsilonTransitions.length := by
  have unvisited : ∀ state ∈ automaton.states, (!(∅ : StateSet).contains state) = true := by
    simp [StateSet.contains]
  rw [← wellFormed.sum_length_epsilonsFrom, Search.budget, Search.unfollowed, Search.begin,
    List.filter_eq_self.mpr unvisited]
  rfl

/-- After as many turns as there are members and epsilon edges, the closure has been found. -/
theorem outcome?_closing
    (states : StateSet)
    {turns : Nat}
    (enough : states.size + automaton.epsilonTransitions.length < turns) :
    (automaton.closing states).outcome? turns =
      some (.exhausted (automaton.epsilonClosure states)) := by
  have covered : ∀ state, ∀ next ∈ (automaton.closing states).follow state,
      state ∈ automaton.states :=
    fun state next edge => mem_states_iff.mpr (wellFormed.source_lt_of_epsilon edge)
  rw [← wellFormed.budget_closing] at enough
  rcases Search.exists_outcome automaton.nodup_states covered enough with
    ⟨outcome, ended, answers⟩
  cases outcome with
  | found state => exact absurd answers.2 Bool.false_ne_true
  | exhausted visited =>
      have same : visited = automaton.epsilonClosure states :=
        StateSet.ext_mem fun state => (answers.1 state).trans reached_closing_iff
      rw [ended, same]

/-- A number that is not a state adds itself to a closure and nothing else. -/
theorem epsilonClosure_insert_of_le
    {state : State}
    (outside : automaton.numStates ≤ state)
    (states : StateSet) :
    automaton.epsilonClosure (states.insert state) =
      (automaton.epsilonClosure states).insert state := by
  have alone : ∀ {other}, Reaches automaton.epsilonsFrom state other → other = state := by
    intro other path
    cases path with
    | refl => rfl
    | step edge _ =>
        exact absurd (wellFormed.source_lt_of_epsilon edge) (UInt32.not_lt.mpr outside)
  ext other
  simp only [StateSet.mem_insert, mem_epsilonClosure_iff]
  constructor
  · rintro ⟨source, rfl | member, path⟩
    · exact Or.inl (alone path)
    · exact Or.inr ⟨source, member, path⟩
  · rintro (rfl | ⟨source, member, path⟩)
    · exact ⟨other, Or.inl rfl, .refl other⟩
    · exact ⟨source, Or.inr member, path⟩

end WellFormed

/-! ## The laws of the closure -/

/-- The closure is what the listed epsilon edges make of it, and it is found by a search. -/
structure ClosureLaws (automaton : Automaton σ) : Prop where
  /-- The search for a closure ends with it. -/
  found : ∀ states turns, states.size + automaton.epsilonTransitions.length < turns →
    (automaton.closing states).outcome? turns =
      some (.exhausted (automaton.epsilonClosure states))
  /-- A closure consists of what is reached from the members by any number of edges. -/
  mem_iff : ∀ states state, state ∈ automaton.epsilonClosure states ↔
    ∃ source ∈ states, Relation.ReflTransGen
      (fun start stop => (start, stop) ∈ automaton.epsilonTransitions) source state
  /-- A number that is not a state stays and has no edges. -/
  outside : ∀ states state, automaton.numStates ≤ state →
    automaton.epsilonClosure (states.insert state) =
      (automaton.epsilonClosure states).insert state
  extensive : ∀ states, states ⊆ automaton.epsilonClosure states
  monotone : ∀ left right, left ⊆ right →
    automaton.epsilonClosure left ⊆ automaton.epsilonClosure right
  idempotent : ∀ states, automaton.epsilonClosure (automaton.epsilonClosure states) =
    automaton.epsilonClosure states
  union : ∀ left right, automaton.epsilonClosure (left ∪ right) =
    automaton.epsilonClosure left ∪ automaton.epsilonClosure right
  /-- After a symbol a run is in the closure of the states to which the symbol leads. -/
  move : ∀ states symbol, ∃ successors : StateSet,
    (∀ state, state ∈ successors ↔
      ∃ source ∈ states, (source, symbol, state) ∈ automaton.transitions) ∧
      automaton.move states symbol = automaton.epsilonClosure successors

/-- Closures in an automaton that a builder has built obey the laws. -/
theorem Built.closureLaws (built : automaton.Built) : automaton.ClosureLaws where
  found states _ enough := built.wellFormed.outcome?_closing states enough
  mem_iff states state := by
    simp only [mem_epsilonClosure_iff, reaches_iff_reflTransGen,
      mem_epsilonTransitions_iff built.wellFormed.epsilons_bounded]
  outside states _ outside := built.wellFormed.epsilonClosure_insert_of_le outside states
  extensive := automaton.subset_epsilonClosure
  monotone _ _ := epsilonClosure_mono
  idempotent := automaton.epsilonClosure_epsilonClosure
  union := automaton.epsilonClosure_union
  move states symbol := by
    refine ⟨automaton.step states symbol, fun state => ?_, rfl⟩
    simp only [mem_step_iff, mem_transitions_iff built.wellFormed.rows_bounded]

/-- The number 9 is no state of the automaton; the closure begins on its epsilon cycle. -/
theorem closureLaws_tangled :
    Builder.tangled.layout.Built ∧ Builder.tangled.layout.ClosureLaws ∧
      Builder.tangled.layout.epsilonClosure (.insert {1} 9) =
        (Builder.tangled.layout.epsilonClosure {1}).insert 9 := by
  have laws := Builder.built_tangled.closureLaws
  exact ⟨Builder.built_tangled, laws, laws.outside {1} 9 (by decide)⟩

end Automaton

end Acceptor
