import Acceptor.Automaton.Simulation

/-!
# Closure under epsilon edges

The closure of a set of states consists of what its members reach through
epsilon edges.  It contains the set, grows with it, adds nothing when repeated
and can be computed member by member.  The states after one symbol are the
closure of what the symbol leads to.
-/

namespace Acceptor

universe u

namespace Automaton

variable {σ : Type u} [DecidableEq σ] [Hashable σ]

/-- The closure consists of what the members reach through epsilon edges. -/
theorem mem_epsilonClosure_iff {automaton : Automaton σ} {states : StateSet}
    {state : State} :
    state ∈ automaton.epsilonClosure states ↔
      ∃ source ∈ states, Reaches automaton.epsilonsFrom source state :=
  mem_reachable_iff

theorem mem_epsilonClosureOf_iff {automaton : Automaton σ} {source state : State} :
    state ∈ automaton.epsilonClosureOf source ↔
      Reaches automaton.epsilonsFrom source state := by
  rw [epsilonClosureOf, mem_epsilonClosure_iff]
  simp

/-- A set is contained in its closure. -/
theorem subset_epsilonClosure (automaton : Automaton σ) (states : StateSet) :
    states ⊆ automaton.epsilonClosure states :=
  fun state member => mem_epsilonClosure_iff.mpr ⟨state, member, .refl state⟩

@[simp]
theorem epsilonClosure_empty (automaton : Automaton σ) : automaton.epsilonClosure ∅ = ∅ := by
  refine StateSet.eq_empty_iff.mpr fun state member => ?_
  obtain ⟨source, sourceMember, _⟩ := mem_epsilonClosure_iff.mp member
  exact StateSet.not_mem_empty source sourceMember

/-- Epsilon edges do not leave a closure. -/
theorem epsilonClosure_closed {automaton : Automaton σ} {states : StateSet}
    {state next : State} (member : state ∈ automaton.epsilonClosure states)
    (edge : next ∈ automaton.epsilonsFrom state) :
    next ∈ automaton.epsilonClosure states := by
  obtain ⟨source, sourceMember, path⟩ := mem_epsilonClosure_iff.mp member
  exact mem_epsilonClosure_iff.mpr ⟨source, sourceMember, path.trans (.single edge)⟩

/-- Larger sets have larger closures. -/
theorem epsilonClosure_mono {automaton : Automaton σ} {left right : StateSet}
    (contained : left ⊆ right) :
    automaton.epsilonClosure left ⊆ automaton.epsilonClosure right := by
  intro state member
  obtain ⟨source, sourceMember, path⟩ := mem_epsilonClosure_iff.mp member
  exact mem_epsilonClosure_iff.mpr ⟨source, contained source sourceMember, path⟩

/-- Closing a closure adds nothing. -/
@[simp]
theorem epsilonClosure_epsilonClosure (automaton : Automaton σ) (states : StateSet) :
    automaton.epsilonClosure (automaton.epsilonClosure states) =
      automaton.epsilonClosure states := by
  ext state
  constructor
  · intro member
    obtain ⟨middle, middleMember, second⟩ := mem_epsilonClosure_iff.mp member
    obtain ⟨source, sourceMember, first⟩ := mem_epsilonClosure_iff.mp middleMember
    exact mem_epsilonClosure_iff.mpr ⟨source, sourceMember, first.trans second⟩
  · exact automaton.subset_epsilonClosure _ state

/-- The closure of a union is the union of the closures. -/
theorem epsilonClosure_union (automaton : Automaton σ) (left right : StateSet) :
    automaton.epsilonClosure (left ∪ right) =
      automaton.epsilonClosure left ∪ automaton.epsilonClosure right := by
  ext state
  simp only [StateSet.mem_union, mem_epsilonClosure_iff]
  constructor
  · rintro ⟨source, member | member, path⟩
    · exact Or.inl ⟨source, member, path⟩
    · exact Or.inr ⟨source, member, path⟩
  · rintro (⟨source, member, path⟩ | ⟨source, member, path⟩)
    · exact ⟨source, Or.inl member, path⟩
    · exact ⟨source, Or.inr member, path⟩

/-- A symbol leads to the destinations of the edges that carry it. -/
theorem mem_step_iff {automaton : Automaton σ} {states : StateSet} {symbol : σ}
    {state : State} :
    state ∈ automaton.step states symbol ↔
      ∃ source ∈ states, state ∈ automaton.destinations source symbol := by
  rw [step, StateSet.mem_foldl_union]
  simp

/-- After a symbol a run is where epsilon edges lead from an edge that carries the symbol. -/
theorem mem_move_iff {automaton : Automaton σ} {states : StateSet} {symbol : σ}
    {state : State} :
    state ∈ automaton.move states symbol ↔
      ∃ source ∈ states, ∃ middle ∈ automaton.destinations source symbol,
        Reaches automaton.epsilonsFrom middle state := by
  rw [move, mem_epsilonClosure_iff]
  constructor
  · rintro ⟨middle, member, path⟩
    obtain ⟨source, sourceMember, edge⟩ := mem_step_iff.mp member
    exact ⟨source, sourceMember, middle, edge, path⟩
  · rintro ⟨source, sourceMember, middle, edge, path⟩
    exact ⟨middle, mem_step_iff.mpr ⟨source, sourceMember, edge⟩, path⟩

end Automaton

end Acceptor
