import Acceptor.Proofs.Determinization.Subsets

/-!
# Correctness of determinization

Determinization succeeds whenever the composite states can be numbered.  The
automaton that results accepts the same words, and its states correspond one
to one to the composite states: every word leads either to the state that
stands for where the runs are, or nowhere when no run is left.
-/

namespace Acceptor

universe u

variable {σ : Type u} [DecidableEq σ] [Hashable σ]

theorem StateSet.size_le_one {set : StateSet}
    (single : ∀ first ∈ set, ∀ second ∈ set, first = second) :
    set.size ≤ 1 := by
  rcases set with ⟨members, ascending⟩
  match members, ascending, single with
  | [], _, _ => exact Nat.zero_le 1
  | [_], _, _ => exact Nat.le_refl 1
  | first :: second :: rest, ascending, single =>
      have same : first = second :=
        single first (List.mem_cons_self ..) second
          (List.mem_cons_of_mem _ (List.mem_cons_self ..))
      have below := (List.pairwise_cons.mp ascending).1 second (List.mem_cons_self ..)
      rw [same] at below
      exact absurd below (UInt32.lt_irrefl second)

namespace Automaton.Subsets

variable {nfa dfa : Automaton σ} {composites : Enumeration StateSet}
  (subsets : nfa.Subsets dfa composites)

include subsets

theorem epsilonTransitions_eq : dfa.epsilonTransitions = [] := by
  apply List.eq_nil_iff_forall_not_mem.mpr
  rintro ⟨source, destination⟩ listed
  have edge := (mem_epsilonTransitions_iff subsets.wellFormed.epsilons_bounded).mp listed
  rw [subsets.epsilonsFrom] at edge
  exact StateSet.not_mem_empty destination edge

theorem size_destinations_le_one (source : State) (symbol : σ) :
    (dfa.destinations source symbol).size ≤ 1 := by
  apply StateSet.size_le_one
  intro first firstEdge second secondEdge
  rcases (subsets.destination_iff _ _ _).mp firstEdge with ⟨composite, found, _, firstFound⟩
  rcases (subsets.destination_iff _ _ _).mp secondEdge with ⟨other, otherFound, _, secondFound⟩
  rw [found] at otherFound
  cases otherFound
  exact UInt32.toNat_inj.mp (Enumeration.get?_inj firstFound secondFound)

end Automaton.Subsets

/-! ## An automaton to try -/

/-- Two states on an epsilon cycle, a symbol that leads to both ends, and a state out of reach. -/
def Builder.tangled : Builder Bool :=
  .ofCalls 4 [.addFinal 2, .addEpsilon 0 1, .addEpsilon 1 0, .addTransition 1 true 2,
    .addTransition 1 true 0, .addTransition 3 false 2]

theorem Builder.inside_tangled : tangled.Inside := by
  refine ⟨by decide, ?_, ?_, ?_⟩
  · intro state final
    rw [StateSet.mem_singleton.mp final]
    decide
  · intro source symbol destination edge
    simp only [tangled, ofCalls, Call.apply, List.foldl_cons, List.foldl_nil,
      hasTransition_addTransition, hasTransition_addEpsilon, hasTransition_addFinal,
      hasTransition_new, false_or, Prod.mk.injEq] at edge
    rcases edge with (⟨rfl, _, rfl⟩ | ⟨rfl, _, rfl⟩) | ⟨rfl, _, rfl⟩ <;> decide
  · intro source destination edge
    simp only [tangled, ofCalls, Call.apply, List.foldl_cons, List.foldl_nil,
      hasEpsilon_addTransition, hasEpsilon_addEpsilon, hasEpsilon_addFinal,
      hasEpsilon_new, false_or, Prod.mk.injEq] at edge
    rcases edge with ⟨rfl, rfl⟩ | ⟨rfl, rfl⟩ <;> decide

theorem Builder.built_tangled : tangled.layout.Built :=
  ⟨4, _, build_of_inside (populated_ofCalls _ _) inside_tangled⟩

theorem Builder.compositesFit_tangled : tangled.layout.CompositesFit :=
  built_tangled.wellFormed.compositesFit (by decide)

namespace Automaton

/-- The determinized automaton accepts the same words. -/
theorem accepts_determinize (nfa : Automaton σ) (fit : nfa.CompositesFit) :
    ∃ dfa, nfa.determinize = .ok dfa ∧
      ∀ word, dfa.accepts word = nfa.accepts word := by
  rcases exists_subsets fit with ⟨dfa, composites, made, subsets⟩
  exact ⟨dfa, made, subsets.accepts_eq⟩

theorem accepts_determinize_tangled :
    Builder.tangled.layout.CompositesFit ∧
      ∃ dfa, Builder.tangled.layout.determinize = .ok dfa ∧
        ∀ word, dfa.accepts word = Builder.tangled.layout.accepts word :=
  ⟨Builder.compositesFit_tangled, accepts_determinize _ Builder.compositesFit_tangled⟩

/-- The states of the second automaton are the composite states of the first, each once. -/
structure Correspondence (nfa dfa : Automaton σ) (composites : List StateSet) : Prop where
  length : composites.length = dfa.numStates.toNat
  nodup : composites.Nodup
  ne_empty : ∀ composite ∈ composites, composite ≠ ∅
  closed : ∀ composite ∈ composites, nfa.epsilonClosure composite = composite
  below : ∀ composite ∈ composites, ∀ state ∈ composite, state < nfa.numStates
  initial : dfa.initial = 0
  first : composites[0]? = some (nfa.epsilonClosureOf nfa.initial)
  stuck_iff : ∀ word, nfa.moveAll (nfa.epsilonClosureOf nfa.initial) word = ∅ ↔
    ¬ ∃ target, dfa.Path 0 word target
  followed : ∀ word, nfa.moveAll (nfa.epsilonClosureOf nfa.initial) word ≠ ∅ →
    ∃ state, (∀ target, dfa.Path 0 word target ↔ target = state) ∧
      composites[state.toNat]? =
        some (nfa.moveAll (nfa.epsilonClosureOf nfa.initial) word)
  reached : ∀ state, state < dfa.numStates → ∃ word, dfa.Path 0 word state
  epsilonTransitions : dfa.epsilonTransitions = []
  single : ∀ source symbol, (dfa.destinations source symbol).size ≤ 1

/-- Determinization numbers the composite states that are reached, and nothing else. -/
theorem determinize_corresponds {nfa : Automaton σ}
    (built : nfa.Built) (fit : nfa.CompositesFit) :
    ∃ dfa composites, nfa.determinize = .ok dfa ∧
      nfa.Correspondence dfa composites := by
  rcases exists_subsets fit with ⟨dfa, composites, made, subsets⟩
  have wellFormed := built.wellFormed
  have enumerates := subsets.enumerates
  refine ⟨dfa, composites.toList, made,
    { length := ?_
      nodup := composites.nodup_toList
      ne_empty := fun _ listed =>
        enumerates.ne_empty wellFormed (Enumeration.mem_def.mpr listed)
      closed := fun _ listed =>
        enumerates.epsilonClosure_eq (Enumeration.mem_def.mpr listed)
      below := fun _ listed _ =>
        enumerates.lt_of_mem wellFormed (Enumeration.mem_def.mpr listed)
      initial := subsets.initial
      first := ?_
      stuck_iff := ?_
      followed := ?_
      reached := ?_
      epsilonTransitions := subsets.epsilonTransitions_eq
      single := subsets.size_destinations_le_one }⟩
  · rw [Enumeration.length_toList, subsets.numStates]
  · rw [Enumeration.getElem?_toList]
    exact enumerates.first
  · intro word
    constructor
    · rintro dead ⟨target, path⟩
      have found := (subsets.path_zero_iff wellFormed).mp path
      exact enumerates.ne_empty wellFormed (Enumeration.mem_of_get? found) dead
    · intro stuck
      apply Classical.byContradiction
      intro alive
      exact stuck (subsets.exists_path subsets.get?_zero alive)
  · intro word alive
    rcases subsets.exists_path subsets.get?_zero alive with ⟨state, path⟩
    have found := (subsets.path_zero_iff wellFormed).mp path
    refine ⟨state, fun target => ⟨fun other => ?_, ?_⟩, ?_⟩
    · have otherFound := (subsets.path_zero_iff wellFormed).mp other
      exact UInt32.toNat_inj.mp (Enumeration.get?_inj otherFound found)
    · rintro rfl
      exact path
    · rw [Enumeration.getElem?_toList]
      exact found
  · intro state below
    rw [UInt32.lt_iff_toNat_lt, subsets.numStates, ← Enumeration.length_toList] at below
    have found : composites.get? state.toNat = some composites.toList[state.toNat] := by
      rw [← Enumeration.getElem?_toList, List.getElem?_eq_getElem below]
    rcases enumerates.reached _ (Enumeration.mem_of_get? found) with ⟨word, same⟩
    rw [← same] at found
    exact ⟨word, (subsets.path_zero_iff wellFormed).mpr found⟩

theorem determinize_corresponds_tangled :
    Builder.tangled.layout.Built ∧ Builder.tangled.layout.CompositesFit ∧
      ∃ dfa composites, Builder.tangled.layout.determinize = .ok dfa ∧
        Builder.tangled.layout.Correspondence dfa composites :=
  ⟨Builder.built_tangled, Builder.compositesFit_tangled,
    determinize_corresponds Builder.built_tangled Builder.compositesFit_tangled⟩

end Automaton

end Acceptor
