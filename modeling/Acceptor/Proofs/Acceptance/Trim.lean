import Acceptor.Proofs.Determinization.Subsets

/-!
# Automata without useless states

An automaton is trim when each of its states lies on a path from the initial
state to a final one.  Such an automaton accepts some word, and a run of it is
stuck as soon as no accepted word begins with what has been read.

Determinization keeps an automaton trim: a composite state is reached by some
word, and from each of its members a word leads to a final state.
-/

namespace Acceptor.Automaton

universe u

variable {σ : Type u} [DecidableEq σ] [Hashable σ]

/-! ## States that lead somewhere -/

/-- Some path leads from one state to another, whatever it spells. -/
def Leads (automaton : Automaton σ) (source target : State) : Prop :=
  ∃ word, automaton.Path source word target

namespace Leads

variable {automaton : Automaton σ}

theorem refl (state : State) : automaton.Leads state state :=
  ⟨[], .stay state⟩

theorem trans {source middle target : State}
    (before : automaton.Leads source middle)
    (after : automaton.Leads middle target) :
    automaton.Leads source target := by
  rcases before with ⟨front, before⟩
  rcases after with ⟨back, after⟩
  exact ⟨front ++ back, before.append after⟩

theorem epsilon {source target : State} (edge : target ∈ automaton.epsilonsFrom source) :
    automaton.Leads source target :=
  ⟨[], .epsilon edge (.stay target)⟩

theorem symbol {source target : State} {symbol : σ}
    (edge : target ∈ automaton.destinations source symbol) :
    automaton.Leads source target :=
  ⟨[symbol], .symbol edge (.stay target)⟩

end Leads

/-- Every state lies on a path from the initial state to a final state. -/
structure Trim (automaton : Automaton σ) : Prop where
  /-- Every state can be reached from the initial one. -/
  accessible : ∀ state < automaton.numStates, automaton.Leads automaton.initial state
  /-- A final state can be reached from every state. -/
  coaccessible : ∀ state < automaton.numStates,
    ∃ final ∈ automaton.finals, automaton.Leads state final

namespace Trim

variable {automaton : Automaton σ} (trim : automaton.Trim) (wellFormed : automaton.WellFormed)

include trim wellFormed

/-- There is a path for a word exactly when the word can be completed to an accepted one. -/
theorem exists_path_iff {word : List σ} :
    (∃ state, automaton.Path automaton.initial word state) ↔
      ∃ rest, automaton.accepts (word ++ rest) = true := by
  constructor
  · rintro ⟨state, path⟩
    have below := wellFormed.lt_of_path path wellFormed.initial_lt
    rcases trim.coaccessible state below with ⟨final, isFinal, rest, onward⟩
    exact ⟨rest, accepts_eq_true_iff.mpr ⟨final, isFinal, path.append onward⟩⟩
  · rintro ⟨rest, accepted⟩
    rcases accepts_eq_true_iff.mp accepted with ⟨final, _, path⟩
    rcases Path.append_iff.mp path with ⟨middle, front, _⟩
    exact ⟨middle, front⟩

theorem isEmpty_eq_false : automaton.isEmpty = false :=
  isEmpty_eq_false_iff.mpr ((trim.exists_path_iff wellFormed).mp ⟨_, .stay automaton.initial⟩)

end Trim

/-! ## Determinization -/

namespace Subsets

variable {nfa dfa : Automaton σ} {composites : Enumeration StateSet}
  (subsets : nfa.Subsets dfa composites)

include subsets

theorem exists_get?_of_lt {state : State} (below : state < dfa.numStates) :
    ∃ composite, composites.get? state.toNat = some composite := by
  rw [UInt32.lt_iff_toNat_lt, subsets.numStates] at below
  exact Enumeration.exists_get?_of_lt below

theorem lt_of_get? {state : State} {composite : StateSet}
    (found : composites.get? state.toNat = some composite) :
    state < dfa.numStates := by
  rw [UInt32.lt_iff_toNat_lt, subsets.numStates]
  exact Enumeration.get?_lt found

/-- The number of a composite state is the state that stands for it. -/
theorem get?_number {composite : StateSet} (member : composite ∈ composites) :
    composites.get? (Exploration.number composites composite).toNat = some composite := by
  have bounded : composites.size ≤ UInt32.size := by
    rw [← subsets.numStates]
    exact Nat.le_of_lt dfa.numStates.toNat_lt
  exact (Exploration.number_eq_iff bounded member).mp rfl

/-- The automaton of the composite states of a trim automaton is trim. -/
theorem trim (wellFormed : nfa.WellFormed) (trim : nfa.Trim) : dfa.Trim := by
  have enumerates := subsets.enumerates
  constructor
  · intro state below
    rcases subsets.exists_get?_of_lt below with ⟨composite, found⟩
    rcases enumerates.reached composite (Enumeration.mem_of_get? found) with ⟨word, rfl⟩
    rw [subsets.initial]
    exact ⟨word, (subsets.path_zero_iff wellFormed).mpr found⟩
  · intro state below
    rcases subsets.exists_get?_of_lt below with ⟨composite, found⟩
    have known := Enumeration.mem_of_get? found
    -- What one member of the composite state leads to is enough.
    rcases StateSet.exists_mem_of_ne_empty (enumerates.ne_empty wellFormed known) with
      ⟨member, present⟩
    rcases trim.coaccessible member (enumerates.lt_of_mem wellFormed known present) with
      ⟨final, isFinal, word, path⟩
    have reached : final ∈ nfa.moveAll composite word := by
      rw [← enumerates.epsilonClosure_eq known]
      exact mem_moveAll_iff.mpr ⟨member, present, path⟩
    rcases subsets.exists_path found (StateSet.ne_empty_of_mem reached) with ⟨target, onward⟩
    exact ⟨target, (subsets.final_iff target).mpr
      ⟨_, subsets.get?_of_path found onward,
        StateSet.intersects_eq_true_iff.mpr ⟨final, reached, isFinal⟩⟩, word, onward⟩

end Subsets

end Acceptor.Automaton
