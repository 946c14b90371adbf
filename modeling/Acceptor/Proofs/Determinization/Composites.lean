import Acceptor.Automaton.Path
import Acceptor.Proofs.Determinization.Invariant
import Mathlib.Algebra.Group.Nat.Defs
import Mathlib.Data.List.Induction

/-!
# The composite states of an automaton

The composite states are the closure of the initial state and what follows
from it by moves on symbols that label some edge.  A complete exploration
enumerates them.  Each of them is the set in which the runs are after some
word; in a well-formed automaton none is empty and all consist of states of
the automaton, so that there are fewer than `2 ^ n` of them for `n` states.
-/

namespace Acceptor

universe u

variable {σ : Type u} [DecidableEq σ] [Hashable σ]

theorem StateSet.countBelow_eq (bound : Nat) : countBelow bound = 2 ^ bound := by
  induction bound with
  | zero => rfl
  | succ bound induction => rw [countBelow, induction, pow_succ]

namespace Automaton

/-- An enumeration of the composite states that begins with the first one. -/
structure Enumerates (automaton : Automaton σ) (composites : Enumeration StateSet) :
    Prop where
  first : composites.get? 0 = some (automaton.epsilonClosureOf automaton.initial)
  mem_iff : ∀ composite, composite ∈ composites ↔
    composite = automaton.epsilonClosureOf automaton.initial ∨
      ∃ source ∈ composites, ∃ symbol,
        automaton.Labels source symbol ∧ composite = automaton.move source symbol
  reached : ∀ composite ∈ composites, ∃ word,
    automaton.moveAll (automaton.epsilonClosureOf automaton.initial) word = composite

theorem WellFormed.lt_of_path {automaton : Automaton σ}
    (wellFormed : automaton.WellFormed) {source target : State} {word : List σ}
    (path : automaton.Path source word target) (below : source < automaton.numStates) :
    target < automaton.numStates := by
  induction path with
  | stay => exact below
  | epsilon edge _ induction => exact induction (wellFormed.epsilon_lt _ _ edge)
  | symbol edge _ induction => exact induction (wellFormed.destination_lt _ _ _ edge)

namespace Enumerates

variable {automaton : Automaton σ} {composites : Enumeration StateSet}

theorem move_mem (enumerates : automaton.Enumerates composites)
    {composite : StateSet} (member : composite ∈ composites) {symbol : σ}
    (labels : automaton.Labels composite symbol) :
    automaton.move composite symbol ∈ composites :=
  (enumerates.mem_iff _).mpr (Or.inr ⟨composite, member, symbol, labels, rfl⟩)

/-- As long as a run is left the runs are in a composite state. -/
theorem moveAll_mem (enumerates : automaton.Enumerates composites) {word : List σ}
    (alive : automaton.moveAll (automaton.epsilonClosureOf automaton.initial) word ≠ ∅) :
    automaton.moveAll (automaton.epsilonClosureOf automaton.initial) word ∈ composites := by
  induction word using List.reverseRecOn with
  | nil => exact Enumeration.mem_of_get? enumerates.first
  | append_singleton word symbol induction =>
      rw [moveAll_append] at alive ⊢
      have labels : automaton.Labels
          (automaton.moveAll (automaton.epsilonClosureOf automaton.initial) word) symbol := by
        apply Classical.byContradiction
        intro unlabelled
        exact alive (move_eq_empty_of_not_labels unlabelled)
      have left : automaton.moveAll (automaton.epsilonClosureOf automaton.initial) word ≠ ∅ := by
        rcases labels with ⟨state, present, _⟩
        exact StateSet.ne_empty_of_mem present
      exact enumerates.move_mem (induction left) labels

/-- Epsilon edges do not leave a composite state. -/
theorem epsilonClosure_eq (enumerates : automaton.Enumerates composites)
    {composite : StateSet} (member : composite ∈ composites) :
    automaton.epsilonClosure composite = composite := by
  rcases (enumerates.mem_iff composite).mp member with rfl | ⟨source, _, symbol, _, rfl⟩
  · exact automaton.epsilonClosure_epsilonClosure _
  · exact automaton.epsilonClosure_move _ _

theorem ne_empty (enumerates : automaton.Enumerates composites)
    (wellFormed : automaton.WellFormed) {composite : StateSet}
    (member : composite ∈ composites) :
    composite ≠ ∅ := by
  rcases (enumerates.mem_iff composite).mp member with rfl | ⟨source, _, symbol, labels, rfl⟩
  · exact StateSet.ne_empty_of_mem (mem_epsilonClosureOf_iff.mpr (.refl _))
  · exact fun nowhere => wellFormed.move_eq_empty_iff.mp nowhere labels

theorem lt_of_mem (enumerates : automaton.Enumerates composites)
    (wellFormed : automaton.WellFormed) {composite : StateSet}
    (member : composite ∈ composites) {state : State} (present : state ∈ composite) :
    state < automaton.numStates := by
  rcases enumerates.reached composite member with ⟨word, rfl⟩
  rcases mem_moveAll_iff.mp present with ⟨source, sourceMember, path⟩
  rw [StateSet.mem_singleton.mp sourceMember] at path
  exact wellFormed.lt_of_path path wellFormed.initial_lt

/-- The composite states are some of the nonempty sets of states. -/
theorem size_lt (enumerates : automaton.Enumerates composites)
    (wellFormed : automaton.WellFormed) :
    composites.size < 2 ^ automaton.numStates.toNat := by
  have distinct : (∅ :: composites.toList).Nodup := by
    refine List.nodup_cons.mpr ⟨fun member => ?_, composites.nodup_toList⟩
    exact enumerates.ne_empty wellFormed (Enumeration.mem_def.mpr member) rfl
  have below : ∀ set ∈ ∅ :: composites.toList, ∀ state ∈ set,
      state.toNat < automaton.numStates.toNat := by
    intro set member state present
    rcases List.mem_cons.mp member with rfl | member
    · exact absurd present (StateSet.not_mem_empty state)
    · exact UInt32.lt_iff_toNat_lt.mp
        (enumerates.lt_of_mem wellFormed (Enumeration.mem_def.mpr member) present)
  have bound := StateSet.length_le_of_below automaton.numStates.toNat distinct below
  rw [List.length_cons, Enumeration.length_toList, StateSet.countBelow_eq] at bound
  exact bound

end Enumerates

end Automaton

/-! ## What an exploration enumerates -/

namespace Exploration.Explored

variable {automaton : Automaton σ} {exploration : Exploration σ}

/-- A composite state is the first one or was discovered from one with a smaller number. -/
theorem discovered_from_smaller
    (explored : Explored automaton exploration.composites.size exploration)
    {index : Nat}
    {composite : StateSet}
    (found : exploration.composites.get? index = some composite) :
    composite = automaton.epsilonClosureOf automaton.initial ∨
      ∃ earlier < index, ∃ source, exploration.composites.get? earlier = some source ∧
        ∃ symbol, automaton.Labels source symbol ∧ composite = automaton.move source symbol := by
  have met := explored.discovered index (Enumeration.get?_lt found) composite found
  rcases mem_met_iff.mp met with rfl | ⟨source, sourceMember, symbol, labels, rfl⟩
  · exact Or.inl rfl
  · rcases List.mem_take_iff_getElem.mp sourceMember with ⟨earlier, bound, standing⟩
    have smaller := Nat.lt_of_lt_of_le bound (Nat.min_le_left _ _)
    refine Or.inr ⟨earlier, smaller, source, ?_, symbol, labels, rfl⟩
    rw [← Enumeration.getElem?_toList, List.getElem?_eq_some_iff]
    exact ⟨Nat.lt_of_lt_of_le bound (Nat.min_le_right _ _), standing⟩

/-- The runs can be in each composite state after some word. -/
theorem exists_word
    (explored : Explored automaton exploration.composites.size exploration)
    {composite : StateSet} (member : composite ∈ exploration.composites) :
    ∃ word, automaton.moveAll (automaton.epsilonClosureOf automaton.initial) word =
      composite := by
  rcases Enumeration.mem_iff_get?.mp member with ⟨index, found⟩
  induction index using Nat.strongRecOn generalizing composite with
  | _ index induction =>
      rcases explored.discovered_from_smaller found with
        rfl | ⟨earlier, smaller, source, sourceFound, symbol, _, rfl⟩
      · exact ⟨[], rfl⟩
      · rcases induction earlier smaller (Enumeration.mem_of_get? sourceFound) sourceFound with
          ⟨word, rfl⟩
        exact ⟨word ++ [symbol], Automaton.moveAll_append _ _ _ _⟩

/-- A complete exploration enumerates the composite states. -/
theorem enumerates
    (explored : Explored automaton exploration.composites.size exploration) :
    automaton.Enumerates exploration.composites where
  first := by
    rw [explored.composites, met, ← Enumeration.getElem?_toList,
      Enumeration.toList_ofList, List.eraseDups_cons]
    rfl
  mem_iff composite := by
    rw [explored.mem_composites_iff, List.take_of_length_le (by simp), mem_met_iff]
    rfl
  reached _ := explored.exists_word

end Exploration.Explored

namespace Automaton

/-- Without a limit the exploration of an automaton comes to its end. -/
theorem exists_explored (automaton : Automaton σ) :
    ∃ exploration, automaton.explored none = .ok exploration ∧
      Exploration.Explored automaton exploration.composites.size exploration := by
  rcases Exploration.exists_run automaton
    (.start (automaton.epsilonClosureOf automaton.initial)) with ⟨exploration, result⟩
  exact ⟨exploration, result, (Exploration.explored_start automaton).run result⟩

/-- The exploration without a limit meets fewer composite states than there are numbers. -/
def CompositesFit (automaton : Automaton σ) : Prop :=
  ∀ exploration, automaton.explored none = .ok exploration →
    exploration.composites.size < 2 ^ 32

/-- The composite states of at most 32 states can be numbered. -/
theorem WellFormed.compositesFit {automaton : Automaton σ}
    (wellFormed : automaton.WellFormed) (few : automaton.numStates.toNat ≤ 32) :
    automaton.CompositesFit := by
  intro exploration result
  have explored := (Exploration.explored_start automaton).run result
  exact Nat.lt_of_lt_of_le (explored.enumerates.size_lt wellFormed)
    (Nat.pow_le_pow_right (by decide) few)

end Automaton

end Acceptor
