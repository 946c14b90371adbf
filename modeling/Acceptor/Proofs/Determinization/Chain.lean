import Acceptor.Proofs.Determinization.Discovery

/-!
# Determinizing an automaton for one word

A trim automaton that accepts one word only has a run left after the beginnings
of this word and after no other words.  The sets in which the runs are after
different beginnings are different, since what completes a beginning to the
word tells its length.  So the composite states are the beginnings of the word.

They are discovered by ascending length: the only move from a composite state
is to the one of the next beginning.  The deterministic automaton is therefore
a chain, along which the word is read from the state zero to the last state.
-/

namespace Acceptor

universe u

variable {σ : Type u} [DecidableEq σ] [Hashable σ]

namespace Automaton

/-- The set in which the runs are after a word. -/
def after (automaton : Automaton σ) (word : List σ) : StateSet :=
  automaton.moveAll (automaton.epsilonClosureOf automaton.initial) word

theorem after_append_singleton (automaton : Automaton σ) (word : List σ) (symbol : σ) :
    automaton.after (word ++ [symbol]) = automaton.move (automaton.after word) symbol :=
  moveAll_append _ _ _ _

/-- An automaton for one word, without useless states. -/
structure Spells (automaton : Automaton σ) (word : List σ) : Prop where
  wellFormed : automaton.WellFormed
  trim : automaton.Trim
  accepts_iff : ∀ other, automaton.accepts other = true ↔ other = word

/-! ## Beginnings of the word -/

namespace Spells

variable {nfa : Automaton σ} {word : List σ} (spells : nfa.Spells word)

include spells

/-- Each state in which a run is left says what is missing to the word. -/
theorem exists_rest
    {state : State}
    {front : List σ}
    (member : state ∈ nfa.after front) :
    ∃ rest, ∀ other, state ∈ nfa.after other → other ++ rest = word := by
  have path := mem_moveAll_initial_iff.mp member
  have below := spells.wellFormed.lt_of_path path spells.wellFormed.initial_lt
  rcases spells.trim.coaccessible state below with ⟨final, isFinal, rest, onward⟩
  refine ⟨rest, fun other present => (spells.accepts_iff _).mp ?_⟩
  exact accepts_eq_true_iff.mpr
    ⟨final, isFinal, (mem_moveAll_initial_iff.mp present).append onward⟩

theorem prefix_of_alive {front : List σ} (alive : nfa.after front ≠ ∅) : front <+: word := by
  rcases StateSet.exists_mem_of_ne_empty alive with ⟨state, member⟩
  rcases spells.exists_rest member with ⟨rest, completes⟩
  exact ⟨rest, completes front member⟩

/-- The runs are in different sets after different beginnings. -/
theorem after_inj
    {front other : List σ}
    (alive : nfa.after front ≠ ∅)
    (same : nfa.after front = nfa.after other) :
    front = other := by
  rcases StateSet.exists_mem_of_ne_empty alive with ⟨state, member⟩
  rcases spells.exists_rest member with ⟨rest, completes⟩
  exact List.append_cancel_right
    ((completes front member).trans (completes other (same ▸ member)).symm)

theorem after_take_ne_empty (length : Nat) : nfa.after (word.take length) ≠ ∅ := by
  have accepted := (spells.accepts_iff word).mpr rfl
  rcases accepts_eq_true_iff.mp accepted with ⟨final, _, path⟩
  rw [← List.take_append_drop length word, Path.append_iff] at path
  rcases path with ⟨middle, front, _⟩
  exact StateSet.ne_empty_of_mem (mem_moveAll_initial_iff.mpr front)

/-- A beginning has a label that leads on exactly when the word goes on with it. -/
theorem labels_iff {length : Nat} {symbol : σ} :
    nfa.Labels (nfa.after (word.take length)) symbol ↔ word[length]? = some symbol := by
  constructor
  · intro labels
    have alive : nfa.after (word.take length ++ [symbol]) ≠ ∅ := by
      rw [after_append_singleton]
      exact fun nowhere => spells.wellFormed.move_eq_empty_iff.mp nowhere labels
    rcases spells.prefix_of_alive alive with ⟨rest, whole⟩
    have bound : length < word.length := by
      have lengths := congrArg List.length whole
      simp only [List.length_append, List.length_take, List.length_singleton] at lengths
      omega
    have place : (word.take length).length = length := List.length_take_of_le (Nat.le_of_lt bound)
    have next := congrArg (·[length]?) whole
    rwa [List.append_assoc, List.getElem?_append_right (Nat.le_of_eq place), place,
      Nat.sub_self, eq_comm] at next
  · intro next
    have alive := spells.after_take_ne_empty (length + 1)
    rw [List.take_add_one, next, Option.toList_some, after_append_singleton] at alive
    exact Classical.byContradiction fun unlabelled => alive (move_eq_empty_of_not_labels unlabelled)

/-- The move on the next symbol of the word leads to the next beginning. -/
theorem move_after_take
    {length : Nat}
    {symbol : σ}
    (labels : nfa.Labels (nfa.after (word.take length)) symbol) :
    nfa.move (nfa.after (word.take length)) symbol = nfa.after (word.take (length + 1)) := by
  rw [List.take_add_one, spells.labels_iff.mp labels, Option.toList_some, after_append_singleton]

/-! ## Discovery of the beginnings -/

section Explored

variable {exploration : Exploration σ}
  (explored : Exploration.Explored nfa exploration.composites.size exploration)

include explored

/-- The composite states are the beginnings of the word, by ascending length. -/
theorem get?_composites
    {index : Nat}
    (below : index < exploration.composites.size) :
    exploration.composites.get? index = some (nfa.after (word.take index)) := by
  induction index using Nat.strongRecOn with
  | _ index induction =>
      rcases Enumeration.exists_get?_of_lt below with ⟨composite, found⟩
      rcases explored.discovered_from_smaller found with
        rfl | ⟨earlier, smaller, source, sourceFound, symbol, labels, rfl⟩
      · rw [Enumeration.get?_inj found explored.enumerates.first]
        exact explored.enumerates.first
      · rw [induction earlier smaller (Nat.lt_trans smaller below)] at sourceFound
        cases sourceFound
        rw [spells.move_after_take labels] at found
        rcases Nat.lt_or_eq_of_le smaller with before | rfl
        · -- The next beginning has been discovered before.
          have standing := induction (earlier + 1) before (Nat.lt_trans before below)
          exact absurd (Enumeration.get?_inj standing found) (Nat.ne_of_lt before)
        · exact found

theorem size_composites : exploration.composites.size = word.length + 1 := by
  apply Nat.le_antisymm
  · apply Nat.le_of_not_lt
    intro many
    have last := spells.get?_composites explored (Nat.lt_trans (Nat.lt_succ_self _) many)
    have beyond := spells.get?_composites explored many
    rw [List.take_of_length_le (Nat.le_refl _)] at last
    rw [List.take_of_length_le (Nat.le_succ _)] at beyond
    exact absurd (Enumeration.get?_inj last beyond) (Nat.ne_of_lt (Nat.lt_succ_self _))
  · have alive := spells.after_take_ne_empty word.length
    rw [List.take_length] at alive
    rcases Enumeration.mem_iff_get?.mp (explored.enumerates.moveAll_mem alive) with
      ⟨index, found⟩
    have below := Enumeration.get?_lt found
    have same := Option.some.inj (found.symm.trans (spells.get?_composites explored below))
    have whole := congrArg List.length (spells.after_inj alive same)
    rw [List.length_take] at whole
    omega

end Explored

end Spells

/-! ## Chains -/

/-- The edges along which a word is read from the state zero, one after the other. -/
def chainEdges (word : List σ) : List (State × σ × State) :=
  word.zipIdx.map fun (symbol, index) =>
    (UInt32.ofNat index, symbol, UInt32.ofNat (index + 1))

/-- The states of an automaton are passed one by one while a word is read, and nothing else is. -/
structure IsChain (automaton : Automaton σ) (word : List σ) : Prop where
  numStates : automaton.numStates.toNat = word.length + 1
  initial : automaton.initial = 0
  finals : automaton.finals = {UInt32.ofNat word.length}
  epsilonTransitions : automaton.epsilonTransitions = []
  transitions : automaton.transitions = chainEdges word

section Edges

omit [DecidableEq σ] [Hashable σ]

variable {word : List σ} (small : word.length < 2 ^ 32)

include small

theorem mem_chainEdges_iff {source destination : State} {symbol : σ} :
    (source, symbol, destination) ∈ chainEdges word ↔
      word[source.toNat]? = some symbol ∧ destination.toNat = source.toNat + 1 := by
  rw [chainEdges, List.mem_map]
  constructor
  · rintro ⟨⟨label, index⟩, member, same⟩
    cases same
    have found := List.mem_zipIdx_iff_getElem?.mp member
    have bound := (List.getElem?_eq_some_iff.mp found).1
    rw [UInt32.toNat_ofNat_of_lt' (Nat.lt_trans bound small),
      UInt32.toNat_ofNat_of_lt' (Nat.lt_of_le_of_lt bound small)]
    exact ⟨found, rfl⟩
  · rintro ⟨found, next⟩
    refine ⟨(symbol, source.toNat), List.mem_zipIdx_iff_getElem?.mpr found, ?_⟩
    show (UInt32.ofNat source.toNat, symbol, UInt32.ofNat (source.toNat + 1)) = _
    rw [← next, UInt32.ofNat_toNat, UInt32.ofNat_toNat]

/-- At most one edge of a chain comes from a state. -/
theorem eq_of_mem_chainEdges
    {first second : State × σ × State}
    (firstMember : first ∈ chainEdges word)
    (secondMember : second ∈ chainEdges word)
    (same : first.1 = second.1) :
    first = second := by
  rcases first with ⟨source, symbol, destination⟩
  rcases second with ⟨_, other, otherDestination⟩
  cases same
  rcases (mem_chainEdges_iff small).mp firstMember with ⟨found, next⟩
  rcases (mem_chainEdges_iff small).mp secondMember with ⟨otherFound, otherNext⟩
  cases found.symm.trans otherFound
  rw [UInt32.toNat_inj.mp (next.trans otherNext.symm)]

/-- The edges of a chain come from ascending states. -/
theorem pairwise_chainEdges :
    (chainEdges word).Pairwise fun first second => first.1 < second.1 := by
  rw [chainEdges, List.pairwise_map, List.pairwise_iff_getElem]
  intro first second firstBound secondBound before
  rw [List.length_zipIdx] at firstBound secondBound
  simp only [List.getElem_zipIdx, Nat.zero_add]
  rw [UInt32.lt_iff_toNat_lt, UInt32.toNat_ofNat_of_lt' (Nat.lt_trans firstBound small),
    UInt32.toNat_ofNat_of_lt' (Nat.lt_trans secondBound small)]
  exact before

end Edges

namespace Spells

variable {nfa dfa : Automaton σ} {word : List σ} {exploration : Exploration σ}
  (spells : nfa.Spells word)
  (explored : Exploration.Explored nfa exploration.composites.size exploration)
  (subsets : nfa.Subsets dfa exploration.composites)

include spells explored subsets

theorem mem_destinations_iff {source destination : State} {symbol : σ} :
    destination ∈ dfa.destinations source symbol ↔
      word[source.toNat]? = some symbol ∧ destination.toNat = source.toNat + 1 := by
  have size := spells.size_composites explored
  have standing : ∀ {index : Nat}, index ≤ word.length →
      exploration.composites.get? index = some (nfa.after (word.take index)) :=
    fun within => spells.get?_composites explored (by omega)
  rw [subsets.destination_iff]
  constructor
  · rintro ⟨composite, found, labels, next⟩
    have below := Enumeration.get?_lt found
    rw [standing (by omega)] at found
    cases found
    have symbolFound := spells.labels_iff.mp labels
    have bound := (List.getElem?_eq_some_iff.mp symbolFound).1
    rw [spells.move_after_take labels] at next
    exact ⟨symbolFound, Enumeration.get?_inj next (standing bound)⟩
  · rintro ⟨symbolFound, next⟩
    have bound := (List.getElem?_eq_some_iff.mp symbolFound).1
    have labels := spells.labels_iff.mpr symbolFound
    refine ⟨_, standing (Nat.le_of_lt bound), labels, ?_⟩
    rw [next, spells.move_after_take labels]
    exact standing bound

theorem mem_finals_iff {state : State} : state ∈ dfa.finals ↔ state.toNat = word.length := by
  have size := spells.size_composites explored
  have meets_iff : ∀ length,
      (nfa.after (word.take length)).intersects nfa.finals = true ↔ word.take length = word := by
    intro length
    rw [← spells.accepts_iff, after, ← acceptsFrom_eq_intersects]
    exact Iff.rfl
  rw [subsets.final_iff]
  constructor
  · rintro ⟨composite, found, meets⟩
    have below := Enumeration.get?_lt found
    rw [spells.get?_composites explored below] at found
    cases found
    have whole := congrArg List.length ((meets_iff _).mp meets)
    rw [List.length_take] at whole
    omega
  · intro last
    refine ⟨_, spells.get?_composites explored (by omega), (meets_iff _).mpr ?_⟩
    exact List.take_of_length_le (Nat.le_of_eq last.symm)

/-- The deterministic automaton of an automaton for one word is a chain. -/
theorem isChain : dfa.IsChain word := by
  have numStates : dfa.numStates.toNat = word.length + 1 :=
    subsets.numStates.trans (spells.size_composites explored)
  have bounded := dfa.numStates.toNat_lt
  have small : word.length < 2 ^ 32 := by omega
  have wellFormed := subsets.wellFormed
  constructor
  case numStates => exact numStates
  case initial => exact subsets.initial
  case finals =>
    ext state
    rw [spells.mem_finals_iff explored subsets, StateSet.mem_singleton, ← UInt32.toNat_inj,
      UInt32.toNat_ofNat_of_lt' small]
  case epsilonTransitions => exact subsets.epsilonTransitions_eq
  case transitions =>
    have ascending := pairwise_chainEdges small
    have listed : dfa.transitions.Perm (chainEdges word) := by
      refine (List.perm_ext_iff_of_nodup (nodup_transitions wellFormed.rows_bounded) ?_).mpr ?_
      · refine ascending.imp fun before same => ?_
        exact UInt32.ne_of_lt before (congrArg Prod.fst same)
      · rintro ⟨source, symbol, destination⟩
        rw [mem_transitions_iff wellFormed.rows_bounded, mem_chainEdges_iff small,
          spells.mem_destinations_iff explored subsets]
    refine listed.eq_of_pairwise ?_ (pairwise_source_transitions wellFormed.rows_bounded)
      (ascending.imp UInt32.le_of_lt)
    intro first second firstMember secondMember notAfter notBefore
    exact eq_of_mem_chainEdges small (listed.mem_iff.mp firstMember) secondMember
      (UInt32.le_antisymm notAfter notBefore)

end Spells

end Automaton

end Acceptor
