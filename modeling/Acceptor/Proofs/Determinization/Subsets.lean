import Acceptor.Proofs.Determinization.Composites

/-!
# The automaton of the composite states

Determinization assembles the automaton that a complete exploration describes.
When the composite states are few enough to be numbered by 32-bit words it
succeeds, and `Subsets` says what results: each state stands for a composite
state, the state zero for the first one, and an edge with a symbol leads to
the state that stands for the move on the symbol.

A path of the resulting automaton ends in the state that stands for the set in
which the runs of the given automaton are after the word of the path.
-/

namespace Acceptor

universe u

variable {σ : Type u} [DecidableEq σ] [Hashable σ]

/-- The states of the second automaton stand for the composite states of the first. -/
structure Automaton.Subsets (nfa dfa : Automaton σ) (composites : Enumeration StateSet) :
    Prop where
  enumerates : nfa.Enumerates composites
  wellFormed : dfa.WellFormed
  numStates : dfa.numStates.toNat = composites.size
  initial : dfa.initial = 0
  final_iff : ∀ state, state ∈ dfa.finals ↔
    ∃ composite, composites.get? state.toNat = some composite ∧
      composite.intersects nfa.finals = true
  epsilonsFrom : ∀ state, dfa.epsilonsFrom state = ∅
  destination_iff : ∀ source symbol destination,
    destination ∈ dfa.destinations source symbol ↔
      ∃ composite, composites.get? source.toNat = some composite ∧
        nfa.Labels composite symbol ∧
        composites.get? destination.toNat = some (nfa.move composite symbol)

namespace Exploration

/-! ## Assembling -/

/-- The builder that has collected what an exploration has found. -/
def builder (exploration : Exploration σ) : Builder σ :=
  (Builder.new (UInt32.ofNat exploration.composites.size)).setInitial 0
    |>.addFinals exploration.finals.toList
    |>.addTransitions exploration.transitions.toList

theorem assemble_eq (exploration : Exploration σ) :
    exploration.assemble = exploration.builder.build := rfl

theorem populated_builder (exploration : Exploration σ) :
    exploration.builder.Populated :=
  ((Builder.Populated.new _).setInitial 0).addFinals _ |>.addTransitions _

theorem mem_numbered_iff {composites : Enumeration StateSet}
    (bounded : composites.size ≤ UInt32.size) {state : State} {composite : StateSet} :
    (state, composite) ∈ numbered composites ↔
      composites.get? state.toNat = some composite := by
  constructor
  · intro member
    rcases List.mem_iff_getElem?.mp member with ⟨index, found⟩
    rw [getElem?_numbered, Option.map_eq_some_iff] at found
    rcases found with ⟨standing, found, same⟩
    cases same
    have below := Nat.lt_of_lt_of_le (Enumeration.get?_lt found) bounded
    rw [UInt32.toNat_ofNat_of_lt' below]
    exact found
  · intro found
    refine List.mem_iff_getElem?.mpr ⟨state.toNat, ?_⟩
    rw [getElem?_numbered, found, Option.map_some, UInt32.ofNat_toNat]

theorem number_eq_iff {composites : Enumeration StateSet}
    (bounded : composites.size ≤ UInt32.size) {composite : StateSet}
    (member : composite ∈ composites) {state : State} :
    state = number composites composite ↔
      composites.get? state.toNat = some composite := by
  rcases Enumeration.mem_iff_get?.mp member with ⟨index, found⟩
  have below := Nat.lt_of_lt_of_le (Enumeration.get?_lt found) bounded
  rw [number_eq_of_position? (Enumeration.position?_eq_some_iff.mpr found)]
  constructor
  · rintro rfl
    rw [UInt32.toNat_ofNat_of_lt' below]
    exact found
  · intro standing
    rw [← Enumeration.get?_inj standing found, UInt32.ofNat_toNat]

section Complete

variable {automaton : Automaton σ} {exploration : Exploration σ}
  (explored : Explored automaton exploration.composites.size exploration)
  (bounded : exploration.composites.size < UInt32.size)

include explored bounded

theorem mem_transitions_iff {source destination : State} {symbol : σ} :
    (source, symbol, destination) ∈ exploration.transitions.toList ↔
      ∃ composite, exploration.composites.get? source.toNat = some composite ∧
        automaton.Labels composite symbol ∧
        exploration.composites.get? destination.toNat =
          some (automaton.move composite symbol) := by
  have small := Nat.le_of_lt bounded
  rw [explored.toList_transitions]
  constructor
  · intro listed
    rcases List.mem_flatMap.mp listed with ⟨⟨state, composite⟩, member, edge⟩
    rcases List.mem_map.mp edge with ⟨⟨label, target⟩, move, same⟩
    cases same
    rcases Automaton.mem_moves_iff.mp move with ⟨labels, rfl⟩
    have found := (mem_numbered_iff small).mp member
    have known := explored.enumerates.move_mem (Enumeration.mem_of_get? found) labels
    exact ⟨composite, found, labels, (number_eq_iff small known).mp rfl⟩
  · rintro ⟨composite, found, labels, standing⟩
    refine List.mem_flatMap.mpr ⟨(source, composite), (mem_numbered_iff small).mpr found, ?_⟩
    refine List.mem_map.mpr ⟨(symbol, automaton.move composite symbol),
      Automaton.mem_moves_iff.mpr ⟨labels, rfl⟩, ?_⟩
    rw [← (number_eq_iff small
      (explored.enumerates.move_mem (Enumeration.mem_of_get? found) labels)).mpr standing]

theorem mem_finals_iff {state : State} :
    state ∈ exploration.finals.toList ↔
      ∃ composite, exploration.composites.get? state.toNat = some composite ∧
        composite.intersects automaton.finals = true := by
  rw [explored.toList_finals]
  simp only [List.mem_map, List.mem_filter, Prod.exists, exists_and_right, exists_eq_right,
    mem_numbered_iff (Nat.le_of_lt bounded)]

/-- Every state that an exploration mentions is the number of a composite state. -/
theorem inside_builder : exploration.builder.Inside := by
  have numStates : exploration.builder.numStates =
      UInt32.ofNat exploration.composites.size := by
    rw [builder, Builder.addTransitions_eq]
    rfl
  have below : ∀ {state : State} {composite : StateSet},
      exploration.composites.get? state.toNat = some composite →
        state < exploration.builder.numStates := by
    intro state composite found
    rw [numStates, UInt32.lt_iff_toNat_lt, UInt32.toNat_ofNat_of_lt' bounded]
    exact Enumeration.get?_lt found
  refine ⟨?_, ?_, ?_, ?_⟩
  · rw [numStates, builder, Builder.addTransitions_eq, UInt32.lt_iff_toNat_lt,
      UInt32.toNat_ofNat_of_lt' bounded]
    exact explored.size_pos
  · intro state final
    rw [builder, Builder.addTransitions_eq] at final
    have marked : state ∈ exploration.finals.toList :=
      (StateSet.mem_insertMany.mp final).resolve_left (StateSet.not_mem_empty state)
    rcases (mem_finals_iff explored bounded).mp marked with ⟨composite, found, _⟩
    exact below found
  · intro source symbol destination edge
    have listed : (source, symbol, destination) ∈ exploration.transitions.toList := by
      simpa [builder] using edge
    rcases (mem_transitions_iff explored bounded).mp listed with
      ⟨composite, found, _, standing⟩
    exact ⟨below found, below standing⟩
  · intro source destination edge
    simp [builder] at edge

/-- What has been found can be assembled. -/
theorem assemble_eq_ok : exploration.assemble = .ok exploration.builder.layout := by
  rw [assemble_eq, Builder.build_of_inside exploration.populated_builder
    (inside_builder explored bounded)]

/-- The states of the assembled automaton stand for the composite states. -/
theorem subsets_layout :
    automaton.Subsets exploration.builder.layout exploration.composites := by
  have populated := exploration.populated_builder
  have inside := inside_builder explored bounded
  have built : exploration.builder.layout.numStates =
      UInt32.ofNat exploration.composites.size ∧
        exploration.builder.layout.initial = 0 ∧
        exploration.builder.layout.finals =
          StateSet.insertMany ∅ exploration.finals.toList := by
    refine ⟨?_, ?_, ?_⟩ <;> rw [builder, Builder.addTransitions_eq] <;> rfl
  refine
    { enumerates := explored.enumerates
      wellFormed := Builder.wellFormed_layout populated inside
      numStates := ?_
      initial := built.2.1
      final_iff := ?_
      epsilonsFrom := ?_
      destination_iff := ?_ }
  · rw [built.1, UInt32.toNat_ofNat_of_lt' bounded]
  · intro state
    rw [← mem_finals_iff explored bounded, built.2.2, StateSet.mem_insertMany]
    simp
  · intro state
    refine StateSet.eq_empty_iff.mpr fun next edge => ?_
    have collected := (Builder.mem_epsilonsFrom_layout_iff populated inside).mp edge
    simp [builder] at collected
  · intro source symbol destination
    rw [Builder.mem_destinations_layout_iff populated inside,
      ← mem_transitions_iff explored bounded]
    simp [builder]

end Complete

end Exploration

namespace Automaton

theorem determinize_eq {automaton : Automaton σ} {exploration : Exploration σ}
    (result : automaton.explored none = .ok exploration) :
    automaton.determinize = exploration.assemble.mapError .automaton := by
  simp [determinize, determinizeWithLimit, Exploration.exhausted?, result]

/-- Determinization succeeds and its states stand for the composite states. -/
theorem exists_subsets {nfa : Automaton σ} (fit : nfa.CompositesFit) :
    ∃ dfa composites, nfa.determinize = .ok dfa ∧ nfa.Subsets dfa composites := by
  rcases nfa.exists_explored with ⟨exploration, result, explored⟩
  have bounded : exploration.composites.size < UInt32.size := fit exploration result
  refine ⟨exploration.builder.layout, exploration.composites, ?_,
    Exploration.subsets_layout explored bounded⟩
  rw [determinize_eq result, Exploration.assemble_eq_ok explored bounded]
  rfl

/-! ## Paths between composite states -/

/-- Without epsilon edges a state reaches itself alone. -/
theorem reaches_iff_eq {automaton : Automaton σ}
    (none : ∀ state, automaton.epsilonsFrom state = ∅) {source target : State} :
    Reaches automaton.epsilonsFrom source target ↔ source = target := by
  constructor
  · intro reaches
    cases reaches with
    | refl => rfl
    | step edge _ =>
        rw [none] at edge
        exact absurd edge (StateSet.not_mem_empty _)
  · rintro rfl
    exact .refl source

namespace Subsets

variable {nfa dfa : Automaton σ} {composites : Enumeration StateSet}
  (subsets : nfa.Subsets dfa composites)

include subsets

theorem path_cons_iff {source target : State} {symbol : σ} {word : List σ} :
    dfa.Path source (symbol :: word) target ↔
      ∃ middle ∈ dfa.destinations source symbol, dfa.Path middle word target := by
  rw [Path.cons_iff]
  simp only [reaches_iff_eq subsets.epsilonsFrom, exists_eq_left']

theorem path_nil_iff {source target : State} :
    dfa.Path source [] target ↔ source = target := by
  rw [Path.nil_iff, reaches_iff_eq subsets.epsilonsFrom]

/-- A path ends in the state that stands for where the runs are after its word. -/
theorem get?_of_path {source target : State} {word : List σ} {composite : StateSet}
    (found : composites.get? source.toNat = some composite)
    (path : dfa.Path source word target) :
    composites.get? target.toNat = some (nfa.moveAll composite word) := by
  induction word generalizing source composite with
  | nil =>
      rw [← subsets.path_nil_iff.mp path]
      exact found
  | cons symbol word induction =>
      rcases subsets.path_cons_iff.mp path with ⟨middle, edge, rest⟩
      rcases (subsets.destination_iff _ _ _).mp edge with ⟨other, otherFound, _, standing⟩
      rw [found] at otherFound
      cases otherFound
      exact induction standing rest

/-- As long as a run is left there is a path. -/
theorem exists_path {source : State} {word : List σ} {composite : StateSet}
    (found : composites.get? source.toNat = some composite)
    (alive : nfa.moveAll composite word ≠ ∅) :
    ∃ target, dfa.Path source word target := by
  induction word generalizing source composite with
  | nil => exact ⟨source, .stay source⟩
  | cons symbol word induction =>
      have labels : nfa.Labels composite symbol := by
        apply Classical.byContradiction
        intro unlabelled
        apply alive
        have unfolded : nfa.moveAll composite (symbol :: word) =
            nfa.moveAll (nfa.move composite symbol) word := rfl
        rw [unfolded, move_eq_empty_of_not_labels unlabelled, moveAll_empty]
      have known :=
        subsets.enumerates.move_mem (Enumeration.mem_of_get? found) labels
      rcases Enumeration.mem_iff_get?.mp known with ⟨index, standing⟩
      have below : index < UInt32.size := by
        have bound := Enumeration.get?_lt standing
        rw [← subsets.numStates] at bound
        exact Nat.lt_trans bound (UInt32.toNat_lt _)
      rw [← UInt32.toNat_ofNat_of_lt' below] at standing
      rcases induction standing alive with ⟨target, rest⟩
      have edge := (subsets.destination_iff _ _ _).mpr ⟨composite, found, labels, standing⟩
      exact ⟨target, subsets.path_cons_iff.mpr ⟨_, edge, rest⟩⟩

theorem get?_zero :
    composites.get? (0 : State).toNat = some (nfa.epsilonClosureOf nfa.initial) :=
  subsets.enumerates.first

/-- In the well-formed case a word leads exactly to what stands for where the runs are. -/
theorem path_zero_iff (wellFormed : nfa.WellFormed) {word : List σ} {target : State} :
    dfa.Path 0 word target ↔
      composites.get? target.toNat =
        some (nfa.moveAll (nfa.epsilonClosureOf nfa.initial) word) := by
  refine ⟨subsets.get?_of_path subsets.get?_zero, fun found => ?_⟩
  have alive := subsets.enumerates.ne_empty wellFormed (Enumeration.mem_of_get? found)
  rcases subsets.exists_path subsets.get?_zero alive with ⟨state, path⟩
  have standing := subsets.get?_of_path subsets.get?_zero path
  rw [← UInt32.toNat_inj.mp (Enumeration.get?_inj standing found)]
  exact path

/-- The automaton of the composite states accepts the same words. -/
theorem accepts_eq (word : List σ) : dfa.accepts word = nfa.accepts word := by
  have simulated : nfa.accepts word =
      (nfa.moveAll (nfa.epsilonClosureOf nfa.initial) word).intersects nfa.finals :=
    nfa.acceptsFrom_eq_intersects _ _
  rw [Bool.eq_iff_iff, accepts_eq_true_iff, simulated, subsets.initial]
  constructor
  · rintro ⟨final, isFinal, path⟩
    rcases (subsets.final_iff final).mp isFinal with ⟨composite, found, meets⟩
    rw [subsets.get?_of_path subsets.get?_zero path] at found
    cases found
    exact meets
  · intro meets
    have alive : nfa.moveAll (nfa.epsilonClosureOf nfa.initial) word ≠ ∅ := by
      rcases StateSet.intersects_eq_true_iff.mp meets with ⟨state, member, _⟩
      exact StateSet.ne_empty_of_mem member
    rcases subsets.exists_path subsets.get?_zero alive with ⟨final, path⟩
    exact ⟨final, (subsets.final_iff final).mpr
      ⟨_, subsets.get?_of_path subsets.get?_zero path, meets⟩, path⟩

end Subsets

end Automaton

end Acceptor
