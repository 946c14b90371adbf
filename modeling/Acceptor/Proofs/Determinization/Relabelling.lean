import Acceptor.Proofs.Acceptance.Trim
import Acceptor.Proofs.Combinators.Exchange
import Acceptor.Proofs.Determinization.Limits

/-!
# Determinization under other names

Two automata that differ in the names of their states may be explored in
different orders: sets are read by ascending number and rows in the order in
which edges were added.  Their composite states are nevertheless the same up to
the names, because both explorations find exactly the sets in which the runs are
after some word.

Each state of one deterministic automaton is therefore matched with the state of
the other one that stands for the renamed set.  This takes the first state to
the first and keeps edges and final states, and so does the way back.  As many
composite states are found, and the same limits are enough.
-/

namespace Acceptor

universe u

variable {σ : Type u} [DecidableEq σ] [Hashable σ]

/-! ## Composite states under other names -/

namespace Automaton.Isomorphism

section

variable {nfa other : Automaton σ} {rename back : State → State}
  {composites otherComposites : Enumeration StateSet}
  (isomorphism : nfa.Isomorphism other rename back)
  (enumerates : nfa.Enumerates composites)
  {composite : StateSet}

include isomorphism enumerates

theorem image_back (member : composite ∈ composites) :
    (composite.image rename).image back = composite :=
  StateSet.image_image fun state present =>
    isomorphism.back_rename state (enumerates.lt_of_mem isomorphism.wellFormed member present)

theorem move_image (member : composite ∈ composites) (symbol : σ) :
    other.move (composite.image rename) symbol = (nfa.move composite symbol).image rename := by
  rcases enumerates.reached composite member with ⟨word, rfl⟩
  have moved := isomorphism.moveAll_eq_image (word ++ [symbol])
  rw [moveAll_append, moveAll_append, isomorphism.moveAll_eq_image word] at moved
  exact moved

theorem labels_image
    (member : composite ∈ composites)
    {symbol : σ}
    (labels : nfa.Labels composite symbol) :
    other.Labels (composite.image rename) symbol := by
  apply Classical.byContradiction
  intro unlabelled
  have dead := move_eq_empty_of_not_labels unlabelled
  rw [isomorphism.move_image enumerates member] at dead
  have alive : nfa.move composite symbol ≠ ∅ :=
    fun nowhere => isomorphism.wellFormed.move_eq_empty_iff.mp nowhere labels
  exact StateSet.image_ne_empty alive rename dead

variable (otherEnumerates : other.Enumerates otherComposites)

include otherEnumerates

/-- What the runs can be in under one name they can be in under the other. -/
theorem image_mem (member : composite ∈ composites) :
    composite.image rename ∈ otherComposites := by
  have alive :=
    StateSet.image_ne_empty (enumerates.ne_empty isomorphism.wellFormed member) rename
  rcases enumerates.reached composite member with ⟨word, rfl⟩
  rw [← isomorphism.moveAll_eq_image] at alive ⊢
  exact otherEnumerates.moveAll_mem alive

theorem size_le : composites.size ≤ otherComposites.size := by
  have distinct : (composites.toList.map (·.image rename)).Nodup := by
    refine List.Nodup.map_on ?_ composites.nodup_toList
    intro first firstListed second secondListed same
    rw [← isomorphism.image_back enumerates (Enumeration.mem_def.mpr firstListed), same,
      isomorphism.image_back enumerates (Enumeration.mem_def.mpr secondListed)]
  have known : composites.toList.map (·.image rename) ⊆ otherComposites.toList := by
    intro set listed
    rcases List.mem_map.mp listed with ⟨composite, member, rfl⟩
    exact Enumeration.mem_def.mp
      (isomorphism.image_mem enumerates otherEnumerates (Enumeration.mem_def.mpr member))
  have bound := (distinct.subperm known).length_le
  rwa [List.length_map, Enumeration.length_toList, Enumeration.length_toList] at bound

/-- Under either name there are as many composite states. -/
theorem size_eq : composites.size = otherComposites.size :=
  Nat.le_antisymm (isomorphism.size_le enumerates otherEnumerates)
    (isomorphism.symm.size_le otherEnumerates enumerates)

end

end Automaton.Isomorphism

/-! ## States that stand for renamed sets -/

/-- The state of the second automaton that stands for the renamed set of what a state stands for. -/
def renumber
    (rename : State → State)
    (composites otherComposites : Enumeration StateSet)
    (state : State) :
    State :=
  Exploration.number otherComposites (((composites.get? state.toNat).getD ∅).image rename)

namespace Automaton.Isomorphism

variable {nfa other dfa otherDfa : Automaton σ} {rename back : State → State}
  {composites otherComposites : Enumeration StateSet}
  (isomorphism : nfa.Isomorphism other rename back)
  (subsets : nfa.Subsets dfa composites)
  (otherSubsets : other.Subsets otherDfa otherComposites)

include isomorphism subsets otherSubsets

theorem get?_renumber
    {state : State}
    {composite : StateSet}
    (found : composites.get? state.toNat = some composite) :
    otherComposites.get? (renumber rename composites otherComposites state).toNat =
      some (composite.image rename) := by
  have member := Enumeration.mem_of_get? found
  rw [renumber, found, Option.getD_some]
  exact otherSubsets.get?_number
    (isomorphism.image_mem subsets.enumerates otherSubsets.enumerates member)

/-- The state zero stands for the first set under either name. -/
theorem renumber_zero : renumber rename composites otherComposites 0 = 0 := by
  have standing := isomorphism.get?_renumber subsets otherSubsets subsets.get?_zero
  have first : other.epsilonClosureOf other.initial =
      (nfa.epsilonClosureOf nfa.initial).image rename :=
    isomorphism.moveAll_eq_image []
  rw [← first] at standing
  exact UInt32.toNat_inj.mp (Enumeration.get?_inj standing otherSubsets.get?_zero)

theorem renumber_carries :
    dfa.Carries otherDfa (renumber rename composites otherComposites) := by
  have standing : ∀ {state composite}, composites.get? state.toNat = some composite →
      otherComposites.get? (renumber rename composites otherComposites state).toNat =
        some (composite.image rename) :=
    isomorphism.get?_renumber subsets otherSubsets
  constructor
  case state =>
    intro state below
    rcases subsets.exists_get?_of_lt below with ⟨composite, found⟩
    exact otherSubsets.lt_of_get? (standing found)
  case initial =>
    rw [subsets.initial, otherSubsets.initial]
    exact isomorphism.renumber_zero subsets otherSubsets
  case final =>
    intro state final
    rcases (subsets.final_iff state).mp final with ⟨composite, found, meets⟩
    rcases StateSet.intersects_eq_true_iff.mp meets with ⟨member, present, isFinal⟩
    refine (otherSubsets.final_iff _).mpr ⟨_, standing found, ?_⟩
    exact StateSet.intersects_eq_true_iff.mpr ⟨rename member,
      StateSet.mem_image.mpr ⟨member, present, rfl⟩, isomorphism.forward.final member isFinal⟩
  case transition =>
    intro source symbol destination edge
    rcases (subsets.destination_iff _ _ _).mp edge with ⟨composite, found, labels, target⟩
    have member := Enumeration.mem_of_get? found
    refine (otherSubsets.destination_iff _ _ _).mpr ⟨_, standing found,
      isomorphism.labels_image subsets.enumerates member labels, ?_⟩
    rw [isomorphism.move_image subsets.enumerates member]
    exact standing target
  case epsilon =>
    intro source destination edge
    rw [subsets.epsilonsFrom] at edge
    exact absurd edge (StateSet.not_mem_empty destination)

/-- Renaming sets there and back again finds the state that was left. -/
theorem renumber_renumber {state : State} (below : state < dfa.numStates) :
    renumber back otherComposites composites (renumber rename composites otherComposites state) =
      state := by
  rcases subsets.exists_get?_of_lt below with ⟨composite, found⟩
  have there := isomorphism.get?_renumber subsets otherSubsets found
  have again := isomorphism.symm.get?_renumber otherSubsets subsets there
  rw [isomorphism.image_back subsets.enumerates (Enumeration.mem_of_get? found)] at again
  exact UInt32.toNat_inj.mp (Enumeration.get?_inj again found)

/-- When automata differ in names only, so do the automata of their composite states. -/
theorem renumbered :
    dfa.Isomorphism otherDfa (renumber rename composites otherComposites)
      (renumber back otherComposites composites) where
  wellFormed := subsets.wellFormed
  otherFormed := otherSubsets.wellFormed
  forward := isomorphism.renumber_carries subsets otherSubsets
  backward := isomorphism.symm.renumber_carries otherSubsets subsets
  back_rename _ := isomorphism.renumber_renumber subsets otherSubsets
  rename_back _ := isomorphism.symm.renumber_renumber otherSubsets subsets

end Automaton.Isomorphism

/-! ## Limits -/

namespace Automaton

/-- Determinization succeeds under the limits that leave room for all composite states. -/
theorem exists_determinizeWithLimit_iff
    {nfa : Automaton σ}
    {exploration : Exploration σ}
    (result : nfa.explored none = .ok exploration)
    (bounded : exploration.composites.size < UInt32.size)
    {limit : Option Nat} :
    (∃ dfa, (nfa.determinizeWithLimit limit).result = .ok dfa) ↔
      ∀ allowed, limit = some allowed → exploration.composites.size ≤ allowed := by
  have unlimited := (determinizeWithLimit_none result bounded).1
  constructor
  · rintro ⟨dfa, made⟩ allowed rfl
    apply Classical.byContradiction
    intro many
    rw [(determinizeWithLimit_of_lt result (Nat.lt_of_not_le many)).1] at made
    cases made
  · intro room
    cases limit with
    | none => exact ⟨_, unlimited⟩
    | some allowed =>
        rw [determinizeWithLimit_of_le result (room allowed rfl)]
        exact ⟨_, unlimited⟩

/-- Two automata are determinized to the same automaton up to the names of the states. -/
structure DeterminizedAlike (automaton other : Automaton σ) : Prop where
  /-- Other names are all that the deterministic automata differ in, and zero keeps its name. -/
  relabelled : ∃ dfa otherDfa rename,
    automaton.determinize = .ok dfa ∧ other.determinize = .ok otherDfa ∧
      dfa.Relabels otherDfa rename ∧ rename 0 = 0 ∧
      otherDfa.transitions.length = dfa.transitions.length
  /-- The same limits let determinization succeed. -/
  limited : ∀ limit,
    (∃ dfa, (automaton.determinizeWithLimit limit).result = .ok dfa) ↔
      ∃ otherDfa, (other.determinizeWithLimit limit).result = .ok otherDfa

theorem Relabels.determinizedAlike
    {automaton other : Automaton σ}
    {rename : State → State}
    (relabels : automaton.Relabels other rename)
    (wellFormed : automaton.WellFormed)
    (otherFormed : other.WellFormed)
    (fit : automaton.CompositesFit) :
    automaton.DeterminizedAlike other := by
  rcases relabels.exists_isomorphism wellFormed otherFormed with ⟨back, isomorphism⟩
  rcases automaton.exists_explored with ⟨exploration, result, explored⟩
  rcases other.exists_explored with ⟨otherExploration, otherResult, otherExplored⟩
  have bounded : exploration.composites.size < UInt32.size := fit exploration result
  have size := isomorphism.size_eq explored.enumerates otherExplored.enumerates
  have otherBounded : otherExploration.composites.size < UInt32.size := size ▸ bounded
  have subsets := Exploration.subsets_layout explored bounded
  have otherSubsets := Exploration.subsets_layout otherExplored otherBounded
  have relabelled := (isomorphism.renumbered subsets otherSubsets).relabels
  constructor
  case relabelled =>
    exact ⟨_, _, _, (determinizeWithLimit_none result bounded).1,
      (determinizeWithLimit_none otherResult otherBounded).1, relabelled,
      isomorphism.renumber_zero subsets otherSubsets,
      relabelled.length_transitions subsets.wellFormed otherSubsets.wellFormed⟩
  case limited =>
    intro limit
    rw [exists_determinizeWithLimit_iff result bounded,
      exists_determinizeWithLimit_iff otherResult otherBounded, size]

end Automaton

/-! ## The automaton to try, under other names -/

namespace Builder

/-- The tangled automaton with its first state last and its edges in another order. -/
def retangled : Builder Bool :=
  .ofCalls 4 [.addTransition 2 false 1, .addEpsilon 0 3, .addTransition 0 true 3, .setInitial 3,
    .addFinal 1, .addTransition 0 true 1, .addEpsilon 3 0]

theorem inside_retangled : retangled.Inside := by
  refine ⟨by decide, ?_, ?_, ?_⟩
  · intro state final
    rw [StateSet.mem_singleton.mp final]
    decide
  · intro source symbol destination edge
    simp only [retangled, ofCalls, Call.apply, List.foldl_cons, List.foldl_nil,
      hasTransition_addTransition, hasTransition_addEpsilon, hasTransition_addFinal,
      hasTransition_setInitial, hasTransition_new, false_or, Prod.mk.injEq] at edge
    rcases edge with (⟨rfl, _, rfl⟩ | ⟨rfl, _, rfl⟩) | ⟨rfl, _, rfl⟩ <;> decide
  · intro source destination edge
    simp only [retangled, ofCalls, Call.apply, List.foldl_cons, List.foldl_nil,
      hasEpsilon_addTransition, hasEpsilon_addEpsilon, hasEpsilon_addFinal,
      hasEpsilon_setInitial, hasEpsilon_new, false_or, Prod.mk.injEq] at edge
    rcases edge with ⟨rfl, rfl⟩ | ⟨rfl, rfl⟩ <;> decide

theorem built_retangled : retangled.layout.Built :=
  ⟨4, _, build_of_inside (populated_ofCalls _ _) inside_retangled⟩

theorem relabels_tangled :
    tangled.layout.Relabels retangled.layout (State.exchange 1 3) := by
  have moved : State.exchange 1 3 0 = 3 ∧ State.exchange 1 3 1 = 0 ∧
      State.exchange 1 3 2 = 1 ∧ State.exchange 1 3 3 = 2 := by decide
  refine relabels_layout (populated_ofCalls _ _) inside_tangled (populated_ofCalls _ _)
    inside_retangled rfl ?_ rfl ?_ ?_ ?_
  · exact State.bijOn_exchange (by decide) (by decide)
  · intro state
    have final : retangled.finals = {1} := rfl
    have inner : tangled.finals = {2} := rfl
    simp [final, inner, moved, eq_comm]
  · intro source symbol destination
    simp only [tangled, retangled, ofCalls, Call.apply, List.foldl_cons, List.foldl_nil,
      hasTransition_addTransition, hasTransition_addEpsilon, hasTransition_addFinal,
      hasTransition_setInitial, hasTransition_new, false_or, Prod.mk.injEq, or_and_right,
      exists_or, and_assoc, exists_and_left, exists_eq_left]
    grind
  · intro source destination
    simp only [tangled, retangled, ofCalls, Call.apply, List.foldl_cons, List.foldl_nil,
      hasEpsilon_addTransition, hasEpsilon_addEpsilon, hasEpsilon_addFinal,
      hasEpsilon_setInitial, hasEpsilon_new, false_or, Prod.mk.injEq, or_and_right,
      exists_or, and_assoc, exists_and_left, exists_eq_left]
    grind

end Builder

namespace Automaton

/--
Determinization depends neither on the names of the states nor on the order in
which edges were added, and so neither on the order of the operands of a union.
-/
theorem determinize_up_to_names :
    (∀ automaton other : Automaton σ, automaton.Built → other.Built → automaton.CompositesFit →
      ∀ rename, automaton.Relabels other rename → automaton.DeterminizedAlike other) ∧
    ∀ first second : Automaton σ, first.Built → second.Built →
      first.numStates.toNat + second.numStates.toNat + 2 < 2 ^ 32 →
      ∃ whole other, first.union second = .ok whole ∧ second.union first = .ok other ∧
        (∃ rename, whole.Relabels other rename) ∧
        (whole.CompositesFit → whole.DeterminizedAlike other) := by
  constructor
  · intro automaton other built otherBuilt fit rename relabels
    exact relabels.determinizedAlike built.wellFormed otherBuilt.wellFormed fit
  · intro first second firstBuilt secondBuilt small
    rcases exists_unions_relabelled firstBuilt.wellFormed secondBuilt.wellFormed small with
      ⟨whole, other, made, otherMade, wellFormed, otherFormed, relabels⟩
    exact ⟨whole, other, made, otherMade, ⟨_, relabels⟩,
      relabels.determinizedAlike wellFormed otherFormed⟩

theorem determinize_up_to_names_tangled :
    Builder.tangled.layout.Built ∧ Builder.retangled.layout.Built ∧
      Builder.tangled.layout.CompositesFit ∧
      Builder.tangled.layout.Relabels Builder.retangled.layout (State.exchange 1 3) ∧
      Builder.tangled.layout.DeterminizedAlike Builder.retangled.layout ∧
      ∃ whole other, Builder.tangled.layout.union Builder.retangled.layout = .ok whole ∧
        Builder.retangled.layout.union Builder.tangled.layout = .ok other ∧
        (∃ rename, whole.Relabels other rename) ∧ whole.DeterminizedAlike other := by
  rcases @determinize_up_to_names Bool _ _ with ⟨renamed, united⟩
  have alike := renamed _ _ Builder.built_tangled Builder.built_retangled
    Builder.compositesFit_tangled _ Builder.relabels_tangled
  rcases united _ _ Builder.built_tangled Builder.built_retangled (by decide) with
    ⟨whole, other, made, otherMade, relabels, unitedAlike⟩
  have fit : whole.CompositesFit := by
    rcases exists_union Builder.built_tangled.wellFormed Builder.built_retangled.wellFormed
      (by decide) with ⟨union, unionMade, numStates, _, composed⟩
    rw [made] at unionMade
    cases unionMade
    refine composed.wellFormed.compositesFit ?_
    rw [numStates]
    decide
  exact ⟨Builder.built_tangled, Builder.built_retangled, Builder.compositesFit_tangled,
    Builder.relabels_tangled, alike, whole, other, made, otherMade, relabels, unitedAlike fit⟩

end Automaton

end Acceptor
