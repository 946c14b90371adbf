import Acceptor.Proofs.Builder.Listed
import Acceptor.Proofs.Determinization.Composites
import Mathlib.Data.List.Perm.Basic
import Mathlib.Data.Set.Card

/-!
# Automata that differ in names

Two automata differ in the names of their states only when a renaming of the
states takes the initial state, the final states and the edges of one exactly
to those of the other.  Such a renaming and its inverse both keep edges, and
what keeps edges keeps paths.  Hence, after any word, the runs of one automaton
are in the renamed states of the runs of the other.

The order in which edges were added, and with it the order in which they are
listed, is of no concern here.
-/

namespace Acceptor

universe u

/-! ## Renamed sets -/

namespace StateSet

/-- The set of the renamed members. -/
def image (set : StateSet) (rename : State → State) : StateSet :=
  .ofList (set.toList.map rename)

@[simp]
theorem mem_image {set : StateSet} {rename : State → State} {state : State} :
    state ∈ set.image rename ↔ ∃ member ∈ set, rename member = state := by
  simp [image]

@[simp]
theorem image_singleton (rename : State → State) (state : State) :
    ({state} : StateSet).image rename = {rename state} := by
  ext other
  simp [eq_comm]

theorem image_ne_empty {set : StateSet} (nonempty : set ≠ ∅) (rename : State → State) :
    set.image rename ≠ ∅ := by
  rcases exists_mem_of_ne_empty nonempty with ⟨member, present⟩
  exact ne_empty_of_mem (mem_image.mpr ⟨member, present, rfl⟩)

/-- Renaming back what was renamed. -/
theorem image_image
    {set : StateSet}
    {rename back : State → State}
    (inverse : ∀ member ∈ set, back (rename member) = member) :
    (set.image rename).image back = set := by
  ext state
  simp only [mem_image]
  constructor
  · rintro ⟨_, ⟨member, present, rfl⟩, rfl⟩
    rw [inverse member present]
    exact present
  · intro present
    exact ⟨rename state, ⟨state, present, rfl⟩, inverse state present⟩

/-- The number of the states below a bound. -/
theorem ncard_lt (bound : State) : {state : State | state < bound}.ncard = bound.toNat := by
  have numbers : {state : State | state < bound} =
      ((Finset.range bound.toNat).image UInt32.ofNat : Finset State) := by
    ext state
    simp only [Set.mem_ofPred_eq, Finset.coe_image, Set.mem_image, Finset.mem_coe,
      Finset.mem_range, UInt32.lt_iff_toNat_lt]
    constructor
    · intro below
      exact ⟨state.toNat, below, UInt32.ofNat_toNat⟩
    · rintro ⟨number, below, rfl⟩
      rw [UInt32.toNat_ofNat_of_lt' (Nat.lt_trans below bound.toNat_lt)]
      exact below
  rw [numbers, Set.ncard_coe_finset, Finset.card_image_of_injOn, Finset.card_range]
  intro first firstBelow second secondBelow same
  rw [Finset.mem_coe, Finset.mem_range] at firstBelow secondBelow
  have numbersEqual := congrArg UInt32.toNat same
  rwa [UInt32.toNat_ofNat_of_lt' (Nat.lt_trans firstBelow bound.toNat_lt),
    UInt32.toNat_ofNat_of_lt' (Nat.lt_trans secondBelow bound.toNat_lt)] at numbersEqual

end StateSet

namespace Automaton

variable {σ : Type u} [DecidableEq σ] [Hashable σ]

/-! ## Renamings that keep edges -/

/-- A renaming takes the parts of one automaton to parts of another. -/
structure Carries (automaton other : Automaton σ) (rename : State → State) : Prop where
  state : ∀ state < automaton.numStates, rename state < other.numStates
  initial : rename automaton.initial = other.initial
  final : ∀ state ∈ automaton.finals, rename state ∈ other.finals
  transition : ∀ source symbol, ∀ destination ∈ automaton.destinations source symbol,
    rename destination ∈ other.destinations (rename source) symbol
  epsilon : ∀ source, ∀ destination ∈ automaton.epsilonsFrom source,
    rename destination ∈ other.epsilonsFrom (rename source)

/-- What keeps edges keeps paths. -/
theorem Carries.path
    {automaton other : Automaton σ}
    {rename : State → State}
    (carries : automaton.Carries other rename)
    {source target : State}
    {word : List σ}
    (path : automaton.Path source word target) :
    other.Path (rename source) word (rename target) := by
  induction path with
  | stay state => exact .stay _
  | epsilon edge _ induction => exact .epsilon (carries.epsilon _ _ edge) induction
  | symbol edge _ induction => exact .symbol (carries.transition _ _ _ edge) induction

/-- Two renamings, inverse to each other, take two well-formed automata to each other. -/
structure Isomorphism (automaton other : Automaton σ) (rename back : State → State) : Prop where
  wellFormed : automaton.WellFormed
  otherFormed : other.WellFormed
  forward : automaton.Carries other rename
  backward : other.Carries automaton back
  back_rename : ∀ state < automaton.numStates, back (rename state) = state
  rename_back : ∀ state < other.numStates, rename (back state) = state

namespace Isomorphism

variable {automaton other : Automaton σ} {rename back : State → State}
  (isomorphism : automaton.Isomorphism other rename back)

include isomorphism

theorem symm : other.Isomorphism automaton back rename where
  wellFormed := isomorphism.otherFormed
  otherFormed := isomorphism.wellFormed
  forward := isomorphism.backward
  backward := isomorphism.forward
  back_rename := isomorphism.rename_back
  rename_back := isomorphism.back_rename

theorem bijOn :
    Set.BijOn rename {state | state < automaton.numStates} {state | state < other.numStates} :=
  Set.InvOn.bijOn ⟨isomorphism.back_rename, isomorphism.rename_back⟩
    isomorphism.forward.state isomorphism.backward.state

/-- After any word the runs of the second automaton are in the renamed states of the first. -/
theorem moveAll_eq_image (word : List σ) :
    other.moveAll (other.epsilonClosureOf other.initial) word =
      (automaton.moveAll (automaton.epsilonClosureOf automaton.initial) word).image rename := by
  ext state
  simp only [StateSet.mem_image, mem_moveAll_initial_iff]
  constructor
  · intro path
    have inner := isomorphism.backward.path path
    rw [isomorphism.backward.initial] at inner
    have below := isomorphism.otherFormed.lt_of_path path isomorphism.otherFormed.initial_lt
    exact ⟨back state, inner, isomorphism.rename_back state below⟩
  · rintro ⟨member, path, rfl⟩
    rw [← isomorphism.forward.initial]
    exact isomorphism.forward.path path

end Isomorphism

/-! ## The same automaton under other names -/

/-- An edge between the renamed states. -/
def renamedEdge (rename : State → State) (edge : State × σ × State) : State × σ × State :=
  (rename edge.1, edge.2.1, rename edge.2.2)

/-- A permutation of the states takes the parts of one automaton exactly to those of another. -/
structure Relabels (automaton other : Automaton σ) (rename : State → State) : Prop where
  numStates : other.numStates = automaton.numStates
  bijOn : Set.BijOn rename {state | state < automaton.numStates} {state | state < other.numStates}
  initial : other.initial = rename automaton.initial
  finals : ∀ state, state ∈ other.finals ↔ ∃ inner ∈ automaton.finals, rename inner = state
  transitions : ∀ edge, edge ∈ other.transitions ↔
    ∃ inner ∈ automaton.transitions, renamedEdge rename inner = edge
  epsilonTransitions : ∀ edge, edge ∈ other.epsilonTransitions ↔
    ∃ inner ∈ automaton.epsilonTransitions, (rename inner.1, rename inner.2) = edge

theorem Isomorphism.relabels
    {automaton other : Automaton σ}
    {rename back : State → State}
    (isomorphism : automaton.Isomorphism other rename back) :
    automaton.Relabels other rename := by
  have wellFormed := isomorphism.wellFormed
  have otherFormed := isomorphism.otherFormed
  have rows := wellFormed.rows_bounded
  have otherRows := otherFormed.rows_bounded
  have epsilons := wellFormed.epsilons_bounded
  have otherEpsilons := otherFormed.epsilons_bounded
  constructor
  case numStates =>
    have counts := isomorphism.bijOn.ncard_eq
    rw [StateSet.ncard_lt, StateSet.ncard_lt] at counts
    exact UInt32.toNat_inj.mp counts.symm
  case bijOn => exact isomorphism.bijOn
  case initial => exact isomorphism.forward.initial.symm
  case finals =>
    intro state
    constructor
    · intro final
      exact ⟨back state, isomorphism.backward.final state final,
        isomorphism.rename_back state (otherFormed.final_lt state final)⟩
    · rintro ⟨inner, final, rfl⟩
      exact isomorphism.forward.final inner final
  case transitions =>
    rintro ⟨source, symbol, destination⟩
    rw [mem_transitions_iff otherRows]
    constructor
    · intro edge
      refine ⟨(back source, symbol, back destination),
        (mem_transitions_iff rows).mpr (isomorphism.backward.transition _ _ _ edge), ?_⟩
      rw [renamedEdge, isomorphism.rename_back source (otherFormed.source_lt_of_destination edge),
        isomorphism.rename_back destination (otherFormed.destination_lt _ _ _ edge)]
    · rintro ⟨⟨start, label, stop⟩, listed, same⟩
      cases same
      exact isomorphism.forward.transition _ _ _ ((mem_transitions_iff rows).mp listed)
  case epsilonTransitions =>
    rintro ⟨source, destination⟩
    rw [mem_epsilonTransitions_iff otherEpsilons]
    constructor
    · intro edge
      refine ⟨(back source, back destination),
        (mem_epsilonTransitions_iff epsilons).mpr (isomorphism.backward.epsilon _ _ edge), ?_⟩
      rw [isomorphism.rename_back source (otherFormed.source_lt_of_epsilon edge),
        isomorphism.rename_back destination (otherFormed.epsilon_lt _ _ edge)]
    · rintro ⟨⟨start, stop⟩, listed, same⟩
      cases same
      exact isomorphism.forward.epsilon _ _ ((mem_epsilonTransitions_iff epsilons).mp listed)

section Relabels

variable {automaton other : Automaton σ} {rename : State → State}
  (wellFormed : automaton.WellFormed) (otherFormed : other.WellFormed)

include wellFormed otherFormed

theorem Relabels.destination_iff
    (relabels : automaton.Relabels other rename)
    {source destination : State}
    {symbol : σ} :
    destination ∈ other.destinations source symbol ↔
      ∃ start stop, stop ∈ automaton.destinations start symbol ∧
        rename start = source ∧ rename stop = destination := by
  have rows := wellFormed.rows_bounded
  rw [← mem_transitions_iff otherFormed.rows_bounded, relabels.transitions]
  constructor
  · rintro ⟨⟨start, label, stop⟩, listed, same⟩
    cases same
    exact ⟨start, stop, (mem_transitions_iff rows).mp listed, rfl, rfl⟩
  · rintro ⟨start, stop, edge, rfl, rfl⟩
    exact ⟨(start, symbol, stop), (mem_transitions_iff rows).mpr edge, rfl⟩

theorem Relabels.epsilon_iff
    (relabels : automaton.Relabels other rename)
    {source destination : State} :
    destination ∈ other.epsilonsFrom source ↔
      ∃ start stop, stop ∈ automaton.epsilonsFrom start ∧
        rename start = source ∧ rename stop = destination := by
  have epsilons := wellFormed.epsilons_bounded
  rw [← mem_epsilonTransitions_iff otherFormed.epsilons_bounded, relabels.epsilonTransitions]
  constructor
  · rintro ⟨⟨start, stop⟩, listed, same⟩
    cases same
    exact ⟨start, stop, (mem_epsilonTransitions_iff epsilons).mp listed, rfl, rfl⟩
  · rintro ⟨start, stop, edge, rfl, rfl⟩
    exact ⟨(start, stop), (mem_epsilonTransitions_iff epsilons).mpr edge, rfl⟩

theorem Relabels.carries (relabels : automaton.Relabels other rename) :
    automaton.Carries other rename where
  state _ below := relabels.bijOn.mapsTo below
  initial := relabels.initial.symm
  final state final := (relabels.finals _).mpr ⟨state, final, rfl⟩
  transition _ _ _ edge :=
    (relabels.destination_iff wellFormed otherFormed).mpr ⟨_, _, edge, rfl, rfl⟩
  epsilon _ _ edge :=
    (relabels.epsilon_iff wellFormed otherFormed).mpr ⟨_, _, edge, rfl, rfl⟩

/-- The renaming can be undone. -/
theorem Relabels.exists_isomorphism (relabels : automaton.Relabels other rename) :
    ∃ back, automaton.Isomorphism other rename back := by
  let back := Function.invFunOn rename {state | state < automaton.numStates}
  rcases relabels.bijOn.invOn_invFunOn with ⟨left, right⟩
  have undone : ∀ state < automaton.numStates, back (rename state) = state :=
    fun state below => left below
  refine ⟨back, wellFormed, otherFormed, relabels.carries wellFormed otherFormed, ?_, undone,
    fun state below => right below⟩
  constructor
  case state => exact relabels.bijOn.surjOn.mapsTo_invFunOn
  case initial => rw [relabels.initial, undone _ wellFormed.initial_lt]
  case final =>
    intro state final
    rcases (relabels.finals state).mp final with ⟨inner, innerFinal, rfl⟩
    rw [undone inner (wellFormed.final_lt inner innerFinal)]
    exact innerFinal
  case transition =>
    intro source symbol destination edge
    rcases (relabels.destination_iff wellFormed otherFormed).mp edge with
      ⟨start, stop, inner, rfl, rfl⟩
    rw [undone start (wellFormed.source_lt_of_destination inner),
      undone stop (wellFormed.destination_lt _ _ _ inner)]
    exact inner
  case epsilon =>
    intro source destination edge
    rcases (relabels.epsilon_iff wellFormed otherFormed).mp edge with
      ⟨start, stop, inner, rfl, rfl⟩
    rw [undone start (wellFormed.source_lt_of_epsilon inner),
      undone stop (wellFormed.epsilon_lt _ _ inner)]
    exact inner

/-- Under other names there are as many labelled edges. -/
theorem Relabels.length_transitions (relabels : automaton.Relabels other rename) :
    other.transitions.length = automaton.transitions.length := by
  have bounded := wellFormed.rows_bounded
  have distinct : (automaton.transitions.map (renamedEdge rename)).Nodup := by
    refine List.Nodup.map_on ?_ (nodup_transitions bounded)
    rintro ⟨source, symbol, destination⟩ listed ⟨start, label, stop⟩ otherListed same
    have edge := (mem_transitions_iff bounded).mp listed
    have otherEdge := (mem_transitions_iff bounded).mp otherListed
    simp only [renamedEdge, Prod.mk.injEq] at same
    rcases same with ⟨sources, rfl, destinations⟩
    rw [relabels.bijOn.injOn (wellFormed.source_lt_of_destination edge)
        (wellFormed.source_lt_of_destination otherEdge) sources,
      relabels.bijOn.injOn (wellFormed.destination_lt _ _ _ edge)
        (wellFormed.destination_lt _ _ _ otherEdge) destinations]
  have rearranged : (automaton.transitions.map (renamedEdge rename)).Perm other.transitions := by
    rw [List.perm_ext_iff_of_nodup distinct (nodup_transitions otherFormed.rows_bounded)]
    intro edge
    rw [relabels.transitions, List.mem_map]
  rw [← rearranged.length_eq, List.length_map]

end Relabels

end Automaton

/-- Builders that have collected the same under other names build the same under other names. -/
theorem Builder.relabels_layout
    {σ : Type u} [DecidableEq σ] [Hashable σ]
    {builder other : Builder σ}
    {rename : State → State}
    (populated : builder.Populated) (inside : builder.Inside)
    (otherPopulated : other.Populated) (otherInside : other.Inside)
    (numStates : other.numStates = builder.numStates)
    (bijOn : Set.BijOn rename {state | state < builder.numStates}
      {state | state < other.numStates})
    (initial : other.initial = rename builder.initial)
    (finals : ∀ state, state ∈ other.finals ↔ ∃ inner ∈ builder.finals, rename inner = state)
    (transitions : ∀ source symbol destination, other.HasTransition source symbol destination ↔
      ∃ start stop, builder.HasTransition start symbol stop ∧
        rename start = source ∧ rename stop = destination)
    (epsilons : ∀ source destination, other.HasEpsilon source destination ↔
      ∃ start stop, builder.HasEpsilon start stop ∧
        rename start = source ∧ rename stop = destination) :
    builder.layout.Relabels other.layout rename := by
  have formed := wellFormed_layout populated inside
  have otherFormed := wellFormed_layout otherPopulated otherInside
  refine ⟨numStates, bijOn, initial, finals, ?_, ?_⟩
  · rintro ⟨source, symbol, destination⟩
    rw [Automaton.mem_transitions_iff otherFormed.rows_bounded,
      mem_destinations_layout_iff otherPopulated otherInside, transitions]
    constructor
    · rintro ⟨start, stop, edge, rfl, rfl⟩
      refine ⟨(start, symbol, stop), ?_, rfl⟩
      rw [Automaton.mem_transitions_iff formed.rows_bounded]
      exact (mem_destinations_layout_iff populated inside).mpr edge
    · rintro ⟨⟨start, label, stop⟩, listed, same⟩
      cases same
      rw [Automaton.mem_transitions_iff formed.rows_bounded] at listed
      exact ⟨start, stop, (mem_destinations_layout_iff populated inside).mp listed, rfl, rfl⟩
  · rintro ⟨source, destination⟩
    rw [Automaton.mem_epsilonTransitions_iff otherFormed.epsilons_bounded,
      mem_epsilonsFrom_layout_iff otherPopulated otherInside, epsilons]
    constructor
    · rintro ⟨start, stop, edge, rfl, rfl⟩
      refine ⟨(start, stop), ?_, rfl⟩
      rw [Automaton.mem_epsilonTransitions_iff formed.epsilons_bounded]
      exact (mem_epsilonsFrom_layout_iff populated inside).mpr edge
    · rintro ⟨⟨start, stop⟩, listed, same⟩
      cases same
      rw [Automaton.mem_epsilonTransitions_iff formed.epsilons_bounded] at listed
      exact ⟨start, stop, (mem_epsilonsFrom_layout_iff populated inside).mp listed, rfl, rfl⟩

end Acceptor
