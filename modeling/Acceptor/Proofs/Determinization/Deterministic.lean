import Acceptor.Proofs.Acceptance.Trim
import Acceptor.Proofs.Determinization.Idempotence
import Acceptor.Proofs.Determinization.Limits
import Acceptor.Proofs.Relabelling

/-!
# Determinizing a deterministic automaton

An automaton is deterministic when it has no epsilon edges and when no symbol
leads from a state to two others.  Then there is at most one path for a word,
and the set in which the runs are after it has one member as long as a run is
left.  All composite states are therefore sets of one state, one for each state
that can be reached, and determinization does no more than number these states
anew.

The row of such a state lists its symbols as it did before, because the moves of
a set of one state are the row of the state.
-/

namespace Acceptor

universe u

variable {σ : Type u} [DecidableEq σ] [Hashable σ]

namespace StateSet

theorem eq_of_size_le_one
    {set : StateSet}
    (few : set.size ≤ 1)
    {first second : State}
    (firstMember : first ∈ set)
    (secondMember : second ∈ set) :
    first = second := by
  rcases set with ⟨members, ascending⟩
  rw [mem_def] at firstMember secondMember
  cases members with
  | nil => cases firstMember
  | cons state rest =>
      have nothing : rest.length = 0 := Nat.le_zero.mp (Nat.le_of_succ_le_succ few)
      cases List.eq_nil_of_length_eq_zero nothing
      rw [List.mem_singleton.mp firstMember, List.mem_singleton.mp secondMember]

theorem exists_eq_singleton
    {set : StateSet}
    (few : set.size ≤ 1)
    (nonempty : set ≠ ∅) :
    ∃ state, set = {state} := by
  rcases exists_mem_of_ne_empty nonempty with ⟨state, present⟩
  refine ⟨state, ext_mem fun other => ?_⟩
  rw [mem_singleton]
  constructor
  · intro otherPresent
    exact eq_of_size_le_one few otherPresent present
  · rintro rfl
    exact present

end StateSet

namespace Automaton

/-! ## Deterministic automata -/

/-- No epsilon edge exists, and no symbol leads from a state to two others. -/
structure Deterministic (automaton : Automaton σ) : Prop where
  epsilonsFrom : ∀ state, automaton.epsilonsFrom state = ∅
  size_destinations : ∀ source symbol, (automaton.destinations source symbol).size ≤ 1

/-- The check of all tables says whether an automaton is deterministic. -/
theorem WellFormed.isDeterministic_iff
    {automaton : Automaton σ}
    (wellFormed : automaton.WellFormed) :
    automaton.isDeterministic = true ↔ automaton.Deterministic := by
  simp only [isDeterministic, Bool.and_eq_true, Array.all_eq_true_iff_forall_mem,
    StateSet.isEmpty_eq_true_iff, decide_eq_true_eq]
  constructor
  · rintro ⟨epsilons, rows⟩
    constructor
    case epsilonsFrom =>
      intro state
      rw [epsilonsFrom, Array.getD_eq_getD_getElem?]
      cases found : automaton.epsilons[state.toNat]? with
      | none => rfl
      | some set => exact epsilons set (Array.mem_of_getElem? found)
    case size_destinations =>
      intro source symbol
      rw [destinations, row, Array.getD_eq_getD_getElem?]
      cases standing : automaton.rows[source.toNat]? with
      | none =>
          rw [Option.getD_none, OrderedMap.get?_empty]
          exact Nat.zero_le 1
      | some row =>
          rw [Option.getD_some]
          cases found : row.get? symbol with
          | none => exact Nat.zero_le 1
          | some group =>
              have listed := OrderedMap.mem_values_iff.mpr ⟨symbol, found⟩
              exact rows row (Array.mem_of_getElem? standing) group listed
  · intro deterministic
    constructor
    · intro set member
      rcases Array.mem_iff_getElem?.mp member with ⟨index, found⟩
      have below := (Array.getElem?_eq_some_iff.mp found).1
      have place : (UInt32.ofNat index).toNat = index :=
        UInt32.toNat_ofNat_of_lt' (Nat.lt_of_lt_of_le below wellFormed.epsilons_bounded)
      have nothing := deterministic.epsilonsFrom (UInt32.ofNat index)
      rwa [epsilonsFrom, place, Array.getD_eq_getD_getElem?, found, Option.getD_some] at nothing
    · intro row member group listed
      rcases wellFormed.exists_row_of_mem (Array.mem_toList_iff.mpr member) with ⟨source, rfl⟩
      rcases OrderedMap.mem_values_iff.mp listed with ⟨symbol, found⟩
      have few := deterministic.size_destinations source symbol
      rwa [destinations, found, Option.getD_some] at few

namespace Deterministic

variable {automaton : Automaton σ} (deterministic : automaton.Deterministic)

include deterministic

/-- At most one path begins in a state and spells a word. -/
theorem path_unique
    {source first second : State}
    {word : List σ}
    (path : automaton.Path source word first)
    (other : automaton.Path source word second) :
    first = second := by
  have closed : ∀ {start stop}, Reaches automaton.epsilonsFrom start stop ↔ start = stop :=
    reaches_iff_eq deterministic.epsilonsFrom
  induction word generalizing source with
  | nil =>
      rw [Path.nil_iff, closed] at path other
      exact path.symm.trans other
  | cons symbol word induction =>
      simp only [Path.cons_iff, closed, exists_eq_left'] at path other
      rcases path with ⟨middle, edge, rest⟩
      rcases other with ⟨otherMiddle, otherEdge, otherRest⟩
      have same := StateSet.eq_of_size_le_one (deterministic.size_destinations source symbol)
        edge otherEdge
      exact induction rest (same ▸ otherRest)

/-- After any word at most one run is left. -/
theorem size_moveAll (word : List σ) :
    (automaton.moveAll (automaton.epsilonClosureOf automaton.initial) word).size ≤ 1 := by
  apply StateSet.size_le_one
  intro first firstMember second secondMember
  rw [mem_moveAll_initial_iff] at firstMember secondMember
  exact deterministic.path_unique firstMember secondMember

section Composites

variable {composites : Enumeration StateSet}
  (wellFormed : automaton.WellFormed)
  (enumerates : automaton.Enumerates composites)

include wellFormed enumerates

/-- A composite state consists of one state, which can be reached. -/
theorem exists_eq_singleton
    {composite : StateSet}
    (member : composite ∈ composites) :
    ∃ state, composite = {state} ∧ automaton.Leads automaton.initial state := by
  have nonempty := enumerates.ne_empty wellFormed member
  rcases enumerates.reached composite member with ⟨word, rfl⟩
  rcases StateSet.exists_eq_singleton (deterministic.size_moveAll word) nonempty with ⟨state, same⟩
  refine ⟨state, same, word, mem_moveAll_initial_iff.mp ?_⟩
  rw [same]
  exact StateSet.mem_singleton.mpr rfl

/-- Every state that can be reached makes up a composite state. -/
theorem singleton_mem
    {state : State}
    (leads : automaton.Leads automaton.initial state) :
    {state} ∈ composites := by
  rcases leads with ⟨word, path⟩
  have present := mem_moveAll_initial_iff.mpr path
  have member := enumerates.moveAll_mem (StateSet.ne_empty_of_mem present)
  rcases deterministic.exists_eq_singleton wellFormed enumerates member with ⟨other, same, _⟩
  rw [same] at present member
  rw [StateSet.mem_singleton.mp present]
  exact member

/-- There are not more composite states than states. -/
theorem size_composites_le : composites.size ≤ automaton.numStates.toNat := by
  have known : composites.toList ⊆
      (List.range automaton.numStates.toNat).map fun number => {UInt32.ofNat number} := by
    intro composite listed
    have member := Enumeration.mem_def.mpr listed
    rcases deterministic.exists_eq_singleton wellFormed enumerates member with ⟨state, rfl, _⟩
    have below := enumerates.lt_of_mem wellFormed member (StateSet.mem_singleton.mpr rfl)
    refine List.mem_map.mpr ⟨state.toNat, List.mem_range.mpr ?_, ?_⟩
    · exact UInt32.lt_iff_toNat_lt.mp below
    · rw [UInt32.ofNat_toNat]
  have bound := (composites.nodup_toList.subperm known).length_le
  rwa [Enumeration.length_toList, List.length_map, List.length_range] at bound

end Composites

end Deterministic

/-! ## New numbers -/

/-- The second automaton is the part of the first that can be reached, with numbers of its own. -/
structure RenumbersReachable (automaton dfa : Automaton σ) (place : State → State) : Prop where
  /-- Each state stands for a state that can be reached, and each of those has a number. -/
  bijOn : Set.BijOn place {state | state < dfa.numStates}
    {state | automaton.Leads automaton.initial state}
  initial : place dfa.initial = automaton.initial
  final_iff : ∀ state < dfa.numStates, state ∈ dfa.finals ↔ place state ∈ automaton.finals
  epsilonsFrom : ∀ state, dfa.epsilonsFrom state = ∅
  /-- Rows list the same symbols in the same order, each with the renamed destinations. -/
  row : ∀ state < dfa.numStates, (automaton.row (place state)).toList =
    (dfa.row state).toList.map fun entry => (entry.1, entry.2.image place)

theorem RenumbersReachable.numStates_eq
    {automaton dfa : Automaton σ}
    {place : State → State}
    (renumbers : automaton.RenumbersReachable dfa place) :
    dfa.numStates.toNat = {state | automaton.Leads automaton.initial state}.ncard := by
  rw [← renumbers.bijOn.ncard_eq, StateSet.ncard_lt]

/-- The only state in the set that a number stands for. -/
def soleMember (composites : Enumeration StateSet) (state : State) : State :=
  ((composites.get? state.toNat).bind fun composite => composite.toList.head?).getD 0

theorem soleMember_eq
    {composites : Enumeration StateSet}
    {state target : State}
    (found : composites.get? state.toNat = some {target}) :
    soleMember composites state = target := by
  rw [soleMember, found]
  rfl

namespace Deterministic

variable {automaton dfa : Automaton σ} {composites : Enumeration StateSet}
  (deterministic : automaton.Deterministic)
  (wellFormed : automaton.WellFormed)
  (subsets : automaton.Subsets dfa composites)

include deterministic wellFormed subsets

/-- Every number stands for a set of one state, which can be reached. -/
theorem get?_eq_singleton
    {state : State}
    (below : state < dfa.numStates) :
    composites.get? state.toNat = some {soleMember composites state} ∧
      automaton.Leads automaton.initial (soleMember composites state) := by
  rcases subsets.exists_get?_of_lt below with ⟨composite, found⟩
  rcases deterministic.exists_eq_singleton wellFormed subsets.enumerates
    (Enumeration.mem_of_get? found) with ⟨target, rfl, leads⟩
  rw [soleMember_eq found]
  exact ⟨found, leads⟩

theorem bijOn_soleMember :
    Set.BijOn (soleMember composites) {state | state < dfa.numStates}
      {state | automaton.Leads automaton.initial state} := by
  have stands : ∀ state < dfa.numStates,
      composites.get? state.toNat = some {soleMember composites state} ∧
        automaton.Leads automaton.initial (soleMember composites state) :=
    fun state below => deterministic.get?_eq_singleton wellFormed subsets below
  refine ⟨fun state below => (stands state below).2, ?_, ?_⟩
  · intro first firstBelow second secondBelow same
    have found := (stands first firstBelow).1
    rw [same] at found
    exact UInt32.toNat_inj.mp (Enumeration.get?_inj found (stands second secondBelow).1)
  · intro target leads
    have member := deterministic.singleton_mem wellFormed subsets.enumerates leads
    have found := subsets.get?_number member
    exact ⟨_, subsets.lt_of_get? found, soleMember_eq found⟩

end Deterministic

/-- The composite states are numbered as the states that they consist of. -/
theorem Deterministic.renumbersReachable
    {automaton : Automaton σ}
    (deterministic : automaton.Deterministic)
    (wellFormed : automaton.WellFormed)
    {exploration : Exploration σ}
    (explored : Exploration.Explored automaton exploration.composites.size exploration)
    (bounded : exploration.composites.size < UInt32.size) :
    automaton.RenumbersReachable exploration.builder.layout
      (soleMember exploration.composites) := by
  have subsets := Exploration.subsets_layout explored bounded
  have enumerates := subsets.enumerates
  have closed := epsilonClosure_eq_self deterministic.epsilonsFrom
  constructor
  case bijOn => exact deterministic.bijOn_soleMember wellFormed subsets
  case initial =>
    rw [subsets.initial]
    apply soleMember_eq
    rw [subsets.get?_zero, epsilonClosureOf, closed]
  case final_iff =>
    intro state below
    rw [subsets.final_iff, (deterministic.get?_eq_singleton wellFormed subsets below).1]
    simp only [Option.some.injEq, exists_eq_left', intersects_singleton]
  case epsilonsFrom => exact subsets.epsilonsFrom
  case row =>
    intro state below
    have found := (deterministic.get?_eq_singleton wellFormed subsets below).1
    have renamed : ∀ entry ∈ (automaton.row (soleMember exploration.composites state)).toList,
        (entry.1, ({Exploration.number exploration.composites entry.2} : StateSet).image
          (soleMember exploration.composites)) = entry := by
      rintro ⟨symbol, group⟩ listed
      rw [← moves_singleton deterministic.epsilonsFrom, mem_moves_iff] at listed
      rcases listed with ⟨labels, rfl⟩
      have member := enumerates.move_mem (Enumeration.mem_of_get? found) labels
      rcases deterministic.exists_eq_singleton wellFormed enumerates member with ⟨target, same, _⟩
      rw [same] at member
      rw [same, StateSet.image_singleton,
        soleMember_eq (subsets.get?_number member)]
    rw [Exploration.toList_row_layout explored bounded found, Exploration.numberedMoves,
      moves_singleton deterministic.epsilonsFrom, List.map_map]
    exact ((List.map_congr_left renamed).trans (List.map_id _)).symm

end Automaton

/-! ## A deterministic automaton to try -/

namespace Builder

/-- Two symbols lead from the initial state to different states, and one state is out of reach. -/
def guided : Builder Bool :=
  .ofCalls 4 [.setInitial 1, .addFinal 0, .addTransition 1 true 3, .addTransition 1 false 1,
    .addTransition 3 true 0, .addTransition 2 false 3]

theorem inside_guided : guided.Inside := by
  refine ⟨by decide, ?_, ?_, ?_⟩
  · intro state final
    rw [StateSet.mem_singleton.mp final]
    decide
  · intro source symbol destination edge
    simp only [guided, ofCalls, Call.apply, List.foldl_cons, List.foldl_nil,
      hasTransition_addTransition, hasTransition_addFinal, hasTransition_setInitial,
      hasTransition_new, false_or, Prod.mk.injEq] at edge
    rcases edge with ((⟨rfl, _, rfl⟩ | ⟨rfl, _, rfl⟩) | ⟨rfl, _, rfl⟩) | ⟨rfl, _, rfl⟩ <;> decide
  · intro source destination edge
    simp [guided, ofCalls, Call.apply] at edge

theorem built_guided : guided.layout.Built :=
  ⟨4, _, build_of_inside (populated_ofCalls _ _) inside_guided⟩

theorem isDeterministic_guided : guided.layout.isDeterministic = true := by
  have populated : guided.Populated := populated_ofCalls _ _
  rw [built_guided.wellFormed.isDeterministic_iff]
  constructor
  case epsilonsFrom =>
    intro state
    rw [StateSet.eq_empty_iff]
    intro next edge
    rw [mem_epsilonsFrom_layout_iff populated inside_guided] at edge
    simp [guided, ofCalls, Call.apply] at edge
  case size_destinations =>
    intro source symbol
    apply StateSet.size_le_one
    intro first firstEdge second secondEdge
    rw [mem_destinations_layout_iff populated inside_guided] at firstEdge secondEdge
    simp only [guided, ofCalls, Call.apply, List.foldl_cons, List.foldl_nil,
      hasTransition_addTransition, hasTransition_addFinal, hasTransition_setInitial,
      hasTransition_new, false_or, Prod.mk.injEq] at firstEdge secondEdge
    grind

end Builder

namespace Automaton

/--
After any word an automaton that passes the check for determinism is in at most
one state, and determinization only numbers the states that can be reached anew.
-/
theorem determinize_of_isDeterministic
    {automaton : Automaton σ}
    (built : automaton.Built)
    (checked : automaton.isDeterministic = true) :
    (∀ word,
      (automaton.moveAll (automaton.epsilonClosureOf automaton.initial) word).size ≤ 1) ∧
      ∃ dfa place, automaton.determinize = .ok dfa ∧ automaton.RenumbersReachable dfa place ∧
        dfa.numStates.toNat = {state | automaton.Leads automaton.initial state}.ncard ∧
        (automaton.determinizeWithLimit (some automaton.numStates.toNat)).result = .ok dfa := by
  have wellFormed := built.wellFormed
  have deterministic := wellFormed.isDeterministic_iff.mp checked
  rcases automaton.exists_explored with ⟨exploration, result, explored⟩
  have few := deterministic.size_composites_le wellFormed explored.enumerates
  have bounded : exploration.composites.size < UInt32.size :=
    Nat.lt_of_le_of_lt few automaton.numStates.toNat_lt
  have unlimited := (determinizeWithLimit_none result bounded).1
  have renumbers := deterministic.renumbersReachable wellFormed explored bounded
  refine ⟨deterministic.size_moveAll, _, _, unlimited, renumbers, renumbers.numStates_eq, ?_⟩
  rw [determinizeWithLimit_of_le result few, unlimited]

theorem determinize_of_isDeterministic_guided :
    Builder.guided.layout.Built ∧ Builder.guided.layout.isDeterministic = true ∧
      (∀ word, (Builder.guided.layout.moveAll
        (Builder.guided.layout.epsilonClosureOf Builder.guided.layout.initial) word).size ≤ 1) ∧
      ∃ dfa place, Builder.guided.layout.determinize = .ok dfa ∧
        Builder.guided.layout.RenumbersReachable dfa place ∧
        dfa.numStates.toNat =
          {state | Builder.guided.layout.Leads Builder.guided.layout.initial state}.ncard ∧
        (Builder.guided.layout.determinizeWithLimit
          (some Builder.guided.layout.numStates.toNat)).result = .ok dfa :=
  ⟨Builder.built_guided, Builder.isDeterministic_guided,
    determinize_of_isDeterministic Builder.built_guided Builder.isDeterministic_guided⟩

end Automaton

end Acceptor
