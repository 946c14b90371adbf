import Acceptor.Automaton.Moves
import Acceptor.Proofs.Builder.Built

/-!
# Moves symbol by symbol

The moves of a set of states are computed for all symbols at once, from the
rows of its members.  Here they are compared with the move on one symbol: a
symbol has a move exactly when it labels an edge group of some member, and the
move leads where the symbol leads.  Symbols without a move lead to the empty
set, and in a well-formed automaton no other symbol does.
-/

namespace Acceptor

universe u

namespace Automaton

variable {σ : Type u} [DecidableEq σ] [Hashable σ]

/-- A symbol labels an edge group of some member of a set. -/
def Labels (automaton : Automaton σ) (states : StateSet) (symbol : σ) : Prop :=
  ∃ state ∈ states, symbol ∈ (automaton.row state).keys

theorem mem_keys_iff {row : OrderedMap σ StateSet} {symbol : σ} :
    symbol ∈ row.keys ↔ ∃ group, (symbol, group) ∈ row.toList := by
  rw [Enumeration.mem_def, ← OrderedMap.map_fst_toList]
  simp only [List.mem_map, Prod.exists, exists_and_right, exists_eq_right]

theorem labels_iff_mem_groups {automaton : Automaton σ} {states : StateSet}
    {symbol : σ} :
    automaton.Labels states symbol ↔
      symbol ∈ (automaton.groups states).map Prod.fst := by
  simp only [Labels, groups, mem_keys_iff, List.mem_map, List.mem_flatMap,
    StateSet.mem_toList, Prod.exists, exists_and_right, exists_eq_right]
  constructor
  · rintro ⟨state, member, group, entry⟩
    exact ⟨group, state, member, entry⟩
  · rintro ⟨group, state, member, entry⟩
    exact ⟨state, member, group, entry⟩

/-! ## Collecting groups -/

theorem keys_foldl_addGroup (groups : List (σ × StateSet))
    (moves : OrderedMap σ StateSet) :
    (groups.foldl addGroup moves).keys =
      moves.keys.insertMany (groups.map Prod.fst) :=
  OrderedMap.keys_foldl_upsert Prod.fst Prod.snd (fun group => (· ∪ group.2)) groups moves

theorem mem_foldl_addGroup_iff (groups : List (σ × StateSet))
    (moves : OrderedMap σ StateSet) (symbol : σ) (state : State) :
    state ∈ ((groups.foldl addGroup moves).get? symbol).getD ∅ ↔
      state ∈ (moves.get? symbol).getD ∅ ∨
        ∃ group ∈ groups, group.1 = symbol ∧ state ∈ group.2 := by
  induction groups generalizing moves with
  | nil => simp
  | cons group rest induction =>
      have first :
          state ∈ ((addGroup moves group).get? symbol).getD ∅ ↔
            state ∈ (moves.get? symbol).getD ∅ ∨
              (group.1 = symbol ∧ state ∈ group.2) := by
        rw [addGroup, OrderedMap.get?_upsert]
        by_cases same : group.1 = symbol
        · subst same
          cases moves.get? group.1 <;> simp
        · simp [same]
      rw [List.foldl_cons, induction, first]
      simp [or_assoc]

/-- The symbols that have moves, in the order in which the rows list them. -/
theorem keys_steps (automaton : Automaton σ) (states : StateSet) :
    (automaton.steps states).keys =
      .ofList ((automaton.groups states).map Prod.fst) :=
  keys_foldl_addGroup _ _

theorem getD_get?_steps (automaton : Automaton σ) (states : StateSet) (symbol : σ) :
    ((automaton.steps states).get? symbol).getD ∅ = automaton.step states symbol := by
  ext state
  rw [steps, mem_foldl_addGroup_iff, mem_step_iff]
  simp only [OrderedMap.get?_empty, Option.getD_none, StateSet.not_mem_empty, false_or,
    groups, List.mem_flatMap, StateSet.mem_toList, mem_destinations_iff]
  constructor
  · rintro ⟨⟨label, group⟩, ⟨source, member, entry⟩, rfl, present⟩
    exact ⟨source, member, group, entry, present⟩
  · rintro ⟨source, member, group, entry, present⟩
    exact ⟨(symbol, group), ⟨source, member, entry⟩, rfl, present⟩

/-! ## Moves -/

/-- The moves are the symbols on the edges of the members, each with where it leads. -/
theorem mem_moves_iff {automaton : Automaton σ} {states composite : StateSet}
    {symbol : σ} :
    (symbol, composite) ∈ automaton.moves states ↔
      automaton.Labels states symbol ∧ composite = automaton.move states symbol := by
  have known : symbol ∈ (automaton.steps states).keys ↔
      automaton.Labels states symbol := by
    rw [keys_steps, Enumeration.mem_def, Enumeration.toList_ofList,
      List.mem_eraseDups, labels_iff_mem_groups]
  rw [moves_eq_map, List.mem_map, ← known]
  constructor
  · rintro ⟨⟨label, reached⟩, entry, same⟩
    cases same
    have found := OrderedMap.get?_eq_some_iff.mpr entry
    have reachedEq := automaton.getD_get?_steps states label
    rw [found, Option.getD_some] at reachedEq
    exact ⟨OrderedMap.mem_keys_of_get? found, by rw [move, ← reachedEq]⟩
  · rintro ⟨label, rfl⟩
    rcases mem_keys_iff.mp label with ⟨reached, entry⟩
    have reachedEq := automaton.getD_get?_steps states symbol
    rw [OrderedMap.get?_eq_some_iff.mpr entry, Option.getD_some] at reachedEq
    exact ⟨(symbol, reached), entry, by rw [move, ← reachedEq]⟩

/-- Moves are listed in the order in which their symbols first occur. -/
theorem map_fst_moves (automaton : Automaton σ) (states : StateSet) :
    (automaton.moves states).map Prod.fst =
      (Enumeration.ofList ((automaton.groups states).map Prod.fst)).toList := by
  rw [moves_eq_map, List.map_map, ← keys_steps, ← OrderedMap.map_fst_toList]
  rfl

theorem move_eq_empty_of_not_labels {automaton : Automaton σ} {states : StateSet}
    {symbol : σ} (unlabelled : ¬ automaton.Labels states symbol) :
    automaton.move states symbol = ∅ := by
  have nowhere : automaton.step states symbol = ∅ := by
    refine StateSet.eq_empty_iff.mpr fun state member => ?_
    rcases mem_step_iff.mp member with ⟨source, sourceMember, edge⟩
    rcases mem_destinations_iff.mp edge with ⟨group, entry, present⟩
    exact unlabelled ⟨source, sourceMember, mem_keys_iff.mpr ⟨group, entry⟩⟩
  rw [move, nowhere, epsilonClosure_empty]

/-- In a well-formed automaton exactly the symbols without a move lead to the empty set. -/
theorem WellFormed.move_eq_empty_iff {automaton : Automaton σ}
    (wellFormed : automaton.WellFormed) {states : StateSet} {symbol : σ} :
    automaton.move states symbol = ∅ ↔ ¬ automaton.Labels states symbol := by
  refine ⟨?_, move_eq_empty_of_not_labels⟩
  rintro nowhere ⟨source, sourceMember, label⟩
  rcases mem_keys_iff.mp label with ⟨group, entry⟩
  rcases StateSet.exists_mem_of_ne_empty
    (wellFormed.group_ne_empty source _ entry) with ⟨state, present⟩
  have reached : state ∈ automaton.move states symbol :=
    mem_move_iff.mpr ⟨source, sourceMember, state,
      mem_destinations_iff.mpr ⟨group, entry, present⟩, .refl state⟩
  rw [nowhere] at reached
  exact StateSet.not_mem_empty state reached

@[simp]
theorem epsilonClosure_move (automaton : Automaton σ) (states : StateSet)
    (symbol : σ) :
    automaton.epsilonClosure (automaton.move states symbol) =
      automaton.move states symbol :=
  automaton.epsilonClosure_epsilonClosure _

theorem moveAll_append (automaton : Automaton σ) (states : StateSet)
    (first second : List σ) :
    automaton.moveAll states (first ++ second) =
      automaton.moveAll (automaton.moveAll states first) second :=
  List.foldl_append

end Automaton

end Acceptor
