import Acceptor.Proofs.Builder.Collected
import Acceptor.Proofs.Builder.Listed

/-!
# A built automaton holds what was added

The edges of an automaton that is built are the edges that were added, each
listed once, whatever the order of the operations and however often an edge
was added.  They are listed by ascending source, then in the order in which the
symbols were first added for the source, then by ascending destination; the row
of a state lists the same edges in groups.

It makes no difference when the universe was declared: operations that differ
only in the declarations, and end with the same one, build the same automaton.
-/

namespace Acceptor

universe u

namespace Automaton

variable {σ : Type u} [DecidableEq σ]

/-! ## The order of the listed edges -/

/-- The symbols of the edges of a source, in the order of the edges. -/
def symbolsFrom (edges : List (State × σ × State)) (source : State) : List σ :=
  edges.filterMap fun edge => if edge.1 = source then some edge.2.1 else none

/-- The destinations of the edges of a source that carry a symbol. -/
def destinationsFrom (edges : List (State × σ × State)) (source : State) (symbol : σ) :
    List State :=
  Builder.gathered (edges.map Builder.keyed) (source, symbol)

/--
Edges come by ascending source, for one source in the order in which its
symbols were first added, and for one symbol by ascending destination.
-/
def Precedes (edges : List (State × σ × State)) (first second : State × σ × State) : Prop :=
  first.1 < second.1 ∨ first.1 = second.1 ∧
    ((symbolsFrom edges first.1).idxOf first.2.1 < (symbolsFrom edges first.1).idxOf second.2.1 ∨
      first.2.1 = second.2.1 ∧ first.2.2 < second.2.2)

variable [Hashable σ]

/-- The edges of a row are in order if its groups are. -/
theorem pairwise_rowEdges
    {edges : List (State × σ × State)}
    {source : State}
    {row : OrderedMap σ StateSet}
    (ordered : row.toList.Pairwise fun first second =>
      (symbolsFrom edges source).idxOf first.1 < (symbolsFrom edges source).idxOf second.1) :
    (rowEdges source row).Pairwise (Precedes edges) := by
  rw [rowEdges, List.pairwise_flatMap]
  constructor
  · intro entry _
    rw [List.pairwise_map]
    exact entry.2.ascending.imp fun below => Or.inr ⟨rfl, Or.inr ⟨rfl, below⟩⟩
  · refine ordered.imp fun earlier => ?_
    intro first firstMember second secondMember
    rcases List.mem_map.mp firstMember with ⟨_, _, rfl⟩
    rcases List.mem_map.mp secondMember with ⟨_, _, rfl⟩
    exact Or.inr ⟨rfl, Or.inl earlier⟩

/-- The edges of an automaton are given ones, listed in the order in which they were added. -/
structure Lists
    (automaton : Automaton σ)
    (edges : List (State × σ × State))
    (epsilons : List (State × State)) : Prop where
  /-- The labelled edges are the given ones. -/
  mem_transitions_iff : ∀ edge, edge ∈ automaton.transitions ↔ edge ∈ edges
  /-- No labelled edge is listed twice. -/
  nodup_transitions : automaton.transitions.Nodup
  /-- Labelled edges are listed by source, then by symbol, then by destination. -/
  pairwise_transitions : automaton.transitions.Pairwise (Precedes edges)
  /-- The epsilon edges are the given ones. -/
  mem_epsilonTransitions_iff : ∀ edge, edge ∈ automaton.epsilonTransitions ↔ edge ∈ epsilons
  /-- No epsilon edge is listed twice. -/
  nodup_epsilonTransitions : automaton.epsilonTransitions.Nodup
  /-- Epsilon edges are listed by ascending source, then by ascending destination. -/
  pairwise_epsilonTransitions :
    automaton.epsilonTransitions.Pairwise (Prod.Lex (· < ·) (· < ·))
  /-- The row of a state groups its edges by symbol. -/
  toList_row : ∀ source, (automaton.row source).toList =
    (symbolsFrom edges source).eraseDups.map fun symbol =>
      (symbol, .ofList (destinationsFrom edges source symbol))
  /-- The row of a state lists its edges in the order of all edges. -/
  rowEdges_row : ∀ source,
    rowEdges source (automaton.row source) = automaton.transitions.filter (·.1 = source)
  /-- The row of a number that is not a state is empty. -/
  row_of_le : ∀ source, automaton.numStates ≤ source → automaton.row source = .empty
  /-- The alphabet lists the symbols of the edges in the order of their first occurrence. -/
  toList_alphabet : automaton.alphabet.toList = (automaton.transitions.map (·.2.1)).eraseDups

end Automaton

namespace Builder

/-! ## Rows and edges -/

/-- The symbol of a group, if the group is of a given source. -/
def symbolOf {σ : Type u} (source : State) (key : State × σ) : Option σ :=
  if key.1 = source then some key.2 else none

theorem symbolOf_eq_some_iff {σ : Type u} {source : State} {key : State × σ} {symbol : σ} :
    symbolOf source key = some symbol ↔ key = (source, symbol) := by
  simp [symbolOf, Prod.ext_iff]

section Grouped

variable {σ : Type u} [DecidableEq σ] [Hashable σ] {builder : Builder σ}
  {edges : List (State × σ × State)}
  (inside : ∀ state ∈ builder.mentioned, state < builder.numStates)
  (collected : builder.labelled = grouped (edges.map keyed))

include inside collected

/-- The row of a state groups what was added for the state by symbol. -/
theorem toList_row_of_grouped (source : State) :
    (builder.layout.row source).toList =
      (Automaton.symbolsFrom edges source).eraseDups.map fun symbol =>
        (symbol, .ofList (Automaton.destinationsFrom edges source symbol)) := by
  have symbols : Automaton.symbolsFrom edges source =
      ((edges.map keyed).map Prod.fst).filterMap (symbolOf source) := by
    rw [List.filterMap_map, List.filterMap_map]
    rfl
  have kept : ∀ key : State × σ,
      keptBy source (key, .ofList (gathered (edges.map keyed) key)) =
        (symbolOf source key).map fun symbol =>
          (symbol, .ofList (Automaton.destinationsFrom edges source symbol)) := by
    rintro ⟨start, symbol⟩
    by_cases same : start = source
    · subst same
      simp [keptBy, symbolOf, Automaton.destinationsFrom]
    · simp [keptBy, symbolOf, same]
  rw [toList_row_layout inside, collected, toList_grouped, List.filterMap_map, symbols,
    ← filterMap_eraseDups, List.map_filterMap]
  · exact List.filterMap_congr fun key _ => kept key
  · intro first _ second _ symbol firstOf secondOf
    rw [symbolOf_eq_some_iff.mp firstOf, symbolOf_eq_some_iff.mp secondOf]

/-- The edges of one row are in order. -/
theorem pairwise_rowEdges_of_grouped (source : State) :
    (Automaton.rowEdges source (builder.layout.row source)).Pairwise
      (Automaton.Precedes edges) := by
  apply Automaton.pairwise_rowEdges
  rw [toList_row_of_grouped inside collected, List.pairwise_map]
  exact pairwise_idxOf_eraseDups _

end Grouped

section Edges

variable {σ : Type u} [DecidableEq σ] [Hashable σ] {numStates : State} {calls : List (Call σ)}

theorem lists_ofCalls (inside : (ofCalls numStates calls).Inside) :
    (ofCalls numStates calls).layout.Lists (addedTransitions calls) (addedEpsilons calls) := by
  have populated := populated_ofCalls numStates calls
  have mentioned := (inside_iff populated).mp inside
  have collected : (ofCalls numStates calls).labelled =
      grouped ((addedTransitions calls).map keyed) := by
    rw [ofCalls_eq]
  have wellFormed := wellFormed_layout populated inside
  constructor
  case mem_transitions_iff =>
    rintro ⟨source, symbol, destination⟩
    rw [Automaton.mem_transitions_iff wellFormed.rows_bounded,
      mem_destinations_layout_iff populated inside, hasTransition_ofCalls_iff]
  case nodup_transitions => exact Automaton.nodup_transitions wellFormed.rows_bounded
  case pairwise_transitions =>
    exact Automaton.pairwise_transitions wellFormed.rows_bounded
      (pairwise_rowEdges_of_grouped mentioned collected) fun _ _ => Or.inl
  case mem_epsilonTransitions_iff =>
    rintro ⟨source, destination⟩
    rw [Automaton.mem_epsilonTransitions_iff wellFormed.epsilons_bounded,
      mem_epsilonsFrom_layout_iff populated inside, hasEpsilon_ofCalls_iff]
  case nodup_epsilonTransitions =>
    exact Automaton.nodup_epsilonTransitions wellFormed.epsilons_bounded
  case pairwise_epsilonTransitions =>
    exact Automaton.pairwise_epsilonTransitions wellFormed.epsilons_bounded
  case toList_row => exact toList_row_of_grouped mentioned collected
  case rowEdges_row =>
    exact fun source => (Automaton.filter_transitions wellFormed.rows_bounded source).symm
  case row_of_le => exact fun source => wellFormed.row_of_le
  case toList_alphabet => exact wellFormed.toList_alphabet

/-! ## Declarations of the universe -/

/-- The operations that do not declare the universe. -/
def undeclaring (calls : List (Call σ)) : List (Call σ) :=
  calls.filter fun call => call.numStates?.isNone

/-- Apart from the universe, what is collected does not depend on the declarations. -/
theorem setNumStates_ofCalls (numStates size : State) (calls : List (Call σ)) :
    (ofCalls numStates calls).setNumStates size =
      (ofCalls 0 (undeclaring calls)).setNumStates size := by
  have general : ∀ builder other : Builder σ,
      builder.setNumStates size = other.setNumStates size →
      (calls.foldl Call.apply builder).setNumStates size =
        ((undeclaring calls).foldl Call.apply other).setNumStates size := by
    induction calls with
    | nil => exact fun builder other same => same
    | cons call rest induction =>
        intro builder other same
        cases call with
        | setNumStates numStates => exact induction _ _ same
        | setInitial state => exact induction _ _ (congrArg (·.setInitial state) same)
        | addFinal state => exact induction _ _ (congrArg (·.addFinal state) same)
        | addFinals states => exact induction _ _ (congrArg (·.addFinals states) same)
        | addTransition source symbol destination =>
            exact induction _ _ (congrArg (·.addTransition source symbol destination) same)
        | addEpsilon source destination =>
            exact induction _ _ (congrArg (·.addEpsilon source destination) same)
  exact general _ _ rfl

theorem setNumStates_declared (numStates : State) (calls : List (Call σ)) :
    (ofCalls numStates calls).setNumStates (declared numStates calls) =
      ofCalls numStates calls := by
  rw [ofCalls_eq]
  rfl

/-- Operations that differ only in how they declare the same universe collect the same. -/
theorem ofCalls_eq_of_undeclaring
    {otherStates : State}
    {others : List (Call σ)}
    (sameUniverse : declared otherStates others = declared numStates calls)
    (sameParts : undeclaring others = undeclaring calls) :
    ofCalls otherStates others = ofCalls numStates calls := by
  rw [← setNumStates_declared otherStates, ← setNumStates_declared numStates, sameUniverse,
    setNumStates_ofCalls, setNumStates_ofCalls numStates, sameParts]

/-! ## What is built -/

/--
A built automaton holds exactly what was added to it, and the order in which
its edges are listed is that in which they were added.  When the universe was
declared makes no difference.
-/
theorem build_holds_added
    {automaton : Automaton σ}
    (made : (ofCalls numStates calls).build = .ok automaton) :
    automaton.numStates = declared numStates calls ∧
      automaton.initial = chosen calls ∧
      (∀ state, state ∈ automaton.finals ↔ state ∈ addedFinals calls) ∧
      automaton.Lists (addedTransitions calls) (addedEpsilons calls) ∧
      ∀ otherStates others,
        declared otherStates others = declared numStates calls →
        undeclaring others = undeclaring calls →
        (ofCalls otherStates others).build = .ok automaton := by
  rcases build_eq_ok_iff.mp made with ⟨mentioned, rfl⟩
  have inside := (inside_iff (populated_ofCalls numStates calls)).mpr mentioned
  refine ⟨numStates_ofCalls _ _, initial_ofCalls _ _, fun state => mem_finals_ofCalls_iff,
    lists_ofCalls inside, ?_⟩
  intro otherStates others sameUniverse sameParts
  rw [ofCalls_eq_of_undeclaring sameUniverse sameParts, made]

/-- Operations with repeated edges, symbols in different orders and several universes. -/
def scattered : List (Call Bool) :=
  [.addTransition 2 true 0, .setNumStates 1, .addTransition 0 true 2, .addEpsilon 1 2,
    .addTransition 0 false 1, .addTransition 0 true 1, .setInitial 2, .addFinals [2, 0],
    .addTransition 0 true 2, .setInitial 1, .addEpsilon 1 0, .addFinal 2, .setNumStates 3,
    .addTransition 2 false 2]

theorem inside_scattered : (ofCalls 7 scattered).Inside := by
  have size : declared 7 scattered = 3 := rfl
  have initial : chosen scattered = 1 := rfl
  have finals : addedFinals scattered = [2, 0, 2] := rfl
  have transitions : addedTransitions scattered =
      [(2, true, 0), (0, true, 2), (0, false, 1), (0, true, 1), (0, true, 2), (2, false, 2)] :=
    rfl
  have epsilons : addedEpsilons scattered = [(1, 2), (1, 0)] := rfl
  rw [inside_ofCalls_iff, size, initial, finals, transitions, epsilons]
  simp

theorem built_scattered : (ofCalls 7 scattered).layout.Built :=
  ⟨7, scattered, build_of_inside (populated_ofCalls 7 scattered) inside_scattered⟩

theorem build_holds_added_scattered :
    ∃ automaton, (ofCalls 7 scattered).build = .ok automaton ∧
      automaton.numStates = 3 ∧ automaton.initial = 1 ∧
      automaton.Lists
        [(2, true, 0), (0, true, 2), (0, false, 1), (0, true, 1), (0, true, 2), (2, false, 2)]
        [(1, 2), (1, 0)] := by
  have made := build_of_inside (populated_ofCalls 7 scattered) inside_scattered
  rcases build_holds_added made with ⟨numStates, initial, _, lists, _⟩
  exact ⟨_, made, numStates, initial, lists⟩

end Edges

end Builder

end Acceptor
