import Acceptor.Proofs.Builder.Edges

/-!
# Automata that come from a builder

An automaton is well formed when it has one row and one epsilon set for each
of its states, when all its states and edges lie in its universe, and when no
row lists a symbol without destinations.  Whatever sequence of operations a
builder went through, the automaton that it builds is well formed, and it has
exactly the edges that were collected.
-/

namespace Acceptor

universe u

variable {σ : Type u} [DecidableEq σ] [Hashable σ]

namespace Automaton

/-- The tables of an automaton agree with its universe. -/
structure WellFormed (automaton : Automaton σ) : Prop where
  size_rows : automaton.rows.size = automaton.numStates.toNat
  size_epsilons : automaton.epsilons.size = automaton.numStates.toNat
  initial_lt : automaton.initial < automaton.numStates
  final_lt : ∀ state ∈ automaton.finals, state < automaton.numStates
  destination_lt : ∀ source symbol,
    ∀ state ∈ automaton.destinations source symbol, state < automaton.numStates
  epsilon_lt : ∀ source,
    ∀ state ∈ automaton.epsilonsFrom source, state < automaton.numStates
  group_ne_empty : ∀ source,
    ∀ entry ∈ (automaton.row source).toList, entry.2 ≠ ∅

namespace WellFormed

variable {automaton : Automaton σ}

theorem rows_bounded (wellFormed : automaton.WellFormed) :
    automaton.rows.size ≤ UInt32.size := by
  rw [wellFormed.size_rows]
  exact Nat.le_of_lt automaton.numStates.toNat_lt

theorem epsilons_bounded (wellFormed : automaton.WellFormed) :
    automaton.epsilons.size ≤ UInt32.size := by
  rw [wellFormed.size_epsilons]
  exact Nat.le_of_lt automaton.numStates.toNat_lt

/-- A number that is not a state has no labelled edges. -/
theorem row_of_le (wellFormed : automaton.WellFormed)
    {source : State}
    (outside : automaton.numStates ≤ source) :
    automaton.row source = .empty := by
  have beyond : automaton.rows.size ≤ source.toNat := by
    rw [wellFormed.size_rows]
    exact UInt32.le_iff_toNat_le.mp outside
  rw [row, Array.getD_eq_getD_getElem?, Array.getElem?_eq_none beyond, Option.getD_none]

theorem exists_row_of_mem (wellFormed : automaton.WellFormed)
    {row : OrderedMap σ StateSet}
    (member : row ∈ automaton.rows.toList) :
    ∃ source, automaton.row source = row := by
  rcases List.mem_iff_getElem?.mp member with ⟨index, found⟩
  rw [Array.getElem?_toList] at found
  have below := (Array.getElem?_eq_some_iff.mp found).1
  refine ⟨UInt32.ofNat index, ?_⟩
  rw [Automaton.row, UInt32.toNat_ofNat_of_lt' (Nat.lt_of_lt_of_le below wellFormed.rows_bounded),
    Array.getD_eq_getD_getElem?, found, Option.getD_some]

theorem source_lt_of_destination (wellFormed : automaton.WellFormed)
    {source destination : State} {symbol : σ}
    (edge : destination ∈ automaton.destinations source symbol) :
    source < automaton.numStates := by
  apply UInt32.not_le.mp
  intro outside
  rw [destinations, wellFormed.row_of_le outside, OrderedMap.get?_empty] at edge
  exact StateSet.not_mem_empty destination edge

theorem source_lt_of_epsilon (wellFormed : automaton.WellFormed)
    {source destination : State}
    (edge : destination ∈ automaton.epsilonsFrom source) :
    source < automaton.numStates := by
  apply UInt32.lt_iff_toNat_lt.mpr
  rw [← wellFormed.size_epsilons]
  apply Nat.lt_of_not_le
  intro outside
  rw [epsilonsFrom, Array.getD_eq_getD_getElem?, Array.getElem?_eq_none outside] at edge
  exact StateSet.not_mem_empty destination edge

end WellFormed

/-- In a table with at most as many rows as there are states, each row has its own source. -/
theorem mem_zipIdx_ofNat_iff {α : Type u} {table : Array α}
    (bounded : table.size ≤ UInt32.size) {source : State} {value : α} :
    (∃ index, (value, index) ∈ table.toList.zipIdx ∧
      UInt32.ofNat index = source) ↔
      table[source.toNat]? = some value := by
  constructor
  · rintro ⟨index, member, rfl⟩
    have found : table[index]? = some value := by
      simpa using List.mem_zipIdx_iff_getElem?.mp member
    have below := (Array.getElem?_eq_some_iff.mp found).1
    rw [UInt32.toNat_ofNat_of_lt' (Nat.lt_of_lt_of_le below bounded)]
    exact found
  · intro found
    refine ⟨source.toNat, ?_, UInt32.ofNat_toNat⟩
    apply List.mem_zipIdx_iff_getElem?.mpr
    simpa using found

theorem mem_rowEdges_iff {source start stop : State} {symbol : σ}
    {row : OrderedMap σ StateSet} :
    (start, symbol, stop) ∈ rowEdges source row ↔
      source = start ∧
        ∃ group, (symbol, group) ∈ row.toList ∧ stop ∈ group := by
  simp only [rowEdges, List.mem_flatMap, List.mem_map, StateSet.mem_toList,
    Prod.mk.injEq, Prod.exists]
  constructor
  · rintro ⟨label, group, entry, state, member, same, rfl, rfl⟩
    exact ⟨same, group, entry, member⟩
  · rintro ⟨same, group, entry, member⟩
    exact ⟨symbol, group, entry, stop, member, same, rfl, rfl⟩

/-- The labelled edges that are listed are those that can be followed. -/
theorem mem_transitions_iff {automaton : Automaton σ}
    (bounded : automaton.rows.size ≤ UInt32.size)
    {source destination : State} {symbol : σ} :
    (source, symbol, destination) ∈ automaton.transitions ↔
      destination ∈ automaton.destinations source symbol := by
  rw [mem_destinations_iff]
  constructor
  · intro listed
    rcases List.mem_flatMap.mp listed with ⟨⟨row, index⟩, member, edge⟩
    rcases mem_rowEdges_iff.mp edge with ⟨same, group, entry, present⟩
    have found := (mem_zipIdx_ofNat_iff bounded).mp ⟨index, member, same⟩
    refine ⟨group, ?_, present⟩
    rw [Automaton.row, Array.getD_eq_getD_getElem?, found]
    exact entry
  · rintro ⟨group, entry, present⟩
    rw [row, Array.getD_eq_getD_getElem?] at entry
    cases found : automaton.rows[source.toNat]? with
    | none =>
        rw [found] at entry
        simp at entry
    | some row =>
        rw [found] at entry
        rcases (mem_zipIdx_ofNat_iff bounded).mpr found with ⟨index, member, same⟩
        exact List.mem_flatMap.mpr
          ⟨(row, index), member, mem_rowEdges_iff.mpr ⟨same, group, entry, present⟩⟩

/-- The epsilon edges that are listed are those that can be followed. -/
theorem mem_epsilonTransitions_iff {automaton : Automaton σ}
    (bounded : automaton.epsilons.size ≤ UInt32.size)
    {source destination : State} :
    (source, destination) ∈ automaton.epsilonTransitions ↔
      destination ∈ automaton.epsilonsFrom source := by
  rw [epsilonsFrom, Array.getD_eq_getD_getElem?]
  constructor
  · intro listed
    rcases List.mem_flatMap.mp listed with ⟨⟨group, index⟩, member, edge⟩
    rcases List.mem_map.mp edge with ⟨state, present, same⟩
    cases same
    rw [(mem_zipIdx_ofNat_iff bounded).mp ⟨index, member, rfl⟩]
    exact present
  · intro present
    cases found : automaton.epsilons[source.toNat]? with
    | none =>
        rw [found] at present
        exact absurd present (StateSet.not_mem_empty destination)
    | some group =>
        rw [found] at present
        rcases (mem_zipIdx_ofNat_iff bounded).mpr found with ⟨index, member, rfl⟩
        exact List.mem_flatMap.mpr
          ⟨(group, index), member, List.mem_map.mpr ⟨destination, present, rfl⟩⟩

end Automaton

/-! ## The automaton that a builder lays out -/

namespace Builder

theorem size_rows (builder : Builder σ) :
    builder.layout.rows.size = builder.numStates.toNat := by
  have general : ∀ (entries : List ((State × σ) × StateSet))
      (rows : Array (OrderedMap σ StateSet)),
      (entries.foldl (fun rows entry =>
        rows.modify entry.1.1.toNat (·.insert entry.1.2 entry.2)) rows).size =
      rows.size := by
    intro entries
    induction entries with
    | nil => exact fun rows => rfl
    | cons entry rest induction =>
        intro rows
        rw [List.foldl_cons, induction, Array.size_modify]
  exact (general _ _).trans Array.size_replicate

theorem size_epsilonRows (builder : Builder σ) :
    builder.layout.epsilons.size = builder.numStates.toNat := by
  have general : ∀ (entries : List (State × StateSet)) (rows : Array StateSet),
      (entries.foldl (fun rows entry =>
        rows.setIfInBounds entry.1.toNat entry.2) rows).size =
      rows.size := by
    intro entries
    induction entries with
    | nil => exact fun rows => rfl
    | cons entry rest induction =>
        intro rows
        rw [List.foldl_cons, induction, Array.size_setIfInBounds]
  exact (general _ _).trans Array.size_replicate

variable {builder : Builder σ}

theorem mem_row_layout_iff (populated : builder.Populated) (inside : builder.Inside)
    {source : State} {symbol : σ} {group : StateSet} :
    (symbol, group) ∈ (builder.layout.row source).toList ↔
      ((source, symbol), group) ∈ builder.labelled.toList := by
  rw [toList_row_layout ((inside_iff populated).mp inside)]
  constructor
  · intro kept
    rcases List.mem_filterMap.mp kept with ⟨⟨⟨start, label⟩, states⟩, member, same⟩
    unfold keptBy at same
    split at same
    · next equal =>
        cases same
        cases equal
        exact member
    · cases same
  · intro member
    exact List.mem_filterMap.mpr ⟨_, member, if_pos rfl⟩

/-- The labelled edges that are laid out are those that were collected. -/
theorem mem_destinations_layout_iff (populated : builder.Populated)
    (inside : builder.Inside) {source destination : State} {symbol : σ} :
    destination ∈ builder.layout.destinations source symbol ↔
      builder.HasTransition source symbol destination := by
  rw [Automaton.mem_destinations_iff, HasTransition, Automaton.mem_group_iff]
  simp only [mem_row_layout_iff populated inside]

/-- The epsilon edges that are laid out are those that were collected. -/
theorem mem_epsilonsFrom_layout_iff (populated : builder.Populated)
    (inside : builder.Inside) {source destination : State} :
    destination ∈ builder.layout.epsilonsFrom source ↔
      builder.HasEpsilon source destination := by
  rw [epsilonsFrom_layout ((inside_iff populated).mp inside), HasEpsilon]

theorem wellFormed_layout (populated : builder.Populated) (inside : builder.Inside) :
    builder.layout.WellFormed where
  size_rows := builder.size_rows
  size_epsilons := builder.size_epsilonRows
  initial_lt := inside.initial
  final_lt := inside.finals
  destination_lt source symbol state edge :=
    (inside.transitions source symbol state
      ((mem_destinations_layout_iff populated inside).mp edge)).2
  epsilon_lt source state edge :=
    (inside.epsilons source state
      ((mem_epsilonsFrom_layout_iff populated inside).mp edge)).2
  group_ne_empty source entry member :=
    populated.labelled ((source, entry.1), entry.2)
      ((mem_row_layout_iff populated inside).mp member)

/-! ## Sequences of operations -/

/-- An operation on a builder. -/
inductive Call (σ : Type u) where
  | setNumStates (numStates : State)
  | setInitial (state : State)
  | addFinal (state : State)
  | addFinals (states : List State)
  | addTransition (source : State) (symbol : σ) (destination : State)
  | addEpsilon (source destination : State)

/-- The builder after an operation. -/
def Call.apply (builder : Builder σ) : Call σ → Builder σ
  | setNumStates numStates => builder.setNumStates numStates
  | setInitial state => builder.setInitial state
  | addFinal state => builder.addFinal state
  | addFinals states => builder.addFinals states
  | addTransition source symbol destination =>
      builder.addTransition source symbol destination
  | addEpsilon source destination => builder.addEpsilon source destination

/-- A new builder after a sequence of operations. -/
def ofCalls (numStates : State) (calls : List (Call σ)) : Builder σ :=
  calls.foldl Call.apply (.new numStates)

theorem Populated.apply (populated : builder.Populated) (call : Call σ) :
    (call.apply builder).Populated := by
  cases call with
  | setNumStates numStates => exact populated.setNumStates numStates
  | setInitial state => exact populated.setInitial state
  | addFinal state => exact populated.addFinal state
  | addFinals states => exact populated.addFinals states
  | addTransition source symbol destination =>
      exact populated.addTransition source symbol destination
  | addEpsilon source destination => exact populated.addEpsilon source destination

theorem populated_ofCalls (numStates : State) (calls : List (Call σ)) :
    (ofCalls numStates calls).Populated := by
  have general : ∀ (calls : List (Call σ)) (builder : Builder σ),
      builder.Populated → (calls.foldl Call.apply builder).Populated := by
    intro calls
    induction calls with
    | nil => exact fun builder populated => populated
    | cons call rest induction =>
        exact fun builder populated => induction _ (populated.apply call)
  exact general calls _ (.new numStates)

end Builder

namespace Automaton

/-- Some sequence of operations on a builder ends in building the automaton. -/
def Built (automaton : Automaton σ) : Prop :=
  ∃ numStates calls, (Builder.ofCalls numStates calls).build = .ok automaton

/-- Whatever a builder builds is well formed. -/
theorem Built.wellFormed {automaton : Automaton σ} (built : automaton.Built) :
    automaton.WellFormed := by
  rcases built with ⟨numStates, calls, made⟩
  have populated := Builder.populated_ofCalls numStates calls
  rcases Builder.build_eq_ok_iff.mp made with ⟨mentioned, rfl⟩
  exact Builder.wellFormed_layout populated
    ((Builder.inside_iff populated).mpr mentioned)

end Automaton

end Acceptor
