import Acceptor.Automaton.Emptiness
import Acceptor.Automaton.Layout

/-!
# The edges of a builder

What a builder has collected is described by two relations, one for labelled
and one for epsilon edges.  Each operation adds to at most one of them, and
the automaton that is built has exactly the collected edges.

A builder never holds an edge group without destinations.  Hence building
succeeds as soon as the initial state, the final states and the ends of the
collected edges lie in the declared universe.
-/

namespace Acceptor

universe u v

namespace Builder

variable {σ : Type u} [DecidableEq σ] [Hashable σ]

/-- A labelled edge has been collected. -/
def HasTransition (builder : Builder σ)
    (source : State) (symbol : σ) (destination : State) : Prop :=
  destination ∈ (builder.labelled.get? (source, symbol)).getD ∅

/-- An epsilon edge has been collected. -/
def HasEpsilon (builder : Builder σ) (source destination : State) : Prop :=
  destination ∈ (builder.epsilons.get? source).getD ∅

theorem mem_upsert_group {κ : Type v} [DecidableEq κ] [Hashable κ]
    (groups : OrderedMap κ StateSet) (key other : κ)
    (destination state : State) :
    state ∈ ((groups.upsert key {destination} (·.insert destination)).get?
        other).getD ∅ ↔
      state ∈ (groups.get? other).getD ∅ ∨
        (other = key ∧ state = destination) := by
  rw [OrderedMap.get?_upsert]
  by_cases same : key = other
  · subst same
    simp only [if_true, Option.getD_some, true_and]
    cases groups.get? key with
    | none => simp
    | some group => simp [or_comm]
  · simp [same, Ne.symm same]

/-! ## What the operations collect -/

section Operations

variable {builder : Builder σ} {source destination start stop : State} {symbol label : σ}

@[simp]
theorem hasTransition_new {numStates : State} :
    ¬ (new numStates).HasTransition source symbol destination := by
  simp [HasTransition, new]

@[simp]
theorem hasEpsilon_new {numStates : State} :
    ¬ (new numStates : Builder σ).HasEpsilon source destination := by
  simp [HasEpsilon, new]

@[simp]
theorem hasTransition_setInitial {state : State} :
    (builder.setInitial state).HasTransition source symbol destination ↔
      builder.HasTransition source symbol destination :=
  Iff.rfl

@[simp]
theorem hasEpsilon_setInitial {state : State} :
    (builder.setInitial state).HasEpsilon source destination ↔
      builder.HasEpsilon source destination :=
  Iff.rfl

@[simp]
theorem hasTransition_addFinal {state : State} :
    (builder.addFinal state).HasTransition source symbol destination ↔
      builder.HasTransition source symbol destination :=
  Iff.rfl

@[simp]
theorem hasEpsilon_addFinal {state : State} :
    (builder.addFinal state).HasEpsilon source destination ↔
      builder.HasEpsilon source destination :=
  Iff.rfl

@[simp]
theorem hasTransition_addFinals {states : List State} :
    (builder.addFinals states).HasTransition source symbol destination ↔
      builder.HasTransition source symbol destination :=
  Iff.rfl

@[simp]
theorem hasEpsilon_addFinals {states : List State} :
    (builder.addFinals states).HasEpsilon source destination ↔
      builder.HasEpsilon source destination :=
  Iff.rfl

@[simp]
theorem hasEpsilon_addTransition :
    (builder.addTransition start label stop).HasEpsilon source destination ↔
      builder.HasEpsilon source destination :=
  Iff.rfl

@[simp]
theorem hasTransition_addEpsilon :
    (builder.addEpsilon start stop).HasTransition source symbol destination ↔
      builder.HasTransition source symbol destination :=
  Iff.rfl

@[simp]
theorem hasTransition_addTransition :
    (builder.addTransition start label stop).HasTransition
        source symbol destination ↔
      builder.HasTransition source symbol destination ∨
        (source, symbol, destination) = (start, label, stop) := by
  simp only [HasTransition, addTransition, mem_upsert_group,
    Prod.mk.injEq, and_assoc]

@[simp]
theorem hasEpsilon_addEpsilon :
    (builder.addEpsilon start stop).HasEpsilon source destination ↔
      builder.HasEpsilon source destination ∨
        (source, destination) = (start, stop) := by
  simp only [HasEpsilon, addEpsilon, mem_upsert_group, Prod.mk.injEq]

/-- Adding labelled edges changes nothing else. -/
theorem addTransitions_eq (edges : List (State × σ × State)) :
    builder.addTransitions edges =
      { builder with labelled := (builder.addTransitions edges).labelled } := by
  induction edges generalizing builder with
  | nil => rfl
  | cons edge rest induction =>
      exact induction

/-- Adding epsilon edges changes nothing else. -/
theorem addEpsilons_eq (edges : List (State × State)) :
    builder.addEpsilons edges =
      { builder with epsilons := (builder.addEpsilons edges).epsilons } := by
  induction edges generalizing builder with
  | nil => rfl
  | cons edge rest induction =>
      exact induction

@[simp]
theorem numStates_addEpsilon :
    (builder.addEpsilon start stop).numStates = builder.numStates := rfl

@[simp]
theorem initial_addEpsilon :
    (builder.addEpsilon start stop).initial = builder.initial := rfl

@[simp]
theorem finals_addEpsilon :
    (builder.addEpsilon start stop).finals = builder.finals := rfl

@[simp]
theorem numStates_addTransitions (edges : List (State × σ × State)) :
    (builder.addTransitions edges).numStates = builder.numStates := by
  rw [addTransitions_eq]

@[simp]
theorem initial_addTransitions (edges : List (State × σ × State)) :
    (builder.addTransitions edges).initial = builder.initial := by
  rw [addTransitions_eq]

@[simp]
theorem finals_addTransitions (edges : List (State × σ × State)) :
    (builder.addTransitions edges).finals = builder.finals := by
  rw [addTransitions_eq]

@[simp]
theorem numStates_addEpsilons (edges : List (State × State)) :
    (builder.addEpsilons edges).numStates = builder.numStates := by
  rw [addEpsilons_eq]

@[simp]
theorem initial_addEpsilons (edges : List (State × State)) :
    (builder.addEpsilons edges).initial = builder.initial := by
  rw [addEpsilons_eq]

@[simp]
theorem finals_addEpsilons (edges : List (State × State)) :
    (builder.addEpsilons edges).finals = builder.finals := by
  rw [addEpsilons_eq]

@[simp]
theorem hasTransition_addTransitions {edges : List (State × σ × State)} :
    (builder.addTransitions edges).HasTransition source symbol destination ↔
      builder.HasTransition source symbol destination ∨
        (source, symbol, destination) ∈ edges := by
  induction edges generalizing builder with
  | nil => simp [addTransitions]
  | cons edge rest induction =>
      have unfolded :
          builder.addTransitions (edge :: rest) =
            (builder.addTransition edge.1 edge.2.1 edge.2.2).addTransitions rest :=
        rfl
      rw [unfolded, induction, hasTransition_addTransition]
      simp only [List.mem_cons, or_assoc]

@[simp]
theorem hasEpsilon_addEpsilons {edges : List (State × State)} :
    (builder.addEpsilons edges).HasEpsilon source destination ↔
      builder.HasEpsilon source destination ∨
        (source, destination) ∈ edges := by
  induction edges generalizing builder with
  | nil => simp [addEpsilons]
  | cons edge rest induction =>
      have unfolded :
          builder.addEpsilons (edge :: rest) =
            (builder.addEpsilon edge.1 edge.2).addEpsilons rest :=
        rfl
      rw [unfolded, induction, hasEpsilon_addEpsilon]
      simp only [List.mem_cons, or_assoc]

@[simp]
theorem hasEpsilon_addTransitions {edges : List (State × σ × State)} :
    (builder.addTransitions edges).HasEpsilon source destination ↔
      builder.HasEpsilon source destination := by
  rw [addTransitions_eq]
  rfl

@[simp]
theorem hasTransition_addEpsilons {edges : List (State × State)} :
    (builder.addEpsilons edges).HasTransition source symbol destination ↔
      builder.HasTransition source symbol destination := by
  rw [addEpsilons_eq]
  rfl

end Operations

/-! ## Groups have destinations -/

/-- No edge group is without destinations. -/
structure Populated (builder : Builder σ) : Prop where
  labelled : ∀ entry ∈ builder.labelled.toList, entry.2 ≠ ∅
  epsilons : ∀ entry ∈ builder.epsilons.toList, entry.2 ≠ ∅

theorem populated_upsert {κ : Type v} [DecidableEq κ] [Hashable κ]
    {groups : OrderedMap κ StateSet}
    (populated : ∀ entry ∈ groups.toList, entry.2 ≠ ∅)
    (key : κ) (destination : State) :
    ∀ entry ∈ (groups.upsert key {destination} (·.insert destination)).toList,
      entry.2 ≠ ∅ := by
  intro entry member
  have found := OrderedMap.get?_eq_some_iff.mpr member
  rw [OrderedMap.get?_upsert] at found
  by_cases same : key = entry.1
  · simp only [same, if_true, Option.some.injEq] at found
    rw [← found]
    cases groups.get? entry.1 with
    | none => exact StateSet.ne_empty_of_mem (StateSet.mem_singleton.mpr rfl)
    | some group => exact StateSet.ne_empty_of_mem (StateSet.mem_insert.mpr (Or.inl rfl))
  · rw [if_neg same] at found
    exact populated entry (OrderedMap.get?_eq_some_iff.mp found)

namespace Populated

theorem new (numStates : State) : Populated (.new numStates : Builder σ) where
  labelled := by simp [Builder.new]
  epsilons := by simp [Builder.new]

variable {builder : Builder σ}

theorem setNumStates (populated : builder.Populated) (numStates : State) :
    (builder.setNumStates numStates).Populated :=
  ⟨populated.labelled, populated.epsilons⟩

theorem setInitial (populated : builder.Populated) (state : State) :
    (builder.setInitial state).Populated :=
  ⟨populated.labelled, populated.epsilons⟩

theorem addFinal (populated : builder.Populated) (state : State) :
    (builder.addFinal state).Populated :=
  ⟨populated.labelled, populated.epsilons⟩

theorem addFinals (populated : builder.Populated) (states : List State) :
    (builder.addFinals states).Populated :=
  ⟨populated.labelled, populated.epsilons⟩

theorem addTransition (populated : builder.Populated)
    (source : State) (symbol : σ) (destination : State) :
    (builder.addTransition source symbol destination).Populated where
  labelled := populated_upsert populated.labelled (source, symbol) destination
  epsilons := populated.epsilons

theorem addEpsilon (populated : builder.Populated) (source destination : State) :
    (builder.addEpsilon source destination).Populated where
  labelled := populated.labelled
  epsilons := populated_upsert populated.epsilons source destination

theorem addTransitions (populated : builder.Populated)
    (edges : List (State × σ × State)) :
    (builder.addTransitions edges).Populated := by
  induction edges generalizing builder with
  | nil => exact populated
  | cons edge rest induction =>
      exact induction (populated.addTransition edge.1 edge.2.1 edge.2.2)

theorem addEpsilons (populated : builder.Populated)
    (edges : List (State × State)) :
    (builder.addEpsilons edges).Populated := by
  induction edges generalizing builder with
  | nil => exact populated
  | cons edge rest induction =>
      exact induction (populated.addEpsilon edge.1 edge.2)

end Populated

/-- The initial state, the final states and the ends of the edges are in the universe. -/
structure Inside (builder : Builder σ) : Prop where
  initial : builder.initial < builder.numStates
  finals : ∀ state ∈ builder.finals, state < builder.numStates
  transitions : ∀ source symbol destination,
    builder.HasTransition source symbol destination →
      source < builder.numStates ∧ destination < builder.numStates
  epsilons : ∀ source destination,
    builder.HasEpsilon source destination →
      source < builder.numStates ∧ destination < builder.numStates

/-- With no empty group, all that is mentioned are the final states and the ends of edges. -/
theorem inside_iff {builder : Builder σ} (populated : builder.Populated) :
    builder.Inside ↔
      ∀ state ∈ builder.mentioned, state < builder.numStates := by
  constructor
  · intro inside state mentioned
    rcases mem_mentioned_iff.mp mentioned with
      rfl | final | ⟨entry, member, ends⟩ | ⟨entry, member, ends⟩
    · exact inside.initial
    · exact inside.finals state final
    · have edges : ∀ destination ∈ entry.2,
          builder.HasTransition entry.1.1 entry.1.2 destination :=
        fun destination present => Automaton.mem_group_iff.mpr ⟨entry.2, member, present⟩
      rcases ends with rfl | present
      · rcases StateSet.exists_mem_of_ne_empty (populated.labelled entry member) with
          ⟨destination, present⟩
        exact (inside.transitions _ _ _ (edges destination present)).1
      · exact (inside.transitions _ _ _ (edges state present)).2
    · have edges : ∀ destination ∈ entry.2,
          builder.HasEpsilon entry.1 destination :=
        fun destination present => Automaton.mem_group_iff.mpr ⟨entry.2, member, present⟩
      rcases ends with rfl | present
      · rcases StateSet.exists_mem_of_ne_empty (populated.epsilons entry member) with
          ⟨destination, present⟩
        exact (inside.epsilons _ _ (edges destination present)).1
      · exact (inside.epsilons _ _ (edges state present)).2
  · intro all
    refine ⟨?_, ?_, ?_, ?_⟩
    · exact all _ (mem_mentioned_iff.mpr (Or.inl rfl))
    · intro state final
      exact all state (mem_mentioned_iff.mpr (Or.inr (Or.inl final)))
    · intro source symbol destination edge
      rcases Automaton.mem_group_iff.mp edge with ⟨group, entry, present⟩
      exact ⟨all source (mem_mentioned_iff.mpr
          (Or.inr (Or.inr (Or.inl ⟨_, entry, Or.inl rfl⟩)))),
        all destination (mem_mentioned_iff.mpr
          (Or.inr (Or.inr (Or.inl ⟨_, entry, Or.inr present⟩))))⟩
    · intro source destination edge
      rcases Automaton.mem_group_iff.mp edge with ⟨group, entry, present⟩
      exact ⟨all source (mem_mentioned_iff.mpr
          (Or.inr (Or.inr (Or.inr ⟨_, entry, Or.inl rfl⟩)))),
        all destination (mem_mentioned_iff.mpr
          (Or.inr (Or.inr (Or.inr ⟨_, entry, Or.inr present⟩))))⟩

theorem build_of_inside {builder : Builder σ}
    (populated : builder.Populated) (inside : builder.Inside) :
    builder.build = .ok builder.layout :=
  build_eq_ok_iff.mpr ⟨(inside_iff populated).mp inside, rfl⟩

end Builder

end Acceptor
