import Acceptor.Automaton.Closure

/-!
# Paths

A path leads from one state to another along edges of both kinds; the symbols
on its labelled edges, in order, are the word it spells.  Epsilon edges may
stand anywhere on it.  Paths say what an automaton accepts without any mention
of sets of states, and the simulation finds exactly the words for which there
is a path.
-/

namespace Acceptor

universe u

namespace Automaton

variable {σ : Type u} [DecidableEq σ] [Hashable σ]

/-- A path from a state to a state that spells a word. -/
inductive Path (automaton : Automaton σ) : State → List σ → State → Prop where
  /-- The path without edges. -/
  | stay (state : State) : Path automaton state [] state
  /-- An epsilon edge followed by a path. -/
  | epsilon {source middle target : State} {word : List σ}
      (edge : middle ∈ automaton.epsilonsFrom source)
      (rest : Path automaton middle word target) : Path automaton source word target
  /-- A labelled edge followed by a path. -/
  | symbol {source middle target : State} {symbol : σ} {word : List σ}
      (edge : middle ∈ automaton.destinations source symbol)
      (rest : Path automaton middle word target) :
      Path automaton source (symbol :: word) target

namespace Path

variable {automaton : Automaton σ}

theorem ofReaches {source target : State}
    (path : Reaches automaton.epsilonsFrom source target) :
    automaton.Path source [] target := by
  induction path with
  | refl state => exact .stay state
  | step edge _ induction => exact .epsilon edge induction

theorem append {source middle target : State} {first second : List σ}
    (before : automaton.Path source first middle)
    (after : automaton.Path middle second target) :
    automaton.Path source (first ++ second) target := by
  induction before with
  | stay => exact after
  | epsilon edge _ induction => exact .epsilon edge (induction after)
  | symbol edge _ induction => exact .symbol edge (induction after)

/-- A path that spells nothing consists of epsilon edges. -/
theorem nil_iff {source target : State} :
    automaton.Path source [] target ↔ Reaches automaton.epsilonsFrom source target := by
  constructor
  · intro path
    generalize spelled : ([] : List σ) = word at path
    induction path with
    | stay state => exact .refl state
    | epsilon edge _ induction => exact .step edge (induction spelled)
    | symbol => cases spelled
  · exact ofReaches

/-- A path that spells a symbol first goes through an edge that carries it. -/
theorem cons_iff {source target : State} {symbol : σ} {word : List σ} :
    automaton.Path source (symbol :: word) target ↔
      ∃ before, Reaches automaton.epsilonsFrom source before ∧
        ∃ after ∈ automaton.destinations before symbol,
          automaton.Path after word target := by
  constructor
  · intro path
    generalize spelled : symbol :: word = whole at path
    induction path with
    | stay => cases spelled
    | epsilon edge _ induction =>
        obtain ⟨before, reached, found⟩ := induction spelled
        exact ⟨before, .step edge reached, found⟩
    | symbol edge rest =>
        cases spelled
        exact ⟨_, .refl _, _, edge, rest⟩
  · rintro ⟨before, reached, after, edge, rest⟩
    exact (ofReaches reached).append (.symbol edge rest)

theorem append_iff {source target : State} {first second : List σ} :
    automaton.Path source (first ++ second) target ↔
      ∃ middle, automaton.Path source first middle ∧ automaton.Path middle second target := by
  constructor
  · intro path
    induction first generalizing source with
    | nil => exact ⟨source, .stay source, path⟩
    | cons symbol word induction =>
        rw [List.cons_append, cons_iff] at path
        obtain ⟨before, reached, after, edge, rest⟩ := path
        obtain ⟨middle, front, back⟩ := induction rest
        exact ⟨middle, cons_iff.mpr ⟨before, reached, after, edge, front⟩, back⟩
  · rintro ⟨middle, front, back⟩
    exact front.append back

end Path

/-- The set of states in which the runs from a set can be after a word. -/
def moveAll (automaton : Automaton σ) (states : StateSet) (word : List σ) : StateSet :=
  word.foldl automaton.move states

/-- The runs from a closed set are after a word where the paths from its members lead. -/
theorem mem_moveAll_iff {automaton : Automaton σ} {states : StateSet} {word : List σ}
    {target : State} :
    target ∈ automaton.moveAll (automaton.epsilonClosure states) word ↔
      ∃ source ∈ states, automaton.Path source word target := by
  induction word generalizing states with
  | nil =>
      rw [moveAll, List.foldl_nil, mem_epsilonClosure_iff]
      simp only [Path.nil_iff]
  | cons symbol word induction =>
      have unfolded : automaton.moveAll (automaton.epsilonClosure states) (symbol :: word) =
          automaton.moveAll (automaton.epsilonClosure
            (automaton.step (automaton.epsilonClosure states) symbol)) word := rfl
      rw [unfolded, induction]
      constructor
      · rintro ⟨middle, member, rest⟩
        obtain ⟨before, beforeMember, edge⟩ := mem_step_iff.mp member
        obtain ⟨source, sourceMember, reached⟩ := mem_epsilonClosure_iff.mp beforeMember
        exact ⟨source, sourceMember, Path.cons_iff.mpr ⟨before, reached, middle, edge, rest⟩⟩
      · rintro ⟨source, sourceMember, path⟩
        obtain ⟨before, reached, middle, edge, rest⟩ := Path.cons_iff.mp path
        exact ⟨middle, mem_step_iff.mpr
          ⟨before, mem_epsilonClosure_iff.mpr ⟨source, sourceMember, reached⟩, edge⟩, rest⟩

/-- The runs from the initial state are after a word where its paths lead. -/
theorem mem_moveAll_initial_iff {automaton : Automaton σ} {word : List σ} {state : State} :
    state ∈ automaton.moveAll (automaton.epsilonClosureOf automaton.initial) word ↔
      automaton.Path automaton.initial word state := by
  rw [epsilonClosureOf, mem_moveAll_iff]
  simp only [StateSet.mem_singleton, exists_eq_left]

@[simp]
theorem moveAll_empty (automaton : Automaton σ) (word : List σ) :
    automaton.moveAll ∅ word = ∅ := by
  refine StateSet.eq_empty_iff.mpr fun state member => ?_
  rw [← automaton.epsilonClosure_empty, mem_moveAll_iff] at member
  obtain ⟨source, sourceMember, _⟩ := member
  exact StateSet.not_mem_empty source sourceMember

/-- Giving up when no run is left does not change the answer. -/
theorem acceptsFrom_eq_intersects (automaton : Automaton σ) (states : StateSet)
    (word : List σ) :
    automaton.acceptsFrom states word =
      (automaton.moveAll states word).intersects automaton.finals := by
  induction word generalizing states with
  | nil => rfl
  | cons symbol word induction =>
      unfold acceptsFrom
      split
      · next isEmpty =>
          rw [StateSet.isEmpty_eq_true_iff.mp isEmpty, moveAll_empty]
          rfl
      · rw [induction]
        rfl

/-- Accepting a word means having a path from the initial state to a final one. -/
theorem accepts_eq_true_iff {automaton : Automaton σ} {word : List σ} :
    automaton.accepts word = true ↔
      ∃ final ∈ automaton.finals, automaton.Path automaton.initial word final := by
  rw [accepts, acceptsFrom_eq_intersects, StateSet.intersects_eq_true_iff, epsilonClosureOf]
  constructor
  · rintro ⟨final, member, isFinal⟩
    obtain ⟨source, sourceMember, path⟩ := mem_moveAll_iff.mp member
    rw [StateSet.mem_singleton.mp sourceMember] at path
    exact ⟨final, isFinal, path⟩
  · rintro ⟨final, isFinal, path⟩
    exact ⟨final, mem_moveAll_iff.mpr ⟨_, StateSet.mem_singleton.mpr rfl, path⟩, isFinal⟩

end Automaton

end Acceptor
