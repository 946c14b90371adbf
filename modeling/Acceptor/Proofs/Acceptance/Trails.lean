import Acceptor.Automaton.Path
import Acceptor.Proofs.Determinization.Correctness

/-!
# Acceptance as a trail of listed edges

The edges of an automaton can be listed, those with a symbol and those without
one.  A trail is a finite sequence of listed edges, of either kind and in any
order, each of which begins where the one before it ends; it spells the symbols
that its edges carry.

The simulation follows sets of states that are closed under epsilon edges, and
gives up when no state is left.  In an automaton that a builder has built it
accepts exactly the words that are spelled by some trail from the initial state
to a final state.  Paths stand between the two: they have the edges of a trail
but follow them through the rows in which the simulation looks them up.
-/

namespace Acceptor

universe u

/-- An edge from a state to a state, with a symbol or without one. -/
structure Edge (σ : Type u) where
  /-- Where the edge begins. -/
  source : State
  /-- The symbol that the edge carries; an epsilon edge carries none. -/
  label : Option σ
  /-- Where the edge ends. -/
  target : State

namespace Edge

variable {σ : Type u}

/-- Edges lead from a state to a state, each beginning where the one before it ends. -/
def Connect (source : State) : List (Edge σ) → State → Prop
  | [], target => source = target
  | edge :: rest, target => edge.source = source ∧ Connect edge.target rest target

/-- The symbols that edges carry, one after the other. -/
def spelled (edges : List (Edge σ)) : List σ :=
  edges.filterMap label

end Edge

namespace Automaton

variable {σ : Type u} [DecidableEq σ] [Hashable σ]

/-- Every listed edge, first those with a symbol and then those without. -/
def edges (automaton : Automaton σ) : List (Edge σ) :=
  automaton.transitions.map (fun (source, symbol, target) => ⟨source, some symbol, target⟩) ++
    automaton.epsilonTransitions.map fun (source, target) => ⟨source, none, target⟩

namespace WellFormed

variable {automaton : Automaton σ} (wellFormed : automaton.WellFormed)

include wellFormed

theorem mem_edges_some_iff {source target : State} {symbol : σ} :
    ⟨source, some symbol, target⟩ ∈ automaton.edges ↔
      target ∈ automaton.destinations source symbol := by
  rw [← mem_transitions_iff wellFormed.rows_bounded]
  simp [edges]

theorem mem_edges_none_iff {source target : State} :
    ⟨source, none, target⟩ ∈ automaton.edges ↔
      target ∈ automaton.epsilonsFrom source := by
  rw [← mem_epsilonTransitions_iff wellFormed.epsilons_bounded]
  simp [edges]

/-- The edges of a path, one after the other, are a trail that spells the same word. -/
theorem exists_trail_of_path {source target : State} {word : List σ}
    (path : automaton.Path source word target) :
    ∃ trail : List (Edge σ), (∀ edge ∈ trail, edge ∈ automaton.edges) ∧
      Edge.Connect source trail target ∧ Edge.spelled trail = word := by
  induction path with
  | stay state => exact ⟨[], by simp, rfl, rfl⟩
  | @epsilon source middle target word edge _ induction =>
      rcases induction with ⟨trail, listed, connected, rfl⟩
      refine ⟨⟨source, none, middle⟩ :: trail, ?_, ⟨rfl, connected⟩, rfl⟩
      exact List.forall_mem_cons.mpr ⟨wellFormed.mem_edges_none_iff.mpr edge, listed⟩
  | @symbol source middle target symbol word edge _ induction =>
      rcases induction with ⟨trail, listed, connected, rfl⟩
      refine ⟨⟨source, some symbol, middle⟩ :: trail, ?_, ⟨rfl, connected⟩, rfl⟩
      exact List.forall_mem_cons.mpr ⟨wellFormed.mem_edges_some_iff.mpr edge, listed⟩

/-- Following the edges of a trail is a path. -/
theorem path_of_trail {trail : List (Edge σ)} {source target : State}
    (listed : ∀ edge ∈ trail, edge ∈ automaton.edges)
    (connected : Edge.Connect source trail target) :
    automaton.Path source (Edge.spelled trail) target := by
  induction trail generalizing source with
  | nil =>
      cases connected
      exact .stay _
  | cons edge rest induction =>
      rcases edge with ⟨start, label, middle⟩
      rcases connected with ⟨rfl, connected⟩
      rcases List.forall_mem_cons.mp listed with ⟨first, listed⟩
      have path := induction listed connected
      cases label with
      | none => exact .epsilon (wellFormed.mem_edges_none_iff.mp first) path
      | some symbol => exact .symbol (wellFormed.mem_edges_some_iff.mp first) path

end WellFormed

/-- A word is accepted exactly when a trail from the initial to a final state spells it. -/
theorem accepts_iff_exists_trail
    {automaton : Automaton σ}
    (built : automaton.Built)
    (word : List σ) :
    automaton.accepts word = true ↔
      ∃ (trail : List (Edge σ)) (final : State),
        (∀ edge ∈ trail, edge ∈ automaton.edges) ∧
          Edge.Connect automaton.initial trail final ∧
          final ∈ automaton.finals ∧
          Edge.spelled trail = word := by
  have wellFormed := built.wellFormed
  rw [accepts_eq_true_iff]
  constructor
  · rintro ⟨final, isFinal, path⟩
    rcases wellFormed.exists_trail_of_path path with ⟨trail, listed, connected, same⟩
    exact ⟨trail, final, listed, connected, isFinal, same⟩
  · rintro ⟨trail, final, listed, connected, isFinal, rfl⟩
    exact ⟨final, isFinal, wellFormed.path_of_trail listed connected⟩

/-- Twice the symbol, with a turn around the epsilon cycle in between. -/
def tangledTrail : List (Edge Bool) :=
  [⟨0, none, 1⟩, ⟨1, some true, 0⟩, ⟨0, none, 1⟩, ⟨1, none, 0⟩, ⟨0, none, 1⟩, ⟨1, some true, 2⟩]

theorem mem_edges_of_mem_tangledTrail :
    ∀ edge ∈ tangledTrail, edge ∈ Builder.tangled.layout.edges := by
  have wellFormed := Builder.built_tangled.wellFormed
  have populated : Builder.tangled.Populated := Builder.populated_ofCalls _ _
  simp only [tangledTrail, List.forall_mem_cons, wellFormed.mem_edges_some_iff,
    wellFormed.mem_edges_none_iff,
    Builder.mem_destinations_layout_iff populated Builder.inside_tangled,
    Builder.mem_epsilonsFrom_layout_iff populated Builder.inside_tangled]
  simp [Builder.tangled, Builder.ofCalls, Builder.Call.apply]

theorem accepts_iff_exists_trail_tangled :
    Builder.tangled.layout.Built ∧ Builder.tangled.layout.accepts [true, true] = true :=
  ⟨Builder.built_tangled, (accepts_iff_exists_trail Builder.built_tangled _).mpr
    ⟨tangledTrail, 2, mem_edges_of_mem_tangledTrail, ⟨rfl, rfl, rfl, rfl, rfl, rfl, rfl⟩,
      by decide, rfl⟩⟩

end Automaton

end Acceptor
