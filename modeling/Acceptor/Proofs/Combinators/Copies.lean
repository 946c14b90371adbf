import Acceptor.Automaton.Path
import Acceptor.Proofs.Builder.Built
import Mathlib.Computability.Language

/-!
# Copies of automata

A construction copies its operands into a larger automaton.  The edges inside
a copy are those of the operand, and the only way out of it are epsilon edges
from the copies of final states to a few outlets.

Hence a path from the copy to a state outside spells a word that the operand
could spell up to a final state, followed by what is spelled from an outlet.
-/

namespace Acceptor.Automaton

universe u

variable {σ : Type u} [DecidableEq σ] [Hashable σ]

/-- The words that an automaton accepts. -/
def language (automaton : Automaton σ) : Language σ :=
  { word | automaton.accepts word = true }

theorem accepts_iff_mem_language {automaton : Automaton σ} {word : List σ} :
    automaton.accepts word = true ↔ word ∈ automaton.language :=
  Iff.rfl

theorem mem_language_iff {automaton : Automaton σ} {word : List σ} :
    word ∈ automaton.language ↔
      ∃ final ∈ automaton.finals, automaton.Path automaton.initial word final :=
  accepts_eq_true_iff

/-- One automaton is copied past an offset into another and can be left to the outlets. -/
structure CopiedInto
    (part whole : Automaton σ)
    (offset : State)
    (outlets : State → Prop) : Prop where
  wellFormed : part.WellFormed
  destination_iff : ∀ source < part.numStates, ∀ symbol destination,
    destination ∈ whole.destinations (source + offset) symbol ↔
      ∃ inner ∈ part.destinations source symbol, inner + offset = destination
  epsilon_iff : ∀ source < part.numStates, ∀ destination,
    destination ∈ whole.epsilonsFrom (source + offset) ↔
      (∃ inner ∈ part.epsilonsFrom source, inner + offset = destination) ∨
        (source ∈ part.finals ∧ outlets destination)

namespace CopiedInto

variable {part whole : Automaton σ} {offset : State} {outlets : State → Prop}

/-- Paths are copied with the edges they go along. -/
theorem path
    (copied : part.CopiedInto whole offset outlets)
    {source target : State}
    {word : List σ}
    (inner : part.Path source word target) :
    whole.Path (source + offset) word (target + offset) := by
  induction inner with
  | stay state => exact .stay _
  | epsilon edge _ induction =>
      have below := copied.wellFormed.source_lt_of_epsilon edge
      exact .epsilon
        ((copied.epsilon_iff _ below _).mpr (Or.inl ⟨_, edge, rfl⟩)) induction
  | symbol edge _ induction =>
      have below := copied.wellFormed.source_lt_of_destination edge
      exact .symbol
        ((copied.destination_iff _ below _ _).mpr ⟨_, edge, rfl⟩) induction

/-- Whatever can be spelled from an outlet can be spelled after a word of the operand. -/
theorem path_append
    (copied : part.CopiedInto whole offset outlets)
    {outlet target : State}
    {front back : List σ}
    (accepted : front ∈ part.language)
    (leaving : outlets outlet)
    (outer : whole.Path outlet back target) :
    whole.Path (part.initial + offset) (front ++ back) target := by
  rcases mem_language_iff.mp accepted with ⟨final, isFinal, inner⟩
  have below := copied.wellFormed.final_lt final isFinal
  have edge := (copied.epsilon_iff final below outlet).mpr (Or.inr ⟨isFinal, leaving⟩)
  exact (copied.path inner).append (.epsilon edge outer)

/--
A path from a copy to a state outside spells a word of the operand, followed
by a word that can be spelled from an outlet.  An outlet may lead back to the
beginning of the copy, provided that words of the operand may be put before
the words that are spelled from an outlet.
-/
theorem exists_append
    (copied : part.CopiedInto whole offset outlets)
    {target : State}
    (outside : ∀ inner < part.numStates, inner + offset ≠ target)
    {tails : Language σ}
    (leaving : ∀ outlet, outlets outlet →
      (∀ word, whole.Path outlet word target → word ∈ tails) ∨
        (outlet = part.initial + offset ∧
          ∀ front ∈ part.language, ∀ back ∈ tails, front ++ back ∈ tails))
    {source : State}
    (below : source < part.numStates)
    {word : List σ}
    (path : whole.Path (source + offset) word target) :
    ∃ front back, word = front ++ back ∧
      (∃ final ∈ part.finals, part.Path source front final) ∧ back ∈ tails := by
  generalize start : source + offset = first at path
  -- What follows an outlet is a shorter path, also when the outlet leads back into the copy.
  induction path generalizing source with
  | stay state => exact absurd start (outside source below)
  | symbol edge rest induction =>
      rw [← start] at edge
      rcases (copied.destination_iff source below _ _).mp edge with ⟨inner, innerEdge, same⟩
      have innerBelow := copied.wellFormed.destination_lt _ _ _ innerEdge
      rcases induction outside leaving innerBelow same with
        ⟨front, back, rfl, ⟨final, isFinal, path⟩, tail⟩
      exact ⟨_ :: front, back, rfl, ⟨final, isFinal, .symbol innerEdge path⟩, tail⟩
  | epsilon edge rest induction =>
      rw [← start] at edge
      rcases (copied.epsilon_iff source below _).mp edge with
        ⟨inner, innerEdge, same⟩ | ⟨isFinal, outlet⟩
      · have innerBelow := copied.wellFormed.epsilon_lt _ _ innerEdge
        rcases induction outside leaving innerBelow same with
          ⟨front, back, rfl, ⟨final, isFinal, path⟩, tail⟩
        exact ⟨front, back, rfl, ⟨final, isFinal, .epsilon innerEdge path⟩, tail⟩
      · refine ⟨[], _, rfl, ⟨source, isFinal, .stay source⟩, ?_⟩
        rcases leaving _ outlet with leads | ⟨same, closed⟩
        · exact leads _ rest
        · rcases induction outside leaving copied.wellFormed.initial_lt same.symm with
            ⟨front, back, rfl, accepted, tail⟩
          exact closed front (mem_language_iff.mpr accepted) back tail

end CopiedInto

/-- The words that lead from one state to another. -/
def between (automaton : Automaton σ) (source target : State) : Language σ :=
  { word | automaton.Path source word target }

/-- Through a copy with one outlet lead the words of the operand, followed by others. -/
theorem CopiedInto.between_eq
    {part whole : Automaton σ}
    {offset outlet target : State}
    (copied : part.CopiedInto whole offset (· = outlet))
    (outside : ∀ inner < part.numStates, inner + offset ≠ target) :
    whole.between (part.initial + offset) target =
      part.language * whole.between outlet target := by
  ext word
  constructor
  · intro path
    have leaving : ∀ other, other = outlet →
        (∀ word, whole.Path other word target → word ∈ whole.between outlet target) ∨
          (other = part.initial + offset ∧ ∀ front ∈ part.language,
            ∀ back ∈ whole.between outlet target,
              front ++ back ∈ whole.between outlet target) := by
      rintro other rfl
      exact Or.inl fun word path => path
    rcases copied.exists_append outside leaving copied.wellFormed.initial_lt path with
      ⟨front, back, rfl, accepted, tail⟩
    exact Language.append_mem_mul (mem_language_iff.mpr accepted) tail
  · intro divided
    rcases Language.mem_mul.mp divided with ⟨front, accepted, back, tail, rfl⟩
    exact copied.path_append accepted rfl tail

end Acceptor.Automaton
