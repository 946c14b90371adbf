import Acceptor.Proofs.Builder.Additions
import Acceptor.Proofs.Combinators.Pairs
import Acceptor.Proofs.Combinators.Repetition
import Acceptor.Proofs.Determinization.Correctness

/-!
# The words of a construction

What the constructions mean for single words.  A repetition accepts a word
that can be cut into pieces, each of which the body accepts; a concatenation
one that can be cut in two, a word of either operand; and a union what one of
its operands accepts.  Nothing is asked of the operands of a construction
except that a builder has built them, and they may be the same automaton.
-/

namespace Acceptor.Automaton

universe u

open Computability

variable {σ : Type u} [DecidableEq σ] [Hashable σ]

/-- The repetition of an automaton accepts the words that are put together from accepted words. -/
theorem exists_star_accepting
    {body : Automaton σ}
    (built : body.Built)
    (small : body.numStates.toNat + 2 < 2 ^ 32) :
    ∃ whole, body.star = .ok whole ∧
      ∀ word, whole.accepts word = true ↔
        ∃ parts : List (List σ), word = parts.flatten ∧
          ∀ part ∈ parts, body.accepts part = true := by
  rcases exists_star_language built.wellFormed small with ⟨whole, made, _, _, language⟩
  refine ⟨whole, made, fun word => ?_⟩
  have accepted : whole.accepts word = true ↔ word ∈ body.language∗ := by
    rw [← language]
    exact Iff.rfl
  rw [accepted]
  exact Language.mem_kstar

theorem exists_star_accepting_tangled :
    Builder.tangled.layout.Built ∧ Builder.tangled.layout.numStates.toNat + 2 < 2 ^ 32 ∧
      ∃ whole, Builder.tangled.layout.star = .ok whole ∧
        ∀ word, whole.accepts word = true ↔
          ∃ parts : List (List Bool), word = parts.flatten ∧
            ∀ part ∈ parts, Builder.tangled.layout.accepts part = true :=
  ⟨Builder.built_tangled, by decide, exists_star_accepting Builder.built_tangled (by decide)⟩

section Pairs

variable {first second : Automaton σ}

/-- A concatenation accepts the words of the first automaton followed by words of the second. -/
theorem exists_concatenation_accepting
    (firstBuilt : first.Built)
    (secondBuilt : second.Built)
    (small : first.numStates.toNat + second.numStates.toNat + 2 < 2 ^ 32) :
    ∃ whole, first.concatenation second = .ok whole ∧
      ∀ word, whole.accepts word = true ↔
        ∃ front back, word = front ++ back ∧
          first.accepts front = true ∧ second.accepts back = true := by
  rcases exists_concatenation_language firstBuilt.wellFormed secondBuilt.wellFormed small with
    ⟨whole, made, _, _, language⟩
  refine ⟨whole, made, fun word => ?_⟩
  rw [accepts_iff_mem_language, language, Language.mem_mul]
  constructor
  · rintro ⟨front, frontAccepted, back, backAccepted, rfl⟩
    exact ⟨front, back, rfl, frontAccepted, backAccepted⟩
  · rintro ⟨front, back, rfl, frontAccepted, backAccepted⟩
    exact ⟨front, frontAccepted, back, backAccepted, rfl⟩

theorem exists_concatenation_accepting_tangled :
    Builder.tangled.layout.Built ∧
      Builder.tangled.layout.numStates.toNat + Builder.tangled.layout.numStates.toNat + 2 <
        2 ^ 32 ∧
      ∃ whole, Builder.tangled.layout.concatenation Builder.tangled.layout = .ok whole ∧
        ∀ word, whole.accepts word = true ↔
          ∃ front back, word = front ++ back ∧
            Builder.tangled.layout.accepts front = true ∧
            Builder.tangled.layout.accepts back = true :=
  ⟨Builder.built_tangled, by decide,
    exists_concatenation_accepting Builder.built_tangled Builder.built_tangled (by decide)⟩

/-- A union accepts the words of both automata. -/
theorem exists_union_accepting
    (firstBuilt : first.Built)
    (secondBuilt : second.Built)
    (small : first.numStates.toNat + second.numStates.toNat + 2 < 2 ^ 32) :
    ∃ whole, first.union second = .ok whole ∧
      ∀ word, whole.accepts word = true ↔
        first.accepts word = true ∨ second.accepts word = true := by
  rcases exists_union_language firstBuilt.wellFormed secondBuilt.wellFormed small with
    ⟨whole, made, _, _, language⟩
  refine ⟨whole, made, fun word => ?_⟩
  rw [accepts_iff_mem_language, language, Language.mem_add]
  exact Iff.rfl

theorem exists_union_accepting_tangled :
    Builder.tangled.layout.Built ∧ (Builder.ofCalls 7 Builder.scattered).layout.Built ∧
      Builder.tangled.layout.numStates.toNat +
          (Builder.ofCalls 7 Builder.scattered).layout.numStates.toNat + 2 < 2 ^ 32 ∧
      ∃ whole,
        Builder.tangled.layout.union (Builder.ofCalls 7 Builder.scattered).layout =
            .ok whole ∧
          ∀ word, whole.accepts word = true ↔
            Builder.tangled.layout.accepts word = true ∨
              (Builder.ofCalls 7 Builder.scattered).layout.accepts word = true :=
  ⟨Builder.built_tangled, Builder.built_scattered, by decide,
    exists_union_accepting Builder.built_tangled Builder.built_scattered (by decide)⟩

end Pairs

end Acceptor.Automaton
