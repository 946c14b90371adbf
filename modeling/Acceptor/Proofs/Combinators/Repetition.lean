import Acceptor.Proofs.Combinators.Composition

/-!
# The language of a repetition

Repetition succeeds as long as the states of its result can be numbered, and
the language of the result is the closure of the language of the body.  The
body may be any well-formed automaton: edges into the initial state, edges out
of final states and a final initial state do no harm.
-/

namespace Acceptor.Automaton

universe u

open Computability

variable {σ : Type u} [DecidableEq σ] [Hashable σ]

/-- The parts of the repetition of an automaton. -/
def starParts (body : Automaton σ) : Builder σ :=
  (body.copy 0).repeated (body.numStates + 2)

theorem populated_starParts (body : Automaton σ) : body.starParts.Populated :=
  ((((Builder.populated_framed.addEpsilon _ _).addEpsilon _ _).addEpsilons _)
    |>.addTransitions _).addEpsilons _

/-- The epsilon edges that repetition adds. -/
def starSplices (body : Automaton σ) : List (State × State) :=
  let final := body.numStates + 1
  (body.numStates, final) :: (body.numStates, body.initial) ::
    body.finals.toList.flatMap fun state => [(state, final), (state, body.initial)]

theorem mem_starSplices_iff {body : Automaton σ} {source destination : State} :
    (source, destination) ∈ body.starSplices ↔
      (source = body.numStates ∨ source ∈ body.finals) ∧
        (destination = body.numStates + 1 ∨ destination = body.initial) := by
  simp only [starSplices, List.mem_cons, List.mem_flatMap, StateSet.mem_toList, Prod.mk.injEq,
    List.not_mem_nil, or_false]
  constructor
  · rintro (⟨rfl, rfl⟩ | ⟨rfl, rfl⟩ | ⟨state, final, ⟨rfl, rfl⟩ | ⟨rfl, rfl⟩⟩)
    · exact ⟨Or.inl rfl, Or.inl rfl⟩
    · exact ⟨Or.inl rfl, Or.inr rfl⟩
    · exact ⟨Or.inr final, Or.inl rfl⟩
    · exact ⟨Or.inr final, Or.inr rfl⟩
  · rintro ⟨rfl | final, rfl | rfl⟩
    · exact Or.inl ⟨rfl, rfl⟩
    · exact Or.inr (Or.inl ⟨rfl, rfl⟩)
    · exact Or.inr (Or.inr ⟨source, final, Or.inl ⟨rfl, rfl⟩⟩)
    · exact Or.inr (Or.inr ⟨source, final, Or.inr ⟨rfl, rfl⟩⟩)

theorem exists_star
    {body : Automaton σ}
    (wellFormed : body.WellFormed)
    (small : body.numStates.toNat + 2 < 2 ^ 32) :
    ∃ whole, body.star = .ok whole ∧ whole.numStates = body.numStates + 2 ∧
      whole.initial = body.numStates ∧
      whole.Composed [(body, 0)] body.starSplices := by
  have made : body.star = body.starParts.build := rfl
  have numStates : body.starParts.numStates = body.numStates + 2 := by
    simp [starParts, Copy.repeated]
  have initial : body.starParts.initial = body.numStates := by
    simp [starParts, Copy.repeated]
  have count : (body.numStates + 2).toNat = body.numStates.toNat + 2 := by
    rw [UInt32.toNat_add]
    exact Nat.mod_eq_of_lt small
  have behind : body.numStates < body.numStates + 2 ∧
      body.numStates + 1 < body.numStates + 2 := by
    rw [UInt32.lt_iff_toNat_lt, UInt32.lt_iff_toNat_lt, count, UInt32.toNat_add,
      UInt32.toNat_one]
    omega
  rw [made, ← numStates, ← initial]
  apply Builder.exists_composed
  · exact populated_starParts body
  · intro copy member
    rw [List.mem_singleton.mp member]
    exact wellFormed
  · intro copy member
    rw [List.mem_singleton.mp member, numStates, count]
    exact Nat.le_refl _
  · rw [initial, numStates, count]
  · intro state
    simp [starParts, Copy.repeated]
  · intro source symbol destination
    simp [starParts, Copy.repeated]
  · intro source destination
    simp [starParts, Copy.repeated, starSplices, or_assoc, State.add_two_sub_one]
  · rintro ⟨source, destination⟩ splice
    rw [numStates]
    rcases mem_starSplices_iff.mp splice with ⟨sources, destinations⟩
    constructor
    · rcases sources with rfl | final
      · exact behind.1
      · exact UInt32.lt_trans (wellFormed.final_lt source final) behind.1
    · rcases destinations with rfl | rfl
      · exact behind.2
      · exact UInt32.lt_trans wellFormed.initial_lt behind.1

/-- A word of a body and a word of the repetition make a word of the repetition. -/
theorem append_mem_kstar
    {α : Type u}
    {body : Language α}
    {front back : List α}
    (first : front ∈ body)
    (others : back ∈ body∗) :
    front ++ back ∈ body∗ := by
  rcases Language.mem_kstar.mp others with ⟨words, rfl, accepted⟩
  exact Language.mem_kstar.mpr
    ⟨front :: words, rfl, List.forall_mem_cons.mpr ⟨first, accepted⟩⟩

/-- Words of a body, one after the other, are spelled by going back to its beginning. -/
theorem CopiedInto.path_flatten
    {body whole : Automaton σ}
    {outlets : State → Prop}
    (copied : body.CopiedInto whole 0 outlets)
    (again : outlets body.initial)
    {exit : State}
    (leaving : outlets exit)
    {words : List (List σ)}
    (some : words ≠ [])
    (accepted : ∀ word ∈ words, word ∈ body.language) :
    whole.Path body.initial words.flatten exit := by
  induction words with
  | nil => exact absurd rfl some
  | cons first rest induction =>
      have firstAccepted := accepted first (List.mem_cons_self ..)
      rw [← UInt32.add_zero body.initial, List.flatten_cons]
      cases rest with
      | nil => exact copied.path_append firstAccepted leaving (.stay _)
      | cons second rest =>
          exact copied.path_append firstAccepted again
            (induction (List.cons_ne_nil _ _)
              fun word member => accepted word (List.mem_cons_of_mem _ member))

/-- The body is left to the final state or to its own beginning. -/
theorem copied_of_star
    {body whole : Automaton σ}
    (initial : whole.initial = body.numStates)
    (composed : whole.Composed [(body, 0)] body.starSplices) :
    body.CopiedInto whole 0
      fun outlet => outlet = whole.initial + 1 ∨ outlet = body.initial := by
  have member : (body, (0 : State)) ∈ [(body, (0 : State))] := List.mem_singleton_self _
  apply composed.copied member
  · intro other otherMember
    exact Or.inl (List.mem_singleton.mp otherMember)
  · intro source below destination
    have different := composed.add_offset_ne_initial member below
    rw [UInt32.add_zero] at different ⊢
    rw [mem_starSplices_iff, ← initial, or_iff_right different]

/-- The language of a repetition is the closure of the language of its body. -/
theorem language_of_star
    {body whole : Automaton σ}
    (initial : whole.initial = body.numStates)
    (composed : whole.Composed [(body, 0)] body.starSplices) :
    whole.language = body.language∗ := by
  have member : (body, (0 : State)) ∈ [(body, (0 : State))] := List.mem_singleton_self _
  have wellFormed : body.WellFormed := composed.operand _ member
  have copied := copied_of_star initial composed
  have last : ∀ destination, (whole.initial + 1, destination) ∉ body.starSplices := by
    intro destination splice
    rcases (mem_starSplices_iff.mp splice).1 with same | final
    · exact composed.initial_ne_final (initial.trans same.symm)
    · exact composed.add_offset_ne_final member (wellFormed.final_lt _ final)
        (UInt32.add_zero _)
  have leaving : ∀ outlet, (outlet = whole.initial + 1 ∨ outlet = body.initial) →
      (∀ word, whole.Path outlet word (whole.initial + 1) → word ∈ body.language∗) ∨
        (outlet = body.initial + 0 ∧
          ∀ front ∈ body.language, ∀ back ∈ body.language∗,
            front ++ back ∈ body.language∗) := by
    rintro outlet (rfl | rfl)
    · refine Or.inl fun word path => ?_
      rw [composed.eq_nil_of_path_final last path]
      exact Language.nil_mem_kstar _
    · exact Or.inr ⟨(UInt32.add_zero _).symm,
        fun front first back others => append_mem_kstar first others⟩
  ext word
  rw [composed.mem_language_iff]
  constructor
  · rintro ⟨entrance, splice, path⟩
    rcases (mem_starSplices_iff.mp splice).2 with rfl | rfl
    · rw [← initial] at path
      rw [composed.eq_nil_of_path_final last path]
      exact Language.nil_mem_kstar _
    · rw [← UInt32.add_zero body.initial] at path
      rcases copied.exists_append
          (fun inner below => composed.add_offset_ne_final member below)
          leaving wellFormed.initial_lt path with
        ⟨front, back, rfl, accepted, tail⟩
      exact append_mem_kstar (Automaton.mem_language_iff.mpr accepted) tail
  · intro inClosure
    rcases Language.mem_kstar.mp inClosure with ⟨words, rfl, accepted⟩
    by_cases none : words = []
    · refine ⟨whole.initial + 1, mem_starSplices_iff.mpr ⟨Or.inl initial, ?_⟩, ?_⟩
      · rw [initial]
        exact Or.inl rfl
      · rw [none]
        exact .stay _
    · exact ⟨body.initial, mem_starSplices_iff.mpr ⟨Or.inl initial, Or.inr rfl⟩,
        copied.path_flatten (Or.inr rfl) (Or.inl rfl) none accepted⟩

/-- The repetition of an automaton accepts the words of its body any number of times. -/
theorem exists_star_language
    {body : Automaton σ}
    (wellFormed : body.WellFormed)
    (small : body.numStates.toNat + 2 < 2 ^ 32) :
    ∃ whole, body.star = .ok whole ∧ whole.WellFormed ∧
      whole.numStates.toNat = body.numStates.toNat + 2 ∧
      whole.language = body.language∗ := by
  rcases exists_star wellFormed small with ⟨whole, made, numStates, initial, composed⟩
  refine ⟨whole, made, composed.wellFormed, ?_, language_of_star initial composed⟩
  rw [numStates, UInt32.toNat_add]
  exact Nat.mod_eq_of_lt small

end Acceptor.Automaton
