import Acceptor.Proofs.Determinization.Correctness
import Acceptor.Proofs.Determinization.Report

/-!
# Exploring under a limit

A limit does not influence what an exploration does as long as it is not
reached.  Two explorations of the same automaton, one without a limit and one
with, go through the same stages, until the one without a limit numbers a
composite state that the limit does not allow.  There the other one is stopped,
with as many composite states as the limit allows: the first ones, in the same
order and each but the very first one reported.

Each stage of the exploration keeps this relation, and so it holds at the end:
with enough room the exploration under a limit ends in the same way, and
otherwise it is stopped.
-/

namespace Acceptor

universe u

namespace Exploration

variable {σ : Type u}

theorem prefix_of_followed
    {before after : Exploration σ}
    {source : State}
    {moves : List (σ × StateSet)}
    (followed : Followed source moves before after) :
    before.composites.toList <+: after.composites.toList := by
  rw [followed.composites]
  exact toList_insertMany_prefix _

/-! ## The same stages under a limit -/

/--
What a stage comes to under a limit, when without one it would lead to the
given exploration.
-/
inductive Limited (limit : Nat) (complete : Exploration σ) :
    Except (StoppedExploration σ) (Exploration σ) → Prop where
  /-- The limit leaves enough room and is without influence. -/
  | finished (few : complete.composites.size ≤ limit) : Limited limit complete (.ok complete)
  /-- The limit is used up before. -/
  | stopped (halted : Exploration σ)
      (full : halted.composites.size = limit)
      (many : limit < complete.composites.size)
      (earlier : halted.composites.toList <+: complete.composites.toList)
      (reported : Reported halted) :
      Limited limit complete (.error { limit, exploration := halted })

variable {limit : Nat}

/-- What is stopped on the way to an exploration is stopped on the way to any later one. -/
theorem Limited.later
    {middle complete : Exploration σ}
    {stopped : StoppedExploration σ}
    (limited : Limited limit middle (.error stopped))
    (growth : middle.composites.toList <+: complete.composites.toList) :
    Limited limit complete (.error stopped) := by
  cases limited with
  | stopped halted full many earlier reported =>
      have larger : middle.composites.size ≤ complete.composites.size := by
        simpa using growth.length_le
      exact .stopped halted full (Nat.lt_of_lt_of_le many larger) (earlier.trans growth) reported

theorem exhausted?_some (limit discovered : Nat) :
    exhausted? (some limit) discovered = if limit ≤ discovered then some limit else none := by
  simp [exhausted?, Option.filter_some]

theorem locate_of_position?_eq_some
    {exploration : Exploration σ}
    {composite : StateSet}
    {index : Nat}
    (known : exploration.composites.position? composite = some index)
    (limit : Option Nat) :
    exploration.locate limit composite = .ok (UInt32.ofNat index, exploration) := by
  unfold locate
  split
  · next other found =>
      rw [known] at found
      cases found
      rfl
  · next fresh =>
      rw [known] at fresh
      cases fresh

/-- A limit makes itself felt when a new composite state would have to be numbered. -/
theorem locate_of_position?_eq_none
    {exploration : Exploration σ}
    {composite : StateSet}
    (fresh : exploration.composites.position? composite = none) :
    ∃ located, located.2.composites.size = exploration.composites.size + 1 ∧
      ∀ limit, exploration.locate limit composite =
        match exhausted? limit exploration.composites.size with
        | some bound => .error { limit := bound, exploration }
        | none => .ok located := by
  refine ⟨(UInt32.ofNat exploration.composites.size,
    { exploration with
      composites := exploration.composites.push composite fresh
      pending := exploration.pending.enqueue
        (UInt32.ofNat exploration.composites.size, composite)
      log := exploration.log.push
        (.composite (UInt32.ofNat exploration.composites.size) composite) }), by simp, ?_⟩
  intro limit
  conv_lhs => unfold locate
  split
  · next found =>
      rw [fresh] at found
      cases found
  · rfl

theorem limited_follow
    {source : State}
    {exploration followed : Exploration σ}
    {move : σ × StateSet}
    (reported : Reported exploration)
    (within : exploration.composites.size ≤ limit)
    (result : exploration.follow none source move = .ok followed) :
    Limited limit followed (exploration.follow (some limit) source move) := by
  have growth := prefix_of_followed (followed_follow result)
  unfold follow at result ⊢
  cases found : exploration.composites.position? move.2 with
  | some index =>
      rw [locate_of_position?_eq_some found] at result ⊢
      cases result
      exact .finished within
  | none =>
      rcases locate_of_position?_eq_none found with ⟨⟨state, located⟩, size, located_eq⟩
      rw [located_eq] at result ⊢
      cases result
      rw [exhausted?_some]
      simp only at size
      -- One more is refused just when as many as are allowed have been numbered.
      by_cases reached : limit ≤ exploration.composites.size
      · rw [if_pos reached]
        have full : exploration.composites.size = limit := Nat.le_antisymm within reached
        refine .stopped exploration full ?_ growth reported
        show limit < located.composites.size
        omega
      · rw [if_neg reached]
        refine .finished ?_
        show located.composites.size ≤ limit
        omega

/--
Under a limit, following one move and then others comes to what following all of
them comes to.
-/
theorem limited_followAll
    {source : State}
    {exploration followed : Exploration σ}
    {moves : List (σ × StateSet)}
    (reported : Reported exploration)
    (within : exploration.composites.size ≤ limit)
    (result : exploration.followAll none source moves = .ok followed) :
    Limited limit followed (exploration.followAll (some limit) source moves) := by
  induction moves generalizing exploration with
  | nil =>
      cases result
      exact .finished within
  | cons move rest induction =>
      unfold followAll at result ⊢
      cases first : exploration.follow none source move with
      | error stopped =>
          rw [first] at result
          cases result
      | ok next =>
          rw [first] at result
          have limited := limited_follow reported within first
          generalize exploration.follow (some limit) source move = outcome at limited ⊢
          cases outcome with
          | error stopped => exact limited.later (prefix_of_followed (followed_followAll result))
          | ok other =>
              cases limited with
              | finished few =>
                  exact induction (reported.followed (followed_follow first)) few result

variable [DecidableEq σ] [Hashable σ] {automaton : Automaton σ}

theorem composites_markFinal
    (automaton : Automaton σ)
    (state : State)
    (composite : StateSet)
    (exploration : Exploration σ) :
    (exploration.markFinal automaton state composite).composites = exploration.composites := by
  rw [markFinal_eq]

section Expand

variable {state : State} {composite : StateSet} {exploration expanded : Exploration σ}

theorem Reported.expand
    {bound : Option Nat}
    (reported : Reported exploration)
    (result : exploration.expand automaton bound state composite = .ok expanded) :
    Reported expanded :=
  (reported.markFinal automaton state composite).followed (followed_followAll result)

theorem prefix_of_expand
    {bound : Option Nat}
    (result : exploration.expand automaton bound state composite = .ok expanded) :
    exploration.composites.toList <+: expanded.composites.toList := by
  rw [← composites_markFinal automaton state composite exploration]
  exact prefix_of_followed (followed_followAll result)

theorem limited_expand
    (reported : Reported exploration)
    (within : exploration.composites.size ≤ limit)
    (result : exploration.expand automaton none state composite = .ok expanded) :
    Limited limit expanded (exploration.expand automaton (some limit) state composite) := by
  refine limited_followAll (reported.markFinal automaton state composite) ?_ result
  rw [composites_markFinal]
  exact within

end Expand

/-! ## To the end -/

theorem run_of_dequeue?_eq_none
    {exploration : Exploration σ}
    (empty : exploration.pending.dequeue? = none)
    (limit : Option Nat) :
    exploration.run automaton limit = .ok exploration := by
  unfold run
  split
  · rfl
  · next dequeued =>
      rw [empty] at dequeued
      cases dequeued

theorem run_of_dequeue?_eq_some
    {exploration : Exploration σ}
    {state : State}
    {composite : StateSet}
    {rest : Std.Queue (State × StateSet)}
    (dequeued : exploration.pending.dequeue? = some ((state, composite), rest))
    (limit : Option Nat) :
    exploration.run automaton limit =
      (expand automaton limit state composite { exploration with pending := rest }).bind
        fun next => next.run automaton limit := by
  conv_lhs => unfold run
  split
  · next empty =>
      rw [dequeued] at empty
      cases empty
  · next found =>
      rw [dequeued] at found
      cases found
      split
      · next expansion =>
          rw [expansion]
          rfl
      · next expansion =>
          rw [expansion]
          rfl

/-- An exploration keeps the composite states that it has numbered. -/
theorem prefix_of_run
    {limit : Option Nat}
    {exploration finished : Exploration σ}
    (result : exploration.run automaton limit = .ok finished) :
    exploration.composites.toList <+: finished.composites.toList := by
  fun_induction Exploration.run automaton limit exploration with
  | case1 exploration empty =>
      cases result
      exact List.prefix_refl _
  | case2 => cases result
  | case3 exploration state composite rest dequeued next expansion induction =>
      have growth := prefix_of_expand expansion
      exact growth.trans (induction result)

/-- What a whole exploration comes to under a limit. -/
theorem limited_run
    {exploration complete : Exploration σ}
    (reported : Reported exploration)
    (within : exploration.composites.size ≤ limit)
    (result : exploration.run automaton none = .ok complete) :
    Limited limit complete (exploration.run automaton (some limit)) := by
  fun_induction Exploration.run automaton none exploration with
  | case1 exploration empty =>
      cases result
      rw [run_of_dequeue?_eq_none empty]
      exact .finished within
  | case2 => cases result
  | case3 exploration state composite rest dequeued next expansion induction =>
      have waiting : Reported { exploration with pending := rest } :=
        ⟨reported.size_pos, reported.log⟩
      have limited := limited_expand waiting within expansion
      rw [run_of_dequeue?_eq_some dequeued]
      generalize expand automaton (some limit) state composite { exploration with pending := rest } =
        outcome at limited ⊢
      cases outcome with
      | error stopped => exact limited.later (prefix_of_run result)
      | ok other =>
          cases limited with
          | finished few => exact induction (waiting.expand expansion) few result

end Exploration

namespace Automaton

variable {σ : Type u} [DecidableEq σ] [Hashable σ] {nfa : Automaton σ}
  {exploration : Exploration σ} {allowed : Nat}

/-- What the exploration from the initial state comes to under a limit that allows this state. -/
theorem limited_explored
    (result : nfa.explored none = .ok exploration)
    (positive : 0 < allowed) :
    Exploration.Limited allowed exploration (nfa.explored (some allowed)) := by
  refine Exploration.limited_run (Exploration.reported_start _) ?_ result
  rw [Exploration.size_composites_start]
  exact positive

theorem determinizeWithLimit_of_pos (positive : 0 < allowed) :
    nfa.determinizeWithLimit (some allowed) =
      match nfa.explored (some allowed) with
      | .error stopped =>
          { log := stopped.exploration.log
            result := .error (.stateLimitExceeded stopped.limit) }
      | .ok exploration =>
          { log := exploration.log.push (.determinized nfa.numStates
              exploration.composites.size exploration.transitions.size)
            result := exploration.assemble.mapError .automaton } := by
  conv_lhs => unfold determinizeWithLimit
  split
  · next bound reached =>
      rw [Exploration.exhausted?_some, if_neg (Nat.not_le_of_lt positive)] at reached
      cases reached
  · rfl

/-- A limit that leaves room for all composite states is without influence. -/
theorem determinizeWithLimit_of_le
    (result : nfa.explored none = .ok exploration)
    (few : exploration.composites.size ≤ allowed) :
    nfa.determinizeWithLimit (some allowed) = nfa.determinizeWithLimit none := by
  have positive : 0 < allowed :=
    Nat.lt_of_lt_of_le (explored_of_result result).size_pos few
  have limited := limited_explored result positive
  have same : nfa.explored (some allowed) = nfa.explored none := by
    rw [result]
    generalize nfa.explored (some allowed) = outcome at limited ⊢
    cases limited with
    | finished _ => rfl
    | stopped _ _ many _ _ => exact absurd few (Nat.not_le_of_lt many)
  rw [determinizeWithLimit_of_pos positive, same]
  rfl

/-- A limit below the number of composite states is reported, and so are the states it allows. -/
theorem determinizeWithLimit_of_lt
    (result : nfa.explored none = .ok exploration)
    (many : allowed < exploration.composites.size) :
    (nfa.determinizeWithLimit (some allowed)).result = .error (.stateLimitExceeded allowed) ∧
      (nfa.determinizeWithLimit (some allowed)).log.toList =
        Exploration.recordsBelow exploration.composites allowed := by
  rcases Nat.eq_zero_or_pos allowed with rfl | positive
  · rw [determinizeWithLimit, Exploration.exhausted?_some, if_pos (Nat.le_refl 0)]
    exact ⟨rfl, rfl⟩
  · have limited := limited_explored result positive
    rw [determinizeWithLimit_of_pos positive]
    generalize nfa.explored (some allowed) = outcome at limited ⊢
    cases limited with
    | finished few => exact absurd few (Nat.not_le_of_lt many)
    | stopped halted full _ earlier reported =>
        refine ⟨rfl, ?_⟩
        rw [reported.log, Exploration.recordsBelow_of_prefix earlier, full]

/--
A limit is an exact threshold: it refuses the deterministic automaton when that
has more states, and changes nothing when it has not.
-/
theorem determinizeWithLimit_threshold
    (nfa : Automaton σ)
    (fit : nfa.CompositesFit) :
    ∃ dfa, nfa.determinize = .ok dfa ∧ 1 ≤ dfa.numStates.toNat ∧
      (∀ limit, (nfa.determinizeWithLimit (some limit)).result =
        if dfa.numStates.toNat ≤ limit then .ok dfa
        else .error (.stateLimitExceeded limit)) ∧
      ∀ limit cause, (nfa.determinizeWithLimit limit).result ≠ .error (.automaton cause) := by
  rcases nfa.exists_explored with ⟨exploration, result, explored⟩
  have bounded : exploration.composites.size < UInt32.size := fit exploration result
  have unlimited := (determinizeWithLimit_none result bounded).1
  have numStates := (Exploration.subsets_layout explored bounded).numStates
  have limited : ∀ limit, (nfa.determinizeWithLimit (some limit)).result =
      if exploration.builder.layout.numStates.toNat ≤ limit then
        .ok exploration.builder.layout
      else .error (.stateLimitExceeded limit) := by
    intro limit
    rw [numStates]
    split
    · next few => rw [determinizeWithLimit_of_le result few, unlimited]
    · next many => exact (determinizeWithLimit_of_lt result (Nat.lt_of_not_le many)).1
  refine ⟨exploration.builder.layout, unlimited, ?_, limited, ?_⟩
  · rw [numStates]
    exact explored.size_pos
  · intro limit cause refused
    cases limit with
    | none =>
        rw [unlimited] at refused
        cases refused
    | some limit =>
        rw [limited] at refused
        split at refused <;> cases refused

theorem determinizeWithLimit_threshold_tangled :
    Builder.tangled.layout.CompositesFit ∧
      ∃ dfa, Builder.tangled.layout.determinize = .ok dfa ∧ 1 ≤ dfa.numStates.toNat ∧
        (∀ limit, (Builder.tangled.layout.determinizeWithLimit (some limit)).result =
          if dfa.numStates.toNat ≤ limit then .ok dfa
          else .error (.stateLimitExceeded limit)) ∧
        ∀ limit cause, (Builder.tangled.layout.determinizeWithLimit limit).result ≠
          .error (.automaton cause) :=
  ⟨Builder.compositesFit_tangled, determinizeWithLimit_threshold _ Builder.compositesFit_tangled⟩

end Automaton

end Acceptor
