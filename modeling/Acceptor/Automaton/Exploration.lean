import Acceptor.Automaton.Moves
import Acceptor.Log
import Acceptor.Queue
import Acceptor.StateSet.Counting

/-!
# Exploring the composite states

A composite state is the set of states in which the runs of an automaton can
be after some word.  The exploration starts from one composite state and
numbers every other one when it is first met.  Numbered states wait in a
queue and are expanded in the order of their numbers: expanding one records
whether it is final, and for each of its moves the edge to the composite state
the move leads to.

A limit on the number of composite states is enforced at the moment at which
one more would have to be numbered.  The exploration that was stopped is
returned as it stood, so that what it reported is not lost.

The exploration comes to an end because a composite state is numbered once
and there are only finitely many sets of states.
-/

namespace Acceptor

universe u

/-- What has been found out about the composite states of an automaton. -/
structure Exploration (σ : Type u) where
  /-- The composite states in the order of their numbers. -/
  composites : Enumeration StateSet
  /-- The numbered composite states that have not been expanded. -/
  pending : Std.Queue (State × StateSet)
  /-- The edges between composite states, in the order in which they were followed. -/
  transitions : Array (State × σ × State)
  /-- The expanded composite states that are final. -/
  finals : Array State
  /-- What has been reported. -/
  log : Array Record

/-- An exploration that would have needed more composite states than it was allowed. -/
structure StoppedExploration (σ : Type u) where
  /-- The number of composite states that was allowed. -/
  limit : Nat
  /-- The exploration as it stood. -/
  exploration : Exploration σ

namespace Exploration

variable {σ : Type u}

/-- Before anything but the first composite state is known. -/
def start (composite : StateSet) : Exploration σ where
  composites := Enumeration.empty.insert composite
  pending := (∅ : Std.Queue (State × StateSet)).enqueue (0, composite)
  transitions := #[]
  finals := #[]
  log := #[]

/-- The limit, when it allows no more than the states that have been discovered. -/
def exhausted? (limit : Option Nat) (discovered : Nat) : Option Nat :=
  limit.filter (· ≤ discovered)

/-- The number of a composite state, which is numbered now if it has not been met before. -/
def locate (limit : Option Nat) (exploration : Exploration σ) (composite : StateSet) :
    Except (StoppedExploration σ) (State × Exploration σ) :=
  match fresh : exploration.composites.position? composite with
  | some index => .ok (UInt32.ofNat index, exploration)
  | none =>
      match exhausted? limit exploration.composites.size with
      | some bound => .error { limit := bound, exploration }
      | none =>
          let state := UInt32.ofNat exploration.composites.size
          .ok (state,
            { exploration with
              composites := exploration.composites.push composite fresh
              pending := exploration.pending.enqueue (state, composite)
              log := exploration.log.push (.composite state composite) })

/-- Record the edge of one move. -/
def follow (limit : Option Nat) (source : State) (exploration : Exploration σ)
    (move : σ × StateSet) : Except (StoppedExploration σ) (Exploration σ) :=
  match exploration.locate limit move.2 with
  | .error stopped => .error stopped
  | .ok (destination, located) =>
      .ok { located with
        transitions := located.transitions.push (source, move.1, destination) }

/-- Record the edges of moves, one after the other. -/
def followAll (limit : Option Nat) (source : State) (exploration : Exploration σ) :
    List (σ × StateSet) → Except (StoppedExploration σ) (Exploration σ)
  | [] => .ok exploration
  | move :: rest =>
      match exploration.follow limit source move with
      | .error stopped => .error stopped
      | .ok followed => followed.followAll limit source rest

/-! ## Progress -/

/--
Between two explorations either a composite state was numbered, or as many are
waiting as before.
-/
def Advances (earlier later : Exploration σ) : Prop :=
  earlier.composites.size < later.composites.size ∨
    earlier.composites.size = later.composites.size ∧
      (waiting earlier.pending).length = (waiting later.pending).length

namespace Advances

theorem refl (exploration : Exploration σ) : Advances exploration exploration :=
  Or.inr ⟨rfl, rfl⟩

theorem trans {first second third : Exploration σ} (earlier : Advances first second)
    (later : Advances second third) :
    Advances first third := by
  unfold Advances at *
  omega

end Advances

theorem advances_locate {limit : Option Nat} {exploration located : Exploration σ}
    {composite : StateSet} {state : State}
    (result : exploration.locate limit composite = .ok (state, located)) :
    Advances exploration located := by
  unfold locate at result
  split at result
  · cases result
    exact .refl exploration
  · split at result
    · cases result
    · cases result
      exact Or.inl (by simp)

theorem advances_follow {limit : Option Nat} {source : State}
    {exploration followed : Exploration σ} {move : σ × StateSet}
    (result : exploration.follow limit source move = .ok followed) :
    Advances exploration followed := by
  unfold follow at result
  split at result
  · cases result
  · next located =>
      cases result
      have progress := advances_locate located
      exact progress

theorem advances_followAll {limit : Option Nat} {source : State}
    {exploration followed : Exploration σ} {moves : List (σ × StateSet)}
    (result : exploration.followAll limit source moves = .ok followed) :
    Advances exploration followed := by
  induction moves generalizing exploration with
  | nil =>
      cases result
      exact .refl _
  | cons move rest induction =>
      unfold followAll at result
      split at result
      · cases result
      · next first => exact (advances_follow first).trans (induction result)

theorem size_composites_le_count (exploration : Exploration σ) :
    exploration.composites.size ≤ StateSet.count := by
  rw [← Enumeration.length_toList]
  exact StateSet.length_le_count exploration.composites.nodup_toList

/-! ## Expanding -/

variable [DecidableEq σ] [Hashable σ]

/-- Record that a composite state is final if one of its members is. -/
def markFinal (automaton : Automaton σ) (state : State) (composite : StateSet)
    (exploration : Exploration σ) : Exploration σ :=
  if composite.intersects automaton.finals then
    { exploration with finals := exploration.finals.push state }
  else
    exploration

/-- Expand one composite state. -/
def expand (automaton : Automaton σ) (limit : Option Nat) (state : State)
    (composite : StateSet) (exploration : Exploration σ) :
    Except (StoppedExploration σ) (Exploration σ) :=
  (exploration.markFinal automaton state composite).followAll limit state
    (automaton.moves composite)

theorem advances_expand {automaton : Automaton σ} {limit : Option Nat} {state : State}
    {composite : StateSet} {exploration expanded : Exploration σ}
    (result : exploration.expand automaton limit state composite = .ok expanded) :
    Advances exploration expanded := by
  refine Advances.trans ?_ (advances_followAll result)
  unfold markFinal
  split
  · exact Or.inr ⟨rfl, rfl⟩
  · exact .refl exploration

/-! ## To the end -/

/-- Expand composite states until none is waiting. -/
def run (automaton : Automaton σ) (limit : Option Nat) (exploration : Exploration σ) :
    Except (StoppedExploration σ) (Exploration σ) :=
  match _dequeued : exploration.pending.dequeue? with
  | none => .ok exploration
  | some ((state, composite), pending) =>
      match _expanded : expand automaton limit state composite { exploration with pending } with
      | .error stopped => .error stopped
      | .ok next => next.run automaton limit
  termination_by (StateSet.count - exploration.composites.size,
    (waiting exploration.pending).length)
  decreasing_by
    have bounded := size_composites_le_count next
    have fewer := congrArg List.length (waiting_of_dequeue?_eq_some _dequeued)
    rw [List.length_cons] at fewer
    rcases advances_expand _expanded with more | ⟨same, waitingSame⟩
    · apply Prod.Lex.left
      simp only at more
      omega
    · simp only at same waitingSame
      rw [same]
      apply Prod.Lex.right
      omega

end Exploration

end Acceptor
