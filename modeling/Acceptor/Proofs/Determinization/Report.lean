import Acceptor.Proofs.Determinization.Rows

/-!
# What determinization reports

Every composite state but the first one is reported when it is numbered, and in
the end the sizes of both automata and the number of edges are.  The automaton
that is assembled lists the edges that were followed, so the number that is
reported is the number of its edges.
-/

namespace Acceptor

universe u

namespace Exploration

variable {σ : Type u}

/-! ## Records -/

/-- The records of the composite states numbered below a bound, the first one apart. -/
def recordsBelow (composites : Enumeration StateSet) (bound : Nat) : List Record :=
  (((numbered composites).take bound).drop 1).map report

theorem recordsBelow_size (composites : Enumeration StateSet) :
    recordsBelow composites composites.size = ((numbered composites).drop 1).map report := by
  rw [recordsBelow, List.take_of_length_le (by simp)]

theorem numbered_of_prefix
    {earlier later : Enumeration StateSet}
    (growth : earlier.toList <+: later.toList) :
    numbered earlier = (numbered later).take earlier.size := by
  rcases growth with ⟨added, same⟩
  rw [numbered, numbered, ← List.map_take, ← same, List.zipIdx_append,
    List.take_left' (by simp)]

/-- The records of the first composite states do not depend on those that follow. -/
theorem recordsBelow_of_prefix
    {earlier later : Enumeration StateSet}
    (growth : earlier.toList <+: later.toList) :
    recordsBelow earlier earlier.size = recordsBelow later earlier.size := by
  rw [recordsBelow_size, numbered_of_prefix growth, recordsBelow]

/-- There is a first composite state, and every other one has been reported. -/
structure Reported (exploration : Exploration σ) : Prop where
  size_pos : 0 < exploration.composites.size
  log : exploration.log.toList = recordsBelow exploration.composites exploration.composites.size

@[simp]
theorem size_composites_start (composite : StateSet) :
    (start composite : Exploration σ).composites.size = 1 := by
  simp [start, Enumeration.insert_of_not_mem, Enumeration.mem_def]

theorem reported_start (composite : StateSet) :
    Reported (start composite : Exploration σ) where
  size_pos := by simp
  log := by simp [recordsBelow_size, start, numbered, Enumeration.toList_insert]

theorem Reported.followed
    {before after : Exploration σ}
    {source : State}
    {moves : List (σ × StateSet)}
    (reported : Reported before)
    (followed : Followed source moves before after) :
    Reported after := by
  have log := reported.log
  rw [recordsBelow_size] at log
  refine ⟨Nat.lt_of_lt_of_le reported.size_pos followed.size_le, ?_⟩
  rw [recordsBelow_size]
  exact followed.log_eq reported.size_pos log

theorem Reported.markFinal
    [DecidableEq σ] [Hashable σ]
    {exploration : Exploration σ}
    (reported : Reported exploration)
    (automaton : Automaton σ)
    (state : State)
    (composite : StateSet) :
    Reported (exploration.markFinal automaton state composite) := by
  rw [markFinal_eq]
  exact ⟨reported.size_pos, reported.log⟩

end Exploration

namespace Automaton

variable {σ : Type u} [DecidableEq σ] [Hashable σ] {nfa : Automaton σ}
  {exploration : Exploration σ}

theorem explored_of_result (result : nfa.explored none = .ok exploration) :
    Exploration.Explored nfa exploration.composites.size exploration :=
  (Exploration.explored_start nfa).run result

/-- Without a limit the exploration is assembled and its outcome reported. -/
theorem determinizeWithLimit_none
    (result : nfa.explored none = .ok exploration)
    (bounded : exploration.composites.size < UInt32.size) :
    (nfa.determinizeWithLimit none).result = .ok exploration.builder.layout ∧
      (nfa.determinizeWithLimit none).log.toList =
        Exploration.recordsBelow exploration.composites exploration.composites.size ++
          [.determinized nfa.numStates exploration.composites.size
            exploration.builder.layout.transitions.length] := by
  have explored := explored_of_result result
  have assembled := Exploration.assemble_eq_ok explored bounded
  have edges := Exploration.transitions_layout explored bounded
  have unfolded : nfa.determinizeWithLimit none =
      { log := exploration.log.push (.determinized nfa.numStates
          exploration.composites.size exploration.transitions.size)
        result := exploration.assemble.mapError .automaton } := by
    simp [determinizeWithLimit, Exploration.exhausted?, result]
  rw [unfolded]
  constructor
  · simp only [assembled]
    rfl
  · rw [Array.toList_push, explored.log, Exploration.recordsBelow_size, edges,
      Array.length_toList]

end Automaton

end Acceptor
