import Acceptor.Proofs.Determinization.Discovery
import Acceptor.Proofs.Determinization.Limits

/-!
# What is written while determinizing

The lines that determinization writes are known from the automaton that it
returns.  There is one for each state but the first, in the order of their
numbers, with the members of the set that the state stands for, and at the end
one that counts the states and the edges.  Under a limit that is too low the
lines for the states that the limit allows are written and nothing else.
-/

namespace Acceptor

universe u

/-! ## Wording -/

/-- A record as it is written: the name of its level and its wording. -/
def Record.line (record : Record) : String × String :=
  (record.level.name, record.text)

/-- What has been reported, as it is written. -/
def Logged.lines {α : Type u} (logged : Logged α) : List (String × String) :=
  logged.log.toList.map Record.line

/-- The line for a state and the members, in ascending order, of the set that it stands for. -/
def announcement (state : State) (composite : StateSet) : String × String :=
  ("TRACE", "composite state " ++ state.toNat.repr ++ " = \x7b" ++
    ", ".intercalate (composite.toList.map fun member => member.toNat.repr) ++ "\x7d")

/-- The line for the numbers of states before and after and for the number of edges after. -/
def summary (before after : State) (edges : Nat) : String × String :=
  ("DEBUG", "determinized " ++ before.toNat.repr ++ " NFA states into " ++ after.toNat.repr ++
    " DFA states (" ++ edges.repr ++ " transitions)")

theorem Record.line_composite (state : State) (composite : StateSet) :
    (Record.composite state composite).line = announcement state composite := by
  have wording : (Record.composite state composite).line =
      ("TRACE", "composite state " ++ state.toNat.repr ++ " = " ++ composite.text) := rfl
  have opened : " = \x7b" = " = " ++ "\x7b" := by decide
  rw [wording, announcement, opened, StateSet.text, listing]
  simp only [String.append_assoc]
  rfl

theorem Record.line_determinized (before after : State) (edges : Nat) :
    (Record.determinized before after.toNat edges).line = summary before after edges :=
  rfl

namespace Exploration

/-- The line of a numbered composite state. -/
def lineOf (entry : State × StateSet) : String × String :=
  announcement entry.1 entry.2

theorem map_line_recordsBelow (composites : Enumeration StateSet) (bound : Nat) :
    (recordsBelow composites bound).map Record.line =
      ((numbered composites).drop 1 |>.take (bound - 1)).map lineOf := by
  rw [recordsBelow, List.map_map, List.drop_take]
  exact List.map_congr_left fun entry _ => Record.line_composite entry.1 entry.2

end Exploration

namespace Automaton

variable {σ : Type u} [DecidableEq σ] [Hashable σ]

/-! ## The lines of a determinization -/

/-- The lines for the states of a deterministic automaton, and when they are written. -/
structure Announces (nfa dfa : Automaton σ) (traces : List (String × String)) : Prop where
  /-- There is a line for each state but the first. -/
  length : traces.length + 1 = dfa.numStates.toNat
  /-- The lines come in the order of the states and name the members of what they stand for. -/
  trace : ∀ state < dfa.numStates, state ≠ 0 → ∃ composite,
    nfa.Represents dfa state composite ∧
      traces[state.toNat - 1]? = some (announcement state composite)
  /-- Without a limit all lines are written, and then the numbers of states and of edges. -/
  unlimited : (nfa.determinizeWithLimit none).lines =
    traces ++ [summary nfa.numStates dfa.numStates dfa.transitions.length]
  /-- Under a limit that is too low the lines for as many states as it allows are written. -/
  limited : ∀ limit < dfa.numStates.toNat,
    (nfa.determinizeWithLimit (some limit)).lines = traces.take (max limit 1 - 1)

/-- What determinization writes describes the automaton that it returns. -/
theorem determinize_announces {nfa : Automaton σ}
    (built : nfa.Built) (fit : nfa.CompositesFit) :
    ∃ dfa traces, nfa.determinize = .ok dfa ∧ nfa.Announces dfa traces := by
  rcases nfa.exists_explored with ⟨exploration, result, explored⟩
  have bounded : exploration.composites.size < UInt32.size := fit exploration result
  have subsets := Exploration.subsets_layout explored bounded
  rcases determinizeWithLimit_none result bounded with ⟨made, log⟩
  refine ⟨exploration.builder.layout,
    ((Exploration.numbered exploration.composites).drop 1).map Exploration.lineOf, made, ?_⟩
  constructor
  case length =>
    have positive := explored.size_pos
    rw [subsets.numStates, List.length_map, List.length_drop, Exploration.length_numbered]
    omega
  case trace =>
    intro state below later
    rcases subsets.exists_get?_of_lt below with ⟨composite, found⟩
    have place : 1 + (state.toNat - 1) = state.toNat := by
      have positive : 0 < state.toNat :=
        UInt32.lt_iff_toNat_lt.mp (UInt32.pos_iff_ne_zero.mpr later)
      omega
    refine ⟨composite, subsets.represents built.wellFormed found, ?_⟩
    rw [List.getElem?_map, List.getElem?_drop, place, Exploration.getElem?_numbered, found,
      Option.map_some, Option.map_some, UInt32.ofNat_toNat]
    rfl
  case unlimited =>
    rw [Logged.lines, log, List.map_append, Exploration.map_line_recordsBelow,
      List.take_of_length_le (by simp), ← subsets.numStates, List.map_singleton,
      Record.line_determinized]
  case limited =>
    intro limit many
    rw [subsets.numStates] at many
    have allowed : limit - 1 = max limit 1 - 1 := by omega
    rw [Logged.lines, (determinizeWithLimit_of_lt result many).2,
      Exploration.map_line_recordsBelow, List.map_take, allowed]

theorem determinize_announces_tangled :
    Builder.tangled.layout.Built ∧ Builder.tangled.layout.CompositesFit ∧
      ∃ dfa traces, Builder.tangled.layout.determinize = .ok dfa ∧
        Builder.tangled.layout.Announces dfa traces :=
  ⟨Builder.built_tangled, Builder.compositesFit_tangled,
    determinize_announces Builder.built_tangled Builder.compositesFit_tangled⟩

end Automaton

end Acceptor
