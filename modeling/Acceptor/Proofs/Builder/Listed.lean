import Acceptor.Proofs.Builder.Built
import Acceptor.Proofs.Occurrences
import Acceptor.Symbol
import Mathlib.Data.List.Nodup
import Mathlib.Data.Prod.Lex

/-!
# The order in which edges are listed

The edges of an automaton are listed source by source, by ascending source.
The edges of one source are those of its row, and the symbols of all rows are
the symbols of the listed edges.  What is said here holds of every automaton
whose tables are no longer than there are states, however it was made.
-/

namespace Acceptor

universe u v w

namespace Automaton

/-! ## Tables -/

/-- Places in a list that is no longer than there are states have different numbers. -/
theorem nodup_ofNat_zipIdx {α : Type v} {list : List α} (bounded : list.length ≤ UInt32.size) :
    (list.zipIdx.map fun entry => UInt32.ofNat entry.2).Nodup := by
  have numbers : (list.zipIdx.map fun entry => UInt32.ofNat entry.2) =
      (List.range list.length).map UInt32.ofNat := by
    rw [List.range_eq_range', ← List.zipIdx_map_snd, List.map_map]
    rfl
  rw [numbers]
  exact nodup_map_range fun number below =>
    UInt32.toNat_ofNat_of_lt' (Nat.lt_of_lt_of_le below bounded)

section Tables

variable {α : Type v} {β : Type w} {table : Array α}
  (bounded : table.size ≤ UInt32.size)
  (listed : State → α → List β)

include bounded

/-- What is listed row after row is in order if each row is and if earlier rows come first. -/
theorem pairwise_flatMap_zipIdx
    {order : β → β → Prop}
    (inside : ∀ source row, table[source.toNat]? = some row → (listed source row).Pairwise order)
    (across : ∀ source row next other, source < next →
      ∀ first ∈ listed source row, ∀ second ∈ listed next other, order first second) :
    (table.toList.zipIdx.flatMap fun entry =>
      listed (UInt32.ofNat entry.2) entry.1).Pairwise order := by
  rw [List.pairwise_flatMap]
  constructor
  · rintro ⟨row, index⟩ member
    exact inside _ row ((mem_zipIdx_ofNat_iff bounded).mp ⟨index, member, rfl⟩)
  · rw [List.pairwise_iff_getElem]
    intro first second firstBound secondBound ordered
    rw [List.length_zipIdx, Array.length_toList] at firstBound secondBound
    simp only [List.getElem_zipIdx, Nat.zero_add]
    apply across
    rw [UInt32.lt_iff_toNat_lt, UInt32.toNat_ofNat_of_lt' (Nat.lt_of_lt_of_le firstBound bounded),
      UInt32.toNat_ofNat_of_lt' (Nat.lt_of_lt_of_le secondBound bounded)]
    exact ordered

/-- What is listed for one source is what its row lists. -/
theorem filter_flatMap_zipIdx
    (sourceOf : β → State)
    (same : ∀ source row, ∀ member ∈ listed source row, sourceOf member = source)
    (source : State) :
    (table.toList.zipIdx.flatMap fun entry =>
        listed (UInt32.ofNat entry.2) entry.1).filter (sourceOf · = source) =
      (table[source.toNat]?).elim [] (listed source) := by
  have selected : ∀ entry : α × Nat,
      (listed (UInt32.ofNat entry.2) entry.1).filter (sourceOf · = source) =
        if UInt32.ofNat entry.2 = source then listed (UInt32.ofNat entry.2) entry.1 else [] := by
    rintro ⟨row, index⟩
    split
    · next equal =>
        rw [List.filter_eq_self]
        intro member present
        simpa [equal] using same _ row member present
    · next different =>
        rw [List.filter_eq_nil_iff]
        intro member present
        simpa [same _ row member present] using different
  rw [List.filter_flatMap]
  simp only [selected]
  cases found : table[source.toNat]? with
  | some row =>
      rcases (mem_zipIdx_ofNat_iff bounded).mpr found with ⟨index, member, rfl⟩
      have distinct : (table.toList.zipIdx.map fun entry => UInt32.ofNat entry.2).Nodup :=
        nodup_ofNat_zipIdx (by simpa using bounded)
      exact flatMap_of_key (fun entry => UInt32.ofNat entry.2)
        (fun entry => listed (UInt32.ofNat entry.2) entry.1) distinct member
  | none =>
      rw [Option.elim_none, List.flatMap_eq_nil_iff]
      rintro ⟨row, index⟩ member
      refine if_neg fun equal => ?_
      rw [(mem_zipIdx_ofNat_iff bounded).mp ⟨index, member, equal⟩] at found
      cases found

end Tables

variable {σ : Type u} [DecidableEq σ] [Hashable σ] {automaton : Automaton σ}

/-! ## Labelled edges -/

theorem pairwise_transitions
    (bounded : automaton.rows.size ≤ UInt32.size)
    {order : State × σ × State → State × σ × State → Prop}
    (inside : ∀ source, (rowEdges source (automaton.row source)).Pairwise order)
    (across : ∀ first second, first.1 < second.1 → order first second) :
    automaton.transitions.Pairwise order := by
  refine pairwise_flatMap_zipIdx bounded rowEdges ?_ ?_
  · intro source row found
    have same : automaton.row source = row := by
      rw [Automaton.row, Array.getD_eq_getD_getElem?, found, Option.getD_some]
    exact same ▸ inside source
  · intro source row next other before first firstMember second secondMember
    apply across
    rw [← (mem_rowEdges_iff.mp firstMember).1, ← (mem_rowEdges_iff.mp secondMember).1]
    exact before

theorem nodup_rowEdges (source : State) (row : OrderedMap σ StateSet) :
    (rowEdges source row).Nodup := by
  rw [rowEdges, List.nodup_flatMap]
  constructor
  · intro entry _
    refine List.Nodup.map ?_ entry.2.nodup_toList
    intro first second same
    simpa using same
  · have distinct := row.nodup_keys
    rw [List.Nodup, List.pairwise_map] at distinct
    refine distinct.imp fun different => ?_
    intro edge firstMember secondMember
    rcases List.mem_map.mp firstMember with ⟨_, _, rfl⟩
    rcases List.mem_map.mp secondMember with ⟨_, _, same⟩
    simp only [Prod.mk.injEq, true_and] at same
    exact different same.1.symm

/-- No labelled edge is listed twice. -/
theorem nodup_transitions (bounded : automaton.rows.size ≤ UInt32.size) :
    automaton.transitions.Nodup := by
  refine pairwise_transitions bounded (fun source => nodup_rowEdges source _) ?_
  intro first second before same
  rw [same] at before
  exact UInt32.lt_irrefl _ before

/-- The listed edges of a source are those of its row. -/
theorem filter_transitions
    (bounded : automaton.rows.size ≤ UInt32.size)
    (source : State) :
    automaton.transitions.filter (·.1 = source) = rowEdges source (automaton.row source) := by
  have selected := filter_flatMap_zipIdx bounded rowEdges Prod.fst
    (fun source row edge member => (mem_rowEdges_iff.mp member).1.symm) source
  refine selected.trans ?_
  rw [row, Array.getD_eq_getD_getElem?]
  cases automaton.rows[source.toNat]? with
  | none => simp [rowEdges]
  | some row => rfl

/-- The symbols of all rows are those of the listed edges, if no symbol lacks a destination. -/
theorem toList_alphabet
    (populated : ∀ row ∈ automaton.rows.toList, ∀ entry ∈ row.toList, entry.2 ≠ ∅) :
    automaton.alphabet.toList = (automaton.transitions.map (·.2.1)).eraseDups := by
  have listed : automaton.transitions.map (·.2.1) =
      (automaton.rows.toList.flatMap OrderedMap.toList).flatMap fun entry =>
        entry.2.toList.map fun _ => entry.1 := by
    have rows := congrArg (·.flatMap fun row => row.toList.flatMap fun entry =>
      entry.2.toList.map fun _ => entry.1) (List.zipIdx_map_fst 0 automaton.rows.toList)
    simp only [List.flatMap_map] at rows
    rw [transitions, List.map_flatMap, List.flatMap_assoc, ← rows]
    simp [rowEdges, List.map_flatMap, Function.comp_def]
  have symbols : (automaton.rows.toList.flatMap fun row => row.keys.toList) =
      (automaton.rows.toList.flatMap OrderedMap.toList).map Prod.fst := by
    simp only [List.map_flatMap, OrderedMap.map_fst_toList]
  rw [listed, alphabet, Enumeration.toList_ofList, symbols]
  refine (eraseDups_flatMap_of_repeat Prod.fst ?_ ?_).symm
  · intro entry member
    rcases List.mem_flatMap.mp member with ⟨row, rowMember, entryMember⟩
    intro none
    rw [List.map_eq_nil_iff] at none
    exact populated row rowMember entry entryMember (StateSet.toList_inj.mp none)
  · intro entry _ symbol occurs
    rcases List.mem_map.mp occurs with ⟨_, _, rfl⟩
    rfl

/-- In a well-formed automaton no symbol lacks a destination. -/
theorem WellFormed.toList_alphabet (wellFormed : automaton.WellFormed) :
    automaton.alphabet.toList = (automaton.transitions.map (·.2.1)).eraseDups := by
  refine Automaton.toList_alphabet fun row member entry => ?_
  rcases wellFormed.exists_row_of_mem member with ⟨source, rfl⟩
  exact wellFormed.group_ne_empty source entry

/-! ## Epsilon edges -/

/-- Epsilon edges are listed by ascending source and then by ascending destination. -/
theorem pairwise_epsilonTransitions (bounded : automaton.epsilons.size ≤ UInt32.size) :
    automaton.epsilonTransitions.Pairwise (Prod.Lex (· < ·) (· < ·)) := by
  refine pairwise_flatMap_zipIdx bounded (fun source group =>
    group.toList.map fun destination => (source, destination)) ?_ ?_
  · intro source group _
    rw [List.pairwise_map]
    exact group.ascending.imp (Prod.Lex.right source)
  · intro source group next other before first firstMember second secondMember
    rcases List.mem_map.mp firstMember with ⟨_, _, rfl⟩
    rcases List.mem_map.mp secondMember with ⟨_, _, rfl⟩
    exact Prod.Lex.left _ _ before

/-- No epsilon edge is listed twice. -/
theorem nodup_epsilonTransitions (bounded : automaton.epsilons.size ≤ UInt32.size) :
    automaton.epsilonTransitions.Nodup := by
  refine (pairwise_epsilonTransitions bounded).imp fun before same => ?_
  subst same
  rcases Prod.lex_def.mp before with below | ⟨_, below⟩ <;> exact UInt32.lt_irrefl _ below

end Automaton

end Acceptor
