import Acceptor.Proofs.Determinization.Report
import Acceptor.Proofs.Occurrences

/-!
# Explorations that differ in names

The order in which composite states are numbered is determined by the moves
alone.  If the composite states of one automaton can be renamed into those of
another, so that moves go from renamed to renamed composite states under the
same symbols in the same order, then both explorations number their composite
states in step, and the edges and final states that they find are the same.
Hence both automata have the same deterministic automaton.
-/

namespace Acceptor

universe u

variable {σ : Type u} [DecidableEq σ] [Hashable σ]

/--
A renaming takes the composite states of one automaton to those of another,
together with their moves, in order, and with whether they are final.
-/
structure Automaton.Renames
    (automaton other : Automaton σ)
    (composites : Enumeration StateSet)
    (rename : StateSet → StateSet) : Prop where
  /-- Different composite states are renamed differently. -/
  injective : ∀ first ∈ composites, ∀ second ∈ composites,
    rename first = rename second → first = second
  /-- The first composite state is renamed into the first one. -/
  initial : other.epsilonClosureOf other.initial =
    rename (automaton.epsilonClosureOf automaton.initial)
  /-- Moves are renamed one by one. -/
  moves : ∀ composite ∈ composites, other.moves (rename composite) =
    (automaton.moves composite).map fun move => (move.1, rename move.2)
  /-- Final composite states are renamed into final ones, and no others are. -/
  final : ∀ composite ∈ composites,
    (rename composite).intersects other.finals = composite.intersects automaton.finals

namespace Exploration

/-! ## The order of discovery -/

theorem met_subset (automaton : Automaton σ) {few many : List StateSet} (subset : few ⊆ many) :
    met automaton few ⊆ met automaton many := by
  intro composite member
  rw [mem_met_iff] at member ⊢
  rcases member with first | ⟨source, sourceMember, moved⟩
  · exact Or.inl first
  · exact Or.inr ⟨source, subset sourceMember, moved⟩

section Order

variable {automaton : Automaton σ} {exploration : Exploration σ}
  (explored : Explored automaton exploration.composites.size exploration)

include explored

/-- What composite states lead to is numbered first. -/
theorem Explored.met_prefix (count : Nat) :
    (met automaton (exploration.composites.toList.take count)).eraseDups <+:
      exploration.composites.toList := by
  have split := congrArg (met automaton)
    (List.take_append_drop count exploration.composites.toList)
  conv_rhs => rw [explored.toList_composites, ← split, met_append, List.eraseDups_append]
  exact List.prefix_append _ _

/-- As long as some are not numbered, composite states lead to more than themselves. -/
theorem Explored.min_le_length_met (count : Nat) :
    min (count + 1) exploration.composites.size ≤
      (met automaton (exploration.composites.toList.take count)).eraseDups.length := by
  apply Nat.le_of_not_lt
  intro few
  have begun := explored.met_prefix count
  have shorter := Nat.le_of_lt_succ (Nat.lt_of_lt_of_le few (Nat.min_le_left _ _))
  have below := Nat.lt_of_lt_of_le few (Nat.min_le_right _ _)
  -- The first composite state that is missing was discovered from those before it.
  rcases Enumeration.exists_get?_of_lt below with ⟨composite, missing⟩
  have discovered := explored.discovered _ below composite missing
  have led := met_subset automaton (List.take_subset_take_left _ shorter) discovered
  rcases List.mem_iff_getElem?.mp (List.mem_eraseDups.mpr led) with ⟨index, found⟩
  have place := (List.getElem?_eq_some_iff.mp found).1
  have standing : exploration.composites.get? index = some composite := by
    rcases begun with ⟨later, whole⟩
    rw [← Enumeration.getElem?_toList, ← whole, List.getElem?_append_left place]
    exact found
  rw [Enumeration.get?_inj standing missing] at place
  exact Nat.lt_irrefl _ place

/-- What the first composite states lead to determines which one is numbered next. -/
theorem Explored.take_succ (count : Nat) :
    exploration.composites.toList.take (count + 1) =
      (met automaton (exploration.composites.toList.take count)).eraseDups.take (count + 1) := by
  have begun := explored.met_prefix count
  have enough := explored.min_le_length_met count
  have few := begun.length_le
  rw [Enumeration.length_toList] at few
  conv_rhs => rw [List.prefix_iff_eq_take.mp begun, List.take_take]
  rw [List.take_eq_take_iff, Enumeration.length_toList]
  omega

theorem Explored.mem_of_mem_met {count : Nat} {composite : StateSet}
    (member : composite ∈ met automaton (exploration.composites.toList.take count)) :
    composite ∈ exploration.composites :=
  Enumeration.mem_def.mpr
    ((explored.met_prefix count).subset (List.mem_eraseDups.mpr member))

end Order

/-! ## Renamed explorations -/

theorem mem_of_mem_numbered {composites : Enumeration StateSet} {entry : State × StateSet}
    (member : entry ∈ numbered composites) :
    entry.2 ∈ composites := by
  rw [Enumeration.mem_def, ← map_snd_numbered]
  exact List.mem_map_of_mem member

theorem numbered_map {composites renamed : Enumeration StateSet} {rename : StateSet → StateSet}
    (same : renamed.toList = composites.toList.map rename) :
    numbered renamed = (numbered composites).map fun entry => (entry.1, rename entry.2) := by
  rw [numbered, same, List.zipIdx_map, List.map_map, numbered, List.map_map]
  rfl

theorem number_map {composites renamed : Enumeration StateSet} {rename : StateSet → StateSet}
    (same : renamed.toList = composites.toList.map rename)
    {composite : StateSet} (member : composite ∈ composites) :
    number renamed (rename composite) = number composites composite := by
  rcases Enumeration.mem_iff_get?.mp member with ⟨index, found⟩
  have renamedFound : renamed.get? index = some (rename composite) := by
    rw [← Enumeration.getElem?_toList, same, List.getElem?_map, Enumeration.getElem?_toList, found]
    rfl
  rw [number_eq_of_position? (Enumeration.position?_eq_some_iff.mpr found),
    number_eq_of_position? (Enumeration.position?_eq_some_iff.mpr renamedFound)]

section Renamed

variable {automaton other : Automaton σ} {exploration renamed : Exploration σ}
  {rename : StateSet → StateSet}
  (renames : automaton.Renames other exploration.composites rename)

include renames

theorem met_map
    {expanded : List StateSet}
    (known : ∀ composite ∈ expanded, composite ∈ exploration.composites) :
    met other (expanded.map rename) = (met automaton expanded).map rename := by
  have led : ∀ composite ∈ expanded,
      targets other (rename composite) = (targets automaton composite).map rename := by
    intro composite member
    rw [targets, renames.moves composite (known composite member), targets, List.map_map,
      List.map_map]
    rfl
  rw [met, met, List.map_cons, renames.initial, List.flatMap_map, List.map_flatMap]
  simp only [List.flatMap_def, List.map_congr_left led]

variable (explored : Explored automaton exploration.composites.size exploration)
  (otherExplored : Explored other renamed.composites.size renamed)

include explored otherExplored

/-- Both explorations discover the same composite states up to their names. -/
theorem toList_composites_renamed :
    renamed.composites.toList = exploration.composites.toList.map rename := by
  have general : ∀ count, renamed.composites.toList.take count =
      (exploration.composites.toList.take count).map rename := by
    intro count
    induction count with
    | zero => rfl
    | succ count induction =>
        have known : ∀ composite ∈ exploration.composites.toList.take count,
            composite ∈ exploration.composites :=
          fun composite member => List.mem_of_mem_take member
        rw [otherExplored.take_succ, induction, met_map renames known, ← map_eraseDups,
          ← List.map_take, ← explored.take_succ]
        intro first firstMember second secondMember
        exact renames.injective first (explored.mem_of_mem_met firstMember)
          second (explored.mem_of_mem_met secondMember)
  have all := general (max renamed.composites.size exploration.composites.size)
  rwa [List.take_of_length_le (by simp), List.take_of_length_le (by simp)] at all

/-- Both explorations follow the same edges. -/
theorem transitions_renamed : renamed.transitions.toList = exploration.transitions.toList := by
  have same := toList_composites_renamed renames explored otherExplored
  have edges : ∀ entry ∈ numbered exploration.composites,
      edgesOf other renamed.composites (entry.1, rename entry.2) =
        edgesOf automaton exploration.composites entry := by
    intro entry member
    have known := mem_of_mem_numbered member
    rw [edgesOf, renames.moves entry.2 known, edgesOf, List.map_map]
    refine List.map_congr_left fun move moveMember => ?_
    rcases Automaton.mem_moves_iff.mp moveMember with ⟨labels, target⟩
    have led : move.2 ∈ exploration.composites :=
      target ▸ explored.enumerates.move_mem known labels
    rw [Function.comp_apply, number_map same led]
  rw [otherExplored.toList_transitions, explored.toList_transitions, numbered_map same,
    List.flatMap_map]
  simp only [List.flatMap_def, List.map_congr_left edges]

/-- Both explorations find the same final states. -/
theorem finals_renamed : renamed.finals.toList = exploration.finals.toList := by
  have same := toList_composites_renamed renames explored otherExplored
  have selected : (numbered exploration.composites).filter
        (fun entry => (rename entry.2).intersects other.finals) =
      (numbered exploration.composites).filter
        (fun entry => entry.2.intersects automaton.finals) :=
    List.filter_congr fun entry member => renames.final entry.2 (mem_of_mem_numbered member)
  rw [otherExplored.toList_finals, explored.toList_finals, numbered_map same, List.filter_map,
    List.map_map, ← selected]
  rfl

theorem builder_renamed : renamed.builder = exploration.builder := by
  have size : renamed.composites.size = exploration.composites.size := by
    have lengths := congrArg List.length
      (toList_composites_renamed renames explored otherExplored)
    simpa using lengths
  rw [builder, builder, size, finals_renamed renames explored otherExplored,
    transitions_renamed renames explored otherExplored]

end Renamed

end Exploration

/-- Automata whose composite states differ in names have the same deterministic automaton. -/
theorem Automaton.Renames.determinize_eq
    {automaton other : Automaton σ}
    {exploration : Exploration σ}
    {rename : StateSet → StateSet}
    (renames : automaton.Renames other exploration.composites rename)
    (result : automaton.explored none = .ok exploration) :
    other.determinize = automaton.determinize := by
  rcases other.exists_explored with ⟨renamed, otherResult, otherExplored⟩
  rw [Automaton.determinize_eq result, Automaton.determinize_eq otherResult,
    Exploration.assemble_eq, Exploration.assemble_eq,
    Exploration.builder_renamed renames (Automaton.explored_of_result result) otherExplored]

end Acceptor
