import Acceptor.Proofs.Builder.Additions
import Mathlib.Data.List.Sort

/-!
# Edges that keep their order

An automaton lists its edges in an order of its own.  Edges that are added in
this order are listed as they were added: grouping them by source and symbol
and listing the groups puts every edge back where it was.

The edges of a well-formed automaton are in order.  They remain in order when
all states move up together, and when others follow whose sources are higher
than theirs.
-/

namespace Acceptor

universe u

namespace Automaton

section Symbols

variable {σ : Type u} {edges others : List (State × σ × State)} {source : State}

/-! ## Symbols of a source -/

theorem symbolsFrom_eq (edges : List (State × σ × State)) (source : State) :
    symbolsFrom edges source = (edges.filter (·.1 = source)).map (·.2.1) := by
  induction edges with
  | nil => rfl
  | cons edge rest induction =>
      rw [symbolsFrom, List.filterMap_cons, ← symbolsFrom, induction]
      by_cases same : edge.1 = source <;> simp [same]

theorem symbolsFrom_append :
    symbolsFrom (edges ++ others) source =
      symbolsFrom edges source ++ symbolsFrom others source :=
  List.filterMap_append

theorem symbolsFrom_eq_nil (other : ∀ edge ∈ edges, edge.1 ≠ source) :
    symbolsFrom edges source = [] := by
  rw [symbolsFrom_eq, List.map_eq_nil_iff, List.filter_eq_nil_iff]
  simpa using other

end Symbols

variable {σ : Type u} [DecidableEq σ] {edges others : List (State × σ × State)}
  {first second : State × σ × State}

/-! ## Edges in order -/

/-- Edges are in the order in which an automaton lists them. -/
def InOrder (edges : List (State × σ × State)) : Prop :=
  edges.Pairwise (Precedes edges)

/-- The order of two edges depends on the symbols of the source of the first only. -/
theorem Precedes.congr
    (precedes : Precedes edges first second)
    (same : symbolsFrom others first.1 = symbolsFrom edges first.1) :
    Precedes others first second := by
  rw [Precedes, same]
  exact precedes

/-- No two edges come before one another. -/
theorem Precedes.asymm
    (precedes : Precedes edges first second) :
    ¬ Precedes edges second first := by
  rintro (back | ⟨same, back⟩)
  · rcases precedes with before | ⟨same, _⟩
    · exact UInt32.lt_asymm before back
    · exact UInt32.lt_irrefl _ (same ▸ back)
  · rcases precedes with before | ⟨_, before | ⟨label, before⟩⟩
    · exact UInt32.lt_irrefl _ (same ▸ before)
    · rw [same] at back
      rcases back with back | ⟨label, _⟩
      · exact Nat.lt_asymm before back
      · exact Nat.lt_irrefl _ (label ▸ before)
    · rcases back with back | ⟨_, back⟩
      · exact Nat.lt_irrefl _ (label ▸ back)
      · exact UInt32.lt_asymm before back

theorem Precedes.ne (precedes : Precedes edges first second) : first ≠ second := by
  rintro rfl
  exact precedes.asymm precedes

/-- The same edges have one order only. -/
theorem InOrder.eq_of_pairwise
    (ordered : InOrder edges)
    (listed : others.Pairwise (Precedes edges))
    (same : ∀ edge, edge ∈ others ↔ edge ∈ edges) :
    others = edges := by
  have distinct : others.Nodup := listed.imp Precedes.ne
  have permuted : others.Perm edges :=
    (List.perm_ext_iff_of_nodup distinct (ordered.imp Precedes.ne)).mpr same
  refine permuted.eq_of_pairwise ?_ listed ordered
  exact fun _ _ _ _ before after => absurd after before.asymm

/-- Edges in order remain in order when others with higher sources follow. -/
theorem InOrder.append
    (ordered : InOrder edges)
    (othersOrdered : InOrder others)
    (higher : ∀ edge ∈ edges, ∀ other ∈ others, edge.1 < other.1) :
    InOrder (edges ++ others) := by
  refine List.pairwise_append.mpr ⟨?_, ?_, ?_⟩
  · refine ordered.imp_of_mem fun {first second} member _ precedes => precedes.congr ?_
    have none : symbolsFrom others first.1 = [] :=
      symbolsFrom_eq_nil fun other present => (UInt32.ne_of_lt (higher _ member _ present)).symm
    rw [symbolsFrom_append, none, List.append_nil]
  · refine othersOrdered.imp_of_mem fun {first second} member _ precedes => precedes.congr ?_
    have none : symbolsFrom edges first.1 = [] :=
      symbolsFrom_eq_nil fun edge present => UInt32.ne_of_lt (higher _ present _ member)
    rw [symbolsFrom_append, none, List.nil_append]
  · exact fun edge member other present => Or.inl (higher _ member _ present)

/-- Edges in order remain in order when their ends get other names in the same order. -/
theorem InOrder.map
    (ordered : InOrder edges)
    {numStates : State}
    (rename : State → State)
    (inside : ∀ edge ∈ edges, edge.1 < numStates ∧ edge.2.2 < numStates)
    (monotone : ∀ state < numStates, ∀ other < numStates,
      state < other → rename state < rename other) :
    InOrder (edges.map fun edge => (rename edge.1, edge.2.1, rename edge.2.2)) := by
  have injective : ∀ state < numStates, ∀ other < numStates,
      rename state = rename other → state = other := by
    intro state below other otherBelow same
    by_contra different
    rcases UInt32.lt_or_lt_of_ne different with before | before
    · exact UInt32.ne_of_lt (monotone state below other otherBelow before) same
    · exact UInt32.ne_of_lt (monotone other otherBelow state below before) same.symm
  have symbols : ∀ edge ∈ edges,
      symbolsFrom (edges.map fun edge => (rename edge.1, edge.2.1, rename edge.2.2))
        (rename edge.1) = symbolsFrom edges edge.1 := by
    intro edge member
    rw [symbolsFrom, List.filterMap_map, symbolsFrom]
    refine List.filterMap_congr fun other otherMember => ?_
    have sources : rename other.1 = rename edge.1 ↔ other.1 = edge.1 :=
      ⟨injective _ (inside other otherMember).1 _ (inside edge member).1, congrArg rename⟩
    simp only [Function.comp_apply, sources]
  refine List.pairwise_map.mpr (ordered.imp_of_mem ?_)
  intro first second firstMember secondMember precedes
  rcases inside first firstMember with ⟨sourceBelow, destinationBelow⟩
  rcases inside second secondMember with ⟨otherBelow, otherDestinationBelow⟩
  rw [Precedes, symbols first firstMember]
  rcases precedes with before | ⟨same, before | ⟨label, before⟩⟩
  · exact Or.inl (monotone _ sourceBelow _ otherBelow before)
  · exact Or.inr ⟨congrArg rename same, Or.inl before⟩
  · exact Or.inr ⟨congrArg rename same,
      Or.inr ⟨label, monotone _ destinationBelow _ otherDestinationBelow before⟩⟩

/-! ## The edges of an automaton -/

variable [Hashable σ] {automaton : Automaton σ}

/-- The symbols of the edges of a state are those of its row, in the order of the row. -/
theorem WellFormed.eraseDups_symbolsFrom
    (wellFormed : automaton.WellFormed)
    (source : State) :
    (symbolsFrom automaton.transitions source).eraseDups =
      (automaton.row source).toList.map Prod.fst := by
  rw [symbolsFrom_eq, filter_transitions wellFormed.rows_bounded, rowEdges, List.map_flatMap,
    eraseDups_flatMap_of_repeat Prod.fst, eraseDups_of_nodup (automaton.row source).nodup_keys]
  · intro entry member none
    rw [List.map_map, List.map_eq_nil_iff] at none
    exact wellFormed.group_ne_empty source entry member (StateSet.toList_inj.mp none)
  · intro entry _ symbol occurs
    rw [List.map_map] at occurs
    rcases List.mem_map.mp occurs with ⟨_, _, rfl⟩
    rfl

/-- An automaton lists its edges in the order in which it would list them again. -/
theorem WellFormed.inOrder_transitions (wellFormed : automaton.WellFormed) :
    InOrder automaton.transitions := by
  refine pairwise_transitions wellFormed.rows_bounded (fun source => ?_) fun _ _ => Or.inl
  have listed := pairwise_idxOf_eraseDups (symbolsFrom automaton.transitions source)
  rw [wellFormed.eraseDups_symbolsFrom, List.pairwise_map] at listed
  exact pairwise_rowEdges listed

end Automaton

/-! ## Adding edges in order -/

namespace Builder

variable {σ : Type u} [DecidableEq σ] [Hashable σ] {builder : Builder σ}

@[simp]
theorem labelled_addEpsilons (edges : List (State × State)) :
    (builder.addEpsilons edges).labelled = builder.labelled := by
  rw [addEpsilons_eq]

@[simp]
theorem labelled_addEpsilon {start stop : State} :
    (builder.addEpsilon start stop).labelled = builder.labelled := rfl

/-- Edges that were added in order are listed as they were added. -/
theorem transitions_of_build
    {automaton : Automaton σ}
    {edges : List (State × σ × State)}
    (populated : builder.Populated)
    (made : builder.build = .ok automaton)
    (collected : builder.labelled = grouped (edges.map keyed))
    (ordered : Automaton.InOrder edges) :
    automaton.transitions = edges := by
  rcases build_eq_ok_iff.mp made with ⟨mentioned, rfl⟩
  have inside := (inside_iff populated).mpr mentioned
  have wellFormed := wellFormed_layout populated inside
  refine ordered.eq_of_pairwise ?_ ?_
  · exact Automaton.pairwise_transitions wellFormed.rows_bounded
      (pairwise_rowEdges_of_grouped mentioned collected) fun _ _ => Or.inl
  · rintro ⟨source, symbol, destination⟩
    rw [Automaton.mem_transitions_iff wellFormed.rows_bounded,
      mem_destinations_layout_iff populated inside, HasTransition, collected, getD_get?_grouped,
      StateSet.mem_ofList, mem_gathered_keyed_iff]

end Builder

end Acceptor
