import Acceptor.Pattern.Checked
import Acceptor.Proofs.Combinators.Sums
import Acceptor.Proofs.Pattern.Translation
import Acceptor.Proofs.Pattern.Weight

/-!
# Assembling without overflow

An automaton weighs two more than the number of its states.  With this, the
weight of a composition is the sum of the weights of its parts, and what a
single pass will have assembled in the end can be foreseen from the signs that
are still to be read.

As long as what is foreseen is small enough, no construction along the way
forms a sum that is too large, and none fails: all that can go wrong is that
the signs are malformed.
-/

namespace Acceptor

/-- The number of states of an automaton, and two more. -/
def Automaton.weight {σ : Type} [DecidableEq σ] [Hashable σ] (automaton : Automaton σ) : Nat :=
  automaton.numStates.toNat + 2

namespace Pattern

/-- What automata weigh together. -/
def totalWeight (automata : List (Automaton CodeUnit)) : Nat :=
  (automata.map Automaton.weight).sum

/-- What automata weigh when they are composed; without any, the one for the empty word does. -/
def composedWeight : List (Automaton CodeUnit) → Nat
  | [] => 3
  | automata => totalWeight automata

theorem composedWeight_reverse (automata : List (Automaton CodeUnit)) :
    composedWeight automata.reverse =
      totalWeight automata + if automata.isEmpty then 3 else 0 := by
  cases automata with
  | nil => rfl
  | cons first rest =>
      have weight : totalWeight (first :: rest).reverse = totalWeight (first :: rest) := by
        rw [totalWeight, List.map_reverse, List.sum_reverse, totalWeight]
      rw [← weight]
      cases reversed : (first :: rest).reverse with
      | nil => exact absurd reversed (by simp)
      | cons last earlier => rfl

/-! ## The constructions -/

/-- An automaton of a weight results, whether or not sums are checked. -/
def Makes
    (checked : Checked RegexError (Automaton CodeUnit))
    (plain : Except RegexError (Automaton CodeUnit))
    (weight : Nat) : Prop :=
  ∃ automaton, plain = pure automaton ∧ checked = pure automaton ∧ automaton.WellFormed ∧
    automaton.weight = weight

theorem makes_emptyInput :
    Makes Constructions.checked.emptyInput Constructions.plain.emptyInput 3 := by
  rcases Automaton.exists_emptyInput_language CodeUnit with ⟨automaton, made, formed, count, _⟩
  have plain : Constructions.plain.emptyInput = pure automaton :=
    congrArg (Except.mapError RegexError.automaton) made
  have checked : Constructions.checked.emptyInput = pure automaton := congrArg liftExcept plain
  exact ⟨automaton, plain, checked, formed, congrArg (· + 2) count⟩

theorem makes_leaf (leaf : Leaf) :
    Makes (Constructions.checked.leaf leaf) (Constructions.plain.leaf leaf) 4 := by
  rcases leaf.yields with ⟨automaton, made, realizes⟩
  have plain : Constructions.plain.leaf leaf = pure automaton :=
    congrArg (Except.mapError RegexError.automaton) made
  have checked : Constructions.checked.leaf leaf = pure automaton := congrArg liftExcept plain
  exact ⟨automaton, plain, checked, realizes.wellFormed, congrArg (· + 2) realizes.numStates⟩

/-- A construction that forms no sum that is too large makes the same automaton either way. -/
theorem makes_of_made
    {checked : Checked AutomatonError (Automaton CodeUnit)}
    {plain : Except AutomatonError (Automaton CodeUnit)}
    {automaton : Automaton CodeUnit}
    {weight : Nat}
    (same : checked = some plain)
    (made : plain = .ok automaton)
    (formed : automaton.WellFormed)
    (weighs : automaton.weight = weight) :
    Makes (checked.adapt .automaton) (plain.mapError .automaton) weight := by
  refine ⟨automaton, ?_, ?_, formed, weighs⟩
  · rw [made]
    rfl
  · rw [same, made]
    rfl

theorem makes_star
    {body : Automaton CodeUnit}
    (formed : body.WellFormed)
    (small : body.weight < 2 ^ 32) :
    Makes (Constructions.checked.star body) (Constructions.plain.star body)
      (body.weight + 2) := by
  rcases Automaton.exists_star_language formed small with ⟨whole, made, wholeFormed, count, _⟩
  exact makes_of_made (Automaton.star?_eq_some formed small) made wholeFormed
    (congrArg (· + 2) count)

/-- Composing two automata adds up their weights, as long as the sum is small enough. -/
def Composes
    (checked : Automaton CodeUnit → Automaton CodeUnit → Checked RegexError (Automaton CodeUnit))
    (plain : Automaton CodeUnit → Automaton CodeUnit → Except RegexError (Automaton CodeUnit)) :
    Prop :=
  ∀ first second : Automaton CodeUnit, first.WellFormed → second.WellFormed →
    first.weight + second.weight < 2 ^ 32 + 2 →
      Makes (checked first second) (plain first second) (first.weight + second.weight)

theorem room_of_weights
    {first second : Automaton CodeUnit}
    (room : first.weight + second.weight < 2 ^ 32 + 2) :
    first.numStates.toNat + second.numStates.toNat + 2 < 2 ^ 32 := by
  unfold Automaton.weight at room
  omega

theorem weight_of_count
    {first second whole : Automaton CodeUnit}
    (count : whole.numStates.toNat = first.numStates.toNat + second.numStates.toNat + 2) :
    whole.weight = first.weight + second.weight := by
  unfold Automaton.weight
  omega

theorem composes_concatenation :
    Composes Constructions.checked.concatenation Constructions.plain.concatenation := by
  intro first second firstFormed secondFormed room
  have small := room_of_weights room
  rcases Automaton.exists_concatenation_language firstFormed secondFormed small with
    ⟨whole, made, formed, count, _⟩
  exact makes_of_made (Automaton.compose?_eq_some firstFormed secondFormed small _) made formed
    (weight_of_count count)

theorem composes_union :
    Composes Constructions.checked.union Constructions.plain.union := by
  intro first second firstFormed secondFormed room
  have small := room_of_weights room
  rcases Automaton.exists_union_language firstFormed secondFormed small with
    ⟨whole, made, formed, count, _⟩
  exact makes_of_made (Automaton.compose?_eq_some firstFormed secondFormed small _) made formed
    (weight_of_count count)

section Combining

variable {checked : Automaton CodeUnit → Automaton CodeUnit →
    Checked RegexError (Automaton CodeUnit)}
  {plain : Automaton CodeUnit → Automaton CodeUnit → Except RegexError (Automaton CodeUnit)}
  (composes : Composes checked plain)

include composes

theorem Composes.makes_foldlM
    {first : Automaton CodeUnit}
    {rest : List (Automaton CodeUnit)}
    (formed : first.WellFormed)
    (restFormed : ∀ automaton ∈ rest, automaton.WellFormed)
    (room : first.weight + totalWeight rest < 2 ^ 32 + 2) :
    Makes (rest.foldlM checked first) (rest.foldlM plain first)
      (first.weight + totalWeight rest) := by
  induction rest generalizing first with
  | nil => exact ⟨first, rfl, rfl, formed, rfl⟩
  | cons next rest induction =>
      rw [totalWeight, List.map_cons, List.sum_cons, ← Nat.add_assoc] at room ⊢
      rcases composes first next formed (restFormed next (List.mem_cons_self ..))
          (Nat.lt_of_add_right_lt room) with
        ⟨joined, made, checkedMade, joinedFormed, weight⟩
      rw [List.foldlM_cons, List.foldlM_cons, checkedMade, made, pure_bind, pure_bind, ← weight]
      apply induction joinedFormed fun automaton member =>
        restFormed automaton (List.mem_cons_of_mem _ member)
      rw [weight]
      exact room

theorem Composes.makes_combine
    {automata : List (Automaton CodeUnit)}
    (formed : ∀ automaton ∈ automata, automaton.WellFormed)
    (room : composedWeight automata < 2 ^ 32 + 2) :
    Makes (Assembly.combine .checked checked automata) (Assembly.combine .plain plain automata)
      (composedWeight automata) := by
  cases automata with
  | nil => exact makes_emptyInput
  | cons first rest =>
      exact composes.makes_foldlM (formed first (List.mem_cons_self ..))
        (fun automaton member => formed automaton (List.mem_cons_of_mem _ member)) room

end Combining

/-! ## The pass -/

namespace Assembly

/-- All automata of an assembly are well formed. -/
structure Sound (assembly : Assembly) : Prop where
  branches : ∀ automaton ∈ assembly.branches, automaton.WellFormed
  atoms : ∀ automaton ∈ assembly.atoms, automaton.WellFormed

/-- What an assembly will weigh when it has been continued with signs. -/
def foreseen (assembly : Assembly) (signs : List Sign) : Nat :=
  totalWeight assembly.branches + totalWeight assembly.atoms +
    weightFrom assembly.atoms.isEmpty signs

theorem sound_empty : empty.Sound :=
  ⟨List.forall_mem_nil _, List.forall_mem_nil _⟩

/-- No signs weigh less than those that begin with the end of a branch. -/
theorem foreseen_nil_le (assembly : Assembly) (signs : List Sign) :
    assembly.foreseen [] ≤ assembly.foreseen (.mark .bar :: signs) := by
  simp only [foreseen, weightFrom]
  omega

theorem Sound.makes_close
    {assembly : Assembly}
    (sound : assembly.Sound)
    (room : assembly.foreseen [] < 2 ^ 32 + 2) :
    ∃ branch, branch.WellFormed ∧
      totalWeight (branch :: assembly.branches) = assembly.foreseen [] ∧
      assembly.close .plain =
        pure { assembly with branches := branch :: assembly.branches, atoms := [] } ∧
      assembly.close .checked =
        pure { assembly with branches := branch :: assembly.branches, atoms := [] } := by
  have weight : composedWeight assembly.atoms.reverse + totalWeight assembly.branches =
      assembly.foreseen [] := by
    rw [composedWeight_reverse, foreseen, weightFrom]
    omega
  rcases composes_concatenation.makes_combine
      (fun automaton member => sound.atoms automaton (List.mem_reverse.mp member))
      (Nat.lt_of_add_right_lt (weight ▸ room)) with
    ⟨branch, made, checkedMade, formed, branchWeight⟩
  refine ⟨branch, formed, ?_, ?_, ?_⟩
  · rw [← weight, ← branchWeight]
    rfl
  · rw [close, made]
    rfl
  · rw [close, checkedMade]
    rfl

theorem Sound.makes_finish
    {assembly : Assembly}
    (sound : assembly.Sound)
    (room : assembly.foreseen [] < 2 ^ 32 + 2) :
    Makes (assembly.finish .checked) (assembly.finish .plain) (assembly.foreseen []) := by
  rcases sound.makes_close room with ⟨branch, formed, weight, closed, checkedClosed⟩
  have composed : composedWeight (branch :: assembly.branches).reverse = assembly.foreseen [] := by
    rw [composedWeight_reverse, weight]
    rfl
  rw [finish, finish, closed, checkedClosed, pure_bind, pure_bind, ← composed]
  apply composes_union.makes_combine
  · intro automaton member
    exact List.forall_mem_cons.mpr ⟨formed, sound.branches⟩ automaton (List.mem_reverse.mp member)
  · rw [composed]
    exact room

/-- Reading finds the signs malformed, or ends with what was foreseen. -/
def Tracks
    (checked : Checked RegexError Assembly)
    (plain : Except RegexError Assembly)
    (rest : List Sign)
    (weight : Nat) : Prop :=
  (∃ cause, plain = throw (.malformed cause) ∧ checked = throw (.malformed cause)) ∨
    ∃ next, plain = pure next ∧ checked = pure next ∧ next.Sound ∧ next.foreseen rest = weight

/-- Reading goes on from what it has ended with, unless the signs are malformed. -/
theorem Tracks.bind
    {checked : Checked RegexError Assembly}
    {plain : Except RegexError Assembly}
    {rest others : List Sign}
    {weight total : Nat}
    (tracks : Tracks checked plain rest weight)
    {checkedNext : Assembly → Checked RegexError Assembly}
    {plainNext : Assembly → Except RegexError Assembly}
    (continued : ∀ next : Assembly, next.Sound → next.foreseen rest = weight →
      Tracks (checkedNext next) (plainNext next) others total) :
    Tracks (checked >>= checkedNext) (plain >>= plainNext) others total := by
  rcases tracks with ⟨cause, rfl, rfl⟩ | ⟨next, rfl, rfl, sound, weighs⟩
  · exact Or.inl ⟨cause, rfl, rfl⟩
  · rw [pure_bind, pure_bind]
    exact continued next sound weighs

theorem Sound.tracks_star
    {assembly : Assembly}
    (sound : assembly.Sound)
    (index : Nat)
    (rest : List Sign)
    (room : assembly.foreseen (.mark .star :: rest) < 2 ^ 32 + 2) :
    Tracks (assembly.star .checked index) (assembly.star .plain index) rest
      (assembly.foreseen (.mark .star :: rest)) := by
  obtain ⟨branches, atoms, quantifiable⟩ := assembly
  cases atoms with
  | nil => exact Or.inl ⟨.nothingToRepeat index, rfl, rfl⟩
  | cons last earlier =>
      cases quantifiable with
      | false => exact Or.inl ⟨.notQuantifiable index, rfl, rfl⟩
      | true =>
          simp only [foreseen, totalWeight, List.map_cons, List.sum_cons, weightFrom] at room
          rcases makes_star (sound.atoms last (List.mem_cons_self ..)) (by omega) with
            ⟨repeated, made, checkedMade, formed, weight⟩
          have others := (List.forall_mem_cons.mp sound.atoms).2
          refine Or.inr ⟨{ branches, atoms := repeated :: earlier, quantifiable := false }, ?_, ?_,
            ⟨sound.branches, List.forall_mem_cons.mpr ⟨formed, others⟩⟩, ?_⟩
          · simp only [star, made, if_true]
            rfl
          · simp only [star, checkedMade, if_true]
            rfl
          · simp only [foreseen, totalWeight, List.map_cons, List.sum_cons, weightFrom,
              List.isEmpty_cons, weight]
            omega

/-- A new atom adds its weight. -/
theorem foreseen_push (assembly : Assembly) (automaton : Automaton CodeUnit) (rest : List Sign) :
    (assembly.push automaton).foreseen rest =
      totalWeight assembly.branches + totalWeight assembly.atoms +
        (automaton.weight + weightFrom false rest) := by
  simp only [foreseen, push, totalWeight, List.map_cons, List.sum_cons, List.isEmpty_cons]
  omega

theorem Sound.push
    {assembly : Assembly}
    (sound : assembly.Sound)
    {automaton : Automaton CodeUnit}
    (formed : automaton.WellFormed) :
    (assembly.push automaton).Sound :=
  ⟨sound.branches, List.forall_mem_cons.mpr ⟨formed, sound.atoms⟩⟩

theorem Sound.tracks_readMark
    {assembly : Assembly}
    (sound : assembly.Sound)
    (index : Nat)
    (mark : Mark)
    (rest : List Sign)
    (room : assembly.foreseen (.mark mark :: rest) < 2 ^ 32 + 2) :
    Tracks (assembly.readMark .checked index mark) (assembly.readMark .plain index mark) rest
      (assembly.foreseen (.mark mark :: rest)) := by
  cases mark with
  | bar =>
      rcases sound.makes_close (Nat.lt_of_le_of_lt (assembly.foreseen_nil_le rest) room) with
        ⟨branch, formed, weight, closed, checkedClosed⟩
      refine Or.inr ⟨{ assembly with branches := branch :: assembly.branches, atoms := [] },
        closed, checkedClosed,
        ⟨List.forall_mem_cons.mpr ⟨formed, sound.branches⟩, List.forall_mem_nil _⟩, ?_⟩
      · rw [foreseen, weight, foreseen, foreseen, weightFrom, weightFrom]
        simp only [totalWeight, List.map_nil, List.sum_nil, List.isEmpty_nil, Nat.add_assoc,
          Nat.zero_add]
  | star => exact sound.tracks_star index rest room
  | leaf leaf =>
      rcases makes_leaf leaf with ⟨automaton, made, checkedMade, formed, weight⟩
      refine Or.inr ⟨assembly.push automaton, ?_, ?_, sound.push formed, ?_⟩
      · rw [readMark, made]
        rfl
      · rw [readMark, checkedMade]
        rfl
      · rw [foreseen_push, weight]
        rfl

/-- A group is foreseen to weigh what its body is foreseen to weigh by itself. -/
theorem foreseen_group
    {opened index : Nat}
    {rest after : List Sign}
    {body : List Mark}
    (found : groupBody opened index rest = .ok (body, after))
    (assembly : Assembly) :
    assembly.foreseen (.parenthesis .opening :: rest) =
      totalWeight assembly.branches + totalWeight assembly.atoms +
        (empty.foreseen (body.map .mark) + weightFrom false after) := by
  rw [foreseen, weightFrom, eq_of_groupBody found, weightFrom_group]
  simp only [foreseen, empty, totalWeight, List.map_nil, List.sum_nil, List.isEmpty_nil,
    Nat.zero_add]

/-- While what is foreseen is small enough, checking the sums makes no difference. -/
theorem Sound.tracks_read
    {assembly : Assembly}
    (sound : assembly.Sound)
    (index : Nat)
    (signs : List Sign)
    (room : assembly.foreseen signs < 2 ^ 32 + 2) :
    Tracks (assembly.read .checked index signs) (assembly.read .plain index signs) []
      (assembly.foreseen signs) := by
  match signs with
  | [] =>
      rw [read_nil, read_nil]
      exact Or.inr ⟨assembly, rfl, rfl, sound, rfl⟩
  | .mark mark :: rest =>
      rw [read_mark, read_mark]
      apply (sound.tracks_readMark index mark rest room).bind
      intro next nextSound weight
      rw [← weight] at room ⊢
      exact nextSound.tracks_read (index + 1) rest room
  | .parenthesis .closing :: rest =>
      rw [read_closing, read_closing]
      exact Or.inl ⟨.strayClosingGroup index, rfl, rfl⟩
  | .parenthesis .opening :: rest =>
      match found : groupBody index (index + 1) rest with
      | .error cause =>
          rw [read_opening_of_error _ found, read_opening_of_error _ found]
          exact Or.inl ⟨cause, rfl, rfl⟩
      | .ok (body, after) =>
          -- The body consists of marks, and so the same pass one level down ends there.
          have divided := length_of_groupBody found
          rw [foreseen_group found] at room ⊢
          rw [read_opening_of_ok _ found, read_opening_of_ok _ found]
          apply (sound_empty.tracks_read (index + 1) (body.map .mark) (by omega)).bind
          intro inside insideSound insideWeight
          rcases insideSound.makes_finish (by omega) with
            ⟨group, made, checkedMade, formed, weight⟩
          have continued : (assembly.push group).foreseen after =
              totalWeight assembly.branches + totalWeight assembly.atoms +
                (empty.foreseen (body.map .mark) + weightFrom false after) := by
            rw [foreseen_push, weight, insideWeight]
          rw [checkedMade, made, pure_bind, pure_bind]
          rw [← continued] at room ⊢
          exact (sound.push formed).tracks_read (index + body.length + 2) after room
termination_by signs.length
decreasing_by
  · exact Nat.lt_add_one _
  · rw [List.length_map, List.length_cons]
    omega
  · rw [List.length_cons]
    omega

end Assembly

/-- Code units are malformed, or assembled into an automaton with the weight of their signs. -/
theorem assemble_cases
    {units : List CodeUnit}
    (room : weightFrom true (units.map Sign.ofUnit) < 2 ^ 32 + 2) :
    assemble? units = some (assemble units) ∧
      ((∃ cause, assemble units = .error (.malformed cause)) ∨
        ∃ automaton, assemble units = .ok automaton ∧
          automaton.weight = weightFrom true (units.map Sign.ofUnit)) := by
  have whole : Assembly.empty.foreseen (units.map Sign.ofUnit) =
      weightFrom true (units.map Sign.ofUnit) := Nat.zero_add _
  rw [← whole] at room ⊢
  rw [assemble, assemble?, Assembly.ofUnits, Assembly.ofUnits]
  rcases Assembly.sound_empty.tracks_read 0 (units.map Sign.ofUnit) room with
    ⟨cause, plain, checked⟩ | ⟨assembly, plain, checked, sound, weight⟩
  · rw [plain, checked]
    exact ⟨rfl, Or.inl ⟨cause, rfl⟩⟩
  · rw [← weight] at room ⊢
    rcases sound.makes_finish room with ⟨automaton, made, checkedMade, _, counted⟩
    rw [plain, checked, pure_bind, pure_bind, made, checkedMade]
    exact ⟨rfl, Or.inr ⟨automaton, rfl, counted⟩⟩

end Pattern

end Acceptor
