import Acceptor.Automaton.Determinization
import Acceptor.Proofs.Determinization.Moves
import Mathlib.Data.List.Basic

/-!
# What an exploration knows

Composite states are numbered in the order of their discovery and expanded in
the order of their numbers.  An exploration that has expanded some of them is
therefore determined by how many there were: its composite states are the
first one and the targets of those expanded, each at its first occurrence; the
others wait in the order of their numbers; and the edges, the final states and
the records are those of the composite states in question.

Expanding the next composite state keeps this description, so it holds when
the exploration ends.
-/

namespace Acceptor

universe u

namespace Exploration

variable {σ : Type u}

/-! ## Numbers -/

/-- The composite states with their numbers. -/
def numbered (composites : Enumeration StateSet) : List (State × StateSet) :=
  composites.toList.zipIdx.map fun entry => (UInt32.ofNat entry.2, entry.1)

/-- The number of a composite state. -/
def number (composites : Enumeration StateSet) (composite : StateSet) : State :=
  UInt32.ofNat (composites.toList.idxOf composite)

@[simp]
theorem length_numbered (composites : Enumeration StateSet) :
    (numbered composites).length = composites.size := by
  simp [numbered]

theorem map_snd_numbered (composites : Enumeration StateSet) :
    (numbered composites).map Prod.snd = composites.toList := by
  simp [numbered, Function.comp_def]

theorem getElem?_numbered (composites : Enumeration StateSet) (index : Nat) :
    (numbered composites)[index]? =
      (composites.get? index).map fun composite => (UInt32.ofNat index, composite) := by
  simp [numbered, Function.comp_def]

theorem number_eq_of_position? {composites : Enumeration StateSet}
    {composite : StateSet} {index : Nat}
    (found : composites.position? composite = some index) :
    number composites composite = UInt32.ofNat index := by
  have standing := Enumeration.position?_eq_some_iff.mp found
  have first :
      composites.get? (composites.toList.idxOf composite) = some composite := by
    rw [← Enumeration.getElem?_toList]
    exact List.getElem?_idxOf (Enumeration.mem_def.mp (Enumeration.mem_of_get? standing))
  rw [number, Enumeration.get?_inj first standing]

section Growth

variable {composites : Enumeration StateSet} (added : List StateSet)

theorem toList_insertMany_prefix :
    composites.toList <+: (composites.insertMany added).toList := by
  rw [Enumeration.toList_insertMany]
  exact List.prefix_append _ _

/-- Numbers are not given away again. -/
theorem numbered_insertMany :
    numbered (composites.insertMany added) =
      numbered composites ++
        (numbered (composites.insertMany added)).drop composites.size := by
  have taken :
      (numbered (composites.insertMany added)).take composites.size =
        numbered composites := by
    rw [numbered, ← List.map_take, numbered, Enumeration.toList_insertMany,
      List.zipIdx_append, List.take_left' (by simp)]
  rw [← taken, List.take_append_drop]

theorem number_insertMany {composite : StateSet} (member : composite ∈ composites) :
    number (composites.insertMany added) composite = number composites composite := by
  rw [number, Enumeration.toList_insertMany,
    List.idxOf_append_of_mem (Enumeration.mem_def.mp member), number]

theorem take_toList_insertMany {expanded : Nat} (bound : expanded ≤ composites.size) :
    (composites.insertMany added).toList.take expanded =
      composites.toList.take expanded := by
  rw [Enumeration.toList_insertMany,
    List.take_append_of_le_length (by simpa using bound)]

theorem get?_insertMany_of_lt {index : Nat} (below : index < composites.size) :
    (composites.insertMany added).get? index = composites.get? index := by
  rw [← Enumeration.getElem?_toList, Enumeration.toList_insertMany,
    List.getElem?_append_left (by simpa using below), Enumeration.getElem?_toList]

theorem size_le_insertMany :
    composites.size ≤ (composites.insertMany added).size := by
  have shorter : composites.toList <+: (composites.insertMany added).toList :=
    toList_insertMany_prefix added
  simpa using shorter.length_le

theorem mem_insertMany_iff {composite : StateSet} :
    composite ∈ composites.insertMany added ↔
      composite ∈ composites ∨ composite ∈ added := by
  rw [Enumeration.mem_def, Enumeration.toList_insertMany, List.mem_append,
    List.mem_eraseDups, List.mem_filter, Enumeration.mem_def]
  by_cases known : composite ∈ composites.toList <;> simp [known]

end Growth

theorem numbered_insert_of_not_mem {composites : Enumeration StateSet}
    {composite : StateSet} (fresh : composites.position? composite = none) :
    numbered (composites.push composite fresh) =
      numbered composites ++ [(UInt32.ofNat composites.size, composite)] := by
  simp [numbered, List.zipIdx_append]

/-! ## Following moves -/

/-- The record of the discovery of a numbered composite state. -/
def report (entry : State × StateSet) : Record :=
  .composite entry.1 entry.2

/-- What following moves from a source adds to an exploration. -/
structure Followed (source : State) (moves : List (σ × StateSet))
    (before after : Exploration σ) : Prop where
  composites : after.composites = before.composites.insertMany (moves.map Prod.snd)
  pending : waiting after.pending =
    waiting before.pending ++ (numbered after.composites).drop before.composites.size
  transitions : after.transitions.toList = before.transitions.toList ++
    moves.map fun move => (source, move.1, number after.composites move.2)
  finals : after.finals = before.finals
  log : after.log.toList = before.log.toList ++
    ((numbered after.composites).drop before.composites.size).map report

section Followed

variable {source : State} {moves : List (σ × StateSet)} {before after : Exploration σ}

theorem Followed.size_le (followed : Followed source moves before after) :
    before.composites.size ≤ after.composites.size := by
  rw [followed.composites]
  exact size_le_insertMany _

theorem Followed.numbered_composites (followed : Followed source moves before after) :
    numbered after.composites =
      numbered before.composites ++
        (numbered after.composites).drop before.composites.size := by
  conv_lhs => rw [followed.composites, numbered_insertMany, ← followed.composites]

/-- If every composite state but the first one was reported before, so it is afterwards. -/
theorem Followed.log_eq (followed : Followed source moves before after)
    (nonempty : 0 < before.composites.size)
    (log : before.log.toList = ((numbered before.composites).drop 1).map report) :
    after.log.toList = ((numbered after.composites).drop 1).map report := by
  rw [followed.log, log, ← List.map_append, ← List.drop_append_of_le_length (by simpa),
    ← followed.numbered_composites]

end Followed

theorem Followed.refl (source : State) (exploration : Exploration σ) :
    Followed source [] exploration exploration := by
  have none : (numbered exploration.composites).drop exploration.composites.size = [] :=
    List.drop_eq_nil_of_le (by simp)
  constructor <;> simp [none, Enumeration.insertMany]

theorem Followed.trans {source : State} {first second : List (σ × StateSet)}
    {before middle after : Exploration σ}
    (earlier : Followed source first before middle)
    (later : Followed source second middle after) :
    Followed source (first ++ second) before after := by
  have grown : after.composites =
      middle.composites.insertMany (second.map Prod.snd) := later.composites
  have split :
      (numbered after.composites).drop before.composites.size =
        (numbered middle.composites).drop before.composites.size ++
          (numbered after.composites).drop middle.composites.size := by
    conv_lhs => rw [later.numbered_composites]
    exact List.drop_append_of_le_length (by simpa using earlier.size_le)
  have kept : ∀ move ∈ first,
      number after.composites move.2 = number middle.composites move.2 := by
    intro move member
    rw [grown]
    apply number_insertMany
    rw [earlier.composites, mem_insertMany_iff]
    exact Or.inr (List.mem_map_of_mem member)
  refine ⟨?_, ?_, ?_, ?_, ?_⟩
  · rw [grown, earlier.composites, Enumeration.insertMany, Enumeration.insertMany,
      Enumeration.insertMany, List.map_append, List.foldl_append]
  · rw [later.pending, earlier.pending, split, List.append_assoc]
  · rw [later.transitions, earlier.transitions, List.map_append, List.append_assoc]
    congr 2
    refine List.map_congr_left fun move member => ?_
    rw [kept move member]
  · rw [later.finals, earlier.finals]
  · rw [later.log, earlier.log, split, List.map_append, List.append_assoc]

/-- A composite state is located where it stands, or numbered next. -/
theorem locate_cases {limit : Option Nat} {exploration located : Exploration σ}
    {composite : StateSet} {state : State}
    (result : exploration.locate limit composite = .ok (state, located)) :
    (composite ∈ exploration.composites ∧ located = exploration ∧
        state = number exploration.composites composite) ∨
      ∃ fresh : exploration.composites.position? composite = none,
        state = UInt32.ofNat exploration.composites.size ∧
        located = { exploration with
          composites := exploration.composites.push composite fresh
          pending := exploration.pending.enqueue (state, composite)
          log := exploration.log.push (.composite state composite) } := by
  unfold locate at result
  split at result
  · next index found =>
      cases result
      exact Or.inl ⟨Enumeration.mem_of_get? (Enumeration.position?_eq_some_iff.mp found),
        rfl, (number_eq_of_position? found).symm⟩
  · next fresh =>
      split at result
      · cases result
      · cases result
        exact Or.inr ⟨fresh, rfl, rfl⟩

theorem followed_follow {limit : Option Nat} {source : State}
    {exploration followed : Exploration σ} {move : σ × StateSet}
    (result : exploration.follow limit source move = .ok followed) :
    Followed source [move] exploration followed := by
  unfold follow at result
  split at result
  · cases result
  · next destination located found =>
      cases result
      have insertion : exploration.composites.insertMany [move.2] =
          exploration.composites.insert move.2 := rfl
      rcases locate_cases found with ⟨known, rfl, rfl⟩ | ⟨fresh, rfl, rfl⟩
      · have same : located.composites.insertMany [move.2] = located.composites := by
          rw [insertion, Enumeration.insert_of_mem known]
        have none :
            (numbered located.composites).drop located.composites.size = [] :=
          List.drop_eq_nil_of_le (by simp)
        constructor <;> simp [same, none]
      · have absent := Enumeration.position?_eq_none_iff.mp fresh
        have new :
            (numbered (exploration.composites.push move.2 fresh)).drop
                exploration.composites.size =
              [(UInt32.ofNat exploration.composites.size, move.2)] := by
          rw [numbered_insert_of_not_mem]
          exact List.drop_left' (by simp)
        have place : number (exploration.composites.push move.2 fresh) move.2 =
            UInt32.ofNat exploration.composites.size := by
          apply number_eq_of_position?
          simp [Enumeration.position?_push]
        constructor
        · simp [insertion, Enumeration.insert_of_not_mem absent]
        · simp [new]
        · simp [place]
        · rfl
        · simp [new, report]

theorem followed_followAll {limit : Option Nat} {source : State}
    {exploration followed : Exploration σ} {moves : List (σ × StateSet)}
    (result : exploration.followAll limit source moves = .ok followed) :
    Followed source moves exploration followed := by
  induction moves generalizing exploration with
  | nil =>
      cases result
      exact .refl source _
  | cons move rest induction =>
      unfold followAll at result
      split at result
      · cases result
      · next first => exact (followed_follow first).trans (induction result)

/-! ## Without a limit -/

theorem exists_locate (exploration : Exploration σ) (composite : StateSet) :
    ∃ located, exploration.locate none composite = .ok located := by
  unfold locate
  split
  · exact ⟨_, rfl⟩
  · exact ⟨_, rfl⟩

theorem exists_followAll (exploration : Exploration σ) (source : State)
    (moves : List (σ × StateSet)) :
    ∃ followed, exploration.followAll none source moves = .ok followed := by
  induction moves generalizing exploration with
  | nil => exact ⟨_, rfl⟩
  | cons move rest induction =>
      rcases exists_locate exploration move.2 with ⟨located, found⟩
      unfold followAll follow
      rw [found]
      exact induction _

/-! ## Expanding -/

variable [DecidableEq σ] [Hashable σ]

/-- Where the moves of a composite state lead. -/
def targets (automaton : Automaton σ) (composite : StateSet) : List StateSet :=
  (automaton.moves composite).map Prod.snd

/-- The first composite state and the targets of others, in the order in which they are met. -/
def met (automaton : Automaton σ) (expanded : List StateSet) : List StateSet :=
  automaton.epsilonClosureOf automaton.initial :: expanded.flatMap (targets automaton)

/-- The edges of a numbered composite state. -/
def edgesOf (automaton : Automaton σ) (composites : Enumeration StateSet)
    (entry : State × StateSet) : List (State × σ × State) :=
  (automaton.moves entry.2).map fun move =>
    (entry.1, move.1, number composites move.2)

/-- An exploration in which a number of composite states have been expanded. -/
structure Explored (automaton : Automaton σ) (expanded : Nat)
    (exploration : Exploration σ) : Prop where
  bound : expanded ≤ exploration.composites.size
  composites : exploration.composites =
    .ofList (met automaton (exploration.composites.toList.take expanded))
  discovered : ∀ index < expanded, ∀ composite,
    exploration.composites.get? index = some composite →
      composite ∈ met automaton (exploration.composites.toList.take index)
  pending : waiting exploration.pending =
    (numbered exploration.composites).drop expanded
  transitions : exploration.transitions.toList =
    ((numbered exploration.composites).take expanded).flatMap
      (edgesOf automaton exploration.composites)
  finals : exploration.finals.toList =
    (((numbered exploration.composites).take expanded).filter
      (·.2.intersects automaton.finals)).map Prod.fst
  log : exploration.log.toList = ((numbered exploration.composites).drop 1).map report

theorem met_append (automaton : Automaton σ) (first second : List StateSet) :
    met automaton (first ++ second) =
      met automaton first ++ second.flatMap (targets automaton) := by
  simp [met]

theorem mem_met_iff {automaton : Automaton σ} {expanded : List StateSet}
    {composite : StateSet} :
    composite ∈ met automaton expanded ↔
      composite = automaton.epsilonClosureOf automaton.initial ∨
        ∃ source ∈ expanded, ∃ symbol,
          automaton.Labels source symbol ∧ composite = automaton.move source symbol := by
  simp only [met, targets, List.mem_cons, List.mem_flatMap, List.mem_map, Prod.exists,
    exists_eq_right, Automaton.mem_moves_iff]

theorem explored_start (automaton : Automaton σ) :
    Explored automaton 0
      (start (automaton.epsilonClosureOf automaton.initial) : Exploration σ) where
  bound := Nat.zero_le _
  composites := rfl
  discovered index below := absurd below (Nat.not_lt_zero index)
  pending := by
    simp [start, numbered, Enumeration.toList_insert]
  transitions := by simp [start]
  finals := by simp [start]
  log := by
    simp [start, numbered, Enumeration.toList_insert]

/-- Marking a composite state as final changes the list of final states alone. -/
theorem markFinal_eq (automaton : Automaton σ) (state : State) (composite : StateSet)
    (exploration : Exploration σ) :
    markFinal automaton state composite exploration =
      { exploration with
        finals := exploration.finals ++
          if composite.intersects automaton.finals then #[state] else #[] } := by
  unfold markFinal
  split <;> simp

namespace Explored

variable {automaton : Automaton σ} {expanded : Nat} {exploration : Exploration σ}

theorem mem_composites_iff (explored : Explored automaton expanded exploration)
    {composite : StateSet} :
    composite ∈ exploration.composites ↔
      composite ∈ met automaton (exploration.composites.toList.take expanded) := by
  conv_lhs =>
    rw [explored.composites, Enumeration.mem_def, Enumeration.toList_ofList,
      List.mem_eraseDups]

theorem size_pos (explored : Explored automaton expanded exploration) :
    0 < exploration.composites.size := by
  have first : automaton.epsilonClosureOf automaton.initial ∈ exploration.composites :=
    explored.mem_composites_iff.mpr (List.mem_cons_self ..)
  rcases Enumeration.mem_iff_get?.mp first with ⟨index, found⟩
  exact Nat.lt_of_le_of_lt (Nat.zero_le index) (Enumeration.get?_lt found)

/-- What is dequeued is the next composite state with its number. -/
theorem dequeued (explored : Explored automaton expanded exploration)
    {state : State} {composite : StateSet} {rest : Std.Queue (State × StateSet)}
    (dequeue : exploration.pending.dequeue? = some ((state, composite), rest)) :
    exploration.composites.get? expanded = some composite ∧
      state = UInt32.ofNat expanded ∧
      waiting rest = (numbered exploration.composites).drop (expanded + 1) := by
  have order := (waiting_of_dequeue?_eq_some dequeue).symm.trans explored.pending
  have head : (numbered exploration.composites)[expanded]? = some (state, composite) := by
    rw [← List.head?_drop, ← order, List.head?_cons]
  rw [getElem?_numbered, Option.map_eq_some_iff] at head
  rcases head with ⟨found, standing, same⟩
  cases same
  refine ⟨standing, rfl, ?_⟩
  rw [← List.tail_drop, ← order, List.tail_cons]

/-- The edges of expanded composite states lead to composite states that are known. -/
theorem edgesOf_insertMany (explored : Explored automaton expanded exploration)
    (added : List StateSet) :
    ∀ entry ∈ (numbered exploration.composites).take expanded,
      edgesOf automaton (exploration.composites.insertMany added) entry =
        edgesOf automaton exploration.composites entry := by
  intro entry member
  refine List.map_congr_left fun move moveMember => ?_
  rw [number_insertMany]
  apply explored.mem_composites_iff.mpr
  refine List.mem_cons_of_mem _ (List.mem_flatMap.mpr ⟨entry.2, ?_, ?_⟩)
  · rw [← map_snd_numbered, ← List.map_take]
    exact List.mem_map_of_mem member
  · exact List.mem_map_of_mem moveMember

/-- Expanding the next composite state keeps the description. -/
theorem expand (explored : Explored automaton expanded exploration)
    {limit : Option Nat} {state : State} {composite : StateSet}
    {rest : Std.Queue (State × StateSet)} {next : Exploration σ}
    (dequeue : exploration.pending.dequeue? = some ((state, composite), rest))
    (result : Exploration.expand automaton limit state composite
      { exploration with pending := rest } = .ok next) :
    Explored automaton (expanded + 1) next := by
  rcases explored.dequeued dequeue with ⟨standing, rfl, waitingRest⟩
  have below : expanded + 1 ≤ exploration.composites.size := Enumeration.get?_lt standing
  have followed := followed_followAll result
  rw [markFinal_eq] at followed
  have grown : next.composites =
      exploration.composites.insertMany (targets automaton composite) :=
    followed.composites
  have extended : numbered next.composites = numbered exploration.composites ++
      (numbered next.composites).drop exploration.composites.size :=
    followed.numbered_composites
  have taken : (numbered next.composites).take (expanded + 1) =
      (numbered exploration.composites).take expanded ++
        [(UInt32.ofNat expanded, composite)] := by
    rw [extended, List.take_append_of_le_length (by simpa using below), List.take_add_one,
      getElem?_numbered, standing]
    rfl
  have takenComposites : ∀ count ≤ expanded + 1,
      next.composites.toList.take count = exploration.composites.toList.take count := by
    intro count bound
    rw [grown, take_toList_insertMany _ (Nat.le_trans bound below)]
  have last : exploration.composites.toList.take (expanded + 1) =
      exploration.composites.toList.take expanded ++ [composite] := by
    rw [List.take_add_one, Enumeration.getElem?_toList, standing]
    rfl
  refine ⟨?_, ?_, ?_, ?_, ?_, ?_, ?_⟩
  · exact Nat.le_trans below followed.size_le
  · rw [takenComposites _ (Nat.le_refl _), last, met_append, List.flatMap_singleton, grown]
    conv_lhs => rw [explored.composites]
    exact List.foldl_append.symm
  · intro index early found foundNext
    rw [grown, get?_insertMany_of_lt _ (Nat.lt_of_lt_of_le early below)] at foundNext
    rw [takenComposites index (Nat.le_of_lt early)]
    rcases Nat.lt_succ_iff_lt_or_eq.mp early with earlier | rfl
    · exact explored.discovered index earlier found foundNext
    · exact explored.mem_composites_iff.mp (Enumeration.mem_of_get? foundNext)
  · rw [followed.pending, waitingRest]
    conv_rhs => rw [extended]
    exact (List.drop_append_of_le_length (by simpa using below)).symm
  · rw [followed.transitions, taken, List.flatMap_append, explored.transitions,
      List.flatMap_singleton]
    congr 1
    rw [grown]
    simp only [List.flatMap_def, List.map_congr_left (explored.edgesOf_insertMany _)]
  · rw [followed.finals, taken, List.filter_append, List.map_append,
      Array.toList_append, explored.finals]
    congr 1
    cases final : composite.intersects automaton.finals <;> simp [final]
  · exact followed.log_eq explored.size_pos explored.log

/-- The description holds when the exploration ends, of all composite states. -/
theorem run (explored : Explored automaton expanded exploration)
    {limit : Option Nat} {finished : Exploration σ}
    (result : exploration.run automaton limit = .ok finished) :
    Explored automaton finished.composites.size finished := by
  fun_induction Exploration.run automaton limit exploration generalizing expanded with
  | case1 exploration empty =>
      cases result
      have none : (numbered finished.composites).drop expanded = [] :=
        explored.pending.symm.trans (waiting_of_dequeue?_eq_none empty)
      have all : finished.composites.size ≤ expanded := by
        simpa using List.drop_eq_nil_iff.mp none
      exact Nat.le_antisymm explored.bound all ▸ explored
  | case2 => cases result
  | case3 exploration state composite rest dequeue next expansion induction =>
      exact induction (explored.expand dequeue expansion) result

/-! ### Complete explorations -/

section Complete

variable (complete : Explored automaton exploration.composites.size exploration)

include complete

theorem toList_composites :
    exploration.composites.toList =
      (met automaton exploration.composites.toList).eraseDups := by
  have all : exploration.composites.toList.take exploration.composites.size =
      exploration.composites.toList :=
    List.take_of_length_le (by simp)
  conv_lhs => rw [complete.composites, Enumeration.toList_ofList, all]

theorem toList_transitions :
    exploration.transitions.toList =
      (numbered exploration.composites).flatMap (edgesOf automaton exploration.composites) := by
  rw [complete.transitions, List.take_of_length_le (by simp)]

theorem toList_finals :
    exploration.finals.toList =
      ((numbered exploration.composites).filter
        (·.2.intersects automaton.finals)).map Prod.fst := by
  rw [complete.finals, List.take_of_length_le (by simp)]

end Complete

end Explored

/-- Without a limit the exploration is not stopped. -/
theorem exists_run (automaton : Automaton σ) (exploration : Exploration σ) :
    ∃ finished, exploration.run automaton none = .ok finished := by
  fun_induction Exploration.run automaton none exploration with
  | case1 exploration => exact ⟨exploration, rfl⟩
  | case2 exploration state composite rest dequeue stopped expansion =>
      rcases exists_followAll
        (markFinal automaton state composite { exploration with pending := rest })
        state (automaton.moves composite) with ⟨followed, result⟩
      have contradiction := expansion.symm.trans result
      cases contradiction
  | case3 exploration state composite rest dequeue next expansion induction =>
      exact induction

end Exploration

end Acceptor
