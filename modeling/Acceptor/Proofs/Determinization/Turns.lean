import Acceptor.Proofs.Determinization.Limits

/-!
# The turns of an exploration

An exploration proceeds in turns.  Each turn takes the composite state that has
waited longest out of the queue and expands it, and the exploration ends when
none is waiting or when a limit is exceeded.

Up to the turn in which a limit is exceeded, the turns are those of the
exploration without a limit.  So what is known between two turns is always the
beginning of what that exploration will discover, and what has been taken out
of the queue is the beginning of its composite states in the order of their
numbers.  These are fewer than the sets of states, which bounds the number of
turns.
-/

namespace Acceptor

universe u

variable {σ : Type u} [DecidableEq σ] [Hashable σ]

namespace Exploration

/-! ## Turns -/

/--
What has been taken out of the queue so far, the earliest first, and what is
known between two turns.
-/
inductive Proceeds (automaton : Automaton σ) (limit : Option Nat) :
    List (State × StateSet) → Exploration σ → Prop where
  /-- The first composite state is numbered, if the limit allows any. -/
  | start (allowed : exhausted? limit 0 = none) :
      Proceeds automaton limit [] (.start (automaton.epsilonClosureOf automaton.initial))
  /-- What has waited longest is taken out of the queue and expanded. -/
  | turn {taken : List (State × StateSet)} {exploration next : Exploration σ}
      {entry : State × StateSet} {rest : Std.Queue (State × StateSet)}
      (earlier : Proceeds automaton limit taken exploration)
      (dequeued : exploration.pending.dequeue? = some (entry, rest))
      (expansion : expand automaton limit entry.1 entry.2
        { exploration with pending := rest } = .ok next) :
      Proceeds automaton limit (taken ++ [entry]) next

/-- The ways in which an exploration ends. -/
inductive Ending (σ : Type u) where
  /-- Not even the first composite state was allowed. -/
  | refused (limit : Nat)
  /-- One more composite state would have been needed than was allowed. -/
  | stopped (halted : StoppedExploration σ)
  /-- No composite state is waiting any more. -/
  | finished (complete : Exploration σ)

namespace Ending

/-- The composite states that have been numbered, in the order of their numbers. -/
def composites : Ending σ → List StateSet
  | refused _ => []
  | stopped halted => halted.exploration.composites.toList
  | finished complete => complete.composites.toList

/-- What determinization comes to. -/
def result : Ending σ → Except DeterminizeError (Automaton σ)
  | refused limit => .error (.stateLimitExceeded limit)
  | stopped halted => .error (.stateLimitExceeded halted.limit)
  | finished complete => complete.assemble.mapError .automaton

end Ending

/-- What has been taken out of the queue in the end, the earliest first, and how it ends. -/
inductive Ends (automaton : Automaton σ) (limit : Option Nat) :
    List (State × StateSet) → Ending σ → Prop where
  | refused {bound : Nat} (exhausted : exhausted? limit 0 = some bound) :
      Ends automaton limit [] (.refused bound)
  | stopped {taken : List (State × StateSet)} {exploration : Exploration σ}
      {entry : State × StateSet} {rest : Std.Queue (State × StateSet)}
      {halted : StoppedExploration σ}
      (proceeds : Proceeds automaton limit taken exploration)
      (dequeued : exploration.pending.dequeue? = some (entry, rest))
      (expansion : expand automaton limit entry.1 entry.2
        { exploration with pending := rest } = .error halted) :
      Ends automaton limit (taken ++ [entry]) (.stopped halted)
  | finished {taken : List (State × StateSet)} {exploration : Exploration σ}
      (proceeds : Proceeds automaton limit taken exploration)
      (empty : exploration.pending.dequeue? = none) :
      Ends automaton limit taken (.finished exploration)

section Turns

variable {automaton : Automaton σ} {limit : Option Nat} {taken : List (State × StateSet)}
  {exploration : Exploration σ}

theorem Proceeds.allowed (proceeds : Proceeds automaton limit taken exploration) :
    exhausted? limit 0 = none := by
  induction proceeds with
  | start allowed => exact allowed
  | turn _ _ _ induction => exact induction

/-- What remains to be done between two turns leads where the whole exploration leads. -/
theorem Proceeds.run_eq (proceeds : Proceeds automaton limit taken exploration) :
    exploration.run automaton limit = automaton.explored limit := by
  induction proceeds with
  | start => rfl
  | turn _ dequeued expansion induction =>
      rw [← induction, run_of_dequeue?_eq_some dequeued, expansion]
      rfl

/-- After finitely many more turns the exploration ends. -/
theorem Proceeds.exists_ends (proceeds : Proceeds automaton limit taken exploration) :
    ∃ all ending, Ends automaton limit all ending := by
  fun_induction Exploration.run automaton limit exploration generalizing taken with
  | case1 exploration empty => exact ⟨_, _, .finished proceeds empty⟩
  | case2 exploration state composite rest dequeued halted expansion =>
      exact ⟨_, _, .stopped proceeds dequeued expansion⟩
  | case3 exploration state composite rest dequeued next expansion induction =>
      exact induction (.turn proceeds dequeued expansion)

theorem exists_ends (automaton : Automaton σ) (limit : Option Nat) :
    ∃ taken ending, Ends automaton limit taken ending := by
  cases exhausted : exhausted? limit 0 with
  | some bound => exact ⟨_, _, .refused exhausted⟩
  | none => exact (Proceeds.start exhausted).exists_ends

/-- Determinization comes to what the end of the exploration says. -/
theorem Ends.result_eq {ending : Ending σ} (ends : Ends automaton limit taken ending) :
    (automaton.determinizeWithLimit limit).result = ending.result := by
  cases ends with
  | refused exhausted => simp only [Automaton.determinizeWithLimit, exhausted, Ending.result]
  | stopped proceeds dequeued expansion =>
      have explored := proceeds.run_eq
      rw [run_of_dequeue?_eq_some dequeued, expansion] at explored
      simp only [Automaton.determinizeWithLimit, proceeds.allowed, ← explored, Except.bind,
        Ending.result]
  | finished proceeds empty =>
      have explored := proceeds.run_eq
      rw [run_of_dequeue?_eq_none empty] at explored
      simp only [Automaton.determinizeWithLimit, proceeds.allowed, ← explored, Ending.result]

end Turns

/-! ## Turns under a limit and without one -/

section OnTheWay

variable {automaton : Automaton σ} {limit : Option Nat}

/-- The limit allows as many composite states as have been numbered. -/
def Within (limit : Option Nat) (size : Nat) : Prop :=
  ∀ allowed, limit = some allowed → size ≤ allowed

section Expand

variable {state : State} {composite : StateSet} {exploration : Exploration σ}
  (reported : Reported exploration)
  (within : Within limit exploration.composites.size)

include reported within

/-- A turn that the limit does not stop is a turn without a limit. -/
theorem expand_of_within
    {next : Exploration σ}
    (expansion : exploration.expand automaton limit state composite = .ok next) :
    exploration.expand automaton none state composite = .ok next ∧
      Within limit next.composites.size := by
  cases limit with
  | none => exact ⟨expansion, fun _ same => by cases same⟩
  | some allowed =>
      rcases exists_followAll (exploration.markFinal automaton state composite) state
        (automaton.moves composite) with ⟨other, unlimited⟩
      have limited := limited_expand reported (within allowed rfl) unlimited
      rw [expansion] at limited
      cases limited with
      | finished few =>
          refine ⟨unlimited, fun bound same => ?_⟩
          cases same
          exact few

/-- A turn is stopped when as many composite states as are allowed have been numbered. -/
theorem exists_allowed_of_stopped
    {halted : StoppedExploration σ}
    (expansion : exploration.expand automaton limit state composite = .error halted) :
    ∃ allowed next, limit = some allowed ∧ halted.exploration.composites.size = allowed ∧
      exploration.expand automaton none state composite = .ok next ∧
      halted.exploration.composites.toList <+: next.composites.toList := by
  rcases exists_followAll (exploration.markFinal automaton state composite) state
    (automaton.moves composite) with ⟨next, unlimited⟩
  cases limit with
  | none => cases expansion.symm.trans unlimited
  | some allowed =>
      have limited := limited_expand reported (within allowed rfl) unlimited
      rw [expansion] at limited
      cases limited with
      | stopped halted full _ earlier _ => exact ⟨allowed, next, rfl, full, unlimited, earlier⟩

end Expand

variable {complete : Exploration σ}

/-- A stage on the way to what the exploration without a limit ends in. -/
structure OnTheWay
    (automaton : Automaton σ)
    (limit : Option Nat)
    (complete : Exploration σ)
    (taken : List (State × StateSet))
    (exploration : Exploration σ) : Prop where
  explored : Explored automaton taken.length exploration
  reported : Reported exploration
  within : Within limit exploration.composites.size
  onward : exploration.run automaton none = .ok complete
  taken_prefix : taken <+: numbered complete.composites

namespace OnTheWay

variable {taken : List (State × StateSet)} {exploration : Exploration σ}
  (onTheWay : OnTheWay automaton limit complete taken exploration)

include onTheWay

/-- The next one to be taken out of the queue is the next one in the order of numbers. -/
theorem taken_append_prefix
    {entry : State × StateSet}
    {rest : Std.Queue (State × StateSet)}
    (dequeued : exploration.pending.dequeue? = some (entry, rest)) :
    taken ++ [entry] <+: numbered complete.composites := by
  rcases onTheWay.explored.dequeued dequeued with ⟨standing, number, _⟩
  have next : (numbered complete.composites)[taken.length]? = some entry := by
    rcases prefix_of_run onTheWay.onward with ⟨later, whole⟩
    have below := Enumeration.get?_lt standing
    rw [getElem?_numbered, ← Enumeration.getElem?_toList, ← whole,
      List.getElem?_append_left (by simpa using below), Enumeration.getElem?_toList, standing,
      Option.map_some, ← number]
  rw [List.prefix_iff_eq_take, List.length_append, List.length_singleton, List.take_add_one, next,
    ← List.prefix_iff_eq_take.mp onTheWay.taken_prefix]
  rfl

theorem turn
    {entry : State × StateSet}
    {rest : Std.Queue (State × StateSet)}
    {next : Exploration σ}
    (dequeued : exploration.pending.dequeue? = some (entry, rest))
    (expansion : expand automaton limit entry.1 entry.2
      { exploration with pending := rest } = .ok next) :
    OnTheWay automaton limit complete (taken ++ [entry]) next := by
  have reported : Reported { exploration with pending := rest } :=
    ⟨onTheWay.reported.size_pos, onTheWay.reported.log⟩
  rcases expand_of_within reported onTheWay.within expansion with ⟨unlimited, within⟩
  have onward := onTheWay.onward
  rw [run_of_dequeue?_eq_some dequeued, unlimited] at onward
  constructor
  case explored =>
    rw [List.length_append, List.length_singleton]
    exact onTheWay.explored.expand dequeued expansion
  case reported => exact reported.expand expansion
  case within => exact within
  case onward => exact onward
  case taken_prefix => exact onTheWay.taken_append_prefix dequeued

end OnTheWay

theorem Proceeds.onTheWay
    {taken : List (State × StateSet)}
    {exploration : Exploration σ}
    (result : automaton.explored none = .ok complete)
    (proceeds : Proceeds automaton limit taken exploration) :
    OnTheWay automaton limit complete taken exploration := by
  induction proceeds with
  | start allowed =>
      refine ⟨explored_start automaton, reported_start _, ?_, result, List.nil_prefix⟩
      rintro bound rfl
      rw [exhausted?_some] at allowed
      rw [size_composites_start]
      by_contra none
      rw [if_pos (by omega)] at allowed
      cases allowed
  | turn _ dequeued expansion induction => exact induction.turn dequeued expansion

end OnTheWay

/-! ## The order of the turns -/

theorem map_toNat_numbered
    {composites : Enumeration StateSet}
    (bounded : composites.size ≤ UInt32.size) :
    (numbered composites).map (fun entry => entry.1.toNat) = List.range composites.size := by
  have places : ∀ index ∈ List.range composites.size,
      (UInt32.ofNat index).toNat = index :=
    fun index member => UInt32.toNat_ofNat_of_lt'
      (Nat.lt_of_lt_of_le (List.mem_range.mp member) bounded)
  have indices : composites.toList.zipIdx.map Prod.snd = List.range composites.size := by
    rw [List.zipIdx_map_snd, List.range_eq_range', Enumeration.length_toList]
  rw [numbered, List.map_map]
  calc composites.toList.zipIdx.map _
      = (composites.toList.zipIdx.map Prod.snd).map fun index => (UInt32.ofNat index).toNat := by
        rw [List.map_map]
        rfl
    _ = List.range composites.size := by
        rw [indices, List.map_congr_left places, List.map_id']

/--
What is taken out of the queue are composite states in the order of their
numbers, which are not too many.
-/
structure Orderly
    (automaton : Automaton σ)
    (limit : Option Nat)
    (taken : List (State × StateSet))
    (composites : List StateSet) : Prop where
  /-- The numbers that are taken out of the queue are 0, 1, 2 and so on. -/
  numbers : taken.map (fun entry => entry.1.toNat) = List.range taken.length
  /-- What is taken out are the first composite states, in the order of their discovery. -/
  taken_prefix : taken.map Prod.snd <+: composites
  /-- No composite state has two numbers, and so none is taken out twice. -/
  nodup : composites.Nodup
  /-- There are at most as many composite states as sets of states, without the empty set. -/
  length_le : composites.length ≤ 2 ^ automaton.numStates.toNat - 1
  /-- There are at most as many composite states as are allowed. -/
  within : Within limit composites.length

section Order

variable {automaton : Automaton σ} {limit : Option Nat} {complete : Exploration σ}
  (wellFormed : automaton.WellFormed)
  (result : automaton.explored none = .ok complete)
  (bounded : complete.composites.size < UInt32.size)

include wellFormed result bounded

/-- The beginning of what the exploration without a limit does is in order. -/
theorem orderly_of_prefix
    {taken : List (State × StateSet)}
    {known : Enumeration StateSet}
    (takenPrefix : taken <+: numbered complete.composites)
    (growth : known.toList <+: complete.composites.toList)
    (few : taken.length ≤ known.size)
    (within : Within limit known.size) :
    Orderly automaton limit taken known.toList := by
  have explored := Automaton.explored_of_result result
  have sizes := growth.length_le
  simp only [Enumeration.length_toList] at sizes
  constructor
  case numbers =>
    have numbers := takenPrefix.map fun entry => entry.1.toNat
    rw [map_toNat_numbered (Nat.le_of_lt bounded), List.prefix_iff_eq_take, List.length_map,
      List.take_range, Nat.min_eq_left (Nat.le_trans few sizes)] at numbers
    exact numbers
  case taken_prefix =>
    have first := takenPrefix.map Prod.snd
    rw [map_snd_numbered] at first
    exact List.prefix_of_prefix_length_le first growth (by simpa using few)
  case nodup => exact known.nodup_toList
  case length_le =>
    have many := explored.enumerates.size_lt wellFormed
    rw [Enumeration.length_toList]
    omega
  case within =>
    rw [Enumeration.length_toList]
    exact within

theorem Proceeds.orderly
    {taken : List (State × StateSet)}
    {exploration : Exploration σ}
    (proceeds : Proceeds automaton limit taken exploration) :
    Orderly automaton limit taken exploration.composites.toList := by
  have onTheWay := proceeds.onTheWay result
  exact orderly_of_prefix wellFormed result bounded onTheWay.taken_prefix
    (prefix_of_run onTheWay.onward) onTheWay.explored.bound onTheWay.within

theorem Ends.orderly
    {taken : List (State × StateSet)}
    {ending : Ending σ}
    (ends : Ends automaton limit taken ending) :
    Orderly automaton limit taken ending.composites := by
  cases ends with
  | refused exhausted =>
      exact ⟨rfl, List.nil_prefix, List.nodup_nil, Nat.zero_le _, fun _ _ => Nat.zero_le _⟩
  | finished proceeds empty => exact proceeds.orderly wellFormed result bounded
  | @stopped taken exploration entry rest halted proceeds dequeued expansion =>
      have onTheWay := proceeds.onTheWay result
      have reported : Reported { exploration with pending := rest } :=
        ⟨onTheWay.reported.size_pos, onTheWay.reported.log⟩
      rcases exists_allowed_of_stopped reported onTheWay.within expansion with
        ⟨allowed, next, rfl, full, unlimited, earlier⟩
      have onward := onTheWay.onward
      rw [run_of_dequeue?_eq_some dequeued, unlimited] at onward
      have below : taken.length < exploration.composites.size :=
        Enumeration.get?_lt (onTheWay.explored.dequeued dequeued).1
      have enough := onTheWay.within allowed rfl
      refine orderly_of_prefix wellFormed result bounded (onTheWay.taken_append_prefix dequeued)
        (earlier.trans (prefix_of_run onward)) ?_ ?_
      · rw [List.length_append, List.length_singleton]
        omega
      · rintro other same
        cases same
        exact Nat.le_of_eq full

/-- When nothing is waiting any more, all composite states have been taken out of the queue. -/
theorem Proceeds.map_snd_eq
    {taken : List (State × StateSet)}
    {exploration : Exploration σ}
    (proceeds : Proceeds automaton limit taken exploration)
    (empty : exploration.pending.dequeue? = none) :
    taken.map Prod.snd = exploration.composites.toList := by
  have explored := (proceeds.onTheWay result).explored
  have none : (numbered exploration.composites).drop taken.length = [] :=
    explored.pending.symm.trans (waiting_of_dequeue?_eq_none empty)
  have all := List.drop_eq_nil_iff.mp none
  rw [length_numbered] at all
  have orderly := proceeds.orderly wellFormed result bounded
  exact List.IsPrefix.eq_of_length_le orderly.taken_prefix (by simpa using all)

end Order

end Exploration

namespace Automaton

/--
Whatever the limit, the exploration ends.  Composite states are taken out of the
queue in the order of their numbers and not more than once, at every stage and
in the end, and all of them are unless the limit is exceeded.
-/
theorem determinizeWithLimit_terminates
    {nfa : Automaton σ}
    (built : nfa.Built)
    (fit : nfa.CompositesFit)
    (limit : Option Nat) :
    (∀ taken exploration, Exploration.Proceeds nfa limit taken exploration →
      Exploration.Orderly nfa limit taken exploration.composites.toList) ∧
    (∃ taken ending, Exploration.Ends nfa limit taken ending) ∧
    ∀ taken ending, Exploration.Ends nfa limit taken ending →
      Exploration.Orderly nfa limit taken ending.composites ∧
      (nfa.determinizeWithLimit limit).result = ending.result ∧
      ((∀ allowed, (nfa.determinizeWithLimit limit).result ≠
          .error (.stateLimitExceeded allowed)) →
        taken.map Prod.snd = ending.composites) := by
  rcases nfa.exists_explored with ⟨complete, result, _⟩
  have bounded : complete.composites.size < UInt32.size := fit complete result
  have wellFormed := built.wellFormed
  refine ⟨fun taken exploration proceeds => proceeds.orderly wellFormed result bounded,
    Exploration.exists_ends nfa limit, ?_⟩
  intro taken ending ends
  refine ⟨ends.orderly wellFormed result bounded, ends.result_eq, fun accepted => ?_⟩
  rw [ends.result_eq] at accepted
  cases ends with
  | refused => exact absurd rfl (accepted _)
  | stopped => exact absurd rfl (accepted _)
  | finished proceeds empty => exact proceeds.map_snd_eq wellFormed result bounded empty

theorem determinizeWithLimit_terminates_tangled :
    Builder.tangled.layout.Built ∧ Builder.tangled.layout.CompositesFit ∧
      ∃ taken ending, Exploration.Ends Builder.tangled.layout (some 1) taken ending ∧
        Exploration.Orderly Builder.tangled.layout (some 1) taken ending.composites ∧
        (Builder.tangled.layout.determinizeWithLimit (some 1)).result = ending.result := by
  have built := Builder.built_tangled
  have fit := Builder.compositesFit_tangled
  rcases determinizeWithLimit_terminates built fit (some 1) with ⟨_, ⟨taken, ending, ends⟩, all⟩
  rcases all taken ending ends with ⟨orderly, result, _⟩
  exact ⟨built, fit, taken, ending, ends, orderly, result⟩

end Automaton

end Acceptor
