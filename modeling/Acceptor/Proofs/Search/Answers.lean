import Acceptor.Automaton.Search
import Mathlib.Algebra.BigOperators.Group.List.Basic
import Mathlib.Algebra.GroupWithZero.Nat

/-!
# What a search comes to

A state can be reached by a search when it waits at the beginning or when a
state that can be reached leads to it.  A search that ends answers whether it
can reach a state of the kind that it looks for: it ends with such a state, or
it has visited all states that it can reach and none of them is of that kind.

Between two turns, what has been visited leads to states that have been visited
or wait.  The queue itself may grow in a turn.  What shrinks is its length
together with the number of steps out of states that have not been visited: a
state adds no more to the queue than it takes from these, and only once.
-/

namespace Acceptor.Search

variable {search : Search}

/-! ## Turns -/

/-- What can happen in a turn. -/
inductive Turns (search : Search) : Progress → Outcome ⊕ Progress → Prop where
  /-- No state is waiting. -/
  | exhausted {visited : StateSet} :
      Turns search { visited, queue := [] } (.inl (.exhausted visited))
  /-- The state has been visited. -/
  | passedOver {visited : StateSet} {state : State} {rest : List State}
      (seen : state ∈ visited) :
      Turns search { visited, queue := state :: rest } (.inr { visited, queue := rest })
  /-- The state is what the search looks for. -/
  | found {visited : StateSet} {state : State} {rest : List State}
      (fresh : state ∉ visited)
      (sought : search.goal state = true) :
      Turns search { visited, queue := state :: rest } (.inl (.found state))
  /-- The state is visited. -/
  | visited {visited : StateSet} {state : State} {rest : List State}
      (fresh : state ∉ visited)
      (unsought : search.goal state = false) :
      Turns search { visited, queue := state :: rest }
        (.inr
          { visited := visited.insert state
            queue := rest ++
              (search.follow state).filter fun next => !(visited.insert state).contains next })

/-- Nothing else happens in a turn. -/
theorem turns_turn (search : Search) (progress : Progress) :
    search.Turns progress (search.turn progress) := by
  rcases progress with ⟨visited, _ | ⟨state, rest⟩⟩
  · exact .exhausted
  · cases seen : visited.contains state with
    | true =>
        simp only [turn, StateSet.containsThenInsert, seen]
        exact .passedOver (StateSet.contains_eq_true_iff.mp seen)
    | false =>
        have fresh : state ∉ visited := by
          rw [← StateSet.contains_eq_true_iff, seen]
          exact Bool.false_ne_true
        simp only [turn, StateSet.containsThenInsert, seen]
        cases sought : search.goal state with
        | true => exact .found fresh sought
        | false => exact .visited fresh sought

/-! ## What is reached -/

/-- The states that a search can come upon. -/
inductive Reached (search : Search) : State → Prop where
  /-- A state that waits at the beginning. -/
  | start {state : State} (member : state ∈ search.start) : Reached search state
  /-- A state to which a reached state leads. -/
  | follow {source state : State} (before : Reached search source)
      (edge : state ∈ search.follow source) : Reached search state

/-- What an outcome says about the states that a search can come upon. -/
def Answers (search : Search) : Outcome → Prop
  | .found state => search.Reached state ∧ search.goal state = true
  | .exhausted visited =>
      (∀ state, state ∈ visited ↔ search.Reached state) ∧
        ∀ state ∈ visited, search.goal state = false

/-- A state has been visited or is waiting. -/
def Progress.Met (progress : Progress) (state : State) : Prop :=
  state ∈ progress.visited ∨ state ∈ progress.queue

/-- What is true between two turns. -/
structure Consistent (search : Search) (progress : Progress) : Prop where
  reached : ∀ state, progress.Met state → search.Reached state
  start : ∀ state ∈ search.start, progress.Met state
  followed : ∀ state ∈ progress.visited, ∀ next ∈ search.follow state, progress.Met next
  unsought : ∀ state ∈ progress.visited, search.goal state = false

theorem consistent_begin (search : Search) : search.Consistent search.begin where
  reached state met := by
    rcases met with visited | waiting
    · exact absurd visited (StateSet.not_mem_empty state)
    · exact .start waiting
  start _ member := Or.inr member
  followed state visited := absurd visited (StateSet.not_mem_empty state)
  unsought state visited := absurd visited (StateSet.not_mem_empty state)

/-- Nothing that has been met is lost in a turn. -/
theorem Turns.met
    {progress next : Progress}
    (turns : search.Turns progress (.inr next))
    {state : State}
    (met : progress.Met state) :
    next.Met state := by
  cases turns with
  | passedOver seen =>
      rcases met with earlier | waiting
      · exact Or.inl earlier
      · rcases List.mem_cons.mp waiting with rfl | waiting
        · exact Or.inl seen
        · exact Or.inr waiting
  | visited fresh unsought =>
      rcases met with earlier | waiting
      · exact Or.inl (StateSet.mem_insert.mpr (Or.inr earlier))
      · rcases List.mem_cons.mp waiting with rfl | waiting
        · exact Or.inl (StateSet.mem_insert.mpr (Or.inl rfl))
        · exact Or.inr (List.mem_append_left _ waiting)

namespace Consistent

variable {progress next : Progress}

/-- A turn after which the search goes on keeps what is true. -/
theorem turn (consistent : search.Consistent progress)
    (turns : search.Turns progress (.inr next)) :
    search.Consistent next := by
  have start : ∀ state ∈ search.start, next.Met state :=
    fun state member => turns.met (consistent.start state member)
  have followed :
      ∀ state ∈ progress.visited, ∀ other ∈ search.follow state, next.Met other :=
    fun state earlier other edge => turns.met (consistent.followed state earlier other edge)
  cases turns with
  | passedOver seen =>
      refine ⟨?_, start, followed, consistent.unsought⟩
      rintro other (earlier | waiting)
      · exact consistent.reached other (Or.inl earlier)
      · exact consistent.reached other (Or.inr (List.mem_cons_of_mem _ waiting))
  | @visited visited state rest fresh unsought =>
      have stateReached := consistent.reached state (Or.inr (List.mem_cons_self ..))
      refine ⟨?_, start, ?_, ?_⟩
      · rintro other (later | waiting)
        · rcases StateSet.mem_insert.mp later with rfl | earlier
          · exact stateReached
          · exact consistent.reached other (Or.inl earlier)
        · rcases List.mem_append.mp waiting with waiting | joined
          · exact consistent.reached other (Or.inr (List.mem_cons_of_mem _ waiting))
          · exact .follow stateReached (List.mem_filter.mp joined).1
      · intro source later other edge
        rcases StateSet.mem_insert.mp later with rfl | earlier
        · by_cases present : other ∈ visited.insert source
          · exact Or.inl present
          · refine Or.inr (List.mem_append_right _ (List.mem_filter.mpr ⟨edge, ?_⟩))
            simp [StateSet.contains, present]
        · exact followed source earlier other edge
      · intro source later
        rcases StateSet.mem_insert.mp later with rfl | earlier
        · exact unsought
        · exact consistent.unsought source earlier

/-- A turn that ends the search answers it. -/
theorem answers (consistent : search.Consistent progress)
    {outcome : Outcome}
    (turns : search.Turns progress (.inl outcome)) :
    search.Answers outcome := by
  cases turns with
  | @exhausted visited =>
      -- With nothing waiting, what has been visited leads to nothing else.
      have met : ∀ state, Progress.Met ⟨visited, []⟩ state → state ∈ visited := by
        rintro state (earlier | waiting)
        · exact earlier
        · exact absurd waiting List.not_mem_nil
      refine ⟨fun state => ⟨fun earlier => consistent.reached state (Or.inl earlier), ?_⟩,
        consistent.unsought⟩
      intro reached
      induction reached with
      | start member => exact met _ (consistent.start _ member)
      | follow _ edge induction => exact met _ (consistent.followed _ induction _ edge)
  | @found visited state rest fresh sought =>
      exact ⟨consistent.reached state (Or.inr (List.mem_cons_self ..)), sought⟩

/-- Whenever a search ends, it has been answered. -/
theorem run (consistent : search.Consistent progress)
    {turns : Nat}
    {outcome : Outcome}
    (ended : search.run turns progress = some outcome) :
    search.Answers outcome := by
  induction turns generalizing progress with
  | zero => cases ended
  | succ turns induction =>
      have happened := search.turns_turn progress
      unfold Search.run at ended
      cases result : search.turn progress with
      | inl reached =>
          rw [result] at ended happened
          cases ended
          exact consistent.answers happened
      | inr next =>
          rw [result] at ended happened
          exact induction (consistent.turn happened) ended

end Consistent

/-! ## How long it takes -/

/-- The steps out of those of the listed states that have not been visited. -/
def unfollowed (search : Search) (states : List State) (visited : StateSet) : Nat :=
  ((states.filter fun state => !visited.contains state).map fun state =>
    (search.follow state).length).sum

/-- A bound for the turns after which a search goes on, when listed states alone lead on. -/
def budget (search : Search) (states : List State) (progress : Progress) : Nat :=
  progress.queue.length + search.unfollowed states progress.visited

section Budget

variable {states : List State}
  (distinct : states.Nodup)
  (covered : ∀ state, ∀ next ∈ search.follow state, state ∈ states)

include distinct covered

/-- Visiting a state takes the steps out of it from those that are left. -/
theorem length_follow_add_unfollowed
    {visited : StateSet}
    {state : State}
    (fresh : state ∉ visited) :
    (search.follow state).length + search.unfollowed states (visited.insert state) =
      search.unfollowed states visited := by
  have erased : (states.filter fun other => !(visited.insert state).contains other) =
      (states.filter fun other => !visited.contains other).filter (· != state) := by
    rw [List.filter_filter]
    refine List.filter_congr fun other _ => ?_
    by_cases same : other = state <;> simp [StateSet.contains, same]
  rw [unfollowed, unfollowed, erased]
  by_cases listed : state ∈ states
  · have left : state ∈ states.filter fun other => !visited.contains other :=
      List.mem_filter.mpr ⟨listed, by simp [StateSet.contains, fresh]⟩
    rw [← List.Nodup.erase_eq_filter (distinct.filter _),
      List.sum_map_erase (fun state => (search.follow state).length) left]
  · have none : search.follow state = [] :=
      List.eq_nil_iff_forall_not_mem.mpr fun next edge => listed (covered state next edge)
    have unlisted : ∀ other ∈ states.filter fun other => !visited.contains other,
        (other != state) = true := by
      intro other member
      rw [bne_iff_ne]
      rintro rfl
      exact listed (List.mem_filter.mp member).1
    rw [none, List.length_nil, Nat.zero_add, List.filter_eq_self.mpr unlisted]

theorem Turns.budget_lt
    {progress next : Progress}
    (turns : search.Turns progress (.inr next)) :
    search.budget states next < search.budget states progress := by
  cases turns with
  | passedOver seen =>
      simp only [budget, List.length_cons]
      omega
  | @visited visited state rest fresh unsought =>
      have taken := length_follow_add_unfollowed distinct covered fresh
      have joined := List.length_filter_le
        (fun next => !(visited.insert state).contains next) (search.follow state)
      simp only [budget, List.length_append, List.length_cons]
      omega

/-- With more turns than the bound a search ends. -/
theorem exists_run
    {turns : Nat}
    {progress : Progress}
    (enough : search.budget states progress < turns) :
    ∃ outcome, search.run turns progress = some outcome := by
  induction turns generalizing progress with
  | zero => exact absurd enough (Nat.not_lt_zero _)
  | succ turns induction =>
      have happened := search.turns_turn progress
      unfold run
      cases result : search.turn progress with
      | inl outcome => exact ⟨outcome, rfl⟩
      | inr next =>
          rw [result] at happened
          have less := happened.budget_lt distinct covered
          exact induction (by omega)

/-- A search ends, and it is answered. -/
theorem exists_outcome
    {turns : Nat}
    (enough : search.budget states search.begin < turns) :
    ∃ outcome, search.outcome? turns = some outcome ∧ search.Answers outcome := by
  rcases exists_run distinct covered enough with ⟨outcome, ended⟩
  exact ⟨outcome, ended, search.consistent_begin.run ended⟩

end Budget

end Acceptor.Search
