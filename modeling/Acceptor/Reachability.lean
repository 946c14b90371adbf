import Acceptor.StateSet.Lemmas

/-!
# Reachability

Given the successors of each state, `reachable` computes every state that can
be reached from a set of starting states.  The search keeps the states it has
already visited and a list of states still to be looked at; it ends because a
visited set can only grow as far as there are states.

The relation `Reaches` says what it means to be reachable by paths of any
length, without reference to the search, and `mem_reachable_iff` says that
the search finds exactly those states.
-/

namespace Acceptor

/-- A path of successor steps, of any length, leads from one state to another. -/
inductive Reaches (successors : State → StateSet) : State → State → Prop where
  /-- The path without steps. -/
  | refl (state : State) : Reaches successors state state
  /-- A step followed by a path. -/
  | step {source middle target : State} (edge : middle ∈ successors source)
      (rest : Reaches successors middle target) : Reaches successors source target

namespace Reaches

variable {successors : State → StateSet}

theorem single {source target : State} (edge : target ∈ successors source) :
    Reaches successors source target :=
  .step edge (.refl target)

theorem trans {source middle target : State} (first : Reaches successors source middle)
    (second : Reaches successors middle target) :
    Reaches successors source target := by
  induction first with
  | refl => exact second
  | step edge _ induction => exact .step edge (induction second)

/-- A set that no successor step leaves contains what is reached from its members. -/
theorem mem_of_closed {set : StateSet}
    (closed : ∀ state ∈ set, ∀ next ∈ successors state, next ∈ set)
    {source target : State} (path : Reaches successors source target)
    (member : source ∈ set) :
    target ∈ set := by
  induction path with
  | refl => exact member
  | step edge _ induction => exact induction (closed _ member _ edge)

end Reaches

/-- Visit the pending states and all that can be reached from them. -/
def explore (successors : State → StateSet) (visited : StateSet)
    (pending : List State) : StateSet :=
  match pending with
  | [] => visited
  | state :: rest =>
      if state ∈ visited then
        explore successors visited rest
      else
        explore successors (visited.insert state) ((successors state).members ++ rest)
  termination_by (UInt32.size - visited.size, pending.length)
  decreasing_by
  · exact Prod.Lex.right _ (Nat.lt_succ_self _)
  · next absent =>
      apply Prod.Lex.left
      have grown := StateSet.size_insert_of_not_mem absent
      have bounded := StateSet.size_le (visited.insert state)
      omega

/-- Every state that can be reached from a set of states. -/
def reachable (successors : State → StateSet) (start : StateSet) : StateSet :=
  explore successors ∅ start.members

/-! ## The search finds exactly the reachable states -/

theorem mem_explore_of_mem {successors : State → StateSet} {visited : StateSet}
    {pending : List State} {state : State}
    (member : state ∈ visited ∨ state ∈ pending) :
    state ∈ explore successors visited pending := by
  fun_induction explore successors visited pending with
  | case1 => simpa using member
  | case2 visited first rest present induction =>
      apply induction
      rcases member with member | member
      · exact Or.inl member
      · cases member with
        | head => exact Or.inl present
        | tail _ member => exact Or.inr member
  | case3 visited first rest absent induction =>
      apply induction
      simp only [StateSet.mem_insert, List.mem_append]
      rcases member with member | member
      · exact Or.inl (Or.inr member)
      · cases member with
        | head => exact Or.inl (Or.inl rfl)
        | tail _ member => exact Or.inr (Or.inr member)

theorem reaches_of_mem_explore {successors : State → StateSet} {visited : StateSet}
    {pending : List State} {state : State}
    (member : state ∈ explore successors visited pending) :
    state ∈ visited ∨ ∃ source ∈ pending, Reaches successors source state := by
  fun_induction explore successors visited pending with
  | case1 => exact Or.inl member
  | case2 visited first rest present induction =>
      rcases induction member with visitedMember | ⟨source, sourceMember, path⟩
      · exact Or.inl visitedMember
      · exact Or.inr ⟨source, List.mem_cons_of_mem _ sourceMember, path⟩
  | case3 visited first rest absent induction =>
      rcases induction member with visitedMember | ⟨source, sourceMember, path⟩
      · rcases StateSet.mem_insert.mp visitedMember with rfl | visitedMember
        · exact Or.inr ⟨state, List.mem_cons_self .., .refl state⟩
        · exact Or.inl visitedMember
      · rcases List.mem_append.mp sourceMember with edge | sourceMember
        · exact Or.inr ⟨first, List.mem_cons_self .., .step edge path⟩
        · exact Or.inr ⟨source, List.mem_cons_of_mem _ sourceMember, path⟩

/-- When nothing visited leads outside the visited and pending states, the result is closed. -/
theorem explore_closed {successors : State → StateSet} {visited : StateSet}
    {pending : List State}
    (frontier : ∀ state ∈ visited, ∀ next ∈ successors state, next ∈ visited ∨ next ∈ pending) :
    ∀ state ∈ explore successors visited pending,
      ∀ next ∈ successors state, next ∈ explore successors visited pending := by
  fun_induction explore successors visited pending with
  | case1 =>
      intro state member next edge
      simpa using frontier state member next edge
  | case2 visited first rest present induction =>
      apply induction
      intro state member next edge
      rcases frontier state member next edge with visitedNext | pendingNext
      · exact Or.inl visitedNext
      · cases pendingNext with
        | head => exact Or.inl present
        | tail _ pendingNext => exact Or.inr pendingNext
  | case3 visited first rest absent induction =>
      apply induction
      intro state member next edge
      simp only [StateSet.mem_insert, List.mem_append]
      rcases StateSet.mem_insert.mp member with rfl | member
      · exact Or.inr (Or.inl edge)
      · rcases frontier state member next edge with visitedNext | pendingNext
        · exact Or.inl (Or.inr visitedNext)
        · cases pendingNext with
          | head => exact Or.inl (Or.inl rfl)
          | tail _ pendingNext => exact Or.inr (Or.inr pendingNext)

/-- The search visits exactly the states at the end of some path. -/
theorem mem_reachable_iff {successors : State → StateSet} {start : StateSet} {state : State} :
    state ∈ reachable successors start ↔
      ∃ source ∈ start, Reaches successors source state := by
  constructor
  · intro member
    exact (reaches_of_mem_explore member).resolve_left (StateSet.not_mem_empty state)
  · rintro ⟨source, member, path⟩
    refine path.mem_of_closed (explore_closed ?_) (mem_explore_of_mem (Or.inr member))
    intro state absent
    exact absurd absent (StateSet.not_mem_empty state)

end Acceptor
