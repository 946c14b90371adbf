import Acceptor.StateSet.Lemmas

/-!
# Counting sets of states

There are `2 ^ n` sets of the states below `n`, so a list of distinct sets of
such states cannot be longer.  In particular the sets of states are finite in
number: this is what makes a search end that numbers every set it meets and
looks at each of them once.
-/

namespace Acceptor

namespace StateSet

/-- The set without one of its members. -/
def erase (set : StateSet) (state : State) : StateSet where
  members := set.members.filter (· ≠ state)
  ascending := set.ascending.filter _

@[simp]
theorem mem_erase {set : StateSet} {state other : State} :
    other ∈ set.erase state ↔ other ∈ set ∧ other ≠ state := by
  simp [mem_def, erase]

/-- Sets that share a member are equal when they are equal without it. -/
theorem eq_of_erase_eq {left right : StateSet} {state : State}
    (leftMember : state ∈ left) (rightMember : state ∈ right)
    (same : left.erase state = right.erase state) :
    left = right := by
  ext other
  by_cases equal : other = state
  · subst equal
    exact iff_of_true leftMember rightMember
  · have here : other ∈ left.erase state ↔ other ∈ right.erase state := by rw [same]
    simpa [equal] using here

/-- The number of sets of states below a bound: each state doubles it. -/
def countBelow : Nat → Nat
  | 0 => 1
  | bound + 1 => countBelow bound * 2

/-- Distinct sets of states below a bound are no more than there are such sets. -/
theorem length_le_of_below {sets : List StateSet} (bound : Nat) (distinct : sets.Nodup)
    (below : ∀ set ∈ sets, ∀ state ∈ set, state.toNat < bound) :
    sets.length ≤ countBelow bound := by
  induction bound generalizing sets with
  | zero =>
      have allEmpty : ∀ set ∈ sets, set = ∅ := by
        intro set member
        refine eq_empty_iff.mpr fun state stateMember => ?_
        exact absurd (below set member state stateMember) (Nat.not_lt_zero _)
      match sets, distinct, allEmpty with
      | [], _, _ => exact Nat.zero_le _
      | [_], _, _ => exact Nat.le_refl _
      | first :: second :: rest, distinct, allEmpty =>
          have same : first = second :=
            (allEmpty first (by simp)).trans (allEmpty second (by simp)).symm
          rw [same] at distinct
          exact absurd distinct (by simp)
  | succ bound induction =>
      have isLast : ∀ state : State, state.toNat < bound + 1 → state ≠ UInt32.ofNat bound →
          state.toNat < bound := by
        intro state lessThan different
        refine Nat.lt_of_le_of_ne (Nat.le_of_lt_succ lessThan) fun equal => different ?_
        rw [← equal, UInt32.ofNat_toNat]
      have withLast :
          (sets.filter (·.contains (UInt32.ofNat bound))).length ≤ countBelow bound := by
        rw [← List.length_map (·.erase (UInt32.ofNat bound))]
        apply induction
        · refine List.pairwise_map.mpr ((distinct.filter _).imp_of_mem ?_)
          intro left right leftMember rightMember different same
          rw [List.mem_filter] at leftMember rightMember
          exact different (eq_of_erase_eq (contains_eq_true_iff.mp leftMember.2)
            (contains_eq_true_iff.mp rightMember.2) same)
        · intro set member state stateMember
          obtain ⟨whole, wholeMember, rfl⟩ := List.mem_map.mp member
          rw [List.mem_filter] at wholeMember
          rw [mem_erase] at stateMember
          exact isLast state (below whole wholeMember.1 state stateMember.1) stateMember.2
      have withoutLast :
          (sets.filter fun set => ¬set.contains (UInt32.ofNat bound)).length ≤
            countBelow bound := by
        apply induction (distinct.filter _)
        intro set member state stateMember
        rw [List.mem_filter] at member
        apply isLast state (below set member.1 state stateMember)
        rintro rfl
        simp [contains, stateMember] at member
      rw [List.length_eq_countP_add_countP (·.contains (UInt32.ofNat bound)),
        List.countP_eq_length_filter, List.countP_eq_length_filter, countBelow, Nat.mul_two]
      exact Nat.add_le_add withLast withoutLast

/-- The number of all sets of states. -/
noncomputable def count : Nat :=
  countBelow UInt32.size

theorem length_le_count {sets : List StateSet} (distinct : sets.Nodup) :
    sets.length ≤ count :=
  length_le_of_below UInt32.size distinct fun _ _ state _ => UInt32.toNat_lt state

end StateSet

end Acceptor
