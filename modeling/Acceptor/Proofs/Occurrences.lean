import Acceptor.Enumeration
import Mathlib.Data.List.Basic
import Mathlib.Data.List.Induction

/-!
# First and only occurrences

Symbols, groups of edges and composite states are listed in the order in which
they first occur.  Here the list of first occurrences is followed through the
ways in which lists are made from others: leaving members out, translating them
and repeating them.  In a list with distinct keys each key picks out the one
element that carries it.
-/

namespace Acceptor

universe u v w

variable {α : Type u} {β : Type v} {γ : Type w} [DecidableEq α]

/-! ## First occurrences -/

/-- One more member counts unless it has occurred before. -/
theorem eraseDups_append_singleton (list : List α) (last : α) :
    (list ++ [last]).eraseDups =
      if last ∈ list then list.eraseDups else list.eraseDups ++ [last] := by
  rw [List.eraseDups_append, List.removeAll]
  by_cases known : last ∈ list
  · simp [known]
  · simp [known, List.eraseDups_cons]

/-- A list without repetitions consists of first occurrences. -/
theorem eraseDups_of_nodup {list : List α} (distinct : list.Nodup) : list.eraseDups = list := by
  induction list using List.reverseRecOn with
  | nil => rfl
  | append_singleton list last induction =>
      rw [List.nodup_append] at distinct
      have fresh : last ∉ list := fun member =>
        distinct.2.2 last member last (List.mem_singleton_self last) rfl
      rw [eraseDups_append_singleton, if_neg fresh, induction distinct.1]

theorem eraseDups_eq_singleton
    {list : List α}
    {value : α}
    (some : list ≠ [])
    (only : ∀ member ∈ list, member = value) :
    list.eraseDups = [value] := by
  cases list with
  | nil => exact absurd rfl some
  | cons first rest =>
      rcases List.forall_mem_cons.mp only with ⟨rfl, only⟩
      have none : (rest.filter fun other => !other == first) = [] := by
        rw [List.filter_eq_nil_iff]
        intro other member
        simp [only other member]
      rw [List.eraseDups_cons, none]
      rfl

/-- What is kept of a list first occurs in the same order, if it is kept under different names. -/
theorem filterMap_eraseDups
    [DecidableEq β]
    {keep : α → Option β}
    {list : List α}
    (injective : ∀ first ∈ list, ∀ second ∈ list, ∀ value,
      keep first = some value → keep second = some value → first = second) :
    list.eraseDups.filterMap keep = (list.filterMap keep).eraseDups := by
  induction list using List.reverseRecOn with
  | nil => rfl
  | append_singleton list last induction =>
      have earlier := induction fun first firstMember second secondMember =>
        injective first (List.mem_append_left _ firstMember)
          second (List.mem_append_left _ secondMember)
      rw [eraseDups_append_singleton, List.filterMap_append]
      cases kept : keep last with
      | none => split <;> simp [kept, earlier]
      | some value =>
          have known : value ∈ list.filterMap keep ↔ last ∈ list := by
            rw [List.mem_filterMap]
            constructor
            · rintro ⟨other, member, same⟩
              rw [injective last (List.mem_append_right _ (List.mem_singleton_self last))
                other (List.mem_append_left _ member) value kept same]
              exact member
            · exact fun member => ⟨last, member, kept⟩
          simp only [List.filterMap_cons, kept, List.filterMap_nil, eraseDups_append_singleton,
            known]
          split <;> simp [kept, earlier]

theorem map_eraseDups
    [DecidableEq β]
    {rename : α → β}
    {list : List α}
    (injective : ∀ first ∈ list, ∀ second ∈ list,
      rename first = rename second → first = second) :
    list.eraseDups.map rename = (list.map rename).eraseDups := by
  rw [← List.filterMap_eq_map]
  apply filterMap_eraseDups
  intro first firstMember second secondMember value firstImage secondImage
  exact injective first firstMember second secondMember
    (Option.some.inj (firstImage.trans secondImage.symm))

/-- Members are listed by the place where they first occur. -/
theorem pairwise_idxOf_eraseDups (list : List α) :
    list.eraseDups.Pairwise fun first second => list.idxOf first < list.idxOf second := by
  induction list using List.reverseRecOn with
  | nil => exact .nil
  | append_singleton list last induction =>
      have kept : list.eraseDups.Pairwise fun first second =>
          (list ++ [last]).idxOf first < (list ++ [last]).idxOf second := by
        refine List.Pairwise.imp_of_mem ?_ induction
        intro first second firstMember secondMember before
        rw [List.mem_eraseDups] at firstMember secondMember
        rw [List.idxOf_append_of_mem firstMember, List.idxOf_append_of_mem secondMember]
        exact before
      rw [eraseDups_append_singleton]
      split
      · exact kept
      · next fresh =>
          refine List.pairwise_append.mpr ⟨kept, List.pairwise_singleton _ _, ?_⟩
          intro first firstMember second secondMember
          rw [List.mem_eraseDups] at firstMember
          rw [List.mem_singleton.mp secondMember, List.idxOf_append_of_mem firstMember,
            List.idxOf_append_of_notMem fresh]
          exact Nat.lt_add_right _ (List.idxOf_lt_length_of_mem firstMember)

/-- Repeating members where they stand does not change the first occurrences. -/
theorem eraseDups_flatMap_of_repeat
    (key : γ → α)
    {copies : γ → List α}
    {list : List γ}
    (some : ∀ element ∈ list, copies element ≠ [])
    (only : ∀ element ∈ list, ∀ member ∈ copies element, member = key element) :
    (list.flatMap copies).eraseDups = (list.map key).eraseDups := by
  induction list using List.reverseRecOn with
  | nil => rfl
  | append_singleton list last induction =>
      rcases List.forall_mem_append.mp some with ⟨someEarlier, someLast⟩
      rcases List.forall_mem_append.mp only with ⟨onlyEarlier, onlyLast⟩
      have repeated := onlyLast last (List.mem_singleton_self last)
      have known : key last ∈ list.flatMap copies ↔ key last ∈ list.map key := by
        rw [List.mem_flatMap, List.mem_map]
        constructor
        · rintro ⟨element, member, occurs⟩
          exact ⟨element, member, (onlyEarlier element member _ occurs).symm⟩
        · rintro ⟨element, member, same⟩
          rcases List.exists_mem_of_ne_nil _ (someEarlier element member) with ⟨value, occurs⟩
          rw [onlyEarlier element member value occurs, same] at occurs
          exact ⟨element, member, occurs⟩
      rw [List.flatMap_append, List.flatMap_singleton, List.map_append, List.map_singleton,
        List.eraseDups_append, eraseDups_append_singleton, induction someEarlier onlyEarlier,
        List.removeAll]
      split
      · next present =>
          have none : (copies last).filter
              (fun member => !(list.flatMap copies).elem member) = [] := by
            rw [List.filter_eq_nil_iff]
            intro member occurs
            simpa [repeated member occurs] using known.mpr present
          rw [none]
          simp
      · next absent =>
          have all : (copies last).filter
              (fun member => !(list.flatMap copies).elem member) = copies last := by
            rw [List.filter_eq_self]
            intro member occurs
            simpa [repeated member occurs] using mt known.mp absent
          rw [all, eraseDups_eq_singleton (someLast last (List.mem_singleton_self last)) repeated]

/-! ## Only occurrences -/

/-- With distinct keys, the key of an element picks out what is made of this element. -/
theorem flatMap_of_key
    (key : γ → α)
    (make : γ → List β)
    {list : List γ}
    (distinct : (list.map key).Nodup)
    {element : γ}
    (member : element ∈ list) :
    (list.flatMap fun other => if key other = key element then make other else []) =
      make element := by
  induction list with
  | nil => cases member
  | cons first rest induction =>
      rw [List.map_cons, List.nodup_cons] at distinct
      rw [List.flatMap_cons]
      rcases List.mem_cons.mp member with rfl | later
      · have none : (rest.flatMap fun other =>
            if key other = key element then make other else []) = [] := by
          rw [List.flatMap_eq_nil_iff]
          intro other otherMember
          refine if_neg fun same => distinct.1 ?_
          rw [← same]
          exact List.mem_map_of_mem otherMember
        rw [if_pos rfl, none, List.append_nil]
      · have different : key first ≠ key element := by
          intro same
          rw [same] at distinct
          exact distinct.1 (List.mem_map_of_mem later)
        rw [if_neg different, List.nil_append, induction distinct.2 later]

end Acceptor
