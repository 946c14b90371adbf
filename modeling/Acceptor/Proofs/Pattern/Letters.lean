import Acceptor.Proofs.Pattern.Language

/-!
# The letters of a pattern

The letters of a language are the code units that occur in its words.  A sum
has the letters of its summands and a closure those of its body.  A product has
the letters of its factors as long as no factor is without words: an empty
factor would erase the letters of the others.

No part of a pattern denotes the empty language.  So the letters of its
language are exactly what its leaves stand for, however they are repeated,
grouped and placed beside empty branches.
-/

namespace Acceptor.Pattern

open Computability

/-! ## Letters of languages -/

/-- A language has a word, and the code units that occur in its words are given ones. -/
structure WrittenWith (language : Language CodeUnit) (letters : Set CodeUnit) : Prop where
  inhabited : ∃ word, word ∈ language
  occurs_iff : ∀ unit, (∃ word ∈ language, unit ∈ word) ↔ unit ∈ letters

namespace WrittenWith

variable {first second : Language CodeUnit} {firstLetters secondLetters : Set CodeUnit}

theorem one : WrittenWith 1 ∅ := by
  refine ⟨⟨[], Language.nil_mem_one⟩, fun unit => ⟨?_, False.elim⟩⟩
  rintro ⟨word, member, occurs⟩
  rw [(Language.mem_one word).mp member] at occurs
  exact absurd occurs List.not_mem_nil

theorem mul
    (firstWritten : WrittenWith first firstLetters)
    (secondWritten : WrittenWith second secondLetters) :
    WrittenWith (first * second) (firstLetters ∪ secondLetters) := by
  rcases firstWritten.inhabited with ⟨front, frontMember⟩
  rcases secondWritten.inhabited with ⟨back, backMember⟩
  refine ⟨⟨front ++ back, Language.append_mem_mul frontMember backMember⟩, fun unit => ?_⟩
  rw [Set.mem_union, ← firstWritten.occurs_iff, ← secondWritten.occurs_iff]
  constructor
  · rintro ⟨word, member, occurs⟩
    rcases Language.mem_mul.mp member with ⟨front, frontMember, back, backMember, rfl⟩
    rcases List.mem_append.mp occurs with occurs | occurs
    · exact Or.inl ⟨front, frontMember, occurs⟩
    · exact Or.inr ⟨back, backMember, occurs⟩
  -- A word of one factor is completed by any word of the other.
  · rintro (⟨word, member, occurs⟩ | ⟨word, member, occurs⟩)
    · exact ⟨_, Language.append_mem_mul member backMember, List.mem_append_left _ occurs⟩
    · exact ⟨_, Language.append_mem_mul frontMember member, List.mem_append_right _ occurs⟩

theorem add
    (firstWritten : WrittenWith first firstLetters)
    (secondWritten : WrittenWith second secondLetters) :
    WrittenWith (first + second) (firstLetters ∪ secondLetters) := by
  rcases firstWritten.inhabited with ⟨word, member⟩
  refine ⟨⟨word, (Language.mem_add _ _ _).mpr (Or.inl member)⟩, fun unit => ?_⟩
  rw [Set.mem_union, ← firstWritten.occurs_iff, ← secondWritten.occurs_iff]
  simp only [Language.mem_add, or_and_right, exists_or]

theorem kstar (written : WrittenWith first firstLetters) : WrittenWith first∗ firstLetters := by
  refine ⟨⟨[], Language.nil_mem_kstar first⟩, fun unit => ?_⟩
  rw [← written.occurs_iff]
  constructor
  · rintro ⟨_, member, occurs⟩
    rcases Language.mem_kstar.mp member with ⟨words, rfl, members⟩
    rcases List.mem_flatten.mp occurs with ⟨word, wordMember, occurs⟩
    exact ⟨word, members word wordMember, occurs⟩
  · rintro ⟨word, member, occurs⟩
    refine ⟨word, Language.mem_kstar.mpr ⟨[word], ?_, ?_⟩, occurs⟩
    · exact List.flatten_singleton.symm
    · exact List.forall_mem_singleton.mpr member

end WrittenWith

/-! ## Letters of signs -/

/-- The code units that a leaf stands for. -/
def Leaf.letters : Leaf → Set CodeUnit
  | any => Set.univ
  | literal unit _ => {unit}

/-- The code units that a mark stands for. -/
def Mark.letters : Mark → Set CodeUnit
  | leaf content => content.letters
  | _ => ∅

/-- The code units that a sign stands for. -/
def Sign.letters : Sign → Set CodeUnit
  | mark content => content.letters
  | parenthesis _ => ∅

@[simp]
theorem Mark.letters_star : Mark.letters .star = ∅ := rfl

@[simp]
theorem Mark.letters_bar : Mark.letters .bar = ∅ := rfl

@[simp]
theorem Sign.letters_mark (mark : Mark) : Sign.letters (.mark mark) = mark.letters := rfl

@[simp]
theorem Sign.letters_parenthesis (parenthesis : Parenthesis) :
    Sign.letters (.parenthesis parenthesis) = ∅ := rfl

section

variable {τ : Type} {letters : τ → Set CodeUnit}

/-- The code units that some of several signs stands for. -/
def lettersOf (letters : τ → Set CodeUnit) (signs : List τ) : Set CodeUnit :=
  { unit | ∃ sign ∈ signs, unit ∈ letters sign }

@[simp]
theorem lettersOf_nil : lettersOf letters [] = ∅ := by
  ext unit
  simp [lettersOf]

@[simp]
theorem lettersOf_cons (sign : τ) (signs : List τ) :
    lettersOf letters (sign :: signs) = letters sign ∪ lettersOf letters signs := by
  ext unit
  simp [lettersOf]

@[simp]
theorem lettersOf_append (front back : List τ) :
    lettersOf letters (front ++ back) = lettersOf letters front ∪ lettersOf letters back := by
  ext unit
  simp [lettersOf, or_and_right, exists_or]

theorem lettersOf_map {υ : Type} (rename : υ → τ) (signs : List υ) :
    lettersOf letters (signs.map rename) = lettersOf (fun sign => letters (rename sign)) signs := by
  ext unit
  simp [lettersOf]

end

/-- The letters of a pattern are its literals or, if it contains the sign for any unit, all. -/
theorem mem_lettersOf_iff {signs : List Sign} {unit : CodeUnit} :
    unit ∈ lettersOf Sign.letters signs ↔
      Leaf.any.unit ∈ signs.map Sign.unit ∨
        unit ∈ signs.map Sign.unit ∧ unit ∉ specialUnits := by
  have spelled : ∀ unit, unit ∈ signs.map Sign.unit ↔ Sign.ofUnit unit ∈ signs := by
    intro unit
    rw [List.mem_map]
    constructor
    · rintro ⟨sign, member, rfl⟩
      rwa [Sign.ofUnit_unit]
    · exact fun member => ⟨_, member, Sign.unit_ofUnit unit⟩
  constructor
  · rintro ⟨sign, member, stands⟩
    rcases sign with (_ | _ | (_ | ⟨other, ordinary⟩)) | _
    · exact absurd stands (Set.notMem_empty unit)
    · exact absurd stands (Set.notMem_empty unit)
    · exact Or.inl (List.mem_map_of_mem member)
    · cases Set.mem_singleton_iff.mp stands
      exact Or.inr ⟨List.mem_map_of_mem member, ordinary⟩
    · exact absurd stands (Set.notMem_empty unit)
  · rintro (any | ⟨literal, ordinary⟩)
    · exact ⟨_, (spelled _).mp any, Set.mem_univ unit⟩
    · refine ⟨_, (spelled _).mp literal, ?_⟩
      rw [Sign.ofUnit, dif_neg ordinary]
      exact Set.mem_singleton unit

/-! ## Letters of patterns -/

theorem Leaf.writtenWith (leaf : Leaf) : WrittenWith leaf.language leaf.letters := by
  cases leaf with
  | any =>
      refine ⟨⟨[0], rfl⟩, fun unit => ⟨fun _ => Set.mem_univ unit, fun _ => ?_⟩⟩
      exact ⟨[unit], rfl, List.mem_singleton_self unit⟩
  | literal unit ordinary =>
      refine ⟨⟨[unit], rfl⟩, fun other => ⟨?_, ?_⟩⟩
      · rintro ⟨word, rfl, occurs⟩
        exact List.mem_singleton.mp occurs
      · exact fun same => ⟨[unit], rfl, List.mem_singleton.mpr same⟩

section

variable {α τ : Type} {atom : α → List τ} {star bar : τ} {letters : τ → Set CodeUnit}
  {atomLanguage : α → Language CodeUnit}
  (starless : letters star = ∅)
  (atoms : ∀ content, WrittenWith (atomLanguage content) (lettersOf letters (atom content)))

include starless atoms

theorem Item.writtenWith (item : Item α) :
    WrittenWith (item.language atomLanguage) (lettersOf letters (item.write atom star)) := by
  rw [language, write]
  split
  · rw [lettersOf_append, lettersOf_cons, starless, lettersOf_nil, Set.union_empty,
      Set.union_empty]
    exact (atoms item.atom).kstar
  · exact atoms item.atom

theorem Branch.writtenWith (branch : Branch α) :
    WrittenWith (Branch.language atomLanguage branch)
      (lettersOf letters (Branch.write atom star branch)) := by
  induction branch with
  | nil =>
      rw [Branch.write, List.flatMap_nil, lettersOf_nil]
      exact .one
  | cons item rest induction =>
      rw [Branch.language, List.map_cons, List.prod_cons, Branch.write, List.flatMap_cons,
        lettersOf_append]
      exact (item.writtenWith starless atoms).mul induction

/-- An alternation has the letters of its branches. -/
theorem Alternation.writtenWith
    (barless : letters bar = ∅)
    (alternation : Alternation α) :
    WrittenWith (alternation.language atomLanguage)
      (lettersOf letters (alternation.write atom star bar)) := by
  have general : ∀ (rest : List (Branch α)) (first : Language CodeUnit) (known : Set CodeUnit),
      WrittenWith first known →
      WrittenWith (first + (rest.map (Branch.language atomLanguage)).sum)
        (known ∪ lettersOf letters
          (rest.flatMap fun branch => bar :: Branch.write atom star branch)) := by
    intro rest
    induction rest with
    | nil =>
        intro first known written
        rw [List.map_nil, List.sum_nil, add_zero, List.flatMap_nil, lettersOf_nil,
          Set.union_empty]
        exact written
    | cons branch rest induction =>
        intro first known written
        have next := induction _ _ (written.add (Branch.writtenWith starless atoms branch))
        rw [List.map_cons, List.sum_cons, ← add_assoc, List.flatMap_cons, List.cons_append,
          lettersOf_cons, barless, Set.empty_union, lettersOf_append, ← Set.union_assoc]
        exact next
  rw [Alternation.language, branches, List.map_cons, List.sum_cons, Alternation.write,
    lettersOf_append]
  exact general _ _ _ (Branch.writtenWith starless atoms _)

end

theorem Atom.writtenWith (atom : Atom) :
    WrittenWith atom.language (lettersOf Sign.letters atom.signs) := by
  cases atom with
  | leaf content =>
      rw [signs, lettersOf_cons, lettersOf_nil, Set.union_empty]
      exact content.writtenWith
  | group body =>
      have inner : WrittenWith (body.language Leaf.language)
          (lettersOf Mark.letters body.marks) := by
        refine Alternation.writtenWith Mark.letters_star (fun leaf => ?_) Mark.letters_bar body
        rw [lettersOf_cons, lettersOf_nil, Set.union_empty]
        exact leaf.writtenWith
      have signs : lettersOf Sign.letters (Atom.signs (.group body)) =
          lettersOf Mark.letters body.marks := by
        simp [Atom.signs, lettersOf_map]
      rw [signs]
      exact inner

/-- The letters of the language of a pattern are what the signs of the pattern stand for. -/
theorem writtenWith (pattern : Pattern) :
    WrittenWith (language pattern) (lettersOf Sign.letters (signs pattern)) :=
  Alternation.writtenWith (Sign.letters_mark .star) Atom.writtenWith (Sign.letters_mark .bar)
    pattern

end Acceptor.Pattern
