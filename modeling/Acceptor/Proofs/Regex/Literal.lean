import Acceptor.Proofs.Determinization.Chain
import Acceptor.Proofs.Pattern.Literal
import Acceptor.Proofs.Regex.StateLimit
import Acceptor.Proofs.Text.Utf16

/-!
# Texts that match themselves

A text without any of the characters `(`, `)`, `*`, `.` and `|` is a pattern
that only the text itself matches.  Although its automaton is nested as deep as
the text is long and full of epsilon edges, the deterministic automaton is the
shortest there can be: a chain with one edge for each code unit.
-/

namespace Acceptor

namespace Text

/-- The code units of characters without a meaning of their own have none either. -/
theorem ordinary_of_plain
    {text : String}
    (plain : ∀ character ∈ text.toList, character ∉ ['(', ')', '*', '.', '|']) :
    ∀ unit ∈ units text, unit ∉ Pattern.specialUnits := by
  intro unit member special
  rcases List.mem_flatMap.mp member with ⟨character, characterMember, unitMember⟩
  have written : Pattern.specialUnits =
      ['(', ')', '*', '.', '|'].map fun sign => UInt16.ofNat sign.toNat := rfl
  have low : ∀ sign ∈ ['(', ')', '*', '.', '|'], sign.toNat < 0xD800 := by simp
  rw [written] at special
  rcases List.mem_map.mp special with ⟨sign, signMember, rfl⟩
  have place : (UInt16.ofNat sign.toNat).toNat = sign.toNat :=
    UInt16.toNat_ofNat_of_lt' (Nat.lt_trans (low sign signMember) (by decide))
  have number := toNat_of_mem_charUnits unitMember (place.symm ▸ low sign signMember)
  refine plain character characterMember ?_
  rw [Char.toNat_inj.mp (number.trans place)]
  exact signMember

end Text

namespace Regex

/--
A text without signs compiles to a chain on which its code units are read.  The
number of states of the chain is the smallest limit under which it compiles,
and no other text matches it.
-/
theorem exists_compile_chain
    {text : String}
    (plain : ∀ character ∈ text.toList, character ∉ ['(', ')', '*', '.', '|'])
    (small : 4 * (Text.units text).length - 2 < 2 ^ 32) :
    ∃ regex, compile text = .ok regex ∧
      regex.automaton.IsChain (Text.units text) ∧
      (∀ limit, (compileWithLimit text (some limit)).result =
        if (Text.units text).length + 1 ≤ limit then .ok regex
        else .error (.tooManyStates limit)) ∧
      ∀ subject, regex.isMatch subject = true ↔ subject = text := by
  have ordinary := Text.ordinary_of_plain plain
  have count := Pattern.stateCount_literal (Text.units text) ordinary
  rcases Pattern.yields (Pattern.literal (Text.units text) ordinary) (by omega) with
    ⟨nfa, translated, realizes⟩
  have compiled : Pattern.compile (Text.units text) = .ok nfa := by
    rw [← Pattern.compile_units_eq_ok_iff, Pattern.units_literal] at translated
    exact translated
  have spells : nfa.Spells (Text.units text) := by
    refine ⟨realizes.wellFormed, realizes.trim, fun other => ?_⟩
    rw [realizes.accepts_iff, Pattern.language_literal]
    exact Iff.rfl
  rcases nfa.exists_explored with ⟨exploration, result, explored⟩
  have size := spells.size_composites explored
  have bounded : exploration.composites.size < UInt32.size := by
    rw [size, UInt32.size]
    omega
  have subsets := Exploration.subsets_layout explored bounded
  rcases result_compileWithLimit compiled result bounded with ⟨unlimited, limited⟩
  refine ⟨_, unlimited, spells.isChain explored subsets, ?_, fun subject => ?_⟩
  · rwa [size] at limited
  · rw [isMatch, subsets.accepts_eq, spells.accepts_iff, Text.units_injective.eq_iff]

/-- The characters of the example repeat, and the last one has two code units. -/
theorem exists_compile_chain_repeated :
    (∀ character ∈ "aa😀".toList, character ∉ ['(', ')', '*', '.', '|']) ∧
      4 * (Text.units "aa😀").length - 2 < 2 ^ 32 ∧
      ∃ regex, compile "aa😀" = .ok regex ∧
        regex.automaton.numStates = 5 ∧ regex.automaton.finals = {4} ∧
        regex.automaton.transitions =
          [(0, 0x61, 1), (1, 0x61, 2), (2, 0xD83D, 3), (3, 0xDE00, 4)] ∧
        (compileWithLimit "aa😀" (some 4)).result = .error (.tooManyStates 4) ∧
        (compileWithLimit "aa😀" (some 5)).result = .ok regex ∧
        ∀ subject, regex.isMatch subject = true ↔ subject = "aa😀" := by
  have characters : "aa😀".toList = ['a', 'a', '😀'] := by decide
  have plain : ∀ character ∈ "aa😀".toList, character ∉ ['(', ')', '*', '.', '|'] := by
    simp [characters]
  have units : Text.units "aa😀" = [0x61, 0x61, 0xD83D, 0xDE00] := by decide
  rcases exists_compile_chain plain (by rw [units]; decide) with
    ⟨regex, compiled, chain, limited, only⟩
  rw [units] at chain limited ⊢
  refine ⟨plain, by decide, regex, compiled, UInt32.toNat_inj.mp chain.numStates, chain.finals,
    chain.transitions, limited 4, limited 5, only⟩

end Regex

end Acceptor
