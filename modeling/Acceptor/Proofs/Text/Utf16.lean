import Acceptor.Text.Utf16
import Mathlib.Data.List.Basic

/-!
# Reading code units back

No character has a number among the surrogates, so the first code unit of a
character tells whether another one follows, and the code units of a character
tell its number.  Hence different texts have different code units.  A code unit
that is no surrogate stands for the character with its number.
-/

namespace Acceptor.Text

/-- No character has a number among the surrogates. -/
theorem toNat_not_surrogate (character : Char) :
    character.toNat < 0xD800 ∨ 0xE000 ≤ character.toNat ∧ character.toNat < 0x110000 := by
  have valid := character.valid
  simp only [UInt32.isValidChar, Nat.isValidChar] at valid
  show character.val.toNat < 0xD800 ∨ _
  have same : character.toNat = character.val.toNat := rfl
  omega

section Encoding

variable {character : Char}

theorem charUnits_of_lt (below : character.toNat < 0x10000) :
    charUnits character = [UInt16.ofNat character.toNat] :=
  if_pos below

theorem charUnits_of_le (above : 0x10000 ≤ character.toNat) :
    charUnits character =
      [UInt16.ofNat (0xD800 + (character.toNat - 0x10000) / 0x400),
        UInt16.ofNat (0xDC00 + (character.toNat - 0x10000) % 0x400)] :=
  if_neg (Nat.not_lt_of_le above)

/-- The first of two code units is a high surrogate and the second a low one. -/
theorem toNat_surrogates (above : 0x10000 ≤ character.toNat) :
    (UInt16.ofNat (0xD800 + (character.toNat - 0x10000) / 0x400)).toNat =
        0xD800 + (character.toNat - 0x10000) / 0x400 ∧
      (UInt16.ofNat (0xDC00 + (character.toNat - 0x10000) % 0x400)).toNat =
        0xDC00 + (character.toNat - 0x10000) % 0x400 := by
  have bounds := toNat_not_surrogate character
  constructor <;> exact UInt16.toNat_ofNat_of_lt' (by rw [UInt16.size]; omega)

/-- A code unit below the surrogates is the number of its character. -/
theorem toNat_of_mem_charUnits
    {unit : CodeUnit}
    (member : unit ∈ charUnits character)
    (low : unit.toNat < 0xD800) :
    character.toNat = unit.toNat := by
  rcases Nat.lt_or_ge character.toNat 0x10000 with below | above
  · rw [charUnits_of_lt below, List.mem_singleton] at member
    rw [member, UInt16.toNat_ofNat_of_lt' below]
  · rcases toNat_surrogates above with ⟨high, second⟩
    rw [charUnits_of_le above, List.mem_pair] at member
    rcases member with rfl | rfl <;> omega

end Encoding

/-- The code units of a character tell the character and where they end. -/
theorem charUnits_append_inj
    {first second : Char}
    {rest others : List CodeUnit}
    (same : charUnits first ++ rest = charUnits second ++ others) :
    first = second ∧ rest = others := by
  have firstBounds := toNat_not_surrogate first
  have secondBounds := toNat_not_surrogate second
  rw [← Char.toNat_inj]
  rcases Nat.lt_or_ge first.toNat 0x10000 with firstBelow | firstAbove <;>
    rcases Nat.lt_or_ge second.toNat 0x10000 with secondBelow | secondAbove
  · rw [charUnits_of_lt firstBelow, charUnits_of_lt secondBelow] at same
    rcases List.cons.inj same with ⟨heads, tails⟩
    have numbers := congrArg UInt16.toNat heads
    rw [UInt16.toNat_ofNat_of_lt' firstBelow, UInt16.toNat_ofNat_of_lt' secondBelow] at numbers
    exact ⟨numbers, tails⟩
  -- A character of its own is no surrogate.
  · rw [charUnits_of_lt firstBelow, charUnits_of_le secondAbove] at same
    have numbers := congrArg UInt16.toNat (List.cons.inj same).1
    rw [UInt16.toNat_ofNat_of_lt' firstBelow, (toNat_surrogates secondAbove).1] at numbers
    omega
  · rw [charUnits_of_le firstAbove, charUnits_of_lt secondBelow] at same
    have numbers := congrArg UInt16.toNat (List.cons.inj same).1
    rw [UInt16.toNat_ofNat_of_lt' secondBelow, (toNat_surrogates firstAbove).1] at numbers
    omega
  · rw [charUnits_of_le firstAbove, charUnits_of_le secondAbove] at same
    rcases List.cons.inj same with ⟨heads, tails⟩
    rcases List.cons.inj tails with ⟨seconds, tails⟩
    have upper := congrArg UInt16.toNat heads
    have lower := congrArg UInt16.toNat seconds
    rw [(toNat_surrogates firstAbove).1, (toNat_surrogates secondAbove).1] at upper
    rw [(toNat_surrogates firstAbove).2, (toNat_surrogates secondAbove).2] at lower
    exact ⟨by omega, tails⟩

theorem charUnits_ne_nil (character : Char) : charUnits character ≠ [] := by
  rcases Nat.lt_or_ge character.toNat 0x10000 with below | above
  · rw [charUnits_of_lt below]
    exact List.cons_ne_nil _ _
  · rw [charUnits_of_le above]
    exact List.cons_ne_nil _ _

/-- Different texts have different code units. -/
theorem units_injective : Function.Injective units := by
  have general : ∀ first second : List Char,
      first.flatMap charUnits = second.flatMap charUnits → first = second := by
    intro first
    induction first with
    | nil =>
        intro second same
        cases second with
        | nil => rfl
        | cons character rest =>
            exact absurd (List.append_eq_nil_iff.mp same.symm).1 (charUnits_ne_nil character)
    | cons character rest induction =>
        intro second same
        cases second with
        | nil => exact absurd (List.append_eq_nil_iff.mp same).1 (charUnits_ne_nil character)
        | cons other others =>
            rcases charUnits_append_inj same with ⟨rfl, tails⟩
            rw [induction others tails]
  intro first second same
  exact String.toList_inj.mp (general _ _ same)

end Acceptor.Text
