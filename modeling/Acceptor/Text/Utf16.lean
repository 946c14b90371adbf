import Acceptor.Symbol

/-!
# Text as 16-bit code units

A character below `0x10000` is one code unit.  Any other character is two, a
high surrogate followed by a low one, which carry the upper and the lower ten
bits of what the character's number has above `0x10000`.
-/

namespace Acceptor.Text

/-- The code units of a character. -/
def charUnits (character : Char) : List CodeUnit :=
  let number := character.toNat
  if number < 0x10000 then
    [UInt16.ofNat number]
  else
    let above := number - 0x10000
    [UInt16.ofNat (0xD800 + above / 0x400), UInt16.ofNat (0xDC00 + above % 0x400)]

/-- The code units of a text. -/
def units (text : String) : List CodeUnit :=
  text.toList.flatMap charUnits

end Acceptor.Text
