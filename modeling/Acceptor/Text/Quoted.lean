import Acceptor.Text.GraphemeExtend
import Acceptor.Text.Unprintable

/-!
# Quoted text

A text is quoted so that a reader can see what is in it.  It stands between
double quotes; a double quote or a backslash in it is preceded by a backslash;
the null character, tab, line feed and carriage return have a letter each; and
any other character that would not show, or would be drawn onto the one before
it, is written by its number.
-/

namespace Acceptor.Text

/-- A character by its number, in lower-case hexadecimal digits. -/
def numbered (character : Char) : String :=
  "\\u\x7b" ++ String.ofList (Nat.toDigits 16 character.toNat) ++ "\x7d"

/--
The two sound marks of halfwidth katakana.  They belong to the character
before them, and yet stand beside it and not on it.
-/
def isHalfwidthSoundMark (character : Char) : Bool :=
  character.toNat = 0xFF9E || character.toNat = 0xFF9F

/-- Whether a character is drawn onto the one before it. -/
def isAttached (character : Char) : Bool :=
  isGraphemeExtend character && !isHalfwidthSoundMark character

/-- The written form of one character inside quotes. -/
def quotedChar (character : Char) : String :=
  match character with
  | '\x00' => "\\0"
  | '\t' => "\\t"
  | '\r' => "\\r"
  | '\n' => "\\n"
  | '\\' => "\\\\"
  | '"' => "\\\""
  | _ =>
      if isAttached character || !isPrintable character then numbered character
      else String.singleton character

/-- A text between double quotes. -/
def quoted (text : String) : String :=
  "\"" ++ String.join (text.toList.map quotedChar) ++ "\""

end Acceptor.Text
