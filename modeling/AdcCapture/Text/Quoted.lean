/-
  Quoted text: the text between double quotes, with escapes for the quote, the backslash, four
  control characters by letter, and every other unprintable character by its code point.
-/
import AdcCapture.Text.Unprintable

namespace AdcCapture.Text

/-- The letter of a short escape. -/
def escapeLetter? : Char → Option Char
  | '\t' => some 't'
  | '\r' => some 'r'
  | '\n' => some 'n'
  | '\x00' => some '0'
  | '"' => some '"'
  | '\\' => some '\\'
  | _ => none

/-- A character as it is written between the quotes. -/
def escape (c : Char) : List Char :=
  match escapeLetter? c with
  | some l => ['\\', l]
  | none =>
    if isUnprintable c then '\\' :: 'u' :: '\x7b' :: Nat.toDigits 16 c.toNat ++ ['\x7d'] else [c]

/-- The text in quotes. -/
def quoted (s : String) : String :=
  String.ofList ('"' :: s.toList.flatMap escape ++ ['"'])

end AdcCapture.Text
