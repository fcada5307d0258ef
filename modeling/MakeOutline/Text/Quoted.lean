import MakeOutline.Text.Basic
import MakeOutline.Text.CombiningMark
import MakeOutline.Text.DefaultIgnorable
import MakeOutline.Text.Unprintable

/-!
# Quoted text

Messages show a text between double quotes.  A quote, a backslash, a line end, a tab and the null
character are written with a backslash and one character, any other character that would not be
seen or would join its neighbour with a backslash and its code point, and the rest as it is.
-/

namespace MakeOutline.Text

/-- Whether the character would not be seen, or not as a character of its own. -/
def isHidden (c : Char) : Bool := isUnprintable c || isCombiningMark c || isDefaultIgnorable c

def escapedCodePoint (c : Char) : Text :=
  ['\\', 'u', '{'] ++ Nat.toDigits 16 c.toNat ++ ['}']

def quotedChar (c : Char) : Text :=
  match c with
  | '"' => ['\\', '"']
  | '\\' => ['\\', '\\']
  | '\n' => ['\\', 'n']
  | '\r' => ['\\', 'r']
  | '\t' => ['\\', 't']
  | '\x00' => ['\\', '0']
  | c => if isHidden c then escapedCodePoint c else [c]

def quoted (t : Text) : Text := ['"'] ++ t.flatMap quotedChar ++ ['"']

end MakeOutline.Text
