import MakeOutline.Text.Blank

/-!
# Text

A text is a list of characters.  Trimming and cutting into words go by the blank characters.  A
text is cut into lines at its newlines: a carriage return just before a newline belongs to the line
end, and a text that ends in a newline has no further empty line.
-/

namespace MakeOutline

abbrev Text := List Char

namespace Text

def dropTrailing (p : Char → Bool) (t : Text) : Text := (t.reverse.dropWhile p).reverse

def trimStart (t : Text) : Text := t.dropWhile isBlank

def trimEnd (t : Text) : Text := t.dropTrailing isBlank

def trim (t : Text) : Text := t.trimStart.trimEnd

/-- The longest pieces without a blank character, from left to right. -/
def words (t : Text) : List Text := (t.splitOnP isBlank).filter (!·.isEmpty)

/-- The lines made of the pieces between newlines.  Every piece but the last ends in a newline. -/
def linesOfPieces : List Text → List Text
  | [] => []
  | [last] => if last.isEmpty then [] else [last]
  | piece :: pieces =>
    (if piece.getLast? = some '\r' then piece.dropLast else piece) :: linesOfPieces pieces

def lines (t : Text) : List Text := linesOfPieces (t.splitOn '\n')

/-- The parts in order, with the separator between any two neighbours. -/
def joinedBy (separator : Text) (parts : List Text) : Text := separator.intercalate parts

def ofNat (n : Nat) : Text := Nat.toDigits 10 n

/-- Cuts at the first occurrence of a character, which is in neither part. -/
def splitAtFirst? (c : Char) (t : Text) : Option (Text × Text) :=
  match t.dropWhile (· != c) with
  | [] => none
  | _ :: rest => some (t.takeWhile (· != c), rest)

end Text

end MakeOutline
