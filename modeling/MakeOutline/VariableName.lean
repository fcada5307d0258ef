import MakeOutline.Text.Basic

/-!
# Variable names

A variable name is a capital letter or an underscore, followed by any number of capital letters,
digits and underscores.
-/

namespace MakeOutline.VariableName

def isStart (c : Char) : Bool := c.isUpper || c == '_'

def isPart (c : Char) : Bool := c.isUpper || c.isDigit || c == '_'

/-- Whether the whole text is a variable name. -/
def accepts : Text → Bool
  | [] => false
  | c :: t => isStart c && t.all isPart

/-- The longest variable name that starts the text, and what follows it. -/
def split? : Text → Option (Text × Text)
  | [] => none
  | c :: t => if isStart c then some (c :: t.takeWhile isPart, t.dropWhile isPart) else none

end MakeOutline.VariableName
