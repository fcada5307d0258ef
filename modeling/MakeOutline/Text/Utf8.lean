import MakeOutline.Text.Basic

/-!
# UTF-8

How many bytes a text takes in UTF-8, and reading a text back from its bytes.
-/

namespace MakeOutline.Text

def utf8Size : Text → Nat
  | [] => 0
  | c :: t => c.utf8Size + utf8Size t

theorem utf8Size_append (s t : Text) : utf8Size (s ++ t) = utf8Size s + utf8Size t := by
  induction s with
  | nil => simp [utf8Size]
  | cons c s ih =>
    rw [List.cons_append, utf8Size, utf8Size, ih]
    omega

/-- The text that the bytes encode, if they encode one. -/
def ofUtf8? (bytes : ByteArray) : Option Text := (String.fromUTF8? bytes).map String.toList

end MakeOutline.Text
