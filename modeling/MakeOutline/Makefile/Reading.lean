import MakeOutline.FileSystem
import MakeOutline.Makefile.Basic
import MakeOutline.Text.Utf8

/-!
# Reading makefiles

A makefile is read from bytes in UTF-8.  Failures name the source, which for a file is its path.
-/

namespace MakeOutline.Makefile

def ofBytes (source : Text) (bytes : ByteArray) : Except Failure Makefile :=
  match Text.ofUtf8? bytes with
  | some t => .ok (ofText t)
  | none => .error (.read source .notUtf8)

def ofFile (files : FileSystem) (path : Text) : Except Failure Makefile :=
  match files.contents path with
  | .ok bytes => ofBytes path bytes
  | .error failure => .error (.read path failure)

end MakeOutline.Makefile
