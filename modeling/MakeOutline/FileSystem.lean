import MakeOutline.Failure

/-!
# File systems

A file system is known by its answers.  They need not go together: a file that is found may fail to
be opened, and a directory that holds files may fail to be listed.
-/

namespace MakeOutline

structure FileSystem where
  isFile : Text → Bool
  /-- The names in a directory. -/
  names : Text → Except ReadFailure (List Text)
  /-- What is opened may still fail to be read. -/
  opened : Text → Except ReadFailure (Except ReadFailure ByteArray)

def FileSystem.contents (files : FileSystem) (path : Text) : Except ReadFailure ByteArray :=
  match files.opened path with
  | .ok contents => contents
  | .error failure => .error failure

end MakeOutline
