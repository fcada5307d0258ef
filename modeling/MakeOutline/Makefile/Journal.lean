import MakeOutline.Extraction.Journal
import MakeOutline.Makefile.Reading

/-!
# The journal of reading a makefile

The targets are extracted before the variables.  Bytes that encode no text leave the reading begun
and not completed, as does a file that can be opened but not read.  One that cannot be opened leaves
no event at all.
-/

namespace MakeOutline.Makefile

def ofLinesJournal (lines : List Text) : Journal :=
  Extraction.targetsJournal lines ++ Extraction.tableJournal lines

def ofTextJournal (t : Text) : Journal := ofLinesJournal (linesOfText t)

def ofBytesJournal (source : Text) (bytes : ByteArray) : Journal :=
  .beginningRead source ::
    match Text.ofUtf8? bytes with
    | some t =>
      ofTextJournal t ++
        [.completedRead source (ofText t).targets.length (ofText t).table.size]
    | none => []

def ofFileJournal (files : FileSystem) (path : Text) : Journal :=
  match files.opened path with
  | .ok (.ok bytes) => ofBytesJournal path bytes
  | .ok (.error _) => [.beginningRead path]
  | .error _ => []

end MakeOutline.Makefile
