import MakeOutline.CommandLine.Run

/-!
# The program

What a run needs to know of the file system is asked for first, and the run is computed from the
answers.
-/

namespace MakeOutline.CommandLine

/-- The kinds of those failures with which opening, listing or reading a file may end. -/
def kindOfCode (code : Nat) : Text :=
  match code with
  | 1 | 13 => "PermissionDenied".toList
  | 2 => "NotFound".toList
  | 4 => "Interrupted".toList
  | 11 => "WouldBlock".toList
  | 12 => "OutOfMemory".toList
  | 16 => "ResourceBusy".toList
  | 20 => "NotADirectory".toList
  | 21 => "IsADirectory".toList
  | 22 => "InvalidInput".toList
  | 26 => "ExecutableFileBusy".toList
  | 36 => "InvalidFilename".toList
  | 40 => "FilesystemLoop".toList
  | 110 => "TimedOut".toList
  | 116 => "StaleNetworkFileHandle".toList
  | _ => "Uncategorized".toList

def failureOf : IO.Error → ReadFailure
  | .otherError code reason | .resourceBusy code reason | .resourceVanished code reason
  | .unsupportedOperation code reason | .hardwareFault code reason
  | .unsatisfiedConstraints code reason | .illegalOperation code reason
  | .protocolError code reason | .timeExpired code reason | .interrupted _ code reason
  | .noFileOrDirectory _ code reason | .alreadyExists _ code reason
  | .invalidArgument _ code reason | .permissionDenied _ code reason
  | .resourceExhausted _ code reason | .inappropriateType _ code reason
  | .noSuchThing _ code reason =>
    .system code.toNat (kindOfCode code.toNat) reason.toList
  | .unexpectedEof => .unnumbered "UnexpectedEof".toList "unexpected end of file".toList
  | .userError reason => .unnumbered "Other".toList reason.toList

def attempt {α : Type} (action : IO α) : IO (Except ReadFailure α) := do
  try
    return .ok (← action)
  catch error =>
    return .error (failureOf error)

def hostPath (path : Text) := System.mkFilePath [String.ofList path]

def askIsFile (path : Text) : IO Bool := do
  match ← attempt (hostPath path).metadata with
  | .ok metadata => return metadata.type == .file
  | .error _ => return false

def askNames (path : Text) : IO (Except ReadFailure (List Text)) := do
  let entries ← attempt (hostPath path).readDir
  return entries.map fun entries => entries.toList.map (·.fileName.toList)

def askOpened (path : Text) : IO (Except ReadFailure (Except ReadFailure ByteArray)) := do
  match ← attempt (IO.FS.Handle.mk (hostPath path) .read) with
  | .ok handle => return .ok (← attempt handle.readBinToEnd)
  | .error failure => return .error failure

/-- A file system of which nothing was asked. -/
def unasked : FileSystem where
  isFile _ := false
  names _ := .error .notFound
  opened _ := .error .notFound

/-- What there is to choose from in the directory. -/
def askDirectory (directory : Text) : IO FileSystem := do
  let names ← askNames directory
  let paths := (conventionalNames ++ names.toOption.getD []).map (Path.join directory)
  let files ← paths.filterM askIsFile
  return { unasked with isFile := files.contains, names := fun _ => names }

/-- All that a run with these options may look at. -/
def askForAll (options : Options) : IO FileSystem := do
  if options.help then return unasked
  let found ← if options.files.isEmpty then askDirectory options.directory else pure unasked
  let paths := (makefilePaths found options).toOption.getD []
  let answers ← paths.mapM fun path => return (path, ← askOpened path)
  return { found with opened := fun path => (answers.lookup path).getD (unasked.opened path) }

end MakeOutline.CommandLine

open MakeOutline CommandLine in
def main (arguments : List String) : IO UInt32 := do
  let words := arguments.map String.toList
  let files ←
    match Options.ofWords? words with
    | .ok options => askForAll options
    | .error _ => pure unasked
  let outcome := run files words
  IO.print (String.ofList outcome.output)
  IO.eprint (String.ofList outcome.errors)
  return outcome.exitCode.toUInt32
