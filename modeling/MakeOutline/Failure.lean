import MakeOutline.Text.Quoted

/-!
# Failures

Extraction itself never fails.  A file may fail to be read, and a makefile may lack the target that
is asked for.
-/

namespace MakeOutline

/-- Why a file or a directory was not read: a failure that has a number among those of the operating
system, whichever it is, or one that has none. -/
inductive ReadFailure where
  | system (code : Nat) (kind reason : Text)
  | unnumbered (kind reason : Text)
  deriving DecidableEq, Repr

namespace ReadFailure

def notFound : ReadFailure :=
  system 2 "NotFound".toList "No such file or directory".toList

def notADirectory : ReadFailure :=
  system 20 "NotADirectory".toList "Not a directory".toList

def isADirectory : ReadFailure :=
  system 21 "IsADirectory".toList "Is a directory".toList

def nameTooLong : ReadFailure :=
  system 36 "InvalidFilename".toList "File name too long".toList

def nulInName : ReadFailure :=
  unnumbered "InvalidInput".toList "file name contained an unexpected NUL byte".toList

def notUtf8 : ReadFailure :=
  unnumbered "InvalidData".toList "stream did not contain valid UTF-8".toList

def message : ReadFailure → Text
  | system code _ reason => reason ++ " (os error ".toList ++ Text.ofNat code ++ [')']
  | unnumbered _ reason => reason

/-- The failure with its parts named, as a failed command reports it. -/
def report : ReadFailure → Text
  | system code kind reason =>
    "Os ".toList ++ ['{'] ++ " code: ".toList ++ Text.ofNat code ++ ", kind: ".toList ++ kind ++
      ", message: ".toList ++ reason.quoted ++ [' ', '}']
  | unnumbered kind reason =>
    "Error ".toList ++ ['{'] ++ " kind: ".toList ++ kind ++ ", message: ".toList ++
      reason.quoted ++ [' ', '}']

end ReadFailure

inductive Failure where
  | read (path : Text) (cause : ReadFailure)
  | unknownTarget (name : Text)
  deriving DecidableEq, Repr

namespace Failure

def message : Failure → Text
  | read path cause => "failed to read ".toList ++ path ++ ": ".toList ++ cause.message
  | unknownTarget name => "no target named ".toList ++ name.quoted

/-- The failure with its parts named, as a failed command reports it. -/
def report : Failure → Text
  | read path cause =>
    "Io ".toList ++ ['{'] ++ " path: ".toList ++ path.quoted ++ ", cause: ".toList ++
      cause.report ++ [' ', '}']
  | unknownTarget name => "UnknownTarget(".toList ++ name.quoted ++ [')']

end Failure

end MakeOutline
