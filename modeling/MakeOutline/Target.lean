import MakeOutline.Text.Basic

/-!
# Targets

A target is a rule that a user may ask for.  A header whose name is special opens none: it is a
directive of the tool that runs the makefile.
-/

namespace MakeOutline

structure Target where
  name : Text
  dependencies : List Text
  /-- The commands of the recipe, one a line. -/
  commands : Text
  /-- The names that the recipe refers to, each once, in the order of first use. -/
  required : List Text
  /-- The number of the header's first line, counted from one. -/
  line : Nat
  deriving DecidableEq, Repr

namespace Target

def needsVariables (target : Target) : Bool := !target.required.isEmpty

/-- The names to which a makefile gives a meaning of their own. -/
def directives : List Text :=
  [".PHONY".toList, ".SUFFIXES".toList, ".DEFAULT".toList, ".PRECIOUS".toList,
    ".INTERMEDIATE".toList, ".SECONDARY".toList, ".SECONDEXPANSION".toList,
    ".DELETE_ON_ERROR".toList, ".IGNORE".toList, ".LOW_RESOLUTION_TIME".toList, ".SILENT".toList,
    ".EXPORT_ALL_VARIABLES".toList, ".NOTPARALLEL".toList, ".ONESHELL".toList, ".POSIX".toList]

/-- Directives, names that start with a dot or hold an equals sign, and blank names. -/
def isSpecial (name : Text) : Bool :=
  directives.contains name || name.head? == some '.' || name.contains '=' || name.trim.isEmpty

end Target

end MakeOutline
