import MakeOutline.Text.Quoted

/-!
# Events

What is reported while a makefile is read.  A journal is the list of the events of one reading, in
the order in which they happen.
-/

namespace MakeOutline

inductive Level where
  | debug
  | info
  | warn
  deriving DecidableEq, Repr

def Level.label : Level → Text
  | debug => "DEBUG".toList
  | info => "INFO".toList
  | warn => "WARN".toList

inductive Event where
  | settingVariable (name value : Text)
  | openingTarget (name dependencyText : Text) (line : Nat)
  | ignoringSpecial (name : Text) (line : Nat)
  | droppingContinued (line : Nat) (merged : Text)
  | overwritingTarget (name : Text) (earlier later : Nat)
  | extractedTargets (count : Nat)
  | beginningRead (source : Text)
  | completedRead (source : Text) (targetCount variableCount : Nat)
  | foundDefault (path : Text)
  deriving DecidableEq, Repr

abbrev Journal := List Event

namespace Event

def level : Event → Level
  | settingVariable .. => .debug
  | openingTarget .. => .debug
  | ignoringSpecial .. => .debug
  | droppingContinued .. => .debug
  | overwritingTarget .. => .warn
  | extractedTargets .. => .debug
  | beginningRead .. => .info
  | completedRead .. => .info
  | foundDefault .. => .debug

def message : Event → Text
  | settingVariable name value =>
    "Setting variable ".toList ++ name.quoted ++ " to ".toList ++ value.quoted
  | openingTarget name dependencyText line =>
    "Opening target ".toList ++ name.quoted ++ " with dependencies ".toList ++
      dependencyText.quoted ++ " on line ".toList ++ Text.ofNat line
  | ignoringSpecial name line =>
    "Ignoring special target ".toList ++ name.quoted ++ " on line ".toList ++ Text.ofNat line
  | droppingContinued line merged =>
    "Dropping continued line starting on line ".toList ++ Text.ofNat line ++ ": ".toList ++
      merged.quoted
  | overwritingTarget name earlier later =>
    "Overwriting target ".toList ++ name.quoted ++ " from line ".toList ++ Text.ofNat earlier ++
      " with the one from line ".toList ++ Text.ofNat later
  | extractedTargets count => "Extracted ".toList ++ Text.ofNat count ++ " targets".toList
  | beginningRead source => "Begin reading makefile ".toList ++ source.quoted
  | completedRead source targetCount variableCount =>
    "Complete read of makefile ".toList ++ source.quoted ++ ": ".toList ++ Text.ofNat targetCount ++
      " targets, ".toList ++ Text.ofNat variableCount ++ " variables".toList
  | foundDefault path => "Found default makefile ".toList ++ path.quoted

end Event

end MakeOutline
