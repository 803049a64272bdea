import SceneDowngrade.Text.Basic

/-!
# Faults of the file system

Why an operation on a path fails, with the text that reports it.
-/
namespace SceneDowngrade.Files

inductive Fault where
  | notFound
  | notADirectory
  | isADirectory
  | invalidText
  | nulInName
  | nameTooLong
  | linkLoop
  | otherDevice
  | other (number : Nat) (description : Text)
  deriving DecidableEq, Repr

namespace Fault

def numbered (description : Text) (number : Nat) : Text :=
  description ++ " (os error ".toList ++ Text.numeral number ++ [')']

def message : Fault → Text
  | .notFound => numbered "No such file or directory".toList 2
  | .notADirectory => numbered "Not a directory".toList 20
  | .isADirectory => numbered "Is a directory".toList 21
  | .invalidText => "stream did not contain valid UTF-8".toList
  | .nulInName => "file name contained an unexpected NUL byte".toList
  | .nameTooLong => numbered "File name too long".toList 36
  | .linkLoop => numbered "Too many levels of symbolic links".toList 40
  | .otherDevice => numbered "Invalid cross-device link".toList 18
  | .other number description => numbered description number

def ofNumber (number : Nat) (description : Text) : Fault :=
  match number with
  | 2 => .notFound
  | 18 => .otherDevice
  | 20 => .notADirectory
  | 21 => .isADirectory
  | 36 => .nameTooLong
  | 40 => .linkLoop
  | _ => .other number description

end Fault

end SceneDowngrade.Files
