import PluginHost.Text.Numeral
/-!
Why an operation on files failed.
-/

namespace PluginHost

inductive IoFault where
  | notFound
  | permissionDenied
  | alreadyExists
  | notADirectory
  | isADirectory
  | nameTooLong
  | directoryNotEmpty
  /-- A text was wanted, but the bytes are none. -/
  | notUtf8
  /-- A path holds the character that ends names. -/
  | nulInPath
  | other (message : String)
deriving DecidableEq, Inhabited

namespace IoFault

/-- What happened, in the words of the system. -/
def reason : IoFault → String
  | notFound => "No such file or directory"
  | permissionDenied => "Permission denied"
  | alreadyExists => "File exists"
  | notADirectory => "Not a directory"
  | isADirectory => "Is a directory"
  | nameTooLong => "File name too long"
  | directoryNotEmpty => "Directory not empty"
  | notUtf8 => "stream did not contain valid UTF-8"
  | nulInPath => "file name contained an unexpected NUL byte"
  | other text => text

/-- The number that the system has for an error, if it has one. -/
def number? : IoFault → Option Nat
  | notFound => some 2
  | permissionDenied => some 13
  | alreadyExists => some 17
  | notADirectory => some 20
  | isADirectory => some 21
  | nameTooLong => some 36
  | directoryNotEmpty => some 39
  | notUtf8 | nulInPath | other _ => none

def message (f : IoFault) : String :=
  match f.number? with
  | some n => f.reason ++ " (os error " ++ String.ofList (Text.ofNat n) ++ ")"
  | none => f.reason

end IoFault

end PluginHost
