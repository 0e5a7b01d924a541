import PluginHost.Json.Record
import PluginHost.Text.Cut
import PluginHost.Text.Numeral
/-!
Diagnostics: what a compiler says about a source file.
-/

namespace PluginHost

open Json

structure Diagnostic where
  file : Option String
  line : Option UInt32
  column : Option UInt32
  code : Option String
  message : String
deriving DecidableEq, Inhabited

namespace Diagnostic

/-- A message about no file. -/
def ofMessage (message : String) : Diagnostic := ⟨none, none, none, none, message⟩

def record : Record Diagnostic Diagnostic :=
  Record.start Diagnostic.mk
    |>.field (.option "file" file .str Decoder.text)
    |>.field (.option "line" line (fun n => .nat n.toNat) Decoder.uint32)
    |>.field (.option "column" column (fun n => .nat n.toNat) Decoder.uint32)
    |>.field (.option "code" code .str Decoder.text)
    |>.field (.text "message" message)

/-- The coordinate that a part of a position writes, if it writes one. -/
def coordinate? (part : List Char) : Option UInt32 :=
  (Text.natBelow? UInt32.size (Text.trim part)).map UInt32.ofNat

/-- The file and position before an error. A position is what stands in final parentheses: line and
    column with a comma between. Without one the whole text is the file, if it is not blank. -/
def place (head : List Char) : Option String × Option UInt32 × Option UInt32 :=
  let whole := fun (_ : Unit) =>
    let file := Text.trim head
    (if file.isEmpty then none else some (String.ofList file), none, none)
  if head.getLast? = some ')' then
    match Text.cutLast? '(' head with
    | some (file, position) =>
      let parts := position.dropLast.splitOnP (· = ',')
      (some (String.ofList (Text.trim file)), parts[0]?.bind coordinate?, parts[1]?.bind coordinate?)
    | none => whole ()
  else whole ()

/-- The code and message of an error. A code is what stands before the first colon and space,
    unless there is a space in it. -/
def codeAndMessage (text : List Char) : Option String × String :=
  match Text.cutFirst? [':', ' '] text with
  | some (code, message) =>
    if code.contains ' ' then (none, String.ofList (Text.trim text))
    else (some (String.ofList code), String.ofList (Text.trim message))
  | none => (none, String.ofList (Text.trim text))

/-- The diagnostic in a line `file(line,column): error CODE: message`. Any other line, such as a
    warning, holds none. -/
def ofErrorLine? (line : String) : Option Diagnostic :=
  (Text.cutFirst? ": error ".toList line.toList).map fun (head, text) =>
    let (file, row, column) := place head
    let (code, message) := codeAndMessage text
    ⟨file, row, column, code, message⟩

/-- File, position, code and message, as far as they are known. A position is shown only where the
    file, the line and the column all are. -/
def display (d : Diagnostic) : String :=
  let number := fun (n : UInt32) => String.ofList (Text.ofNat n.toNat)
  let position := match d.line, d.column with
    | some line, some column => "(" ++ number line ++ "," ++ number column ++ ")"
    | _, _ => ""
  let place := match d.file with
    | some file => file ++ position ++ ": "
    | none => ""
  let code := match d.code with
    | some code => code ++ ": "
    | none => ""
  place ++ code ++ d.message

end Diagnostic

end PluginHost
