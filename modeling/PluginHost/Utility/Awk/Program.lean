import PluginHost.Utility.Awk.Evaluate
import PluginHost.Utility.Awk.Parser
/-!
The utility that runs programs on records.
-/

namespace PluginHost.Utility.Awk

/-- How the utility is called: the separator, what is assigned before the start, files with programs,
    and the words behind. -/
structure Invocation where
  separator : Option String
  assignments : List String
  files : List String
  words : List String

/-- Reads the options. The fuel bounds the words. -/
def invocation (c : Call) : Nat → Invocation → List String → Task Invocation
  | 0, v, _ => return v
  | fuel + 1, v, words => do
    let withText := fun (rest : List Char) (use : String → Invocation) (more : List String) =>
      match rest, more with
      | [], value :: more => invocation c fuel (use value) more
      | [], [] => c.fail "option requires an argument" 2
      | rest, more => invocation c fuel (use (String.ofList rest)) more
    match words with
    | [] => return v
    | "--" :: rest => return { v with words := rest }
    | word :: more =>
      match word.toList with
      | '-' :: 'F' :: rest => withText rest (fun s => { v with separator := some s }) more
      | '-' :: 'v' :: rest =>
        withText rest (fun s => { v with assignments := v.assignments ++ [s] }) more
      | '-' :: 'f' :: rest => withText rest (fun s => { v with files := v.files ++ [s] }) more
      | '-' :: 'W' :: rest => withText rest (fun _ => v) more
      | '-' :: _ :: _ => c.fail ("not an option: " ++ word) 2
      | _ => return { v with words }

/-- Sets what is there before a program starts. -/
def prepare (c : Call) (v : Invocation) (operands : List String) : Machine Unit := do
  let texts := [("FS", " "), ("OFS", " "), ("ORS", "\n"), ("RS", "\n"), ("CONVFMT", "%.6g"),
    ("OFMT", "%.6g"), ("SUBSEP", "\x1c"), ("FILENAME", "")]
  texts.forM fun (name, s) => Machine.setGlobal name (.text s)
  ["NR", "FNR", "RSTART"].forM fun name => Machine.setGlobal name (.number 0)
  Machine.setGlobal "RLENGTH" (.number (-1))
  let environment ← Machine.tableOf "ENVIRON"
  c.environment.forM fun (name, s) =>
    Machine.modifyTable environment (·.insert (.text name) (.ofInput s))
  let words := c.name :: operands
  Machine.setGlobal "ARGC" (.ofNat words.length)
  let arguments ← Machine.tableOf "ARGV"
  words.zipIdx.forM fun (s, n) => Machine.modifyTable arguments (·.insert (.number n) (.ofInput s))
  v.separator.forM fun s => do
    let s := match assignedValue s with
      | .text s | .both s _ => s
      | _ => s
    Machine.setGlobal "FS" (.text s)
  v.assignments.forM fun s => do
    match assignment? s with
    | some (name, text) => Machine.setGlobal name (assignedValue text)
    | none => return

/-- Runs the commands that still have something to read. The fuel bounds their number. -/
def closeAll : Nat → Machine Unit
  | 0 => return
  | fuel + 1 => do
    match (← get).piped with
    | [] => return
    | (name, _) :: _ =>
      let _ ← Machine.close name
      closeAll fuel

end Awk

open Awk in
def awk : Program := fun c => do
  let v ← invocation c (c.arguments.length + 1) ⟨none, [], [], []⟩ c.arguments
  v.assignments.forM fun s => do
    if (assignment? s).isNone then c.fail ("improper assignment: -v " ++ s) 2
  let texts ← v.files.mapM fun path => do
    match ← Task.readFile path with
    | .ok s => return s
    | .error f => c.fail ("cannot open \"" ++ path ++ "\" (" ++ f.reason ++ ")") 2
  if v.files.isEmpty && v.words.isEmpty then
    Task.putError "Usage: mawk [Options] [Program] [file ...]\n"
    Task.exit 2
  let (text, operands) := if v.files.isEmpty then ((v.words.head?.getD "").toList, v.words.drop 1)
    else (List.intercalate ['\n'] texts, v.words)
  match Script.ofText text with
  | .error message => c.fail message 2
  | .ok script =>
    let runtime : Runtime := {
      name := c.name, functions := script.functions, globals := [], tables := #[], tableNames := [],
      frame := [], depth := 0, record := "", fields := #[], active := [], rest := none, nextArgument := 1,
      hasRead := false, written := [], piped := [], sources := [], regexes := [], seed := 1, status := 0 }
    let run : Machine Unit := do
      prepare c v operands
      Machine.main script
    let (r, runtime) ← run.run.run runtime
    let (_, runtime) ← (closeAll (runtime.piped.length + 1)).run.run runtime
    match r with
    | .error (.fault message) =>
      c.say ("run time error: " ++ message)
      let text := fun (name : String) => ((runtime.globals.lookup name).getD .unset).toText "%.6g"
      Task.putError ("\tFILENAME=\"" ++ text "FILENAME" ++ "\" FNR=" ++ text "FNR" ++ " NR=" ++
        text "NR" ++ "\n")
      Task.exit 2
    | _ => Task.setStatus runtime.status

end PluginHost.Utility
