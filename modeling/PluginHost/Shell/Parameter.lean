import PluginHost.Shell.Field
import PluginHost.Shell.State
/-!
Parameters of a running shell: their values, and how variables get theirs.
-/

namespace PluginHost.Shell

namespace Process

def binding? (p : Process) (name : String) : Option Binding :=
  p.bindings.find? fun b => b.name = name

/-- Puts a binding in the place of the one with its name. -/
def bind (p : Process) (b : Binding) : Process :=
  { p with bindings := b :: p.bindings.filter (·.name ≠ b.name) }

def value? (p : Process) (name : String) : Option String := (p.binding? name).bind (·.value)

/-- The letters of the options, the last ones first. -/
def optionLetters (p : Process) : String :=
  String.ofList (['p', 'u', 'b', 'a', 'C', 'E', 'V', 'v', 'x', 's', 'm', 'i', 'n', 'I', 'f', 'e'].filter
    p.options.contains)

/-- The separators of fields that are in force. -/
def separators (p : Process) : Separators :=
  match p.value? "IFS" with
  | some text => ⟨text.toList⟩
  | none => .standard

/-- What stands between the arguments where they are joined. -/
def argumentSeparator (p : Process) : String :=
  match p.value? "IFS" with
  | some text => String.ofList (text.toList.take 1)
  | none => " "

/-- The value of a parameter, if it has one. Lists of arguments are joined. -/
def parameter? (p : Process) (name : String) : Option String :=
  match name with
  | "#" => some (decimal p.arguments.length)
  | "?" => some (decimal p.status)
  | "$" => some (decimal p.shellId)
  | "!" => p.lastJob.map decimal
  | "-" => some p.optionLetters
  | "@" | "*" => some (p.argumentSeparator.intercalate p.arguments)
  | _ =>
    match Text.digits? name.toList with
    | some 0 => some p.name
    | some n => p.arguments[n - 1]?
    | none => p.value? name

/-- What programs are told of the variables. -/
def environment (p : Process) : List (String × String) :=
  (p.bindings.reverse.filter (·.isExported)).filterMap fun b => b.value.map fun v => (b.name, v)

end Process

namespace Run

/-- Gives a variable a value, or the mark of one that has none, and attributes besides those that it
    has. -/
def declare (name : String) (value : Option String) (exports fixes : Bool) : Run Unit := do
  if !isName name.toList then fail (name ++ ": bad variable name")
  let p ← process
  let old := p.binding? name
  if old.any (·.isFixed) then fail (name ++ ": is read only")
  let isExported := exports || old.any (·.isExported) || (value.isSome && p.options.contains 'a')
  let optionPlace ← match name, value with
    | "OPTIND", some value =>
      match Text.digits? value.toList with
      | some n => pure ⟨max 1 n, 0⟩
      | none => fail ("Illegal number: " ++ value)
    | _, _ => pure p.optionPlace
  modifyProcess fun p => { p.bind ⟨name, value, isExported, fixes⟩ with optionPlace }

/-- Gives a variable a value. -/
def assign (name value : String) : Run Unit := declare name (some value) false false

/-- Takes a variable away. -/
def unset (name : String) : Run Unit := do
  if !isName name.toList then fail (name ++ ": bad variable name")
  if ((← process).binding? name).any (·.isFixed) then fail (name ++ ": is read only")
  modifyProcess fun p => { p with bindings := p.bindings.filter (·.name ≠ name) }

/-- Keeps the binding of a name for the end of the innermost function. -/
def keepBinding (name : String) : Run Unit :=
  modifyProcess fun p =>
    match p.frames with
    | frame :: outer =>
      if frame.any (·.1 = name) then p
      else { p with frames := ((name, p.binding? name) :: frame) :: outer }
    | [] => p

/-- Gives the names of the innermost function back what they were bound to, and the options if they
    were kept. -/
def restoreFrame (p : Process) : Process :=
  match p.frames, p.keptOptions with
  | frame :: outer, kept :: outerKept =>
    let names := frame.map (·.1)
    let others := p.bindings.filter fun b => !names.contains b.name
    { p with
      bindings := frame.filterMap (·.2) ++ others, frames := outer, keptOptions := outerKept,
      options := kept.getD p.options }
  | _, _ => p

/-- Runs something that may keep bindings and options for its end. -/
def inFrame {α : Type} (x : Run α) : Run α := do
  modifyProcess fun p => { p with frames := [] :: p.frames, keptOptions := none :: p.keptOptions }
  x.andFinally fun s => { s with process := restoreFrame s.process }

end Run

end PluginHost.Shell
