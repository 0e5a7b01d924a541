import PluginHost.Shell.Builtin.Control
/-!
Commands that deal with variables, arguments, options and aliases.
-/

namespace PluginHost.Shell.Builtin

/-- The options that have names. -/
def optionNames : List (Char × String) :=
  [('e', "errexit"), ('f', "noglob"), ('I', "ignoreeof"), ('i', "interactive"), ('m', "monitor"),
   ('n', "noexec"), ('s', "stdin"), ('x', "xtrace"), ('v', "verbose"), ('V', "vi"), ('E', "emacs"),
   ('C', "noclobber"), ('a', "allexport"), ('b', "notify"), ('u', "nounset"), ('p', "privileged")]

def setOption (isOn : Bool) (letter : Char) : Run Unit := do
  if (optionNames.lookup letter).isNone then
    Run.fail ("Illegal option -" ++ String.singleton letter)
  Run.modifyProcess fun p =>
    let others := p.options.filter (· ≠ letter)
    { p with options := if isOn then letter :: others else others }

def setNamedOption (isOn : Bool) (name : String) : Run Unit := do
  match optionNames.find? (·.2 = name) with
  | some (letter, _) => setOption isOn letter
  | none =>
    if name ∈ ["nolog", "debug"] then return
    else Run.fail ("Illegal option -o " ++ name)

/-- The options and whether they are on, one a line. -/
def optionTable (p : Process) (isCommand : Bool) : List String :=
  let names := optionNames ++ [(' ', "nolog"), (' ', "debug")]
  let line := fun (e : Char × String) =>
    let isOn := p.options.contains e.1
    if isCommand then (if isOn then "set -o " else "set +o ") ++ e.2
    else e.2 ++ "".pushn ' ' (16 - e.2.length) ++ (if isOn then "on" else "off")
  if isCommand then names.map line else "Current option settings" :: names.map line

/-- Sets the options that arguments give, and gives the arguments behind them, if the arguments of the
    script are to be replaced. The fuel bounds the arguments. -/
def setOptions : Nat → List String → Run (Option (List String))
  | 0, _ => return none
  | _, [] => return none
  | fuel + 1, word :: rest => do
    let letters := fun (isOn : Bool) (cs : List Char) => do
      let mut rest := rest
      for c in cs do
        if c = 'o' then
          match rest with
          | name :: more =>
            setNamedOption isOn name
            rest := more
          | [] =>
            let _ ← putLines (optionTable (← Run.process) !isOn)
        else setOption isOn c
      setOptions fuel rest
    match word.toList with
    | ['-'] =>
      setOption false 'x'
      setOption false 'v'
      return if rest.isEmpty then none else some rest
    | ['-', '-'] => return some rest
    | '-' :: cs => letters true cs
    | '+' :: cs => letters false cs
    | _ => return some (word :: rest)

/-- Lines that say what variables are. -/
def variableLines (p : Process) (start : String) (isShown : Binding → Bool) : List String :=
  let shown := (p.bindings.filter isShown).mergeSort fun a b => a.name ≤ b.name
  shown.map fun b => start ++ b.name ++ (match b.value with
    | some v => "=" ++ quoted v
    | none => "")

def set : Builtin := fun _ _ arguments => do
  if arguments.isEmpty then
    putLines (variableLines (← Run.process) "" (·.value.isSome))
  else
    if let some words := ← setOptions (arguments.length + 1) arguments then
      Run.modifyProcess fun p => { p with arguments := words, optionPlace := ⟨1, 0⟩ }
    return 0

def shift : Builtin := fun _ _ arguments => do
  let n ← match arguments with
    | [] => pure 1
    | text :: _ => number text
  let words := (← Run.process).arguments
  if words.length < n then Run.fail "can't shift that many"
  Run.modifyProcess fun p => { p with arguments := words.drop n, optionPlace := ⟨1, 0⟩ }
  return 0

/-- A name and the value behind an equals sign, if there is one. -/
def cutAssignment (word : String) : String × Option String :=
  let name := word.toList.takeWhile (· ≠ '=')
  match word.toList.drop name.length with
  | _ :: value => (String.ofList name, some (String.ofList value))
  | [] => (word, none)

/-- Gives variables an attribute. -/
def mark (start : String) (exports : Bool) : Builtin := fun _ _ arguments => do
  let (found, words) ← options "p" arguments
  if !found.isEmpty || words.isEmpty then
    putLines (variableLines (← Run.process) start fun b => if exports then b.isExported else b.isFixed)
  else
    words.forM fun word => do
      let (name, value) := cutAssignment word
      match value, (← Run.process).binding? name with
      | none, some b =>
        Run.modifyProcess fun p => p.bind { b with
          isExported := b.isExported || exports, isFixed := b.isFixed || !exports }
      | value, _ => Run.declare name value exports !exports
    return 0

def unset : Builtin := fun _ _ arguments => do
  let (found, words) ← options "vf" arguments
  let isFunction := found.getLast?.any (·.1 = 'f')
  words.forM fun word =>
    if isFunction then
      Run.modifyProcess fun p => { p with functions := p.functions.filter (·.1 ≠ word) }
    else Run.unset (cutAssignment word).1
  return 0

def localNames : Builtin := fun _ _ arguments => do
  if !(← Run.process).isInFunction then Run.fail "not in a function"
  (← withoutOptions arguments).forM fun word => do
    if word = "-" then
      let options := (← Run.process).options
      Run.modifyProcess fun p => { p with keptOptions := match p.keptOptions with
        | none :: rest => some options :: rest
        | kept => kept }
    else
      let (name, value) := cutAssignment word
      Run.keepBinding name
      match value with
      | some v => Run.assign name v
      | none => if !isName name.toList then Run.fail (name ++ ": bad variable name")
  return 0

/-- The state in which a line is cut into fields: those that are complete, and the one that is not,
    the newest character first. -/
structure LineCut where
  done : List String
  current : List Char
  /-- How many more fields there may be. -/
  left : Nat
  /-- Whether a blank separator came last. -/
  isBehindBlank : Bool
  /-- In the last field, how much of it counts if nothing else follows. -/
  kept : Option Nat

namespace LineCut

/-- Goes on with a character that may be a separator. -/
def step (s : Separators) (l : LineCut) (c : Char) : LineCut :=
  let isSeparator := s.contains c
  let isBlank := s.isBlank c
  if l.left = 0 then
    let next := { l with current := c :: l.current }
    if isBlank then
      { next with kept := some (l.kept.getD l.current.length) }
    else
      { next with
        kept := if isSeparator && l.isBehindBlank then l.kept else none, isBehindBlank := false }
  else if l.isBehindBlank && isBlank then l
  else if l.isBehindBlank && isSeparator then { l with isBehindBlank := false }
  else if isSeparator then
    if l.current.isEmpty && isBlank then l
    else if l.left = 1 then
      ⟨l.done, c :: l.current, 0, isBlank, some l.current.length⟩
    else ⟨String.ofList l.current.reverse :: l.done, [], l.left - 1, isBlank, none⟩
  else { l with current := c :: l.current, isBehindBlank := false }

/-- Goes on with a character that stands for itself. -/
def add (l : LineCut) (c : Char) : LineCut :=
  { l with current := c :: l.current, isBehindBlank := false }

/-- The fields of a line. -/
def fields (l : LineCut) : List String :=
  let last := l.current.reverse
  let last := match l.kept with
    | some n => last.take n
    | none => last
  (if last.isEmpty then l.done else String.ofList last :: l.done).reverse

end LineCut

/-- Reads a line: its characters with a mark on those that stand for themselves, whether it has an
    end, and what follows. The fuel bounds the characters. -/
def takeLine (isRaw : Bool) :
    Nat → List (Char × Bool) → List Char → List (Char × Bool) × Bool × List Char
  | 0, done, rest => (done.reverse, false, rest)
  | _, done, [] => (done.reverse, false, [])
  | fuel + 1, done, c :: rest =>
    if c = Char.ofNat 0 then takeLine isRaw fuel done rest
    else if c = '\n' then (done.reverse, true, rest)
    else if c = '\\' && !isRaw then
      match rest with
      | [] => (done.reverse, false, [])
      | '\n' :: rest => takeLine isRaw fuel done rest
      | e :: rest => takeLine isRaw fuel ((e, true) :: done) rest
    else takeLine isRaw fuel ((c, false) :: done) rest

/-- Gives variables the values that there are, and the others empty ones. -/
def assignAll : List String → List String → Run Unit
  | [], _ => return
  | name :: rest, values => do
    Run.assign name (values.head?.getD "")
    assignAll rest (values.drop 1)

def read : Builtin := fun _ _ arguments => do
  let (found, names) ← options "p:r" arguments
  if names.isEmpty then Run.fail "arg count"
  let isRaw := found.any (·.1 = 'r')
  match ← Run.readable 0 with
  | some (.source bytes _) =>
    let (line, hasEnd, rest) := takeLine isRaw (bytes.length + 1) [] (Octets.ofBytes bytes)
    Run.setReadable 0 (bytes.drop (bytes.length - rest.length))
    let s := (← Run.process).separators
    let cut := line.foldl (fun (l : LineCut) (c : Char × Bool) =>
      if c.2 then l.add c.1 else l.step s c.1) ⟨[], [], names.length, false, none⟩
    assignAll names cut.fields
    return if hasEnd then 0 else 1
  | _ =>
    assignAll names []
    return 1

/-- What `getopts` finds: the letter, its text, and where it has got to. -/
structure OptionStep where
  letter : Char
  text : Option String
  complaint : Option String
  place : OptionPlace
  isOver : Bool

/-- One step of `getopts` through some words. -/
def optionStep (letters : List Char) (place : OptionPlace) (words : List String) : OptionStep :=
  let isQuiet := letters.head? = some ':'
  let finished : OptionStep := ⟨'?', none, none, ⟨place.argument, 0⟩, true⟩
  let use := fun (c : Char) (more : List Char) (next : Nat) =>
    -- `next` is the number of the word behind the one with the letter
    let going := if more.isEmpty then 0 else (words[next - 2]?.getD "").length - more.length
    match letters.dropWhile (· ≠ c) with
    | [] =>
      if isQuiet then ⟨'?', some (String.singleton c), none, ⟨next, going⟩, false⟩
      else ⟨'?', none, some ("Illegal option -" ++ String.singleton c ++ "\n"), ⟨next, going⟩, false⟩
    | _ :: ':' :: _ =>
      match more, words[next - 1]? with
      | [], none =>
        if isQuiet then ⟨':', some (String.singleton c), none, ⟨next, 0⟩, false⟩
        else ⟨'?', none, some ("No arg for -" ++ String.singleton c ++ " option\n"), ⟨next, 0⟩, false⟩
      | [], some text => ⟨c, some text, none, ⟨next + 1, 0⟩, false⟩
      | more, _ => ⟨c, some (String.ofList more), none, ⟨next, 0⟩, false⟩
    | _ => ⟨c, some "", none, ⟨next, going⟩, false⟩
  let rest := if place.letters = 0 then []
    else ((words[place.argument - 2]?.getD "").toList.drop place.letters)
  match rest with
  | c :: more => use c more place.argument
  | [] =>
    match (words[place.argument - 1]?).map String.toList with
    | some ['-', '-'] => { finished with place := ⟨place.argument + 1, 0⟩ }
    | some ('-' :: c :: more) => use c more (place.argument + 1)
    | _ => finished

def getopts : Builtin := fun _ _ arguments => do
  match arguments with
  | letters :: name :: words =>
    let words ← if words.isEmpty then pure (← Run.process).arguments else pure words
    let place := (← Run.process).optionPlace
    let place := if words.length + 1 < place.argument then ⟨1, 0⟩ else place
    let step := optionStep letters.toList place words
    if let some complaint := step.complaint then
      let _ ← Run.print 2 complaint
    if step.isOver then pure ()
    else match step.text with
      | some text => Run.assign "OPTARG" text
      | none => Run.unset "OPTARG"
    Run.assign "OPTIND" (decimal step.place.argument)
    Run.assign name (String.singleton step.letter)
    Run.modifyProcess fun p => { p with optionPlace := step.place }
    return if step.isOver then 1 else 0
  | _ => Run.fail "Usage: getopts optstring var [arg...]"

def aliasLine (a : String × String) : String := a.1 ++ "=" ++ quoted a.2

def setAliases : Builtin := fun _ _ arguments => do
  if arguments.isEmpty then putLines ((← Run.process).aliases.map aliasLine)
  else
    arguments.foldlM (fun status word => do
      match cutAssignment word with
      | (name, some value) =>
        Run.modifyProcess fun p => { p with
          aliases := (name, value) :: p.aliases.filter (·.1 ≠ name) }
        return status
      | (name, none) =>
        match (← Run.process).aliases.lookup name with
        | some value =>
          let _ ← putLines [aliasLine (name, value)]
          return status
        | none =>
          let _ ← Run.print 2 ("alias: " ++ name ++ " not found\n")
          return 1) 0

def unalias : Builtin := fun _ _ arguments => do
  let (found, words) ← options "a" arguments
  if !found.isEmpty then
    Run.modifyProcess fun p => { p with aliases := [] }
    return 0
  words.foldlM (fun status name => do
    if ((← Run.process).aliases.lookup name).isSome then
      Run.modifyProcess fun p => { p with aliases := p.aliases.filter (·.1 ≠ name) }
      return status
    else
      let _ ← Run.print 2 ("unalias: " ++ name ++ " not found\n")
      return 1) 0

end PluginHost.Shell.Builtin
