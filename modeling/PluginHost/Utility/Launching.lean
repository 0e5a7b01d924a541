import PluginHost.Text.CharClass
import PluginHost.Text.Numeral
import PluginHost.Utility.Task
import PluginHost.Utility.Words
/-!
Utilities that start programs: calls of a program with arguments that are read from a text, and utilities that
start a program in their place: `env`, `nice`, `nohup`, `timeout`.
-/

namespace PluginHost.Utility

/-- The calls that a text and some arguments make. -/
structure Batch where
  calls : List (List String)
  /-- Whether each call is shown before it is made. -/
  isShown : Bool
  /-- What is wrong with the text behind the words of these calls. -/
  fault : Option String

/-- A word of a text, and whether a line ends right behind it. -/
structure BatchWord where
  text : String
  endsLine : Bool

namespace Batch

/-- How the calls are made up. -/
structure Plan where
  /-- The mark that a line is put in place of. -/
  mark : Option String
  /-- The character that separates the words. -/
  separator : Option Char
  /-- How many words or lines one call takes. -/
  words : Option Nat
  lines : Option Nat
  /-- The word at which the text ends. -/
  last : Option String
  skipsNothing : Bool
  isShown : Bool

/-- The words of a text, which line ends separate, and blanks too if they are asked to, unless they
    stand in quotes or behind a backslash. The fuel bounds the characters. Words are also given if a
    quote is missing behind them. -/
def wordsOf (splitsAtBlanks : Bool) :
    Nat → Option (List Char) → List Char → List BatchWord × Option String
  | 0, _, _ => ([], none)
  | _, none, [] | _, some [], [] => ([], none)
  | _, some word, [] => ([⟨String.ofList word.reverse, false⟩], none)
  | fuel + 1, word, c :: rest =>
    let old := word.getD []
    if c = '\\' then
      match rest with
      | e :: rest => wordsOf splitsAtBlanks fuel (some (e :: old)) rest
      | [] => wordsOf splitsAtBlanks fuel (some old) []
    else if c = '\'' || c = '"' then
      let inside := rest.takeWhile fun e => e ≠ c && e ≠ '\n'
      match rest.drop inside.length with
      | e :: rest =>
        if e = c then wordsOf splitsAtBlanks fuel (some (inside.reverse ++ old)) rest
        else ([], unmatched c)
      | [] => ([], unmatched c)
    else
      let isEnd := c = '\n' || (splitsAtBlanks && Text.isSpace c)
      match word with
      | none =>
        if Text.isSpace c then wordsOf splitsAtBlanks fuel none rest
        else wordsOf splitsAtBlanks fuel (some [c]) rest
      | some word =>
        if !isEnd then wordsOf splitsAtBlanks fuel (some (c :: word)) rest
        else if word.isEmpty && c = '\n' then wordsOf splitsAtBlanks fuel none rest
        else
          let (words, fault) := wordsOf splitsAtBlanks fuel none rest
          (⟨String.ofList word.reverse, c = '\n'⟩ :: words, fault)
where
  unmatched (c : Char) : Option String :=
    some ("unmatched " ++ (if c = '"' then "double" else "single") ++
      " quote; by default quotes are special to xargs unless you use the -0 option")

/-- The pieces of a text that a character separates. Each one is a line. -/
def piecesOf (separator : Char) (s : List Char) : List BatchWord :=
  let parts := s.splitOnP (· = separator)
  (if parts.getLast? = some [] then parts.dropLast else parts).map fun part =>
    ⟨String.ofList part, true⟩

/-- The lines that words stand in. -/
def linesOf : List BatchWord → List (List String)
  | [] => []
  | word :: rest =>
    match word.endsLine, linesOf rest with
    | true, lines => [word.text] :: lines
    | false, [] => [[word.text]]
    | false, line :: lines => (word.text :: line) :: lines

/-- Words in groups of so many. The fuel bounds the groups. -/
def groups {α : Type} (size : Nat) : Nat → List α → List (List α)
  | 0, _ => []
  | _, [] => []
  | fuel + 1, words =>
    words.take (max 1 size) :: groups size fuel (words.drop (max 1 size))

/-- A text with another one in place of every mark. -/
def replaced (mark value text : String) : String :=
  if mark.isEmpty then text else value.intercalate (text.splitOn mark)

/-- The calls of a command that a plan makes of a text. -/
def Plan.batch (p : Plan) (command : List String) (text : List Char) : Batch :=
  let command := if command.isEmpty then ["echo"] else command
  let (words, fault) := match p.separator with
    | some c => (piecesOf c text, none)
    | none => wordsOf p.mark.isNone (text.length + 1) none text
  let isLast := fun (word : BatchWord) => p.last = some word.text && p.separator.isNone
  let fault := if words.any isLast then none else fault
  let words := words.takeWhile (!isLast ·)
  match p.mark with
  | some mark => ⟨words.map fun word => command.map (replaced mark word.text), p.isShown, fault⟩
  | none =>
    let count := words.length + 1
    let calls := match p.words, p.lines with
      | some n, _ => groups n count (words.map (·.text))
      | none, some n => (groups n count (linesOf words)).map List.flatten
      | none, none => if words.isEmpty then [] else [words.map (·.text)]
    let calls := if calls.isEmpty && fault.isNone && !p.skipsNothing then [[]] else calls
    ⟨calls.map (command ++ ·), p.isShown, fault⟩

/-- The separator that a text writes. -/
def separatorOf (c : Call) (text : String) : Task Char := do
  let coded := fun (base : Nat) (digits : List Char) =>
    let n := Text.digitsValue base digits
    if n < 256 then return Char.ofNat n
    else c.fail ("Invalid escape sequence " ++ text ++ " in input delimiter specification.") 1
  match text.toList with
  | [mark] => return mark
  | ['\\', letter] =>
    match ("abfnrtv\\".toList.zip (['\x07', '\x08', '\x0C', '\n', '\r', '\t', '\x0B', '\\'])).lookup
      letter with
    | some mark => return mark
    | none =>
      if letter.isDigit then coded 8 [letter]
      else if letter = 'x' then coded 16 []
      else c.fail ("Invalid escape sequence " ++ text ++ " in input delimiter specification.") 1
  | '\\' :: 'x' :: digits => coded 16 digits
  | '\\' :: digits => coded 8 digits
  | _ => c.fail ("Invalid input delimiter specification " ++ text ++
      ": the delimiter must be either a single character or an escape sequence starting with \\.") 1

/-- The number behind an option. -/
def count (c : Call) (letter : Char) (least : Nat) (text : String) : Task Nat := do
  match Text.digits? text.toList with
  | none => c.misuse ("invalid number \"" ++ text ++ "\" for -" ++ String.singleton letter ++ " option") 1
  | some n =>
    if n < least then
      c.misuse ("value " ++ text ++ " for -" ++ String.singleton letter ++ " option should be >= " ++
        toString least) 1
    else return n

/-- Says that an option takes the place of one before it. -/
def warn (c : Call) (isOverruled : Bool) (old new : String) : Task Unit :=
  if isOverruled then
    c.say ("warning: options --" ++ old ++ " and -" ++ new ++
      " are mutually exclusive, ignoring previous --" ++ old ++ " value")
  else return

/-- The plan with an option. -/
def Plan.withOption (c : Call) (p : Plan) (letter : Char) (text : String) : Task Plan := do
  let marked := fun (mark : String) => do
    warn c p.words.isSome "max-args" "-replace/-I/-i"
    warn c p.lines.isSome "max-lines" "-replace/-I/-i"
    return { p with mark := some mark, words := none, lines := none, skipsNothing := true }
  let lined := fun (name : String) (text : String) => do
    let n ← count c letter 1 text
    warn c p.words.isSome "max-args" name
    warn c p.mark.isSome "replace" name
    return { p with lines := some n, words := none, mark := none }
  match letter with
  | '0' => return { p with separator := some (Char.ofNat 0) }
  | 'd' => return { p with separator := some (← separatorOf c text) }
  | 'E' | 'e' => return { p with last := if text.isEmpty then none else some text }
  | 'I' => marked text
  | 'i' => marked (if text.isEmpty then "\x7b\x7d" else text)
  | 'L' => lined "L" text
  | 'l' => lined "-max-lines/-l" (if text.isEmpty then "1" else text)
  | 'n' =>
    let n ← count c letter 1 text
    if p.mark.isSome && n = 1 then return p
    warn c p.lines.isSome "max-lines" "-max-args/-n"
    warn c p.mark.isSome "replace" "-max-args/-n"
    return { p with words := some n, lines := none, mark := none }
  | 'P' =>
    let _ ← count c letter 0 text
    return p
  | 's' =>
    let _ ← count c letter 1 text
    return p
  | 'r' => return { p with skipsNothing := true }
  | 't' => return { p with isShown := true }
  | _ => return p

/-- Reads the text and makes the calls up. -/
def read (c : Call) : Task Batch := do
  let options : Options := ⟨"0a:d:E:e::i::I:l::L:n:oprs:txP:",
    [("null", '0'), ("arg-file", 'a'), ("delimiter", 'd'), ("eof", 'e'), ("replace", 'i'),
      ("max-lines", 'l'), ("max-args", 'n'), ("open-tty", 'o'), ("interactive", 'p'),
      ("no-run-if-empty", 'r'), ("max-chars", 's'), ("verbose", 't'), ("exit", 'x'),
      ("max-procs", 'P')], false, 1⟩
  let parsed ← options.parse c
  let start : Plan := ⟨none, none, none, none, none, false, false⟩
  let plan ← parsed.found.foldlM (fun (p : Plan) f => p.withOption c f.1 f.2) start
  let path := (parsed.text? 'a').getD "-"
  match ← Task.readFile path with
  | .ok text => return plan.batch parsed.operands text
  | .error fault =>
    if path = "-" then return plan.batch parsed.operands []
    else c.fail ("Cannot open input file " ++ quoted path ++ ": " ++ fault.reason) 1

end Batch

/-! Programs that are started in place of the utility. -/

/-- A program that is to be started. -/
structure Launch where
  /-- The name of the program, and its arguments. -/
  words : List String
  environment : List (String × String)
  /-- The directory to start it in. -/
  working : List String
  /-- What is said in front of the reason if it cannot be started. -/
  refusal : String

/-- What a call of such a utility leads to, unless it ends by itself. -/
abbrev Launching := Call → Task (Option Launch)

/-- The status of these utilities where there is a mistake. -/
def launchingStatus : Nat := 125

/-- A variable put into an environment, in place of an older one. -/
def withVariable (environment : List (String × String)) (e : String × String) :
    List (String × String) :=
  if (environment.lookup e.1).isSome then
    environment.map fun old => if old.1 = e.1 then e else old
  else environment ++ [e]

/-- Cuts a word at its first equals sign. -/
def assignment? (word : String) : Option (String × String) :=
  let name := word.toList.takeWhile (· ≠ '=')
  match word.toList.drop name.length with
  | _ :: value => some (String.ofList name, String.ofList value)
  | [] => none

def env : Launching := fun c => do
  let options : Options := ⟨"0C:iS:u:v", [("null", '0'), ("chdir", 'C'), ("ignore-environment", 'i'),
    ("split-string", 'S'), ("unset", 'u'), ("debug", 'v')], false, launchingStatus⟩
  let p ← options.parse c
  -- the text of `-S` stands in front of the other words
  let p ← match p.text? 'S' with
    | none => pure p
    | some text =>
      let words := (Batch.wordsOf true (text.length + 1) none text.toList).1.map (·.text)
      options.parse { c with arguments := words ++ p.operands }
  let (isBare, words) := match p.operands with
    | "-" :: rest => (true, rest)
    | words => (p.has 'i', words)
  let unset := (p.found.filter (·.1 = 'u')).map (·.2)
  match unset.find? fun name => name.isEmpty || name.toList.contains '=' with
  | some name => c.fail ("cannot unset " ++ quoted name ++ ": Invalid argument") launchingStatus
  | none => pure ()
  let environment := if isBare then [] else c.environment.filter fun e => !unset.contains e.1
  let assigned := words.takeWhile fun word => (assignment? word).isSome
  let environment := (assigned.filterMap assignment?).foldl withVariable environment
  let words := words.drop assigned.length
  if p.has '0' && !words.isEmpty then
    c.misuse "cannot specify --null (-0) with command" launchingStatus
  if (p.text? 'C').isSome && words.isEmpty then
    c.misuse "must specify command with --chdir (-C)" launchingStatus
  let disk ← Task.disk
  let working ← match p.text? 'C' with
    | none => pure disk.working
    | some path =>
      let refuse := fun (fault : IoFault) => show Task (List String) from
        c.fail ("cannot change directory to " ++ quoted path ++ ": " ++ fault.reason) launchingStatus
      match disk.place (Octets.decode path), disk.lookup (Octets.decode path) with
      | .ok working, .ok (.directory _) => pure working
      | .ok _, .ok (.file _) => refuse .notADirectory
      | .error fault, _ | _, .error fault => refuse fault
  match words with
  | [] =>
    let mark := if p.has '0' then "\x00" else "\n"
    Task.putText (String.join (environment.map fun e => e.1 ++ "=" ++ e.2 ++ mark))
    return none
  | program :: _ =>
    if p.has 'v' then
      Task.putError ("executing: " ++ program ++ "\n" ++ String.join (words.mapIdx fun n word =>
        "   arg[" ++ toString n ++ "]= '" ++ word ++ "'\n"))
    return some ⟨words, environment, working, quoted program⟩

/-- A program that is started just as it is. -/
def plainLaunch (c : Call) (words : List String) (refusal : String → String) :
    Task (Option Launch) := do
  return some ⟨words, c.environment, (← Task.disk).working, refusal (words.head?.getD "")⟩

def isWholeNumber (s : List Char) : Bool :=
  match s with
  | '-' :: digits | '+' :: digits | digits => (Text.digits? digits).isSome

def nice : Launching := fun c => do
  -- a number may stand behind a dash of its own
  let arguments := match c.arguments with
    | word :: rest =>
      match word.toList with
      | '-' :: text => if isWholeNumber text then "-n" :: String.ofList text :: rest else word :: rest
      | _ => word :: rest
    | [] => []
  let p ← Options.parse ⟨"n:", [("adjustment", 'n')], false, launchingStatus⟩ { c with arguments }
  match (p.text? 'n').filter fun text => !isWholeNumber text.toList with
  | some text => c.fail ("invalid adjustment " ++ quoted text) launchingStatus
  | none => pure ()
  match p.operands with
  | [] =>
    if (p.text? 'n').isSome then c.misuse "a command must be given with an adjustment" launchingStatus
    Task.putText "0\n"
    return none
  | words => plainLaunch c words quoted

def failedToRun (program : String) : String := "failed to run command " ++ quoted program

def nohup : Launching := fun c => do
  let p ← Options.parse ⟨"", [], false, launchingStatus⟩ c
  match p.operands with
  | [] => c.misuse "missing operand" launchingStatus
  | words => plainLaunch c words failedToRun

/-- Programs end before their time is over. -/
def timeout : Launching := fun c => do
  let p ← Options.parse ⟨"fk:ps:v", [("foreground", 'f'), ("kill-after", 'k'), ("preserve-status", 'p'),
    ("signal", 's'), ("verbose", 'v')], false, launchingStatus⟩ c
  let check := fun (text : String) => do
    if !isDuration text then
      c.misuse ("invalid time interval " ++ quoted text) launchingStatus
  (p.text? 'k').forM check
  match p.operands with
  | [] | [_] => c.advise launchingStatus
  | duration :: words =>
    check duration
    plainLaunch c words failedToRun

def launchings : List (String × Launching) :=
  [("env", env), ("nice", nice), ("nohup", nohup), ("timeout", timeout)]

/-- Writes where programs lie. -/
def which : Program := fun c => do
  let fault? := fun (word : String) => match word.toList with
    | '-' :: letters => letters.find? fun letter => letter ≠ 'a' && letter ≠ 's'
    | _ => none
  let words := c.arguments.dropWhile fun word =>
    word ≠ "--" && word ≠ "-" && word.toList.head? = some '-'
  let given := c.arguments.take (c.arguments.length - words.length)
  match given.findSome? fault? with
  | some letter =>
    Task.putError ("Illegal option -" ++ String.singleton letter ++ "\n")
    let path := if c.name.toList.contains '/' then c.name else "/usr/bin/" ++ c.name
    if !given.any (·.toList.contains 's') then Task.putText ("Usage: " ++ path ++ " [-as] args\n")
    Task.exit 2
  | none => pure ()
  let names := if words.head? = some "--" then words.drop 1 else words
  let has := fun (letter : Char) => given.any (·.toList.contains letter)
  let isProgram := fun (path : String) => do
    let disk ← Task.disk
    match disk.place (Octets.decode path) with
    | .ok place => return disk.isFile (Octets.decode path) && (← Task.isRunnable place)
    | .error _ => return false
  let directories := ((c.environment.lookup "PATH").getD "").toList.splitOnP (· = ':')
  let counts ← names.mapM fun name => do
    let paths := if name.toList.contains '/' then [name]
      else directories.map fun d => (if d.isEmpty then "." else String.ofList d) ++ "/" ++ name
    let found ← paths.filterM isProgram
    let shown := if has 'a' then found else found.take 1
    if !has 's' then Task.putLines (shown.map String.toList)
    return found.length
  Task.setStatus (if !counts.isEmpty && counts.all (0 < ·) then 0 else 1)

end PluginHost.Utility
