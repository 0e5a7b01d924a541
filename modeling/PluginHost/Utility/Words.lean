import PluginHost.Text.Formatting
import PluginHost.Utility.Task
/-!
Utilities that write their arguments or what is known of where they run.
-/

namespace PluginHost.Utility

/-- Whether a word sets how `echo` writes. -/
def isEchoOption (word : String) : Bool :=
  match word.toList with
  | '-' :: c :: rest => (c :: rest).all fun c => c ∈ ['n', 'e', 'E']
  | _ => false

def echo : Program := fun c => do
  let letters := (c.arguments.takeWhile isEchoOption).flatMap String.toList
  let words := c.arguments.dropWhile isEchoOption
  let text := (" ".intercalate words).toList
  let (text, isOver) := match (letters.filter fun c => c = 'e' || c = 'E').getLast? with
    | some 'e' => Text.unescape text
    | _ => (text, false)
  Task.put (if isOver || letters.contains 'n' then text else text ++ ['\n'])

/-- What `printf` says of its arguments. -/
def wording : Text.Wording :=
  ⟨fun a => quoted a ++ ": expected a numeric value",
    fun a => quoted a ++ ": value not completely converted",
    fun a => quoted a ++ ": Numerical result out of range",
    (· ++ ": invalid conversion specification"), "%: invalid conversion specification"⟩

def printf : Program := fun c => do
  match if c.arguments.head? = some "--" then c.arguments.drop 1 else c.arguments with
  | [] => c.noOperand
  | format :: arguments =>
    let f := Text.formatted wording format arguments
    f.complaints.forM c.complain
    Task.put f.text
    match f.fault, f.left with
    | some message, _ => c.fail message 1
    | none, extra :: _ =>
      if extra = arguments.head?.getD "" && f.left.length = arguments.length then
        c.say ("warning: ignoring excess arguments, starting with " ++ quoted extra)
    | none, [] => return

def printenv : Program := fun c => do
  let words := c.arguments.filter fun a => a ≠ "-0" && a ≠ "--"
  if words.isEmpty then c.environment.forM fun e => Task.putText (e.1 ++ "=" ++ e.2 ++ "\n")
  else
    words.forM fun name => do
      match c.environment.lookup name with
      | some value => Task.putText (value ++ "\n")
      | none => Task.setStatus 1

/-- Whether a text tells how long to wait. -/
def isDuration (s : String) : Bool :=
  match Text.takeReal s.toList with
  | some (x, rest) => (!x.isNegative || x.significand = 0) && !x.isNaN &&
      rest ∈ [[], ['s'], ['m'], ['h'], ['d']]
  | none => false

/-- Waits for no time at all. -/
def sleep : Program := fun c => do
  let options : Options := ⟨"", [], true, 1⟩
  let p ← options.parse c
  if p.operands.isEmpty then c.noOperand
  let bad := p.operands.filter (!isDuration ·)
  bad.forM fun a => c.say ("invalid time interval " ++ quoted a)
  if !bad.isEmpty then c.advise 1

/-- What the letters in a format of `date` stand for. The clock stands still at the start of 1970. -/
def momentParts : List (Char × String) :=
  [('A', "Thursday"), ('B', "January"), ('D', "01/01/70"), ('F', "1970-01-01"), ('H', "00"),
   ('I', "12"), ('M', "00"), ('N', "000000000"), ('R', "00:00"), ('S', "00"), ('T', "00:00:00"),
   ('Y', "1970"), ('Z', "UTC"), ('a', "Thu"), ('b', "Jan"), ('d', "01"), ('e', " 1"), ('h', "Jan"),
   ('j', "001"), ('m', "01"), ('n', "\n"), ('p', "AM"), ('s', "0"), ('t', "\t"), ('u', "4"),
   ('w', "4"), ('y', "70"), ('z', "+0000"), ('%', "%")]

def momentText : List Char → List Char
  | '%' :: letter :: rest =>
    match momentParts.lookup letter with
    | some text => text.toList ++ momentText rest
    | none => '%' :: letter :: momentText rest
  | c :: rest => c :: momentText rest
  | [] => []

def date : Program := fun c => do
  let options : Options := ⟨"d:Iur:R", [("date", 'd'), ("universal", 'u'), ("utc", 'u'),
    ("reference", 'r'), ("rfc-email", 'R')], true, 1⟩
  let p ← options.parse c
  match p.operands with
  | [] => Task.putText "Thu Jan  1 00:00:00 UTC 1970\n"
  | [format] =>
    match format.toList with
    | '+' :: format => Task.putLine (momentText format)
    | _ => c.fail ("invalid date " ++ quoted format) 1
  | _ :: extra :: _ => c.misuse ("extra operand " ++ quoted extra) 1

/-- Tells that nobody types. -/
def tty : Program := fun _ => do
  Task.putText "not a tty\n"
  Task.setStatus 1

def whoami : Program := fun _ => Task.putText "root\n"

def id : Program := fun c => do
  let options : Options := ⟨"gGnru", [("user", 'u'), ("group", 'g'), ("groups", 'G'), ("name", 'n')],
    true, 1⟩
  let p ← options.parse c
  if p.found.isEmpty then Task.putText "uid=0(root) gid=0(root) groups=0(root)\n"
  else Task.putText (if p.has 'n' then "root\n" else "0\n")

def uname : Program := fun c => do
  let options : Options := ⟨"asnrvmpio", [("kernel-name", 's'), ("machine", 'm'),
    ("operating-system", 'o')], true, 1⟩
  let p ← options.parse c
  let parts := [('s', "Linux"), ('m', "x86_64"), ('o', "GNU/Linux")].filter fun (letter, _) =>
    p.has letter || (p.found.isEmpty && letter = 's')
  Task.putText (" ".intercalate (parts.map (·.2)) ++ "\n")

end PluginHost.Utility
