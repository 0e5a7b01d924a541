import PluginHost.Shell.Token
/-!
Commands of a script, from its tokens.

A script is read one line at a time, with as many more lines as its commands take, so that what
stands before a fault is carried out.
-/

namespace PluginHost.Shell

/-- Where a list of commands stands. -/
inductive ListPlace where
  /-- On a line of the script, whose end ends it. -/
  | line
  /-- Inside a command, where there has to be one. -/
  | inside
  /-- Inside a command, where there may be none. -/
  | optional
deriving DecidableEq, Inhabited

/-- Words that the shell keeps from being names of functions. -/
def specialBuiltins : List String :=
  [".", ":", "break", "continue", "eval", "exec", "exit", "export", "local", "readonly", "return",
   "set", "shift", "times", "trap", "unset"]

namespace Parse

/-- Runs commands in the background. -/
def inBackground (line : Nat) (c : Command) : Command := .background line c

def sequenceOf : List Command → Command
  | [] => .nothing
  | [c] => c
  | cs => .sequence cs

/-- A redirection whose mark was read, with the word behind it. -/
def redirect (next : TokenUse → Parse Token) (descriptor : Nat) (kind : RedirectKind) :
    Parse Redirect := do
  let use := match kind with
    | .document _ => TokenUse.delimiter
    | _ => .plain
  match ← next use with
  | .word w isQuoted =>
    match kind with
    | .file opening => return .file descriptor opening w
    | .copy => return .copy descriptor w
    | .document isIndented =>
      let index := (← get).nextDocument
      let d : AwaitedDocument := ⟨index, w.characters, isIndented, isQuoted⟩
      modify fun s => { s with nextDocument := index + 1, awaited := s.awaited ++ [d] }
      return .document descriptor index
  | _ => unexpected none

/-- The redirections behind a command. The fuel bounds their number. -/
def redirects (next : TokenUse → Parse Token) : Nat → Parse (List Redirect)
  | 0 => return []
  | fuel + 1 => do
    match ← next .command with
    | .redirect descriptor kind =>
      let r ← redirect next descriptor kind
      return r :: (← redirects next fuel)
    | _ =>
      putBack
      return []

/-- The words up to the end of the line. -/
def words (next : TokenUse → Parse Token) : Nat → Parse (List Word)
  | 0 => return []
  | fuel + 1 => do
    match ← next .plain with
    | .word w _ => return w :: (← words next fuel)
    | _ => return []

/-- The patterns of an arm, of which the first token was read. -/
def patterns (next : TokenUse → Parse Token) : Nat → Parse (List Word)
  | 0 => return []
  | fuel + 1 => do
    let w := match (← get).last with
      | .word w _ => w
      | .keyword text => [.text text.toList false]
      | _ => []
    match ← next .plain with
    | .mark "|" =>
      let _ ← next .plain
      return w :: (← patterns next fuel)
    | _ => return [w]

/-- Parts of a simple command. -/
structure SimpleParts where
  assignments : List Word
  words : List Word
  redirects : List Redirect

/-- What a name has to be to name a function. -/
def isFunctionName (w : Word) : Bool :=
  w.bare?.any fun chars => isName chars && String.ofList chars ∉ specialBuiltins

mutual

/-- A list of commands. The fuel bounds how deep commands nest; the same holds below. -/
def list : Nat → ListPlace → Parse Command
  | 0, _ => fail "commands nest too deep"
  | fuel + 1, place => listFrom fuel place (place = .optional) []

/-- The rest of a list behind some commands, the newest first. `mayEnd` tells whether the list may end
    here. -/
def listFrom : Nat → ListPlace → Bool → List Command → Parse Command
  | 0, _, _, _ => fail "commands nest too deep"
  | fuel + 1, place, mayEnd, done => do
    let sub := list fuel .optional
    let finish : Parse Command := return sequenceOf done.reverse
    let t ← token sub (if place = .line then .command else .laterCommand) fuel
    match t with
    | .newline =>
      documents sub fuel
      finish
    | .endOfFile =>
      documents sub fuel
      modify fun s => { s with last := .endOfFile }
      putBack
      finish
    | t =>
      putBack
      if mayEnd && place ≠ .line && t.endsList then finish
      else
        let line := (← get).line
        let c ← andOr fuel .plain
        let stop := fun (c : Command) => return sequenceOf (c :: done).reverse
        match ← token sub .plain fuel with
        | .mark "&" => listFrom fuel place true (inBackground line c :: done)
        | .mark ";" => listFrom fuel place true (c :: done)
        | .newline =>
          putBack
          listFrom fuel place true (c :: done)
        | .endOfFile =>
          documents sub fuel
          modify fun s => { s with last := .endOfFile }
          putBack
          stop c
        | _ =>
          if place = .line then unexpected none
          else
            putBack
            stop c

/-- Commands with `&&` and `||` between, which bind to the left. -/
def andOr : Nat → TokenUse → Parse Command
  | 0, _ => fail "commands nest too deep"
  | fuel + 1, use => do
    let c ← pipeline fuel use
    moreAndOr fuel c

def moreAndOr : Nat → Command → Parse Command
  | 0, _ => fail "commands nest too deep"
  | fuel + 1, first => do
    match ← token (list fuel .optional) .plain fuel with
    | .mark "&&" =>
      let next ← pipeline fuel .laterCommand
      moreAndOr fuel (.both first next)
    | .mark "||" =>
      let next ← pipeline fuel .laterCommand
      moreAndOr fuel (.either first next)
    | _ =>
      putBack
      return first

def pipeline : Nat → TokenUse → Parse Command
  | 0, _ => fail "commands nest too deep"
  | fuel + 1, use => do
    let sub := list fuel .optional
    let t ← token sub use fuel
    let isNegated := t matches .keyword "!"
    if !isNegated then putBack
    let first ← command fuel (if isNegated then .command else .plain)
    let rest ← stages fuel
    let c := if rest.isEmpty then first else .pipeline (first :: rest)
    return if isNegated then .negated c else c

/-- The commands behind bars. -/
def stages : Nat → Parse (List Command)
  | 0 => fail "commands nest too deep"
  | fuel + 1 => do
    match ← token (list fuel .optional) .plain fuel with
    | .mark "|" =>
      let c ← command fuel .laterCommand
      return c :: (← stages fuel)
    | _ =>
      putBack
      return []

def command : Nat → TokenUse → Parse Command
  | 0, _ => fail "commands nest too deep"
  | fuel + 1, use => do
    let sub := list fuel .optional
    let next := fun (use : TokenUse) => token sub use fuel
    let line := (← get).line
    let expect := fun (t : Token) => do
      let found ← next .plain
      if found.display ≠ t.display then unexpected (some t)
    let redirected := fun (c : Command) => do
      let rs ← redirects next fuel
      return match c with
        | .subshell line body _ => .subshell line body rs
        | c => if rs.isEmpty then c else .redirected line c rs
    match ← next use with
    | .keyword "if" =>
      let c ← branch fuel
      expect (.keyword "fi")
      redirected c
    | .keyword "while" =>
      let c ← loop fuel false
      redirected c
    | .keyword "until" =>
      let c ← loop fuel true
      redirected c
    | .keyword "for" =>
      let c ← each fuel line
      redirected c
    | .keyword "case" =>
      let c ← choice fuel line
      redirected c
    | .mark "(" =>
      let body ← list fuel .inside
      expect (.mark ")")
      redirected (.subshell line body [])
    | .keyword "\x7b" =>
      let body ← list fuel .inside
      expect (.keyword "\x7d")
      redirected body
    | .word _ _ | .redirect _ _ =>
      putBack
      simple fuel line true ⟨[], [], []⟩
    | _ => unexpected none

/-- A choice between two lists, behind its first word. -/
def branch : Nat → Parse Command
  | 0 => fail "commands nest too deep"
  | fuel + 1 => do
    let next := fun (use : TokenUse) => token (list fuel .optional) use fuel
    let condition ← list fuel .inside
    match ← next .plain with
    | .keyword "then" => pure ()
    | _ => unexpected (some (.keyword "then"))
    let yes ← list fuel .inside
    match ← next .plain with
    | .keyword "elif" => return .branch condition yes (← branch fuel)
    | .keyword "else" => return .branch condition yes (← list fuel .inside)
    | _ =>
      putBack
      return .branch condition yes .nothing

/-- The body of a loop, from the word before it to the word behind it. -/
def body : Nat → TokenUse → Parse Command
  | 0, _ => fail "commands nest too deep"
  | fuel + 1, use => do
    let next := fun (use : TokenUse) => token (list fuel .optional) use fuel
    match ← next use with
    | .keyword "do" => pure ()
    | _ => unexpected (some (.keyword "do"))
    let c ← list fuel .inside
    match ← next .plain with
    | .keyword "done" => return c
    | _ => unexpected (some (.keyword "done"))

def loop : Nat → Bool → Parse Command
  | 0, _ => fail "commands nest too deep"
  | fuel + 1, isUntil => do
    let condition ← list fuel .inside
    return .loop isUntil condition (← body fuel .plain)

def each : Nat → Nat → Parse Command
  | 0, _ => fail "commands nest too deep"
  | fuel + 1, line => do
    let next := fun (use : TokenUse) => token (list fuel .optional) use fuel
    let name ← match ← next .plain with
      | .word w false =>
        match w.bare?.filter isName with
        | some chars => pure (String.ofList chars)
        | none => fail "Bad for loop variable"
      | _ => fail "Bad for loop variable"
    let items ← match ← next .laterCommand with
      | .keyword "in" =>
        let items ← words next fuel
        match (← get).last with
        | .newline | .mark ";" => pure items
        | _ => unexpected none
      | .mark ";" => pure [[.quotes [.parameter "@" .plain]]]
      | _ =>
        putBack
        pure [[.quotes [.parameter "@" .plain]]]
    return .each line name items (← body fuel .laterCommand)

/-- A choice by patterns, behind its first word. -/
def choice : Nat → Nat → Parse Command
  | 0, _ => fail "commands nest too deep"
  | fuel + 1, line => do
    let next := fun (use : TokenUse) => token (list fuel .optional) use fuel
    match ← next .plain with
    | .word subject _ =>
      match ← next .laterCommand with
      | .keyword "in" => return .choose line subject (← arms fuel)
      | _ => unexpected (some (.keyword "in"))
    | _ => unexpected (some (.word [] false))

def arms : Nat → Parse (List (List Word × Command))
  | 0 => fail "commands nest too deep"
  | fuel + 1 => do
    let next := fun (use : TokenUse) => token (list fuel .optional) use fuel
    let atArm : TokenUse := ⟨true, true, false, false⟩
    match ← next atArm with
    | .keyword "esac" => return []
    | t =>
      if t matches .mark "(" then
        let _ ← next .plain
      let ps ← patterns next fuel
      match (← get).last with
      | .mark ")" => pure ()
      | _ => unexpected (some (.mark ")"))
      let c ← list fuel .optional
      match ← next atArm with
      | .keyword "esac" => return [(ps, c)]
      | .mark ";;" => return (ps, c) :: (← arms fuel)
      | _ => unexpected (some (.mark ";;"))

/-- A command of words, assignments and redirections, or the start of a function. -/
def simple : Nat → Nat → Bool → SimpleParts → Parse Command
  | 0, _, _, _ => fail "commands nest too deep"
  | fuel + 1, line, isStart, parts => do
    let next := fun (use : TokenUse) => token (list fuel .optional) use fuel
    let finish : Parse Command := do
      putBack
      return .simple line parts.assignments.reverse parts.words.reverse parts.redirects.reverse
    match ← next { TokenUse.plain with findsAliases := isStart } with
    | .word w _ =>
      if isStart && w.assignment?.isSome then
        simple fuel line isStart { parts with assignments := w :: parts.assignments }
      else simple fuel line false { parts with words := w :: parts.words }
    | .redirect descriptor kind =>
      let r ← redirect next descriptor kind
      simple fuel line isStart { parts with redirects := r :: parts.redirects }
    | .mark "(" =>
      match parts with
      | ⟨[], [w], []⟩ =>
        match ← next .plain with
        | .mark ")" => pure ()
        | _ => unexpected (some (.mark ")"))
        if !isFunctionName w then fail "Bad function name"
        let name := String.ofList w.characters
        let line := (← get).line
        return .define line name (← command fuel .laterCommand)
      | _ => finish
    | _ => finish

end

/-- The commands of the next line, and whether the script ends with them. There are none behind the
    last one. -/
def nextLine : Parse (Option (Command × Bool)) := do
  let s ← get
  let c ← list (100 * (s.rest.length + 100)) .line
  let s ← get
  let isOver := s.isPutBack && s.last matches .endOfFile
  if c matches .nothing && isOver then return none
  -- what ended a line is of no account for the next one
  set { s with isPutBack := false }
  return some (c, isOver)

end Parse

end PluginHost.Shell
