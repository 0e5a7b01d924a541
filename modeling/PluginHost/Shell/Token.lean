import PluginHost.Shell.Word
/-!
Reading tokens, and the texts in a script that redirections ask for.
-/

namespace PluginHost.Shell

/-- What the reader of a token looks for. -/
structure TokenUse where
  /-- Whether line ends count as blanks. -/
  skipsNewlines : Bool
  /-- Whether words of the language are told from others. -/
  findsKeywords : Bool
  findsAliases : Bool
  /-- Whether the word ends a text in the script. -/
  isDelimiter : Bool

namespace TokenUse

def plain : TokenUse := ⟨false, false, false, false⟩
/-- At the start of a command. -/
def command : TokenUse := ⟨false, true, true, false⟩
/-- At the start of a command that may stand on a later line. -/
def laterCommand : TokenUse := ⟨true, true, true, false⟩
def delimiter : TokenUse := ⟨false, false, false, true⟩

end TokenUse

namespace Parse

/-- The lines up to one that is the given one, and what follows that line. Where quotes do not
    count, a line that a backslash joins to the one before it does not end the text. -/
def documentLines (d : AwaitedDocument) :
    Nat → Bool → List (List Char) → List Char → List (List Char) × List Char
  | 0, _, lines, rest => (lines.reverse, rest)
  | fuel + 1, isJoined, lines, rest =>
    if rest.isEmpty then (lines.reverse, rest)
    else
      let line := rest.takeWhile (· ≠ '\n')
      let after := rest.drop line.length
      let line := if d.isIndented then line.dropWhile (· = '\t') else line
      if line = d.lastLine && !isJoined then (lines.reverse, after.drop 1)
      else
        let backslashes := (line.reverse.takeWhile (· = '\\')).length
        let line := line ++ after.take 1
        documentLines d fuel (!d.isQuoted && backslashes % 2 = 1) (line :: lines) (after.drop 1)

/-- Reads a text of the script. -/
def document (sub : Parse Command) (fuel : Nat) (d : AwaitedDocument) : Parse Unit := do
  let s ← get
  let (lines, rest) := documentLines d (s.rest.length + 1) false [] s.rest
  let text := lines.flatten
  let taken := s.rest.take (s.rest.length - rest.length)
  let body ← if d.isQuoted then pure [.text text true]
    else within text (double sub fuel .document .start)
  modify fun s => { s with
    rest, line := s.line + taken.count '\n', documents := (d.index, body) :: s.documents }

/-- Reads the texts that redirections on the lines so far ask for. -/
def documents (sub : Parse Command) (fuel : Nat) : Parse Unit := do
  let awaited := (← get).awaited
  modify fun s => { s with awaited := [] }
  awaited.forM (document sub fuel)

/-- The rest of a redirection, of whose mark the first character was seen. -/
def redirection (descriptor : Option Nat) : Parse Token := do
  if ← takeIf '>' then
    let descriptor := descriptor.getD 1
    if ← takeIf '>' then return .redirect descriptor (.file .append)
    else if ← takeIf '|' then return .redirect descriptor (.file .overwrite)
    else if ← takeIf '&' then return .redirect descriptor .copy
    else return .redirect descriptor (.file .write)
  else
    skip
    let descriptor := descriptor.getD 0
    if ← takeIf '<' then return .redirect descriptor (.document (← takeIf '-'))
    else if ← takeIf '&' then return .redirect descriptor .copy
    else if ← takeIf '>' then return .redirect descriptor (.file .readWrite)
    else return .redirect descriptor (.file .read)

/-- A word, or a redirection of the descriptor that it names. -/
def wordToken (sub : Parse Command) (fuel : Nat) (use : TokenUse) : Parse Token := do
  let w ← plain sub fuel (.separator use.isDelimiter) .start
  let isRedirected := (← peek?).any fun c => c = '<' || c = '>'
  match w with
  | [] => redirection none
  | [.text [c] false] =>
    if isRedirected && c.isDigit then redirection (some (c.toNat - '0'.toNat))
    else return .word w false
  | w => return .word w w.hasQuotes

/-- The next token as it stands. The fuel bounds the blanks and comments before it. -/
def nextToken (sub : Parse Command) (fuel : Nat) (use : TokenUse) : Nat → Parse Token
  | 0 => return .endOfFile
  | steps + 1 => do
    let twice := fun (c : Char) (one two : String) => do
      skip
      return if ← takeIf c then .mark two else .mark one
    match ← peek? with
    | none => return .endOfFile
    | some ' ' | some '\t' =>
      skip
      nextToken sub fuel use steps
    | some '#' =>
      modify fun s => { s with rest := s.rest.dropWhile (· ≠ '\n') }
      nextToken sub fuel use steps
    | some '\n' =>
      skip
      return .newline
    | some '&' => twice '&' "&" "&&"
    | some '|' => twice '|' "|" "||"
    | some ';' => twice ';' ";" ";;"
    | some '(' =>
      skip
      return .mark "("
    | some ')' =>
      skip
      return .mark ")"
    | some _ => wordToken sub fuel use

/-- Puts the text that stands for a word in its place. -/
def aliased? (w : Word) : Parse Bool := do
  let s ← get
  let inUse := s.inUse.filter fun u => u.2 < s.rest.length
  match w.bare?.bind fun chars => (s.aliases.find? fun a => a.1.toList = chars) with
  | some (name, value) =>
    if inUse.any (·.1 = name) then return false
    else
      let isOpen := value.toList.getLast?.any fun c => c = ' ' || c = '\t'
      set { s with
        rest := value.toList ++ ' ' :: s.rest, inUse := (name, s.rest.length) :: inUse,
        aliasesBehind := if isOpen then some s.rest.length else s.aliasesBehind }
      return true
  | none => return false

/-- The next token, told from others as it is to be used. -/
def token (sub : Parse Command) (use : TokenUse) : Nat → Parse Token
  | 0 => return .endOfFile
  | fuel + 1 => do
    let s ← get
    let t ← if s.isPutBack then pure s.last else nextToken sub fuel use (s.rest.length + 1)
    modify fun s => { s with isPutBack := false, last := t }
    match t with
    | .newline =>
      if use.skipsNewlines then
        documents sub fuel
        token sub use fuel
      else return t
    | .word w false =>
      let t := match w.bare? with
        | some chars =>
          if use.findsKeywords && String.ofList chars ∈ keywords then .keyword (String.ofList chars)
          else t
        | none => t
      modify fun s => { s with last := t }
      match t with
      | .word w false =>
        let left := (← get).rest.length
        let isBehind := (← get).aliasesBehind.any (left < ·)
        if isBehind then modify fun s => { s with aliasesBehind := none }
        if (use.findsAliases || isBehind) && !s.isPutBack then
          if ← aliased? w then token sub use fuel else return t
        else return t
      | t => return t
    | t => return t

def putBack : Parse Unit := modify fun s => { s with isPutBack := true }

end Parse

end PluginHost.Shell
