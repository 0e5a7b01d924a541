/-!
Commands of the shell language.
-/

namespace PluginHost.Shell

/-- How a file is opened. -/
inductive Opening where
  | read
  | write
  /-- As `write`, even if files must not be overwritten. -/
  | overwrite
  | append
  | readWrite
deriving DecidableEq, Inhabited

mutual

/-- A part of a word. -/
inductive Part where
  /-- Characters as they stand. Quoted ones match only themselves. -/
  | text (chars : List Char) (isQuoted : Bool)
  /-- What stands between double quotes. -/
  | quotes (inside : List Part)
  | parameter (name : String) (use : Use)
  /-- The output of a command. -/
  | output (body : Command)
  /-- The value of an expression in integers. -/
  | number (expression : List Part)

/-- What is made of the value of a parameter. -/
inductive Use where
  | plain
  | length
  /-- A word in place of a value that is missing, or empty if that counts too. -/
  | orElse (emptyToo : Bool) (word : List Part)
  /-- As `orElse`, and the parameter becomes the word. -/
  | assign (emptyToo : Bool) (word : List Part)
  /-- A word in place of a value that is there. -/
  | alternative (emptyToo : Bool) (word : List Part)
  /-- A value that is missing ends the script with a message. -/
  | require (emptyToo : Bool) (message : List Part)
  /-- The value without the shortest or longest start that matches. -/
  | trimStart (isLongest : Bool) (pattern : List Part)
  | trimEnd (isLongest : Bool) (pattern : List Part)
  /-- No use that the language has. -/
  | unknown

/-- What becomes of a descriptor. -/
inductive Redirect where
  | file (descriptor : Nat) (opening : Opening) (path : List Part)
  /-- It becomes what another one is, or is closed. -/
  | copy (descriptor : Nat) (source : List Part)
  /-- It reads a text that stands in the script. -/
  | document (descriptor : Nat) (index : Nat)

/-- A command; the numbers are the lines on which they begin. -/
inductive Command where
  | nothing
  | simple (line : Nat) (assignments words : List (List Part)) (redirects : List Redirect)
  | redirected (line : Nat) (body : Command) (redirects : List Redirect)
  | background (line : Nat) (body : Command)
  | sequence (commands : List Command)
  | both (first next : Command)
  | either (first next : Command)
  | negated (body : Command)
  | pipeline (stages : List Command)
  | branch (condition yes no : Command)
  | loop (isUntil : Bool) (condition body : Command)
  | each (line : Nat) (name : String) (words : List (List Part)) (body : Command)
  | choose (line : Nat) (subject : List Part) (arms : List (List (List Part) × Command))
  | subshell (line : Nat) (body : Command) (redirects : List Redirect)
  | define (line : Nat) (name : String) (body : Command)

end

abbrev Word := List Part

instance : Inhabited Part := ⟨.text [] false⟩
instance : Inhabited Use := ⟨.plain⟩
instance : Inhabited Redirect := ⟨.document 0 0⟩
instance : Inhabited Command := ⟨.nothing⟩

/-- The texts of a word that are not quoted, if it holds nothing else. -/
def Word.bare? : Word → Option (List Char)
  | [] => some []
  | .text chars false :: rest => (Word.bare? rest).map (chars ++ ·)
  | _ => none

/-- Adds a part in front of a word; texts of one kind are joined. -/
def Word.cons : Part → Word → Word
  | .text a true, .text b true :: rest => .text (a ++ b) true :: rest
  | .text a false, .text b false :: rest => .text (a ++ b) false :: rest
  | part, rest => part :: rest

def isNameStart (c : Char) : Bool := c.isAlpha || c = '_'

def isNameChar (c : Char) : Bool := c.isAlphanum || c = '_'

def isName (s : List Char) : Bool :=
  match s with
  | c :: rest => isNameStart c && rest.all isNameChar
  | [] => false

/-- A word cut at its first equals sign, if a name stands before it. -/
def Word.assignment? : Word → Option (String × Word)
  | .text chars false :: rest =>
    let name := chars.takeWhile isNameChar
    match chars.drop name.length with
    | '=' :: value => if isName name then some (String.ofList name, .text value false :: rest) else none
    | _ => none
  | _ => none

end PluginHost.Shell
