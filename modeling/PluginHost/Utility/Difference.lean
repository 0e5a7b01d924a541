import PluginHost.Text.CharClass
import PluginHost.Utility.Task
/-!
The utility that tells how two files differ, line by line.
-/

namespace PluginHost.Utility

namespace Difference

/-- Lines in a row that are in one file and not in the other: where they begin in both, and how many
    there are. -/
structure Hunk where
  oldStart : Nat
  oldCount : Nat
  newStart : Nat
  newCount : Nat
deriving Inhabited

/-- For all ends of a list the length of the longest common subsequence with ends of another list, from
    what is known of the ends without the first line. -/
def commonRow (same : List Char → List Char → Bool) (line : List Char) :
    List (List Char) → List Nat → List Nat
  | new :: rest, below :: more =>
    let after := commonRow same line rest more
    let diagonal := more.head?.getD 0
    let right := after.head?.getD 0
    (if same line new then diagonal + 1 else max below right) :: after
  | _, _ => [0]

/-- The rows for all ends of the first list, the longest first. -/
def commonRows (same : List Char → List Char → Bool) (new : List (List Char)) :
    List (List Char) → List (List Nat)
  | [] => [List.replicate (new.length + 1) 0]
  | line :: rest =>
    match commonRows same new rest with
    | row :: rows => commonRow same line new row :: row :: rows
    | [] => []

/-- Which lines are common, along the rows: pairs of positions. -/
def matching (same : List Char → List Char → Bool) : Nat → Nat → Nat → List (List Char) →
    List (List Char) → List (List Nat) → List (Nat × Nat)
  | 0, _, _, _, _, _ => []
  | fuel + 1, i, j, a :: as', b :: bs, row :: rows =>
    let here := row.drop 0
    let down := (rows.head?.getD []).head?.getD 0
    let right := (here[1]?).getD 0
    if same a b then
      (i, j) :: matching same fuel (i + 1) (j + 1) as' bs (rows.map (·.drop 1))
    else if right ≤ down then matching same fuel (i + 1) j as' (b :: bs) rows
    else matching same fuel i (j + 1) (a :: as') bs ((row :: rows).map (·.drop 1))
  | _, _, _, _, _, _ => []

/-- What lies between common lines. -/
def hunks (oldEnd newEnd : Nat) : Nat → Nat → List (Nat × Nat) → List Hunk
  | i, j, [] => if i < oldEnd || j < newEnd then [⟨i, oldEnd - i, j, newEnd - j⟩] else []
  | i, j, (a, b) :: rest =>
    (if i < a || j < b then [⟨i, a - i, j, b - j⟩] else []) ++ hunks oldEnd newEnd (a + 1) (b + 1) rest

/-- Lines from one on, in a message. -/
def rangeText (start count : Nat) : String :=
  if count = 0 then toString start
  else if count = 1 then toString (start + 1)
  else toString (start + 1) ++ "," ++ toString (start + count)

/-- How a hunk is shown. -/
def shownHunk (old new : List (List Char)) (oldOpen newOpen : Bool) (h : Hunk) : List Char :=
  let letter := if h.oldCount = 0 then "a" else if h.newCount = 0 then "d" else "c"
  let lines := fun (mark : String) (all : List (List Char)) (isOpen : Bool) (start count : Nat) =>
    ((all.drop start).take count).flatMap (fun l => mark.toList ++ l ++ ['\n']) ++
      (if isOpen && 0 < count && start + count = all.length then
        "\\ No newline at end of file\n".toList else [])
  (rangeText h.oldStart h.oldCount ++ letter ++ rangeText h.newStart h.newCount ++ "\n").toList ++
    lines "< " old oldOpen h.oldStart h.oldCount ++
    (if h.oldCount ≠ 0 && h.newCount ≠ 0 then "---\n".toList else []) ++
    lines "> " new newOpen h.newStart h.newCount

/-- Whether a text has a last line without an end. -/
def isOpen (s : List Char) : Bool := !s.isEmpty && s.getLast? ≠ some '\n'

end Difference

open Difference in
def diff : Program := fun c => do
  let options : Options := ⟨"qsiwbBau", [("brief", 'q'), ("report-identical-files", 's'),
    ("ignore-case", 'i'), ("ignore-all-space", 'w'), ("ignore-space-change", 'b')], true, 2⟩
  let p ← options.parse c
  let misuse := fun (message : String) => show Task Unit from do
    c.say message
    c.say ("Try '" ++ c.name ++ " --help' for more information.")
    Task.exit 2
  match p.operands with
  | [a, b] =>
    let pathIn := fun (path other : String) => show Task String from do
      if (← Task.isDirectory path) && !(← Task.isDirectory other) then
        return below path (baseName other)
      else return path
    let read := fun (path : String) => show Task (List Char) from do
      match ← Task.readFile path with
      | .ok s => return s
      | .error fault => c.fail (path ++ ": " ++ fault.reason) 2
    let s ← read (← pathIn a b)
    let t ← read (← pathIn b a)
    let seen := fun (line : List Char) =>
      let line := if p.has 'w' then line.filter (!Text.isSpace ·) else line
      if p.has 'i' then line.map Char.toLower else line
    /- the last line of one text is another one than the same line with an end -/
    let marked := fun (s : List Char) =>
      let lines := linesOf s
      if isOpen s then lines.dropLast ++ (lines.getLast?.map (· ++ ['\n'])).toList else lines
    let same := fun (a b : List Char) => seen a == seen b
    let old := linesOf s
    let new := linesOf t
    let pairs := matching same (old.length + new.length + 1) 0 0 (marked s) (marked t)
      (commonRows same (marked t) (marked s))
    let found := hunks old.length new.length 0 0 pairs
    if found.isEmpty then
      if p.has 's' then Task.putText ("Files " ++ a ++ " and " ++ b ++ " are identical\n")
    else
      Task.setStatus 1
      if p.has 'q' then Task.putText ("Files " ++ a ++ " and " ++ b ++ " differ\n")
      else Task.put (found.flatMap (shownHunk old new (isOpen s) (isOpen t)))
  | [] => misuse ("missing operand after '" ++ c.name ++ "'")
  | [a] => misuse ("missing operand after " ++ quoted a)
  | _ :: _ :: extra :: _ => misuse ("extra operand " ++ quoted extra)

end PluginHost.Utility
