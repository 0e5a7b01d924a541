import PluginHost.Digest.Sha256
import PluginHost.Text.Numeral
import PluginHost.Utility.Task
/-!
Utilities that show bytes as texts: `od`, `base64`, `sha256sum`.
-/

namespace PluginHost.Utility

/-- A number with zeros on its left. -/
def padZeros (width base n : Nat) : List Char :=
  let s := Nat.toDigits base n
  List.replicate (width - s.length) '0' ++ s

/-- How `od` shows units of some bytes. -/
structure UnitForm where
  bytes : Nat
  width : Nat
  render : List Char → List Char

namespace UnitForm

/-- The value of bytes of which the first counts least. -/
def valueOf (cs : List Char) : Nat := cs.foldr (fun c n => n * 256 + c.toNat) 0

def char : UnitForm :=
  ⟨1, 4, fun cs =>
    let c := cs.head?.getD ' '
    match c with
    | '\x00' => ['\\', '0']
    | '\x07' => ['\\', 'a']
    | '\x08' => ['\\', 'b']
    | '\t' => ['\\', 't']
    | '\n' => ['\\', 'n']
    | '\x0b' => ['\\', 'v']
    | '\x0c' => ['\\', 'f']
    | '\r' => ['\\', 'r']
    | c => if 0x20 ≤ c.toNat && c.toNat < 0x7F then [c] else padZeros 3 8 c.toNat⟩

def numeric (letter : Char) (bytes : Nat) : UnitForm :=
  match letter with
  | 'x' => ⟨bytes, 2 * bytes + 1, fun cs => padZeros (2 * bytes) 16 (valueOf cs)⟩
  | 'u' =>
    let width := (Nat.toDigits 10 (Nat.pow 256 bytes - 1)).length
    ⟨bytes, width + 1, fun cs => Nat.toDigits 10 (valueOf cs)⟩
  | 'd' =>
    let width := (Nat.toDigits 10 (Nat.pow 256 bytes / 2)).length + 1
    ⟨bytes, width + 1, fun cs =>
      let n := valueOf cs
      if Nat.pow 256 bytes ≤ 2 * n then '-' :: Nat.toDigits 10 (Nat.pow 256 bytes - n)
      else Nat.toDigits 10 n⟩
  | _ =>
    let width := (Nat.toDigits 8 (Nat.pow 256 bytes - 1)).length
    ⟨bytes, width + 1, fun cs => padZeros width 8 (valueOf cs)⟩

def ofText? (s : String) : Option UnitForm :=
  match s.toList with
  | ['c'] => some char
  | ['a'] => some char
  | letter :: digits =>
    if letter ∉ ['x', 'u', 'd', 'o'] then none
    else
      match digits with
      | [] => some (numeric letter 4)
      | ['1'] | ['C'] => some (numeric letter 1)
      | ['2'] | ['S'] => some (numeric letter 2)
      | ['4'] | ['I'] => some (numeric letter 4)
      | ['8'] | ['L'] => some (numeric letter 8)
      | _ => none
  | [] => none

/-- Units of a line. The fuel bounds them. -/
def line (f : UnitForm) : Nat → List Char → List Char
  | 0, _ => []
  | _, [] => []
  | fuel + 1, cs =>
    let s := f.render (cs.take f.bytes)
    List.replicate (f.width - s.length) ' ' ++ s ++ line f fuel (cs.drop f.bytes)

end UnitForm

/-- Lines of sixteen bytes with their offsets. Lines like the one before are left out. -/
def dump (forms : List UnitForm) (address : Nat → List Char) : Nat → Nat → Option (List Char) → Bool →
    List Char → List (List Char)
  | 0, _, _, _, _ => []
  | fuel + 1, offset, before, isMarked, s =>
    if s.isEmpty then
      let last := address offset
      if last.isEmpty then [] else [last]
    else
      let cs := s.take 16
      if before = some cs && cs.length = 16 && 16 < s.length then
        (if isMarked then [] else [['*']]) ++
          dump forms address fuel (offset + 16) before true (s.drop 16)
      else
        (forms.zipIdx.map fun (f, n) =>
          (if n = 0 then address offset else List.replicate (address offset).length ' ') ++
            f.line 16 cs) ++
          dump forms address fuel (offset + cs.length) (some cs) false (s.drop 16)

def od : Program := fun c => do
  let options : Options := ⟨"A:t:N:j:cbxodvw::", [("address-radix", 'A'), ("format", 't'),
    ("read-bytes", 'N'), ("skip-bytes", 'j'), ("output-duplicates", 'v')], true, 1⟩
  let p ← options.parse c
  let text ← Task.readOperands c p.operands
  let number := fun (letter : Char) => (p.text? letter).bind fun s => Text.digits? s.toList
  let text := text.drop ((number 'j').getD 0)
  let text := match number 'N' with
    | some n => text.take n
    | none => text
  let forms ← p.found.filterMapM fun (letter, s) => do
    match letter with
    | 'c' => return some UnitForm.char
    | 'b' => return some (UnitForm.numeric 'o' 1)
    | 'x' => return some (UnitForm.numeric 'x' 2)
    | 'o' => return some (UnitForm.numeric 'o' 2)
    | 'd' => return some (UnitForm.numeric 'u' 2)
    | 't' => match UnitForm.ofText? s with
      | some f => return some f
      | none => c.fail ("invalid type string " ++ quoted s) 1
    | _ => return none
  let forms := if forms.isEmpty then [UnitForm.numeric 'o' 2] else forms
  let address := fun (n : Nat) => match p.text? 'A' with
    | some "n" => []
    | some "x" => padZeros 6 16 n
    | some "d" => padZeros 7 10 n
    | _ => padZeros 7 8 n
  Task.putLines (dump forms address (text.length + 2) ((number 'j').getD 0) none false text)

def sixtyFour : Array Char :=
  "ABCDEFGHIJKLMNOPQRSTUVWXYZabcdefghijklmnopqrstuvwxyz0123456789+/".toList.toArray

/-- Three bytes as four characters. -/
def encode64 : List Char → List Char
  | a :: b :: c :: rest => four a b c ++ encode64 rest
  | [a, b] => (four a b (Char.ofNat 0)).take 3 ++ ['=']
  | [a] => (four a (Char.ofNat 0) (Char.ofNat 0)).take 2 ++ ['=', '=']
  | [] => []
where
  four (a b c : Char) : List Char :=
    let n := (a.toNat * 256 + b.toNat) * 256 + c.toNat
    [n / 262144, n / 4096 % 64, n / 64 % 64, n % 64].map fun k => sixtyFour[k]?.getD 'A'

/-- The bytes that characters write. There are none where a character is of another kind. -/
def decode64 : List Nat → List Char
  | a :: b :: c :: d :: rest =>
    let n := ((a * 64 + b) * 64 + c) * 64 + d
    [n / 65536, n / 256 % 256, n % 256].map Char.ofNat ++ decode64 rest
  | [a, b, c] =>
    let n := (a * 64 + b) * 64 + c
    [Char.ofNat (n / 1024), Char.ofNat (n / 4 % 256)]
  | [a, b] => [Char.ofNat ((a * 64 + b) / 16)]
  | _ => []

/-- Cuts a text into lines. The fuel bounds them. -/
def wrapped (width : Nat) : Nat → List Char → List Char
  | 0, _ => []
  | _, [] => []
  | fuel + 1, s => s.take width ++ '\n' :: wrapped width fuel (s.drop width)

def base64 : Program := fun c => do
  let options : Options := ⟨"dDiw:", [("decode", 'd'), ("ignore-garbage", 'i'), ("wrap", 'w')], true, 1⟩
  let p ← options.parse c
  let text ← Task.readOperands c p.operands
  if p.has 'd' then
    let cs := text.filter fun ch => ch ≠ '\n'
    let body := cs.takeWhile (· ≠ '=')
    let codes := body.map fun ch => sixtyFour.toList.idxOf? ch
    Task.put (decode64 (codes.takeWhile Option.isSome |>.filterMap id))
    if codes.contains none then c.fail "invalid input" 1
  else
    let width := ((p.text? 'w').bind fun s => Text.digits? s.toList).getD 76
    let s := encode64 text
    Task.put (if width = 0 then s else wrapped width (s.length + 1) s)

/-- Writes a digest for each file. -/
def sha256sum : Program := fun c => do
  let options : Options := ⟨"bctz", [("binary", 'b'), ("text", 't')], true, 1⟩
  let p ← options.parse c
  (if p.operands.isEmpty then ["-"] else p.operands).forM fun path => do
    match ← Task.readFile path with
    | .ok s =>
      let digest := (Digest.sha256 (Octets.toBytes s)).flatMap fun b => padZeros 2 16 b.toNat
      Task.put (digest ++ [' ', if p.has 'b' then '*' else ' '] ++ path.toList ++ ['\n'])
    | .error fault => c.complain (shown path ++ ": " ++ fault.reason)

end PluginHost.Utility
