import PluginHost.Utility.Awk.Runtime
/-!
What expressions come to, and what statements do.
-/

namespace PluginHost.Utility.Awk

/-- The remainder of a division, with the sign of the dividend. -/
def remainderOf (x y : Float) : Float :=
  let a := Binary64.ofFloat x
  let b := Binary64.ofFloat y
  if a.isNaN || b.isNaN || !a.isFinite || b.significand = 0 then 0 / 0
  else if !b.isFinite then x
  else
    let scale := min a.scale b.scale
    let m := a.significand <<< (a.scale - scale).toNat
    let n := b.significand <<< (b.scale - scale).toNat
    (Binary64.ofRatio a.isNegative ((m % n) <<< scale.toNat) (1 <<< (-scale).toNat)).toFloat

def Operator.apply (o : Operator) (x y : Float) : Float :=
  match o with
  | .add => x + y
  | .subtract => x - y
  | .multiply => x * y
  | .divide => x / y
  | .remainder => remainderOf x y
  | .power => x.pow y

def Comparison.holds (c : Comparison) (o : Ordering) : Bool :=
  match c with
  | .less => o == .lt
  | .atMost => o != .gt
  | .equal => o == .eq
  | .different => o != .eq
  | .greater => o == .gt
  | .atLeast => o != .lt

/-- What is put in place of a match: an ampersand stands for the match itself. -/
def replacementOf (matched : List Char) : List Char → List Char
  | '\\' :: '&' :: rest => '&' :: replacementOf matched rest
  | '\\' :: '\\' :: '&' :: rest => '\\' :: (matched ++ replacementOf matched rest)
  | '&' :: rest => matched ++ replacementOf matched rest
  | c :: rest => c :: replacementOf matched rest
  | [] => []

/-- A text with matches replaced, from a position on: its parts, the newest first, and how many were
    replaced. The fuel bounds the positions. -/
def substituteFrom (r : Regex) (new : List Char) (isGlobal : Bool) (s : Subject) :
    Nat → Nat → Option Nat → List (List Char) → Nat → List (List Char) × Nat
  | 0, _, _, done, count => (done, count)
  | fuel + 1, start, before, done, count =>
    let between := fun a b => (s.chars.extract a b).toList
    if s.chars.size < start then (done, count)
    else
      match r.search? s start with
      | none => (between start s.chars.size :: done, count)
      | some m =>
        let done := between start m.start :: done
        let isEmpty := m.start == m.stop
        let isNew := !(isEmpty && before = some m.start)
        let done := if isNew then replacementOf (between m.start m.stop) new :: done else done
        let count := if isNew then count + 1 else count
        if !isGlobal && isNew then (between m.stop s.chars.size :: done, count)
        else if isEmpty then
          substituteFrom r new isGlobal s fuel (m.stop + 1) (some m.stop)
            (between m.stop (m.stop + 1) :: done) count
        else substituteFrom r new isGlobal s fuel m.stop (some m.stop) done count

/-- A part of a text, which begins at a position counted from one. -/
def substring (s : List Char) (start : Float) (length : Option Float) : List Char :=
  let round := fun (x : Float) => truncated (x + (if x < 0 then -0.5 else 0.5))
  let first := round start
  let stop := match length with
    | none => (s.length : Int) + 1
    | some n => if isWhole n || Binary64.isFinite (.ofFloat n) then first + round n
        else if 0 < n then (s.length : Int) + 1 else first
  let first := max 1 first
  (s.take (stop - 1).toNat).drop (first - 1).toNat

/-- Where a text stands within another one, counted from one. -/
def indexOf (part : List Char) : Nat → List Char → Nat
  | n, s =>
    match s with
    | [] => if part.isEmpty then n else 0
    | _ :: rest => if part.isPrefixOf s then n else indexOf part (n + 1) rest

namespace Machine

/-- How deep calls of functions may be nested. -/
def mostCalls : Nat := 4000

/-- A number that looks as if it were drawn by chance. -/
def draw : Machine Float := do
  let seed := ((← get).seed * 1103515245 + 12345) % 0x80000000
  modify fun r => { r with seed }
  return ofInt seed / ofInt 0x80000000

mutual

/-- What an expression comes to. The fuel bounds how often parts are evaluated within others; the same
    holds below. -/
def eval : Nat → Expr → Machine Value
  | 0, _ => fault "expression too complex"
  | fuel + 1, e => do
    let number := fun (e : Expr) => return (← eval fuel e).toNumber
    match e with
    | .number x => return .number x
    | .text s => return .text s
    | .regex r => return .ofBool (r.isIn (subject (← get).record))
    | .name n => value n
    | .element name es =>
      let key ← keyOf fuel es
      element (← tableOf name) key
    | .field e => do
      let index ← fieldIndex (← eval fuel e)
      field index
    | .assign none target e =>
      let v ← eval fuel e
      store fuel target v
      return v
    | .assign (some o) target e =>
      let y ← number e
      let x ← number target
      let v := Value.number (o.apply x y)
      store fuel target v
      return v
    | .choose c a b => if (← eval fuel c).isTrue then eval fuel a else eval fuel b
    | .both a b =>
      if (← eval fuel a).isTrue then return .ofBool (← eval fuel b).isTrue else return .ofBool false
    | .either a b =>
      if (← eval fuel a).isTrue then return .ofBool true else return .ofBool (← eval fuel b).isTrue
    | .isIn es name =>
      let key ← keyOf fuel es
      return .ofBool (← hasElement (← tableOf name) key)
    | .isMatch isNegated a b =>
      let s ← textOf (← eval fuel a)
      let r ← regexFor fuel b
      return .ofBool (r.isIn (subject s) != isNegated)
    | .compare c a b =>
      let x ← eval fuel a
      let y ← eval fuel b
      return .ofBool (c.holds (x.order (← convert) y))
    | .concat a b =>
      let s ← textOf (← eval fuel a)
      let t ← textOf (← eval fuel b)
      return .text (s ++ t)
    | .calculate o a b =>
      let x ← number a
      let y ← number b
      return .number (o.apply x y)
    | .negate e => return .number (-(← number e))
    | .plus e => return .number (← number e)
    | .invert e => return .ofBool !(← eval fuel e).isTrue
    | .step isBefore isUp target =>
      let x ← number target
      let y := if isUp then x + 1 else x - 1
      store fuel target (.number y)
      return .number (if isBefore then y else x)
    | .call f es => call fuel f es
    | .builtin f es => builtin fuel f es
    | .readMain target =>
      match ← nextRecord mostFields with
      | none => return .number 0
      | some s =>
        keepRead fuel target s
        return .number 1
    | .readFile target path =>
      let path ← textOf (← eval fuel path)
      readInto fuel target (← nextFrom false path)
    | .readCommand command target =>
      let command ← textOf (← eval fuel command)
      let r ← nextFrom true command
      match r with
      | .ok (some _) => setGlobal "NR" (.number ((← global "NR").toNumber + 1))
      | _ => pure ()
      readInto fuel target r
    | .group [e] => eval fuel e
    | .group es => return .text (← joined fuel es)

/-- Keeps what was read in a target, or as the record. -/
def keepRead : Nat → Option Expr → String → Machine Unit
  | 0, _, _ => return
  | _, none, s => setRecord s
  | fuel + 1, some target, s => store fuel target (.ofInput s)

def readInto : Nat → Option Expr → Except Unit (Option String) → Machine Value
  | 0, _, _ => return .unset
  | fuel + 1, target, r => do
    match r with
    | .error () => return .number (-1)
    | .ok none => return .number 0
    | .ok (some s) =>
      keepRead fuel target s
      return .number 1

/-- The texts of expressions, with the separator of subscripts between them. -/
def joined : Nat → List Expr → Machine String
  | 0, _ => return ""
  | _, [] => return ""
  | fuel + 1, [e] => do textOf (← eval fuel e)
  | fuel + 1, e :: es => do
    let s ← textOf (← eval fuel e)
    return s ++ (← setting "SUBSEP") ++ (← joined fuel es)

def keyOf : Nat → List Expr → Machine Key
  | 0, _ => return .text ""
  | fuel + 1, [e] => do return (← eval fuel e).key (← convert)
  | fuel + 1, es => do return .text (← joined fuel es)

/-- Puts a value into what an expression names. -/
def store : Nat → Expr → Value → Machine Unit
  | 0, _, _ => return
  | fuel + 1, target, v => do
    match target with
    | .name n => setValue n v
    | .element name es =>
      let key ← keyOf fuel es
      let index ← tableOf name
      modifyTable index (·.insert key v)
    | .field e =>
      let index ← fieldIndex (← eval fuel e)
      setField index v
    | .group [e] => store fuel e v
    | _ => return

/-- The expression that is searched for. -/
def regexFor : Nat → Expr → Machine Regex
  | 0, _ => return .empty
  | _, .regex r => return r
  | fuel + 1, e => do regexOf (← textOf (← eval fuel e))

def evalAll : Nat → List Expr → Machine (List Value)
  | 0, _ => return []
  | _, [] => return []
  | fuel + 1, e :: es => do
    let v ← eval fuel e
    return v :: (← evalAll fuel es)

/-- What arguments stand for in a function. Names may stand for tables. -/
def argumentsOf : Nat → List Expr → Machine (List Local)
  | 0, _ => return []
  | _, [] => return []
  | fuel + 1, e :: es => do
    let l ← match e with
      | .name n => argumentOf n
      | e => Local.value <$> eval fuel e
    return l :: (← argumentsOf fuel es)

def call : Nat → String → List Expr → Machine Value
  | 0, _, _ => fault "expression too complex"
  | fuel + 1, name, es => do
    match (← get).functions.find? fun f => f.name = name with
    | none => fault ("function " ++ name ++ " never defined")
    | some f =>
      let given ← argumentsOf fuel es
      let r ← get
      if mostCalls < r.depth then fault "function call nesting too deep"
      let frame := f.parameters.zipIdx.map fun (p, n) => (p, given[n]?.getD (.value .unset))
      modify fun r => { r with frame, depth := r.depth + 1 }
      let v ← tryCatch (do
          exec fuel f.body
          return Value.unset) fun j => match j with
        | .give v => return v
        | j => throw j
      modify fun s => { s with frame := r.frame, depth := r.depth }
      return v

/-- What a function that is always there gives. -/
def builtin : Nat → String → List Expr → Machine Value
  | 0, _, _ => fault "expression too complex"
  | fuel + 1, f, es => do
    let numbers := fun (k : Float → Float) => do
      let vs ← evalAll fuel es
      return Value.number (k ((vs.head?.getD Value.unset).toNumber))
    let text := fun (k : String → Machine Value) => do
      let vs ← evalAll fuel es
      k (← textOf (vs.head?.getD Value.unset))
    match f, es with
    | "length", [] => return .ofNat (← get).record.length
    | "length", [.name n] =>
      let r ← get
      match r.frame.lookup n, r.globals.lookup n, r.tableNames.lookup n with
      | some (.table index), _, _ | none, none, some index =>
        return .ofNat ((r.tables[index]?).elim 0 (·.size))
      | _, _, _ => return .ofNat (← textOf (← value n)).length
    | "length", _ => text fun s => return .ofNat s.length
    | "substr", _ =>
      let vs ← evalAll fuel es
      let s ← textOf (vs.head?.getD Value.unset)
      return .text (String.ofList (substring s.toList ((vs[1]?).getD Value.unset).toNumber
        ((vs[2]?).map (·.toNumber))))
    | "index", _ =>
      let vs ← evalAll fuel es
      let s ← textOf (vs.head?.getD Value.unset)
      let t ← textOf ((vs[1]?).getD Value.unset)
      return .ofNat (indexOf t.toList 1 s.toList)
    | "split", e :: .name array :: rest =>
      let s ← textOf (← eval fuel e)
      let ps ← match rest with
        | .regex r :: _ => parts "" (some r) false s
        | e :: _ => do parts (← textOf (← eval fuel e)) none false s
        | [] => do parts (← setting "FS") none (← setting "RS").isEmpty s
      let index ← tableOf array
      modifyTable index fun _ => (ps.zipIdx 1).foldl (fun t (p, n) =>
        t.insert (.number n) (.ofInput p)) .empty
      return .ofNat ps.length
    | "sub", r :: new :: rest => substitute fuel false r new (rest.head?.getD (.field (.number 0)))
    | "gsub", r :: new :: rest => substitute fuel true r new (rest.head?.getD (.field (.number 0)))
    | "match", e :: r :: _ =>
      let s ← textOf (← eval fuel e)
      let r ← regexFor fuel r
      let (start, length) := match r.search? (subject s) 0 with
        | some m => (((m.start + 1 : Nat) : Int), ((m.stop - m.start : Nat) : Int))
        | none => (0, -1)
      setGlobal "RSTART" (.number (ofInt start))
      setGlobal "RLENGTH" (.number (ofInt length))
      return .number (ofInt start)
    | "sprintf", _ => do
      let s ← formatAll fuel "sprintf" es
      return .text s
    | "sin", _ => numbers Float.sin
    | "cos", _ => numbers Float.cos
    | "atan2", _ =>
      let vs ← evalAll fuel es
      let number := fun (n : Nat) => ((vs[n]?).getD Value.unset).toNumber
      return .number (Float.atan2 (number 0) (number 1))
    | "exp", _ => numbers Float.exp
    | "log", _ => numbers Float.log
    | "sqrt", _ => numbers Float.sqrt
    | "int", _ => numbers fun x => if x < 0 then x.ceil else x.floor
    | "rand", _ => return .number (← draw)
    | "srand", _ =>
      let vs ← evalAll fuel es
      let before := (← get).seed
      modify fun r => { r with seed := (truncated ((vs.head?.getD Value.unset).toNumber)).natAbs }
      return .ofNat before
    | "tolower", _ => text fun s => return .text s.toLower
    | "toupper", _ => text fun s => return .text s.toUpper
    | "system", _ => text fun s => do
      let (status, _) ← Task.runCommand "sh" s [] false
      return .ofNat status
    | "close", _ => text fun s => do
      return .number (ofInt (← close s))
    | "fflush", _ => return .number 0
    | _, _ => fault ("wrong number of arguments in call to " ++ f)

/-- Replaces matches in a target, and gives how many. -/
def substitute : Nat → Bool → Expr → Expr → Expr → Machine Value
  | 0, _, _, _, _ => return .unset
  | fuel + 1, isGlobal, r, new, target => do
    let r ← regexFor fuel r
    let new ← textOf (← eval fuel new)
    let s ← textOf (← eval fuel target)
    let (done, count) := substituteFrom r new.toList isGlobal (subject s) (s.length + 2) 0 none [] 0
    if 0 < count then store fuel target (.text (String.ofList done.reverse.flatten))
    return .ofNat count

/-- The text that a format and its arguments make. -/
def formatAll : Nat → String → List Expr → Machine String
  | 0, _, _ => return ""
  | fuel + 1, name, es => do
    let vs ← evalAll fuel es
    match vs with
    | [] => fault "no arguments to printf"
    | format :: vs =>
      let format ← textOf format
      match formatted (← convert) format vs with
      | .ok s => return s
      | .error message =>
        fault (message ++ (if message.startsWith "not" then " to " else " in ") ++ name ++ "(\"" ++
          format ++ "\")")

/-- The place that a sink leads to. -/
def sinkOf : Nat → Option (Sink × Expr) → Machine (Option (Sink × String))
  | 0, _ => return none
  | _, none => return none
  | fuel + 1, some (kind, e) => do return some (kind, ← textOf (← eval fuel e))

def exec : Nat → Statement → Machine Unit
  | 0, _ => return
  | fuel + 1, s => do
    match s with
    | .expr e =>
      let _ ← eval fuel e
    | .print es sink =>
      let format ← setting "OFMT"
      let text ← match es with
        | [] => pure (← get).record
        | es => do
          let vs ← evalAll fuel es
          pure ((← setting "OFS").intercalate (vs.map (·.toText format)))
      let ending ← setting "ORS"
      send (text ++ ending) (← sinkOf fuel sink)
    | .printf es sink =>
      let es := match es with
        | [.group es] => es
        | es => es
      let text ← formatAll fuel "printf" es
      send text (← sinkOf fuel sink)
    | .choose c a b =>
      if (← eval fuel c).isTrue then exec fuel a
      else match b with
        | some b => exec fuel b
        | none => return
    | .while c body => loop fuel (some c) body none
    | .doWhile body c => if ← turn fuel body then loop fuel (some c) body none
    | .for start c step body =>
      match start with
      | some s => exec fuel s
      | none => pure ()
      loop fuel c body step
    | .forIn name array body =>
      let index ← tableOf array
      let (t, keys) := ((← get).tables[index]?.getD .empty).keys
      modifyTable index fun _ => t
      each fuel name body keys
    | .block ss => execAll fuel ss
    | .next => throw .next
    | .exit e =>
      match e with
      | some e =>
        let n := truncated (← eval fuel e).toNumber
        modify fun r => { r with status := (n % 256).toNat }
      | none => pure ()
      throw .exit
    | .give none => throw (.give .unset)
    | .give (some e) =>
      let v ← eval fuel e
      throw (.give v)
    | .break => throw .break
    | .continue => throw .continue
    | .delete name none =>
      let index ← tableOf name
      modifyTable index fun _ => .empty
    | .delete name (some es) =>
      let key ← keyOf fuel es
      let index ← tableOf name
      modifyTable index (·.erase key)

def execAll : Nat → List Statement → Machine Unit
  | 0, _ => return
  | _, [] => return
  | fuel + 1, s :: ss => do
    exec fuel s
    execAll fuel ss

/-- One turn of a loop. It is told whether the loop may go on. -/
def turn : Nat → Statement → Machine Bool
  | 0, _ => return false
  | fuel + 1, body => tryCatch (do
      exec fuel body
      return true) fun j => match j with
    | .break => return false
    | .continue => return true
    | j => throw j

def loop : Nat → Option Expr → Statement → Option Statement → Machine Unit
  | 0, _, _, _ => return
  | fuel + 1, c, body, step => do
    let goesOn ← match c with
      | some c => do pure (← eval fuel c).isTrue
      | none => pure true
    if goesOn then
      if ← turn fuel body then
        match step with
        | some s => exec fuel s
        | none => pure ()
        loop fuel c body step

def each : Nat → String → Statement → List String → Machine Unit
  | 0, _, _, _ => return
  | _, _, _, [] => return
  | fuel + 1, name, body, key :: keys => do
    setValue name (.text key)
    if ← turn fuel body then each fuel name body keys

end

/-- How often parts of a program are carried out within others. -/
def mostSteps : Nat := 0x1000000

/-- Whether the record is one that a rule is for. -/
def isChosen (index : Nat) (p : Pattern) : Machine Bool := do
  match p with
  | .begin | .end => return false
  | .always => return true
  | .when e => return (← eval mostSteps e).isTrue
  | .range first last =>
    let isActive := (← get).active.contains index
    let begins ← if isActive then pure true else do pure (← eval mostSteps first).isTrue
    if !begins then return false
    let isLast := (← eval mostSteps last).isTrue
    modify fun r => { r with
      active := if isLast then r.active.filter (· ≠ index) else index :: r.active.filter (· ≠ index) }
    return true

/-- Applies the rules to the record. -/
def applyRules (rules : List (Rule × Nat)) : Machine Unit :=
  rules.forM fun (rule, index) => do
    if ← isChosen index rule.pattern then
      match rule.body with
      | some body => exec mostSteps body
      | none => exec mostSteps (.print [] none)

/-- Applies the rules to all records. The fuel bounds their number. -/
def records (rules : List (Rule × Nat)) : Nat → Machine Unit
  | 0 => return
  | fuel + 1 => do
    match ← nextRecord mostFields with
    | none => return
    | some s =>
      setRecord s
      tryCatch (applyRules rules) fun j => match j with
        | .next => return
        | j => throw j
      records rules fuel

/-- Carries a program out. -/
def main (script : Script) : Machine Unit := do
  let actions := fun (isWanted : Pattern → Bool) =>
    (script.rules.filter fun r => isWanted r.pattern).filterMap (·.body)
  let starts := actions fun p => p matches .begin
  let ends := actions fun p => p matches .end
  let rules := (script.rules.zipIdx).filter fun r => !(r.1.pattern matches .begin | .end)
  let untilExit := fun (m : Machine Unit) => tryCatch (do
      m
      return false) fun j => match j with
    | .exit => return true
    | j => throw j
  let _ ← untilExit do
    starts.forM (exec mostSteps)
    if !rules.isEmpty || !ends.isEmpty then records rules mostSteps
  let _ ← untilExit (ends.forM (exec mostSteps))

end Machine

end PluginHost.Utility.Awk
