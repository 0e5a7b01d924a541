import PluginHost.Utility.Task
/-!
Utilities that make, copy, move and take away files and directories.
-/

namespace PluginHost.Utility

/-- Makes the directories of a path one after another. What is there may stay. -/
def makePath (c : Call) (isShown : Bool) (path : String) : Task Unit := do
  let pieces := path.toList.splitOnP (· = '/')
  let paths := (List.range pieces.length).filterMap fun n =>
    let s := List.intercalate ['/'] (pieces.take (n + 1))
    if (pieces[n]?.getD []).isEmpty then none else some (String.ofList s)
  let _ ← paths.foldlM (fun isFine (path' : String) => do
    if !isFine then return false
    if ← Task.isDirectory path' then return true
    match (← Task.disk).makeDirectory (Octets.decode path') with
    | .ok disk =>
      Task.setDisk disk
      if isShown then Task.putText (c.name ++ ": created directory " ++ quoted path' ++ "\n")
      return true
    | .error fault =>
      let isLast := paths.getLast? = some path'
      let fault := if fault = .alreadyExists && !isLast then .notADirectory else fault
      c.complain ("cannot create directory " ++ quoted path' ++ ": " ++ fault.reason)
      return false) true

def mkdir : Program := fun c => do
  let options : Options := ⟨"pm:v", [("parents", 'p'), ("mode", 'm'), ("verbose", 'v')], true, 1⟩
  let p ← options.parse c
  if p.operands.isEmpty then c.noOperand
  p.operands.forM fun path => do
    if p.has 'p' && !path.isEmpty then makePath c (p.has 'v') path
    else match (← Task.disk).makeDirectory (Octets.decode path) with
    | .ok disk =>
      Task.setDisk disk
      if p.has 'v' then Task.putText (c.name ++ ": created directory " ++ quoted path ++ "\n")
    | .error fault => c.complain ("cannot create directory " ++ quoted path ++ ": " ++ fault.reason)

/-- Takes an empty directory away. -/
def removeEmpty (c : Call) (isShown isPatient : Bool) (path : String) : Task Bool := do
  let refuse := fun (fault : IoFault) => do
    c.complain ("failed to remove " ++ quoted path ++ ": " ++ fault.reason)
    return false
  match ← Task.place path, ← Task.entry path with
  | .ok place, .ok (.directory entries) =>
    if !entries.isEmpty then
      if isPatient then return false else refuse .directoryNotEmpty
    else
      if isShown then Task.putText (c.name ++ ": removing directory, " ++ quoted path ++ "\n")
      Task.remove place
      return true
  | _, .ok (.file _) => refuse .notADirectory
  | .error fault, _ | _, .error fault => refuse fault

def rmdir : Program := fun c => do
  let options : Options := ⟨"pv", [("parents", 'p'), ("verbose", 'v'),
    ("ignore-fail-on-non-empty", 'I')], true, 1⟩
  let p ← options.parse c
  if p.operands.isEmpty then c.noOperand
  p.operands.forM fun path => do
    let isGone ← removeEmpty c (p.has 'v') (p.has 'I') path
    if isGone && p.has 'p' then
      let pieces := path.toList.splitOnP (· = '/') |>.filter (!·.isEmpty)
      let parents := (List.range (pieces.length - 1)).reverse.map fun n =>
        String.ofList (List.intercalate ['/'] (pieces.take (n + 1)))
      let _ ← parents.foldlM (fun isGone parent =>
        if isGone then removeEmpty c (p.has 'v') (p.has 'I') parent else return false) true

def touch : Program := fun c => do
  let options : Options := ⟨"acmd:r:t:hf", [("no-create", 'c'), ("date", 'd'), ("reference", 'r')],
    true, 1⟩
  let p ← options.parse c
  if p.operands.isEmpty then c.misuse "missing file operand" 1
  p.operands.forM fun path => do
    if !(← Task.contains path) && !p.has 'c' then
      match (← Task.disk).write (Octets.decode path) [] with
      | .ok disk => Task.setDisk disk
      | .error fault =>
        let fault := if fault = .isADirectory then .notFound else fault
        c.complain ("cannot touch " ++ quoted path ++ ": " ++ fault.reason)

/-- The entries below a path with their paths, those in directories before the directories. -/
def inside (path : String) : Entry → List (String × Bool)
  | .file _ => [(path, false)]
  | .directory entries => go entries ++ [(path, true)]
where
  go : List (String × Entry) → List (String × Bool)
    | [] => []
    | (name, e) :: rest => inside (below path (Octets.encode name)) e ++ go rest

def rm : Program := fun c => do
  let options : Options := ⟨"dfiIrRv", [("recursive", 'r'), ("force", 'f'), ("verbose", 'v'),
    ("dir", 'd'), ("one-file-system", 'x'), ("no-preserve-root", 'N'), ("preserve-root", 'P')], true, 1⟩
  let p ← options.parse c
  if p.operands.isEmpty then
    if p.has 'f' then return else c.noOperand
  let isDeep := p.has 'r' || p.has 'R'
  p.operands.forM fun path => do
    if isDeep && (baseName path = "." || baseName path = "..") then
      c.complain ("refusing to remove '.' or '..' directory: skipping " ++ quoted path)
    else
      let refuse := fun (fault : IoFault) =>
        c.complain ("cannot remove " ++ quoted path ++ ": " ++ fault.reason)
      match ← Task.place path, ← Task.entry path with
      | .ok place, .ok e =>
        let isPlain := match e with
          | .file _ => true
          | .directory entries => isDeep || (p.has 'd' && entries.isEmpty)
        if isPlain then
          Task.remove place
          if p.has 'v' then
            (inside path e).forM fun (path, isDirectory) =>
              Task.putText ((if isDirectory then "removed directory " else "removed ") ++
                quoted path ++ "\n")
        else refuse (if p.has 'd' then .directoryNotEmpty else .isADirectory)
      | .error fault, _ | _, .error fault =>
        if !(p.has 'f' && fault ∈ [.notFound, .notADirectory]) then refuse fault

/-- Where the sources of a copy or a move lead to. -/
inductive Destination where
  /-- Into a directory, each under its own name. -/
  | inDirectory (path : String)
  | single (path : String)

namespace Destination

def pathFor (d : Destination) (source : String) : String :=
  match d with
  | inDirectory path => below path (baseName source)
  | single path => path

/-- The sources and the destination that operands name. -/
def ofOperands (c : Call) (p : Parsed) : Task (List String × Destination) := do
  match p.text? 't', p.operands with
  | some directory, [] => let _ := directory; c.misuse "missing file operand" 1
  | some directory, sources =>
    if ← Task.isDirectory directory then return (sources, .inDirectory directory)
    else c.fail ("target directory " ++ quoted directory ++ ": No such file or directory") 1
  | none, [] => c.misuse "missing file operand" 1
  | none, [source] => c.misuse ("missing destination file operand after " ++ quoted source) 1
  | none, operands =>
    let target := operands.getLast?.getD ""
    let isDirectory ← Task.isDirectory target
    if p.has 'T' then
      match operands with
      | [source, _] => return ([source], .single target)
      | _ => c.misuse ("extra operand " ++ quoted (operands[2]?.getD "")) 1
    else if isDirectory then return (operands.dropLast, .inDirectory target)
    else
      match operands with
      | [source, _] => return ([source], .single target)
      | _ =>
        let fault := match ← Task.entry target with
          | .ok _ => IoFault.notADirectory
          | .error fault => fault
        c.fail ("target " ++ quoted target ++ ": " ++ fault.reason) 1

end Destination

/-- Puts the entries of one directory into another one; those with the same name are put in place of
    the old ones. -/
def merged : Entry → Entry → Entry
  | .directory old, .directory new => .directory (go old new)
  | _, new => new
where
  go (old : List (String × Entry)) : List (String × Entry) → List (String × Entry)
    | [] => old
    | (name, e) :: rest =>
      match Assoc.get? old name with
      | some before => go (Assoc.insert name (merged before e) old) rest
      | none => go (Assoc.insert name e old) rest

/-- Writes that one file became another. -/
def showPair (before source target : String) : Task Unit :=
  Task.putText (before ++ quoted source ++ " -> " ++ quoted target ++ "\n")

/-- Writes that an entry and all that is in it became another. -/
def showPairs (source target : String) : Entry → Task Unit
  | .file _ => showPair "" source target
  | .directory entries => do
    showPair "" source target
    go entries
where
  go : List (String × Entry) → Task Unit
    | [] => return
    | (name, e) :: rest => do
      showPairs (below source (Octets.encode name)) (below target (Octets.encode name)) e
      go rest

/-- Copies one file or directory. -/
def copyOne (c : Call) (p : Parsed) (isDeep : Bool) (source target : String) : Task Unit := do
  match ← Task.place source, ← Task.entry source with
  | .ok from', .ok e =>
    match e, isDeep with
    | .directory _, false => c.complain ("-r not specified; omitting directory " ++ quoted source)
    | e, _ =>
      let isTree := e matches .directory _
      match ← Task.place target with
      | .error fault =>
        c.complain ("cannot create " ++ (if isTree then "directory " else "regular file ") ++
          quoted target ++ ": " ++ fault.reason)
      | .ok aim =>
        let runnable ← Task.runnableBelow from'
        let old := Disk.entryAt? (← Task.disk) aim
        if from' = aim then
          c.complain (quoted source ++ " and " ++ quoted target ++ " are the same file")
        else if target = "/dev/null" then return
        else if isTree && from'.isPrefixOf aim then
          if old.isNone then Task.putEntry aim e runnable
          c.complain ("cannot copy a directory, " ++ quoted source ++ ", into itself, " ++
            quoted target)
        else if p.has 'n' && old.isSome && !isTree then return
        else
          match old, e with
          | some (.directory _), .file _ =>
            c.complain ("cannot overwrite directory " ++ quoted target ++ " with non-directory")
          | some (.file _), .directory _ =>
            c.complain ("cannot overwrite non-directory " ++ quoted target ++ " with directory " ++
              quoted source)
          | some old, e =>
            if p.has 'v' then showPairs source target e
            Task.overwrite aim (merged old e)
            if isTree then
              modify fun w => { w with runnable := runnable.map (aim ++ ·) ++ w.runnable }
          | none, e =>
            if Disk.namesDirectory target && !isTree then
              c.complain ("cannot create regular file " ++ quoted target ++ ": Not a directory")
            else
              if p.has 'v' then showPairs source target e
              Task.putEntry aim e runnable
  | .error fault, _ | _, .error fault =>
    c.complain ("cannot stat " ++ quoted source ++ ": " ++ fault.reason)

def cp : Program := fun c => do
  let options : Options := ⟨"abdfHilLnprRst:Tuvx", [("recursive", 'r'), ("force", 'f'),
    ("verbose", 'v'), ("archive", 'a'), ("no-clobber", 'n'), ("target-directory", 't'),
    ("no-target-directory", 'T'), ("update", 'u'), ("preserve", 'p')], true, 1⟩
  let p ← options.parse c
  let (sources, destination) ← Destination.ofOperands c p
  sources.forM fun source =>
    copyOne c p (p.has 'r' || p.has 'R' || p.has 'a') source (destination.pathFor source)

/-- Moves one file or directory. -/
def moveOne (c : Call) (p : Parsed) (source target : String) : Task Unit := do
  match ← Task.place source, ← Task.entry source with
  | .ok from', .ok e =>
    let isTree := e matches .directory _
    let refuse := fun (fault : IoFault) =>
      c.complain ("cannot move " ++ quoted source ++ " to " ++ quoted target ++ ": " ++ fault.reason)
    match ← Task.place target with
    | .error fault => refuse fault
    | .ok aim =>
      let old := Disk.entryAt? (← Task.disk) aim
      let move := fun (_ : Unit) => do
        let runnable ← Task.runnableBelow from'
        Task.remove from'
        Task.putEntry aim e runnable
        if p.has 'v' then showPair "renamed " source target
      if from' = aim then
        c.complain (quoted source ++ " and " ++ quoted target ++ " are the same file")
      else if isTree && from'.isPrefixOf aim then
        c.complain ("cannot move " ++ quoted source ++ " to a subdirectory of itself, " ++
          quoted target)
      else
        match old, e with
        | some (.directory _), .file _ =>
          c.complain ("cannot overwrite directory " ++ quoted target ++ " with non-directory")
        | some (.file _), .directory _ =>
          c.complain ("cannot overwrite non-directory " ++ quoted target ++ " with directory " ++
            quoted source)
        | some (.directory (_ :: _)), .directory _ =>
          c.complain ("cannot overwrite " ++ quoted target ++ ": Directory not empty")
        | old, e =>
          if p.has 'n' && old.isSome then return
          else if Disk.namesDirectory target && e matches .file _ then refuse .notADirectory
          else move ()
  | .error fault, _ | _, .error fault =>
    c.complain ("cannot stat " ++ quoted source ++ ": " ++ fault.reason)

def mv : Program := fun c => do
  let options : Options := ⟨"bfint:Tuv", [("force", 'f'), ("verbose", 'v'), ("no-clobber", 'n'),
    ("target-directory", 't'), ("no-target-directory", 'T'), ("update", 'u')], true, 1⟩
  let p ← options.parse c
  let (sources, destination) ← Destination.ofOperands c p
  sources.forM fun source => moveOne c p source (destination.pathFor source)

/-- Puts a file in another place too. Nothing tells here that both are one file. -/
def ln : Program := fun c => do
  let options : Options := ⟨"fsnrt:Tv", [("force", 'f'), ("symbolic", 's'), ("verbose", 'v'),
    ("target-directory", 't'), ("no-target-directory", 'T')], true, 1⟩
  let p ← options.parse c
  let p := match p.operands with
    | [source] => { p with operands := [source, "."] }
    | _ => p
  let (sources, destination) ← Destination.ofOperands c p
  sources.forM fun source => do
    let target := destination.pathFor source
    let kind := if p.has 's' then "symbolic link " else "hard link "
    if (← Task.contains target) && !p.has 'f' then
      c.complain ("failed to create " ++ kind ++ quoted target ++ ": File exists")
    else
      /- what a link says is read from where the link lies -/
      let source' := if p.has 's' && source.toList.head? ≠ some '/' then
          (if directoryName target = "." then source else below (directoryName target) source)
        else source
      match ← Task.place source', ← Task.entry source', ← Task.place target with
      | .ok from', .ok e, .ok aim =>
        if e matches .directory _ && !p.has 's' then
          c.complain (source ++ ": hard link not allowed for directory")
        else
          let runnable ← Task.runnableBelow from'
          Task.putEntry aim e runnable
      | _, _, .error fault =>
        c.complain ("failed to create " ++ kind ++ quoted target ++ ": " ++ fault.reason)
      | _, .error fault, _ | .error fault, _, _ =>
        if !p.has 's' then c.complain ("failed to access " ++ quoted source ++ ": " ++ fault.reason)

/-- Puts copies of files somewhere, which may be run unless a mode says otherwise; or makes
    directories. -/
def install : Program := fun c => do
  let options : Options := ⟨"bcCdDg:m:o:pst:Tv", [("directory", 'd'), ("mode", 'm'),
    ("target-directory", 't'), ("verbose", 'v')], true, 1⟩
  let p ← options.parse c
  if p.has 'd' then p.operands.forM (makePath c false)
  else
    let target := p.operands.getLast?.getD ""
    if p.has 'D' then makePath c false (directoryName target)
    let (sources, destination) ← Destination.ofOperands c p
    sources.forM fun source => do
      let target := destination.pathFor source
      copyOne c p false source target
      match ← Task.place target with
      | .ok place =>
        let mayRun := ((p.text? 'm').getD "755").toList.any fun d => d ∈ ['x', '1', '3', '5', '7']
        modify fun w => { w with
          runnable := (if mayRun then [place] else []) ++ w.runnable.filter (· ≠ place) }
      | .error _ => return

/-- Whether a file may be run under a mode that is written as a number or as changes. -/
def mayRun? (mode : String) (before : Bool) : Option Bool :=
  let s := mode.toList
  if !s.isEmpty && s.all fun d => '0' ≤ d && d ≤ '7' then
    some ((s.reverse.take 3).any fun d => (d.toNat - '0'.toNat) % 2 = 1)
  else
    (s.splitOnP (· = ',')).foldlM (fun before clause =>
      let who := clause.takeWhile fun w => w ∈ ['u', 'g', 'o', 'a']
      let rest := clause.drop who.length
      let isOperator := fun o => o ∈ ['+', '-', '=']
      if !(rest.head?.any isOperator) ||
          !rest.all (fun c =>
            isOperator c || c ∈ ['r', 'w', 'x', 'X', 's', 't', 'u', 'g', 'o']) then none
      else
        let hasRun := rest.contains 'x' || (rest.contains 'X' && before)
        some (match rest.head? with
          | some '+' => before || hasRun
          | some '-' => before && !(hasRun && (who.isEmpty || who.contains 'a' || who.contains 'u'))
          | _ => if who.isEmpty || who.contains 'a' || who.contains 'u' then hasRun
            else before || hasRun)) before

def chmod : Program := fun c => do
  let options : Options := ⟨"cfRv", [("recursive", 'R'), ("silent", 'f'), ("quiet", 'f'),
    ("verbose", 'v'), ("changes", 'c')], true, 1⟩
  /- a mode may begin with a dash -/
  let isMode := fun (word : String) => match word.toList with
    | '-' :: d :: _ => d ∈ ['r', 'w', 'x', 'X', 's', 't', 'u', 'g', 'o']
    | _ => false
  let p ← options.parse { c with arguments := c.arguments.filter (!isMode ·) }
  let operands := c.arguments.filter isMode ++ p.operands
  match operands with
  | [] => c.noOperand
  | [mode] => c.misuse ("missing operand after " ++ quoted mode) 1
  | mode :: paths =>
    if (mayRun? mode false).isNone then c.misuse ("invalid mode: " ++ quoted mode) 1
    paths.forM fun path => do
      match ← Task.place path, ← Task.entry path with
      | .ok place, .ok e =>
        let places := if p.has 'R' then
            (inside "" e).filterMap fun (q, isDirectory) =>
              if isDirectory then none
              else some (place ++ ((q.toList.splitOnP (· = '/')).filter (!·.isEmpty)).map fun n =>
                Octets.decode (String.ofList n))
          else [place]
        places.forM fun place => do
          let isOn := (mayRun? mode (← Task.isRunnable place)).getD false
          modify fun w => { w with
            runnable := (if isOn then [place] else []) ++ w.runnable.filter (· ≠ place) }
      | .error fault, _ | _, .error fault =>
        if !p.has 'f' then c.say ("cannot access " ++ quoted path ++ ": " ++ fault.reason)
        Task.setStatus 1

/-- Makes a new file or directory with a name of its own. -/
def mktemp : Program := fun c => do
  let options : Options := ⟨"dqtup:", [("directory", 'd'), ("quiet", 'q'), ("tmpdir", 'p')], true, 1⟩
  let p ← options.parse c
  let disk ← Task.disk
  let number := String.ofList (Text.ofNat disk.temporaries)
  let template := p.operands.head?.getD "tmp.XXXXXXXXXX"
  let marks := template.toList.reverse.takeWhile (· = 'X')
  if marks.length < 3 then c.fail ("too few X's in template " ++ quoted template) 1
  let name := String.ofList (template.toList.take (template.length - marks.length)) ++
    String.ofList (List.replicate (marks.length - number.length) '0') ++ number
  let path := if p.operands.isEmpty || p.has 't' then below Disk.temporaryRoot name
    else match p.text? 'p' with
      | some directory => below directory name
      | none => name
  Task.setDisk { disk with temporaries := disk.temporaries + 1 }
  let disk ← Task.disk
  let made := if p.has 'd' then disk.makeDirectory (Octets.decode path)
    else disk.write (Octets.decode path) []
  match made with
  | .ok disk =>
    Task.setDisk disk
    Task.putText (path ++ "\n")
  | .error fault =>
    c.fail ("failed to create " ++ (if p.has 'd' then "directory" else "file") ++ " via template " ++
      quoted (if p.operands.isEmpty then below Disk.temporaryRoot template else template) ++ ": " ++
      fault.reason) 1

def truncate : Program := fun c => do
  let options : Options := ⟨"cor:s:", [("size", 's'), ("no-create", 'c')], true, 1⟩
  let p ← options.parse c
  match (p.text? 's').bind fun s => Text.digits? s.toList with
  | none => c.misuse "you must specify either '--size' or '--reference'" 1
  | some size =>
    p.operands.forM fun path => do
      let old := match ← Task.readFile path with
        | .ok s => s
        | .error _ => []
      let new := old.take size ++ List.replicate (size - old.length) (Char.ofNat 0)
      match ← Task.writeFile path false new with
      | .ok () => return
      | .error fault =>
        c.complain ("cannot open " ++ quoted path ++ " for writing: " ++ fault.reason)

end PluginHost.Utility
