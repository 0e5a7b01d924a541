import PluginHost.Shell.Evaluate
/-!
A machine with a shell and utilities: what its programs do when they are started from outside.

The host starts compilers and looks at what they leave; it is described for any programs, and what is said of
compilations holds for any toolchain. This machine is one choice of programs, on which compilers that are scripts
can be run. Of its insides, the search for regular expressions has a theory; of the rest it is known what the host
relies on, which is what programs leave on a disk.
-/

namespace PluginHost.Shell

/-- The number of the first process that is started. -/
def firstId : Nat := 1000

/-- The state in which a program starts: nothing to read, and two collectors to write to. -/
def State.initial (environment : List (String × String)) (disk : Disk) : State :=
  let given : List Binding := (environment.map fun e =>
    ⟨Octets.encode e.1, some (Octets.encode e.2), true, false⟩).reverse
  { process :=
      { shellId := firstId, id := firstId, ancestors := [], name := "", arguments := [],
        bindings := given, functions := [], aliases := [], options := [], traps := [],
        descriptors := [(0, 0), (1, 1), (2, 2)], line := 0, builtin := none, loops := 0, frames := [],
        keptOptions := [], isInFunction := false, status := 0, wordStatus := none,
        savedStatus := none, optionPlace := ⟨1, 0⟩, found := [], lastJob := none, mask := 0o22 }
    world :=
      { disk := Installation.mount disk
        channels := #[.source [] false, .collector [] 0, .collector [] 0], signals := [], jobs := [],
        nextId := firstId + 1, documents := #[], runnable := Installation.runnable, depth := 0 } }

/-- Carries out what is left in the background once nobody waits for it. -/
def runRest : Nat → Run Unit
  | 0 => return
  | fuel + 1 => do
    match (← Run.world).jobs.find? fun j => j.status.isNone with
    | some job =>
      let _ ← Builtin.runJob .standard job
      runRest fuel
    | none => return

/-- The path of a program that was named from outside. -/
def programPath? (environment : List (String × String)) (w : World) (name : String) :
    Except IoFault String :=
  if name.toList.contains '/' then .ok name
  else if name.isEmpty then .error .notFound
  else
    let path := (environment.lookup "PATH").getD standardPath
    match w.search (path.toList.splitOnP (· = ':')) name with
    | .found path => .ok path
    | .denied => .error .permissionDenied
    | .missing => .error .notFound

/-- The programs of a machine with a shell and the utilities, in an environment. -/
def programs (environment : List (String × String)) : Programs := fun disk program args =>
  if (program :: args).any fun word => word.toList.contains '\x00' then
    (disk, .error (.other "nul byte found in provided data"))
  else
    let s := State.initial environment disk
    let name := Octets.encode program
    match programPath? environment s.world name with
    | .error fault => (disk, .error fault)
    | .ok path =>
      let run : Run (Except IoFault ExitStatus) := do
        let status ← Interpreter.launch .standard 10 path name (args.map Octets.encode)
        runRest 1000
        return status
      match run s with
      | (r, s) =>
        let left := { Installation.unmount disk s.world.disk with working := disk.working }
        let written := fun (n : Nat) => (s.world.channels[n]?.getD .discard).collected
        match r with
        | .ok (.error fault) => (disk, .error fault)
        | .ok (.ok status) => (left, .ok ⟨status, written 1, written 2⟩)
        | .error (.exit status) => (left, .ok ⟨status, written 1, written 2⟩)
        | .error _ => (left, .ok ⟨.code s.process.status, written 1, written 2⟩)

end PluginHost.Shell
