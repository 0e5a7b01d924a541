import PluginHost.Shell.State
import PluginHost.Utility.Awk.Program
import PluginHost.Utility.Bytes
import PluginHost.Utility.Columns
import PluginHost.Utility.Difference
import PluginHost.Utility.Files
import PluginHost.Utility.Find
import PluginHost.Utility.Grep
import PluginHost.Utility.Launching
import PluginHost.Utility.Lines
import PluginHost.Utility.Names
import PluginHost.Utility.Numbers
import PluginHost.Utility.Sed.Edit
import PluginHost.Utility.Sorting
import PluginHost.Utility.Words
/-!
What is installed on a machine: the programs, and the directories that each machine has.

These entries stand on the disk only while a program runs, so that scripts can look at them.
-/

namespace PluginHost

namespace Utility

/-- The utilities by their names. -/
def table : List (String × Program) :=
  [("arch", fun _ => Task.putText "x86_64\n"), ("awk", awk), ("base64", base64),
   ("basename", basename), ("cat", cat), ("chmod", chmod), ("cmp", cmp), ("comm", comm),
   ("cp", cp), ("cut", cut), ("date", date), ("diff", diff), ("dirname", dirname), ("echo", echo),
   ("egrep", grep (some 'E')), ("expand", expand), ("expr", expr),
   ("false", fun _ => Task.setStatus 1), ("fgrep", grep (some 'F')), ("find", find),
   ("fold", fold), ("grep", grep none), ("head", head), ("id", id), ("install", install),
   ("ln", ln), ("ls", ls), ("mawk", awk), ("mkdir", mkdir), ("mktemp", mktemp), ("mv", mv),
   ("nl", nl), ("od", od), ("paste", paste), ("printenv", printenv), ("printf", printf),
   ("pwd", pwd), ("readlink", readlink), ("realpath", realpath), ("rev", rev), ("rm", rm),
   ("rmdir", rmdir), ("sed", sed), ("seq", seq), ("sha256sum", sha256sum), ("sleep", sleep),
   ("sort", sort), ("stat", stat), ("sync", fun _ => return), ("tac", tac), ("tail", tail),
   ("tee", tee), ("touch", touch), ("tr", tr), ("true", fun _ => return), ("tty", tty),
   ("truncate", truncate), ("uname", uname), ("uniq", uniq), ("wc", wc), ("which", which),
   ("whoami", whoami), ("yes", yes)]

def find? (name : String) : Option Program := table.lookup name

end Utility

namespace Shell

/-- The names under which the shell lies. -/
def shellNames : List String := ["sh", "dash", "bash"]

/-- Programs of the machine that start other programs, or that need what belongs to the shell. -/
def launchers : List String := shellNames ++ ["[", "test", "xargs"] ++ Utility.launchings.map (·.1)

/-- The directories in which the programs of the machine lie. -/
def programPlaces : List (List String) := [["bin"], ["usr", "bin"]]

/-- The name of the program of the machine at a place. -/
def programAt? (place : List String) : Option String :=
  match place.getLast? with
  | some name =>
    if programPlaces.contains place.dropLast &&
      (launchers.contains name || (Utility.find? name).isSome) then some name
    else none
  | none => none

namespace Installation

def programNames : List String := launchers ++ Utility.table.map (·.1)

/-- A directory with some entries. -/
def directory (entries : List (String × Entry)) : Entry :=
  .directory (entries.foldl (fun all e => Assoc.insert e.1 e.2 all) [])

def empty (names : List String) : List (String × Entry) := names.map (·, .directory [])

/-- What the programs are made of is of no account; it is no script. -/
def programs : Entry :=
  directory (programNames.map (·, .file (Octets.toBytes ("\x7fELF".toList))))

def file (text : String) : Entry := .file (Octets.toBytes text.toList)

def entries : List (String × Entry) :=
  [("bin", programs),
   ("dev", directory (empty ["fd", "pts", "shm"] ++
      (["full", "null", "random", "tty", "urandom", "zero"].map (·, .file [])))),
   ("etc", directory [("group", file "root:x:0:\n"), ("hostname", file "localhost\n"),
      ("hosts", file "127.0.0.1\tlocalhost\n"), ("passwd", file "root:x:0:0:root:/root:/bin/sh\n")]),
   ("usr", directory (("bin", programs) ::
      ("local", directory (empty ["bin", "lib", "sbin", "share"])) ::
      empty ["include", "lib", "sbin", "share"])),
   ("var", directory (empty ["cache", "lib", "log", "tmp"]))] ++
    empty ["boot", "home", "lib", "media", "mnt", "opt", "proc", "root", "run", "sbin", "srv", "sys",
      "tmp"]

/-- The places of the programs. -/
def runnable : List (List String) :=
  programPlaces.flatMap fun place => programNames.map fun name => place ++ [name]

/-- What the root of a disk lacks. -/
def missing (disk : Disk) : List (String × Entry) :=
  entries.filter fun e => (Assoc.get? disk.root e.1).isNone

/-- A disk with what is installed. -/
def mount (disk : Disk) : Disk :=
  { disk with root := (missing disk).foldl (fun root e => Assoc.insert e.1 e.2 root) disk.root }

/-- The disk that is left of one with what is installed, given the disk from before. -/
def unmount (before disk : Disk) : Disk :=
  let names := (missing before).map (·.1)
  { disk with root := disk.root.filter fun e => !names.contains e.1 }

end Installation

end Shell

end PluginHost
