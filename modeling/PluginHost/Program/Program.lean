import PluginHost.Disk.Disk
import PluginHost.Text.Numeral
/-!
Programs that the host starts, and how they end. What they do in between is not the host's affair: it is a
function that whatever starts programs is given.
-/

namespace PluginHost

namespace Signal

/-! Signals: their numbers, names and descriptions. -/

/-- The signals that have names: number, name without the common start, and description. -/
def known : List (Nat × String × String) :=
  [(1, "HUP", "Hangup"), (2, "INT", "Interrupt"), (3, "QUIT", "Quit"),
   (4, "ILL", "Illegal instruction"), (5, "TRAP", "Trace/breakpoint trap"), (6, "ABRT", "Aborted"),
   (7, "BUS", "Bus error"), (8, "FPE", "Floating point exception"), (9, "KILL", "Killed"),
   (10, "USR1", "User defined signal 1"), (11, "SEGV", "Segmentation fault"),
   (12, "USR2", "User defined signal 2"), (13, "PIPE", "Broken pipe"), (14, "ALRM", "Alarm clock"),
   (15, "TERM", "Terminated"), (16, "STKFLT", "Stack fault"), (17, "CHLD", "Child exited"),
   (18, "CONT", "Continued"), (19, "STOP", "Stopped (signal)"), (20, "TSTP", "Stopped"),
   (21, "TTIN", "Stopped (tty input)"), (22, "TTOU", "Stopped (tty output)"),
   (23, "URG", "Urgent I/O condition"), (24, "XCPU", "CPU time limit exceeded"),
   (25, "XFSZ", "File size limit exceeded"), (26, "VTALRM", "Virtual timer expired"),
   (27, "PROF", "Profiling timer expired"), (28, "WINCH", "Window changed"),
   (29, "IO", "I/O possible"), (30, "PWR", "Power failure"), (31, "SYS", "Bad system call")]

/-- The highest number of a signal. -/
def last : Nat := 64

def name? (n : Nat) : Option String := (known.lookup n).map (·.1)

/-- Whether a signal does nothing unless something else is asked for. -/
def isHarmless (n : Nat) : Bool := n ∈ [17, 18, 23, 28]

/-- Signals that stop a program until it gets another one. -/
def stopping : List Nat := [19, 20, 21, 22]

/-- What is said of a program that a signal ended. -/
def description (n : Nat) : String :=
  match known.lookup n with
  | some (_, text) => text
  | none =>
    if 34 ≤ n && n ≤ last then "Real-time signal " ++ String.ofList (Text.ofNat (n - 34))
    else "Unknown signal " ++ String.ofList (Text.ofNat n)

end Signal

inductive ExitStatus where
  | code (n : Nat)
  /-- A signal ended the program. -/
  | signal (n : Nat)
deriving DecidableEq, Inhabited

namespace ExitStatus

def isSuccess (s : ExitStatus) : Bool := s = code 0

def display : ExitStatus → String
  | code n => "exit status: " ++ String.ofList (Text.ofNat n)
  | signal n =>
    "signal: " ++ String.ofList (Text.ofNat n) ++
      ((Signal.name? n).map fun name => " (SIG" ++ name ++ ")").getD ""

/-- The number that stands for a status where only numbers do. -/
def number : ExitStatus → Nat
  | code n => n
  | signal n => 128 + n

end ExitStatus

/-- What a program that has ended leaves. -/
structure ProgramResult where
  status : ExitStatus
  output : List UInt8
  errors : List UInt8
deriving Inhabited

/-- The programs of a machine: what a call by name does to the disk. It fails if there is no program
    to start. -/
abbrev Programs := Disk → String → List String → Disk × Except IoFault ProgramResult

end PluginHost
