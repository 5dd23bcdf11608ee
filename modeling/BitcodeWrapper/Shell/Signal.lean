import BitcodeWrapper.Shell.State

/-!
Signals: their names, what is said about a command that one of them ended, and how they reach a script.
-/
namespace BitcodeWrapper.Shell.Signal

/-- The names by number. Number zero is the end of a script. -/
def names : List String :=
  ["EXIT", "HUP", "INT", "QUIT", "ILL", "TRAP", "ABRT", "BUS", "FPE", "KILL", "USR1", "SEGV", "USR2",
    "PIPE", "ALRM", "TERM", "16", "CHLD", "CONT", "STOP", "TSTP", "TTIN", "TTOU", "URG", "XCPU", "XFSZ",
    "VTALRM", "PROF", "WINCH", "IO", "PWR", "SYS", "32", "33", "RTMIN"] ++
  ((List.range 15).map fun n => "RTMIN+" ++ toString (n + 1)) ++
  ((List.range 14).map fun n => "RTMAX-" ++ toString (14 - n)) ++ ["RTMAX"]

def descriptions : List String :=
  ["", "Hangup", "Interrupt", "Quit", "Illegal instruction", "Trace/breakpoint trap", "Aborted",
    "Bus error", "Floating point exception", "Killed", "User defined signal 1", "Segmentation fault",
    "User defined signal 2", "Broken pipe", "Alarm clock", "Terminated", "Stack fault", "Child exited",
    "Continued", "Stopped (signal)", "Stopped", "Stopped (tty input)", "Stopped (tty output)",
    "Urgent I/O condition", "CPU time limit exceeded", "File size limit exceeded",
    "Virtual timer expired", "Profiling timer expired", "Window changed", "I/O possible",
    "Power failure", "Bad system call", "Unknown signal 32", "Unknown signal 33"]

/-- What is said when a signal has ended a command. An interruption and a broken pipe go without saying. -/
def remark? (n : Nat) : Option String :=
  if n = 2 || n = 13 then none
  else some (descriptions.getD n ("Real-time signal " ++ toString (n - descriptions.length)))

/-- Signals that do nothing to a process that has not asked for them. -/
def isHarmless (n : Nat) : Bool := [0, 17, 18, 23, 28].contains n

/-- The signal that a number or a name means, names from a least one on. -/
def number? (least : Nat) (s : String) : Option Nat :=
  if s != "" && s.toList.all Char.isDigit then (s.toNat?).filter (· < names.length)
  else (names.findIdx? fun name => name == s.map Char.toUpper).filter (least ≤ ·)

/-- Takes note of how a process ended, and says it if that was by a signal. -/
def report (e : Ending) : Sh Unit := do
  match e with
  | .signal n =>
    match remark? n with
    | some text =>
      let _ ← Sh.writeTo 2 (text ++ "\n")
    | none => pure ()
  | .status _ => pure ()

/-- Lets a signal reach this process. -/
def receive (n : Nat) : Sh Unit := do
  let s ← get
  match if n = 9 then none else s.traps.lookup n with
  | some "" => pure ()
  | some _ => set { s with signals := if s.signals.contains n then s.signals else n :: s.signals }
  | none => if !isHarmless n then throw (.killed n)

/-- Sends a signal to the first process of the script. -/
def send (n : Nat) : Sh Unit := do
  if (← get).isFirst then receive n
  else modify fun s => { s with world := { s.world with sent := n :: s.world.sent } }

/-- Lets the first process get what others have sent to it. -/
def collect : Sh Unit := do
  let s ← get
  if s.isFirst then
    set { s with world := { s.world with sent := [] } }
    s.world.sent.reverse.forM receive

end BitcodeWrapper.Shell.Signal
