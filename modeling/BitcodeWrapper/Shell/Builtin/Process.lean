import BitcodeWrapper.Shell.Builtin.Basic
import BitcodeWrapper.Shell.Signal

/-!
Commands about processes and what they are given: signals, traps, limits and ends.
-/
namespace BitcodeWrapper.Shell.Builtin

def killUsage : String :=
  "Usage: kill [-s sigspec | -signum | -sigspec] [pid | job]... or\nkill -l [exitstatus]"

/-- Names signals: all of them, or the one that a status tells of. -/
def listSignals (args : List String) : Sh Nat := do
  match args with
  | [] =>
    Sh.print "0\n"
    for name in Signal.names.drop 1 do Sh.print (name ++ "\n")
    return 0
  | a :: _ =>
    let n ← number a
    match if n = 0 || n = 128 then none else Signal.names[if 128 < n then n - 128 else n]? with
    | some name =>
      Sh.print (name ++ "\n")
      return 0
    | none => Sh.fail ("invalid signal number or exit status: " ++ a)

/-- Sends a signal to processes. There is none but the script's own first one. -/
def sendTo (signal : Nat) (targets : List String) : Sh Nat := do
  targets.foldlM (fun status target => do
    if target.startsWith "%" then Sh.fail ("No such job: " ++ target)
    let isGroup := target.startsWith "-"
    let n ← number (if isGroup then String.ofList (target.toList.drop 1) else target)
    if n = State.processNumber && !isGroup then
      Signal.send signal
      return status
    else
      Sh.complain "No such process\n"
      return 1) 0

/-- The signal that the option of a `kill` names, or that its letters do. -/
def killOptions (args : List String) : Sh (Option Nat × Bool × List String) := do
  match args with
  | a :: rest =>
    if !a.startsWith "-" then return (none, false, args)
    match Signal.number? 1 (String.ofList (a.toList.drop 1)) with
    | some n => return (some n, false, rest)
    | none =>
      let (os, rest) ← options "l" "s" args
      let signal ← os.foldlM (fun signal (c, name) => do
        if c != 's' then return signal
        match Signal.number? 1 name with
        | some n => return some n
        | none => Sh.fail ("invalid signal number or name: " ++ name)) none
      return (signal, os.any fun o => o.1 = 'l', rest)
  | [] => return (none, false, [])

def kill (args : List String) : Sh Nat := do
  if args.isEmpty then Sh.fail killUsage
  let (signal, lists, targets) ← killOptions args
  if lists then
    if signal.isSome then Sh.fail killUsage
    listSignals targets
  else
    if targets.isEmpty then Sh.fail killUsage
    sendTo (signal.getD 15) targets

def showTraps : Sh Nat := do
  let traps := (← get).traps
  for (name, n) in Signal.names.zipIdx do
    match traps.lookup n with
    | some action => Sh.print ("trap -- " ++ quoted action ++ " " ++ name ++ "\n")
    | none => pure ()
  return 0

/-- Says what is to be done about signals. -/
def trap (args : List String) : Sh Nat := do
  let (_, args) ← options "" "" args
  match args with
  | [] => showTraps
  | _ =>
    let (action, names) : Option String × List String := match args with
      | [name] => (none, [name])
      | action :: names => (if action = "-" then none else some action, names)
      | [] => (none, [])
    for name in names do
      match Signal.number? 0 name with
      | none =>
        let _ ← Sh.writeTo 2 ("trap: " ++ name ++ ": bad trap\n")
        return 1
      | some n =>
        modify fun s =>
          { s with traps := (action.map (n, ·)).toList ++ s.traps.filter fun x => x.1 != n }
    return 0

/-- Commands in the background have ended as soon as they were started. -/
def wait (args : List String) : Sh Nat := do
  let finished := (← get).finished
  args.foldlM (fun _ a => do
    let n ← number a
    match finished.lookup n with
    | some ending =>
      Signal.report ending
      return ending.code
    | none => return 127) 0

def octal (width n : Nat) : String :=
  let digits := Nat.toDigits 8 n
  String.ofList (List.replicate (width - digits.length) '0' ++ digits)

def permissionLetters (n : Nat) : String :=
  (if n / 4 % 2 = 1 then "r" else "") ++ (if n / 2 % 2 = 1 then "w" else "") ++
    (if n % 2 = 1 then "x" else "")

/-- The permissions that a text of letters allows, from those allowed so far. -/
def symbolicMode? (allowed : Nat) (text : String) : Option Nat :=
  (text.splitOn ",").foldlM (fun allowed clause =>
    let who := clause.toList.takeWhile fun c => "ugoa".toList.contains c
    let who := if who.isEmpty || who.contains 'a' then ['u', 'g', 'o'] else who
    let rest := clause.toList.dropWhile fun c => "ugoa".toList.contains c
    match rest with
    | operator :: letters =>
      if !letters.all fun c => "rwx".toList.contains c then none
      else
        let bits := (if letters.contains 'r' then 4 else 0) + (if letters.contains 'w' then 2 else 0) +
          (if letters.contains 'x' then 1 else 0)
        let places := (if who.contains 'u' then 64 else 0) + (if who.contains 'g' then 8 else 0) +
          (if who.contains 'o' then 1 else 0)
        let all := places * 7
        match operator with
        | '=' => some ((allowed &&& (511 - all)) ||| (places * bits))
        | '+' => some (allowed ||| (places * bits))
        | '-' => some (allowed &&& (511 - places * bits))
        | _ => none
    | [] => none) allowed

def umask (args : List String) : Sh Nat := do
  let (os, args) ← options "S" "" args
  let mask := (← get).mask
  let setMask (mask : Nat) : Sh Nat := do
    modify fun s => { s with mask }
    return 0
  match args with
  | [] =>
    if os.isEmpty then Sh.print (octal 4 mask ++ "\n")
    else
      let allowed := 511 - mask
      Sh.print ("u=" ++ permissionLetters (allowed / 64) ++ ",g=" ++ permissionLetters (allowed / 8) ++
        ",o=" ++ permissionLetters allowed ++ "\n")
    return 0
  | a :: _ =>
    if a.toList.head?.any Char.isDigit then
      if a.toList.all fun c => '0' ≤ c && c ≤ '7' then
        setMask (a.toList.foldl (fun n c => n * 8 + (c.toNat - 48)) 0 % 512)
      else Sh.fail ("Illegal number: " ++ a)
    else
      match symbolicMode? (511 - mask) a with
      | some allowed => setMask (511 - allowed)
      | none => Sh.fail ("Illegal mode: " ++ a)

def times : Sh Nat := do
  Sh.print "0m0.000000s 0m0.000000s\n0m0.000000s 0m0.000000s\n"
  return 0

def limits (args : List String) : Sh Nat := do
  let (_, args) ← options "HSatfdscmlpnvwr" "" args
  if args.isEmpty then Sh.print "unlimited\n"
  return 0

end BitcodeWrapper.Shell.Builtin
