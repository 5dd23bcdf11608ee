import BitcodeWrapper.Host.Process

/-!
Tools asked for their version, to see whether they are what they should be.
-/
namespace BitcodeWrapper.Probe

/-- A tool that a run needs: the word that its version text holds, and what it is called. -/
structure Tool where
  mark : String
  description : String
  deriving Repr, DecidableEq

def compiler : Tool := ⟨"clang", "a clang"⟩

def optimizer : Tool := ⟨"LLVM", "an opt"⟩

def versionSwitch : String := "--version"

def isWithin (mark text : List Char) : Bool :=
  match text with
  | [] => mark.isEmpty
  | c :: rest => mark.isPrefixOf (c :: rest) || isWithin mark rest

/-- Why a tool does not start by a path that no file has. -/
def refusal (path : LooseText) : OsError :=
  let name := path.bytes.reverse.takeWhile (· != 0x2f)
  let isTooLong := Files.longestPath < path.bytes.length || Files.longestName < name.length
  .on (if isTooLong then .nameTooLong else .noSuchFile) path

/-- The path of a tool as the system reads it. No file has a path that is no text, and by such a path no tool
starts. -/
def receivedPath (path : LooseText) : Action String := do
  match path.received? with
  | some path => return path
  | none =>
    let command := Text.bracketed [path.quoted, Text.quoted versionSwitch]
    Action.debug (Log.announcementText ++ command ++ "\nin: " ++ Location.text (← get).here)
    if !path.isPassable then throw .invalidValue
    Action.log .error ("Conjunct Failed to execute: " ++ command)
    Action.refuse (.probeNotStarted path (refusal path))

/-- What a tool prints when it is asked for its version. -/
def ask (runner : Runner) (path : LooseText) : Action Reply := do
  let received ← receivedPath path
  try
    runner [received, versionSwitch] none
  catch
    | .os e => Action.refuse (.probeNotStarted path (e.givenAs path))
    | fault => throw fault

/-- The version text of a tool that starts, succeeds and says what it is. -/
def versionText (runner : Runner) (tool : Tool) (path : LooseText) : Action String := do
  let reply ← ask runner path
  let text := Text.Utf8.decodeLossy reply.output
  if reply.code != 0 then Action.refuse (.probeFailed path text)
  else if !isWithin tool.mark.toList text.toList then Action.refuse (.wrongBinary path tool.description)
  else return text

end BitcodeWrapper.Probe
