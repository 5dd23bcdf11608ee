import BitcodeWrapper.Compiler
import BitcodeWrapper.Probe

/-!
Single findings of the sanity check: whether the platform is supported, whether a program can be run,
and the line of a version text that a report shows.
-/
namespace BitcodeWrapper.Sanity

def supportedPlatforms : List String := ["freebsd", "linux", "darwin"]

/-- A platform's name may carry more than the name of its family. -/
def isSupported (platform : String) : Bool :=
  supportedPlatforms.any (·.isPrefixOf platform)

def lineBreaks : List Char → List (List Char)
  | [] => [[]]
  | '\n' :: cs => [] :: lineBreaks cs
  | c :: cs =>
    match lineBreaks cs with
    | [] => [[c]]
    | line :: lines => (c :: line) :: lines

/-- Line `n` of a version text without the blanks around it, or the last line if there are not so
many. A negative number counts from the end. -/
def versionLine (text : String) (n : Int) : String :=
  let lines := lineBreaks text.toList
  let k := if n < 0 then lines.length - n.natAbs else n.toNat
  Text.strip (String.ofList (lines.getD k (lines.getLastD [])))

/-- What came of running a program: what it printed, or why it could not be run. -/
inductive Finding where
  | runs (printed : String)
  | missing
  | refused (errno : Errno)
  deriving Repr, DecidableEq

namespace Finding

def isUsable : Finding → Bool
  | runs _ => true
  | _ => false

def text (path : String) : Finding → String
  | runs printed => printed
  | missing => path ++ " not found"
  | refused errno => path ++ " not sure why, errno is " ++ toString errno.number

end Finding

/-- Runs a program with one switch. Its return code does not count, but what it prints has to be text
on both streams. -/
def tryExecutable (path switch : String) : Action Finding := do
  let finished : Except OsError Shell.Finished ←
    try
      pure (.ok (← Action.spawn [path, switch] none))
    catch
      | .os e => pure (.error e)
      | fault => throw fault
  match finished with
  | .error e => return if e.errno = .noSuchFile then .missing else .refused e.errno
  | .ok finished =>
    match Text.Utf8.decode? (finished.on .output), Text.Utf8.decode? (finished.on .diagnostics) with
    | some printed, some complaints => return .runs (printed ++ complaints)
    | _, _ => throw .notText

/-- The drivers for C and C++ that run without a configuration. -/
def defaultCompilers (directory : Option String) : String × String :=
  match directory.filter (· != "") with
  | some d => (Path.join d "clang", Path.join d "clang++")
  | none => ("clang", "clang++")

end BitcodeWrapper.Sanity
