import BitcodeWrapper.Host.Basic

/-!
Runners: whatever answers a command with a return code and the bytes it printed. A launch is noted
before the runner sees it, and no runner can change the notes.
-/
namespace BitcodeWrapper

structure Reply where
  code : Int
  output : Bytes
  deriving Repr, DecidableEq

abbrev Runner := List String → Option Bindings → Action Reply

namespace Runner

def launch (runner : Runner) (command : List String) (environment : Option Bindings) :
    Action Reply := fun h =>
  let noted := h.launches ++ [⟨command, environment, h.files⟩]
  match runner command environment { h with launches := noted } with
  | .ok reply h => .ok reply { h with launches := noted }
  | .error fault h => .error fault { h with launches := noted }

/-- What a scripted runner does at one launch. -/
inductive Scripted where
  | exits (reply : Reply)
  | refuses (errno : Errno)
  deriving Repr, DecidableEq

/-- The `k`-th launch gets the `k`-th answer; beyond the last one every command succeeds silently. -/
def scripted (script : List Scripted) : Runner := fun command _ => do
  let k := (← get).launches.length
  match script[k - 1]?.getD (.exits ⟨0, []⟩) with
  | .exits reply => return reply
  | .refuses errno => throw (.os (.on errno (command.headD "")))

end Runner

end BitcodeWrapper
