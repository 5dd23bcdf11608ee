import BitcodeWrapper.Proofs.Job.Calls

/-! What a run tells on standard error: the notice of a workspace that is kept, besides the lines of the
log and whatever the runner writes. -/
namespace BitcodeWrapper.Job
open BitcodeWrapper.Action

/-- The path of a workspace that was made. -/
def Event.made? : Event → Option String
  | ⟨.makeWorkspace, .ok path⟩ => some path
  | _ => none

def made (es : List Event) : List String := es.filterMap Event.made?

end BitcodeWrapper.Job
