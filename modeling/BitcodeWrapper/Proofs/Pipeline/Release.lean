import BitcodeWrapper.Proofs.Pipeline.Progress

/-! What a run leaves in the temporary directory: nothing, or its one workspace if that is to be kept. -/
namespace BitcodeWrapper.Pipeline
open BitcodeWrapper.Action Files Job Workspace

variable {runner : Runner} {c : Config} {invokedAs path : String} {args : Arguments} {h h' : Host}
  {ms : List Moment} {T W : Location}

end BitcodeWrapper.Pipeline
