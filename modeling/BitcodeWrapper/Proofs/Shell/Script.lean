import BitcodeWrapper.Shell.Run

/-! A shell that is given a file. It runs the text of the file and nothing else. -/
namespace BitcodeWrapper.Shell

variable {s t : State} {fuel : Nat} {path text : String} {shellArgs : List String}

end BitcodeWrapper.Shell
