import BitcodeWrapper.Proofs.Config.Accept
import BitcodeWrapper.Proofs.Host.Process

/-! What is taken for granted of a file and its tools: all that the settings hold can be written, no path
holds a NUL, and a tool that is asked for its version answers unless the operating system refuses it. -/
namespace BitcodeWrapper.Config
open BitcodeWrapper.Action Yaml

variable {α β : Type} {runner : Runner} {s : Settings} {name : String} {h h₁ : Host}

namespace Settings

end Settings

/-- What a runner does when it is asked for a version: unless the path holds a NUL, there is an answer or
the operating system has refused it. The environment stays. -/
structure Queries (runner : Runner) (environment : Bindings) : Prop where
  refused : ∀ path h fault, Files.hasNul path = false → h.environment = environment →
    (outcome (runner [path, Probe.versionSwitch] none) h).1 = .error fault → ∃ e, fault = .os e
  environment : ∀ path h, h.environment = environment →
    (outcome (runner [path, Probe.versionSwitch] none) h).2.environment = environment

/-- The environment stays the same while the driver is looked at. -/
theorem DriverAccepted.environment_eq {driver : Option LooseText}
    (hdriver : DriverAccepted runner s h driver h₁) (hruns : Queries runner h.environment) :
    h₁.environment = h.environment := by
  cases hdriver with
  | nothing => rfl
  | directory => exact Host.environment_accept h _
  | tool named isFile answers =>
    obtain ⟨received, output, -, hanswer, -⟩ := answers
    have hkeeps := hruns.environment received h rfl
    rwa [hanswer] at hkeeps

end BitcodeWrapper.Config
