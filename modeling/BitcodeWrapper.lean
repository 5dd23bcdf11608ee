import BitcodeWrapper.Main
import BitcodeWrapper.Proofs.Job.Events
import BitcodeWrapper.Proofs.ArgumentVector.Everywhere
import BitcodeWrapper.Proofs.ArgumentVector.Pair
import BitcodeWrapper.Proofs.ArgumentVector.Value
import BitcodeWrapper.Proofs.Command.Forward
import BitcodeWrapper.Proofs.Command.Unconfigured
import BitcodeWrapper.Proofs.Compiler.Aside
import BitcodeWrapper.Proofs.Config.Extract
import BitcodeWrapper.Proofs.Config.Probes
import BitcodeWrapper.Proofs.Config.Verdict
import BitcodeWrapper.Proofs.Host.Agreement
import BitcodeWrapper.Proofs.Host.Direct
import BitcodeWrapper.Proofs.Host.Growth
import BitcodeWrapper.Proofs.Host.Process
import BitcodeWrapper.Proofs.Host.RealPath
import BitcodeWrapper.Proofs.Host.Ways
import BitcodeWrapper.Proofs.Job.Calls
import BitcodeWrapper.Proofs.Job.Chain
import BitcodeWrapper.Proofs.Pipeline.Announcement
import BitcodeWrapper.Proofs.Pipeline.Blame
import BitcodeWrapper.Proofs.Pipeline.Concurrent
import BitcodeWrapper.Proofs.Pipeline.Course
import BitcodeWrapper.Proofs.Pipeline.Derivation
import BitcodeWrapper.Proofs.Pipeline.DryRun
import BitcodeWrapper.Proofs.Pipeline.ExitCode
import BitcodeWrapper.Proofs.Pipeline.Handover
import BitcodeWrapper.Proofs.Pipeline.Modes
import BitcodeWrapper.Proofs.Pipeline.ObjectFile
import BitcodeWrapper.Proofs.Pipeline.PassThrough
import BitcodeWrapper.Proofs.Pipeline.Progress
import BitcodeWrapper.Proofs.Pipeline.Refusal
import BitcodeWrapper.Proofs.Pipeline.Release
import BitcodeWrapper.Proofs.Pipeline.Scope
import BitcodeWrapper.Proofs.Pipeline.Visit
import BitcodeWrapper.Proofs.SourceFile.Found
import BitcodeWrapper.Proofs.StageCommand.Barred
import BitcodeWrapper.Proofs.StageCommand.Build
import BitcodeWrapper.Proofs.StageCommand.Emit
import BitcodeWrapper.Proofs.StageCommand.Removal
import BitcodeWrapper.Proofs.StageCommand.Source
import BitcodeWrapper.Proofs.Workspace.Alike
import BitcodeWrapper.Proofs.Workspace.Contents
import BitcodeWrapper.Proofs.Workspace.Expansion
import BitcodeWrapper.Proofs.Command.EarlyEnd
import BitcodeWrapper.Proofs.Command.BadFile
import BitcodeWrapper.Proofs.Pattern.Reading
import BitcodeWrapper.Proofs.StageCommand.Sanitizers
import BitcodeWrapper.Proofs.Path.Name
import BitcodeWrapper.Proofs.SourceFile.Language
import BitcodeWrapper.Proofs.SourceFile.Precedence
import BitcodeWrapper.Proofs.Host.Absolute
import BitcodeWrapper.Proofs.Pipeline.Shown
import BitcodeWrapper.Proofs.Sanity.Report
import BitcodeWrapper.Proofs.Sanity.Drivers
import BitcodeWrapper.Proofs.Log.Copies
