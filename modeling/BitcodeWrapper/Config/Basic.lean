import BitcodeWrapper.Bindings
import BitcodeWrapper.Text.Listing
import BitcodeWrapper.Text.Loose

/-!
The settings of a run. As they are read, their texts may be loose; a run has them as its commands are given
them.
-/
namespace BitcodeWrapper

structure Configuration (text : Type) where
  seed : Int
  /-- The compiler driver, or a directory that holds the drivers. -/
  driver : Option text
  optimizer : text
  optimizerArguments : List text
  /-- Added to the environment of the optimizer only. -/
  optimizerEnvironment : Bindings text
  retainsWorkspace : Bool
  isDryRun : Bool
  deriving Repr, DecidableEq

abbrev Config := Configuration String

namespace Configuration

/-- The text of a configuration in log records. -/
def shownBy {text : Type} (quoted : text → String) (c : Configuration text) : String :=
  "ConjunctConfig(" ++ Text.commaSeparated
    ["seed=" ++ toString c.seed,
      "clangPath=" ++ Text.orNone (c.driver.map quoted),
      "optPath=" ++ quoted c.optimizer,
      "optArgs=" ++ Text.tupled (c.optimizerArguments.map quoted),
      "optEnv=" ++ Text.braced (c.optimizerEnvironment.map fun e => (quoted e.1, quoted e.2)),
      "retainTempDir=" ++ Text.yesOrNo c.retainsWorkspace,
      "dryRun=" ++ Text.yesOrNo c.isDryRun] ++ ")"

/-- A configuration with the texts that commands are given. -/
def handed (c : Configuration LooseText) : Config where
  seed := c.seed
  driver := c.driver.map LooseText.handed
  optimizer := c.optimizer.handed
  optimizerArguments := c.optimizerArguments.map LooseText.handed
  optimizerEnvironment := Bindings.ofPairs (c.optimizerEnvironment.map fun e => (e.1.handed, e.2.handed))
  retainsWorkspace := c.retainsWorkspace
  isDryRun := c.isDryRun

end Configuration

def Config.shown (c : Config) : String := c.shownBy Text.quoted

end BitcodeWrapper
