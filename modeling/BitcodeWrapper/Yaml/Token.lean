import BitcodeWrapper.Text.Loose

/-!
The tokens of a YAML text. Those for the start and the end of a block stand for indentation, and a key
is announced before the scalar that turned out to be one.
-/
namespace BitcodeWrapper.Yaml

inductive Directive where
  | version (major : Nat)
  | handle (name expansion : String)
  | other
  deriving Repr, DecidableEq

/-- A tag as written: a name that stands for itself, or a handle and what follows it. -/
inductive WrittenTag where
  | verbatim (name : String)
  | shorthand (handle suffix : String)
  deriving Repr, DecidableEq

inductive Token where
  | directive (d : Directive)
  | documentStart
  | documentStop
  | streamStop
  | blockSequence
  | blockMapping
  | blockStop
  | flowSequence
  | flowSequenceStop
  | flowMapping
  | flowMappingStop
  | key
  | value
  | blockEntry
  | flowEntry
  | reference (name : String)
  | anchor (name : String)
  | tag (written : WrittenTag)
  | scalar (text : LooseText) (isPlain : Bool)
  deriving Repr, DecidableEq

end BitcodeWrapper.Yaml
