import BitcodeWrapper.Path.Extension
import BitcodeWrapper.Text.Capital
import BitcodeWrapper.Text.Listing

/-!
Log records, the threshold they are held against and the two forms they are written in.
-/
namespace BitcodeWrapper.Log

inductive Level where
  | debug
  | info
  | warning
  | error
  | critical
  deriving Repr, DecidableEq

namespace Level

def rank : Level → Nat
  | debug => 10
  | info => 20
  | warning => 30
  | error => 40
  | critical => 50

def name : Level → String
  | debug => "DEBUG"
  | info => "INFO"
  | warning => "WARNING"
  | error => "ERROR"
  | critical => "CRITICAL"

/-- The levels that a user may ask for. -/
def offered : List Level := [error, warning, info, debug]

def all : List Level := [debug, info, warning, error, critical]

def ofName? (s : String) : Option Level := all.find? (·.name = s)

def offered? (s : String) : Option Level := offered.find? (·.name = s)

end Level

/-- The place in a program that a record comes from. -/
structure Origin where
  path : String
  line : Nat
  function : String
  deriving Repr, DecidableEq

namespace Origin

def file (o : Origin) : String := Path.base o.path

def unit (o : Origin) : String := Path.stem o.path

end Origin

structure Record where
  logger : String
  level : Level
  origin : Origin
  message : String
  deriving Repr, DecidableEq

/-- The logger of this package; those below it have its name and a dot before their own. -/
def package : String := "conjunct"

def Record.isOurs (r : Record) : Bool :=
  r.logger == package || (package ++ ".").isPrefixOf r.logger

/-- Each command is announced before it runs. -/
def announcementText : String := "Conjunct Executing:\n"

def Record.isAnnouncement (r : Record) : Bool :=
  r.level == .debug && announcementText.isPrefixOf r.message

def Record.isKept (r : Record) : Bool := r.isOurs && !r.isAnnouncement

inductive Form where
  | bare
  | brief
  | detailed
  deriving Repr, DecidableEq

def Form.write (r : Record) : Form → String
  | bare => r.message ++ "\n"
  | brief => r.level.name ++ ":" ++ r.message ++ "\n"
  | detailed =>
    r.level.name ++ "::" ++ r.origin.unit ++ "." ++ r.origin.function ++ "() at " ++
      r.origin.file ++ ":" ++ toString r.origin.line ++ " ::" ++ r.message ++ "\n"

/-- The details are shown only if everything is. -/
def formFor (threshold : Level) : Form :=
  if threshold = .debug then .detailed else .brief

/-- Records of other loggers are held against a threshold of their own. -/
def passes (threshold : Level) (r : Record) : Bool :=
  (if r.isOurs then threshold else .warning).rank ≤ r.level.rank

def levelVariable : String := "CONJUNCT_OUTPUT_LEVEL"

def destinationVariable : String := "CONJUNCT_LOG_FILE"

/-- The threshold that a request leads to: the level named, unless all is to be shown. An unknown name
is an error; the capital form of the name counts. -/
def threshold (isVerbose : Bool) (requested : Option String) : Except String Level :=
  match requested.getD "" with
  | "" => .ok (if isVerbose then .debug else .warning)
  | name =>
    match Level.offered? (Text.capitals name) with
    | some level => .ok (if isVerbose then .debug else level)
    | none => .error (Text.capitals name)

def unknownLevelMessage (name : String) : String :=
  "\"" ++ name ++ "\" is not a valid value for " ++ levelVariable ++ ". Valid values are " ++
    Text.quotedList (Level.offered.map Level.name)

end BitcodeWrapper.Log
