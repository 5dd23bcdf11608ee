import BitcodeWrapper.Pattern.Parser

/-!
Tags, and the forms of plain scalars by which one without a tag gets its own.
-/
namespace BitcodeWrapper.Yaml

inductive Tag where
  | null
  | bool
  | int
  | float
  | binary
  | timestamp
  | omap
  | pairs
  | set
  | text
  | sequence
  | mapping
  | merge
  | value
  /-- A tag that no value belongs to. -/
  | unknown
  deriving Repr, DecidableEq

namespace Tag

def standardDomain : String := "tag:yaml.org,2002:"

/-- The tag that leaves it to the form. -/
def unspecific : String := "!"

def named : List (String × Tag) :=
  [("null", null), ("bool", bool), ("int", int), ("float", float), ("binary", binary),
    ("timestamp", timestamp), ("omap", omap), ("pairs", pairs), ("set", set), ("str", text),
    ("seq", sequence), ("map", mapping), ("merge", merge), ("value", value)]

def ofName (name : String) : Tag :=
  ((named.find? fun e => standardDomain ++ e.1 = name).map (·.2)).getD unknown

def alternatives (patterns : List String) : Pattern :=
  (Pattern.ofString? (String.intercalate "|" (patterns.map fun p => "(" ++ p ++ ")"))).getD .empty

/-- The forms, in the order that they are tried in. -/
def forms : List (Tag × Pattern) :=
  [(bool, alternatives ["yes|Yes|YES|no|No|NO", "true|True|TRUE|false|False|FALSE",
      "on|On|ON|off|Off|OFF"]),
    (float, alternatives ["[-+]?[0-9][0-9_]*\\.[0-9_]*([eE][-+][0-9]+)?",
      "\\.[0-9][0-9_]*([eE][-+][0-9]+)?", "[-+]?[0-9][0-9_]*(:[0-5]?[0-9])+\\.[0-9_]*",
      "[-+]?\\.(inf|Inf|INF)", "\\.(nan|NaN|NAN)"]),
    (int, alternatives ["[-+]?0b[0-1_]+", "[-+]?0[0-7_]+", "[-+]?(0|[1-9][0-9_]*)",
      "[-+]?0x[0-9a-fA-F_]+", "[-+]?[1-9][0-9_]*(:[0-5]?[0-9])+"]),
    (merge, alternatives ["<<"]),
    (null, alternatives ["~|null|Null|NULL", ""]),
    (timestamp, alternatives ["[0-9][0-9][0-9][0-9]-[0-9][0-9]-[0-9][0-9]",
      "[0-9][0-9][0-9][0-9]-[0-9][0-9]?-[0-9][0-9]?([Tt]|[ \t]+)[0-9][0-9]?:[0-9][0-9]:[0-9][0-9]" ++
      "(\\.[0-9]*)?([ \t]*(Z|[-+][0-9][0-9]?(:[0-9][0-9])?))?"]),
    (value, alternatives ["="]),
    (unknown, alternatives ["[!&*]"])]

/-- A text without the newline that may follow a form. -/
def withoutNewline (text : String) : List Char :=
  match text.toList.reverse with
  | '\n' :: c :: cs => (c :: cs).reverse
  | _ => text.toList

/-- Every other scalar is text. -/
def ofForm (text : String) : Tag :=
  ((forms.find? fun e => e.2.matchesAll (String.ofList (withoutNewline text))).map (·.1)).getD Tag.text

end Tag

end BitcodeWrapper.Yaml
