import BitcodeWrapper.Yaml.Form
import BitcodeWrapper.Yaml.Layout

/-!
The nodes of a document: scalars, sequences and mappings with their tags. A node is named by its place
among all, so that an alias can stand for a collection that it is inside of.
-/
namespace BitcodeWrapper.Yaml

inductive Content where
  | scalar (text : LooseText)
  | sequence (items : List Nat)
  | mapping (entries : List (Nat × Nat))
  deriving Repr, DecidableEq

structure Node where
  tag : Tag
  content : Content
  deriving Repr, DecidableEq

/-- The node of an empty scalar. -/
def Node.empty : Node := ⟨.null, .scalar ""⟩

structure Graph where
  nodes : Array Node
  root : Nat

namespace Node

structure Reading where
  tokens : List Token
  /-- Why there are no further tokens. -/
  ending : Error
  nodes : Array Node
  anchors : List (String × Nat)
  handles : List (String × String)
  /-- How many more collections may be opened inside of one another. -/
  room : Nat

abbrev Read := EStateM Error Reading

/-- The handles that need no directive. -/
def standardHandles : List (String × String) := [("!", "!"), ("!!", Tag.standardDomain)]

def refuse {α : Type} : Read α := throw .illFormed

def peek : Read Token := do
  let r ← get
  match r.tokens with
  | t :: _ => return t
  | [] => throw r.ending

def drop : Read Unit := modify fun r => { r with tokens := r.tokens.drop 1 }

def take : Read Token := do
  let t ← peek
  drop
  return t

/-- Takes the next token if it is this one. -/
def accept (t : Token) : Read Bool := do
  if (← peek) = t then
    drop
    return true
  return false

def expect (t : Token) : Read Unit := do
  if !(← accept t) then refuse

def isNext (ts : List Token) : Read Bool := return ts.contains (← peek)

def anchor? : Read (Option String) := do
  match ← peek with
  | .anchor name => drop; return some name
  | _ => return none

def tag? : Read (Option WrittenTag) := do
  match ← peek with
  | .tag written => drop; return some written
  | _ => return none

/-- An anchor and a tag, in either order. -/
def properties : Read (Option String × Option WrittenTag) := do
  match ← anchor? with
  | some name => return (some name, ← tag?)
  | none =>
    match ← tag? with
    | some written => return (← anchor?, some written)
    | none => return (none, none)

def tagName : WrittenTag → Read String
  | .verbatim name => return name
  | .shorthand handle suffix => do
    match (← get).handles.lookup handle with
    | some expansion => return expansion ++ suffix
    | none => refuse

def add (node : Node) : Read Nat := do
  let place := (← get).nodes.size
  modify fun r => { r with nodes := r.nodes.push node }
  return place

/-- Adds a node, which may have an anchor. -/
def addAnchored (anchor : Option String) (node : Node) : Read Nat := do
  let place ← add node
  match anchor with
  | some name => modify fun r => { r with anchors := (name, place) :: r.anchors }
  | none => pure ()
  return place

/-- How deep collections may be nested. Each takes two of the thousand calls that may be open at a time, and
some are taken by those who ask for the document. -/
def nestingLimit : Nat := 490

/-- Reads what is inside of a collection. -/
def within {α : Type} (content : Read α) : Read α := do
  let room := (← get).room
  if room = 0 then throw .tooDeep
  modify fun r => { r with room := room - 1 }
  let content ← content
  modify fun r => { r with room := room }
  return content

/-- Reads a collection. It has its place before its content is read. -/
def addCollection (anchor : Option String) (tag : Tag) (content : Read Content) : Read Nat := do
  let place ← addAnchored anchor ⟨tag, .sequence []⟩
  let content ← within content
  modify fun r => { r with nodes := r.nodes.setIfInBounds place ⟨tag, content⟩ }
  return place

/-- The tag of a collection. -/
def collectionTag (name : Option String) (standard : Tag) : Tag :=
  match name with
  | none => standard
  | some name => if name = Tag.unspecific then standard else .ofName name

/-- A scalar with a lone surrogate has the form of a text. -/
def formTag (text : LooseText) : Tag := (text.plain?.map Tag.ofForm).getD .text

def scalarTag (name : Option String) (isPlain : Bool) (text : LooseText) : Tag :=
  match name with
  | none => if isPlain then formTag text else .text
  | some name => if name = Tag.unspecific then formTag text else .ofName name

/-- Where a node stands decides which collections it can be. -/
inductive Place where
  | block
  | blockOrEntries
  | flow
  deriving Repr, DecidableEq

def referenced (name : String) : Read Nat := do
  drop
  match (← get).anchors.lookup name with
  | some place => return place
  | none => refuse

mutual

/-- Reads a node with its properties. -/
def read : (fuel : Nat) → Place → Read Nat
  | 0, _ => refuse
  | fuel + 1, place => do
    match ← peek with
    | .reference name => referenced name
    | _ =>
      let (anchor, written) ← properties
      let name ← written.mapM tagName
      let next ← peek
      if anchor.any ((← get).anchors.lookup · |>.isSome) then refuse
      let sequence (items : Read (List Nat)) : Read Nat :=
        addCollection anchor (collectionTag name .sequence) do return .sequence (← items)
      let mapping (entries : Read (List (Nat × Nat))) : Read Nat :=
        addCollection anchor (collectionTag name .mapping) do return .mapping (← entries)
      match next, place with
      | .blockEntry, .blockOrEntries => sequence (entriesInline fuel)
      | .scalar text isPlain, _ =>
        drop
        addAnchored anchor ⟨scalarTag name isPlain text, .scalar text⟩
      | .flowSequence, _ => drop; sequence (flowItems fuel true)
      | .flowMapping, _ => drop; mapping (flowEntries fuel true)
      | .blockSequence, .block | .blockSequence, .blockOrEntries =>
        drop; sequence (blockItems fuel)
      | .blockMapping, .block | .blockMapping, .blockOrEntries =>
        drop; mapping (blockEntries fuel)
      | _, _ =>
        if anchor.isNone && written.isNone then refuse
        let plain := name.isNone || name = some Tag.unspecific
        addAnchored anchor ⟨scalarTag name plain "", .scalar ""⟩

/-- Reads a node, or nothing before one of the tokens that can follow it. -/
def readBefore (followers : List Token) : (fuel : Nat) → Place → Read Nat
  | 0, _ => refuse
  | fuel + 1, place => do
    if ← isNext followers then return ← add empty
    read fuel place

def blockItems : (fuel : Nat) → Read (List Nat)
  | 0 => refuse
  | fuel + 1 => do
    if ← accept .blockEntry then
      let item ← readBefore [.blockEntry, .blockStop] fuel .block
      return item :: (← blockItems fuel)
    expect .blockStop
    return []

/-- The items of a sequence that is not indented deeper than the mapping around it. -/
def entriesInline : (fuel : Nat) → Read (List Nat)
  | 0 => refuse
  | fuel + 1 => do
    if ← accept .blockEntry then
      let item ← readBefore [.blockEntry, .key, .value, .blockStop] fuel .block
      return item :: (← entriesInline fuel)
    return []

def blockEntries : (fuel : Nat) → Read (List (Nat × Nat))
  | 0 => refuse
  | fuel + 1 => do
    if ← accept .key then
      let key ← readBefore [.key, .value, .blockStop] fuel .blockOrEntries
      let value ←
        if ← accept .value then readBefore [.key, .value, .blockStop] fuel .blockOrEntries
        else add empty
      return (key, value) :: (← blockEntries fuel)
    expect .blockStop
    return []

def flowItems : (fuel : Nat) → (isFirst : Bool) → Read (List Nat)
  | 0, _ => refuse
  | fuel + 1, isFirst => do
    if ← accept .flowSequenceStop then return []
    if !isFirst then expect .flowEntry
    if ← accept .key then
      let entry ← within do
        let key ← readBefore [.value, .flowEntry, .flowSequenceStop] fuel .flow
        let value ←
          if ← accept .value then readBefore [.flowEntry, .flowSequenceStop] fuel .flow
          else add empty
        return (key, value)
      let item ← add ⟨.mapping, .mapping [entry]⟩
      return item :: (← flowItems fuel false)
    if ← accept .flowSequenceStop then return []
    let item ← read fuel .flow
    return item :: (← flowItems fuel false)

def flowEntries : (fuel : Nat) → (isFirst : Bool) → Read (List (Nat × Nat))
  | 0, _ => refuse
  | fuel + 1, isFirst => do
    if ← accept .flowMappingStop then return []
    if !isFirst then expect .flowEntry
    if ← accept .key then
      let key ← readBefore [.value, .flowEntry, .flowMappingStop] fuel .flow
      let value ←
        if ← accept .value then readBefore [.flowEntry, .flowMappingStop] fuel .flow
        else add empty
      return (key, value) :: (← flowEntries fuel false)
    if ← accept .flowMappingStop then return []
    let key ← read fuel .flow
    return (key, ← add empty) :: (← flowEntries fuel false)

end

/-- Reads the directives before a document. At most one may name a version, of which only the first
will do, and no handle may be given twice. -/
def directives : (fuel : Nat) → (hasVersion : Bool) → (own : List (String × String)) →
    Read (List (String × String))
  | 0, _, own => return own
  | fuel + 1, hasVersion, own => do
    match ← peek with
    | .directive d =>
      drop
      match d with
      | .version major =>
        if hasVersion || major != 1 then refuse
        directives fuel true own
      | .handle name expansion =>
        if (own.lookup name).isSome then refuse
        directives fuel hasVersion ((name, expansion) :: own)
      | .other => directives fuel hasVersion own
    | _ => return own

def startsExplicitly : Token → Bool
  | .directive _ | .documentStart => true
  | _ => false

/-- Skips the marks at the end of a document. -/
def skipStops : (fuel : Nat) → Read Unit
  | 0 => pure ()
  | fuel + 1 => do if ← accept .documentStop then skipStops fuel

def endsDocument : Token → Bool
  | .directive _ | .documentStart | .documentStop | .streamStop => true
  | _ => false

/-- Reads the root of the one document that a stream holds, if it holds any. -/
def document : Read (Option Nat) := do
  let fuel := 4 * ((← get).tokens.length + 2)
  let first ← peek
  if first = .streamStop then return none
  let root ←
    if startsExplicitly first then
      let own ← directives fuel false []
      modify fun r => { r with handles := own ++ standardHandles }
      expect .documentStart
      if endsDocument (← peek) then add empty else read fuel .block
    else read fuel .block
  skipStops fuel
  expect .streamStop
  return some root

/-- The nodes of a text. A text without content has none. -/
def ofText (text : List Char) : Except Error (Option Graph) :=
  let (tokens, error) := Yaml.tokens text
  match document.run ⟨tokens, error.getD .illFormed, #[], [], standardHandles, nestingLimit⟩ with
  | .ok root r => .ok (root.map (⟨r.nodes, ·⟩))
  | .error e _ => .error e

end Node

end BitcodeWrapper.Yaml
