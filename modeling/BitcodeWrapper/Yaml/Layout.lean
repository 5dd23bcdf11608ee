import BitcodeWrapper.Yaml.Property
import BitcodeWrapper.Yaml.Scalar

/-!
From text to tokens. Indentation opens and closes blocks, and a token that may turn out to be a key is
held back, with all that follow it, until a colon comes or can no longer come.
-/
namespace BitcodeWrapper.Yaml

/-- A token that is a key if a colon follows in time. -/
structure PossibleKey where
  /-- How many flows it is nested in. -/
  depth : Int
  /-- How many tokens come before it. -/
  position : Nat
  /-- Nothing but a key can stand here. -/
  isRequired : Bool
  start : Cursor

namespace PossibleKey

/-- The longest key. -/
def limit : Nat := 1024

/-- A key ends on the line that it starts on. -/
def isStale (here : Cursor) (k : PossibleKey) : Bool :=
  k.start.line != here.line || here.index - k.start.index > limit

end PossibleKey

structure Layout where
  cursor : Cursor
  /-- The tokens let go, the last one first. -/
  released : List Token
  releasedCount : Nat
  held : List Token
  depth : Int
  indent : Int
  outerIndents : List Int
  allowsKey : Bool
  possibleKeys : List PossibleKey
  isDone : Bool

namespace Layout

abbrev Step := EStateM Error Layout

def require (condition : Bool) : Step Unit :=
  if condition then pure () else throw .illFormed

def scanning {α : Type} (scan : Scan α) : Step α := fun l =>
  match scan.run l.cursor with
  | .ok a cursor => .ok a { l with cursor := cursor }
  | .error e cursor => .error e { l with cursor := cursor }

def emit (t : Token) : Step Unit := modify fun l => { l with held := l.held ++ [t] }

def allowKey (b : Bool) : Step Unit := modify fun l => { l with allowsKey := b }

def inFlow (l : Layout) : Bool := l.depth != 0

def dropStaleKeys : Step Unit := do
  let l ← get
  require (!l.possibleKeys.any fun k => k.isStale l.cursor && k.isRequired)
  modify fun l => { l with
    possibleKeys := l.possibleKeys.filter fun k => !k.isStale l.cursor }

def forgetKey : Step Unit := do
  let l ← get
  require (!l.possibleKeys.any fun k => k.depth = l.depth && k.isRequired)
  modify fun l => { l with possibleKeys := l.possibleKeys.filter (·.depth != l.depth) }

def noteKey : Step Unit := do
  if (← get).allowsKey then
    forgetKey
    modify fun l =>
      let key : PossibleKey := ⟨l.depth, l.releasedCount + l.held.length,
        !l.inFlow && l.indent = l.cursor.column, l.cursor⟩
      { l with possibleKeys := key :: l.possibleKeys }

/-- Closes the blocks that are indented deeper than `column`. -/
def closeBlocks (column : Int) : (outer : List Int) → Step Unit
  | [] => pure ()
  | indent :: outer => do
    if column < (← get).indent then
      emit .blockStop
      modify fun l => { l with indent := indent, outerIndents := outer }
      closeBlocks column outer

def unwind (column : Int) : Step Unit := do
  let l ← get
  if !l.inFlow then closeBlocks column l.outerIndents

/-- Opens a block at a column if it is indented deeper than the one around it. -/
def deepen (column : Nat) : Step Bool := do
  let l ← get
  if l.indent < column then
    set { l with indent := column, outerIndents := l.indent :: l.outerIndents }
    return true
  return false

/-- Goes to the next token, past blanks and comments. Outside of flows a new line may start with a
key. -/
def toNextToken : (fuel : Nat) → Step Unit
  | 0 => pure ()
  | fuel + 1 => do
    scanning do
      Scan.skipWhile (· = ' ')
      if (← Scan.peek) = some '#' then Scan.skipWhile (!isBreak ·)
    if !(← scanning Scan.lineBreak).isEmpty then
      if !(← get).inFlow then allowKey true
      toNextToken fuel

def streamStop : Step Unit := do
  unwind (-1)
  forgetKey
  modify fun l => { l with allowsKey := false, possibleKeys := [], isDone := true }
  emit .streamStop

def directive : Step Unit := do
  unwind (-1)
  forgetKey
  allowKey false
  emit (.directive (← scanning Property.directive))

def documentMark (t : Token) : Step Unit := do
  unwind (-1)
  forgetKey
  allowKey false
  scanning (Scan.skip 3)
  emit t

/-- A token of one character. -/
def sign (t : Token) : Step Unit := do
  scanning (Scan.skip 1)
  emit t

def openFlow (t : Token) : Step Unit := do
  noteKey
  modify fun l => { l with depth := l.depth + 1, allowsKey := true }
  sign t

def closeFlow (t : Token) : Step Unit := do
  forgetKey
  modify fun l => { l with depth := l.depth - 1, allowsKey := false }
  sign t

def flowEntry : Step Unit := do
  allowKey true
  forgetKey
  sign .flowEntry

def blockEntry : Step Unit := do
  let l ← get
  if !l.inFlow then
    require l.allowsKey
    if ← deepen l.cursor.column then emit .blockSequence
  allowKey true
  forgetKey
  sign .blockEntry

/-- A sign that starts a part of a mapping where no key was held back. -/
def mappingSign (t : Token) : Step Unit := do
  let l ← get
  if !l.inFlow then
    require l.allowsKey
    if ← deepen l.cursor.column then emit .blockMapping
  allowKey (!l.inFlow)
  forgetKey
  sign t

/-- Announces a key that was held back, and the block that it opens. -/
def announceKey (k : PossibleKey) : Step Unit := do
  modify fun l => { l with possibleKeys := l.possibleKeys.filter (·.depth != l.depth) }
  let opens ← if (← get).inFlow then pure false else deepen k.start.column
  modify fun l =>
    let n := k.position - l.releasedCount
    let announced := if opens then [.blockMapping, .key] else [.key]
    { l with held := l.held.take n ++ announced ++ l.held.drop n, allowsKey := false }

def value : Step Unit := do
  let l ← get
  match l.possibleKeys.find? (·.depth = l.depth) with
  | some k =>
    announceKey k
    sign .value
  | none => mappingSign .value

def leaf (scan : Scan Token) : Step Unit := do
  noteKey
  allowKey false
  emit (← scanning scan)

def blockScalar : Step Unit := do
  allowKey true
  forgetKey
  let indent := (← get).indent
  emit (.scalar (← scanning (Block.scan indent)) false)

def plainScalar : Step Unit := do
  noteKey
  let l ← get
  let (text, atNewLine) ← scanning (Plain.scan (l.indent + 1).toNat l.inFlow)
  allowKey atNewLine
  emit (.scalar text true)

/-- Reads what a character in the middle of a document begins. -/
def content (c : Char) (rest : List Char) : Step Unit := do
  let inFlow := (← get).inFlow
  let atGap := isGap rest.head?
  if c = '[' then openFlow .flowSequence
  else if c = '\x7b' then openFlow .flowMapping
  else if c = ']' then closeFlow .flowSequenceStop
  else if c = '\x7d' then closeFlow .flowMappingStop
  else if c = ',' then flowEntry
  else if c = '-' && atGap then blockEntry
  else if c = '?' && (inFlow || atGap) then mappingSign .key
  else if c = ':' && (inFlow || atGap) then value
  else if c = '*' then leaf (return .reference (← Property.anchorName))
  else if c = '&' then leaf (return .anchor (← Property.anchorName))
  else if c = '!' then leaf (return .tag (← Property.tag))
  else if (c = '|' || c = '>') && !inFlow then blockScalar
  else if c = '\x27' || c = '\x22' then leaf (return .scalar (← Quoted.scan) false)
  else
    require (Plain.canStart inFlow (c :: rest))
    plainScalar

/-- Reads at least one token. -/
def fetch : Step Unit := do
  toNextToken ((← get).cursor.rest.length + 1)
  dropStaleKeys
  let l ← get
  unwind l.cursor.column
  match l.cursor.rest with
  | [] => streamStop
  | c :: rest =>
    if c = '%' && l.cursor.column = 0 then directive
    else if l.cursor.column = 0 && isSeparator (c :: rest) then
      documentMark (if c = '-' then .documentStart else .documentStop)
    else content c rest

/-- Says whether the next token is still unread or held back. -/
def needsMore : Step Bool := do
  let l ← get
  if l.isDone then return false
  if l.held.isEmpty then return true
  dropStaleKeys
  let l ← get
  return l.possibleKeys.any (·.position = l.releasedCount)

def release : (held : Nat) → Step Unit
  | 0 => pure ()
  | n + 1 => do
    if ← needsMore then return
    modify fun l =>
      match l.held with
      | [] => l
      | t :: held =>
        { l with released := t :: l.released, releasedCount := l.releasedCount + 1, held := held }
    release n

def read : (fuel : Nat) → Step Unit
  | 0 => pure ()
  | fuel + 1 => do
    release (← get).held.length
    if !(← get).isDone then
      fetch
      read fuel

def ofText (text : List Char) : Layout where
  cursor := .ofText text
  released := []
  releasedCount := 0
  held := []
  depth := 0
  indent := -1
  outerIndents := []
  allowsKey := true
  possibleKeys := []
  isDone := false

end Layout

/-- The tokens of a text, up to the first error if there is one. A byte order mark may begin it. -/
def tokens (text : List Char) : List Token × Option Error :=
  if !text.all isAllowed then ([], some .illFormed)
  else
    let start := Layout.ofText text
    let start := if text.head? = some byteOrderMark then { start with cursor := start.cursor.next } else start
    match (Layout.read (text.length + 2)).run start with
    | .ok _ l => (l.released.reverse, none)
    | .error e l => (l.released.reverse, some e)

end BitcodeWrapper.Yaml
