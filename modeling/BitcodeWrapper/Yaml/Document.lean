import BitcodeWrapper.Yaml.Binary
import BitcodeWrapper.Yaml.Members
import BitcodeWrapper.Yaml.Node
import BitcodeWrapper.Yaml.Number

/-!
From the nodes of a document to its values. A collection is made empty first and filled later, so that it
can hold itself. Collections are filled in rounds, those of one round in the order that they were met in.
-/
namespace BitcodeWrapper.Yaml

structure Building where
  nodes : Array Node
  /-- The values of the nodes that are made. -/
  values : Array (Option Value)
  /-- What the collections hold that are filled. -/
  collections : Array (Option Collection)
  /-- The collections to fill, the one met last first. -/
  waiting : List Nat

abbrev Build := EStateM Error Building

namespace Build

def refuse {α : Type} : Build α := throw .illFormed

def node (id : Nat) : Build Node := return ((← get).nodes[id]?).getD Node.empty

def setNode (id : Nat) (n : Node) : Build Unit :=
  modify fun b => { b with nodes := b.nodes.setIfInBounds id n }

def setValue (id : Nat) (v : Value) : Build Unit :=
  modify fun b => { b with values := b.values.setIfInBounds id (some v) }

def setCollection (id : Nat) (c : Collection) : Build Unit :=
  modify fun b => { b with collections := b.collections.setIfInBounds id (some c) }

def await (id : Nat) : Build Unit :=
  modify fun b => { b with waiting := id :: b.waiting }

/-- The entries of a mapping; other nodes have none. -/
def entries (id : Nat) : Build (List (Nat × Nat)) := do
  match (← node id).content with
  | .mapping entries => return entries
  | _ => return []

def setEntries (id : Nat) (entries : List (Nat × Nat)) : Build Unit := do
  setNode id ⟨(← node id).tag, .mapping entries⟩

/-- The text of a scalar, or of the scalar that a mapping gives as its value. -/
def scalarText : (fuel : Nat) → (id : Nat) → Build LooseText
  | 0, _ => refuse
  | fuel + 1, id => do
    match (← node id).content with
    | .scalar text => return text
    | .sequence _ => refuse
    | .mapping entries =>
      match ← entries.findM? fun e => return (← node e.1).tag = .value with
      | some e => scalarText fuel e.2
      | none => refuse

def truthWords : List (String × Bool) :=
  [("yes", true), ("no", false), ("true", true), ("false", false), ("on", true), ("off", false)]

def valued {α : Type} (make : α → Value) : Option α → Build Value
  | some a => return make a
  | none => throw .noValue

def ofTimestamp : Date ⊕ Moment → Value
  | .inl d => .date d
  | .inr m => .moment m

/-- The number that a node's text stands for. If it is none by any name but its own, it is the node's. -/
def ofFloat (id : Nat) (text : String) (x : Float) : Value :=
  if x.isNaN then .notANumber (if Number.isNamedNotANumber text then none else some id) else .float x

/-- The value of a scalar with a tag that is made of characters. -/
def ofPlainScalar (id : Nat) (tag : Tag) (text : String) : Build Value :=
  match tag with
  | .null => return .null
  | .bool => valued .bool (truthWords.lookup (String.ofList (text.toList.map Char.toLower)))
  | .int => valued .int (Number.int? text)
  | .float => valued (ofFloat id text) (Number.float? text)
  | .binary =>
    match Binary.bytes? text with
    | some bytes => return .bytes bytes
    | none => refuse
  | .timestamp => valued ofTimestamp (timestamp? (Tag.withoutNewline text))
  | .text => return .text text
  | _ => refuse

/-- The value of a scalar with a tag. A lone surrogate is no part of a number, a date or the like, and it is
refused among the letters that bytes are written with. -/
def ofScalar (id : Nat) (tag : Tag) (text : LooseText) : Build Value :=
  match tag, text.plain? with
  | .text, _ => return .text text
  | .null, _ => return .null
  | tag, some text => ofPlainScalar id tag text
  | .binary, none => refuse
  | _, none => throw .noValue

def isScalarTag : Tag → Bool
  | .null | .bool | .int | .float | .binary | .timestamp | .text => true
  | _ => false

def isCollectionTag : Tag → Bool
  | .sequence | .omap | .pairs | .set | .mapping => true
  | _ => false

/-- The value of a node, which is made when it is asked for first. -/
def value (id : Nat) : Build Value := do
  match ((← get).values[id]?).join with
  | some v => return v
  | none =>
    let tag := (← node id).tag
    let v ←
      if isCollectionTag tag then do
        await id
        pure (.collection id)
      else if isScalarTag tag then ofScalar id tag (← scalarText ((← get).nodes.size + 1) id)
      else refuse
    setValue id v
    return v

/-- Takes out the first merge key of a mapping, and gives what it names and the other entries. -/
def nextMerge? (entries : List (Nat × Nat)) : Build (Option (Nat × List (Nat × Nat))) := do
  match entries with
  | [] => return none
  | e :: rest =>
    if (← node e.1).tag = .merge then return some (e.2, rest)
    return (← nextMerge? rest).map fun found => (found.1, e :: found.2)

/-- A key that is an equals sign becomes text, wherever it is used. -/
def keyAsText (e : Nat × Nat) : Build Unit := do
  let key ← node e.1
  if key.tag = .value then setNode e.1 ⟨.text, key.content⟩

mutual

/-- Puts the entries that a mapping takes over before its own. -/
def flatten : (fuel : Nat) → (id : Nat) → Build Unit
  | 0, _ => refuse
  | fuel + 1, id => do
    let taken ← takenOver fuel id
    let own ← entries id
    own.forM keyAsText
    setEntries id (taken ++ own)

/-- What the merge keys of a mapping take over. They are gone from it before their mappings are looked
at, of which it may be one itself. -/
def takenOver : (fuel : Nat) → (id : Nat) → Build (List (Nat × Nat))
  | 0, _ => refuse
  | fuel + 1, id => do
    match ← nextMerge? (← entries id) with
    | none => return []
    | some (source, rest) =>
      setEntries id rest
      let taken ← allEntries fuel source
      return taken ++ (← takenOver fuel id)

/-- The entries of one mapping, or of several, of which the first one comes last. -/
def allEntries : (fuel : Nat) → (source : Nat) → Build (List (Nat × Nat))
  | 0, _ => refuse
  | fuel + 1, source => do
    match (← node source).content with
    | .mapping _ => flattened fuel source
    | .sequence items => return (← items.mapM (flattened fuel)).reverse.flatten
    | .scalar _ => refuse

/-- The entries of a mapping with those that it takes over. -/
def flattened : (fuel : Nat) → (id : Nat) → Build (List (Nat × Nat))
  | 0, _ => refuse
  | fuel + 1, id => do
    match (← node id).content with
    | .mapping _ =>
      flatten fuel id
      entries id
    | _ => refuse

end

/-- Every merge key leads four steps deeper. -/
def mergeFuel (nodes : Array Node) : Nat :=
  4 * nodes.foldl (fun n node => match node.content with
    | .mapping entries => n + entries.length
    | _ => n) 0 + 4

def key (id : Nat) : Build Value := do
  let k ← value id
  if k.canBeKey then return k else refuse

/-- The entries of a mapping. The last value of a key counts. -/
def mappingEntries (id : Nat) : Build (List (Value × Value)) := do
  flatten (mergeFuel (← get).nodes) id
  let mut done := []
  for e in ← entries id do
    let k ← key e.1
    let v ← value e.2
    done := Value.put k v done
  return done

/-- An item of a list of pairs: a mapping of one entry. -/
def pair (list : Nat) (item : Nat × Nat) : Build Value := do
  match (← node item.1).content with
  | .mapping [(k, v)] => return .pair list item.2 (← value k) (← value v)
  | _ => refuse

def fill (id : Nat) : Build Unit := do
  let n ← node id
  match n.tag, n.content with
  | .sequence, .sequence items => setCollection id (.list (← items.mapM value))
  | .omap, .sequence items | .pairs, .sequence items =>
    setCollection id (.list (← items.zipIdx.mapM (pair id)))
  | .mapping, .mapping _ => setCollection id (.mapping (← mappingEntries id))
  | .set, .mapping _ =>
    setCollection id (.set (Members.ordered ((← mappingEntries id).map (·.1))))
  | _, _ => refuse

/-- Fills the collections that wait, and then those that were met meanwhile. -/
def fillAll : (rounds : Nat) → Build Unit
  | 0 => pure ()
  | rounds + 1 => do
    match (← get).waiting.reverse with
    | [] => pure ()
    | ids =>
      modify fun b => { b with waiting := [] }
      ids.forM fill
      fillAll rounds

/-- Every round fills a node that no other round does. -/
def document (root : Nat) : Build Document := do
  let v ← value root
  fillAll ((← get).nodes.size + 1)
  return ⟨v, (← get).collections⟩

end Build

def Graph.document (g : Graph) : Except Error Document :=
  let blank := g.nodes.map fun _ => none
  match (Build.document g.root).run ⟨g.nodes, blank, g.nodes.map fun _ => none, []⟩ with
  | .ok d _ => .ok d
  | .error e _ => .error e

/-- The document of a text; a text without content stands for `null`. -/
def read (text : String) : Except Error Document := do
  match ← Node.ofText text.toList with
  | none => return ⟨.null, #[]⟩
  | some g => g.document

/-- Whatever reads documents. It says why a text is not well formed. -/
structure Reader where
  read : String → Except Error Document
  reason : String → String

end BitcodeWrapper.Yaml
