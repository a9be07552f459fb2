/-
  The tree of a YAML text.

  A node is a scalar, a sequence or a mapping, with its tag if it has one.  What kind of value a scalar
  without a tag is depends on how it looks, which is decided later; here only plain and quoted
  scalars are told apart.  An alias stands for a copy of the node that has its anchor.

  The grammar is read top down from the tokens.  A node may be missing wherever the next token says so;
  it is then the empty plain scalar.
-/
import StreamResolver.Yaml.Layout
import StreamResolver.Keyed

namespace StreamResolver.Yaml

/-- A node.  Without a tag, `isPlain` tells whether the kind of a scalar follows from its look. -/
inductive Node where
  | scalar (tag : Option String) (isPlain : Bool) (text : List Char)
  | sequence (tag : Option String) (items : List Node)
  | mapping (tag : Option String) (entries : List (Node × Node))
  deriving Repr

namespace Node

instance : Inhabited Node := ⟨.scalar none true []⟩

/-- The node that stands where none is written. -/
def missing : Node := .scalar none true []

/-- What is known while a tree is read. -/
structure Source where
  tokens : List Token
  /-- The nodes that have an anchor; none for those that are not complete. -/
  anchors : Keyed (Option Node) := []
  /-- What the handles of tags stand for. -/
  handles : Keyed String := []

/-- A computation that reads tokens. -/
abbrev Reading := StateT Source (Except Error)

namespace Reading

/-- The next token; behind the last one, the end. -/
def peek : Reading Token := do return (← get).tokens.headD .streamEnd

/-- Pass a token. -/
def pass : Reading Unit := modify fun s => { s with tokens := s.tokens.tail }

/-- Break the grammar at the next token; if the text could not be read there, that is the cause. -/
def refuse {α : Type} : Reading α := do
  match ← peek with
  | .broken e => throw e
  | _ => throw .malformed

/-- Whether the next token is one of the given ones; a token that could not be read is refused. -/
def isAt (ts : List Token) : Reading Bool := do
  match ← peek with
  | .broken e => throw e
  | t => return ts.contains t

/-- Pass a token if it stands next; whether it did. -/
def accept (t : Token) : Reading Bool := do
  if ← isAt [t] then
    pass
    return true
  return false

/-- Pass a token, which must stand next. -/
def expect (t : Token) : Reading Unit := do
  unless ← accept t do refuse

end Reading

open Reading

/-! ## Properties -/

/-- The tag with a handle and a rest. -/
def fullTag (handle : Option (List Char)) (suffix : List Char) : Reading String := do
  match handle with
  | none => return String.ofList suffix
  | some h =>
    match (← get).handles.get? (String.ofList h) with
    | some lead => return lead ++ String.ofList suffix
    | none => throw .malformed

/-- An anchor, if one stands next. -/
def anchor? : Reading (Option String) := do
  match ← peek with
  | .anchor name =>
    pass
    return some (String.ofList name)
  | _ => return none

/-- A tag, if one stands next. -/
def tag? : Reading (Option String) := do
  match ← peek with
  | .tag handle suffix =>
    pass
    return some (← fullTag handle suffix)
  | _ => return none

/-- An anchor and a tag, in either order. -/
def properties : Reading (Option String × Option String) := do
  let before ← anchor?
  let tag ← tag?
  let after ← if before.isNone && tag.isSome then anchor? else pure none
  return (before <|> after, tag)

/-- Give an anchor to a node, or announce that a node with the anchor has begun. -/
def setAnchor (name : Option String) (n : Option Node) : Reading Unit := do
  if let some name := name then modify fun s => { s with anchors := s.anchors.put name n }

/-! ## The grammar -/

/-- Where a node stands: what may begin there. -/
inductive Place where
  /-- Inside brackets: no blocks. -/
  | flow
  | block
  /-- As key or value of a block: the items of a sequence may begin at the column of the key. -/
  | entry
  deriving DecidableEq, Repr

mutual

/-- A node. -/
def read : Nat → Place → Reading Node
  | 0, _ => throw .malformed
  | fuel + 1, place => do
    match ← peek with
    | .alias name =>
      pass
      match (← get).anchors.get? (String.ofList name) with
      | some n => return n.getD missing
      | none => throw .malformed
    | _ =>
      let (anchor, tag) ← properties
      if let some name := anchor then
        if (← get).anchors.has name then throw .malformed
      setAnchor anchor none
      let n ← content fuel place (if tag == some "!" then none else tag) tag.isSome
        (anchor.isSome || tag.isSome)
      setAnchor anchor (some n)
      return n

/-- What stands behind the properties of a node: `tagged` and `marked` tell that there were a tag, or
    any properties. -/
def content : Nat → Place → Option String → Bool → Bool → Reading Node
  | 0, _, _, _, _ => throw .malformed
  | fuel + 1, place, tag, tagged, marked => do
    let start ← peek
    match start with
    | .scalar isPlain text =>
      pass
      return .scalar tag (isPlain || tagged) text
    | .flowSequenceStart =>
      pass
      return .sequence tag (← flowItems fuel true)
    | .flowMappingStart =>
      pass
      return .mapping tag (← flowEntries fuel true)
    | .blockSequenceStart =>
      if place == .flow then absent tag marked
      else
        pass
        return .sequence tag (← blockItems fuel)
    | .blockMappingStart =>
      if place == .flow then absent tag marked
      else
        pass
        return .mapping tag (← blockEntries fuel)
    | .blockEntry =>
      if place == .entry then return .sequence tag (← plainItems fuel) else absent tag marked
    | _ => absent tag marked

/-- A missing node, which must have properties. -/
def absent (tag : Option String) (marked : Bool) : Reading Node := do
  if marked then return .scalar tag true []
  refuse

/-- A node, unless one of the tokens stands next that show that it is missing. -/
def optional : Nat → Place → List Token → Reading Node
  | 0, _, _ => throw .malformed
  | fuel + 1, place, ends => do
    if ← isAt ends then return missing
    read fuel place

/-- The items of a block up to its end. -/
def blockItems : Nat → Reading (List Node)
  | 0 => throw .malformed
  | fuel + 1 => do
    if ← accept .blockEntry then
      let item ← optional fuel .block [.blockEntry, .blockEnd]
      return item :: (← blockItems fuel)
    expect .blockEnd
    return []

/-- The items of a sequence at the column of its key; nothing marks their end. -/
def plainItems : Nat → Reading (List Node)
  | 0 => throw .malformed
  | fuel + 1 => do
    if ← accept .blockEntry then
      let item ← optional fuel .block [.blockEntry, .key, .value, .blockEnd]
      return item :: (← plainItems fuel)
    return []

/-- The entries of a block up to its end. -/
def blockEntries : Nat → Reading (List (Node × Node))
  | 0 => throw .malformed
  | fuel + 1 => do
    if ← accept .key then
      let key ← optional fuel .entry [.key, .value, .blockEnd]
      let value ← if ← accept .value then optional fuel .entry [.key, .value, .blockEnd]
        else pure missing
      return (key, value) :: (← blockEntries fuel)
    expect .blockEnd
    return []

/-- The items of a sequence in brackets; an item may be a single entry. -/
def flowItems : Nat → Bool → Reading (List Node)
  | 0, _ => throw .malformed
  | fuel + 1, isFirst => do
    if ← accept .flowSequenceEnd then return []
    unless isFirst do expect .flowEntry
    if ← accept .key then
      let key ← optional fuel .flow [.value, .flowEntry, .flowSequenceEnd]
      let value ← if ← accept .value then optional fuel .flow [.flowEntry, .flowSequenceEnd]
        else pure missing
      return .mapping none [(key, value)] :: (← flowItems fuel false)
    if ← accept .flowSequenceEnd then return []
    let item ← read fuel .flow
    return item :: (← flowItems fuel false)

/-- The entries of a mapping in brackets; without a colon there is a key and no value. -/
def flowEntries : Nat → Bool → Reading (List (Node × Node))
  | 0, _ => throw .malformed
  | fuel + 1, isFirst => do
    if ← accept .flowMappingEnd then return []
    unless isFirst do expect .flowEntry
    if ← accept .key then
      let key ← optional fuel .flow [.value, .flowEntry, .flowMappingEnd]
      let value ← if ← accept .value then optional fuel .flow [.flowEntry, .flowMappingEnd]
        else pure missing
      return (key, value) :: (← flowEntries fuel false)
    if ← accept .flowMappingEnd then return []
    let key ← read fuel .flow
    return (key, missing) :: (← flowEntries fuel false)

end

/-! ## Documents -/

/-- The handles that need no directive. -/
def standardHandles : Keyed String := [("!", "!"), ("!!", "tag:yaml.org,2002:")]

/-- The directives in front of a document: at most one version, whose first number is 1, and each
    handle at most once. -/
def directives : Nat → Bool → Reading Unit
  | 0, _ => throw .malformed
  | fuel + 1, hasVersion => do
    match ← peek with
    | .version major =>
      if hasVersion || major != 1 then throw .malformed
      pass
      directives fuel true
    | .tagHandle handle lead =>
      if (← get).handles.has (String.ofList handle) then throw .malformed
      modify fun s =>
        { s with handles := s.handles.put (String.ofList handle) (String.ofList lead) }
      pass
      directives fuel hasVersion
    | .otherDirective =>
      pass
      directives fuel hasVersion
    | _ => return ()

/-- Pass markers of a document's end. -/
def passEnds : Nat → Reading Unit
  | 0 => return ()
  | fuel + 1 => do if ← accept .documentEnd then passEnds fuel

/-- Add the standard handles that no directive has set. -/
def addStandardHandles : Reading Unit := modify fun s =>
  { s with handles := s.handles ++ standardHandles.filter fun h => !s.handles.has h.1 }

/-- Whether a document starts without a marker. -/
def startsAtOnce : Token → Bool
  | .version _ | .tagHandle .. | .otherDirective | .documentStart | .streamEnd => false
  | _ => true

/-- The only document of a text; none when there is none. -/
def document (fuel : Nat) : Reading (Option Node) := do
  if startsAtOnce (← peek) then
    addStandardHandles
    let n ← read fuel .block
    finish n
  else
    passEnds fuel
    if ← isAt [.streamEnd] then return none
    directives fuel false
    addStandardHandles
    expect .documentStart
    let n ← match ← peek with
      | .version _ | .tagHandle .. | .otherDirective | .documentStart | .documentEnd | .streamEnd =>
        pure missing
      | _ => read fuel .block
    finish n
where
  /-- Nothing may follow the document. -/
  finish (n : Node) : Reading (Option Node) := do
    passEnds fuel
    expect .streamEnd
    return some n

/-- The tree of a text; none for a text without a document. -/
def ofText (text : List Char) : Except Error (Option Node) :=
  let ts := tokens text
  (document (4 * ts.length + 8)).run' { tokens := ts }

end Node

end StreamResolver.Yaml
