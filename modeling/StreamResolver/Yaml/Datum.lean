/-
  The data of a YAML document.

  A datum is what the nodes of a tree stand for once the kinds of its scalars are settled.  A mapping
  becomes a table of the entries whose keys are texts; entries with other keys are read, since they may
  be faulty, and left out.  An entry with the merge key puts the entries of another mapping in front of
  the mapping's own, which override them.

  As a configuration value a datum loses what no setting can be: a moment or a set becomes an empty
  list, and octets become the text they encode.
-/
import StreamResolver.Yaml.Node
import StreamResolver.Yaml.Scalar
import StreamResolver.Text.Base64
import StreamResolver.Text.Utf8
import StreamResolver.Value.Basic

namespace StreamResolver.Yaml

/-- A datum. -/
inductive Datum where
  | null
  | bool (b : Bool)
  | int (n : Int)
  | float (x : Binary64)
  | text (s : List Char)
  | octets (bytes : List Nat)
  | moment (m : Scalar.Moment)
  | list (items : List Datum)
  | set (members : List String)
  | map (entries : List (String × Datum))
  deriving Repr

namespace Datum

/-! ## From nodes -/

/-- Read a scalar as a value of a kind. -/
def ofScalar (kind : Kind) (s : List Char) : Except Error Datum :=
  match kind with
  | .null => .ok .null
  | .bool => (Scalar.bool s).map .bool
  | .int => (Scalar.integer s).map .int
  | .float => (Scalar.float s).map .float
  | .text => .ok (.text s)
  | .moment => (Scalar.moment s).map .moment
  | .octets =>
    if s.all fun c => c.toNat < 0x80 then
      match Text.Base64.decode? s with
      | some bytes => .ok (.octets bytes)
      | none => .error .malformed
    else .error .malformed
  | _ => .error .malformed

/-- The kind of a scalar. -/
def scalarKind (tag : Option String) (isPlain : Bool) (s : List Char) : Kind :=
  match tag with
  | some t => .ofTag t
  | none => if isPlain then Scalar.kindOf s else .text

/-- The kind of a node. -/
def kindOf : Node → Kind
  | .scalar tag isPlain s => scalarKind tag isPlain s
  | .sequence tag _ => (tag.map Kind.ofTag).getD .sequence
  | .mapping tag _ => (tag.map Kind.ofTag).getD .mapping

/-- The name that a key gives to an entry; none for a key that is no text.  A key is a scalar. -/
def keyName : Node → Except Error (Option String)
  | .scalar tag isPlain s =>
    match scalarKind tag isPlain s with
    | .default => .ok (some (String.ofList s))
    | kind => do
      match ← ofScalar kind s with
      | .text name => return some (String.ofList name)
      | _ => return none
  | _ => .error .malformed

/-- Put an entry into a table if its key is a name. -/
def putNamed (t : Keyed Datum) (name : Option String) (d : Datum) : Keyed Datum :=
  match name with
  | some name => t.put name d
  | none => t

/-- Put the entries of one table into another. -/
def putAll (t new : Keyed Datum) : Keyed Datum := new.foldl (fun t e => t.put e.1 e.2) t

mutual

/-- The datum of a node. -/
def ofNode : Node → Except Error Datum
  | .scalar tag isPlain s => ofScalar (scalarKind tag isPlain s) s
  | .sequence tag items =>
    match (tag.map Kind.ofTag).getD .sequence with
    | .sequence => do return .list (← ofItems items)
    | .entries => do return .list (← ofSingles items)
    | _ => .error .malformed
  | .mapping tag entries =>
    match (tag.map Kind.ofTag).getD .mapping with
    | .mapping => do return .map (← ownEntries (← merged [] entries) entries)
    | .set => do return .set (Keyed.keys (← ownEntries (← merged [] entries) entries))
    | _ => .error .malformed

/-- The data of the items of a sequence. -/
def ofItems : List Node → Except Error (List Datum)
  | [] => .ok []
  | n :: rest => do return (← ofNode n) :: (← ofItems rest)

/-- The data of the items of a sequence of single entries: pairs of a key and a value. -/
def ofSingles : List Node → Except Error (List Datum)
  | [] => .ok []
  | .mapping _ [(k, v)] :: rest => do
    let pair := Datum.list [← ofNode k, ← ofNode v]
    return pair :: (← ofSingles rest)
  | _ :: _ => .error .malformed

/-- The entries that are merged into a mapping, put into a table. -/
def merged (t : Keyed Datum) : List (Node × Node) → Except Error (Keyed Datum)
  | [] => .ok t
  | (k, v) :: rest =>
    if kindOf k == .merge then
      match v with
      | .mapping _ entries => do
        merged (putAll t (← ownEntries (← merged [] entries) entries)) rest
      | .sequence _ items => do merged ((← tables items).foldr (fun new t => putAll t new) t) rest
      | .scalar .. => .error .malformed
    else merged t rest

/-- The tables of the mappings of a sequence. -/
def tables : List Node → Except Error (List (Keyed Datum))
  | [] => .ok []
  | .mapping _ entries :: rest => do
    return (← ownEntries (← merged [] entries) entries) :: (← tables rest)
  | _ :: _ => .error .malformed

/-- The entries of a mapping itself, put into a table. -/
def ownEntries (t : Keyed Datum) : List (Node × Node) → Except Error (Keyed Datum)
  | [] => .ok t
  | (k, v) :: rest =>
    if kindOf k == .merge then ownEntries t rest
    else do
      let name ← keyName k
      let d ← ofNode v
      ownEntries (putNamed t name d) rest

end

/-- The datum of a text; the null of a text without a document. -/
def ofText (text : List Char) : Except Error Datum := do
  match ← Node.ofText text with
  | some n => ofNode n
  | none => return .null

/-! ## As a configuration value -/

mutual

/-- The value that a datum gives to a setting. -/
def toValue : Datum → Value
  | .null => .null
  | .bool b => .bool b
  | .int n => .int n
  | .float x => .float x
  | .text s => .ofChars s
  | .octets bytes => .ofChars (Text.Utf8.decode bytes)
  | .moment _ => .list []
  | .list items => .list (itemValues items)
  | .set _ => .list []
  | .map entries => .object (entryValues entries)

/-- The values of a list. -/
def itemValues : List Datum → List Value
  | [] => []
  | d :: rest => toValue d :: itemValues rest

/-- The values of a table. -/
def entryValues : List (String × Datum) → List (String × Value)
  | [] => []
  | (k, d) :: rest => (k, toValue d) :: entryValues rest

end

/-- What a datum is called when a mapping was expected. -/
def kindName : Datum → String
  | .null => "NoneType"
  | .bool _ => "bool"
  | .int _ => "int"
  | .float _ => "float"
  | .text _ => "str"
  | .octets _ => "bytes"
  | .moment m => if m.time.isSome then "datetime.datetime" else "datetime.date"
  | .list _ => "list"
  | .set _ => "set"
  | .map _ => "dict"

end Datum

end StreamResolver.Yaml
