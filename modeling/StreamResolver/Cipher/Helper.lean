/-
  The helper object of a player script.

  The helper is an object literal whose entries are small functions.  Entries are cut at their heads,
  `name:function(` or `name:(a,b)=>`, so a `},` inside a function does not split it, and each entry
  is recognised by characteristic fragments rather than by parsing the language of the script.
  Entries of an unknown shape are left out; a helper without a single known entry is a failure.
-/
import StreamResolver.Cipher.Matcher
import StreamResolver.Cipher.Operation

namespace StreamResolver.Cipher

open Text Pattern

/-! ## Entries -/

/-- Word characters and the dollar sign. -/
def nameChar : CharSet := .union [.word, .char '$']

/-- An optional quotation mark of either kind. -/
def quoteMark : CharSet := .ofChars ['"', '\'']

/-- The head of an entry: its name in capture 2, perhaps quoted, a colon, and the start of a
    function. -/
def entryHead : Pattern :=
  .sequence [
    .anyOf [.textStart, .one (.union [.char ',', .char '\x7b', .blank])],
    .capture 1 (.span false 0 (some 1) quoteMark),
    .capture 2 (.some1 nameChar),
    .recall false 1,
    .many .blank, .word ":", .many .blank,
    .ahead false (.anyOf [
      .seq (.word "function") (.wordEdge false),
      .sequence [.word "(", .many .blank, .some1 nameChar]])]

/-- An entry of a helper: its name and the text of its function. -/
structure Entry where
  name : List Char
  implementation : List Char
  deriving DecidableEq, Repr

/-- The separators that are trimmed from the end of an entry. -/
def isSeparator (c : Char) : Bool := c == ' ' || c == '\t' || c == '\r' || c == '\n' || c == ','

/-- Entries from the matches of their heads: what stands before a head belongs to the entry before
    it, and the tail to the last one. -/
def entriesFrom : List (List Char × Found) → List Char → List Entry
  | [], _ => []
  | [(_, head)], tail => [⟨(head.group? 2).getD [], trimEnd isSeparator tail⟩]
  | (_, head) :: (passed, head') :: rest, tail =>
    ⟨(head.group? 2).getD [], trimEnd isSeparator passed⟩ :: entriesFrom ((passed, head') :: rest) tail

/-- The entries of a helper body, in order. -/
def splitEntries (body : List Char) : List Entry :=
  let (heads, tail) := entryHead.cuts body
  entriesFrom heads tail

/-! ## Recognising operations -/

/-- A swap by way of a variable: `var c=a[0];a[0]=a[b%a.length]`. -/
def swapByVariable : Pattern :=
  let name := Pattern.some1 nameChar
  let gap := Pattern.many .blank
  .sequence [
    .word "var", .some1 .blank, name, gap, .word "=", gap, name, .word "[0];", gap,
    name, .word "[0]", gap, .word "=", gap,
    name, .word "[", name, gap, .word "%", gap, name, .word ".length]"]

/-- A rotation: `.push(a.shift())`. -/
def rotation : Pattern :=
  let gap := Pattern.many .blank
  .sequence [.word ".push(", gap, .some1 nameChar, .word ".shift(", gap, .word ")", gap, .word ")"]

/-- A swap by nested splices, in a text without blanks: `.splice(0,1,a.splice(`. -/
def swapBySplices : Pattern :=
  .sequence [.word ".splice(0,1,", .some1 nameChar, .word ".splice("]

/-- The operation of an entry's function, if its shape is known. -/
def classify (implementation : List Char) : Option Operation :=
  let fragment := lower (implementation.filter fun c => !isBlank c)
  if occurs "reverse".toList fragment then some .reverse
  else if swapBySplices.occursIn fragment then some .swapAtOffset
  else if swapByVariable.occursIn implementation then some .swapAtOffset
  else if rotation.occursIn implementation then some .rotateLeft
  else if occurs "splice".toList fragment then some .dropPrefix
  else none

/-! ## The table -/

/-- The known entries as a table, a later entry replacing an earlier one of the same name. -/
def knownOperations (entries : List Entry) : OperationTable :=
  Keyed.ofEntries (entries.filterMap fun e =>
    (classify e.implementation).map fun op => (String.ofList e.name, op))

/-- The names of the entries of unknown shape. -/
def unknownEntries (entries : List Entry) : List String :=
  (entries.filter fun e => (classify e.implementation).isNone).map fun e => String.ofList e.name

/-- The operations of a helper body; a failure when not a single entry is known. -/
def operationTable (body : String) : Reporting Failure OperationTable := do
  let entries := splitEntries body.toList
  let table := knownOperations entries
  let skipped := unknownEntries entries
  if !skipped.isEmpty then
    Reporting.emit .debug "cipher_operations_skipped" [("names", .list (skipped.map .str))]
  if table.isEmpty then throw (.extractor (.extractionFailed Role.helperBody.name))
  Reporting.emit .debug "cipher_operations_built"
    [("operations", .object (table.map fun (name, op) => (name, .str op.name)))]
  return table

end StreamResolver.Cipher
