/-
  The transform: a list of calls over a table of operations.

  The body of the transform function is read as the sequence of its helper calls, `Xy.ab(a,3)` or
  `Xy["ab"](a,3)`.  Applying the transform runs the called operations one after another on the
  characters of a value; calls to unknown names are passed over.
-/
import StreamResolver.Cipher.Helper

namespace StreamResolver.Cipher

open Text Pattern

/-- A helper call: the name that is called and its argument. -/
structure Instruction where
  mnemonic : String
  argument : Int
  deriving DecidableEq, Repr

/-- A helper call: the name in capture 1 or 2, the argument in capture 3. -/
def helperCall : Pattern :=
  let name := Pattern.some1 nameChar
  let gap := Pattern.many .blank
  .sequence [
    name,
    .anyOf [
      .seq (.word ".") (.capture 1 name),
      .sequence [.word "[", gap, .one quoteMark, .capture 2 name, .one quoteMark, gap, .word "]"]],
    .word "(", gap, name, gap, .word ",", gap, .capture 3 (.some1 .digit), gap, .word ")"]

/-- The instruction of a helper call. -/
def instructionOf (m : Found) : Except Failure Instruction :=
  match readInteger ((m.group? 3).getD []) with
  | .error _ => .error (.fault .unreadableNumeral)
  | .ok argument =>
    let name := match m.group? 1 with
      | some (c :: rest) => c :: rest
      | _ => (m.group? 2).getD []
    .ok ⟨String.ofList name, argument⟩

/-- All helper calls of a function body, in order. -/
def parseInstructions (body : String) : Except Failure (List Instruction) :=
  (helperCall.findAll body.toList).mapM instructionOf

/-- A sequence of calls over a table of operations. -/
structure Transform where
  table : OperationTable
  instructions : List Instruction
  deriving DecidableEq, Repr

namespace Transform

/-- The effect of one call; an unknown name has none. -/
def step {α : Type} (table : OperationTable) (s : List α) (i : Instruction) : List α :=
  match table.get? i.mnemonic with
  | none => s
  | some op => op.apply i.argument s

/-- The effect of all calls on a list. -/
def run {α : Type} (t : Transform) (s : List α) : List α := t.instructions.foldl (step t.table) s

/-- The effect of all calls on a text. -/
def apply (t : Transform) (value : String) : String := String.ofList (t.run value.toList)

/-- How a transform is shown. -/
def text (t : Transform) : String :=
  "Transform(steps=" ++ String.ofList (decimals t.instructions.length) ++ ")"

end Transform

/-- The names without repetitions, in the order of code points. -/
def sortedNames (names : List String) : List String :=
  (names.eraseDups).mergeSort fun a b => decide (a ≤ b)

/-- Read the calls of a function body and bind them to a table; a failure when there is no call. -/
def compileTransform (body : String) (table : OperationTable) : Reporting Failure Transform := do
  match parseInstructions body with
  | .error e => throw e
  | .ok [] => throw (.extractor (.extractionFailed Role.functionBody.name))
  | .ok instructions =>
    let unknown := (instructions.map (·.mnemonic)).filter fun name => !table.has name
    if !unknown.isEmpty then
      Reporting.emit .warning "cipher_unknown_operations"
        [("mnemonics", .list ((sortedNames unknown).map .str))]
    Reporting.emit .debug "cipher_transform_compiled" [("steps", .int instructions.length)]
    return ⟨table, instructions⟩

end StreamResolver.Cipher
