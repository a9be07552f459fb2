/-
  A player script is decoded.

  Every call of the transform function is read, in order, with its name and its argument
  (`parseInstructions_bodyText`), and each of the four operations does what the function of its
  shape does (`apply_operation`).  Together with the four symbols and the table of the helper this
  says that the transform that is made of a player script is the function that the script
  describes (`decodes`).
-/
import StreamResolver.Proofs.Cipher.Instructions
import StreamResolver.Proofs.Cipher.Operations
import StreamResolver.Proofs.Cipher.ScriptCalls
import StreamResolver.Proofs.Cipher.ScriptEntries
import StreamResolver.Proofs.Cipher.ScriptFunction
import StreamResolver.Proofs.Cipher.ScriptHelper

namespace StreamResolver.Cipher

open Text Pattern Reporting

/-! ## The calls -/

namespace HelperCall

variable (c : HelperCall)

/-- The instruction that a call is read as. -/
def instruction : Instruction := ⟨String.ofList c.name.chars, c.argument⟩

theorem short_written : c.written.short = true := decide_eq_true c.short

theorem instruction_written : c.written.instruction = c.instruction := by
  have hname : c.written.access.name = c.name.chars := by
    rw [written]
    cases c.quoted <;> rfl
  have hargument : c.written.argument = c.argument := by
    refine congrArg valueOf (List.map_congr_left fun d hd => ?_)
    rw [(digit_classes (c.all_digits d hd)).2]
    rfl
  rw [PairCall.instruction, hname, hargument, instruction]

end HelperCall

namespace PlayerScript

variable (p : PlayerScript)

/-- The calls of the transform function in their forms. -/
def writtenCalls : List WrittenCall := p.calls.map fun c => .pair c.written

theorem bodyText_eq_body : p.bodyText = WrittenCall.body p.helperName p.writtenCalls := by
  rw [bodyText_eq, WrittenCall.body_eq, WrittenCall.closed, writtenCalls, List.flatMap_map,
    callsClosed]
  simp only [HelperCall.text_written]

/-- **The instructions** are the calls of the transform function, in order. -/
theorem parseInstructions_bodyText : parseInstructions (String.ofList p.bodyText) =
    .ok (p.calls.map HelperCall.instruction) := by
  have hpairs : p.writtenCalls.filterMap WrittenCall.pair? = p.calls.map HelperCall.written := by
    rw [writtenCalls, List.filterMap_map]
    exact List.filterMap_eq_map_iff_forall_eq_some.mpr fun c _ => rfl
  have hshort : (p.calls.map HelperCall.written).all PairCall.short = true := by
    simp [HelperCall.short_written]
  rw [bodyText_eq_body, WrittenCall.parseInstructions_body, hpairs, if_pos hshort, List.map_map]
  exact congrArg _ (List.map_congr_left fun c _ => c.instruction_written)

/-- The transform of the body over a table. -/
theorem compileTransform_bodyText (table : OperationTable) :
    (compileTransform (String.ofList p.bodyText) table).value =
      .ok ⟨table, p.calls.map HelperCall.instruction⟩ := by
  refine compileTransform_calls p.parseInstructions_bodyText ?_ table
  exact fun h => p.calls_ne (List.map_eq_nil_iff.mp h)

end PlayerScript

/-! ## What the operations do -/

section Operations

variable {α : Type}

theorem swapFirst_eq (i : Nat) (s : List α) : Operation.swapFirst i s = Shape.exchange i s := by
  cases s with
  | nil => rfl
  | cons x rest =>
    rw [Shape.exchange, List.getElem?_cons_zero]
    unfold Operation.swapFirst
    cases (x :: rest)[i]? with
    | none => rfl
    | some y => rfl

/-- **The operation of a shape** does what its functions do. -/
theorem apply_operation (shape : Shape) (k : Nat) (s : List α) :
    shape.operation.apply k s = shape.effect k s := by
  have hswap : Operation.swapAt k s = Shape.exchange (k % s.length) s := by
    rw [Operation.swapAt, Operation.wrap_natCast, swapFirst_eq]
  cases shape with
  | reverse => rfl
  | dropFront => exact Operation.dropFront_eq k s
  | swapByVariable => exact hswap
  | swapBySplices => exact hswap
  | rotate =>
    show Operation.rotate k s = Shape.moveFirst (k % s.length) s
    rw [Operation.rotate_natCast, Operation.moveFirst_eq_rotate, List.rotate_mod]

end Operations

namespace PlayerScript

variable (p : PlayerScript)

theorem step_instruction {α : Type} (s : List α) (c : HelperCall) :
    Transform.step p.table s c.instruction = p.perform s c := by
  rw [Transform.step, HelperCall.instruction, p.table_get?, perform]
  cases p.functions.find? fun f => f.name = c.name with
  | none => rfl
  | some f => exact apply_operation f.shape c.argument s

/-- The transform of a player script runs the calls of the script. -/
theorem apply_transform (value : String) :
    Transform.apply ⟨p.table, p.calls.map HelperCall.instruction⟩ value = p.decode value := by
  have hrun : ∀ (cs : List HelperCall) (s : List Char),
      (cs.map HelperCall.instruction).foldl (Transform.step p.table) s = cs.foldl p.perform s := by
    intro cs
    induction cs with
    | nil => exact fun _ => rfl
    | cons c cs ih =>
      intro s
      rw [List.map_cons, List.foldl_cons, List.foldl_cons, step_instruction, ih]
  rw [Transform.apply, Transform.run, hrun, decode]

/-- **A player script is decoded.**  On every player script the symbols are found, the helper and
    the calls are read without a failure, and the transform does what the script does. -/
theorem decodes : ∃ symbols table transform,
    (extractSymbols (String.ofList p.text) []).value = .ok symbols ∧
    symbols.functionName = String.ofList p.functionName.chars ∧
    symbols.helperName = String.ofList p.helperName.chars ∧
    (operationTable symbols.helperBody).value = .ok table ∧
    (compileTransform symbols.functionBody table).value = .ok transform ∧
    ∀ value, transform.apply value = p.decode value := by
  obtain ⟨_, hname⟩ := p.locate_functionName
  obtain ⟨_, hbody⟩ := p.locate_functionBody
  obtain ⟨_, hhelper⟩ := p.locate_helperName
  obtain ⟨_, hinner⟩ := p.locate_helperBody
  exact ⟨_, _, _, extractSymbols_eq_ok hname hbody hhelper hinner, rfl, rfl,
    p.operationTable_helperText, p.compileTransform_bodyText p.table, p.apply_transform⟩

end PlayerScript

end StreamResolver.Cipher
