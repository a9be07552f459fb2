/-
  What the stages of a build give, the reports left aside.

  The search for symbols, the table and the transform report as they go, and none of them looks at
  what was reported.  So the result of a build is the results of its stages one after another
  (`buildFrom_eq_ok`), and the symbols are what the four searches capture (`extractSymbols_eq_ok`).
-/
import StreamResolver.Cipher.Session
import StreamResolver.Proofs.Log.Reporting

namespace StreamResolver.Cipher

open Reporting

/-! ## No stage looks at the reports -/

theorem appends_expression? (m : Matcher) (params : Keyed String) :
    Appends (m.expression? params) := by
  unfold Matcher.expression?
  split
  · split
    · exact appends_pure _
    · split
      · exact appends_pure _
      · exact appends_bind (appends_emit _ _ _) fun _ => appends_pure _
  · split
    · exact appends_pure _
    · exact appends_pure _

theorem appends_liftExcept {α : Type} (r : Except Failure α) :
    Appends (Matcher.search.liftExcept r) := by
  cases r with
  | ok a => exact appends_pure a
  | error e => exact appends_throw e

theorem appends_search (m : Matcher) (text : String) (params : Keyed String) :
    Appends (m.search text params) := by
  refine appends_bind (appends_expression? m params) fun c => ?_
  split
  · exact appends_pure _
  · split
    · exact appends_pure _
    · split
      · split
        · exact appends_throw _
        · exact appends_liftExcept _
      · split
        · exact appends_throw _
        · exact appends_pure _

theorem appends_firstCapture (text : String) (params : Keyed String) (ms : List Matcher)
    (index : Nat) : Appends (firstCapture text params ms index) := by
  induction ms generalizing index with
  | nil => exact appends_pure _
  | cons m rest ih =>
    refine appends_bind (appends_search m text params) fun found => ?_
    split
    · exact appends_pure _
    · exact ih (index + 1)

theorem appends_locate (text : String) (role : Role) (ms : List Matcher) (params : Keyed String) :
    Appends (locate text role ms params) := by
  refine appends_bind (appends_firstCapture text params ms 0) fun found => ?_
  split
  · exact appends_bind (appends_emit _ _ _) fun _ => appends_pure _
  · exact appends_bind (appends_emit _ _ _) fun _ => appends_throw _

theorem appends_operationTable (body : String) : Appends (operationTable body) := by
  refine appends_when (appends_emit _ _ _) fun _ => appends_when (appends_throw _) fun _ => ?_
  exact appends_bind (appends_emit _ _ _) fun _ => appends_pure _

theorem appends_compileTransform (body : String) (table : OperationTable) :
    Appends (compileTransform body table) := by
  unfold compileTransform
  split
  · exact appends_throw _
  · exact appends_throw _
  · refine appends_when (appends_emit _ _ _) fun _ => ?_
    exact appends_bind (appends_emit _ _ _) fun _ => appends_pure _

/-! ## What the stages give -/

/-- There is a table unless no entry is known. -/
theorem operationTable_value (body : String) :
    (operationTable body).value =
      if (knownOperations (splitEntries body.toList)).isEmpty then
        .error (.extractor (.extractionFailed Role.helperBody.name))
      else .ok (knownOperations (splitEntries body.toList)) := by
  refine (value_when (value_emit _ _ _) fun _ => appends_when (appends_throw _) fun _ => ?_).trans ?_
  · exact appends_bind (appends_emit _ _ _) fun _ => appends_pure _
  · split
    · rfl
    · exact value_bind_ok (fun _ => appends_pure _) (value_emit _ _ _)

/-- A body with calls that can be read gives a transform over any table. -/
theorem compileTransform_calls {body : String} {instructions : List Instruction}
    (hparse : parseInstructions body = .ok instructions) (hne : instructions ≠ [])
    (table : OperationTable) :
    (compileTransform body table).value = .ok ⟨table, instructions⟩ := by
  obtain ⟨i, is, rfl⟩ := List.exists_cons_of_ne_nil hne
  rw [compileTransform, hparse]
  refine (value_when (value_emit _ _ _) fun _ => ?_).trans ?_
  · exact appends_bind (appends_emit _ _ _) fun _ => appends_pure _
  · exact value_bind_ok (fun _ => appends_pure _) (value_emit _ _ _)

theorem compileTransform_eq_ok_iff {body : String} {table : OperationTable} {t : Transform} :
    (compileTransform body table).value = .ok t ↔ ∃ instructions,
      parseInstructions body = .ok instructions ∧ instructions ≠ [] ∧ t = ⟨table, instructions⟩ := by
  constructor
  · intro h
    rcases hparse : parseInstructions body with e | instructions
    · rw [compileTransform, hparse] at h
      cases h
    · have hne : instructions ≠ [] := by
        rintro rfl
        rw [compileTransform, hparse] at h
        cases h
      rw [compileTransform_calls hparse hne, Except.ok.injEq] at h
      exact ⟨instructions, rfl, hne, h.symm⟩
  · rintro ⟨instructions, hparse, hne, rfl⟩
    exact compileTransform_calls hparse hne table

/-- What a build gives is what its stages give. -/
theorem buildFrom_eq_ok {patterns : Patterns} {script : Script} {build : Build}
    (h : (buildFrom patterns script).value = .ok build) :
    (extractSymbols script.source patterns).value = .ok build.symbols ∧
      (operationTable build.symbols.helperBody).value = .ok build.table ∧
      (compileTransform build.symbols.functionBody build.table).value = .ok build.transform := by
  have hlast : ∀ (symbols : Symbols) (table : OperationTable), Appends (do
      let transform ← compileTransform symbols.functionBody table
      return (⟨symbols, table, transform⟩ : Build)) :=
    fun _ _ => appends_bind (appends_compileTransform _ _) fun _ => appends_pure _
  obtain ⟨symbols, hsymbols, h⟩ := value_bind_eq_ok
    (fun symbols => appends_bind (appends_operationTable _) (hlast symbols)) h
  obtain ⟨table, htable, h⟩ := value_bind_eq_ok (hlast symbols) h
  obtain ⟨transform, htransform, h⟩ := value_bind_eq_ok (fun _ => appends_pure _) h
  rw [value_pure, Except.ok.injEq] at h
  subst h
  exact ⟨hsymbols, htable, htransform⟩

end StreamResolver.Cipher
