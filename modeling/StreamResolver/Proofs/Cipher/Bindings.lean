/-
  What the table of a helper binds.

  The entries of a helper body are put into a table one after another: an entry of an unknown shape
  leaves the table as it is, and a known one takes over its name.  So a name is bound to the
  operation of the last known entry that has it, whatever entries of an unknown shape stand between
  or behind (`get?_knownOperations`), and there is no table exactly when no entry is known.

  A transform looks up the names of its calls when it is applied.  What it does to a value can then
  be said without any table: each call does what the last known entry of its name does, and a call
  of a name without one does nothing (`foldl_callLast`).
-/
import Mathlib.Data.List.Induction
import StreamResolver.Proofs.Cipher.Extraction
import StreamResolver.Proofs.Keyed

namespace StreamResolver.Cipher

/-! ## The last known entry -/

/-- The operation of an entry, if it is known and the entry has the name. -/
def Entry.operationFor? (e : Entry) (name : String) : Option Operation :=
  if String.ofList e.name = name then classify e.implementation else none

theorem Entry.operationFor?_eq_some_iff {e : Entry} {name : String} {op : Operation} :
    e.operationFor? name = some op ↔
      String.ofList e.name = name ∧ classify e.implementation = some op := by
  unfold Entry.operationFor?
  split
  · next h => exact (and_iff_right h).symm
  · next h => exact iff_of_false (by simp) fun h' => h h'.1

/-- The operation of the last known entry that has the name. -/
def lastKnown? (entries : List Entry) (name : String) : Option Operation :=
  entries.reverse.findSome? (·.operationFor? name)

theorem lastKnown?_concat (entries : List Entry) (e : Entry) (name : String) :
    lastKnown? (entries ++ [e]) name = (e.operationFor? name).or (lastKnown? entries name) := by
  rw [lastKnown?, List.reverse_append, List.reverse_singleton, List.singleton_append,
    List.findSome?_cons]
  cases e.operationFor? name with
  | none => rfl
  | some op => rfl

/-- Behind the last known entry there is no known one of the same name. -/
theorem lastKnown?_eq_some_iff {entries : List Entry} {name : String} {op : Operation} :
    lastKnown? entries name = some op ↔ ∃ front e back, entries = front ++ e :: back ∧
      (String.ofList e.name = name ∧ classify e.implementation = some op) ∧
      ∀ e' ∈ back, e'.operationFor? name = none := by
  rw [lastKnown?, List.findSome?_eq_some_iff]
  constructor
  · rintro ⟨back, e, front, hsplit, hop, hback⟩
    refine ⟨front.reverse, e, back.reverse, ?_, Entry.operationFor?_eq_some_iff.mp hop,
      fun e' he' => hback e' (List.mem_reverse.mp he')⟩
    rw [← List.reverse_reverse entries, hsplit, List.reverse_append, List.reverse_cons,
      List.append_assoc, List.singleton_append]
  · rintro ⟨front, e, back, rfl, hop, hback⟩
    refine ⟨back.reverse, e, front.reverse, ?_, Entry.operationFor?_eq_some_iff.mpr hop,
      fun e' he' => hback e' (List.mem_reverse.mp he')⟩
    rw [List.reverse_append, List.reverse_cons, List.append_assoc, List.singleton_append]

theorem lastKnown?_eq_none_iff {entries : List Entry} {name : String} :
    lastKnown? entries name = none ↔
      ¬ ∃ e ∈ entries, String.ofList e.name = name ∧ classify e.implementation ≠ none := by
  rw [lastKnown?, List.findSome?_eq_none_iff]
  constructor
  · rintro hall ⟨e, he, hname, hknown⟩
    obtain ⟨op, hop⟩ := Option.ne_none_iff_exists'.mp hknown
    have hnone := hall e (List.mem_reverse.mpr he)
    rw [Entry.operationFor?_eq_some_iff.mpr ⟨hname, hop⟩] at hnone
    cases hnone
  · intro hno e he
    rcases hop : e.operationFor? name with _ | op
    · rfl
    · obtain ⟨hname, hclassified⟩ := Entry.operationFor?_eq_some_iff.mp hop
      refine absurd ⟨e, List.mem_reverse.mp he, hname, ?_⟩ hno
      rw [hclassified]
      simp

/-! ## The table -/

/-- One more entry takes over its name, or is left out. -/
theorem knownOperations_concat (entries : List Entry) (e : Entry) :
    knownOperations (entries ++ [e]) = match classify e.implementation with
      | none => knownOperations entries
      | some op => (knownOperations entries).put (String.ofList e.name) op := by
  rw [knownOperations, List.filterMap_append, Keyed.ofEntries, List.foldl_append]
  cases h : classify e.implementation with
  | none => rw [List.filterMap_cons_none (by rw [h]; rfl)]; rfl
  | some op => rw [List.filterMap_cons_some (by rw [h]; rfl)]; rfl

/-- **A name is bound to its last known entry.** -/
theorem get?_knownOperations (entries : List Entry) (name : String) :
    (knownOperations entries).get? name = lastKnown? entries name := by
  -- from behind, because the entry that is read last decides
  induction entries using List.reverseRecOn with
  | nil => rfl
  | append_singleton entries e ih =>
    rw [knownOperations_concat, lastKnown?_concat, ← ih, Entry.operationFor?]
    cases h : classify e.implementation with
    | none =>
      rw [ite_self, Option.none_or]
    | some op =>
      show (Keyed.put _ _ _).get? name = _
      rw [Keyed.get?_put]
      split
      · rfl
      · rfl

theorem mem_keys_knownOperations {entries : List Entry} {name : String} :
    name ∈ (knownOperations entries).keys ↔
      ∃ e ∈ entries, String.ofList e.name = name ∧ classify e.implementation ≠ none := by
  have hnone := Keyed.get?_eq_none_iff (knownOperations entries) name
  rw [get?_knownOperations, lastKnown?_eq_none_iff] at hnone
  exact (not_iff_not.mp hnone).symm

theorem nodup_knownOperations (entries : List Entry) : (knownOperations entries).keys.Nodup := by
  induction entries using List.reverseRecOn with
  | nil => exact List.nodup_nil
  | append_singleton entries e ih =>
    rw [knownOperations_concat]
    cases classify e.implementation with
    | none => exact ih
    | some op => exact Keyed.nodup_put ih _ op

theorem isEmpty_knownOperations {entries : List Entry} :
    (knownOperations entries).isEmpty = true ↔ ∀ e ∈ entries, classify e.implementation = none := by
  have hkeys : (knownOperations entries).isEmpty = true ↔ (knownOperations entries).keys = [] := by
    rw [List.isEmpty_iff, Keyed.keys, List.map_eq_nil_iff]
  rw [hkeys, List.eq_nil_iff_forall_not_mem]
  constructor
  · intro hno e he
    refine Decidable.byContradiction fun hknown => ?_
    exact hno _ (mem_keys_knownOperations.mpr ⟨e, he, rfl, hknown⟩)
  · rintro hall name hname
    obtain ⟨e, he, -, hknown⟩ := mem_keys_knownOperations.mp hname
    exact hknown (hall e he)

/-! ## The transform -/

/-- A call does what the last known entry of its name does, and nothing if there is none. -/
def callLast {α : Type} (entries : List Entry) (s : List α) (i : Instruction) : List α :=
  match lastKnown? entries i.mnemonic with
  | none => s
  | some op => op.apply i.argument s

theorem step_knownOperations {α : Type} (entries : List Entry) (s : List α) (i : Instruction) :
    Transform.step (knownOperations entries) s i = callLast entries s i := by
  rw [Transform.step, get?_knownOperations]
  rfl

/-- A transform over the table of some entries is a fold over the entries' operations. -/
theorem foldl_callLast {α : Type} (entries : List Entry) (instructions : List Instruction)
    (s : List α) : Transform.run ⟨knownOperations entries, instructions⟩ s =
      instructions.foldl (callLast entries) s := by
  induction instructions generalizing s with
  | nil => rfl
  | cons i is ih =>
    show Transform.run ⟨knownOperations entries, is⟩ (Transform.step _ s i) = _
    rw [ih, step_knownOperations, List.foldl_cons]

/-- **The table of a helper binds each name to its last known entry.**  There is no table exactly
    when no entry is known.  Else its names are those with a known entry, each of them once and bound
    to the operation of the last such entry; and over it just the bodies with calls that can be read
    give a transform, which runs on every value what the last known entries of the called names do,
    in the order of the calls and passing over the calls of other names. -/
theorem table_binds_last_known (body : String) :
    ((operationTable body).value = .error (.extractor (.extractionFailed "helper-body")) ↔
      ∀ e ∈ splitEntries body.toList, classify e.implementation = none) ∧
    ((∃ e ∈ splitEntries body.toList, classify e.implementation ≠ none) →
      ∃ table, (operationTable body).value = .ok table ∧ table.keys.Nodup ∧
        (∀ name, name ∈ table.keys ↔ ∃ e ∈ splitEntries body.toList,
          String.ofList e.name = name ∧ classify e.implementation ≠ none) ∧
        (∀ name, table.get? name = lastKnown? (splitEntries body.toList) name) ∧
        ∀ code : String,
          ((∃ t, (compileTransform code table).value = .ok t) ↔
            ∃ instructions, parseInstructions code = .ok instructions ∧ instructions ≠ []) ∧
          ∀ t instructions, (compileTransform code table).value = .ok t →
            parseInstructions code = .ok instructions → ∀ v : String,
              t.apply v = String.ofList
                (instructions.foldl (callLast (splitEntries body.toList)) v.toList)) := by
  have hvalue := operationTable_value body
  generalize splitEntries body.toList = entries at hvalue ⊢
  constructor
  · rw [← isEmpty_knownOperations, hvalue]
    constructor
    · intro h
      split at h
      · next hempty => exact hempty
      · cases h
    · intro hempty
      rw [if_pos hempty]
      rfl
  · rintro ⟨e, he, hknown⟩
    have hne : ¬ (knownOperations entries).isEmpty = true := fun hempty =>
      hknown (isEmpty_knownOperations.mp hempty e he)
    rw [if_neg hne] at hvalue
    refine ⟨knownOperations entries, hvalue, nodup_knownOperations entries,
      fun name => mem_keys_knownOperations, get?_knownOperations entries, fun code => ⟨?_, ?_⟩⟩
    · constructor
      · rintro ⟨t, ht⟩
        obtain ⟨instructions, hparse, hcalls, -⟩ := compileTransform_eq_ok_iff.mp ht
        exact ⟨instructions, hparse, hcalls⟩
      · rintro ⟨instructions, hparse, hcalls⟩
        exact ⟨_, compileTransform_calls hparse hcalls _⟩
    · intro t instructions ht hparse v
      obtain ⟨is, his, -, rfl⟩ := compileTransform_eq_ok_iff.mp ht
      obtain rfl : is = instructions := by simpa [hparse] using his.symm
      rw [Transform.apply, foldl_callLast]

/-- A helper in which a name has two known entries and one of an unknown shape behind them. -/
def repeatedHelper : String :=
  "AB:function(a)\x7ba.reverse()\x7d,'AB':(a,b)=>\x7ba.splice(0,b)\x7d," ++
    "AB:function(a)\x7ba.sort()\x7d,Ef:function(a)\x7ba.sort()\x7d"

/-- The second of the two decides, and the call of a name without a known entry is passed over. -/
theorem table_binds_last_known_repeated :
    (∃ e ∈ splitEntries repeatedHelper.toList, classify e.implementation ≠ none) ∧
    ∃ table t, (operationTable repeatedHelper).value = .ok table ∧
      table.get? "AB" = some .dropPrefix ∧ "Ef" ∉ table.keys ∧
      (compileTransform "Xy[\"AB\"](a,2);Xy.Ef(a,3)" table).value = .ok t ∧
      t.apply "abcdef" = "cdef" := by
  have hentries : splitEntries repeatedHelper.toList =
      [⟨"AB".toList, "function(a)\x7ba.reverse()\x7d".toList⟩,
        ⟨"AB".toList, "(a,b)=>\x7ba.splice(0,b)\x7d".toList⟩,
        ⟨"AB".toList, "function(a)\x7ba.sort()\x7d".toList⟩,
        ⟨"Ef".toList, "function(a)\x7ba.sort()\x7d".toList⟩] := by
    decide +kernel
  have hparse : parseInstructions "Xy[\"AB\"](a,2);Xy.Ef(a,3)" = .ok [⟨"AB", 2⟩, ⟨"Ef", 3⟩] := by
    decide +kernel
  have hknown : ∃ e ∈ splitEntries repeatedHelper.toList, classify e.implementation ≠ none := by
    rw [hentries]
    decide +kernel
  obtain ⟨table, htable, -, hkeys, hget, hcode⟩ := (table_binds_last_known repeatedHelper).2 hknown
  obtain ⟨haccepts, hruns⟩ := hcode "Xy[\"AB\"](a,2);Xy.Ef(a,3)"
  obtain ⟨t, ht⟩ := haccepts.mpr ⟨_, hparse, by simp⟩
  refine ⟨hknown, table, t, htable, ?_, ?_, ht, ?_⟩
  · rw [hget, hentries]
    decide +kernel
  · rw [hkeys, hentries]
    decide +kernel
  · rw [hruns t _ ht hparse, hentries]
    decide +kernel

end StreamResolver.Cipher
