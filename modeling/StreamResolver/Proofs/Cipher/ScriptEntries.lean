/-
  The helper of a player script is read.

  The functions of the helper are entries joined by commas, some with a line feed behind them, so
  the helper is cut into them (`splitEntries_helperText`).  Each function is recognised by its
  shape, and the table binds every name to the operation of its function
  (`operationTable_helperText`).
-/
import StreamResolver.Proofs.Cipher.Entries
import StreamResolver.Proofs.Cipher.Extraction

namespace StreamResolver.Cipher

open Text Pattern Reporting

/-! ## The functions as entries -/

theorem Shape.opensFunction (s : Shape) : OpensFunction s.text.toList := by
  cases s <;> exact .of_bracket _ rfl

theorem Shape.closed (s : Shape) : s.text.toList.getLast? = some '\x7d' := by
  cases s <;> decide

/-- Nothing in a function reads as the head of an entry. -/
theorem Shape.headless (s : Shape) : entryHead.occursIn s.text.toList = false := by
  cases s <;> decide +kernel

namespace HelperFunction

/-- The function as an entry.  No name is quoted. -/
def written (f : HelperFunction) : WrittenEntry where
  name := f.name
  quotation := .bare
  implementation := f.shape.text.toList
  opens := f.shape.opensFunction
  closes := f.shape.closed
  headless := f.shape.headless

theorem text_written (f : HelperFunction) : f.written.text = f.text := by
  simp [WrittenEntry.text, WrittenEntry.head, written, Quotation.mark, text]

/-- What stands between the function and the one before it. -/
def separators (f : HelperFunction) : Separators :=
  if f.onNewLine then ⟨[','], '\n', by simp [isSeparator]⟩ else ⟨[], ',', by simp [isSeparator]⟩

theorem text_separators (f : HelperFunction) : f.separators.text = f.separator := by
  unfold separators separator
  cases f.onNewLine <;> rfl

/-- The functions behind the first one. -/
def moreWritten (fs : List HelperFunction) : MoreEntries := fs.map fun f => (f.separators, f.written)

theorem text_moreWritten (fs : List HelperFunction) : (moreWritten fs).text = moreText fs := by
  rw [MoreEntries.text, moreWritten, List.flatMap_map, moreText]
  simp only [text_separators, text_written]

/-- The entry of a function. -/
def entry (f : HelperFunction) : Entry := ⟨f.name.chars, f.shape.text.toList⟩

end HelperFunction

/-- **The entries of the helper** are its functions, in order. -/
theorem splitEntries_helperText (p : PlayerScript) :
    splitEntries p.helperText = p.functions.map HelperFunction.entry := by
  obtain ⟨f, more, hfunctions, hhelper⟩ := p.exists_functions
  rw [hhelper, ← f.text_written, ← HelperFunction.text_moreWritten, splitEntries_joined, hfunctions,
    List.map_cons, HelperFunction.moreWritten, List.map_map]
  rfl

/-! ## The table -/

/-- The operation of a function. -/
def Shape.operation : Shape → Operation
  | .reverse => .reverse
  | .dropFront => .dropPrefix
  | .swapByVariable | .swapBySplices => .swapAtOffset
  | .rotate => .rotateLeft

/-- **Every shape is recognised.** -/
theorem classify_text (s : Shape) : classify s.text.toList = some s.operation := by
  cases s <;> decide +kernel

/-- What a function is listed as in the table. -/
def HelperFunction.binding (f : HelperFunction) : String × Operation :=
  (String.ofList f.name.chars, f.shape.operation)

theorem Ident.ofList_inj {i j : Ident} (h : String.ofList i.chars = String.ofList j.chars) :
    i = j := by
  have hchars := congrArg String.toList h
  rw [String.toList_ofList (l := i.chars), String.toList_ofList (l := j.chars)] at hchars
  obtain ⟨_, _, _⟩ := i
  obtain ⟨_, _, _⟩ := j
  simpa using hchars

namespace PlayerScript

variable (p : PlayerScript)

/-- The functions of the helper as a table. -/
def table : OperationTable := p.functions.map HelperFunction.binding

theorem knownOperations_entries :
    knownOperations (p.functions.map HelperFunction.entry) = p.table := by
  have hbindings : ∀ fs : List HelperFunction, (fs.map HelperFunction.entry).filterMap (fun e =>
      (classify e.implementation).map fun op => (String.ofList e.name, op)) =
        fs.map HelperFunction.binding := by
    intro fs
    induction fs with
    | nil => rfl
    | cons f fs ih =>
      rw [List.map_cons, List.map_cons, List.filterMap_cons_some, ih]
      rw [HelperFunction.entry, classify_text]
      rfl
  have hdistinct : p.table.keys.Nodup := by
    have hnames : p.table.keys =
        (p.functions.map HelperFunction.name).map fun i => String.ofList i.chars := by
      simp only [Keyed.keys, table, List.map_map]
      rfl
    rw [hnames]
    exact List.Pairwise.map _ (fun i j hij h => hij (Ident.ofList_inj h)) p.distinct
  rw [knownOperations, hbindings]
  exact Keyed.ofEntries_eq hdistinct

/-- **The table of the helper** binds each name to the operation of its function. -/
theorem operationTable_helperText :
    (operationTable (String.ofList p.helperText)).value = .ok p.table := by
  have hne : p.table.isEmpty = false := by
    rw [table, List.isEmpty_eq_false_iff]
    exact fun h => p.functions_ne (List.map_eq_nil_iff.mp h)
  rw [operationTable_value, String.toList_ofList (l := p.helperText), splitEntries_helperText,
    knownOperations_entries, if_neg (by simp [hne])]

/-- What the table holds for a name. -/
theorem table_get? (i : Ident) : p.table.get? (String.ofList i.chars) =
    (p.functions.find? fun f => f.name = i).map fun f => f.shape.operation := by
  rw [table]
  induction p.functions with
  | nil => rfl
  | cons f fs ih =>
    rw [List.map_cons, HelperFunction.binding, Keyed.get?, ih]
    rcases Decidable.em (f.name = i) with h | h
    · rw [if_pos (by rw [h]), List.find?_cons_of_pos (by simpa using h)]
      rfl
    · rw [if_neg fun hname => h (Ident.ofList_inj hname), List.find?_cons_of_neg (by simpa using h)]

end PlayerScript

end StreamResolver.Cipher
