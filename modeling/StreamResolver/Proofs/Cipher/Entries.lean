/-
  Entries of a helper are cut where they were joined.

  A written entry is a name, perhaps quoted, a colon and a function.  Entries are joined by runs of
  commas and blanks, and `splitEntries` cuts the joined text at the heads of entries alone: it knows
  nothing of brackets or of what ends a function.

  That it finds the right heads comes from three facts.  At the last separator in front of an entry
  (and at the start of the text) the expression for a head takes just the name and the colon
  (`takes_entryName`).  At the separators before, no head starts, because a name follows a head's
  first character (`barren_separators`).  And no head starts in a function: whatever lies ahead of
  a head holds no brace (`entryHead_reads`), a function ends in one, so such a head would be a head
  in the function alone (`barren_function`).  Hence the heads are those that were written
  (`divided_more`), and what is between them is the functions (`splitEntries_joined`).
-/
import StreamResolver.Proofs.Cipher.ScriptText
import StreamResolver.Proofs.Text.Trimming

namespace StreamResolver.Cipher

open Text Pattern

/-! ## Written entries -/

/-- How the name of an entry is quoted. -/
inductive Quotation where
  | bare
  | double
  | single
  deriving DecidableEq, Repr

/-- The mark on both sides of a name. -/
def Quotation.mark : Quotation → List Char
  | .bare => []
  | .double => ['"']
  | .single => ['\'']

namespace Quotation

theorem all_mark (q : Quotation) : ∀ c ∈ q.mark, quoteMark.has c = true := by
  cases q <;> simp [mark, quoteMark]

theorem length_mark (q : Quotation) : q.mark.length ≤ 1 := by
  cases q <;> decide

/-- Every text of at most one mark is one of these. -/
theorem exists_mark {w : List Char} (hw : ∀ c ∈ w, quoteMark.has c = true) (hlen : w.length ≤ 1) :
    ∃ q : Quotation, q.mark = w := by
  rcases w with _ | ⟨c, _ | ⟨d, w⟩⟩
  · exact ⟨.bare, rfl⟩
  · rcases quoteMark_cases (hw c List.mem_cons_self) with rfl | rfl
    · exact ⟨.double, rfl⟩
    · exact ⟨.single, rfl⟩
  · simp at hlen

end Quotation

/-- A text begins as a function does: with the word and no further letter, or with a bracket and a
    name in it. -/
inductive OpensFunction (s : List Char) : Prop where
  | word (rest : List Char) (h : s = "function".toList ++ rest)
      (hend : ∀ c ∈ rest.head?, isWord c = false)
  | arrow (gap : Gap) (c : Char) (rest : List Char) (h : s = '(' :: (gap.chars ++ c :: rest))
      (hc : nameChar.has c = true)

/-- The word with a bracket behind it. -/
theorem OpensFunction.of_bracket {s : List Char} (rest : List Char)
    (h : s = "function".toList ++ '(' :: rest) : OpensFunction s := by
  refine .word ('(' :: rest) h fun c hc => ?_
  obtain rfl : '(' = c := Option.some.inj hc
  decide

/-- An entry as it is written.  Its function may hold anything, closing braces and commas too, but
    nothing that is itself the head of an entry. -/
structure WrittenEntry where
  name : Ident
  quotation : Quotation
  implementation : List Char
  opens : OpensFunction implementation
  closes : implementation.getLast? = some '\x7d'
  headless : entryHead.occursIn implementation = false

namespace WrittenEntry

/-- The name and the colon. -/
def head (e : WrittenEntry) : List Char :=
  e.quotation.mark ++ (e.name.chars ++ (e.quotation.mark ++ [':']))

def text (e : WrittenEntry) : List Char := e.head ++ e.implementation

/-- What the entry is read as. -/
def entry (e : WrittenEntry) : Entry := ⟨e.name.chars, e.implementation⟩

end WrittenEntry

/-- A run of separators: the last one and those in front of it. -/
structure Separators where
  front : List Char
  last : Char
  all : ∀ c ∈ front ++ [last], isSeparator c = true

def Separators.text (s : Separators) : List Char := s.front ++ [s.last]

/-- Entries behind the first one, each with the separators in front of it. -/
abbrev MoreEntries := List (Separators × WrittenEntry)

def MoreEntries.text (more : MoreEntries) : List Char := more.flatMap fun (s, e) => s.text ++ e.text

/-! ## Heads that were written -/

/-- What stands in front of the name of an entry, unless it is the first one. -/
def entryStart : CharSet := .union [.char ',', .char '\x7b', .blank]

/-- How a function begins. -/
def functionStart : Pattern :=
  .alt (.seq (.word "function") (.wordEdge false))
    (.sequence [.word "(", .many .blank, .some1 nameChar])

/-- The head of an entry from its name on. -/
def entryName : List Pattern :=
  [.capture 1 (.span false 0 (some 1) quoteMark), .capture 2 (.some1 nameChar), .recall false 1,
   .many .blank, .one (.char ':'), .many .blank, .ahead false functionStart]

/-- The text of a head from its name on, with blanks at both sides of the colon. -/
structure HeadText where
  quotation : Quotation
  name : Stretch nameChar
  gap : Gap
  gap' : Gap

def HeadText.text (h : HeadText) : List Char :=
  h.quotation.mark ++ (h.name.chars ++ (h.quotation.mark ++ (h.gap.chars ++ ':' :: h.gap'.chars)))

theorem OpensFunction.no_blank {s : List Char} (h : OpensFunction s) :
    ∀ c ∈ s.head?, CharSet.blank.has c = false := by
  rcases h with ⟨rest, rfl, -⟩ | ⟨gap, c, rest, rfl, -⟩
  · exact head?_append_not (c := 'f') (by decide) (by decide) rest
  · exact head?_cons_not (by decide) _

/-- The look ahead finds the start of a function. -/
theorem takes_functionStart {look : List Char} (h : OpensFunction look) (before : List Char)
    (caps : Captures) : (ahead false functionStart).Takes before caps [] look caps := by
  rcases h with ⟨rest, rfl, hend⟩ | ⟨gap, c, rest, rfl, hc⟩
  · -- the word
    have hedge : (wordEdge false).Takes ("function".toList.reverse ++ before) caps [] rest caps := by
      simp only [String.reduceToList]
      refine takes_wordEdge (c := 'n') ?_
      rcases rest with _ | ⟨d, rest⟩
      · decide
      · rw [List.head?_cons, Option.any_some, hend d rfl]
        decide
    have hword : (sequence [word "function", wordEdge false]).Takes before caps
        ("function".toList ++ []) rest caps := takes_cons (takes_text _ _ _ _) hedge
    rw [List.append_nil] at hword
    exact takes_ahead (takes_left hword)
  · -- the bracket and all of the name in it
    have hall : ∀ x ∈ (c :: rest).takeWhile nameChar.has, nameChar.has x = true :=
      List.all_eq_true.mp List.all_takeWhile
    have hstop : ∀ x ∈ ((c :: rest).dropWhile nameChar.has).head?, nameChar.has x = false :=
      fun x hx => head?_dropWhile (Option.mem_def.mp hx)
    have hlen : 1 ≤ ((c :: rest).takeWhile nameChar.has).length := by
      rw [List.takeWhile_cons_of_pos hc]
      simp
    have hsplit : c :: rest = (c :: rest).takeWhile nameChar.has ++
        (c :: rest).dropWhile nameChar.has := List.takeWhile_append_dropWhile.symm
    have hlook : '(' :: (gap.chars ++ c :: rest) =
        ('(' :: (gap.chars ++ (c :: rest).takeWhile nameChar.has)) ++
          (c :: rest).dropWhile nameChar.has := by
      rw [List.cons_append, List.append_assoc, ← hsplit]
    rw [hlook]
    refine takes_ahead (takes_right ?_ ?_)
    · rintro pos t ⟨m, hm, -⟩
      have hafter := (leads_literal hm).after_eq
      simp at hafter
    · refine takes_cons (u := ['(']) (takes_text _ _ _ _) ?_
      refine takes_blanks gap ?_ (takes_span hall hlen (by simp) hstop _ _)
      rw [← hsplit]
      exact head?_cons_not (nameChar_blank c hc) rest

/-- **A written head is taken whole**, with its quotation and its name as captures. -/
theorem takes_entryName (h : HeadText) {look : List Char} (hlook : OpensFunction look)
    (before : List Char) : (sequence entryName).Takes before [] h.text look
      [(2, h.name.chars), (1, h.quotation.mark)] := by
  have hfirst : ∀ d ∈ ((h.name.chars ++ (h.quotation.mark ++
      (h.gap.chars ++ ':' :: h.gap'.chars))) ++ look).head?, quoteMark.has d = false := by
    rw [List.append_assoc]
    exact h.name.head?_append_not nameChar_quoteMark _
  have hmark : ∀ d ∈ ((h.quotation.mark ++ (h.gap.chars ++ ':' :: h.gap'.chars)) ++ look).head?,
      nameChar.has d = false := by
    rw [← List.append_assoc, List.append_assoc, List.cons_append]
    refine head?_run_not ?_ (by decide) _
    intro d hd
    rcases List.mem_append.mp hd with hd | hd
    · exact nameChar_quoteMark.symm d (h.quotation.all_mark d hd)
    · exact nameChar_blank.symm d (h.gap.all d hd)
  refine takes_cons (takes_capture (takes_span h.quotation.all_mark (Nat.zero_le _)
    (by simpa using h.quotation.length_mark) hfirst _ _)) ?_
  refine takes_cons (takes_capture (takes_stretch h.name hmark _ _)) ?_
  refine takes_cons (takes_recall rfl) ?_
  refine takes_blanks h.gap (head?_cons_not (by decide) _) (takes_char ?_)
  rw [← List.append_nil h.gap'.chars]
  exact takes_blanks h.gap' hlook.no_blank (takes_functionStart hlook _ _)

theorem HeadText.text_ne (h : HeadText) : h.text ≠ [] := by
  simp [HeadText.text]

/-- A head at the start of a text. -/
theorem takes_firstHead (h : HeadText) {look : List Char} (hlook : OpensFunction look) :
    entryHead.Takes [] [] h.text look [(2, h.name.chars), (1, h.quotation.mark)] :=
  takes_cons (u := []) (takes_left (takes_textStart _ _)) (takes_entryName h hlook [])

/-- A head behind some text, with the character in front of it. -/
theorem takes_nextHead (h : HeadText) {look : List Char} (hlook : OpensFunction look) {d : Char}
    (hd : entryStart.has d = true) {before : List Char} (hbefore : before ≠ []) :
    entryHead.Takes before [] (d :: h.text) look [(2, h.name.chars), (1, h.quotation.mark)] := by
  refine takes_cons (u := [d]) (takes_right ?_ (takes_one hd _ _ _)) (takes_entryName h hlook _)
  rintro pos t ⟨-, hstart⟩
  exact hbefore hstart

/-! ## What lies ahead of a head -/

theorem functionStart_reads {s t : Place} (h : functionStart.Leads s t) :
    OpensFunction s.after := by
  rcases h with ⟨m, hword, rfl, hedge⟩ | h
  · have hreads := leads_literal hword
    refine .word t.after hreads.after_eq fun c hc => ?_
    have hlast : t.before.head?.any isWord = true := by
      rw [hreads.before_eq]
      rfl
    rw [Place.atWordEdge, hlast, Option.mem_def.mp hc, Option.any_some] at hedge
    simpa using hedge
  · obtain ⟨m₁, hword, h⟩ := leads_sequence_cons h
    obtain ⟨m₂, hblank, hname⟩ := leads_sequence_cons h
    obtain ⟨gap, hgap⟩ := many_blank_reads hblank
    obtain ⟨name, hreads⟩ := some1_reads hname
    obtain ⟨c, w, hw⟩ := List.exists_cons_of_ne_nil name.chars_ne
    refine .arrow gap c (w ++ t.after) ?_ (name.all c (hw ▸ List.mem_cons_self))
    rw [(leads_literal hword).after_eq, hgap.after_eq, hreads.after_eq, hw]
    rfl

/-- What lies ahead of a way of an entry's name: the text of a head, and a function. -/
theorem entryName_reads {s t : Place} (h : (sequence entryName).Leads s t) :
    ∃ (head : HeadText) (look : List Char), s.after = head.text ++ look ∧ OpensFunction look := by
  obtain ⟨_, ⟨m₁, ⟨w₁, hw₁, -, hmax, hreads₁⟩, rfl⟩, h⟩ := leads_sequence_cons h
  obtain ⟨_, ⟨m₂, hname, rfl⟩, h⟩ := leads_sequence_cons h
  obtain ⟨m₃, ⟨text, w₃, htext, hsame, hreads₃⟩, h⟩ := leads_sequence_cons h
  obtain ⟨m₄, hgap, h⟩ := leads_sequence_cons h
  obtain ⟨m₅, hcolon, h⟩ := leads_sequence_cons h
  obtain ⟨m₆, hgap', m₇, hfunction, -⟩ := leads_sequence_cons h
  obtain ⟨name, hreads₂⟩ := some1_reads hname
  obtain ⟨gap, hreads₄⟩ := many_blank_reads hgap
  obtain ⟨gap', hreads₆⟩ := many_blank_reads hgap'
  obtain ⟨q, rfl⟩ := Quotation.exists_mark hw₁ (by simpa using hmax 1 rfl)
  -- the recalled text is the mark once more
  have hmark : w₃ = q.mark := by
    have hcaps : m₂.captures = (1, s.textTo m₁) :: m₁.captures := hreads₂.captures_eq
    have htext' : s.textTo m₁ = text := by
      simpa [Place.captured?, Place.record, hcaps] using htext
    rw [hsame rfl, ← htext', Place.textTo, hreads₁.after_eq, hreads₁.pos_eq,
      Nat.add_sub_cancel_left]
    exact List.take_left
  refine ⟨⟨q, name, gap, gap'⟩, m₆.after, ?_, functionStart_reads hfunction⟩
  rw [hreads₁.after_eq, show m₁.after = name.chars ++ m₂.after from hreads₂.after_eq,
    show m₂.after = w₃ ++ m₃.after from hreads₃.after_eq, hreads₄.after_eq,
    (char_reads hcolon).after_eq, hreads₆.after_eq, hmark, HeadText.text]
  simp only [List.append_assoc, List.cons_append, List.nil_append]

/-- What lies ahead of a way that does not begin at the start of the text. -/
theorem entryHead_reads {s t : Place} (hbefore : s.before ≠ []) (h : entryHead.Leads s t) :
    ∃ (d : Char) (head : HeadText) (look : List Char), entryStart.has d = true ∧
      s.after = d :: head.text ++ look ∧ OpensFunction look := by
  obtain ⟨m, hm, h⟩ := leads_sequence_cons h
  obtain ⟨head, look, hafter, hlook⟩ := entryName_reads h
  rcases hm with ⟨-, hstart⟩ | hm
  · exact absurd hstart hbefore
  · obtain ⟨d, hd, hnext⟩ := leads_one hm
    exact ⟨d, head, look, hd, by rw [hnext, hafter]; rfl, hlook⟩

/-! ## Where no head begins -/

/-- A front part without an `x` ends before any `x` comes. -/
theorem exists_before {p r y z : List Char} {x : Char} (hx : x ∉ p) (h : p ++ r = y ++ x :: z) :
    ∃ y', y = p ++ y' ∧ r = y' ++ x :: z := by
  rcases List.append_eq_append_iff.mp h with ⟨w, rfl, rfl⟩ | ⟨w, rfl, hw⟩
  · exact ⟨w, rfl, rfl⟩
  · rcases w with _ | ⟨c, w⟩
    · exact ⟨[], by simp, by simpa using hw.symm⟩
    · obtain ⟨rfl, -⟩ := List.cons_eq_cons.mp hw
      exact absurd (List.mem_append_right y List.mem_cons_self) hx

/-- A head has no closing brace. -/
theorem HeadText.no_brace (h : HeadText) : '\x7d' ∉ h.text := by
  have hmark : '\x7d' ∉ h.quotation.mark := by cases h.quotation <;> decide
  simp [text, hmark, h.name.not_mem (x := '\x7d') (by decide),
    h.gap.not_mem (x := '\x7d') (by decide), h.gap'.not_mem (x := '\x7d') (by decide)]

/-- What is behind a closing brace does not matter to the start of a function. -/
theorem OpensFunction.of_brace {y rest : List Char} (h : OpensFunction (y ++ '\x7d' :: rest))
    (rest' : List Char) : OpensFunction (y ++ '\x7d' :: rest') := by
  rcases h with ⟨more, hsplit, hend⟩ | ⟨gap, c, more, hsplit, hc⟩
  · obtain ⟨y', rfl, rfl⟩ := exists_before (by decide) hsplit.symm
    refine .word (y' ++ '\x7d' :: rest') (by rw [List.append_assoc]) ?_
    rcases y' with _ | ⟨d, y'⟩
    · exact hend
    · exact hend
  · have hbrace : '\x7d' ∉ '(' :: (gap.chars ++ [c]) := by
      have hne : '\x7d' ≠ c := by
        rintro rfl
        exact absurd hc (by decide)
      simp [gap.not_mem (x := '\x7d') (by decide), hne]
    have hsplit' : '(' :: (gap.chars ++ [c]) ++ more = y ++ '\x7d' :: rest := by
      rw [hsplit]
      simp
    obtain ⟨y', rfl, -⟩ := exists_before hbrace hsplit'
    exact .arrow gap c (y' ++ '\x7d' :: rest') (by simp) hc

theorem OpensFunction.no_entryStart {s : List Char} (h : OpensFunction s) :
    ∀ c ∈ s.head?, entryStart.has c = false := by
  rcases h with ⟨rest, rfl, -⟩ | ⟨gap, c, rest, rfl, -⟩
  · exact head?_append_not (c := 'f') (by decide) (by decide) rest
  · exact head?_cons_not (by decide) _

theorem WrittenEntry.opens_append (e : WrittenEntry) (rest : List Char) :
    OpensFunction (e.implementation ++ rest) := by
  obtain ⟨y, himpl⟩ := List.getLast?_eq_some_iff.mp e.closes
  have hopens := e.opens
  rw [himpl] at hopens ⊢
  rw [List.append_assoc]
  exact hopens.of_brace rest

/-- **No head begins in a function**, for it would be a head in the function alone. -/
theorem barren_function (e : WrittenEntry) {before : List Char} (hbefore : before ≠ [])
    (rest : List Char) : entryHead.Barren before e.implementation rest := by
  intro u v huv hv pos caps t hleads
  have hback : u.reverse ++ before ≠ [] := fun h => hbefore (List.append_eq_nil_iff.mp h).2
  obtain ⟨d, head, look, hd, hafter, hlook⟩ := entryHead_reads hback hleads
  -- the function ends in a brace, so the head and the start of its function are in front of it
  obtain ⟨y, himpl⟩ := List.getLast?_eq_some_iff.mp e.closes
  obtain ⟨x, rfl, rfl⟩ := tail_of_last (himpl.symm.trans huv) hv
  have hbrace : '\x7d' ∉ d :: head.text := by
    have hne : '\x7d' ≠ d := by
      rintro rfl
      revert hd
      decide
    simp [hne, head.no_brace]
  have hahead : (d :: head.text) ++ look = x ++ '\x7d' :: rest := by
    rw [← hafter]
    simp
  obtain ⟨x', rfl, rfl⟩ := exists_before hbrace hahead
  have himpl' : e.implementation = u ++ ((d :: head.text) ++ (x' ++ ['\x7d'])) := by
    rw [huv, List.append_assoc]
  have hu : u.reverse ≠ [] := by
    intro h
    obtain rfl : u = [] := List.reverse_eq_nil_iff.mp h
    have hstart := e.opens.no_entryStart d (by rw [himpl']; rfl)
    rw [hd] at hstart
    cases hstart
  have hfound := occursIn_of_takes (takes_nextHead head (hlook.of_brace []) hd hu) (by simp)
  rw [← himpl', e.headless] at hfound
  cases hfound

theorem separator_classes {c : Char} (h : isSeparator c = true) :
    entryStart.has c = true ∧ nameChar.has c = false ∧ quoteMark.has c = false := by
  simp only [isSeparator, Bool.or_eq_true, beq_iff_eq] at h
  rcases h with (((rfl | rfl) | rfl) | rfl) | rfl <;> decide

/-- The first character of a head is no separator. -/
theorem HeadText.no_separator (h : HeadText) (rest : List Char) :
    ∀ c ∈ (h.text ++ rest).head?, isSeparator c = false := by
  intro c hc
  have hclass : quoteMark.has c = true ∨ nameChar.has c = true := by
    rw [text, List.append_assoc] at hc
    rcases hmark : h.quotation.mark with _ | ⟨m, mark⟩
    · obtain ⟨d, name, hname⟩ := List.exists_cons_of_ne_nil h.name.chars_ne
      rw [hmark, hname] at hc
      obtain rfl : d = c := by simpa using hc
      exact .inr (h.name.all d (hname ▸ List.mem_cons_self))
    · rw [hmark] at hc
      obtain rfl : m = c := by simpa using hc
      exact .inl (h.quotation.all_mark m (hmark ▸ List.mem_cons_self))
  rcases hseparator : isSeparator c with _ | _
  · rfl
  · obtain ⟨-, hname, hquote⟩ := separator_classes hseparator
    simp [hname, hquote] at hclass

/-- No head begins at a separator with another one behind it. -/
theorem barren_separators (s : Separators) {before : List Char} (hbefore : before ≠ [])
    (rest : List Char) : entryHead.Barren before s.front (s.last :: rest) := by
  intro u v huv hv pos caps t hleads
  have hback : u.reverse ++ before ≠ [] := fun h => hbefore (List.append_eq_nil_iff.mp h).2
  obtain ⟨d, head, look, -, hafter, -⟩ := entryHead_reads hback hleads
  obtain ⟨x, v, rfl⟩ := List.exists_cons_of_ne_nil hv
  have hnext : v ++ s.last :: rest = head.text ++ look := (List.cons_eq_cons.mp hafter).2
  obtain ⟨c, hc, hseparator⟩ : ∃ c ∈ (head.text ++ look).head?, isSeparator c = true := by
    rw [← hnext]
    rcases v with _ | ⟨y, v⟩
    · exact ⟨s.last, rfl, s.all s.last (by simp)⟩
    · exact ⟨y, rfl, s.all y (by simp [huv])⟩
  rw [head.no_separator look c hc] at hseparator
  cases hseparator

/-! ## The entries are found again -/

namespace WrittenEntry

/-- The head as it is read. -/
def headText (e : WrittenEntry) : HeadText :=
  ⟨e.quotation, ⟨e.name.chars, e.name.chars_ne, e.name.all_nameChar⟩, .none, .none⟩

/-- What is captured of the head. -/
def captures (e : WrittenEntry) : Captures := [(2, e.name.chars), (1, e.quotation.mark)]

end WrittenEntry

namespace MoreEntries

/-- The heads behind an entry, with what stands in front of them. -/
def parts : WrittenEntry → MoreEntries → List Part
  | _, [] => []
  | e, (s, f) :: more =>
    (e.implementation ++ s.front, s.last :: f.head, f.captures) :: parts f more

/-- The last function. -/
def tail : WrittenEntry → MoreEntries → List Char
  | e, [] => e.implementation
  | _, (_, f) :: more => tail f more

theorem text_cons (s : Separators) (f : WrittenEntry) (more : MoreEntries) :
    text ((s, f) :: more) = s.front ++ ((s.last :: f.head) ++ (f.implementation ++ text more)) := by
  simp only [text, List.flatMap_cons, Separators.text, WrittenEntry.text, List.append_assoc,
    List.cons_append, List.nil_append]

theorem divided_more (e : WrittenEntry) (more : MoreEntries) {before : List Char}
    (hbefore : before ≠ []) :
    entryHead.Divided before (e.implementation ++ text more) (parts e more) (tail e more) := by
  induction more generalizing e before with
  | nil =>
    rw [text, List.flatMap_nil, List.append_nil]
    exact .tail (barren_function e hbefore []) (halts_of_needs (x := ':') (by decide) _)
  | cons entry more ih =>
    obtain ⟨s, f⟩ := entry
    have hback : e.implementation.reverse ++ before ≠ [] := by simp [hbefore]
    have hback' : (e.implementation ++ s.front).reverse ++ before ≠ [] := by simp [hbefore]
    have hbarren := (barren_function e hbefore _).append
      (barren_separators s hback (f.head ++ (f.implementation ++ text more)))
    rw [text_cons, ← List.append_assoc]
    refine .part hbarren ?_ (by simp) (ih f (by simp))
    have hlast := (separator_classes (s.all s.last (by simp))).1
    exact takes_nextHead f.headText (f.opens_append _) hlast hback'

end MoreEntries

/-- The name in the head of an entry. -/
theorem group?_name {found : Found} {e : WrittenEntry} (h : found.stop.captures = e.captures) :
    (found.group? 2).getD [] = e.name.chars := by
  rw [group?_eq h (by decide)]
  rfl

/-- Separators behind a function are trimmed, and nothing of the function. -/
theorem trimEnd_function (e : WrittenEntry) (run : List Char)
    (hrun : ∀ c ∈ run, isSeparator c = true) :
    trimEnd isSeparator (e.implementation ++ run) = e.implementation := by
  refine trimEnd_append hrun fun c hc => ?_
  rw [e.closes] at hc
  obtain rfl : '\x7d' = c := Option.some.inj hc
  decide

theorem entriesFrom_heads (e : WrittenEntry) (more : MoreEntries)
    {heads : List (List Char × Found)} {pre w : List Char}
    (h : heads.map (fun g => (g.1, g.2.text, g.2.stop.captures)) =
      (pre, w, e.captures) :: more.parts e) :
    entriesFrom heads (more.tail e) = e.entry :: more.map (·.2.entry) := by
  induction more generalizing e heads pre w with
  | nil =>
    obtain ⟨head, rest, rfl, hhead, hrest⟩ := List.map_eq_cons_iff.mp h
    obtain rfl : rest = [] := List.map_eq_nil_iff.mp hrest
    have hcaps : head.2.stop.captures = e.captures := (Prod.mk.inj (Prod.mk.inj hhead).2).2
    have htrim := trimEnd_function e [] (by simp)
    rw [List.append_nil] at htrim
    rw [entriesFrom, group?_name hcaps, MoreEntries.tail, htrim]
    rfl
  | cons entry more ih =>
    obtain ⟨s, f⟩ := entry
    obtain ⟨head, rest, rfl, hhead, hrest⟩ := List.map_eq_cons_iff.mp h
    have hentries := ih f hrest
    obtain ⟨next, rest, rfl, hnext, -⟩ := List.map_eq_cons_iff.mp hrest
    have hcaps : head.2.stop.captures = e.captures := (Prod.mk.inj (Prod.mk.inj hhead).2).2
    have hpassed : next.1 = e.implementation ++ s.front := (Prod.mk.inj hnext).1
    have htrim := trimEnd_function e s.front fun c hc => s.all c (by simp [hc])
    rw [entriesFrom, group?_name hcaps, MoreEntries.tail, hentries, hpassed, htrim]
    rfl

/-- Joined entries are read as what they are. -/
theorem splitEntries_joined (first : WrittenEntry) (more : MoreEntries) :
    splitEntries (first.text ++ more.text) = first.entry :: more.map (·.2.entry) := by
  have hdivided : entryHead.Divided [] (first.text ++ more.text)
      (([], first.head, first.captures) :: more.parts first) (more.tail first) := by
    have hfront := barren_nil entryHead [] (first.head ++ (first.implementation ++ more.text))
    rw [WrittenEntry.text, List.append_assoc]
    exact .part hfront (takes_firstHead first.headText (first.opens_append _))
      first.headText.text_ne (more.divided_more first (by simp [WrittenEntry.head]))
  obtain ⟨heads, hcuts, hparts⟩ := cuts_of_divided hdivided
  rw [splitEntries, hcuts]
  exact entriesFrom_heads first more hparts

/-- Entries with separators between them, one entry at least. -/
structure JoinedEntries where
  first : WrittenEntry
  more : MoreEntries

namespace JoinedEntries

def text (j : JoinedEntries) : List Char := j.first.text ++ j.more.text

def entries (j : JoinedEntries) : List WrittenEntry := j.first :: j.more.map (·.2)

/-- **Cutting inverts joining.**  Whatever stands in the functions and however long the separators
    are, the names come back without their quotation, the functions as they were, in order. -/
theorem splitEntries_text (j : JoinedEntries) :
    splitEntries j.text = j.entries.map fun e => ⟨e.name.chars, e.implementation⟩ := by
  rw [text, splitEntries_joined, entries, List.map_cons, List.map_map]
  rfl

/-- Two entries of which the first has a closing brace with a comma behind it in its function. -/
def sample : JoinedEntries where
  first := {
    name := .of ['K', '1'] (by decide)
    quotation := .double
    implementation := "function(a)\x7bif(a)\x7ba.b()\x7d,c:a\x7d".toList
    opens := .of_bracket "a)\x7bif(a)\x7ba.b()\x7d,c:a\x7d".toList rfl
    closes := by decide
    headless := by decide +kernel }
  more := [(⟨[',', '\n', ','], ' ', by simp [isSeparator]⟩, {
    name := .of ['_', '$'] (by decide)
    quotation := .bare
    implementation := "(a,b)=>\x7ba.splice(0,b)\x7d".toList
    opens := .arrow .none 'a' ",b)=>\x7ba.splice(0,b)\x7d".toList rfl (by decide)
    closes := by decide
    headless := by decide +kernel })]

example : String.ofList sample.text =
    "\"K1\":function(a)\x7bif(a)\x7ba.b()\x7d,c:a\x7d,\n, _$:(a,b)=>\x7ba.splice(0,b)\x7d" := by
  decide +kernel

end JoinedEntries

end StreamResolver.Cipher
