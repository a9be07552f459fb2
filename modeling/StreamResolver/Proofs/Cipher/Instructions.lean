/-
  The instructions of a function body.

  The body of the transform function is a first line, calls of the helper, and a last line, with
  semicolons between them.  The expression for an instruction takes every call with two arguments
  (`takes_helperCall`) and has no way that starts in a call with a single one, since that has no
  comma; so just the calls with two arguments are read, in order (`parseInstructions_calls`).
-/
import StreamResolver.Proofs.Cipher.CallForms
import StreamResolver.Proofs.Text.Digits

namespace StreamResolver.Cipher

open Text Pattern

/-! ## One call -/

theorem helperCall_eq : helperCall = .sequence (.some1 nameChar ::
    .alt (.sequence [.one (.char '.'), .capture 1 (.some1 nameChar)])
      (.sequence [.one (.char '['), .many .blank, .one quoteMark, .capture 2 (.some1 nameChar),
        .one quoteMark, .many .blank, .one (.char ']')]) ::
    argumentList nameChar (.capture 3 (.some1 .digit))) := rfl

namespace PairCall

variable (c : PairCall)

/-- What is captured of a call. -/
def captures : Captures :=
  [(3, c.second.value.chars), (match c.access with
    | .dotted _ => 1
    | .bracketed .. => 2, c.access.name)]

/-- Whether the second argument has no more digits than are read. -/
def short : Bool := c.second.value.chars.length ≤ maxDigits

/-- The number that the second argument stands for. -/
def argument : Nat := valueOf (c.second.value.chars.map fun d => (digitValue d).getD 0)

/-- The instruction that a call is read as. -/
def instruction : Instruction := ⟨String.ofList c.access.name, c.argument⟩

/-- **A call is taken**, its name as capture 1 or 2 and its argument as capture 3. -/
theorem takes_helperCall (helper : Ident) (before after : List Char) :
    helperCall.Takes before [] (WrittenCall.text helper (.pair c)) after c.captures := by
  obtain ⟨access, first, second⟩ := c
  have harguments : ∀ before caps, (sequence (argumentList nameChar
      (.capture 3 (.some1 .digit)))).Takes before caps
        ('(' :: (first.text ++ ',' :: (second.text ++ [')']))) after
        ((3, second.value.chars) :: caps) := by
    refine fun before caps => takes_argumentList first second (fun _ => nameChar_of_word)
      nameChar_blank (by decide) (fun before rest hstop => ?_) before after
    exact takes_capture (takes_stretch second.value hstop before caps)
  have hhelper : ∀ {x : Char}, nameChar.has x = false → ∀ rest,
      (some1 nameChar).Takes before [] helper.chars (x :: rest) [] := fun hx rest =>
    takes_span helper.all_nameChar helper.one_le_length (by simp) (head?_cons_not hx rest) _ _
  rw [helperCall_eq]
  cases access with
  | dotted name =>
    refine takes_cons (hhelper (by decide) _) (takes_cons (takes_left (takes_char ?_))
      (harguments _ _))
    exact takes_capture (takes_span name.all_nameChar name.one_le_length (by simp)
      (head?_cons_not (by decide) _) _ _)
  | bracketed front opening name closing back hopening hclosing =>
    refine takes_cons (hhelper (by decide) _) (takes_cons (takes_right ?_ (takes_char ?_))
      (harguments _ _))
    · exact fun pos t => not_leads_one (head?_cons_not (c := '[') (by decide) _) t
    refine takes_blanks front (head?_cons_not (quoteMark_blank _ hopening) _) ?_
    refine takes_cons (u := [opening]) (takes_one hopening _ _ _) ?_
    refine takes_cons (takes_capture (takes_stretch name (head?_cons_not ?_ _) _ _)) ?_
    · exact nameChar_quoteMark.symm _ hclosing
    refine takes_cons (u := [closing]) (takes_one hclosing _ _ _) ?_
    exact takes_blanks back (head?_cons_not (by decide) _) (takes_char (takes_end _ _ _))

end PairCall

/-- **A call is read** as its name and its argument, unless the argument is too long. -/
theorem instructionOf_pair {found : Found} {c : PairCall} (h : found.stop.captures = c.captures) :
    instructionOf found =
      if c.short then .ok c.instruction else .error (.fault .unreadableNumeral) := by
  have hdigits : found.group? 3 = some c.second.value.chars := by
    rw [group?_eq h (by decide)]
    rfl
  have hread := readInteger_digits (fun d hd => c.second.value.all d hd) c.second.value.chars_ne
  rw [instructionOf, hdigits, Option.getD_some, hread, PairCall.short]
  by_cases hlong : maxDigits < c.second.value.chars.length
  · rw [if_pos hlong, if_neg (by simpa using hlong)]
  rw [if_neg hlong, if_pos (by simpa using hlong), PairCall.instruction, PairCall.argument]
  obtain ⟨access, first, second⟩ := c
  cases access with
  | dotted name =>
    obtain ⟨x, rest, hname, -⟩ := name.exists_cons
    have hfirst : found.group? 1 = some name.chars := by
      rw [group?_eq h (by decide)]
      rfl
    simp only [hfirst, hname, NameAccess.name]
  | bracketed front opening name closing back hopening hclosing =>
    have hfirst : found.group? 1 = none := by
      rw [group?_eq h (by decide)]
      rfl
    have hsecond : found.group? 2 = some name.chars := by
      rw [group?_eq h (by decide)]
      rfl
    simp only [hfirst, hsecond, Option.getD_some, NameAccess.name]

/-- Calls that are found are read one by one. -/
theorem mapM_instructionOf {founds : List Found} {cs : List PairCall}
    (h : founds.map (·.stop.captures) = cs.map PairCall.captures) :
    founds.mapM instructionOf = if cs.all PairCall.short then .ok (cs.map PairCall.instruction)
      else .error (.fault .unreadableNumeral) := by
  induction founds generalizing cs with
  | nil =>
    obtain rfl : cs = [] := List.map_eq_nil_iff.mp h.symm
    rfl
  | cons found founds ih =>
    obtain ⟨c, cs, rfl, hc, hcs⟩ := List.map_eq_cons_iff.mp h.symm
    rw [List.mapM_cons, instructionOf_pair hc.symm, ih hcs.symm, List.all_cons]
    cases c.short
    · rfl
    · cases cs.all PairCall.short <;> rfl

/-! ## The body of a function -/

namespace WrittenCall

def pair? : WrittenCall → Option PairCall
  | pair c => some c
  | single _ _ => none

/-- The calls, each with a semicolon behind it. -/
def closed (helper : Ident) (cs : List WrittenCall) : List Char :=
  cs.flatMap fun c => c.text helper ++ [';']

/-- A body that makes the given calls. -/
def body (helper : Ident) (cs : List WrittenCall) : List Char :=
  joinWith [';'] (PlayerScript.bodyFront :: (cs.map (text helper) ++ [PlayerScript.bodyBack]))

theorem body_eq (helper : Ident) (cs : List WrittenCall) :
    body helper cs = (PlayerScript.bodyFront ++ [';']) ++ (closed helper cs ++
      PlayerScript.bodyBack) := by
  rw [body, ← List.cons_append, joinWith_concat, List.flatMap_cons, List.flatMap_map,
    List.append_assoc]
  rfl

/-- A call with a single argument has no comma. -/
theorem comma_not_mem_single (helper name : Ident) (argument : Argument .word) :
    ',' ∉ text helper (single name argument) := by
  have hident : isIdentChar ',' = false := by decide
  have hargument : ',' ∉ argument.text := by
    simp [Argument.text, argument.front.not_mem (x := ',') (by decide),
      argument.value.not_mem (x := ',') (by decide), argument.back.not_mem (x := ',') (by decide)]
  simp [text, rest, helper.not_mem hident, name.not_mem hident, hargument]

/-- Calls with semicolons between them divide a text at the calls with two arguments. -/
theorem divided_closed (helper : Ident) (cs : List WrittenCall) (pre : List Char) (hpre : ',' ∉ pre)
    (before : List Char) : ∃ parts tail,
      helperCall.Divided before ((pre ++ [';']) ++ (closed helper cs ++ PlayerScript.bodyBack))
        parts tail ∧ parts.map (·.2.2) = (cs.filterMap pair?).map PairCall.captures := by
  have hcomma : helperCall.needs ',' = true := rfl
  have hsemicolon : helperCall.avoids ';' = true := by decide
  induction cs generalizing pre before with
  | nil =>
    refine ⟨[], _, .tail ?_ (halts_of_needs hcomma _), rfl⟩
    exact (barren_before_separator hcomma hsemicolon hpre _ _).append
      (barren_at_end hcomma (show ',' ∉ PlayerScript.bodyBack by decide) _)
  | cons c cs ih =>
    have htext : closed helper (c :: cs) ++ PlayerScript.bodyBack =
        c.text helper ++ ([';'] ++ (closed helper cs ++ PlayerScript.bodyBack)) := by
      simp only [closed, List.flatMap_cons, List.append_assoc]
    rw [htext]
    cases c with
    | pair c =>
      obtain ⟨parts, tail, hdivided, hparts⟩ := ih [] (by simp)
        ((text helper (pair c)).reverse ++ ((pre ++ [';']).reverse ++ before))
      refine ⟨_, tail, .part (barren_before_separator hcomma hsemicolon hpre _ _)
        (c.takes_helperCall helper _ _) ?_ hdivided, ?_⟩
      · exact fun h => helper.chars_ne (List.append_eq_nil_iff.mp h).1
      · rw [List.map_cons, hparts]
        rfl
    | single name argument =>
      -- the call joins what has been passed over
      obtain ⟨parts, tail, hdivided, hparts⟩ :=
        ih ((pre ++ [';']) ++ text helper (single name argument)) (by
          simp [hpre, comma_not_mem_single helper name argument]) before
      refine ⟨parts, tail, ?_, hparts⟩
      simpa only [List.append_assoc] using hdivided

/-- **The calls with two arguments are read**, in order, unless an argument is too long. -/
theorem parseInstructions_body (helper : Ident) (cs : List WrittenCall) :
    parseInstructions (String.ofList (body helper cs)) =
      if (cs.filterMap pair?).all PairCall.short then
        .ok ((cs.filterMap pair?).map PairCall.instruction)
      else .error (.fault .unreadableNumeral) := by
  obtain ⟨parts, tail, hdivided, hparts⟩ :=
    divided_closed helper cs PlayerScript.bodyFront (by decide) []
  rw [← body_eq] at hdivided
  obtain ⟨found, hcuts, hfound⟩ := cuts_of_divided hdivided
  rw [parseInstructions, String.toList_ofList (l := body helper cs), findAll, hcuts]
  refine mapM_instructionOf ?_
  rw [← hparts, ← hfound, List.map_map, List.map_map]
  rfl

/-- The call is read: it has two arguments, and the second one is not too long. -/
def Readable (c : WrittenCall) : Prop := ∃ pair, c.pair? = some pair ∧ pair.short = true

/-- Calls that are all readable give one instruction each, with its name. -/
theorem pairs_of_readable {cs : List WrittenCall} (h : ∀ c ∈ cs, c.Readable) :
    (cs.filterMap pair?).all PairCall.short = true ∧
      (cs.filterMap pair?).map (fun c => c.instruction.mnemonic) =
        cs.map fun c => String.ofList c.name := by
  induction cs with
  | nil => exact ⟨rfl, rfl⟩
  | cons c cs ih =>
    obtain ⟨hshort, hnames⟩ := ih fun c' hc' => h c' (List.mem_cons_of_mem c hc')
    obtain ⟨pair, hpair, hpshort⟩ := h c List.mem_cons_self
    have hname : pair.access.name = c.name := by
      cases c with
      | pair c => rw [Option.some.inj hpair]; rfl
      | single name argument => cases hpair
    rw [List.filterMap_cons_some hpair]
    refine ⟨by rw [List.all_cons, hpshort, hshort]; rfl, ?_⟩
    rw [List.map_cons, List.map_cons, hnames, PairCall.instruction, hname]

/-- Nothing but a readable call gives an instruction. -/
theorem readable_of_length {cs : List WrittenCall}
    (hshort : (cs.filterMap pair?).all PairCall.short = true)
    (hlen : (cs.filterMap pair?).length = cs.length) : ∀ c ∈ cs, c.Readable := by
  intro c hc
  obtain ⟨pair, hpair⟩ := Option.isSome_iff_exists.mp (List.filterMap_length_eq_length.mp hlen c hc)
  exact ⟨pair, hpair, List.all_eq_true.mp hshort pair (List.mem_filterMap.mpr ⟨c, hc, hpair⟩)⟩

/-- **Calls and instructions.**  What the matchers for the helper's name accept as a call is written
    in one of three forms.  Of the calls in a body those with two arguments are read, in order, if
    no second argument is too long; so there is one instruction for each call, with its name, just
    when no call has a single argument and none is too long. -/
theorem accepted_calls_read (helper : Ident) (hlong : 2 ≤ helper.chars.length)
    (calls : List WrittenCall) :
    (∀ call, AcceptedCall helper.chars call ↔ ∃ c : WrittenCall, c.text helper = call) ∧
    parseInstructions (String.ofList (body helper calls)) =
      (if (calls.filterMap pair?).all PairCall.short then
        .ok ((calls.filterMap pair?).map PairCall.instruction)
      else .error (.fault .unreadableNumeral)) ∧
    ((parseInstructions (String.ofList (body helper calls))).map (fun is => is.map (·.mnemonic)) =
      .ok (calls.map fun c => String.ofList c.name) ↔ ∀ c ∈ calls, c.Readable) := by
  refine ⟨acceptedCall_iff hlong, parseInstructions_body helper calls, ?_⟩
  rw [parseInstructions_body]
  constructor
  · intro h
    by_cases hshort : (calls.filterMap pair?).all PairCall.short = true
    · rw [if_pos hshort, Except.map, Except.ok.injEq] at h
      have hlen := congrArg List.length h
      simp only [List.length_map] at hlen
      exact readable_of_length hshort hlen
    · rw [if_neg hshort] at h
      cases h
  · intro h
    obtain ⟨hshort, hnames⟩ := pairs_of_readable h
    rw [if_pos hshort, Except.map, List.map_map]
    exact congrArg _ hnames

/-- A call with a single argument is accepted, but not read. -/
theorem accepted_calls_read_single :
    AcceptedCall ['X', 'y'] "Xy.AB(a)".toList ∧
    parseInstructions "a=a.split(\"\");Xy.cd(a,1);Xy.AB(a);return a.join(\"\")" =
      .ok [⟨"cd", 1⟩] := by
  let single : WrittenCall := .single (.of ['A', 'B'] (by decide)) (.bare ['a'] (by decide))
  let pair : PairCall :=
    ⟨.dotted (.of ['c', 'd'] (by decide)), .bare ['a'] (by decide), .bare ['1'] (by decide)⟩
  obtain ⟨haccepted, hread, -⟩ :=
    accepted_calls_read (.of ['X', 'y'] (by decide)) (by decide) [.pair pair, single]
  exact ⟨(haccepted _).mpr ⟨single, rfl⟩, hread⟩

end WrittenCall

end StreamResolver.Cipher
