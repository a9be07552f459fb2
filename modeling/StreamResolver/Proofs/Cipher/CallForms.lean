/-
  The forms of helper calls.

  Four expressions look for a call of a helper, and they know three forms of it: the name behind a
  point with two arguments, the name as a text in brackets with two arguments, and the name behind a
  point with a single argument.  Between the parts of a call there may be blanks.

  A text is a call for one of the expressions just when it is written in one of the forms
  (`acceptedCall_iff`): each form is taken whole by an expression (`takes_dottedCall`,
  `takes_bracketedCall`, `takes_singleCall`), and what a way of an expression passes is a form
  (`CallRead`).
-/
import StreamResolver.Proofs.Cipher.Locating
import StreamResolver.Proofs.Cipher.ScriptText
import StreamResolver.Proofs.Pattern.Capturing

namespace StreamResolver.Cipher

open Text Pattern

/-! ## The expressions -/

/-- Two arguments in brackets. -/
def argumentList (first : CharSet) (number : Pattern) : List Pattern :=
  [.one (.char '('), .many .blank, .some1 first, .many .blank, .one (.char ','), .many .blank,
   number, .many .blank, .one (.char ')')]

/-- The name of a helper, as capture 1. -/
def calledHelper : Pattern := .capture 1 (.span false 2 none identChar)

/-- A call by a point and a name with so many characters. -/
def dottedCall (min : Nat) (max : Option Nat) : Pattern :=
  .sequence (calledHelper :: .one (.char '.') :: .span false min max identChar ::
    argumentList .word (.some1 .digit))

/-- A call by a text in brackets. -/
def bracketedCall : Pattern :=
  .sequence (calledHelper :: .one (.char '[') :: .many .blank :: .one quoteMark ::
    .some1 nameChar :: .one quoteMark :: .many .blank :: .one (.char ']') ::
    argumentList .word (.some1 .digit))

/-- A call by a point and a name with a single argument. -/
def singleCall : Pattern :=
  .sequence [calledHelper, .one (.char '.'), .some1 identChar, .one (.char '('), .many .blank,
    .some1 .word, .many .blank, .one (.char ')')]

theorem helperName_stands : ∃ pair bracketed single dotted,
    defaultMatchers .helperName = [pair, bracketed, single, dotted] ∧
      pair.Stands [] (dottedCall 2 (some 2)) 1 ∧ bracketed.Stands [] bracketedCall 1 ∧
        single.Stands [] singleCall 1 ∧ dotted.Stands [] (dottedCall 1 none) 1 ∧
          (∀ m ∈ [pair, bracketed, single, dotted], m.indexed = false ∧ m.capture = 1) :=
  ⟨_, _, _, _, rfl, stands_fixed (String.ofList_append ..).symm rfl rfl,
    stands_fixed (String.ofList_append ..).symm rfl rfl, stands_fixed rfl rfl rfl,
    stands_fixed rfl rfl rfl, by decide⟩

/-! ## Written calls -/

/-- An argument with the blanks around it. -/
structure Argument (set : CharSet) where
  front : Gap
  value : Stretch set
  back : Gap

/-- An argument without blanks. -/
def Argument.bare {set : CharSet} (chars : List Char)
    (h : chars ≠ [] ∧ chars.all set.has = true) : Argument set :=
  ⟨.none, ⟨chars, h.1, List.all_eq_true.mp h.2⟩, .none⟩

def Argument.text {set : CharSet} (a : Argument set) : List Char :=
  a.front.chars ++ (a.value.chars ++ a.back.chars)

/-- How the called name is reached from the helper.  The marks around a text need not be the same. -/
inductive NameAccess where
  | dotted (name : Ident)
  | bracketed (front : Gap) (opening : Char) (name : Stretch nameChar) (closing : Char) (back : Gap)
      (hopening : quoteMark.has opening = true) (hclosing : quoteMark.has closing = true)

namespace NameAccess

def name : NameAccess → List Char
  | dotted name => name.chars
  | bracketed _ _ name _ _ _ _ => name.chars

def text : NameAccess → List Char
  | dotted name => '.' :: name.chars
  | bracketed front opening name closing back _ _ =>
    '[' :: (front.chars ++ opening :: (name.chars ++ closing :: (back.chars ++ [']'])))

end NameAccess

/-- A call with two arguments. -/
structure PairCall where
  access : NameAccess
  first : Argument .word
  second : Argument .digit

/-- The call without the helper's name in front of it. -/
def PairCall.rest (c : PairCall) : List Char :=
  c.access.text ++ ('(' :: (c.first.text ++ ',' :: (c.second.text ++ [')'])))

/-- A call of a helper in one of its forms. -/
inductive WrittenCall where
  | pair (c : PairCall)
  | single (name : Ident) (argument : Argument .word)

namespace WrittenCall

def name : WrittenCall → List Char
  | pair c => c.access.name
  | single name _ => name.chars

/-- The call without the helper's name in front of it. -/
def rest : WrittenCall → List Char
  | pair c => c.rest
  | single name argument => '.' :: (name.chars ++ '(' :: (argument.text ++ [')']))

def text (helper : Ident) (c : WrittenCall) : List Char := helper.chars ++ c.rest

end WrittenCall

/-! ## What the expressions take -/

section Takes

variable {before w after : List Char} {caps caps' caps'' : Captures}

/-- An argument is taken with its blanks. -/
theorem takes_argument {set : CharSet} (a : Argument set) (hset : Apart set .blank) {p : Pattern}
    {ps : List Pattern} {x : Char} (hx : CharSet.blank.has x = false)
    (hp : ∀ before, p.Takes before caps a.value.chars ((a.back.chars ++ x :: w) ++ after) caps')
    (h : ∀ before, (sequence ps).Takes before caps' (x :: w) after caps'') :
    (sequence (many .blank :: p :: many .blank :: ps)).Takes before caps (a.text ++ x :: w) after
      caps'' := by
  rw [Argument.text, List.append_assoc, List.append_assoc]
  refine takes_blanks a.front ?_ (takes_cons (hp _) (takes_blanks a.back ?_ (h _)))
  · rw [List.append_assoc]
    exact a.value.head?_append_not hset _
  · exact head?_cons_not hx _

/-- Behind an argument comes no further character of its set. -/
theorem Argument.stop {set other : CharSet} (a : Argument set) (hset : Apart .blank other) {x : Char}
    (hx : other.has x = false) :
    ∀ c ∈ ((a.back.chars ++ x :: w) ++ after).head?, other.has c = false := by
  rw [List.append_assoc, List.cons_append]
  exact a.back.head?_append_not hset hx _

/-- The arguments of a call, `number` taking the second one. -/
theorem takes_argumentList {set : CharSet} (first : Argument .word) (second : Argument .digit)
    {number : Pattern} (hword : ∀ c, CharSet.word.has c = true → set.has c = true)
    (hblank : Apart set .blank) (hcomma : set.has ',' = false)
    (hnumber : ∀ before rest, (∀ c ∈ rest.head?, CharSet.digit.has c = false) →
      number.Takes before caps second.value.chars rest caps') (before after : List Char) :
    (sequence (argumentList set number)).Takes before caps
      ('(' :: (first.text ++ ',' :: (second.text ++ [')']))) after caps' := by
  have hfirst : ∀ before rest, (∀ c ∈ rest.head?, set.has c = false) →
      (some1 set).Takes before caps first.value.chars rest caps := fun before rest hstop =>
    takes_span (fun c hc => hword c (first.value.all c hc))
      (List.length_pos_iff.mpr first.value.chars_ne) (by simp) hstop before caps
  refine takes_char (takes_argument first word_blank (by decide)
    (fun before => hfirst before _ (first.stop hblank.symm hcomma)) fun before => ?_)
  exact takes_char (takes_argument second digit_blank (by decide)
    (fun before => hnumber before _ (second.stop digit_blank.symm (by decide)))
    fun before => takes_char (takes_end _ _ _))

theorem takes_arguments (first : Argument .word) (second : Argument .digit)
    (before after : List Char) (caps : Captures) :
    (sequence (argumentList .word (.some1 .digit))).Takes before caps
      ('(' :: (first.text ++ ',' :: (second.text ++ [')']))) after caps :=
  takes_argumentList first second (fun _ h => h) word_blank (by decide)
    (fun before _ hstop => takes_stretch second.value hstop before caps) before after

variable {helper : Ident} (hlong : 2 ≤ helper.chars.length)

include hlong

/-- The name of the helper is taken in front of a character that is in no name. -/
theorem takes_calledHelper {x : Char} (hx : identChar.has x = false) (before rest : List Char) :
    calledHelper.Takes before [] helper.chars (x :: rest) [(1, helper.chars)] :=
  takes_capture (takes_span helper.all_identChar hlong (by simp) (head?_cons_not hx rest) _ _)

/-- A call by a point is taken if the name has a fitting length. -/
theorem takes_dottedCall {min : Nat} {max : Option Nat} (name : Ident) (first : Argument .word)
    (second : Argument .digit) (hmin : min ≤ name.chars.length)
    (hmax : ∀ n, max = some n → name.chars.length ≤ n) (before after : List Char) :
    (dottedCall min max).Takes before []
      (WrittenCall.text helper (.pair ⟨.dotted name, first, second⟩)) after
      [(1, helper.chars)] := by
  refine takes_cons (takes_calledHelper hlong (by decide) _ _) (takes_char ?_)
  exact takes_cons (takes_span name.all_identChar hmin hmax (head?_cons_not (by decide) _) _ _)
    (takes_arguments _ _ _ _ _)

/-- A call by a text in brackets is taken. -/
theorem takes_bracketedCall {front : Gap} {opening : Char} {name : Stretch nameChar} {closing : Char}
    {back : Gap} (hopening : quoteMark.has opening = true) (hclosing : quoteMark.has closing = true)
    (first : Argument .word) (second : Argument .digit) (before after : List Char) :
    bracketedCall.Takes before [] (WrittenCall.text helper
      (.pair ⟨.bracketed front opening name closing back hopening hclosing, first, second⟩)) after
      [(1, helper.chars)] := by
  have htext : WrittenCall.text helper
      (.pair ⟨.bracketed front opening name closing back hopening hclosing, first, second⟩) =
        helper.chars ++ '[' :: (front.chars ++ opening :: (name.chars ++ closing :: (back.chars ++
          ']' :: '(' :: (first.text ++ ',' :: (second.text ++ [')']))))) := by
    simp [WrittenCall.text, WrittenCall.rest, PairCall.rest, NameAccess.text]
  rw [htext]
  refine takes_cons (takes_calledHelper hlong (by decide) _ _) (takes_char ?_)
  refine takes_blanks front (head?_cons_not (quoteMark_blank _ hopening) _) ?_
  refine takes_cons (u := [opening]) (takes_one hopening _ _ _) ?_
  refine takes_cons (takes_stretch name (head?_cons_not ?_ _) _ _) ?_
  · exact nameChar_quoteMark.symm _ hclosing
  refine takes_cons (u := [closing]) (takes_one hclosing _ _ _) ?_
  exact takes_blanks back (head?_cons_not (by decide) _)
    (takes_char (takes_arguments first second _ _ _))

/-- A call with a single argument is taken. -/
theorem takes_singleCall (name : Ident) (argument : Argument .word) (before after : List Char) :
    singleCall.Takes before [] (WrittenCall.text helper (.single name argument)) after
      [(1, helper.chars)] := by
  refine takes_cons (takes_calledHelper hlong (by decide) _ _) (takes_char ?_)
  refine takes_cons (takes_span name.all_identChar name.one_le_length (by simp)
    (head?_cons_not (by decide) _) _ _) (takes_char ?_)
  exact takes_argument argument word_blank (by decide)
    (fun before => takes_stretch argument.value (argument.stop word_blank.symm (by decide)) before _)
    fun before => takes_char (takes_end _ _ _)

end Takes

/-! ## What the expressions pass -/

section Reads

variable {s m t : Place} {ps : List Pattern}

theorem argument_reads {set : CharSet}
    (h : (sequence (many .blank :: some1 set :: many .blank :: ps)).Leads s t) :
    ∃ (a : Argument set) (m : Place), s.Reads a.text m ∧ (sequence ps).Leads m t := by
  obtain ⟨_, hfront, h⟩ := leads_sequence_cons h
  obtain ⟨_, hvalue, h⟩ := leads_sequence_cons h
  obtain ⟨m, hback, h⟩ := leads_sequence_cons h
  obtain ⟨front, hreads⟩ := many_blank_reads hfront
  obtain ⟨value, hreads'⟩ := some1_reads hvalue
  obtain ⟨back, hreads''⟩ := many_blank_reads hback
  exact ⟨⟨front, value, back⟩, m, hreads.trans (hreads'.trans hreads''), h⟩

theorem arguments_reads (h : (sequence (argumentList .word (.some1 .digit))).Leads s t) :
    ∃ (first : Argument .word) (second : Argument .digit),
      s.Reads ('(' :: (first.text ++ ',' :: (second.text ++ [')']))) t := by
  obtain ⟨_, hopen, h⟩ := leads_sequence_cons h
  obtain ⟨first, _, hfirst, h⟩ := argument_reads h
  obtain ⟨_, hcomma, h⟩ := leads_sequence_cons h
  obtain ⟨second, _, hsecond, hclose⟩ := argument_reads h
  refine ⟨first, second, (char_reads hopen).trans (hfirst.trans ?_)⟩
  exact (char_reads hcomma).trans (hsecond.trans (char_reads hclose))

/-- A stretch of the characters of identifiers is an identifier. -/
theorem exists_ident {w : List Char} (hw : ∀ c ∈ w, identChar.has c = true) (hlen : 1 ≤ w.length) :
    ∃ i : Ident, i.chars = w :=
  ⟨⟨w, List.length_pos_iff.mp hlen, fun c hc => isIdentChar_of_identChar (hw c hc)⟩, rfl⟩

/-- What lies between two places is a call, and the name of its helper is captured. -/
def CallRead (s t : Place) : Prop :=
  ∃ (helper : Ident) (c : WrittenCall), s.after = c.text helper ++ t.after ∧
    t.pos = s.pos + (c.text helper).length ∧ t.captures = (1, helper.chars) :: s.captures

/-- A way that begins with the name of a helper and goes on with a call's rest. -/
theorem callRead_of_rest (h : (sequence (calledHelper :: ps)).Leads s t)
    (hrest : ∀ m, (sequence ps).Leads m t → ∃ c : WrittenCall, m.Reads c.rest t) :
    CallRead s t := by
  obtain ⟨_, ⟨m, ⟨w, hw, hlen, -, hreads⟩, rfl⟩, h⟩ := leads_sequence_cons h
  obtain ⟨helper, rfl⟩ := exists_ident hw (by omega)
  obtain ⟨c, hreads'⟩ := hrest _ h
  have htext : s.textTo m = helper.chars := by
    rw [Place.textTo, hreads.after_eq, hreads.pos_eq, Nat.add_sub_cancel_left]
    exact List.take_left
  have hafter : m.after = c.rest ++ t.after := hreads'.after_eq
  have hpos : t.pos = m.pos + c.rest.length := hreads'.pos_eq
  refine ⟨helper, c, ?_, ?_, ?_⟩
  · rw [hreads.after_eq, hafter, WrittenCall.text, List.append_assoc]
  · rw [hpos, hreads.pos_eq, WrittenCall.text, List.length_append, Nat.add_assoc]
  · rw [hreads'.captures_eq, htext, Place.record, hreads.captures_eq]

theorem dottedCall_reads {min : Nat} {max : Option Nat} (hmin : 1 ≤ min)
    (h : (dottedCall min max).Leads s t) : CallRead s t := by
  refine callRead_of_rest h fun m h => ?_
  obtain ⟨_, hpoint, h⟩ := leads_sequence_cons h
  obtain ⟨_, ⟨w, hw, hlen, -, hname⟩, h⟩ := leads_sequence_cons h
  obtain ⟨name, rfl⟩ := exists_ident hw (by omega)
  obtain ⟨first, second, hreads⟩ := arguments_reads h
  exact ⟨.pair ⟨.dotted name, first, second⟩, (char_reads hpoint).trans (hname.trans hreads)⟩

theorem bracketedCall_reads (h : bracketedCall.Leads s t) : CallRead s t := by
  refine callRead_of_rest h fun m h => ?_
  obtain ⟨_, hopen, h⟩ := leads_sequence_cons h
  obtain ⟨_, hfront, h⟩ := leads_sequence_cons h
  obtain ⟨_, hmark, h⟩ := leads_sequence_cons h
  obtain ⟨_, hname, h⟩ := leads_sequence_cons h
  obtain ⟨_, hmark', h⟩ := leads_sequence_cons h
  obtain ⟨_, hback, h⟩ := leads_sequence_cons h
  obtain ⟨_, hclose, h⟩ := leads_sequence_cons h
  obtain ⟨front, hfront⟩ := many_blank_reads hfront
  obtain ⟨opening, hopening, hmark⟩ := one_reads hmark
  obtain ⟨name, hname⟩ := some1_reads hname
  obtain ⟨closing, hclosing, hmark'⟩ := one_reads hmark'
  obtain ⟨back, hback⟩ := many_blank_reads hback
  obtain ⟨first, second, hreads⟩ := arguments_reads h
  refine ⟨.pair ⟨.bracketed front opening name closing back hopening hclosing, first, second⟩, ?_⟩
  have hall := (char_reads hopen).trans (hfront.trans (hmark.trans (hname.trans (hmark'.trans
    (hback.trans ((char_reads hclose).trans hreads))))))
  simpa [WrittenCall.rest, PairCall.rest, NameAccess.text] using hall

theorem singleCall_reads (h : singleCall.Leads s t) : CallRead s t := by
  refine callRead_of_rest h fun m h => ?_
  obtain ⟨_, hpoint, h⟩ := leads_sequence_cons h
  obtain ⟨_, ⟨w, hw, hlen, -, hname⟩, h⟩ := leads_sequence_cons h
  obtain ⟨_, hopen, h⟩ := leads_sequence_cons h
  obtain ⟨name, rfl⟩ := exists_ident hw hlen
  obtain ⟨argument, _, hargument, hclose⟩ := argument_reads h
  exact ⟨.single name argument, (char_reads hpoint).trans (hname.trans
    ((char_reads hopen).trans (hargument.trans (char_reads hclose))))⟩

end Reads

/-! ## Accepted calls -/

/-- A text is a call of a helper for one of the default matchers: the whole of it is matched, and
    what is captured is the helper's name. -/
def AcceptedCall (helper text : List Char) : Prop :=
  ∃ m ∈ defaultMatchers .helperName, ∃ (e : Expression.Compiled) (found : Found),
    (m.expression? []).value = .ok (some e) ∧ e.pattern.search? text = some found ∧
      found.text = text ∧ found.group? m.capture = some helper

/-- A call that is taken whole is accepted. -/
theorem acceptedCall_of_takes {m : Matcher} (hm : m ∈ defaultMatchers .helperName) {p : Pattern}
    (hstands : m.Stands [] p 1) (hcapture : m.capture = 1) {helper : Ident} {c : WrittenCall}
    (h : p.Takes [] [] (c.text helper) [] [(1, helper.chars)]) :
    AcceptedCall helper.chars (c.text helper) := by
  have hne : c.text helper ≠ [] := fun hnil => helper.chars_ne (List.append_eq_nil_iff.mp hnil).1
  obtain ⟨found, hsearch, hwhole, hcaps⟩ := search?_whole h hne
  refine ⟨m, hm, ⟨p, 1⟩, found, hstands, hsearch, hwhole, ?_⟩
  rw [hcapture, group?_eq hcaps (by decide)]
  rfl

/-- What is matched as a whole is a call. -/
theorem eq_text_of_reads {p : Pattern} {text : List Char} {helper : Ident} {found : Found}
    (h : p.FindsIn text found) (hreads : ∀ {s t}, p.Leads s t → CallRead s t)
    (hwhole : found.text = text) (hgroup : found.group? 1 = some helper.chars) :
    ∃ c : WrittenCall, c.text helper = text := by
  obtain ⟨s, -, hempty, hleads, htext⟩ := h
  obtain ⟨helper', c, hafter, hpos, hcaps⟩ := hreads hleads
  have hsame : c.text helper' = text := by
    rw [← hwhole, htext, Place.textTo, hafter, hpos, Nat.add_sub_cancel_left]
    exact List.take_left.symm
  have hhelper : helper'.chars = helper.chars := by
    rw [group?_eq hcaps (by decide)] at hgroup
    simpa using hgroup
  refine ⟨c, ?_⟩
  rw [← hsame, WrittenCall.text, WrittenCall.text, hhelper]

/-- **A text is accepted as a call** just when it is written in one of the forms. -/
theorem acceptedCall_iff {helper : Ident} (hlong : 2 ≤ helper.chars.length) (text : List Char) :
    AcceptedCall helper.chars text ↔ ∃ c : WrittenCall, c.text helper = text := by
  obtain ⟨pair, bracketed, single, dotted, hms, hpair, hbracketed, hsingle, hdotted, hkind⟩ :=
    helperName_stands
  constructor
  · rintro ⟨m, hm, e, found, hexpr, hsearch, hwhole, hgroup⟩
    rw [hms] at hm
    rw [(hkind m hm).2] at hgroup
    have hone : ∀ {p}, m.Stands [] p 1 → (∀ {s t}, p.Leads s t → CallRead s t) →
        ∃ c : WrittenCall, c.text helper = text := by
      intro p hstands hreads
      obtain rfl : (⟨p, 1⟩ : Expression.Compiled) = e := by
        rw [Matcher.Stands, hexpr] at hstands
        simpa using hstands.symm
      exact eq_text_of_reads (search?_findsIn hsearch) hreads hwhole hgroup
    simp only [List.mem_cons, List.not_mem_nil, or_false] at hm
    rcases hm with rfl | rfl | rfl | rfl
    · exact hone hpair (dottedCall_reads (by decide))
    · exact hone hbracketed bracketedCall_reads
    · exact hone hsingle singleCall_reads
    · exact hone hdotted (dottedCall_reads (by decide))
  · rintro ⟨c, rfl⟩
    have haccepted : ∀ {m p}, m ∈ [pair, bracketed, single, dotted] → m.Stands [] p 1 →
        p.Takes [] [] (c.text helper) [] [(1, helper.chars)] →
        AcceptedCall helper.chars (c.text helper) := fun hm hstands htakes =>
      acceptedCall_of_takes (hms ▸ hm) hstands (hkind _ hm).2 htakes
    rcases c with ⟨access, first, second⟩ | ⟨name, argument⟩
    · cases access with
      | dotted name =>
        exact haccepted (by simp) hdotted (takes_dottedCall hlong name first second
          name.one_le_length (by simp) _ _)
      | bracketed front opening name closing back hopening hclosing =>
        exact haccepted (by simp) hbracketed
          (takes_bracketedCall hlong hopening hclosing first second _ _)
    · exact haccepted (by simp) hsingle (takes_singleCall hlong name argument _ _)

end StreamResolver.Cipher
