/-
  What a build can fault on.

  A failure of a build is announced when something is not found.  What is left are the faults, and
  with the default matchers there is one: a run of digits that is too long to be read as a numeral
  (`Trouble`).  Every capture that a default matcher wants is there, whatever the text is
  (`served_default`), and an index or an argument is a run of digits because the expressions capture
  nothing else.  So a default matcher fails just when it captures an index that is too long
  (`search_eq_error_iff`).

  The crux is that a text that is captured stands in the searched text (`captured_search`): so a run
  of digits in a function body is one in the script.
-/
import StreamResolver.Proofs.Cipher.Templates
import StreamResolver.Proofs.Fallible
import StreamResolver.Proofs.Log.Contract
import StreamResolver.Proofs.Pattern.Capturing
import StreamResolver.Proofs.Text.Digits
import StreamResolver.Proofs.Url.Splitting

namespace StreamResolver.Cipher

open Text Pattern Reporting

/-! ## Long numerals -/

/-- A run of digits that is too long to be read stands in a text. -/
def HasLongNumeral (text : List Char) : Prop :=
  ∃ ds, ds <:+: text ∧ maxDigits < ds.length ∧ ∀ c ∈ ds, isDigit c = true

theorem HasLongNumeral.mono {part text : List Char} (h : HasLongNumeral part)
    (hpart : part <:+: text) : HasLongNumeral text := by
  obtain ⟨ds, hds, hlong, hdigits⟩ := h
  exact ⟨ds, hds.trans hpart, hlong, hdigits⟩

/-- Whether an expression passes runs of digits only. -/
def passesDigits : Pattern → Bool
  | .span _ min _ .digit => decide (1 ≤ min)
  | _ => false

/-- What a capture of digits holds. -/
theorem digits_of_group {p : Pattern} {text ds : List Char} {found : Found} {n : Nat} (hn : n ≠ 0)
    (hfound : p.FindsIn text found) (hparts : (p.parts n).all passesDigits = true)
    (hgroup : found.group? n = some ds) :
    (∀ c ∈ ds, isDigit c = true) ∧ ds ≠ [] ∧ ds <:+: text := by
  obtain ⟨q, hq, hpasses⟩ := hfound.group?_passed hn hgroup
  have hdigits := List.all_eq_true.mp hparts q hq
  unfold passesDigits at hdigits
  split at hdigits
  case h_2 => simp at hdigits
  case h_1 =>
    rw [decide_eq_true_eq] at hdigits
    obtain ⟨hall, hlength⟩ := passesIn_span hpasses
    refine ⟨hall, ?_, hpasses.isInfix⟩
    rintro rfl
    simp at hlength
    omega

/-! ## One matcher -/

variable {m : Matcher} {params : Keyed String} {text : String} {found : Found}

/-- What a search comes to: the expression is read, and it is found or not. -/
theorem search_cases (m : Matcher) (text : String) (params : Keyed String) :
    (m.search text params).value = .ok none ∨
      ∃ (c : Expression.Compiled) (found : Found), m.Stands params c.pattern c.groups ∧
        c.pattern.search? text.toList = some found := by
  have hread : ∃ r, (m.expression? params).value = .ok r := by
    unfold Matcher.expression?
    split
    · split
      · exact ⟨_, rfl⟩
      · split
        · exact ⟨_, rfl⟩
        · exact ⟨_, value_bind_ok (fun _ => appends_pure _) (value_emit _ _ _)⟩
    · split
      · exact ⟨_, rfl⟩
      · exact ⟨_, rfl⟩
  obtain ⟨_ | c, hc⟩ := hread
  · refine .inl ((value_bind_of ?_ hc).trans rfl)
    exact appends_pure _
  · rcases hfound : c.pattern.search? text.toList with _ | found
    · exact .inl (search_missed (p := c.pattern) hc hfound)
    · exact .inr ⟨c, found, hc, hfound⟩

/-! ## What is captured -/

/-- A text that was captured: it is not empty and stands in the searched text. -/
def Captured (text : List Char) (w : String) : Prop := w.toList ≠ [] ∧ w.toList <:+: text

theorem captured_nonEmpty? {part : Option (List Char)} {text : List Char} {w : String}
    (hpart : ∀ s, part = some s → s <:+: text) (h : Matcher.nonEmpty? part = some w) :
    Captured text w := by
  unfold Matcher.nonEmpty? at h
  split at h
  · rw [Option.some.injEq] at h
    rw [← h, Captured, String.toList_ofList]
    exact ⟨List.cons_ne_nil _ _, hpart _ rfl⟩
  · simp at h

theorem isInfix_of_mem_arrayItems {name text : List Char} {items : List (List Char)}
    (h : Matcher.arrayItems? name text = some items) : ∀ item ∈ items, item <:+: text := by
  obtain ⟨listed, hlisted, rfl⟩ := Option.map_eq_some_iff.mp h
  obtain ⟨found, hfound, hgroup⟩ := Option.bind_eq_some_iff.mp hlisted
  intro item hitem
  obtain ⟨piece, hpiece, rfl⟩ := List.mem_map.mp hitem
  have hinside := (search?_findsIn hfound).group?_isInfix hgroup
  exact ((trim_isInfix piece).trans (isInfix_of_mem_splitOn hpiece)).trans hinside

theorem captured_slot? {items : List (List Char)} {text : List Char} {position : Int} {w : String}
    (hitems : ∀ item ∈ items, item <:+: text)
    (h : Matcher.slot? items position = .ok (some w)) : Captured text w := by
  unfold Matcher.slot? at h
  split at h
  · cases h
  · generalize (if position < 0 then position + items.length else position) = i at h
    dsimp only at h
    split at h
    · cases h
    · rw [Except.ok.injEq] at h
      exact captured_nonEmpty? (fun s hs => hitems s (List.mem_of_getElem? hs)) h

theorem captured_resolve {p : Pattern} {text : List Char} {w : String} (hfound : p.FindsIn text found)
    (h : Matcher.resolve text found = .ok (some w)) : Captured text w := by
  unfold Matcher.resolve at h
  split at h
  · rw [Except.ok.injEq] at h
    exact captured_nonEmpty? (fun s hs => hfound.group?_isInfix hs) h
  · rw [Except.ok.injEq] at h
    exact captured_nonEmpty? (fun s hs => hfound.group?_isInfix hs) h
  · split at h
    · cases h
    · split at h
      · cases h
      · next items hitems =>
        split at h
        · cases h
        · exact captured_slot? (isInfix_of_mem_arrayItems hitems) h

/-- **Whatever a matcher captures** stands in the searched text. -/
theorem captured_search {w : String} (h : (m.search text params).value = .ok (some w)) :
    Captured text.toList w := by
  rcases search_cases m text params with hnone | ⟨c, found, hstands, hfound⟩
  · rw [hnone] at h
    cases h
  rw [search_value hstands, hfound] at h
  have hfinds := search?_findsIn hfound
  dsimp only at h
  split at h
  · split at h
    · cases h
    · rcases hname : Matcher.resolve text.toList found with e | name
      · rw [hname] at h
        cases h
      · rw [hname] at h
        cases h
        exact captured_resolve hfinds hname
  · split at h
    · cases h
    · rw [value_pure, Except.ok.injEq] at h
      exact captured_nonEmpty? (fun s hs => hfinds.group?_isInfix hs) h

/-! ## What the default matchers want -/

/-- Whether what a matcher wants of an expression is there: the capture, or a name and perhaps an index
    of digits. -/
def Matcher.servedBy (m : Matcher) (c : Expression.Compiled) : Bool :=
  if m.indexed then
    decide (2 ≤ c.groups) && c.pattern.sets 1 && (c.pattern.parts 2).all passesDigits
  else decide (m.capture ≤ c.groups)

/-- A position that does not count from the end is no fault. -/
theorem slot?_natCast (items : List (List Char)) (n : Nat) :
    Matcher.slot? items n = .ok (Matcher.nonEmpty? items[n]?) := by
  unfold Matcher.slot?
  split
  · next hbehind =>
    rw [List.getElem?_eq_none (Int.ofNat_le.mp hbehind)]
    rfl
  · dsimp only
    have hnat : ¬(n : Int) < 0 := by omega
    rw [if_neg hnat, if_neg hnat, Int.toNat_natCast]

theorem resolve_eq_error_iff {p : Pattern} {text : List Char} {e : Failure}
    (hfound : p.FindsIn text found) (hname : p.sets 1 = true)
    (hindex : (p.parts 2).all passesDigits = true) :
    Matcher.resolve text found = .error e ↔ e = .fault .unreadableNumeral ∧ ∃ name index,
      found.group? 1 = some name ∧ found.group? 2 = some index ∧
        Matcher.arrayItems? name text ≠ none ∧ maxDigits < index.length := by
  obtain ⟨name, hname⟩ := hfound.group?_isSome hname (by decide)
  unfold Matcher.resolve
  rw [hname]
  rcases hgroup : found.group? 2 with _ | _ | ⟨c, rest⟩
  · simp
  · simp
  obtain ⟨hdigits, hne, -⟩ := digits_of_group (by decide) hfound hindex hgroup
  dsimp only
  rw [readInteger_digits hdigits hne]
  rcases hitems : Matcher.arrayItems? name text with _ | items
  · simp [hitems]
  by_cases hlong : maxDigits < (c :: rest).length
  · rw [if_pos hlong, Except.error.injEq]
    constructor
    · rintro rfl
      exact ⟨rfl, name, c :: rest, rfl, rfl, by simp [hitems], hlong⟩
    · rintro ⟨rfl, -⟩
      rfl
  · -- a position that is read from digits is never before the first item
    rw [if_neg hlong]
    dsimp only
    rw [slot?_natCast]
    refine iff_of_false (by simp) ?_
    rintro ⟨-, _, _, -, hsame, -, hlong'⟩
    cases hsame
    exact hlong hlong'

/-- An indexed matcher captures the name of an array that is declared in the text, with an index of
    more digits than are read. -/
def Matcher.IndexTooLong (m : Matcher) (text : String) (params : Keyed String) : Prop :=
  m.indexed = true ∧ ∃ (c : Expression.Compiled) (found : Found) (name index : List Char),
    m.Stands params c.pattern c.groups ∧ c.pattern.search? text.toList = some found ∧
      found.group? 1 = some name ∧ found.group? 2 = some index ∧
        Matcher.arrayItems? name text.toList ≠ none ∧ maxDigits < index.length

/-- **A matcher that is served fails** just when it captures an index that is too long. -/
theorem search_eq_error_iff {e : Failure}
    (hserved : ∀ c, m.Stands params c.pattern c.groups → m.servedBy c = true) :
    (m.search text params).value = .error e ↔
      e = .fault .unreadableNumeral ∧ m.IndexTooLong text params := by
  have hresolves : ∀ (c : Expression.Compiled) (found : Found), m.indexed = true →
      m.Stands params c.pattern c.groups → c.pattern.search? text.toList = some found →
        ((m.search text params).value = .error e ↔ e = .fault .unreadableNumeral ∧ ∃ name index,
          found.group? 1 = some name ∧ found.group? 2 = some index ∧
            Matcher.arrayItems? name text.toList ≠ none ∧ maxDigits < index.length) := by
    intro c found hindexed hstands hfound
    have hwants := hserved c hstands
    rw [Matcher.servedBy, if_pos hindexed, Bool.and_eq_true, Bool.and_eq_true,
      decide_eq_true_eq] at hwants
    obtain ⟨⟨hgroups, hname⟩, hindex⟩ := hwants
    rw [search_indexed hstands hfound hindexed hgroups]
    exact resolve_eq_error_iff (search?_findsIn hfound) hname hindex
  constructor
  · intro h
    rcases search_cases m text params with hnone | ⟨c, found, hstands, hfound⟩
    · rw [hnone] at h
      cases h
    by_cases hindexed : m.indexed = true
    · obtain ⟨he, name, index, hlong⟩ := (hresolves c found hindexed hstands hfound).mp h
      exact ⟨he, hindexed, c, found, name, index, hstands, hfound, hlong⟩
    · have hwants := hserved c hstands
      rw [Matcher.servedBy, if_neg hindexed, decide_eq_true_eq] at hwants
      rw [search_plain hstands hfound (Bool.not_eq_true _ ▸ hindexed) hwants] at h
      cases h
  · rintro ⟨he, hindexed, c, found, name, index, hstands, hfound, hlong⟩
    exact (hresolves c found hindexed hstands hfound).mpr ⟨he, name, index, hlong⟩

/-- A matcher that is served faults on a long numeral only, and only if it is indexed. -/
theorem search_served {e : Failure}
    (hserved : ∀ c, m.Stands params c.pattern c.groups → m.servedBy c = true)
    (h : (m.search text params).value = .error e) :
    e = .fault .unreadableNumeral ∧ m.indexed = true ∧ HasLongNumeral text.toList := by
  obtain ⟨he, hindexed, c, found, name, index, hstands, hfound, -, hgroup, -, hlong⟩ :=
    (search_eq_error_iff hserved).mp h
  have hwants := hserved c hstands
  rw [Matcher.servedBy, if_pos hindexed, Bool.and_eq_true, Bool.and_eq_true] at hwants
  obtain ⟨hdigits, -, hinside⟩ :=
    digits_of_group (by decide) (search?_findsIn hfound) hwants.2 hgroup
  exact ⟨he, hindexed, index, hinside, hlong, hdigits⟩

/-- Whether a fixed matcher with the given text is served by what the text is read as. -/
def Matcher.isServed (m : Matcher) (template : List Char) : Bool :=
  !Template.isTemplate template &&
    match Expression.compile m.flags template with
    | .ok c => m.servedBy c
    | .error _ => true

theorem servedBy_of_isServed {template : List Char} (htemplate : m.template = String.ofList template)
    (h : m.isServed template = true) {c : Expression.Compiled}
    (hstands : m.Stands params c.pattern c.groups) : m.servedBy c = true := by
  rw [Matcher.isServed, Bool.and_eq_true, Bool.not_eq_true'] at h
  obtain ⟨hfixed, h⟩ := h
  unfold Matcher.Stands Matcher.expression? at hstands
  rw [htemplate, String.toList_ofList, if_neg (by simp [hfixed])] at hstands
  split at hstands
  · next c' hc' =>
    rw [hc'] at h
    cases hstands
    exact h
  · cases hstands

/-- The fixed ones among the default matchers are served. -/
theorem isServed_fixed {role : Role} (hbody : role ≠ .functionBody) (hhelper : role ≠ .helperBody)
    (hm : m ∈ defaultMatchers role) :
    ∃ template, m.template = String.ofList template ∧ m.isServed template = true := by
  cases role with
  | functionBody => exact absurd rfl hbody
  | helperBody => exact absurd rfl hhelper
  | playerScriptUrl =>
    simp only [defaultMatchers, List.mem_cons, List.not_mem_nil, or_false] at hm
    rcases hm with rfl | rfl | rfl | rfl <;> exact ⟨_, rfl, by decide +kernel⟩
  | transformFunctionName =>
    simp only [defaultMatchers, List.mem_cons, List.not_mem_nil, or_false] at hm
    rcases hm with rfl | rfl | rfl | rfl
    · exact ⟨_, rfl, by decide +kernel⟩
    · exact ⟨_, (String.ofList_append ..).symm, by decide +kernel⟩
    · exact ⟨_, (String.ofList_append ..).symm, by decide +kernel⟩
    · exact ⟨_, (String.ofList_append ..).symm, by decide +kernel⟩
  | helperName =>
    simp only [defaultMatchers, List.mem_cons, List.not_mem_nil, or_false] at hm
    rcases hm with rfl | rfl | rfl | rfl
    · exact ⟨_, (String.ofList_append ..).symm, by decide +kernel⟩
    · exact ⟨_, (String.ofList_append ..).symm, by decide +kernel⟩
    · exact ⟨_, rfl, by decide +kernel⟩
    · exact ⟨_, rfl, by decide +kernel⟩

/-- **Every default matcher is served**, whatever it is searched with. -/
theorem served_default {role : Role} (hm : m ∈ defaultMatchers role) {c : Expression.Compiled}
    (hstands : m.Stands params c.pattern c.groups) : m.servedBy c = true := by
  -- a template has one capture whatever the name is; the others are fixed, so they are checked
  by_cases hrole : role = .functionBody ∨ role = .helperBody
  · obtain ⟨hindexed, hcapture, ⟨t⟩⟩ := namePlace_default hrole hm
    rcases hname : params.get? "name" with _ | v
    · cases hstands.symm.trans (t.expression?_none hname)
    · obtain rfl : c = ⟨t.around v.toList, 1⟩ := by
        have hsame : (Except.ok (some c) : Except Failure _) = .ok (some ⟨t.around v.toList, 1⟩) :=
          hstands.symm.trans (t.stands hname)
        cases hsame
        rfl
      rw [Matcher.servedBy, hindexed, hcapture]
      rfl
  · obtain ⟨hbody, hhelper⟩ := not_or.mp hrole
    obtain ⟨template, htemplate, hserved⟩ := isServed_fixed hbody hhelper hm
    exact servedBy_of_isServed htemplate hserved hstands

/-! ## The cascade -/

theorem firstCapture_endsWith (text : String) (params : Keyed String) (ms : List Matcher)
    (index : Nat) : (firstCapture text params ms index).EndsWith
      (fun r => ∀ found, r = some found → Captured text.toList found.value)
      fun e => ∃ m ∈ ms, (m.search text params).value = .error e := by
  induction ms generalizing index with
  | nil => exact endsWith_pure (by simp)
  | cons m rest ih =>
    refine EndsWith.bind ((appends_search m text params).endsWith (fun _ hr => hr)
      fun e he => ⟨m, List.mem_cons_self, he⟩) fun r hr => ?_
    rcases r with _ | w
    · refine (ih (index + 1)).weaken (fun _ h => h) ?_
      rintro e ⟨m', hm', he⟩
      exact ⟨m', List.mem_cons_of_mem m hm', he⟩
    · refine endsWith_pure fun found hfound => ?_
      cases hfound
      exact captured_search hr

theorem locate_endsWith (text : String) (role : Role) (ms : List Matcher) (params : Keyed String) :
    (locate text role ms params).EndsWith (fun found => Captured text.toList found.value)
      fun e => ∀ f, e = .fault f → ∃ m ∈ ms, (m.search text params).value = .error (.fault f) := by
  refine EndsWith.bind ((firstCapture_endsWith text params ms 0).weaken (fun _ h => h) ?_)
    fun r hr => ?_
  · rintro e he f rfl
    exact he
  rcases r with _ | found
  · exact (endsWith_emit _ _ _).bind fun _ _ => endsWith_throw (by simp)
  · exact (endsWith_emit _ _ _).bind fun _ _ => endsWith_pure (hr found rfl)

/-- A matcher that was given for a role faults on a part of a text. -/
def GivenFaults (patterns : Patterns) (text : String) (f : Fault) : Prop :=
  ∃ role ms m part params, patterns.given? role = some ms ∧ m ∈ ms ∧ part.toList <:+: text.toList ∧
    (m.search part params).value = .error (.fault f)

theorem GivenFaults.mono {patterns : Patterns} {part text : String} {f : Fault}
    (h : GivenFaults patterns part f) (hpart : part.toList <:+: text.toList) :
    GivenFaults patterns text f := by
  obtain ⟨role, ms, m, inner, params, hgiven, hm, hinner, hfault⟩ := h
  exact ⟨role, ms, m, inner, params, hgiven, hm, hinner.trans hpart, hfault⟩

theorem indexed_default {role : Role} (hm : m ∈ defaultMatchers role) (hindexed : m.indexed = true) :
    role = .transformFunctionName := by
  have hnone : ∀ role, role ≠ .transformFunctionName →
      (defaultMatchers role).all (!·.indexed) = true := by
    intro role hrole
    cases role with
    | transformFunctionName => exact absurd rfl hrole
    | _ => rfl
  refine Decidable.byContradiction fun hrole => ?_
  have := List.all_eq_true.mp (hnone role hrole) m hm
  simp [hindexed] at this

/-- **A search for a role** captures a part of the text or is announced to find nothing, unless a
    given matcher faults or the index of a function is too long to be read. -/
theorem locate_matchersFor (patterns : Patterns) (text : String) {role : Role}
    {params : Keyed String} : (locate text role (patterns.matchersFor role) params).EndsWith
      (fun found => Captured text.toList found.value)
      fun e => ∀ f, e = .fault f → GivenFaults patterns text f ∨
        role = .transformFunctionName ∧ f = .unreadableNumeral ∧ HasLongNumeral text.toList := by
  refine (locate_endsWith text role _ params).weaken (fun _ h => h) ?_
  rintro e he f rfl
  obtain ⟨m, hm, hfault⟩ := he f rfl
  unfold Patterns.matchersFor at hm
  rcases hgiven : patterns.given? role with _ | ms
  · rw [hgiven] at hm
    obtain ⟨hf, hindexed, hlong⟩ := search_served (fun _ => served_default hm) hfault
    cases hf
    exact .inr ⟨indexed_default hm hindexed, rfl, hlong⟩
  · rw [hgiven] at hm
    exact .inl ⟨role, ms, m, text, params, hgiven, hm, List.infix_refl _, hfault⟩

/-- What a build can fault on in a script, with matchers some of which may be given. -/
inductive Trouble (patterns : Patterns) (source : String) : Fault → Prop where
  | given {f : Fault} (h : GivenFaults patterns source f) : Trouble patterns source f
  /-- A numeral in the script is too long to be read. -/
  | numeral (h : HasLongNumeral source.toList) : Trouble patterns source .unreadableNumeral

/-- A search in a part of a script meets trouble in the script. -/
theorem locate_trouble (patterns : Patterns) {part source : String} {role : Role}
    {params : Keyed String} (hpart : part.toList <:+: source.toList) :
    (locate part role (patterns.matchersFor role) params).EndsWith
      (fun found => Captured part.toList found.value)
      fun e => ∀ f, e = .fault f → Trouble patterns source f := by
  refine (locate_matchersFor patterns part).weaken (fun _ h => h) fun e he f hf => ?_
  rcases he f hf with hgiven | ⟨-, rfl, hlong⟩
  · exact .given (hgiven.mono hpart)
  · exact .numeral (hlong.mono hpart)

/-! ## The stages of a build -/

/-- Where the parts of a script come from: each of them was captured, the name of the helper in the
    body of the function. -/
structure Symbols.TakenFrom (symbols : Symbols) (source : List Char) : Prop where
  functionName : Captured source symbols.functionName
  functionBody : Captured source symbols.functionBody
  helperName : Captured symbols.functionBody.toList symbols.helperName
  helperBody : Captured source symbols.helperBody

theorem extractSymbols_endsWith (source : String) (patterns : Patterns) :
    (extractSymbols source patterns).EndsWith (fun symbols => symbols.TakenFrom source.toList)
      fun e => ∀ f, e = .fault f → Trouble patterns source f := by
  have hsource : source.toList <:+: source.toList := List.infix_refl _
  refine EndsWith.bind (locate_trouble patterns hsource) fun name hname => ?_
  refine EndsWith.bind (locate_trouble patterns hsource) fun body hbody => ?_
  refine EndsWith.bind (locate_trouble patterns hbody.2) fun helper hhelper => ?_
  refine EndsWith.bind (locate_trouble patterns hsource) fun inner hinner => ?_
  exact endsWith_pure ⟨hname, hbody, hhelper, hinner⟩

theorem operationTable_endsWith (body : String) :
    (operationTable body).EndsWith (fun _ => True) fun e => ∀ f, e ≠ .fault f := by
  refine EndsWith.when (endsWith_emit _ _ _) fun _ => EndsWith.when (endsWith_throw (by simp))
    fun _ => ?_
  exact (endsWith_emit _ _ _).bind fun _ _ => endsWith_pure trivial

/-- Reading the calls of a function body only faults on a numeral that is too long. -/
theorem instructionOf_faults {text : List Char} (hfound : helperCall.FindsIn text found)
    {e : Failure} (h : instructionOf found = .error e) :
    e = .fault .unreadableNumeral ∧ HasLongNumeral text := by
  obtain ⟨ds, hds⟩ := hfound.group?_isSome (n := 3) rfl (by decide)
  obtain ⟨hdigits, hne, hinside⟩ := digits_of_group (by decide) hfound rfl hds
  unfold instructionOf at h
  rw [hds, Option.getD_some, readInteger_digits hdigits hne] at h
  split at h
  · next hread =>
    split at hread
    · next hlong =>
      cases h
      exact ⟨rfl, ds, hinside, hlong, hdigits⟩
    · cases hread
  · cases h

theorem compileTransform_endsWith (body : String) (table : OperationTable) :
    (compileTransform body table).EndsWith (fun _ => True)
      fun e => ∀ f, e = .fault f → f = .unreadableNumeral ∧ HasLongNumeral body.toList := by
  unfold compileTransform
  split
  · next e hparse =>
    refine endsWith_throw fun f hf => ?_
    obtain ⟨found, hfound, hread⟩ := Fallible.exists_of_mapM_eq_error hparse
    obtain ⟨he, hlong⟩ := instructionOf_faults (findAll_findsIn hfound) hread
    rw [hf] at he
    cases he
    exact ⟨rfl, hlong⟩
  · exact endsWith_throw (by simp)
  · refine EndsWith.when (endsWith_emit _ _ _) fun _ => ?_
    exact (endsWith_emit _ _ _).bind fun _ _ => endsWith_pure trivial

/-- **A build** from a script gives a transform, is announced to fail, or meets trouble in the
    script. -/
theorem buildFrom_endsWith (patterns : Patterns) (script : Script) :
    (buildFrom patterns script).EndsWith (fun _ => True)
      fun e => ∀ f, e = .fault f → Trouble patterns script.source f := by
  refine EndsWith.bind (extractSymbols_endsWith script.source patterns) fun symbols htaken => ?_
  refine EndsWith.bind ((operationTable_endsWith symbols.helperBody).weaken (fun _ h => h)
    fun e he f hf => absurd hf (he f)) fun table _ => ?_
  refine EndsWith.bind ((compileTransform_endsWith symbols.functionBody table).weaken (fun _ h => h)
    fun e he f hf => ?_) fun _ _ => endsWith_pure trivial
  obtain ⟨rfl, hlong⟩ := he f hf
  exact .numeral (hlong.mono htaken.functionBody.2)

/-! ## The URL of the script -/

/-- The reference to the script in a page, with its slashes written plainly. -/
def scriptReference (found : Located) : List Char := replaceAll ['\\', '/'] ['/'] found.value.toList

/-- Finding the URL of the script only faults where a given matcher does, or where the page names a
    URL that is malformed. -/
theorem scriptUrl_endsWith (settings : Settings) (page : String) :
    (scriptUrl settings page).EndsWith (fun _ => True) fun e => ∀ f, e = .fault f →
      GivenFaults settings.patterns page f ∨ f = .malformedUrl ∧ ∃ found,
        (locate page .playerScriptUrl (settings.patterns.matchersFor .playerScriptUrl) []).value =
          .ok found ∧
        Url.join settings.playerBase.toList (scriptReference found) = .error .malformedUrl := by
  have hlocate : (locate page .playerScriptUrl (settings.patterns.matchersFor .playerScriptUrl)
      []).EndsWith _ _ := locate_matchersFor settings.patterns page
  refine EndsWith.bind ((appends_locate _ _ _ _).endsWith (fun _ h => h) fun e he f hf => ?_)
    fun found hfound => ?_
  · exact .inl (((hlocate []).2 e he f hf).resolve_right fun h => absurd h.1 (by decide))
  · dsimp only
    split
    · exact endsWith_pure trivial
    · next f hf =>
      refine endsWith_throw fun f' hf' => .inr ?_
      cases hf'
      obtain rfl := Url.join_eq_error hf
      exact ⟨rfl, found, hfound, hf⟩

end StreamResolver.Cipher
