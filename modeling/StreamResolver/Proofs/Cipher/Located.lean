/-
  What is located, and when nothing is.

  Matchers are tried one after another, and one is only reached when all before it capture nothing
  (`Reached`).  So a search for a role fails in one of two ways: a matcher that is reached fails, or
  all of them capture nothing (`locate_eq_error_iff`).

  With the default matchers the first way is left to one role: an index that is captured and has
  more digits than are read, for an array that is declared (`locate_default`).  Every other failure
  is announced, and whatever is located is not empty and stands in the text; so the four symbols of
  a script are pieces of it, whatever the matchers are (`symbols_taken_from_script`).
-/
import StreamResolver.Proofs.Cipher.Faults
import StreamResolver.Proofs.Cipher.ScriptFunction

namespace StreamResolver.Cipher

open Text Pattern Reporting

variable {m : Matcher} {ms : List Matcher} {text : String} {role : Role} {params : Keyed String}
  {e : Failure}

/-! ## The matcher that decides -/

/-- The matcher is tried: those in front of it capture nothing. -/
inductive Reached (text : String) (params : Keyed String) : List Matcher → Matcher → Prop where
  | here (m : Matcher) (ms : List Matcher) : Reached text params (m :: ms) m
  | there {m m' : Matcher} {ms : List Matcher} (h : (m.search text params).value = .ok none)
      (hrest : Reached text params ms m') : Reached text params (m :: ms) m'

theorem Reached.mem (h : Reached text params ms m) : m ∈ ms := by
  induction h with
  | here m ms => exact List.mem_cons_self
  | there _ _ ih => exact List.mem_cons_of_mem _ ih

theorem firstCapture_fails (h : (m.search text params).value = .error e) (i : Nat) :
    (firstCapture text params (m :: ms) i).value = .error e := by
  rw [firstCapture, value_bind, h]
  intro found
  split
  · exact appends_pure _
  · exact appends_firstCapture text params ms (i + 1)

theorem firstCapture_eq_error_iff (i : Nat) : (firstCapture text params ms i).value = .error e ↔
    ∃ m, Reached text params ms m ∧ (m.search text params).value = .error e := by
  -- the rest is only reached when the matcher in front comes to nothing
  induction ms generalizing i with
  | nil =>
    refine iff_of_false (fun h => ?_) ?_
    · cases h
    · rintro ⟨m, hreached, -⟩
      cases hreached
  | cons m ms ih =>
    rcases hsearch : (m.search text params).value with e' | _ | v
    · rw [firstCapture_fails hsearch]
      constructor
      · intro h
        cases h
        exact ⟨m, .here m ms, hsearch⟩
      · rintro ⟨m', hreached, h⟩
        cases hreached with
        | here =>
          cases hsearch.symm.trans h
          rfl
        | there hnone hrest => cases hsearch.symm.trans hnone
    · rw [firstCapture_there hsearch, ih]
      constructor
      · rintro ⟨m', hreached, h⟩
        exact ⟨m', .there hsearch hreached, h⟩
      · rintro ⟨m', hreached, h⟩
        cases hreached with
        | here => cases hsearch.symm.trans h
        | there hnone hrest => exact ⟨m', hrest, h⟩
    · rw [firstCapture_here hsearch]
      refine iff_of_false (by simp) ?_
      rintro ⟨m', hreached, h⟩
      cases hreached with
      | here => cases hsearch.symm.trans h
      | there hnone hrest => cases hsearch.symm.trans hnone

theorem firstCapture_eq_none_iff (i : Nat) : (firstCapture text params ms i).value = .ok none ↔
    ∀ m ∈ ms, (m.search text params).value = .ok none := by
  induction ms generalizing i with
  | nil => exact iff_of_true rfl (by simp)
  | cons m ms ih =>
    rw [List.forall_mem_cons]
    rcases hsearch : (m.search text params).value with e' | _ | v
    · rw [firstCapture_fails hsearch]
      simp
    · rw [firstCapture_there hsearch, ih]
      simp
    · rw [firstCapture_here hsearch]
      simp

/-- **A search for a role fails** when a matcher that is reached does, and when all capture nothing;
    then the failure names the role. -/
theorem locate_eq_error_iff : (locate text role ms params).value = .error e ↔
    (∃ m, Reached text params ms m ∧ (m.search text params).value = .error e) ∨
      e = .extractor (.extractionFailed role.name) ∧
        ∀ m ∈ ms, (m.search text params).value = .ok none := by
  rw [← firstCapture_eq_error_iff 0, ← firstCapture_eq_none_iff 0]
  rcases hfirst : (firstCapture text params ms 0).value with e' | _ | found
  · have hlocate : (locate text role ms params).value = .error e' := by
      rw [locate, value_bind, hfirst]
      intro found
      split
      · exact appends_bind (appends_emit _ _ _) fun _ => appends_pure _
      · exact appends_bind (appends_emit _ _ _) fun _ => appends_throw _
    rw [hlocate]
    simp
  · have hlocate : (locate text role ms params).value =
        .error (.extractor (.extractionFailed role.name)) := by
      refine (value_bind_of ?_ hfirst).trans ?_
      · exact appends_bind (appends_emit _ _ _) fun _ => appends_throw _
      · exact value_bind_ok (fun _ => appends_throw _) (value_emit _ _ _)
    rw [hlocate, Except.error.injEq]
    simp [eq_comm]
  · rw [locate_eq_ok hfirst]
    simp

/-! ## The default matchers -/

/-- **A search with the default matchers** gives a text that is not empty and stands in what is
    searched, or it fails.  It fails with the announced failure of the role, just when no matcher
    captures anything, or on a numeral that is too long: only for the name of the transform
    function, and there just when the matcher that is reached captures such an index. -/
theorem locate_default (text : String) (role : Role) (params : Keyed String) :
    (∀ found, (locate text role (defaultMatchers role) params).value = .ok found →
      Captured text.toList found.value) ∧
    ∀ e, (locate text role (defaultMatchers role) params).value = .error e ↔
      e = .extractor (.extractionFailed role.name) ∧
        (∀ m ∈ defaultMatchers role, (m.search text params).value = .ok none) ∨
      e = .fault .unreadableNumeral ∧ role = .transformFunctionName ∧
        ∃ m, Reached text params (defaultMatchers role) m ∧ m.IndexTooLong text params := by
  constructor
  · intro found h
    exact (locate_endsWith text role (defaultMatchers role) params []).1 found h
  · intro e
    have hfails : ∀ m ∈ defaultMatchers role, ((m.search text params).value = .error e ↔
        e = .fault .unreadableNumeral ∧ m.IndexTooLong text params) :=
      fun m hm => search_eq_error_iff fun _ => served_default hm
    rw [locate_eq_error_iff, or_comm]
    refine or_congr_right ?_
    constructor
    · rintro ⟨m, hreached, h⟩
      obtain ⟨he, hlong⟩ := (hfails m hreached.mem).mp h
      exact ⟨he, indexed_default hreached.mem hlong.1, m, hreached, hlong⟩
    · rintro ⟨he, -, m, hreached, hlong⟩
      exact ⟨m, hreached, (hfails m hreached.mem).mpr ⟨he, hlong⟩⟩

/-- The declaration of an array and a call through a slot of it. -/
def slotCallText (index : List Char) : List Char :=
  ("var Xy=[a]".toList ++ [';']) ++ ((".get(\"n\"))&&".toList ++ ("(b=".toList ++
    ("Xy".toList ++ ((['['] ++ (index ++ [']'])) ++ ['(', 'b', ')'])))) ++ [])

theorem takes_slotCall {index : List Char} (hindex : ∀ c ∈ index, isDigit c = true)
    (hne : index ≠ []) (before after : List Char) :
    functionCall.Takes before [] (".get(\"n\"))&&".toList ++ ("(b=".toList ++
      ("Xy".toList ++ ((['['] ++ (index ++ [']'])) ++ ['(', 'b', ')'])))) after
        [(2, index), (1, "Xy".toList)] := by
  have hidentifier : ∀ c ∈ "Xy".toList, identChar.has c = true :=
    List.all_eq_true.mp (by decide : "Xy".toList.all identChar.has = true)
  have hdigits : ∀ c ∈ index, CharSet.digit.has c = true := hindex
  have hslot : ∀ before after, (sequence [.one (.char '['), .capture 2 (.some1 .digit),
      .one (.char ']')]).Takes before [(1, "Xy".toList)] (['['] ++ (index ++ [']'])) after
        [(2, index), (1, "Xy".toList)] := by
    intro before after
    refine takes_char (takes_cons (u := index) (takes_capture (takes_span hdigits
      (List.length_pos_iff.mpr hne) (by simp) (head?_cons_not (by decide) _) _ _)) ?_)
    exact takes_char (takes_end _ _ _)
  refine takes_literal (takes_literal ?_)
  refine takes_cons (takes_capture (takes_span hidentifier (by decide) (by simp)
    (head?_cons_not (by decide) _) _ _)) ?_
  refine takes_cons (takes_opt_part (hslot _ _)) (takes_char ?_)
  refine takes_cons (u := ['b']) (takes_one (by decide) _ _ _) ?_
  exact takes_char (takes_end _ _ _)

/-- The array is there, whatever comes behind it. -/
theorem arrayItems?_slotCallText (after : List Char) :
    Matcher.arrayItems? "Xy".toList ("var Xy=[a]".toList ++ after) ≠ none := by
  have htakes : (Matcher.arrayDeclaration "Xy".toList).Takes [] []
      ("var".toList ++ ([' '] ++ ("Xy".toList ++ (['='] ++ (['['] ++ (['a'] ++ [']'])))))) after
        [(1, ['a'])] := by
    refine takes_cons (takes_text _ _ _ _) ?_
    refine takes_cons (takes_single (by decide) (head?_cons_not (by decide) _) _ _) ?_
    refine takes_cons (takes_text _ _ _ _) ?_
    refine takes_gap (head?_cons_not (by decide) _) (takes_cons (takes_text _ _ _ _) ?_)
    refine takes_gap (head?_cons_not (by decide) _) (takes_cons (takes_text _ _ _ _) ?_)
    refine takes_cons (takes_capture (takes_single (by decide) (head?_cons_not (by decide) _) _ _)) ?_
    exact takes_text _ _ _ _
  have hdeclaration : "var Xy=[a]".toList =
      "var".toList ++ ([' '] ++ ("Xy".toList ++ (['='] ++ (['['] ++ (['a'] ++ [']']))))) := by
    decide
  obtain ⟨items, hitems, hcaps⟩ := search?_eq_some (barren_nil _ [] _) htakes (by simp)
  have hgroup : items.group? 1 = some ['a'] := by
    rw [group?_eq hcaps (by decide)]
    rfl
  rw [List.nil_append, ← hdeclaration] at hitems
  rw [Matcher.arrayItems?, hitems, Option.bind_some, hgroup]
  simp

/-- **Every index of too many digits** is such a failure, when the array is there. -/
theorem locate_slotCallText {index : List Char} (hindex : ∀ c ∈ index, isDigit c = true)
    (hlong : maxDigits < index.length) (params : Keyed String) :
    (locate (String.ofList (slotCallText index)) .transformFunctionName
      (defaultMatchers .transformFunctionName) params).value = .error (.fault .unreadableNumeral) := by
  obtain ⟨m, ms, hms, hindexed, hstands⟩ := functionCall_stands params
  have hm : m ∈ defaultMatchers .transformFunctionName := hms ▸ List.mem_cons_self
  have hne : index ≠ [] := by
    rintro rfl
    simp at hlong
  have htext : (String.ofList (slotCallText index)).toList = slotCallText index := String.toList_ofList
  -- the first matcher is the one that fails: it finds the call, with the array and the index
  obtain ⟨found, hfound, hcaps⟩ : ∃ found, functionCall.search? (slotCallText index) = some found ∧
      found.stop.captures = [(2, index), (1, "Xy".toList)] :=
    search?_eq_some
      (Barren.of_front (barren_before_separator (x := '.') (by decide) (by decide) (by decide) _ _))
      (takes_slotCall hindex hne _ _) (by simp)
  refine locate_eq_error_iff.mpr (.inl ⟨m, hms ▸ .here m ms, ?_⟩)
  refine (search_eq_error_iff fun _ => served_default hm).mpr ⟨rfl, hindexed, ⟨functionCall, 2⟩,
    found, "Xy".toList, index, hstands, ?_, ?_, ?_, ?_, hlong⟩
  · rw [htext]
    exact hfound
  · rw [group?_eq hcaps (by decide)]
    rfl
  · rw [group?_eq hcaps (by decide)]
    rfl
  · have hsplit : slotCallText index = "var Xy=[a]".toList ++ ([';'] ++ _) := List.append_assoc ..
    rw [htext, hsplit]
    exact arrayItems?_slotCallText _

/-! ## The symbols of a script -/

/-- **The symbols come from the script**, whatever the matchers are: none of them is empty, the name
    of the helper stands in the body of the function, and all of them stand in the script. -/
theorem symbols_taken_from_script (source : String) (patterns : Patterns) (symbols : Symbols)
    (h : (extractSymbols source patterns).value = .ok symbols) :
    symbols.TakenFrom source.toList ∧ Captured source.toList symbols.helperName := by
  have htaken : symbols.TakenFrom source.toList := (extractSymbols_endsWith source patterns []).1 _ h
  refine ⟨htaken, htaken.helperName.1, ?_⟩
  exact htaken.helperName.2.trans htaken.functionBody.2

/-- A script that calls its function through a slot of an array, with a blank on both sides of the
    name there. -/
def slottedScript : String :=
  "var Xy=[q, Gh ];var Zz=\x7bab:f\x7d;Gh=function(a)\x7bZz.ab(a,1)\x7d;a.get(\"n\"))&&(b=Xy[1](b)"

theorem symbols_taken_from_script_slotted : ∃ symbols,
    (extractSymbols slottedScript []).value = .ok symbols ∧ symbols.functionName = "Gh" ∧
      symbols.TakenFrom slottedScript.toList ∧
        Captured slottedScript.toList symbols.helperName := by
  have hsymbols : (extractSymbols slottedScript []).value.toOption =
      some ⟨"Gh", "Zz.ab(a,1)", "Zz", "ab:f"⟩ := by
    decide +kernel
  rcases h : (extractSymbols slottedScript []).value with e | symbols
  · rw [h] at hsymbols
    cases hsymbols
  · rw [h] at hsymbols
    cases hsymbols
    exact ⟨_, rfl, rfl, symbols_taken_from_script _ _ _ h⟩

end StreamResolver.Cipher
