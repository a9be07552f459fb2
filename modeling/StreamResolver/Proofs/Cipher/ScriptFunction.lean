/-
  The transform function of a player script is found.

  Its name is read where the function is called (`locate_functionName`): the first place that an
  ampersand could belong to is in the last function of the script.  Its body is read where it is
  declared (`locate_functionBody`): an equality sign in front of that place is not followed by the
  word `function`.
-/
import StreamResolver.Proofs.Cipher.ScriptText
import StreamResolver.Proofs.Cipher.Templates

namespace StreamResolver.Cipher

open Text Pattern

/-! ## The name -/

/-- The call of the transform function: its name in capture 1, perhaps an index in capture 2. -/
def functionCall : Pattern :=
  .sequence (".get(\"n\"))&&".toList.map (fun c => .one (.char c)) ++
    ("(b=".toList.map (fun c => .one (.char c)) ++
      [.capture 1 (.some1 identChar),
       .opt (.sequence [.one (.char '['), .capture 2 (.some1 .digit), .one (.char ']')]),
       .one (.char '('), .one (.union [.range 'a' 'z', .range 'A' 'Z', .range '0' '9']),
       .one (.char ')')]))

theorem functionCall_stands (params : Keyed String) :
    ∃ m ms, defaultMatchers .transformFunctionName = m :: ms ∧
      m.indexed = true ∧ m.Stands params functionCall 2 :=
  ⟨_, _, rfl, rfl, stands_fixed rfl rfl rfl⟩

theorem takes_functionCall (f : Ident) (before after : List Char) :
    functionCall.Takes before [] (".get(\"n\"))&&".toList ++ ("(b=".toList ++
      (f.chars ++ ['(', 'b', ')']))) after [(1, f.chars)] := by
  refine takes_literal (takes_literal ?_)
  refine takes_cons (takes_capture (takes_span f.all_identChar f.one_le_length (by simp)
    (head?_cons_not (by decide) _) _ _)) ?_
  refine takes_cons (u := [])
    (takes_opt fun pos t => not_leads_one (head?_cons_not (by decide) _) t) ?_
  refine takes_char ?_
  refine takes_cons (u := ['b']) (takes_one (by decide) _ _ _) ?_
  exact takes_char (takes_end _ _ _)

namespace PlayerScript

variable (p : PlayerScript)

/-- The script up to the place where the last function looks at its argument. -/
def declarations : List Char :=
  "var ".toList ++ (p.helperName.chars ++ ("=\x7b".toList ++ (p.helperText ++
    ("\x7d;var ".toList ++ (p.functionName.chars ++ ("=function(a)\x7b".toList ++ (p.bodyText ++
      "\x7d;g.z=function(a)\x7bvar b;a.".toList)))))))

theorem text_eq_call : p.text =
    (p.declarations ++ ['D']) ++ ("&&(b=".toList ++ ['a']) ++ ((".get(\"n\"))&&".toList ++
      ("(b=".toList ++ (p.functionName.chars ++ ['(', 'b', ')']))) ++
        ",a.set(\"n\",b))\x7d;".toList) := by
  have hcall : "\x7d;g.z=function(a)\x7bvar b;a.D&&(b=a.get(\"n\"))&&(b=".toList =
      "\x7d;g.z=function(a)\x7bvar b;a.".toList ++ (['D'] ++ ("&&(b=".toList ++ (['a'] ++
        (".get(\"n\"))&&".toList ++ "(b=".toList)))) := by decide
  have hend : "(b),a.set(\"n\",b))\x7d;".toList =
      ['(', 'b', ')'] ++ ",a.set(\"n\",b))\x7d;".toList := by decide
  rw [text, hcall, hend]
  simp only [declarations, List.append_assoc]

theorem ampersand_not_mem_declarations : '&' ∉ p.declarations := by
  have hhelper : '&' ∉ p.helperText := p.not_mem_helperText (by decide) (by decide)
    fun s => by cases s <;> decide
  have hbody : '&' ∉ p.bodyText :=
    p.not_mem_bodyText (by decide) (by decide) (by decide) (by decide)
  have hident : isIdentChar '&' = false := by decide
  simp only [declarations, List.mem_append, not_or]
  refine ⟨by decide, p.helperName.not_mem hident, by decide, hhelper, by decide,
    p.functionName.not_mem hident, by decide, hbody, by decide⟩

/-- **The name of the transform function** is located. -/
theorem locate_functionName : ∃ i, (locate (String.ofList p.text) .transformFunctionName
    (defaultMatchers .transformFunctionName) []).value =
      .ok ⟨String.ofList p.functionName.chars, i⟩ := by
  obtain ⟨m, ms, hms, hindexed, hstands⟩ := functionCall_stands []
  have hbarren : functionCall.Barren [] ((p.declarations ++ ['D']) ++ ("&&(b=".toList ++ ['a']))
      ((".get(\"n\"))&&".toList ++ ("(b=".toList ++ (p.functionName.chars ++ ['(', 'b', ')']))) ++
        ",a.set(\"n\",b))\x7d;".toList) := by
    refine Barren.of_front (Barren.append ?_ ?_)
    · exact barren_before_separator (x := '&') (by decide) (by decide)
        p.ampersand_not_mem_declarations _ _
    · exact barren_before_separator (x := '.') (by decide) (by decide) (by decide) _ _
  obtain ⟨found, hfound, hcaps⟩ :=
    search?_eq_some hbarren (takes_functionCall p.functionName _ _) (by simp)
  rw [← text_eq_call, ← String.toList_ofList (l := p.text)] at hfound
  obtain ⟨c, rest, hname, -⟩ := p.functionName.exists_cons
  rw [hname] at hcaps
  refine ⟨0, locate_eq_ok ?_⟩
  rw [hms, hname]
  refine firstCapture_here (search_unindexed hstands hfound hindexed (by decide) ?_ ?_) 0
  · rw [group?_eq hcaps (by decide)]
    rfl
  · rw [group?_eq hcaps (by decide)]
    rfl

end PlayerScript

/-! ## The body -/

/-- The declaration of the function with the given name, not at the end of another name. -/
def functionDeclaration (name : List Char) : Pattern :=
  .sequence (.behind true 1 (.one nameChar) ::
    (name.map (fun c => .one (.char c)) ++ (.many .blank :: functionValue)))

theorem functionDeclaration_stands (i : Ident) : ∃ m ms, defaultMatchers .functionBody = m :: ms ∧
    m.indexed = false ∧ m.capture = 1 ∧
      m.Stands [("name", String.ofList i.chars)] (functionDeclaration i.chars) 1 := by
  obtain ⟨m, ms, hms, hindexed, hcapture, t, ht⟩ :
      ∃ m ms, defaultMatchers .functionBody = m :: ms ∧ m.indexed = false ∧ m.capture = 1 ∧
        ∃ t : NamePlace m, ∀ name, t.around name = functionDeclaration name :=
    ⟨_, _, rfl, rfl, rfl, .ofTexts (String.ofList_append ..).symm rfl (by decide +kernel) rfl
      fronts_unnamed backs_function rfl (by decide), fun name => rfl⟩
  exact ⟨m, ms, hms, hindexed, hcapture, ht i.chars ▸ t.stands_named i.chars⟩

theorem takes_functionDeclaration (i : Ident) {c : Char} (hc : nameChar.has c = false)
    (before : List Char) {body : List Char} (hbody : '\x7d' ∉ body) (after : List Char) :
    (functionDeclaration i.chars).Takes (c :: before) [] (i.chars ++ ('=' :: ("function".toList ++
      ('(' :: 'a' :: ')' :: '\x7b' :: (body ++ ['\x7d']))))) after [(1, body)] := by
  have hlazy : (sequence [.one (.char '\x7d')]).Barren
      ('\x7b' :: ')' :: 'a' :: '(' :: ("function".toList.reverse ++ ('=' :: (i.chars.reverse ++
        c :: before)))) body (['\x7d'] ++ after) := by
    refine barren_one (fun x hx => ?_) _ _
    rw [CharSet.has_char, beq_eq_false_iff_ne]
    rintro rfl
    exact hbody hx
  refine takes_cons (u := []) (takes_behind hc) (takes_literal ?_)
  refine takes_gap (head?_cons_not (by decide) _) (takes_char ?_)
  refine takes_gap ?_ (takes_literal ?_)
  · rw [List.append_assoc]
    exact head?_append_not (c := 'f') (by decide) (by decide) _
  refine takes_gap (head?_cons_not (by decide) _) (takes_char ?_)
  refine takes_gap (head?_cons_not (by decide) _) ?_
  refine takes_cons (u := ['a']) (takes_single (by decide) (head?_cons_not (by decide) _) _ _) ?_
  refine takes_gap (head?_cons_not (by decide) _) (takes_char ?_)
  refine takes_gap (head?_cons_not (by decide) _) (takes_char ?_)
  exact takes_lazy (fun _ _ => rfl) hlazy (takes_char (takes_end _ _ _))

/-- A function as a value begins with an equality sign, and then comes a blank or the word. -/
theorem functionValue_begins :
    (sequence functionValue).Begins '=' fun d => CharSet.blank.has d || d == 'f' := by
  intro s t h
  obtain ⟨m, hequals, h⟩ := leads_sequence_cons h
  obtain ⟨c, hc, hafter⟩ := leads_one hequals
  obtain rfl : c = '=' := by simpa using hc
  obtain ⟨r, ⟨ws, hws, -, -, hgap⟩, h⟩ := leads_sequence_cons h
  obtain ⟨q, hword, -⟩ := leads_sequence_append h
  have hfunction := (leads_literal hword).after_eq
  rw [hgap.after_eq, hfunction] at hafter
  rcases ws with _ | ⟨d, ws⟩
  · exact ⟨'f', _, hafter, by decide⟩
  · exact ⟨d, _, hafter, by simp [hws d List.mem_cons_self]⟩

/-- In front of the function there is a name and perhaps blanks. -/
theorem functionDeclaration_leads {name : List Char} {s t : Place}
    (h : (functionDeclaration name).Leads s t) :
    ∃ ws m, (∀ c ∈ ws, CharSet.blank.has c = true) ∧ s.Reads (name ++ ws) m ∧
      (sequence functionValue).Leads m t := by
  obtain ⟨r, hbehind, hrest⟩ := leads_sequence_cons h
  obtain rfl : r = s := hbehind
  obtain ⟨q, hname, hvalue⟩ := leads_sequence_append hrest
  obtain ⟨m, ⟨ws, hws, -, -, hgap⟩, hvalue⟩ := leads_sequence_cons hvalue
  exact ⟨ws, m, hws, (leads_literal hname).trans hgap, hvalue⟩

/-- Behind a blank that follows a name there are only blanks. -/
theorem Ident.blanks_behind (i : Ident) {ws y x : List Char}
    (hws : ∀ c ∈ ws, CharSet.blank.has c = true) (h : i.chars ++ ws = y ++ ' ' :: x) :
    ∀ c ∈ x, CharSet.blank.has c = true := by
  intro c hc
  rcases List.append_eq_append_iff.mp h with ⟨z, rfl, rfl⟩ | ⟨z, hi, hz⟩
  · exact hws c (List.mem_append_right z (List.mem_cons_of_mem ' ' hc))
  · rcases z with _ | ⟨e, z⟩
    · obtain rfl : ' ' :: x = ws := hz
      exact hws c (List.mem_cons_of_mem ' ' hc)
    · -- the blank would stand in the name
      obtain rfl : ' ' = e := (List.cons_eq_cons.mp hz).1
      refine absurd ?_ (i.not_mem (x := ' ') (by decide))
      rw [hi]
      exact List.mem_append_right y List.mem_cons_self

/-- An identifier and an equality sign do not begin with blanks and an equality sign. -/
theorem Ident.ne_blanks (i : Ident) {x r s : List Char}
    (hx : ∀ c ∈ x, CharSet.blank.has c = true) : i.chars ++ r ≠ x ++ '=' :: s := by
  obtain ⟨c, more, hi, hc⟩ := i.exists_cons
  intro h
  rw [hi] at h
  rcases x with _ | ⟨e, x⟩
  · obtain rfl : c = '=' := (List.cons_eq_cons.mp h).1
    exact absurd hc (by decide)
  · obtain rfl : c = e := (List.cons_eq_cons.mp h).1
    have hblank := hx c List.mem_cons_self
    rw [nameChar_blank _ (ident_classes hc).2] at hblank
    simp at hblank

/-- **The declaration is not found too early**: an equality sign in the text has no function
    behind it, and a name that begins in the text does not reach over the blank at its end. -/
theorem barren_functionDeclaration (i : Ident) {before text after : List Char}
    (hvalue : (sequence functionValue).Barren before (text ++ [' '])
      (i.chars ++ '=' :: after)) :
    (functionDeclaration i.chars).Barren before (text ++ [' ']) (i.chars ++ '=' :: after) := by
  intro u v huv hv pos caps t hleads
  obtain ⟨ws, m, hws, hreads, hfunction⟩ := functionDeclaration_leads hleads
  obtain ⟨d, rest, hequals, -⟩ := functionValue_begins _ _ hfunction
  have hafter : v ++ (i.chars ++ '=' :: after) = (i.chars ++ ws) ++ m.after := hreads.after_eq
  have hbefore : m.before = (i.chars ++ ws).reverse ++ (u.reverse ++ before) := hreads.before_eq
  rcases List.append_eq_append_iff.mp hafter with ⟨x, hx, hrest⟩ | ⟨x, rfl, hm⟩
  · -- the name and its blanks reach over the end of the text
    obtain ⟨y, -, rfl⟩ := tail_of_last huv hv
    rw [List.append_assoc, List.singleton_append] at hx
    rw [hequals] at hrest
    exact i.ne_blanks (i.blanks_behind hws hx) hrest
  · rcases Decidable.em (x = []) with rfl | hx
    · -- they reach the end of the text, and the function begins where the next name does
      rw [hequals] at hm
      exact i.ne_blanks (x := []) (by simp) hm.symm
    · -- the equality sign is still in the text
      have htext : text ++ [' '] = (u ++ (i.chars ++ ws)) ++ x := by
        rw [huv]
        simp only [List.append_assoc]
      refine hvalue (u ++ (i.chars ++ ws)) x htext hx m.pos m.captures t ?_
      rw [List.reverse_append, List.append_assoc, ← hbefore, ← hm]
      exact hfunction

namespace PlayerScript

variable (p : PlayerScript)

/-- The script up to the blank in front of the name of the transform function. -/
def helperDeclaration : List Char :=
  "var ".toList ++ (p.helperName.chars ++ ("=\x7b".toList ++ (p.helperText ++
    "\x7d;var".toList)))

theorem text_eq_declaration : p.text =
    (p.helperDeclaration ++ [' ']) ++ ((p.functionName.chars ++ ('=' :: ("function".toList ++
      ('(' :: 'a' :: ')' :: '\x7b' :: (p.bodyText ++ ['\x7d']))))) ++
        (";g.z=function(a)\x7bvar b;a.D&&(b=a.get(\"n\"))&&(b=".toList ++ (p.functionName.chars ++
          "(b),a.set(\"n\",b))\x7d;".toList))) := by
  have hvar : "\x7d;var ".toList = "\x7d;var".toList ++ [' '] := by decide
  have hfunction : "=function(a)\x7b".toList =
      ['='] ++ ("function".toList ++ ['(', 'a', ')', '\x7b']) := by decide
  have hend : "\x7d;g.z=function(a)\x7bvar b;a.D&&(b=a.get(\"n\"))&&(b=".toList =
      ['\x7d'] ++ ";g.z=function(a)\x7bvar b;a.D&&(b=a.get(\"n\"))&&(b=".toList := by decide
  rw [text, hvar, hfunction, hend]
  simp only [helperDeclaration, List.append_assoc, List.cons_append, List.nil_append]

theorem barren_functionValue (after : List Char) :
    (sequence functionValue).Barren [] (p.helperDeclaration ++ [' ']) after := by
  have hvalue := functionValue_begins
  have htext : p.helperDeclaration ++ [' '] = "var ".toList ++ (p.helperName.chars ++ (['='] ++
      (['\x7b'] ++ (p.helperText ++ '\x7d' :: ";var ".toList)))) := by
    have hopen : "=\x7b".toList = ['='] ++ ['\x7b'] := by decide
    have hclose : "\x7d;var".toList ++ [' '] = '\x7d' :: ";var ".toList := by decide
    rw [helperDeclaration, hopen, ← hclose]
    simp only [List.append_assoc]
  rw [htext]
  refine (hvalue.barren_of_not_mem (by decide) _ _).append ?_
  refine (hvalue.barren_of_not_mem (p.helperName.not_mem (by decide)) _ _).append ?_
  refine (hvalue.barren_of_free (by decide) _ _).append ?_
  refine (hvalue.barren_of_not_mem (by decide) _ _).append ?_
  refine (p.barren_helperText hvalue (by decide) (by decide) ?_ _ _).append ?_
  · exact fun s => by cases s <;> decide +kernel
  · exact hvalue.barren_of_not_mem (by decide) _ _

/-- **The body of the transform function** is located. -/
theorem locate_functionBody : ∃ i, (locate (String.ofList p.text) .functionBody
    (defaultMatchers .functionBody) [("name", String.ofList p.functionName.chars)]).value =
      .ok ⟨String.ofList p.bodyText, i⟩ := by
  obtain ⟨m, ms, hms, hindexed, hcapture, hstands⟩ := functionDeclaration_stands p.functionName
  have hbrace : '\x7d' ∉ p.bodyText :=
    p.not_mem_bodyText (by decide) (by decide) (by decide) (by decide)
  have hbarren : ∀ after, (functionDeclaration p.functionName.chars).Barren []
      (p.helperDeclaration ++ [' ']) (p.functionName.chars ++ '=' :: after) :=
    fun after => barren_functionDeclaration p.functionName (p.barren_functionValue _)
  have hblank : (p.helperDeclaration ++ [' ']).reverse = ' ' :: p.helperDeclaration.reverse := by
    rw [List.reverse_append]
    rfl
  have htakes := takes_functionDeclaration p.functionName (c := ' ') (by decide)
    p.helperDeclaration.reverse hbrace
  rw [← hblank] at htakes
  have hfound : ∃ found, (functionDeclaration p.functionName.chars).search? p.text = some found ∧
      found.stop.captures = [(1, p.bodyText)] := by
    rw [text_eq_declaration]
    exact search?_eq_some (by rw [List.append_assoc]; exact hbarren _) (htakes _) (by simp)
  refine ⟨0, locate_eq_ok ?_⟩
  rw [hms]
  refine firstCapture_here (search_captured hstands hindexed (by omega) (by omega) hfound ?_ ?_) 0
  · rw [hcapture]
    rfl
  · rw [bodyText_eq]
    simp

end PlayerScript

end StreamResolver.Cipher
