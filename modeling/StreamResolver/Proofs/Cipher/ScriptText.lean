/-
  The characters of a player script.

  Where an expression can match in a script is decided by a few characters: separators that it
  does not pass and characters that it needs.  So this is what is known of the texts in a script:
  the sets that the characters of names and numerals belong to, and the characters that a text
  does not have.
-/
import StreamResolver.Cipher.Transform
import StreamResolver.Proofs.Cipher.PlayerScript
import StreamResolver.Proofs.Pattern.Finding
import StreamResolver.Proofs.Pattern.Stretches
import StreamResolver.Proofs.Text.Blanks
import StreamResolver.Proofs.Text.Joining

namespace StreamResolver.Cipher

open Text Pattern

/-! ## Names and numerals -/

/-- The set of the characters of identifiers as the default matchers spell it. -/
def identChar : CharSet :=
  .union [.range 'a' 'z', .range 'A' 'Z', .range '0' '9', .char '$', .char '_']

theorem ident_ascii {c : Char} (h : isIdentChar c = true) : c.toNat < 0x80 := by
  simp only [isIdentChar, Bool.or_eq_true, beq_iff_eq] at h
  rcases h with (h | rfl) | rfl
  · exact ascii_of_isAlphanum h
  · decide
  · decide

theorem ident_classes {c : Char} (h : isIdentChar c = true) :
    identChar.has c = true ∧ nameChar.has c = true := by
  have hall : ∀ n, n < 128 → isIdentChar (Char.ofNat n) = true →
      identChar.has (Char.ofNat n) = true ∧ nameChar.has (Char.ofNat n) = true := by
    decide +kernel
  exact ascii_forall (P := fun c => isIdentChar c = true → identChar.has c = true ∧
    nameChar.has c = true) hall (ident_ascii h) h

/-- The two spellings say the same. -/
theorem isIdentChar_of_identChar {c : Char} (h : identChar.has c = true) :
    isIdentChar c = true := by
  have hascii : c.toNat < 0x80 := by
    have hz : 'z'.val.toNat = 122 := rfl
    have hZ : 'Z'.val.toNat = 90 := rfl
    have h9 : '9'.val.toNat = 57 := rfl
    have hc : c.toNat = c.val.toNat := rfl
    simp only [identChar, CharSet.has, CharSet.anyHas, Bool.or_eq_true, Bool.and_eq_true,
      decide_eq_true_eq, Char.le_def, UInt32.le_iff_toNat_le, beq_iff_eq] at h
    rcases h with h | h | h | rfl | rfl | h
    · omega
    · omega
    · omega
    · decide
    · decide
    · cases h
  have hall : ∀ n, n < 128 → identChar.has (Char.ofNat n) = true →
      isIdentChar (Char.ofNat n) = true := by
    decide +kernel
  exact ascii_forall (P := fun c => identChar.has c = true → isIdentChar c = true) hall hascii h

theorem nameChar_cases {c : Char} (h : nameChar.has c = true) : isWord c = true ∨ c = '$' := by
  simpa [nameChar, CharSet.has, CharSet.anyHas] using h

theorem nameChar_of_word {c : Char} (h : CharSet.word.has c = true) : nameChar.has c = true := by
  have hword : isWord c = true := h
  simp [nameChar, CharSet.has, hword]

theorem word_blank : Apart .word .blank := fun _ h => isBlank_of_isWord h

theorem digit_blank : Apart .digit .blank := fun _ h => isBlank_of_isDigit h

theorem nameChar_blank : Apart nameChar .blank := by
  intro c h
  rcases nameChar_cases h with h | rfl
  · exact isBlank_of_isWord h
  · decide

theorem quoteMark_cases {c : Char} (h : quoteMark.has c = true) : c = '"' ∨ c = '\'' := by
  simpa [quoteMark] using h

theorem nameChar_quoteMark : Apart nameChar quoteMark := by
  refine Apart.symm fun c h => ?_
  rcases quoteMark_cases h with rfl | rfl <;> decide

theorem quoteMark_blank : Apart quoteMark .blank := by
  intro c h
  rcases quoteMark_cases h with rfl | rfl <;> decide

theorem digit_ident {c : Char} (h : c.isDigit = true) : isIdentChar c = true := by
  simp [isIdentChar, Char.isAlphanum, h]

theorem digit_classes {c : Char} (h : c.isDigit = true) :
    CharSet.digit.has c = true ∧ digitValue c = some (c.toNat - 0x30) := by
  have hall : ∀ n, n < 128 → (Char.ofNat n).isDigit = true →
      CharSet.digit.has (Char.ofNat n) = true ∧
        digitValue (Char.ofNat n) = some ((Char.ofNat n).toNat - 0x30) := by
    decide +kernel
  exact ascii_forall (P := fun c => c.isDigit = true → CharSet.digit.has c = true ∧
    digitValue c = some (c.toNat - 0x30)) hall (ident_ascii (digit_ident h)) h

namespace Ident

variable (i : Ident)

theorem not_mem {x : Char} (hx : isIdentChar x = false) : x ∉ i.chars := by
  intro h
  rw [i.all_ident x h] at hx
  simp at hx

theorem all_identChar : ∀ c ∈ i.chars, identChar.has c = true :=
  fun c hc => (ident_classes (i.all_ident c hc)).1

theorem all_nameChar : ∀ c ∈ i.chars, nameChar.has c = true :=
  fun c hc => (ident_classes (i.all_ident c hc)).2

theorem no_blank : ∀ c ∈ i.chars, CharSet.blank.has c = false :=
  fun c hc => nameChar_blank c (i.all_nameChar c hc)

/-- The first character of an identifier, with what is not known of the others. -/
theorem exists_cons : ∃ c rest, i.chars = c :: rest ∧ isIdentChar c = true := by
  obtain ⟨c, rest, h⟩ := List.exists_cons_of_ne_nil i.chars_ne
  exact ⟨c, rest, h, i.all_ident c (h ▸ List.mem_cons_self)⟩

theorem one_le_length : 1 ≤ i.chars.length := by
  obtain ⟨c, rest, h, -⟩ := i.exists_cons
  rw [h, List.length_cons]
  omega

/-- What follows begins with the first character of the name. -/
theorem head?_append {q : Char → Bool} (hq : ∀ c ∈ i.chars, q c = false) (s : List Char) :
    ∀ c ∈ (i.chars ++ s).head?, q c = false := by
  obtain ⟨c, rest, h, -⟩ := i.exists_cons
  rw [h]
  rintro d hd
  rw [List.cons_append, List.head?_cons, Option.mem_some_iff] at hd
  subst hd
  exact hq c (h ▸ List.mem_cons_self)

end Ident

/-! ## The helper -/

theorem HelperFunction.not_mem_text {x : Char} (hx : isIdentChar x = false) (hcolon : x ≠ ':')
    (hshape : ∀ s : Shape, x ∉ s.text.toList) (f : HelperFunction) : x ∉ f.text := by
  rw [HelperFunction.text, List.mem_append, List.mem_cons]
  rintro (h | h | h)
  · exact f.name.not_mem hx h
  · exact hcolon h
  · exact hshape f.shape h

theorem HelperFunction.not_mem_separator {x : Char} (hcomma : x ≠ ',') (hline : x ≠ '\n')
    (f : HelperFunction) : x ∉ f.separator := by
  rw [HelperFunction.separator]
  split
  · simp [hcomma, hline]
  · simp [hcomma]

namespace PlayerScript

variable (p : PlayerScript)

theorem exists_functions : ∃ f more, p.functions = f :: more ∧
    p.helperText = f.text ++ HelperFunction.moreText more := by
  obtain ⟨f, more, h⟩ := List.exists_cons_of_ne_nil p.functions_ne
  exact ⟨f, more, h, by rw [helperText, h]⟩

/-- A character that stands in no name, no separator and no function is not in the helper. -/
theorem not_mem_helperText {x : Char} (hx : isIdentChar x = false)
    (hsep : x ≠ ':' ∧ x ≠ ',' ∧ x ≠ '\n') (hshape : ∀ s : Shape, x ∉ s.text.toList) :
    x ∉ p.helperText := by
  have htext := HelperFunction.not_mem_text hx hsep.1 hshape
  obtain ⟨f, more, -, hhelper⟩ := p.exists_functions
  rw [hhelper, List.mem_append, HelperFunction.moreText, List.mem_flatMap]
  rintro (h | ⟨g, -, h⟩)
  · exact htext f h
  · rcases List.mem_append.mp h with h | h
    · exact g.not_mem_separator hsep.2.1 hsep.2.2 h
    · exact htext g h

end PlayerScript

theorem HelperFunction.moreText_cons (f : HelperFunction) (fs : List HelperFunction) :
    HelperFunction.moreText (f :: fs) = f.separator ++ (f.text ++ HelperFunction.moreText fs) := by
  rw [HelperFunction.moreText, List.flatMap_cons, List.append_assoc]
  rfl

/-- What stands behind a function of the helper. -/
theorem HelperFunction.exists_next (fs : List HelperFunction) (after : List Char) :
    ∃ d rest, HelperFunction.moreText fs ++ '\x7d' :: after = d :: rest ∧
      (d = ',' ∨ d = '\x7d') := by
  rcases fs with _ | ⟨f, fs⟩
  · exact ⟨'\x7d', after, rfl, .inr rfl⟩
  · have hseparator : ∃ rest, f.separator = ',' :: rest := by
      rw [HelperFunction.separator]
      split
      · exact ⟨['\n'], rfl⟩
      · exact ⟨[], rfl⟩
    obtain ⟨rest, hrest⟩ := hseparator
    rw [HelperFunction.moreText_cons, hrest]
    exact ⟨',', _, rfl, .inl rfl⟩

section Begins

variable {q : Pattern} {x : Char} {r : Char → Bool}

theorem HelperFunction.barren_text (hq : q.Begins x r) (hx : isIdentChar x = false)
    (hcolon : x ≠ ':') (hshape : ∀ s : Shape, free x r (s.text.toList ++ [',']) = true ∧
      free x r (s.text.toList ++ ['\x7d']) = true) (f : HelperFunction) {d : Char}
    (hd : d = ',' ∨ d = '\x7d') (before after : List Char) :
    q.Barren before f.text (d :: after) := by
  have hname : x ∉ f.name.chars ++ [':'] := by
    simp [f.name.not_mem hx, hcolon]
  rw [HelperFunction.text, ← List.singleton_append, ← List.append_assoc]
  refine (hq.barren_of_not_mem hname _ _).append ?_
  rcases hd with rfl | rfl
  · exact hq.barren_of_free (hshape f.shape).1 _ _
  · exact hq.barren_of_free (hshape f.shape).2 _ _

/-- **No way starts in the helper** if every way begins with a character that is in no name and no
    separator, and what comes behind it in a function is something else. -/
theorem PlayerScript.barren_helperText (p : PlayerScript) (hq : q.Begins x r)
    (hx : isIdentChar x = false) (hsep : x ≠ ':' ∧ x ≠ ',' ∧ x ≠ '\n')
    (hshape : ∀ s : Shape, free x r (s.text.toList ++ [',']) = true ∧
      free x r (s.text.toList ++ ['\x7d']) = true) (before after : List Char) :
    q.Barren before p.helperText ('\x7d' :: after) := by
  have hmore : ∀ fs before, q.Barren before (HelperFunction.moreText fs) ('\x7d' :: after) := by
    intro fs
    induction fs with
    | nil => exact fun before => barren_nil q before _
    | cons f fs ih =>
      intro before
      obtain ⟨d, rest, hnext, hd⟩ := HelperFunction.exists_next fs after
      rw [HelperFunction.moreText_cons]
      refine (hq.barren_of_not_mem (f.not_mem_separator hsep.2.1 hsep.2.2) _ _).append ?_
      refine Barren.append ?_ (ih _)
      rw [hnext]
      exact f.barren_text hq hx hsep.1 hshape hd _ _
  obtain ⟨f, fs, -, hhelper⟩ := p.exists_functions
  obtain ⟨d, rest, hnext, hd⟩ := HelperFunction.exists_next fs after
  rw [hhelper]
  refine Barren.append ?_ (hmore fs _)
  rw [hnext]
  exact f.barren_text hq hx hsep.1 hshape hd _ _

end Begins

/-! ## The calls -/

theorem HelperCall.not_mem_digits {x : Char} (hx : isIdentChar x = false) (c : HelperCall) :
    x ∉ c.digits := by
  intro h
  rw [digit_ident (c.all_digits x h)] at hx
  simp at hx

/-- A character that stands in no name and is no mark of a call is not in a call. -/
theorem HelperCall.not_mem_text {x : Char} (hx : isIdentChar x = false)
    (hmarks : x ∉ ['[', '"', ']', '.', '(', ',', ')']) (helper : Ident) (c : HelperCall) :
    x ∉ c.text helper := by
  simp only [List.mem_cons, not_or] at hmarks
  have ha : x ≠ 'a' := by
    rintro rfl
    simp [isIdentChar] at hx
  have haccess : x ∉ c.access := by
    rw [HelperCall.access]
    split
    · simp [hmarks, c.name.not_mem hx]
    · simp [hmarks, c.name.not_mem hx]
  simp [HelperCall.text, helper.not_mem hx, haccess, c.not_mem_digits hx, hmarks, ha]

namespace PlayerScript

/-- The calls, each with a semicolon behind it. -/
def callsClosed (helper : Ident) (cs : List HelperCall) : List Char :=
  cs.flatMap fun c => c.text helper ++ [';']

variable (p : PlayerScript)

theorem bodyText_eq : p.bodyText =
    (bodyFront ++ [';']) ++ (callsClosed p.helperName p.calls ++ bodyBack) := by
  have hcalls : p.calls.map (HelperCall.text p.helperName) ≠ [] := by simp [p.calls_ne]
  have hjoined := joinWith_append [';'] hcalls bodyBack
  rw [List.flatMap_map] at hjoined
  rw [callsClosed, ← hjoined, List.append_assoc]
  rfl

theorem not_mem_callsClosed {x : Char} (hx : isIdentChar x = false)
    (hmarks : x ∉ [';', '[', '"', ']', '.', '(', ',', ')']) (helper : Ident)
    (cs : List HelperCall) :
    x ∉ callsClosed helper cs := by
  rw [callsClosed, List.mem_flatMap]
  rintro ⟨c, -, h⟩
  rcases List.mem_append.mp h with h | h
  · exact c.not_mem_text hx (fun h => hmarks (List.mem_cons_of_mem ';' h)) helper h
  · rw [List.mem_singleton] at h
    exact hmarks (h ▸ List.mem_cons_self)

/-- A character that is in no call and not in the rest of the body is not in the body. -/
theorem not_mem_bodyText {x : Char} (hx : isIdentChar x = false)
    (hmarks : x ∉ [';', '[', '"', ']', '.', '(', ',', ')'])
    (hfront : x ∉ bodyFront ++ [';']) (hback : x ∉ bodyBack) :
    x ∉ p.bodyText := by
  rw [bodyText_eq]
  intro h
  rcases List.mem_append.mp h with h | h
  · exact hfront h
  rcases List.mem_append.mp h with h | h
  · exact not_mem_callsClosed hx hmarks p.helperName p.calls h
  · exact hback h

end PlayerScript

end StreamResolver.Cipher
