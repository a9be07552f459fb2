/-
  The default templates, read for a name.

  Every default template is a fixed text with one name in it.  The name is put in place escaped and
  in one pass, so the expression is the text in front, the escaped name and the text behind
  (`expand?_of_pieces`), and it is read as what the text in front is read as, the characters of the
  name, and what the text behind is read as: no character of a name acts as an operator
  (`NamePlace.stands`).  All default templates are of this form (`namePlace_default`), so they have
  one capture, whatever the name is.
-/
import StreamResolver.Proofs.Cipher.Locating
import StreamResolver.Proofs.Pattern.Reading

namespace StreamResolver.Cipher

open Pattern Expression

/-! ## Filling in a name -/

theorem mapM_fill?_char (params : Keyed String) (text : List Char) :
    (text.map Template.Piece.char).mapM (Template.Piece.fill? params) =
      some (text.map fun c => [c]) := by
  induction text with
  | nil => rfl
  | cons c rest ih =>
    rw [List.map_cons, List.mapM_cons, ih]
    rfl

/-- **A name is filled in once**, between what stands in front of its place and behind it. -/
theorem expand?_of_pieces {template front back name : List Char} (params : Keyed String)
    (h : Template.pieces template = front.map .char ++ .hole name :: back.map .char) :
    Template.expand? params template = (params.get? (String.ofList name)).map fun v =>
      front ++ (Template.escape v.toList ++ back) := by
  have hflatten : ∀ text : List Char, (text.map fun c => [c]).flatten = text := by
    intro text
    induction text with
    | nil => rfl
    | cons c rest ih => rw [List.map_cons, List.flatten_cons, ih, List.singleton_append]
  rw [Template.expand?, h, List.mapM_append, List.mapM_cons, mapM_fill?_char, mapM_fill?_char,
    Template.Piece.fill?]
  cases params.get? (String.ofList name) with
  | none => rfl
  | some v =>
    show some (List.flatten (_ ++ Template.escape v.toList :: _)) = _
    rw [List.flatten_append, List.flatten_cons, hflatten, hflatten]
    rfl

/-! ## In front of the name -/

/-- Whether a text in front of a name is read as the given items, whatever the name is. -/
def Fronts (front : List Char) (m : Nat) (items : List (ItemKind × Pattern)) : Prop :=
  ∀ tail, tail ≠ ['\\'] → readMode tail = (.greedy, tail) →
    readSome m (nothing { dotAll := true }) (front ++ tail) =
      .ok (around { dotAll := true } items, tail)

/-- No character of a name stands in front. -/
theorem fronts_unnamed : Fronts "(?<![\\w$])".toList 3 [(.part, .behind true 1 (.one nameChar))] := by
  intro tail htail _
  simp only [String.reduceToList]
  have hopen : readSome 2 (nothing { dotAll := true })
      (['(', '?', '<', '!', '[', '\\', 'w', '$', ']', ')'] ++ tail) =
        .ok (((nothing { dotAll := true }).enter (.look true true) { dotAll := true }
          (['(', '?', '<', '!', '[', '\\', 'w', '$', ']', ')'] ++ tail)).push .part
            (.one nameChar), ')' :: tail) := rfl
  rw [readSome_add (n := 1) hopen]
  exact readSome_step ((step_close rfl htail rfl).trans rfl)

/-- No character of a name and no point stands in front. -/
theorem fronts_unreached : Fronts "(?<![\\w$.])".toList 3
    [(.part, .behind true 1 (.one (.union [.word, .char '$', .char '.'])))] := by
  intro tail htail _
  simp only [String.reduceToList]
  have hopen : readSome 2 (nothing { dotAll := true })
      (['(', '?', '<', '!', '[', '\\', 'w', '$', '.', ']', ')'] ++ tail) =
        .ok (((nothing { dotAll := true }).enter (.look true true) { dotAll := true }
          (['(', '?', '<', '!', '[', '\\', 'w', '$', '.', ']', ')'] ++ tail)).push .part
            (.one (.union [.word, .char '$', .char '.'])), ')' :: tail) := rfl
  rw [readSome_add (n := 1) hopen]
  exact readSome_step ((step_close rfl htail rfl).trans rfl)

/-- Blanks stand in front, and the given items in front of them. -/
theorem fronts_blanks {front : List Char} {m : Nat} {items : List (ItemKind × Pattern)}
    (h : ∀ tail, readSome m (nothing { dotAll := true }) (front ++ '+' :: tail) =
      .ok (around { dotAll := true } ((.part, .one .blank) :: items), '+' :: tail)) :
    Fronts (front ++ ['+']) (m + 1) ((.repetition, .some1 .blank) :: items) := by
  intro tail htail hmode
  rw [List.append_assoc, List.singleton_append, readSome_add (n := 1) (h tail)]
  exact readSome_step ((step_plus rfl htail).trans ((quantify_greedy rfl hmode 1 none _).trans rfl))

theorem fronts_var : Fronts "var\\s+".toList 5 [(.repetition, .some1 .blank),
    (.part, .one (.char 'r')), (.part, .one (.char 'a')), (.part, .one (.char 'v'))] := by
  have hword : "var\\s+".toList = "var\\s".toList ++ ['+'] := by decide
  rw [hword]
  refine fronts_blanks fun tail => ?_
  simp only [String.reduceToList]
  rfl

theorem fronts_function : Fronts "function\\s+".toList 10 ((.repetition, .some1 .blank) ::
    "function".toList.reverse.map fun c => (.part, .one (.char c))) := by
  have hword : "function\\s+".toList = "function\\s".toList ++ ['+'] := by decide
  rw [hword]
  refine fronts_blanks fun tail => ?_
  simp only [String.reduceToList]
  rfl

theorem fronts_declared : Fronts "(?:let|const)\\s+".toList 13 [(.repetition, .some1 .blank),
    (.part, .anyOf [.word "let", .word "const"])] := by
  have hword : "(?:let|const)\\s+".toList = "(?:let|const)\\s".toList ++ ['+'] := by decide
  rw [hword]
  refine fronts_blanks fun tail => ?_
  simp only [String.reduceToList]
  rfl

/-! ## Behind the name -/

/-- Whether a text behind a name is read to its end as the given parts, with one capture, whatever
    stands in front. -/
def Backs (back : List Char) (n : Nat) (parts : List Pattern) : Prop :=
  ∀ items, ∃ r, readSome n (around { dotAll := true } items) back = .ok (r, []) ∧ r.outer = [] ∧
    r.asked = [] ∧ r.unfixed = false ∧ r.groups = 1 ∧ r.current.alternatives = [] ∧
    r.current.items.map (·.2) = parts.reverse ++ items.map (·.2)

/-- An equality sign and a function, whose body is capture 1. -/
def functionValue : List Pattern :=
  .one (.char '=') :: .many .blank ::
    ("function".toList.map (fun c => .one (.char c)) ++
      [.many .blank, .one (.char '('), .many .blank, .some1 .word, .many .blank, .one (.char ')'),
       .many .blank, .one (.char '\x7b'), .capture 1 (.span true 0 none .any),
       .one (.char '\x7d')])

/-- An equality sign and an object, whose body is capture 1, up to the semicolon. -/
def objectValue : List Pattern :=
  [.one (.char '='), .many .blank, .one (.char '\x7b'), .capture 1 (.span true 0 none .any),
   .one (.char '\x7d'), .one (.char ';')]

theorem backs_function :
    Backs "\\s*=\\s*function\\s*\\(\\s*\\w+\\s*\\)\\s*\\\x7b(.*?)\\\x7d".toList 31
      (.many .blank :: functionValue) := by
  intro items
  simp only [String.reduceToList]
  exact ⟨_, rfl, rfl, rfl, rfl, rfl, rfl, rfl⟩

theorem backs_arguments : Backs "\\s*\\(\\s*\\w+\\s*\\)\\s*\\\x7b(.*?)\\\x7d".toList 19
    [.many .blank, .one (.char '('), .many .blank, .some1 .word, .many .blank, .one (.char ')'),
      .many .blank, .one (.char '\x7b'), .capture 1 (.span true 0 none .any),
      .one (.char '\x7d')] := by
  intro items
  simp only [String.reduceToList]
  exact ⟨_, rfl, rfl, rfl, rfl, rfl, rfl, rfl⟩

theorem backs_arrow :
    Backs "\\s*=\\s*\\(?\\s*\\w+\\s*\\)?\\s*=>\\s*\\\x7b(.*?)\\\x7d".toList 28
      [.many .blank, .one (.char '='), .many .blank, .span false 0 (some 1) (.char '('),
        .many .blank, .some1 .word, .many .blank, .span false 0 (some 1) (.char ')'), .many .blank,
        .one (.char '='), .one (.char '>'), .many .blank, .one (.char '\x7b'),
        .capture 1 (.span true 0 none .any), .one (.char '\x7d')] := by
  intro items
  simp only [String.reduceToList]
  exact ⟨_, rfl, rfl, rfl, rfl, rfl, rfl, rfl⟩

theorem backs_object : Backs "\\s*=\\s*\\\x7b(.*?)\\\x7d;".toList 13
    (.many .blank :: objectValue) := by
  intro items
  simp only [String.reduceToList]
  exact ⟨_, rfl, rfl, rfl, rfl, rfl, rfl, rfl⟩

theorem backs_declared : Backs "\\s*=\\s*\\\x7b(.*?)\\\x7d\\s*[;,]".toList 15
    [.many .blank, .one (.char '='), .many .blank, .one (.char '\x7b'),
      .capture 1 (.span true 0 none .any), .one (.char '\x7d'), .many .blank,
      .one (.union [.char ';', .char ','])] := by
  intro items
  simp only [String.reduceToList]
  exact ⟨_, rfl, rfl, rfl, rfl, rfl, rfl, rfl⟩

/-! ## Templates with one name -/

/-- The place of the name in a template: the texts in front of it and behind it, and what they are
    read as, alone and around any name. -/
structure NamePlace (m : Matcher) where
  frontText : List Char
  backText : List Char
  front : List Pattern
  back : List Pattern
  isTemplate : Template.isTemplate m.template.toList = true
  pieces_eq : Template.pieces m.template.toList =
    frontText.map .char ++ .hole "name".toList :: backText.map .char
  front_read : compile m.flags frontText = .ok ⟨.sequence front, 0⟩
  back_read : compile m.flags backText = .ok ⟨.sequence back, 1⟩
  read : ∀ name, compile m.flags (frontText ++ (Template.escape name ++ backText)) =
    .ok ⟨.sequence (front ++ (name.map (fun c => .one (.char c)) ++ back)), 1⟩

namespace NamePlace

variable {m : Matcher}

/-- The place between two texts of which the one in front is read up to any name. -/
def ofTexts {template frontText backText : List Char} {i j : Nat}
    {items : List (ItemKind × Pattern)} {back : List Pattern}
    (htext : m.template = String.ofList template) (hflags : m.flags = { dotAll := true })
    (hpieces : Template.pieces template =
      frontText.map .char ++ .hole "name".toList :: backText.map .char)
    (htemplate : Template.isTemplate template = true)
    (hfront : Fronts frontText i items) (hback : Backs backText j back)
    (hmode : readMode backText = (.greedy, backText))
    (hlong : 2 ≤ backText.length ∧ i ≤ frontText.length ∧ j ≤ backText.length) : NamePlace m where
  frontText := frontText
  backText := backText
  front := (items.map (·.2)).reverse
  back := back
  isTemplate := by
    rw [htext, String.toList_ofList]
    exact htemplate
  pieces_eq := by
    rw [htext, String.toList_ofList]
    exact hpieces
  front_read := by
    have hread := hfront [] (by simp) rfl
    rw [List.append_nil] at hread
    rw [hflags, compile_of_readSome hread (by omega) rfl rfl rfl, ← List.map_reverse]
    rfl
  back_read := by
    obtain ⟨r, hread, houter, hasked, hfixed, hgroups, halternatives, hitems⟩ := hback []
    rw [List.map_nil, List.append_nil] at hitems
    rw [hflags, compile_of_readSome hread (by omega) houter hasked hfixed, hgroups, Frame.body,
      halternatives, Frame.branch, List.map_reverse, hitems, List.reverse_reverse]
    rfl
  read := by
    intro name
    rw [hflags]
    exact compile_around rfl rfl hmode hfront hback hlong.1 hlong.2.1 hlong.2.2

variable (t : NamePlace m) {params : Keyed String}

/-- The expression for a name: what the front is read as, each character of the name, and what the
    back is read as. -/
def around (name : List Char) : Pattern :=
  .sequence (t.front ++ (name.map (fun c => .one (.char c)) ++ t.back))

include t in
theorem expand?_eq : Template.expand? params m.template.toList =
    (params.get? "name").map fun v => t.frontText ++ (Template.escape v.toList ++ t.backText) :=
  expand?_of_pieces params t.pieces_eq

/-- **A template stands for its expression around the name** that is given. -/
theorem stands {v : String} (h : params.get? "name" = some v) :
    m.Stands params (t.around v.toList) 1 := by
  have htext : m.template = String.ofList m.template.toList := String.ofList_toList.symm
  refine stands_template htext t.isTemplate ?_ (t.read v.toList)
  rw [t.expand?_eq, h]
  rfl

theorem stands_named (name : List Char) :
    m.Stands [("name", String.ofList name)] (t.around name) 1 := by
  have hname : Keyed.get? [("name", String.ofList name)] "name" = some (String.ofList name) := rfl
  have hstands := t.stands hname
  rw [String.toList_ofList] at hstands
  exact hstands

include t in
/-- Without a name there is no expression. -/
theorem expression?_none (h : params.get? "name" = none) :
    (m.expression? params).value = .ok none := by
  rw [Matcher.expression?, if_pos t.isTemplate, t.expand?_eq, h]
  rfl

end NamePlace

/-- **Every default template** has one place, which is for the name, and one capture. -/
theorem namePlace_default {role : Role} (hrole : role = .functionBody ∨ role = .helperBody)
    {m : Matcher} (hm : m ∈ defaultMatchers role) :
    m.indexed = false ∧ m.capture = 1 ∧ Nonempty (NamePlace m) := by
  rcases hrole with rfl | rfl
  · simp only [defaultMatchers, List.mem_cons, List.not_mem_nil, or_false] at hm
    rcases hm with rfl | rfl | rfl
    · exact ⟨rfl, rfl, ⟨.ofTexts (String.ofList_append ..).symm rfl (by decide +kernel) rfl
        fronts_unnamed backs_function rfl (by decide)⟩⟩
    · exact ⟨rfl, rfl, ⟨.ofTexts rfl rfl (by decide +kernel) rfl fronts_function backs_arguments rfl
        (by decide)⟩⟩
    · exact ⟨rfl, rfl, ⟨.ofTexts rfl rfl (by decide +kernel) rfl fronts_unnamed backs_arrow rfl
        (by decide)⟩⟩
  · simp only [defaultMatchers, List.mem_cons, List.not_mem_nil, or_false] at hm
    rcases hm with rfl | rfl | rfl
    · exact ⟨rfl, rfl, ⟨.ofTexts rfl rfl (by decide +kernel) rfl fronts_var backs_object rfl
        (by decide)⟩⟩
    · exact ⟨rfl, rfl, ⟨.ofTexts rfl rfl (by decide +kernel) rfl fronts_unreached backs_object rfl
        (by decide)⟩⟩
    · exact ⟨rfl, rfl, ⟨.ofTexts rfl rfl (by decide +kernel) rfl fronts_declared backs_declared rfl
        (by decide)⟩⟩

end StreamResolver.Cipher
