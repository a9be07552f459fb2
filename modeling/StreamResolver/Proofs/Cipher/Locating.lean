/-
  What a list of matchers captures.

  A matcher `stands` for an expression when that is what it is read as with the given parameters.
  What it captures is then a matter of the expression alone (`search_captured`, `search_absent`),
  and the first matcher that captures something decides (`firstCapture_here`,
  `firstCapture_there`).
-/
import StreamResolver.Proofs.Cipher.Extraction
import StreamResolver.Proofs.Pattern.Finding

namespace StreamResolver.Cipher

open Reporting Pattern

/-- The matcher is read as the expression. -/
def Matcher.Stands (m : Matcher) (params : Keyed String) (p : Pattern) (groups : Nat) : Prop :=
  (m.expression? params).value = .ok (some ⟨p, groups⟩)

variable {m : Matcher} {params : Keyed String} {p : Pattern} {groups : Nat}

/-! ## Reading matchers -/

/-- The text is given as characters, so that nothing has to be decoded to read it. -/
theorem stands_fixed {template : List Char} (htext : m.template = String.ofList template)
    (hfixed : Template.isTemplate template = false)
    (hread : Expression.compile m.flags template = .ok ⟨p, groups⟩) : m.Stands params p groups := by
  rw [Matcher.Stands, Matcher.expression?, htext, String.toList_ofList, if_neg (by simp [hfixed]),
    hread]
  rfl

theorem stands_template {template expr : List Char} (htext : m.template = String.ofList template)
    (htemplate : Template.isTemplate template = true)
    (hexpand : Template.expand? params template = some expr)
    (hread : Expression.compile m.flags expr = .ok ⟨p, groups⟩) : m.Stands params p groups := by
  rw [Matcher.Stands, Matcher.expression?, htext, String.toList_ofList, if_pos htemplate, hexpand]
  simp only [hread]
  rfl

/-! ## One matcher -/

/-- What comes of the search once the expression is known. -/
theorem search_value (hstands : m.Stands params p groups) (text : String) :
    (m.search text params).value =
      (match p.search? text.toList with
      | none => return none
      | some found =>
        if m.indexed then
          if groups < 2 then throw (.fault .outOfRange)
          else Matcher.search.liftExcept (Matcher.resolve text.toList found)
        else if groups < m.capture then throw (.fault .outOfRange)
        else return Matcher.nonEmpty? (found.group? m.capture) :
          Reporting Failure (Option String)).value := by
  refine (value_bind_ok (fun c => ?_) hstands).trans rfl
  split
  · exact appends_pure _
  · split
    · exact appends_pure _
    · split
      · split
        · exact appends_throw _
        · exact appends_liftExcept _
      · split
        · exact appends_throw _
        · exact appends_pure _

theorem search_missed (hstands : m.Stands params p groups) {text : String}
    (h : p.search? text.toList = none) : (m.search text params).value = .ok none := by
  rw [search_value hstands, h]
  rfl

/-- A matcher that is not indexed gives the wanted capture of its match. -/
theorem search_plain (hstands : m.Stands params p groups) {text : String} {found : Found}
    (h : p.search? text.toList = some found) (hindexed : m.indexed = false)
    (hgroups : m.capture ≤ groups) :
    (m.search text params).value = .ok (Matcher.nonEmpty? (found.group? m.capture)) := by
  rw [search_value hstands, h]
  simp only [hindexed, Bool.false_eq_true, if_false]
  rw [if_neg (by omega)]
  rfl

/-- A matcher gives what its expression captures in a text. -/
theorem search_captured (hstands : m.Stands params p groups) (hindexed : m.indexed = false)
    (hgroups : m.capture ≤ groups) (hpositive : m.capture ≠ 0) {text value : List Char}
    {caps : Captures} (h : ∃ found, p.search? text = some found ∧ found.stop.captures = caps)
    (hvalue : (caps.find? (·.1 == m.capture)).map (·.2) = some value) (hne : value ≠ []) :
    (m.search (String.ofList text) params).value = .ok (some (String.ofList value)) := by
  obtain ⟨found, hfound, hcaps⟩ := h
  obtain ⟨c, rest, rfl⟩ := List.exists_cons_of_ne_nil hne
  rw [← String.toList_ofList (l := text)] at hfound
  rw [search_plain hstands hfound hindexed hgroups, group?_eq hcaps hpositive, hvalue]
  rfl

/-- A matcher gives nothing for a text in which its expression is not found. -/
theorem search_absent (hstands : m.Stands params p groups) {text : List Char}
    (h : p.search? text = none) : (m.search (String.ofList text) params).value = .ok none := by
  rw [← String.toList_ofList (l := text)] at h
  exact search_missed hstands h

/-- An indexed matcher gives the name that its match stands for. -/
theorem search_indexed (hstands : m.Stands params p groups) {text : String} {found : Found}
    (h : p.search? text.toList = some found) (hindexed : m.indexed = true) (hgroups : 2 ≤ groups) :
    (m.search text params).value = Matcher.resolve text.toList found := by
  rw [search_value hstands, h]
  simp only [hindexed, if_true]
  rw [if_neg (by omega)]
  cases Matcher.resolve text.toList found with
  | error e => rfl
  | ok name => rfl

/-- An indexed matcher that captures no index gives the name itself. -/
theorem search_unindexed (hstands : m.Stands params p groups) {text : String} {found : Found}
    (h : p.search? text.toList = some found) (hindexed : m.indexed = true) (hgroups : 2 ≤ groups)
    (hindex : found.group? 2 = none) {c : Char} {rest : List Char}
    (hcapture : found.group? 1 = some (c :: rest)) :
    (m.search text params).value = .ok (some (String.ofList (c :: rest))) := by
  rw [search_indexed hstands h hindexed hgroups, Matcher.resolve, hindex, hcapture]
  rfl

/-! ## The cascade -/

variable {text : String} {ms : List Matcher} {role : Role}

theorem firstCapture_here {v : String} (h : (m.search text params).value = .ok (some v)) (i : Nat) :
    (firstCapture text params (m :: ms) i).value = .ok (some ⟨v, i⟩) := by
  refine (value_bind_ok (fun found => ?_) h).trans rfl
  split
  · exact appends_pure _
  · exact appends_firstCapture text params ms (i + 1)

theorem firstCapture_there (h : (m.search text params).value = .ok none) (i : Nat) :
    (firstCapture text params (m :: ms) i).value = (firstCapture text params ms (i + 1)).value := by
  refine (value_bind_ok (fun found => ?_) h).trans rfl
  split
  · exact appends_pure _
  · exact appends_firstCapture text params ms (i + 1)

/-- What is located is the first capture. -/
theorem locate_eq_ok {found : Located}
    (h : (firstCapture text params ms 0).value = .ok (some found)) :
    (locate text role ms params).value = .ok found := by
  refine (value_bind_ok (fun found => ?_) h).trans ?_
  · split
    · exact appends_bind (appends_emit _ _ _) fun _ => appends_pure _
    · exact appends_bind (appends_emit _ _ _) fun _ => appends_throw _
  · exact value_bind_ok (fun _ => appends_pure _) (value_emit _ _ _)

/-- The symbols of a script are what the four searches locate one after another. -/
theorem extractSymbols_eq_ok {source : String} {patterns : Patterns}
    {name body helper inner : Located}
    (hname : (locate source .transformFunctionName
      (patterns.matchersFor .transformFunctionName) []).value = .ok name)
    (hbody : (locate source .functionBody (patterns.matchersFor .functionBody)
      [("name", name.value)]).value = .ok body)
    (hhelper : (locate body.value .helperName (patterns.matchersFor .helperName) []).value =
      .ok helper)
    (hinner : (locate source .helperBody (patterns.matchersFor .helperBody)
      [("name", helper.value)]).value = .ok inner) :
    (extractSymbols source patterns).value =
      .ok ⟨name.value, body.value, helper.value, inner.value⟩ := by
  rw [extractSymbols, value_bind_ok _ hname, value_bind_ok _ hbody, value_bind_ok _ hhelper,
    value_bind_ok _ hinner]
  · rfl
  · exact fun _ => appends_pure _
  · exact fun _ => appends_bind (appends_locate _ _ _ _) fun _ => appends_pure _
  · exact fun _ => appends_bind (appends_locate _ _ _ _) fun _ =>
      appends_bind (appends_locate _ _ _ _) fun _ => appends_pure _
  · exact fun _ => appends_bind (appends_locate _ _ _ _) fun _ =>
      appends_bind (appends_locate _ _ _ _) fun _ =>
        appends_bind (appends_locate _ _ _ _) fun _ => appends_pure _

end StreamResolver.Cipher
