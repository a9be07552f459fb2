/-
  A value in a template is matched literally.

  Whatever characters a value has, the expression for it is the template with the escaped value in
  the place of the name, and that expression is always one.  Its ways are those of the front of the
  template, then over exactly the characters of the value, then those of the back
  (`NamePlace.mem_ways_around`).  So every match has the value in the place of the name, and where
  the value stands with the rest of the template around it there is a match
  (`value_matched_literally`).
-/
import StreamResolver.Proofs.Cipher.Templates
import StreamResolver.Proofs.Pattern.AllWays

namespace StreamResolver.Cipher

open Pattern Expression

namespace NamePlace

variable {m : Matcher} (t : NamePlace m) {bound : Nat} {value : List Char} {s e : Place}

/-- From `s` to `e` the front of the template passes `x`, then the value stands there, and then the
    back of the template passes `y`. -/
def Encloses (bound : Nat) (value : List Char) (s e : Place) (x y : List Char) : Prop :=
  ∃ a b, a ∈ (sequence t.front).ways bound s ∧ s.after = x ++ a.after ∧ a.Reads value b ∧
    e ∈ (sequence t.back).ways bound b ∧ b.after = y ++ e.after

/-- **The ways around a value** pass the front, exactly the value, and the back. -/
theorem mem_ways_around :
    e ∈ (t.around value).ways bound s ↔ ∃ x y, t.Encloses bound value s e x y := by
  rw [around, mem_ways_append]
  constructor
  · rintro ⟨a, ha, h⟩
    obtain ⟨b, hb, he⟩ := mem_ways_append.mp h
    obtain ⟨x, hx, -⟩ := passes_of_mem_ways ha
    obtain ⟨y, hy, -⟩ := passes_of_mem_ways he
    exact ⟨x, y, a, b, ha, hx, mem_ways_literal.mp hb, he, hy⟩
  · rintro ⟨x, y, a, b, ha, -, hreads, he, -⟩
    exact ⟨a, ha, mem_ways_append.mpr ⟨b, mem_ways_literal.mpr hreads, he⟩⟩

variable {t}

theorem Encloses.after_eq {x y : List Char} (h : t.Encloses bound value s e x y) :
    s.after = x ++ (value ++ (y ++ e.after)) := by
  obtain ⟨a, b, -, hx, hreads, -, hy⟩ := h
  rw [hx, hreads.after_eq, hy]

/-- What is matched is the value with what the template passes around it. -/
theorem Encloses.textTo_eq {x y : List Char} (h : t.Encloses bound value s e x y) :
    s.textTo e = x ++ (value ++ y) := by
  obtain ⟨w, hw, htext⟩ := passes_of_mem_ways (t.mem_ways_around.mpr ⟨x, y, h⟩)
  have hsame : w ++ e.after = x ++ (value ++ y) ++ e.after := by
    rw [← hw, h.after_eq, List.append_assoc, List.append_assoc]
  rw [htext, List.append_cancel_right hsame]

end NamePlace

/-- **A value is matched literally.**  In every default template for the body of a function or of a
    helper there is one place for the name.  Whatever value is given for it, the expression is the
    template with the escaped value in that place, and it can be read.  The matcher captures what
    the first match of this expression captures; in a match the characters in the place of the name
    are the value; and there is a match wherever the value stands in a text with the rest of the
    template around it. -/
theorem value_matched_literally {role : Role} (hrole : role = .functionBody ∨ role = .helperBody)
    {m : Matcher} (hm : m ∈ defaultMatchers role) :
    ∃ t : NamePlace m, ∀ (params : Keyed String) (v : String), params.get? "name" = some v →
      Template.expand? params m.template.toList =
        some (t.frontText ++ (Template.escape v.toList ++ t.backText)) ∧
      compile m.flags (t.frontText ++ (Template.escape v.toList ++ t.backText)) =
        .ok ⟨t.around v.toList, 1⟩ ∧
      (∀ bound s e, e ∈ (t.around v.toList).ways bound s ↔
        ∃ x y, t.Encloses bound v.toList s e x y) ∧
      ∀ text : String,
        (m.search text params).value = .ok (((t.around v.toList).search? text.toList).bind
          fun found => Matcher.nonEmpty? (found.group? 1)) ∧
        (∀ found, (t.around v.toList).search? text.toList = some found →
          ∃ before rest x y, text.toList = before ++ rest ∧ found.text = x ++ (v.toList ++ y) ∧
            t.Encloses (boundFor text.toList) v.toList (.between before rest) found.stop x y) ∧
        ((∃ before rest e x y, text.toList = before ++ rest ∧
            t.Encloses (boundFor text.toList) v.toList (.between before rest) e x y) →
          ∃ found, (t.around v.toList).search? text.toList = some found) := by
  obtain ⟨hindexed, hcapture, ⟨t⟩⟩ := namePlace_default hrole hm
  refine ⟨t, fun params v hv => ⟨?expand, t.read v.toList, fun _ _ _ => t.mem_ways_around, ?_⟩⟩
  case expand =>
    rw [t.expand?_eq, hv]
    rfl
  intro text
  refine ⟨?value, ?found, ?there⟩
  case value =>
    rcases hfound : (t.around v.toList).search? text.toList with _ | found
    · exact search_missed (t.stands hv) hfound
    · rw [search_plain (t.stands hv) hfound hindexed (Nat.le_of_eq hcapture), hcapture]
      rfl
  case found =>
    intro found hfound
    obtain ⟨before, rest, htext, hstop, hpassed⟩ := search?_ways hfound
    obtain ⟨x, y, henclosed⟩ := t.mem_ways_around.mp hstop
    exact ⟨before, rest, x, y, htext, hpassed.trans henclosed.textTo_eq, henclosed⟩
  case there =>
    rintro ⟨before, rest, e, x, y, htext, henclosed⟩
    have hway := t.mem_ways_around.mpr ⟨x, y, henclosed⟩
    exact Option.isSome_iff_exists.mp (search?_isSome_iff.mpr ⟨before, rest, e, htext, hway⟩)

/-- A value that is full of operators and looks like a place itself. -/
def operatorValue : String := ".*|%(name)s\\(+ "

/-- A script in which an object with this name is declared behind another one. -/
def operatorScript : String := "var x=\x7by\x7d;var .*|%(name)s\\(+ =\x7bz\x7d;"

/-- The value is found where it stands, and as it stands. -/
theorem value_matched_literally_operators : ∃ m ∈ defaultMatchers .helperBody,
    Keyed.get? [("name", operatorValue)] "name" = some operatorValue ∧
    (m.search operatorScript [("name", operatorValue)]).value = .ok (some "z") ∧
    ∃ (t : NamePlace m) (found : Found),
      (t.around operatorValue.toList).search? operatorScript.toList = some found ∧
        operatorValue.toList <:+: found.text := by
  obtain ⟨m, hm, hcaptured⟩ : ∃ m ∈ defaultMatchers .helperBody,
      (m.search operatorScript [("name", operatorValue)]).value = .ok (some "z") :=
    ⟨_, List.mem_cons_self, rfl⟩
  obtain ⟨t, ht⟩ := value_matched_literally (.inr rfl) hm
  have hname : Keyed.get? [("name", operatorValue)] "name" = some operatorValue := rfl
  obtain ⟨-, -, -, hsearch⟩ := ht _ _ hname
  obtain ⟨hvalue, hfound, -⟩ := hsearch operatorScript
  refine ⟨m, hm, hname, hcaptured, t, ?_⟩
  -- the capture is that of a match, and the match is around the value
  rw [hvalue] at hcaptured
  rcases hmatch : (t.around operatorValue.toList).search? operatorScript.toList with _ | found
  · rw [hmatch] at hcaptured
    cases hcaptured
  · obtain ⟨before, rest, x, y, -, htext, -⟩ := hfound found hmatch
    exact ⟨found, rfl, x, y, by rw [htext, List.append_assoc]⟩

end StreamResolver.Cipher
