/-
  The helper of a player script is found by its calls.

  A call reaches the helper's function by a point or by a text in brackets, and then come two
  arguments.  Four expressions look for a call one after another: for a point and a name of two
  characters, for brackets, for a point and a single argument, and for a point and any name.  Each
  of them but the third takes every call of its kind and has no way that starts in another one
  (`pair_misses`, `dotted_misses`, `bracketed_misses`), so the first call of the kind gives the name
  of the helper (`search_calls`).
-/
import StreamResolver.Proofs.Cipher.CallForms

namespace StreamResolver.Cipher

open Text Pattern

/-! ## What the expressions take -/

namespace HelperCall

/-- The call in its form. -/
def written (c : HelperCall) : PairCall where
  access :=
    if c.quoted then
      .bracketed .none '"' ⟨c.name.chars, c.name.chars_ne, c.name.all_nameChar⟩ '"' .none (by decide)
        (by decide)
    else .dotted c.name
  first := .bare ['a'] (by decide)
  second :=
    ⟨.none, ⟨c.digits, c.digits_ne, fun d hd => (digit_classes (c.all_digits d hd)).1⟩, .none⟩

theorem text_written (helper : Ident) (c : HelperCall) :
    WrittenCall.text helper (.pair c.written) = c.text helper := by
  rw [WrittenCall.text, WrittenCall.rest, PairCall.rest, written, text, access]
  rcases c.quoted with _ | _ <;>
    simp [NameAccess.text, Argument.text, Argument.bare, Gap.none]

variable {helper : Ident} (hlong : 2 ≤ helper.chars.length) (c : HelperCall)

include hlong

theorem takes_dotted {min : Nat} {max : Option Nat} (hquoted : c.quoted = false)
    (hmin : min ≤ c.name.chars.length) (hmax : ∀ n, max = some n → c.name.chars.length ≤ n)
    (before after : List Char) :
    (dottedCall min max).Takes before [] (c.text helper) after [(1, helper.chars)] := by
  rw [← text_written, written, if_neg (by simp [hquoted])]
  exact takes_dottedCall hlong c.name _ _ hmin hmax before after

theorem takes_bracketed (hquoted : c.quoted = true) (before after : List Char) :
    bracketedCall.Takes before [] (c.text helper) after [(1, helper.chars)] := by
  rw [← text_written, written, if_pos hquoted]
  exact takes_bracketedCall hlong _ _ _ _ before after

end HelperCall

/-! ## What the expressions pass over -/

/-- A run of characters of a set ends at the first other character. -/
theorem eq_of_run {set : CharSet} {u v r s : List Char} {x y : Char}
    (hu : ∀ c ∈ u, set.has c = true) (hv : ∀ c ∈ v, set.has c = true) (hx : set.has x = false)
    (hy : set.has y = false) (h : u ++ x :: r = v ++ y :: s) : u = v ∧ r = s := by
  induction u generalizing v with
  | nil =>
    rcases v with _ | ⟨c, v⟩
    · exact ⟨rfl, (List.cons_eq_cons.mp h).2⟩
    · obtain rfl : x = c := (List.cons_eq_cons.mp h).1
      rw [hv x List.mem_cons_self] at hx
      simp at hx
  | cons c u ih =>
    rcases v with _ | ⟨d, v⟩
    · obtain rfl : c = y := (List.cons_eq_cons.mp h).1
      rw [hu c List.mem_cons_self] at hy
      simp at hy
    · obtain ⟨rfl, hrest⟩ := List.cons_eq_cons.mp h
      obtain ⟨rfl, hrs⟩ := ih (fun x hx => hu x (List.mem_cons_of_mem c hx))
        (fun x hx => hv x (List.mem_cons_of_mem c hx)) hrest
      exact ⟨rfl, hrs⟩

/-- What lies ahead of a way of a call by a point. -/
theorem dottedCall_leads {min : Nat} {max : Option Nat} {s t : Place}
    (h : (dottedCall min max).Leads s t) : ∃ u v rest, s.after = u ++ '.' :: (v ++ '(' :: rest) ∧
      u ≠ [] ∧ (∀ c ∈ u, identChar.has c = true) ∧ (∀ c ∈ v, identChar.has c = true) ∧
        min ≤ v.length ∧ ∀ n, max = some n → v.length ≤ min + (n - min) := by
  obtain ⟨_, ⟨m₁, ⟨u, hu, hlong, -, hreads₁⟩, rfl⟩, h⟩ := leads_sequence_cons h
  obtain ⟨m₂, hpoint, h⟩ := leads_sequence_cons h
  obtain ⟨m₃, ⟨v, hv, hmin, hmax, hreads₃⟩, h⟩ := leads_sequence_cons h
  obtain ⟨m₄, hopen, -⟩ := leads_sequence_cons h
  obtain ⟨x, hx, hafter₁⟩ := leads_one hpoint
  obtain ⟨y, hy, hafter₃⟩ := leads_one hopen
  obtain rfl : x = '.' := by simpa using hx
  obtain rfl : y = '(' := by simpa using hy
  have hne : u ≠ [] := by
    rintro rfl
    simp at hlong
  refine ⟨u, v, m₄.after, ?_, hne, hu, hv, hmin, hmax⟩
  rw [hreads₁.after_eq, show m₁.after = '.' :: m₂.after from hafter₁, hreads₃.after_eq, hafter₃]

section Misses

variable (helper : Ident) (c : HelperCall) (before after : List Char)

theorem HelperCall.point_not_mem (hquoted : c.quoted = true) : '.' ∉ c.text helper := by
  have hident : isIdentChar '.' = false := by decide
  rw [HelperCall.text, HelperCall.access, if_pos hquoted]
  simp [helper.not_mem hident, c.name.not_mem hident, c.not_mem_digits hident]

theorem HelperCall.bracket_not_mem (hquoted : c.quoted = false) : '[' ∉ c.text helper := by
  have hident : isIdentChar '[' = false := by decide
  rw [HelperCall.text, HelperCall.access, if_neg (by simp [hquoted])]
  simp [helper.not_mem hident, c.name.not_mem hident, c.not_mem_digits hident]

theorem bracketed_misses (hquoted : c.quoted = false) :
    bracketedCall.Barren before (c.text helper ++ [';']) after :=
  barren_before_separator (x := '[') (by decide) (by decide) (c.bracket_not_mem helper hquoted) _ _

theorem dotted_misses {min : Nat} {max : Option Nat} (hquoted : c.quoted = true) :
    (dottedCall min max).Barren before (c.text helper ++ [';']) after :=
  barren_before_separator (x := '.') rfl rfl (c.point_not_mem helper hquoted) _ _

/-- A name of another length than two is passed over: no way starts in the helper's name, none
    starts at the point, and there is no other point. -/
theorem pair_misses (hquoted : c.quoted = false) (hlength : c.name.chars.length ≠ 2) :
    (dottedCall 2 (some 2)).Barren before (c.text helper ++ [';']) after := by
  have hident : isIdentChar '.' = false := by decide
  have htext : c.text helper ++ [';'] = helper.chars ++ (['.'] ++ ((c.name.chars ++
      ('(' :: 'a' :: ',' :: (c.digits ++ [')']))) ++ [';'])) := by
    rw [HelperCall.text, HelperCall.access, if_neg (by simp [hquoted])]
    simp only [List.append_assoc, List.cons_append, List.nil_append]
  have hrest : '.' ∉ c.name.chars ++ ('(' :: 'a' :: ',' :: (c.digits ++ [')'])) := by
    simp [c.name.not_mem hident, c.not_mem_digits hident]
  rw [htext]
  refine Barren.append ?_ (Barren.append ?_ ?_)
  · intro u v huv hv pos caps t hleads
    obtain ⟨w, z, rest, hafter, -, hw, hz, hmin, hmax⟩ := dottedCall_leads hleads
    have hset : ∀ x ∈ v, identChar.has x = true := fun x hx =>
      helper.all_identChar x (huv ▸ List.mem_append_right u hx)
    simp only [List.append_assoc, List.cons_append, List.nil_append] at hafter
    obtain ⟨-, hname⟩ := eq_of_run hset hw (by decide) (by decide) hafter
    obtain ⟨rfl, -⟩ := eq_of_run c.name.all_identChar hz (by decide) (by decide) hname
    have htwo := hmax 2 rfl
    omega
  · refine barren_singleton fun pos caps t hleads => ?_
    obtain ⟨w, z, rest, hafter, hne, hw, -⟩ := dottedCall_leads hleads
    obtain ⟨x, w, rfl⟩ := List.exists_cons_of_ne_nil hne
    obtain rfl : '.' = x := (List.cons_eq_cons.mp hafter).1
    exact absurd (hw '.' List.mem_cons_self) (by decide)
  · exact barren_before_separator (x := '.') (by decide) (by decide) hrest _ _

end Misses

/-! ## The first call of a kind -/

namespace PlayerScript

section Search

variable {q : Pattern} {helper : Ident}

theorem barren_calls {cs : List HelperCall} (hmiss : ∀ c ∈ cs, ∀ before after,
    q.Barren before (c.text helper ++ [';']) after) (before after : List Char) :
    q.Barren before (callsClosed helper cs) after := by
  induction cs generalizing before with
  | nil => exact barren_nil q before after
  | cons c cs ih =>
    have hcs := ih fun c' hc' => hmiss c' (List.mem_cons_of_mem c hc')
    rw [callsClosed, List.flatMap_cons]
    exact (hmiss c List.mem_cons_self _ _).append (hcs _)

/-- The first call of a kind, with the calls in front of it. -/
theorem exists_first (hit : HelperCall → Bool) (cs : List HelperCall) :
    (∀ c ∈ cs, hit c = false) ∨
    ∃ front c back, cs = front ++ c :: back ∧ (∀ c ∈ front, hit c = false) ∧ hit c = true := by
  induction cs with
  | nil => exact .inl (by simp)
  | cons c cs ih =>
    rcases hc : hit c with _ | _
    · rcases ih with ih | ⟨front, d, back, rfl, hfront, hd⟩
      · exact .inl (List.forall_mem_cons.mpr ⟨hc, ih⟩)
      · exact .inr ⟨c :: front, d, back, rfl, List.forall_mem_cons.mpr ⟨hc, hfront⟩, hd⟩
    · exact .inr ⟨[], c, cs, rfl, by simp, hc⟩

/-- **The first call of a kind** gives the name of the helper: an expression that takes the calls of
    one kind and passes over the others finds the first of them, if there is one. -/
theorem search_calls (p : PlayerScript) (hit : HelperCall → Bool) (hcomma : q.needs ',' = true)
    (hsemicolon : q.avoids ';' = true)
    (hhit : ∀ c, hit c = true → ∀ before after,
      q.Takes before [] (c.text p.helperName) after [(1, p.helperName.chars)])
    (hmiss : ∀ c, hit c = false → ∀ before after,
      q.Barren before (c.text p.helperName ++ [';']) after) :
    (∃ found, q.search? p.bodyText = some found ∧
      found.stop.captures = [(1, p.helperName.chars)]) ∨
    (q.search? p.bodyText = none ∧ ∀ c ∈ p.calls, hit c = false) := by
  have hfront : ∀ before after, q.Barren before (bodyFront ++ [';']) after :=
    barren_before_separator hcomma hsemicolon (by decide)
  rw [p.bodyText_eq]
  rcases exists_first hit p.calls with hnone | ⟨front, c, back, hcalls, hbefore, hc⟩
  · right
    refine ⟨search?_eq_none ?_ (halts_of_needs hcomma _), hnone⟩
    refine (hfront _ _).append (Barren.append ?_ (barren_at_end hcomma (by decide) _))
    exact barren_calls (fun c hc => hmiss c (hnone c hc)) _ _
  · left
    have htext : (bodyFront ++ [';']) ++ (callsClosed p.helperName p.calls ++ bodyBack) =
        ((bodyFront ++ [';']) ++ callsClosed p.helperName front) ++ (c.text p.helperName ++
          (';' :: (callsClosed p.helperName back ++ bodyBack))) := by
      rw [hcalls]
      simp only [callsClosed, List.flatMap_append, List.flatMap_cons, List.append_assoc,
        List.cons_append, List.nil_append]
    rw [htext]
    refine search?_eq_some ((hfront _ _).append ?_) (hhit c hc _ _) ?_
    · exact barren_calls (fun c hc => hmiss c (hbefore c hc)) _ _
    · exact fun h => p.helperName.chars_ne (List.append_eq_nil_iff.mp h).1

end Search

/-! ## The name of the helper -/

variable (p : PlayerScript)

/-- A call with a single argument is nowhere in the body. -/
theorem search_single : singleCall.search? p.bodyText = none := by
  have hcomma : isIdentChar ',' = false := by decide
  have hclose : isIdentChar ')' = false := by decide
  have hpoint : isIdentChar '.' = false := by decide
  have hfront : bodyFront ++ [';'] = ("a=a.split(".toList ++ ['"']) ++ (['"', ')'] ++ [';']) := by
    decide
  have hback : bodyBack = ("return a.join(".toList ++ ['"']) ++ ['"', ')'] := by decide
  have hcall : ∀ c ∈ p.calls, ∀ before after,
      singleCall.Barren before (c.text p.helperName ++ [';']) after := by
    intro c _ before after
    have htext : c.text p.helperName ++ [';'] =
        ((p.helperName.chars ++ (c.access ++ ['(', 'a'])) ++ [',']) ++
          ((c.digits ++ [')']) ++ [';']) := by
      rw [HelperCall.text]
      simp only [List.append_assoc, List.cons_append, List.nil_append]
    have haccess : ')' ∉ c.access := by
      rw [HelperCall.access]
      split
      · simp [c.name.not_mem hclose]
      · simp [c.name.not_mem hclose]
    rw [htext]
    refine Barren.append ?_ ?_
    · refine barren_before_separator (x := ')') rfl rfl ?_ _ _
      simp [p.helperName.not_mem hclose, haccess]
    · refine barren_before_separator (x := '.') rfl rfl ?_ _ _
      simp [c.not_mem_digits hpoint]
  rw [p.bodyText_eq, hfront, hback]
  refine search?_eq_none ?_ (halts_of_needs (x := ')') rfl _)
  refine Barren.append (Barren.append ?_ ?_) (Barren.append (barren_calls hcall _ _) ?_)
  · exact barren_before_separator (x := ')') rfl rfl (by decide) _ _
  · exact barren_before_separator (x := '.') rfl rfl (by decide) _ _
  · refine Barren.append ?_ (barren_at_end (x := '.') rfl (by decide) _)
    exact barren_before_separator (x := ')') rfl rfl (by decide) _ _

/-- **The name of the helper** is located. -/
theorem locate_helperName : ∃ i, (locate (String.ofList p.bodyText) .helperName
    (defaultMatchers .helperName) []).value = .ok ⟨String.ofList p.helperName.chars, i⟩ := by
  obtain ⟨pair, bracketed, single, dotted, hms, hpair, hbracketed, hsingle, hdotted, hkind⟩ :=
    helperName_stands
  have hcapture : ∀ {m : Matcher} {q : Pattern}, m.Stands [] q 1 →
      m.indexed = false ∧ m.capture = 1 → (∃ found, q.search? p.bodyText = some found ∧
        found.stop.captures = [(1, p.helperName.chars)]) →
      (m.search (String.ofList p.bodyText) []).value =
        .ok (some (String.ofList p.helperName.chars)) := by
    rintro m q hstands ⟨hindexed, hcapture⟩ hfound
    refine search_captured hstands hindexed (by omega) (by omega) hfound ?_ p.helperName.chars_ne
    rw [hcapture]
    rfl
  have hfirst := p.search_calls (q := dottedCall 2 (some 2))
    (fun c => !c.quoted && c.name.chars.length == 2) (by decide) (by decide)
    (fun c hc => by
      simp only [Bool.and_eq_true, Bool.not_eq_true', beq_iff_eq] at hc
      exact c.takes_dotted p.helperName_long hc.1 (by omega) (by simp; omega))
    (fun c hc before after => by
      rcases hquoted : c.quoted with _ | _
      · exact pair_misses _ c _ _ hquoted (by simpa [hquoted] using hc)
      · exact dotted_misses _ c _ _ hquoted)
  have hsecond := p.search_calls (q := bracketedCall) HelperCall.quoted (by decide)
    (by decide) (fun c hc => c.takes_bracketed p.helperName_long hc)
    (fun c hc before after => bracketed_misses _ c _ _ hc)
  have hlast := p.search_calls (q := dottedCall 1 none) (fun c => !c.quoted) (by decide)
    (by decide)
    (fun c hc => c.takes_dotted p.helperName_long (by simpa using hc) c.name.one_le_length
      (by simp))
    (fun c hc before after => dotted_misses _ c _ _ (by simpa using hc))
  rw [hms]
  rcases hfirst with hfound | ⟨hnone, -⟩
  · exact ⟨0, locate_eq_ok (firstCapture_here (hcapture hpair (hkind _ (by simp)) hfound) 0)⟩
  rcases hsecond with hfound | ⟨hnone', hunquoted⟩
  · refine ⟨1, locate_eq_ok ?_⟩
    rw [firstCapture_there (search_absent hpair hnone)]
    exact firstCapture_here (hcapture hbracketed (hkind _ (by simp)) hfound) 1
  rcases hlast with hfound | ⟨-, hquoted⟩
  · refine ⟨3, locate_eq_ok ?_⟩
    rw [firstCapture_there (search_absent hpair hnone),
      firstCapture_there (search_absent hbracketed hnone'),
      firstCapture_there (search_absent hsingle p.search_single)]
    exact firstCapture_here (hcapture hdotted (hkind _ (by simp)) hfound) 3
  · -- a call is either of the one kind or of the other
    obtain ⟨c, cs, hcalls⟩ := List.exists_cons_of_ne_nil p.calls_ne
    have hmem : c ∈ p.calls := hcalls ▸ List.mem_cons_self
    have hno := hquoted c hmem
    rw [hunquoted c hmem] at hno
    simp at hno

end PlayerScript

end StreamResolver.Cipher
