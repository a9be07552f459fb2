/-
  Stretches of characters and the gaps between them.

  Written texts are made of stretches of characters of one set, such as names and numerals, with
  gaps of blanks around them.  A greedy repetition takes a stretch or a gap as it is written when the
  next character is of another set (`takes_stretch`, `takes_blanks`), and what a way passes under
  such a repetition is one (`some1_reads`, `many_blank_reads`).
-/
import StreamResolver.Proofs.Pattern.Taking

namespace StreamResolver.Pattern

/-- Two sets of characters have none in common. -/
def Apart (set other : CharSet) : Prop := ∀ c, set.has c = true → other.has c = false

theorem Apart.symm {set other : CharSet} (h : Apart set other) : Apart other set := by
  intro c hc
  rcases hset : set.has c with _ | _
  · rfl
  · rw [h c hset] at hc
    cases hc

/-- One or more characters of a set. -/
structure Stretch (set : CharSet) where
  chars : List Char
  chars_ne : chars ≠ []
  all : ∀ c ∈ chars, set.has c = true

/-- Any number of blanks. -/
structure Gap where
  chars : List Char
  all : ∀ c ∈ chars, CharSet.blank.has c = true

/-- No gap at all. -/
def Gap.none : Gap := ⟨[], by simp⟩

/-! ## What they are made of -/

section Members

variable {set : CharSet} {x : Char}

theorem Stretch.not_mem (s : Stretch set) (hx : set.has x = false) : x ∉ s.chars := by
  intro h
  rw [s.all x h] at hx
  cases hx

theorem Gap.not_mem (g : Gap) (hx : CharSet.blank.has x = false) : x ∉ g.chars := by
  intro h
  rw [g.all x h] at hx
  cases hx

/-- A text that begins with a stretch begins with none of the characters of another set. -/
theorem Stretch.head?_append_not {other : CharSet} (s : Stretch set) (h : Apart set other)
    (rest : List Char) :
    ∀ c ∈ (s.chars ++ rest).head?, other.has c = false := by
  obtain ⟨c, more, hs⟩ := List.exists_cons_of_ne_nil s.chars_ne
  rw [hs]
  exact head?_cons_not (h c (s.all c (hs ▸ List.mem_cons_self))) _

/-- Behind a gap comes a character, and neither is of the set. -/
theorem Gap.head?_append_not (g : Gap) (h : Apart .blank set) (hx : set.has x = false)
    (rest : List Char) :
    ∀ c ∈ (g.chars ++ x :: rest).head?, set.has c = false :=
  head?_run_not (fun c hc => h c (g.all c hc)) hx rest

end Members

/-! ## What is taken -/

section Takes

variable {set : CharSet} {ps : List Pattern} {before w after : List Char} {caps caps' : Captures}

theorem takes_stretch (s : Stretch set) (hstop : ∀ c ∈ after.head?, set.has c = false)
    (before : List Char) (caps : Captures) : (some1 set).Takes before caps s.chars after caps :=
  takes_span s.all (List.length_pos_iff.mpr s.chars_ne) (by simp) hstop before caps

theorem takes_blanks (g : Gap) (hstop : ∀ c ∈ (w ++ after).head?, CharSet.blank.has c = false)
    (h : (sequence ps).Takes (g.chars.reverse ++ before) caps w after caps') :
    (sequence (many .blank :: ps)).Takes before caps (g.chars ++ w) after caps' :=
  takes_cons (takes_span g.all (Nat.zero_le _) (by simp) hstop before caps) h

end Takes

/-! ## What is passed -/

section Reads

variable {set : CharSet} {s t : Place}

theorem one_reads (h : (one set).Leads s t) : ∃ c, set.has c = true ∧ s.Reads [c] t := by
  obtain ⟨c, hc, hnext⟩ := h
  exact ⟨c, hc, Place.reads_of_next? hnext⟩

theorem char_reads {c : Char} (h : (one (.char c)).Leads s t) : s.Reads [c] t := by
  obtain ⟨x, hx, hreads⟩ := one_reads h
  obtain rfl : x = c := by simpa using hx
  exact hreads

theorem some1_reads (h : (some1 set).Leads s t) : ∃ w : Stretch set, s.Reads w.chars t := by
  obtain ⟨w, hw, hlen, -, hreads⟩ := h
  exact ⟨⟨w, List.length_pos_iff.mp hlen, hw⟩, hreads⟩

theorem many_blank_reads (h : (many .blank).Leads s t) : ∃ g : Gap, s.Reads g.chars t := by
  obtain ⟨w, hw, -, -, hreads⟩ := h
  exact ⟨⟨w, hw⟩, hreads⟩

end Reads

end StreamResolver.Pattern
