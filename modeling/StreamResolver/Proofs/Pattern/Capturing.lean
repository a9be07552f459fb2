/-
  What a match captures.

  Whatever is tried on the way to a match, a capture only ever holds a text that a part of the
  expression passed somewhere in the searched text (`FindsIn.group?_passed`).  Which parts a capture
  may remember can be read off the expression (`parts`), and so can the captures that every way sets
  (`sets`).

  One induction over the expression carries all of this: a way moves on in the text, keeps the
  captures that there are, and adds texts of parts in front of them (`Records`).
-/
import StreamResolver.Proofs.Pattern.Ways

namespace StreamResolver.Pattern

/-! ## Parts and captures -/

/-- The whole text around a place. -/
def Place.whole (s : Place) : List Char := s.before.reverse ++ s.after

/-- The parts of an expression that a capture may remember. -/
def parts (n : Nat) : Pattern → List Pattern
  | .capture m p => if m = n then p :: p.parts n else p.parts n
  | .seq p q => p.parts n ++ q.parts n
  | .alt p q => p.parts n ++ q.parts n
  | .ifCaptured _ p q => p.parts n ++ q.parts n
  | .loop _ _ _ p => p.parts n
  | .ahead _ p => p.parts n
  | .behind _ _ p => p.parts n
  | .atomic p => p.parts n
  | _ => []

/-- Whether every way sets the capture, as far as the shape of the expression tells. -/
def sets (n : Nat) : Pattern → Bool
  | .capture m p => m == n || p.sets n
  | .seq p q => p.sets n || q.sets n
  | .alt p q => p.sets n && q.sets n
  | .atomic p => p.sets n
  | _ => false

/-- Somewhere in a text the expression has a way that passes `w`. -/
def PassesIn (p : Pattern) (text w : List Char) : Prop :=
  ∃ s t, p.Leads s t ∧ s.whole = text ∧ s.after = w ++ t.after

/-- What is passed in a text stands in it. -/
theorem PassesIn.isInfix {p : Pattern} {text w : List Char} (h : p.PassesIn text w) :
    w <:+: text := by
  obtain ⟨s, t, -, rfl, hafter⟩ := h
  exact ⟨s.before.reverse, t.after, by rw [Place.whole, hafter, List.append_assoc]⟩

/-- A run of characters passes characters of its set. -/
theorem passesIn_span {lazy : Bool} {min : Nat} {max : Option Nat} {set : CharSet}
    {text w : List Char} (h : (span lazy min max set).PassesIn text w) :
    (∀ c ∈ w, set.has c = true) ∧ min ≤ w.length := by
  obtain ⟨s, t, ⟨u, hu, hlen, -, hreads⟩, -, hafter⟩ := h
  obtain rfl : u = w := List.append_cancel_right (hreads.after_eq.symm.trans hafter)
  exact ⟨hu, hlen⟩

/-! ## One way -/

/-- What a way does from one place to another: it moves on, keeps the captures, and adds texts of the
    given parts, among them those of the captures that it must set. -/
structure Records (parts : Nat → List Pattern) (must : Nat → Bool) (s t : Place) : Prop where
  moved : ∃ w, s.after = w ++ t.after ∧ t.pos = s.pos + w.length ∧ t.before = w.reverse ++ s.before
  kept : ∀ e ∈ s.captures, e ∈ t.captures
  added : ∀ e ∈ t.captures, e ∈ s.captures ∨ ∃ q ∈ parts e.1, q.PassesIn s.whole e.2
  set : ∀ n, must n = true → ∃ w, (n, w) ∈ t.captures

namespace Records

variable {P P' : Nat → List Pattern} {M M' : Nat → Bool} {s t r : Place}

theorem whole_eq (h : Records P M s t) : t.whole = s.whole := by
  obtain ⟨w, hafter, -, hbefore⟩ := h.moved
  rw [Place.whole, Place.whole, hafter, hbefore, List.reverse_append, List.reverse_reverse,
    List.append_assoc]

theorem mono (h : Records P M s t) (hP : ∀ n, ∀ q ∈ P n, q ∈ P' n)
    (hM : ∀ n, M' n = true → M n = true) : Records P' M' s t := by
  refine ⟨h.moved, h.kept, fun e he => ?_, fun n hn => h.set n (hM n hn)⟩
  rcases h.added e he with hold | ⟨q, hq, hpasses⟩
  · exact .inl hold
  · exact .inr ⟨q, hP e.1 q hq, hpasses⟩

theorem refl (P : Nat → List Pattern) (s : Place) : Records P (fun _ => false) s s :=
  ⟨⟨[], rfl, rfl, rfl⟩, fun _ he => he, fun _ he => .inl he, fun _ hn => by simp at hn⟩

theorem trans (h : Records P M s t) (h' : Records P M' t r) :
    Records P (fun n => M n || M' n) s r := by
  refine ⟨?moved, fun e he => h'.kept e (h.kept e he), fun e he => ?added, fun n hn => ?set⟩
  case moved =>
    obtain ⟨u, hu, hpos, hbefore⟩ := h.moved
    obtain ⟨v, hv, hpos', hbefore'⟩ := h'.moved
    refine ⟨u ++ v, by rw [hu, hv, List.append_assoc], ?_, ?_⟩
    · rw [hpos', hpos, List.length_append, Nat.add_assoc]
    · rw [hbefore', hbefore, List.reverse_append, List.append_assoc]
  case added =>
    rcases h'.added e he with hold | ⟨q, hq, hpasses⟩
    · exact h.added e hold
    · rw [h.whole_eq] at hpasses
      exact .inr ⟨q, hq, hpasses⟩
  case set =>
    rcases Bool.or_eq_true _ _ ▸ hn with hn | hn
    · obtain ⟨w, hw⟩ := h.set n hn
      exact ⟨w, h'.kept _ hw⟩
    · exact h'.set n hn

/-- Passing a text captures nothing. -/
theorem of_reads (P : Nat → List Pattern) {w : List Char} (h : s.Reads w t) :
    Records P (fun _ => false) s t := by
  refine ⟨⟨w, h.after_eq, h.pos_eq, h.before_eq⟩, fun e he => ?_, fun e he => .inl ?_,
    fun _ hn => by simp at hn⟩
  · rw [h.captures_eq]
    exact he
  · rw [h.captures_eq] at he
    exact he

/-- Looking from a place of the same text takes over the captures and moves nowhere. -/
theorem look {b m : Place} (h : Records P M b m) (hwhole : b.whole = s.whole)
    (hcaptures : b.captures = s.captures) : Records P M s { s with captures := m.captures } := by
  refine ⟨⟨[], rfl, rfl, rfl⟩, fun e he => h.kept e (hcaptures ▸ he), fun e he => ?_, h.set⟩
  have hadded := h.added e he
  rw [hwhole, hcaptures] at hadded
  exact hadded

end Records

theorem back?_eq_some {n : Nat} {s b : Place} (h : s.back? n = some b) :
    b.whole = s.whole ∧ b.captures = s.captures := by
  induction n generalizing s with
  | zero =>
    rw [Place.back?, Option.some.injEq] at h
    rw [h]
    exact ⟨rfl, rfl⟩
  | succ n ih =>
    unfold Place.back? at h
    split at h
    · simp at h
    · next c rest hbefore =>
      obtain ⟨hwhole, hcaptures⟩ := ih h
      refine ⟨hwhole.trans ?_, hcaptures⟩
      simp [Place.whole, hbefore]

theorem Rounds.records {p : Pattern} {P : Nat → List Pattern} {M : Nat → Bool}
    (hp : ∀ s t, p.Leads s t → Records P M s t) {n : Nat} {s t : Place}
    (h : Rounds p.Leads n s t) : Records P (fun _ => false) s t := by
  induction n generalizing s with
  | zero =>
    rw [Rounds] at h
    exact h ▸ .refl P s
  | succ n ih =>
    obtain ⟨m, hm, h⟩ := h
    exact ((hp s m hm).trans (ih h)).mono (fun _ _ hq => hq) (by simp)

/-- A capture adds the text that its part passes. -/
theorem Leads.records_capture {n : Nat} {p : Pattern} {s m : Place} (hm : p.Leads s m)
    (h : Records (fun k => p.parts k) (fun k => p.sets k) s m) :
    Records (fun k => (capture n p).parts k) (fun k => (capture n p).sets k) s
      (m.record n (s.textTo m)) := by
  obtain ⟨w, hafter, hpos, hbefore⟩ := h.moved
  have htext : s.textTo m = w := by
    rw [Place.textTo, hafter, hpos, Nat.add_sub_cancel_left]
    exact List.take_left
  have hinner : ∀ k, ∀ q ∈ p.parts k, q ∈ (capture n p).parts k := by
    intro k q hq
    rw [parts]
    split
    · exact List.mem_cons_of_mem p hq
    · exact hq
  rw [htext]
  refine ⟨⟨w, hafter, hpos, hbefore⟩, fun e he => List.mem_cons_of_mem _ (h.kept e he),
    fun e he => ?added, fun k hk => ?set⟩
  case added =>
    rcases List.mem_cons.mp he with rfl | he
    · exact .inr ⟨p, by simp [parts], s, m, hm, rfl, hafter⟩
    · rcases h.added e he with hold | ⟨q, hq, hpasses⟩
      · exact .inl hold
      · exact .inr ⟨q, hinner e.1 q hq, hpasses⟩
  case set =>
    rw [sets, Bool.or_eq_true, beq_iff_eq] at hk
    rcases hk with rfl | hk
    · exact ⟨w, List.mem_cons_self⟩
    · obtain ⟨u, hu⟩ := h.set k hk
      exact ⟨u, List.mem_cons_of_mem _ hu⟩

/-- **Every way records** only texts that parts of the expression pass. -/
theorem Leads.records {p : Pattern} {s t : Place} (h : p.Leads s t) :
    Records (fun n => p.parts n) (fun n => p.sets n) s t := by
  induction p generalizing s t with
  | empty =>
    rw [Leads] at h
    subst h
    exact .refl _ _
  | one set =>
    obtain ⟨c, -, hnext⟩ := h
    exact .of_reads _ (Place.reads_of_next? hnext)
  | span lazy min max set =>
    obtain ⟨w, -, -, -, hreads⟩ := h
    exact .of_reads _ hreads
  | seq p q ihp ihq =>
    obtain ⟨m, hm, h⟩ := h
    have hp : Records (fun n => (seq p q).parts n) (fun n => p.sets n) s m :=
      (ihp hm).mono (fun n x hx => List.mem_append_left _ hx) fun _ hn => hn
    have hq : Records (fun n => (seq p q).parts n) (fun n => q.sets n) m t :=
      (ihq h).mono (fun n x hx => List.mem_append_right _ hx) fun _ hn => hn
    exact hp.trans hq
  | alt p q ihp ihq =>
    rcases h with h | h
    · exact (ihp h).mono (fun n x hx => List.mem_append_left _ hx)
        fun n hn => (Bool.and_eq_true _ _ ▸ hn).1
    · exact (ihq h).mono (fun n x hx => List.mem_append_right _ hx)
        fun n hn => (Bool.and_eq_true _ _ ▸ hn).2
  | capture n p ih =>
    obtain ⟨m, hm, rfl⟩ := h
    exact records_capture hm (ih hm)
  | «recall» caseless n =>
    obtain ⟨text, w, -, -, hreads⟩ := h
    exact .of_reads _ hreads
  | loop lazy min max p ih =>
    obtain ⟨n, -, hrounds⟩ := h
    exact hrounds.records fun _ _ => ih
  | ahead negated p ih =>
    rw [Leads] at h
    split at h
    · subst h
      exact .refl _ _
    · obtain ⟨m, hm, rfl⟩ := h
      exact ((ih hm).look rfl rfl).mono (fun _ _ hq => hq) fun _ hn => by simp [sets] at hn
  | behind negated width p ih =>
    rw [Leads] at h
    split at h
    · subst h
      exact .refl _ _
    · obtain ⟨b, m, hb, hm, rfl⟩ := h
      obtain ⟨hwhole, hcaptures⟩ := back?_eq_some hb
      exact ((ih hm).look hwhole hcaptures).mono (fun _ _ hq => hq) fun _ hn => by simp [sets] at hn
  | atomic p ih => exact (ih h).mono (fun _ _ hq => hq) fun _ hn => hn
  | ifCaptured n p q ihp ihq =>
    rcases h with h | h
    · exact (ihp h).mono (fun n x hx => List.mem_append_left _ hx) fun n hn => by simp [sets] at hn
    · exact (ihq h).mono (fun n x hx => List.mem_append_right _ hx) fun n hn => by simp [sets] at hn
  | textStart | textEnd | lastLineEnd | lineStart | lineEnd | wordEdge =>
    obtain ⟨rfl, -⟩ := h
    exact .refl _ _

/-! ## Matches -/

/-- A match that the expression can have in a text. -/
def FindsIn (p : Pattern) (text : List Char) (found : Found) : Prop :=
  ∃ s, s.whole = text ∧ s.captures = [] ∧ p.Leads s found.stop ∧
    found.text = s.textTo found.stop

theorem matchAt?_findsIn {p : Pattern} {bound : Nat} {advance : Bool} {s : Place} {found : Found}
    (h : matchAt? bound p advance s = some found) (hs : s.captures = []) :
    p.FindsIn s.whole found := by
  rw [matchAt?, Option.map_eq_some_iff] at h
  obtain ⟨t, hrun, rfl⟩ := h
  obtain ⟨m, hm, hk⟩ := run_leads bound p hrun
  split at hk
  · simp at hk
  · rw [Option.some.injEq] at hk
    exact ⟨s, rfl, hs, hk ▸ hm, rfl⟩

theorem searchFrom_findsIn {p : Pattern} {bound : Nat} {advance : Bool} {rest : List Char}
    {pos : Nat} {before passed passed' : List Char} {found : Found}
    (h : searchFrom bound p advance rest pos before passed = some (passed', found)) :
    p.FindsIn (before.reverse ++ rest) found := by
  induction rest generalizing advance pos before passed with
  | nil =>
    rw [searchFrom, Option.map_eq_some_iff] at h
    obtain ⟨m, hm, heq⟩ := h
    obtain ⟨-, rfl⟩ := Prod.mk.injEq _ _ _ _ ▸ heq
    exact matchAt?_findsIn hm rfl
  | cons c rest ih =>
    unfold searchFrom at h
    split at h
    · next m hm =>
      rw [Option.some.injEq, Prod.mk.injEq] at h
      obtain ⟨-, rfl⟩ := h
      exact matchAt?_findsIn hm rfl
    · have hfound := ih h
      rw [List.reverse_cons, List.append_assoc] at hfound
      exact hfound

/-- The leftmost match is one that the expression can have. -/
theorem search?_findsIn {p : Pattern} {text : List Char} {found : Found}
    (h : p.search? text = some found) : p.FindsIn text found := by
  rw [search?, Option.map_eq_some_iff] at h
  obtain ⟨⟨passed, m⟩, hm, rfl⟩ := h
  exact searchFrom_findsIn hm

theorem cutsFrom_findsIn {p : Pattern} {bound fuel : Nat} {advance : Bool} {s : Place}
    {e : List Char × Found} (h : e ∈ (cutsFrom bound p fuel advance s).1) :
    p.FindsIn s.whole e.2 := by
  induction fuel generalizing advance s with
  | zero => simp [cutsFrom] at h
  | succ fuel ih =>
    unfold cutsFrom at h
    split at h
    · simp at h
    · next passed m hm =>
      have hfound := searchFrom_findsIn hm
      rcases List.mem_cons.mp h with rfl | h
      · exact hfound
      · -- the search goes on behind the match, in the same text
        obtain ⟨r, hwhole, -, hleads, -⟩ := hfound
        have hsame : m.stop.whole = s.whole := hleads.records.whole_eq.trans hwhole
        have hrest := ih h
        rw [← hsame]
        exact hrest

/-- So is every match that is found in a text. -/
theorem findAll_findsIn {p : Pattern} {text : List Char} {found : Found}
    (h : found ∈ p.findAll text) : p.FindsIn text found := by
  obtain ⟨e, he, rfl⟩ := List.mem_map.mp h
  exact cutsFrom_findsIn he

namespace FindsIn

variable {p : Pattern} {text w : List Char} {found : Found} {n : Nat}

/-- **A capture holds a text that one of its parts passed** in the searched text. -/
theorem group?_passed (h : p.FindsIn text found) (hn : n ≠ 0) (hgroup : found.group? n = some w) :
    ∃ q ∈ p.parts n, q.PassesIn text w := by
  obtain ⟨s, rfl, hempty, hleads, -⟩ := h
  rw [Found.group?, if_neg hn, Place.captured?, Option.map_eq_some_iff] at hgroup
  obtain ⟨e, he, rfl⟩ := hgroup
  obtain rfl : e.1 = n := by simpa using List.find?_some he
  rcases hleads.records.added e (List.mem_of_find?_eq_some he) with hold | hpassed
  · rw [hempty] at hold
    simp at hold
  · exact hpassed

/-- Whatever is captured stands in the searched text. -/
theorem group?_isInfix (h : p.FindsIn text found) (hgroup : found.group? n = some w) :
    w <:+: text := by
  by_cases hn : n = 0
  · obtain ⟨s, rfl, -, -, htext⟩ := h
    rw [Found.group?, if_pos hn, Option.some.injEq, htext] at hgroup
    rw [← hgroup]
    exact (List.take_prefix _ s.after).isInfix.trans (List.suffix_append _ _).isInfix
  · obtain ⟨q, -, hpasses⟩ := h.group?_passed hn hgroup
    exact hpasses.isInfix

/-- A capture that every way sets is there. -/
theorem group?_isSome (h : p.FindsIn text found) (hsets : p.sets n = true) (hn : n ≠ 0) :
    ∃ w, found.group? n = some w := by
  obtain ⟨s, -, -, hleads, -⟩ := h
  obtain ⟨w, hw⟩ := hleads.records.set n hsets
  rw [Found.group?, if_neg hn, Place.captured?]
  refine Option.isSome_iff_exists.mp ?_
  rw [Option.isSome_map, List.find?_isSome]
  exact ⟨(n, w), hw, by simp⟩

end FindsIn

end StreamResolver.Pattern
