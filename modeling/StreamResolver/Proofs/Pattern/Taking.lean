/-
  The first way of an expression.

  `Takes p before caps w after caps'` says what `p` does first when `w` and then `after` lies
  ahead: it passes `w`, and the captures go from `caps` to `caps'`.  If the rest succeeds from
  there, that is the match, and no other way is tried.

  There is one rule for each part of a sequence.  A greedy run takes all it can when the next
  character is not of its set (`takes_span`), and a lazy one stops at the first place from which
  the rest has a way at all (`takes_lazy`).
-/
import StreamResolver.Proofs.Pattern.Ways

namespace StreamResolver.Pattern

/-- What the expression takes first. -/
def Takes (p : Pattern) (before : List Char) (caps : Captures) (w after : List Char)
    (caps' : Captures) : Prop :=
  ∀ bound, (w ++ after).length ≤ bound → ∀ pos k t,
    k ⟨pos + w.length, w.reverse ++ before, after, caps'⟩ = some t →
      p.run bound k ⟨pos, before, w ++ after, caps⟩ = some t

/-! ## Sequences -/

theorem takes_end (before : List Char) (caps : Captures) (after : List Char) :
    (sequence []).Takes before caps [] after caps := fun _ _ _ _ _ h => h

theorem takes_cons {p : Pattern} {ps : List Pattern} {before u v after : List Char}
    {caps caps' caps'' : Captures} (hp : p.Takes before caps u (v ++ after) caps')
    (hps : (sequence ps).Takes (u.reverse ++ before) caps' v after caps'') :
    (sequence (p :: ps)).Takes before caps (u ++ v) after caps'' := by
  intro bound hbound pos k t h
  rw [run_sequence_cons, List.append_assoc]
  refine hp bound (by rw [← List.append_assoc]; exact hbound) pos _ t ?_
  refine hps bound ?_ (pos + u.length) k t ?_
  · rw [List.append_assoc, List.length_append] at hbound
    omega
  · rw [← List.append_assoc, ← List.reverse_append, Nat.add_assoc, ← List.length_append]
    exact h

/-! ## Single characters -/

theorem takes_one {set : CharSet} {c : Char} (hc : set.has c = true) (before : List Char)
    (caps : Captures) (after : List Char) : (one set).Takes before caps [c] after caps := by
  intro bound hbound pos k t h
  show (if set.has c then k _ else none) = some t
  rw [if_pos hc]
  exact h

theorem takes_char {c : Char} {ps : List Pattern} {before w after : List Char}
    {caps caps' : Captures} (h : (sequence ps).Takes (c :: before) caps w after caps') :
    (sequence (one (.char c) :: ps)).Takes before caps (c :: w) after caps' :=
  takes_cons (takes_one (by simp) before caps _) h

theorem takes_literal {text : List Char} {ps : List Pattern} {before w after : List Char}
    {caps caps' : Captures} (h : (sequence ps).Takes (text.reverse ++ before) caps w after caps') :
    (sequence (text.map (fun c => one (.char c)) ++ ps)).Takes before caps (text ++ w) after
      caps' := by
  induction text generalizing before with
  | nil => exact h
  | cons c rest ih =>
    refine takes_char (ih ?_)
    rw [List.reverse_cons, List.append_assoc] at h
    exact h

theorem takes_text (text before : List Char) (caps : Captures) (after : List Char) :
    (literal text).Takes before caps text after caps := by
  have h := takes_literal (takes_end (text.reverse ++ before) caps after)
  rw [List.append_nil, List.append_nil] at h
  exact h

/-! ## Runs of characters -/

/-- Passing a text character by character. -/
theorem past_cons (pos : Nat) (c : Char) (rest before after : List Char) (caps : Captures) :
    (⟨pos + 1 + rest.length, rest.reverse ++ c :: before, after, caps⟩ : Place) =
      ⟨pos + (c :: rest).length, (c :: rest).reverse ++ before, after, caps⟩ := by
  rw [List.length_cons, List.reverse_cons, List.append_assoc, List.singleton_append, Nat.add_assoc,
    Nat.add_comm 1]

theorem skip_take {set : CharSet} {u : List Char} (hu : ∀ c ∈ u, set.has c = true) (k : Next)
    (pos : Nat) (before after : List Char) (caps : Captures) :
    skip set u.length k ⟨pos, before, u ++ after, caps⟩ =
      k ⟨pos + u.length, u.reverse ++ before, after, caps⟩ := by
  induction u generalizing pos before with
  | nil => rfl
  | cons c rest ih =>
    show (if set.has c then skip set rest.length k ⟨pos + 1, c :: before, rest ++ after, caps⟩
      else none) = _
    rw [if_pos (hu c List.mem_cons_self), ih fun x hx => hu x (List.mem_cons_of_mem c hx),
      past_cons]

/-- The furthest place that is reached comes first. -/
theorem reach_furthest {set : CharSet} {u after : List Char} (hu : ∀ c ∈ u, set.has c = true)
    (hstop : ∀ c ∈ after.head?, set.has c = false) {n : Nat} (hn : u.length ≤ n) (pos : Nat)
    (before : List Char) (caps : Captures) (found : List Place) :
    ∃ more, reach set n ⟨pos, before, u ++ after, caps⟩ found =
      ⟨pos + u.length, u.reverse ++ before, after, caps⟩ :: more := by
  induction u generalizing n pos before found with
  | nil =>
    refine ⟨found, ?_⟩
    rcases n with _ | n
    · rfl
    · rcases after with _ | ⟨c, after⟩
      · rfl
      · show (if set.has c then _ else _) = _
        rw [if_neg (by simp [hstop c rfl])]
        rfl
  | cons c rest ih =>
    rcases n with _ | n
    · simp at hn
    · obtain ⟨more, hmore⟩ := ih (fun x hx => hu x (List.mem_cons_of_mem c hx))
        (Nat.le_of_succ_le_succ hn) (pos + 1) (c :: before)
        (⟨pos, before, c :: rest ++ after, caps⟩ :: found)
      refine ⟨more, ?_⟩
      show (if set.has c then reach set n ⟨pos + 1, c :: before, rest ++ after, caps⟩
        (⟨pos, before, c :: rest ++ after, caps⟩ :: found) else _) = _
      rw [if_pos (hu c List.mem_cons_self), hmore, past_cons]

theorem takes_span {set : CharSet} {min : Nat} {max : Option Nat} {w after : List Char}
    (hw : ∀ c ∈ w, set.has c = true) (hmin : min ≤ w.length)
    (hmax : ∀ n, max = some n → w.length ≤ n)
    (hstop : ∀ c ∈ after.head?, set.has c = false) (before : List Char) (caps : Captures) :
    (span false min max set).Takes before caps w after caps := by
  intro bound hbound pos k t h
  obtain ⟨u, v, rfl, rfl⟩ : ∃ u v, w = u ++ v ∧ u.length = min :=
    ⟨w.take min, w.drop min, (List.take_append_drop min w).symm, List.length_take_of_le hmin⟩
  have hset : ∀ c ∈ u, set.has c = true := fun c hc => hw c (List.mem_append_left v hc)
  have hset' : ∀ c ∈ v, set.has c = true := fun c hc => hw c (List.mem_append_right u hc)
  have hopt : v.length ≤ optional bound u.length max := by
    rw [List.length_append] at hmax hbound
    rcases max with _ | n
    · rw [optional]
      rw [List.length_append] at hbound
      omega
    · have hn := hmax n rfl
      rw [optional]
      omega
  obtain ⟨more, hmore⟩ :=
    reach_furthest hset' hstop hopt (pos + u.length) (u.reverse ++ before) caps []
  show skip set u.length _ _ = some t
  rw [List.append_assoc, skip_take hset, if_neg (by simp), hmore, List.findSome?_cons,
    Nat.add_assoc, ← List.length_append, ← List.append_assoc, ← List.reverse_append, h]

/-- A run of one character. -/
theorem takes_single {set : CharSet} {c : Char} {after : List Char} (hc : set.has c = true)
    (hstop : ∀ d ∈ after.head?, set.has d = false) (before : List Char) (caps : Captures) :
    (some1 set).Takes before caps [c] after caps :=
  takes_span (by simpa using hc) (by simp) (by simp) hstop before caps

/-- No blank is there, so optional blanks take nothing. -/
theorem takes_gap {set : CharSet} {ps : List Pattern} {before w after : List Char}
    {caps caps' : Captures} (hstop : ∀ c ∈ (w ++ after).head?, set.has c = false)
    (h : (sequence ps).Takes before caps w after caps') :
    (sequence (many set :: ps)).Takes before caps w after caps' :=
  takes_cons (u := []) (takes_span (by simp) (Nat.zero_le _) (by simp) hstop before caps) h

/-- What the next character is not. -/
theorem head?_cons_not {set : CharSet} {c : Char} (h : set.has c = false) (rest : List Char) :
    ∀ d ∈ (c :: rest).head?, set.has d = false := by
  rintro d hd
  obtain rfl : c = d := by simpa using hd
  exact h

theorem head?_append_not {set : CharSet} {text : List Char} {c : Char} (hc : text.head? = some c)
    (h : set.has c = false) (rest : List Char) : ∀ d ∈ (text ++ rest).head?, set.has d = false := by
  obtain ⟨more, rfl⟩ : ∃ more, text = c :: more := by
    rcases text with _ | ⟨x, more⟩
    · simp at hc
    · exact ⟨more, by rw [List.head?_cons, Option.some.injEq] at hc; rw [hc]⟩
  exact head?_cons_not h (more ++ rest)

/-- None of a run is of the set, and what comes behind it is not either. -/
theorem head?_run_not {set : CharSet} {run : List Char} {c : Char}
    (hrun : ∀ d ∈ run, set.has d = false) (h : set.has c = false) (rest : List Char) :
    ∀ d ∈ (run ++ c :: rest).head?, set.has d = false := by
  rcases run with _ | ⟨d, run⟩
  · exact head?_cons_not h rest
  · exact head?_cons_not (hrun d List.mem_cons_self) _

/-! ## Captures, choices and looks -/

theorem takes_capture {p : Pattern} {n : Nat} {before w after : List Char} {caps caps' : Captures}
    (h : p.Takes before caps w after caps') :
    (capture n p).Takes before caps w after ((n, w) :: caps') := by
  intro bound hbound pos k t hk
  refine h bound hbound pos _ t ?_
  have htext : (⟨pos, before, w ++ after, caps⟩ : Place).textTo
      ⟨pos + w.length, w.reverse ++ before, after, caps'⟩ = w := by
    rw [Place.textTo, Nat.add_sub_cancel_left]
    exact List.take_left
  rw [htext]
  exact hk

theorem takes_left {p q : Pattern} {before w after : List Char} {caps caps' : Captures}
    (h : p.Takes before caps w after caps') : (alt p q).Takes before caps w after caps' := by
  intro bound hbound pos k t hk
  show orElse _ _ = some t
  rw [h bound hbound pos k t hk]
  rfl

/-- An expression without a way fails. -/
theorem run_eq_none {p : Pattern} {s : Place} (h : ∀ t, ¬ p.Leads s t) (bound : Nat) (k : Next) :
    p.run bound k s = none := by
  rcases hrun : p.run bound k s with _ | t
  · rfl
  · obtain ⟨m, hm, -⟩ := run_leads bound p hrun
    exact absurd hm (h m)

theorem takes_right {p q : Pattern} {before w after : List Char} {caps caps' : Captures}
    (hnot : ∀ pos t, ¬ p.Leads ⟨pos, before, w ++ after, caps⟩ t)
    (h : q.Takes before caps w after caps') : (alt p q).Takes before caps w after caps' := by
  intro bound hbound pos k t hk
  show orElse (p.run bound k _) _ = some t
  rw [run_eq_none (hnot pos)]
  exact h bound hbound pos k t hk

/-- An optional part that has no way is left out. -/
theorem takes_opt {p : Pattern} {before after : List Char} {caps : Captures}
    (hnot : ∀ pos t, ¬ p.Leads ⟨pos, before, after, caps⟩ t) :
    (opt p).Takes before caps [] after caps := by
  intro bound hbound pos k t hk
  show further false (p.run bound) 1 none k _ = some t
  rw [further, if_neg (by simp), if_neg (by simp), List.nil_append, run_eq_none (hnot pos)]
  exact hk

/-- An optional part that has a way is taken. -/
theorem takes_opt_part {p : Pattern} {before w after : List Char} {caps caps' : Captures}
    (h : p.Takes before caps w after caps') : (opt p).Takes before caps w after caps' := by
  intro bound hbound pos k t hk
  show further false (p.run bound) 1 none k _ = some t
  have hround : p.run bound (further false (p.run bound) 0 (some pos) k)
      ⟨pos, before, w ++ after, caps⟩ = some t := h bound hbound pos _ t hk
  rw [further, if_neg (by simp), if_neg (by simp), hround]
  rfl

theorem takes_recall {n : Nat} {before after : List Char} {caps : Captures} {w : List Char}
    (hcaps : (caps.find? (·.1 == n)).map (·.2) = some w) :
    (Pattern.recall false n).Takes before caps w after caps := by
  intro bound hbound pos k t hk
  have hcaptured : (⟨pos, before, w ++ after, caps⟩ : Place).captured? n = some w := hcaps
  have hliterally : ∀ (u : List Char) (pos : Nat) (before : List Char),
      literally (fun c x => c == x) u k ⟨pos, before, u ++ after, caps⟩ =
        k ⟨pos + u.length, u.reverse ++ before, after, caps⟩ := by
    intro u
    induction u with
    | nil => exact fun _ _ => rfl
    | cons c rest ih =>
      intro pos before
      show (if c == c then literally _ rest k ⟨pos + 1, c :: before, rest ++ after, caps⟩
        else none) = _
      rw [if_pos (beq_self_eq_true c), ih, past_cons]
  rw [run, hcaptured]
  exact (hliterally w pos before).trans hk

theorem takes_behind {set : CharSet} {c : Char} {before after : List Char} {caps : Captures}
    (hc : set.has c = false) :
    (behind true 1 (one set)).Takes (c :: before) caps [] after caps := by
  intro bound hbound pos k t hk
  have hone : (one set).run bound some ⟨pos - 1, before, c :: after, caps⟩ = none := by
    show (if set.has c then _ else none) = none
    rw [if_neg (by simp [hc])]
  have hback : ((⟨pos, c :: before, after, caps⟩ : Place).back? 1).bind ((one set).run bound some) =
      none := hone
  rw [run, List.nil_append, hback]
  exact hk

theorem takes_ahead {p : Pattern} {before v rest : List Char} {caps caps' : Captures}
    (h : p.Takes before caps v rest caps') :
    (ahead false p).Takes before caps [] (v ++ rest) caps' := by
  intro bound hbound pos k t hk
  rw [run, List.nil_append, h bound hbound pos some _ rfl]
  exact hk

theorem takes_textStart (caps : Captures) (after : List Char) :
    textStart.Takes [] caps [] after caps := fun _ _ _ _ _ h => h

theorem takes_wordEdge {c : Char} {before after : List Char} {caps : Captures}
    (h : Text.isWord c ≠ after.head?.any Text.isWord) :
    (wordEdge false).Takes (c :: before) caps [] after caps := by
  intro bound hbound pos k t hk
  have hedge : (⟨pos, c :: before, after, caps⟩ : Place).atWordEdge = true := by
    simpa [Place.atWordEdge] using h
  rw [run, List.nil_append, hedge]
  exact hk

/-! ## Lazy runs -/

theorem creep_take {set : CharSet} {w after : List Char} (hw : ∀ c ∈ w, set.has c = true) {k : Next}
    {pos : Nat} {before : List Char} {caps : Captures} {t : Place}
    (hnot : ∀ u x, w = u ++ x → x ≠ [] →
      k ⟨pos + u.length, u.reverse ++ before, x ++ after, caps⟩ = none)
    (hk : k ⟨pos + w.length, w.reverse ++ before, after, caps⟩ = some t) {n : Nat}
    (hn : w.length ≤ n) : creep set n k ⟨pos, before, w ++ after, caps⟩ = some t := by
  induction w generalizing n pos before with
  | nil =>
    rcases n with _ | n
    · exact hk
    · rw [creep, List.nil_append]
      simp only [List.length_nil, Nat.add_zero, List.reverse_nil, List.nil_append] at hk
      rw [hk]
      rfl
  | cons c rest ih =>
    rcases n with _ | n
    · simp at hn
    · have hhere := hnot [] (c :: rest) rfl (by simp)
      simp only [List.length_nil, Nat.add_zero, List.reverse_nil, List.nil_append] at hhere
      rw [creep, hhere]
      show (if set.has c then creep set n k ⟨pos + 1, c :: before, rest ++ after, caps⟩
        else none) = some t
      rw [if_pos (hw c List.mem_cons_self)]
      refine ih (fun x hx => hw x (List.mem_cons_of_mem c hx)) ?_ ?_ (Nat.le_of_succ_le_succ hn)
      · rintro u x rfl hx
        rw [past_cons]
        exact hnot (c :: u) x rfl hx
      · rw [past_cons]
        exact hk

/-- **A lazy run stops at the first place** from which the rest has a way. -/
theorem takes_lazy {n : Nat} {set : CharSet} {ps : List Pattern} {before w v after : List Char}
    {caps caps' : Captures} (hw : ∀ c ∈ w, set.has c = true)
    (hnot : (sequence ps).Barren before w (v ++ after))
    (h : (sequence ps).Takes (w.reverse ++ before) ((n, w) :: caps) v after caps') :
    (sequence (capture n (span true 0 none set) :: ps)).Takes before caps (w ++ v) after caps' := by
  intro bound hbound pos k t hk
  rw [run_sequence_cons, List.append_assoc]
  show creep set bound _ _ = some t
  have hrest : (v ++ after).length ≤ bound := by
    rw [List.append_assoc, List.length_append] at hbound
    omega
  have hlen : w.length ≤ bound := by
    rw [List.append_assoc, List.length_append] at hbound
    omega
  refine creep_take hw (fun u x hux hx => ?_) ?_ hlen
  · exact run_eq_none (fun t => hnot u x hux hx _ _ t) bound k
  · have htext : (⟨pos, before, w ++ (v ++ after), caps⟩ : Place).textTo
        ⟨pos + w.length, w.reverse ++ before, v ++ after, caps⟩ = w := by
      rw [Place.textTo, Nat.add_sub_cancel_left]
      exact List.take_left
    rw [htext]
    refine h bound hrest (pos + w.length) k t ?_
    rw [← List.append_assoc, ← List.reverse_append, Nat.add_assoc, ← List.length_append]
    exact hk

end StreamResolver.Pattern
