/-
  The ways of an expression.

  `Leads p s t` says that `p` can go from the place `s` to the place `t`, whatever is tried first.
  It leaves the order of the ways aside, and it is generous where an expression forbids
  something: a negated look only stays where it is.  So it says what a match needs, and that is
  enough to show that there is none: whatever `run` finds goes a way (`run_leads`).

  Two things can be read off an expression without running it: characters that no way passes
  (`avoids`) and characters that every way passes (`needs`).  `Leads.passes` connects both with
  the text of a way.  A text is `Barren` for an expression when no way starts inside it, and
  `barren_before_separator` finds such texts by looking at single characters.
-/
import StreamResolver.Pattern.Search

namespace StreamResolver.Pattern

/-! ## Reading a text -/

/-- From one place to another over the given text. -/
structure Place.Reads (s : Place) (w : List Char) (t : Place) : Prop where
  after_eq : s.after = w ++ t.after
  pos_eq : t.pos = s.pos + w.length
  before_eq : t.before = w.reverse ++ s.before
  captures_eq : t.captures = s.captures

namespace Place

theorem Reads.refl (s : Place) : s.Reads [] s := ⟨rfl, rfl, rfl, rfl⟩

theorem Reads.trans {s t r : Place} {u v : List Char} (h : s.Reads u t) (h' : t.Reads v r) :
    s.Reads (u ++ v) r where
  after_eq := by rw [h.after_eq, h'.after_eq, List.append_assoc]
  pos_eq := by rw [h'.pos_eq, h.pos_eq, List.length_append, Nat.add_assoc]
  before_eq := by rw [h'.before_eq, h.before_eq, List.reverse_append, List.append_assoc]
  captures_eq := by rw [h'.captures_eq, h.captures_eq]

theorem reads_of_next? {s t : Place} {c : Char} (h : s.next? = some (c, t)) : s.Reads [c] t := by
  unfold next? at h
  split at h
  · simp at h
  · next x rest hafter =>
    simp only [Option.some.injEq, Prod.mk.injEq] at h
    obtain ⟨rfl, rfl⟩ := h
    exact ⟨hafter, rfl, rfl, rfl⟩

end Place

/-! ## Ways -/

/-- `n` rounds of a relation. -/
def Rounds (R : Place → Place → Prop) : Nat → Place → Place → Prop
  | 0, s, t => t = s
  | n + 1, s, t => ∃ m, R s m ∧ Rounds R n m t

/-- Whether an expression can go from one place to another. -/
def Leads : Pattern → Place → Place → Prop
  | .empty, s, t => t = s
  | .one set, s, t => ∃ c, set.has c = true ∧ s.next? = some (c, t)
  | .span _ min max set, s, t =>
    ∃ w, (∀ c ∈ w, set.has c = true) ∧ min ≤ w.length ∧
      (∀ n, max = some n → w.length ≤ min + (n - min)) ∧ s.Reads w t
  | .seq p q, s, t => ∃ m, p.Leads s m ∧ q.Leads m t
  | .alt p q, s, t => p.Leads s t ∨ q.Leads s t
  | .capture n p, s, t => ∃ m, p.Leads s m ∧ t = m.record n (s.textTo m)
  | .recall caseless n, s, t =>
    ∃ text w, s.captured? n = some text ∧ (caseless = false → w = text) ∧ s.Reads w t
  | .loop _ min _ p, s, t => ∃ n, min ≤ n ∧ Rounds p.Leads n s t
  | .ahead negated p, s, t =>
    if negated then t = s else ∃ m, p.Leads s m ∧ t = { s with captures := m.captures }
  | .behind negated width p, s, t =>
    if negated then t = s
    else ∃ b m, s.back? width = some b ∧ p.Leads b m ∧ t = { s with captures := m.captures }
  | .atomic p, s, t => p.Leads s t
  | .ifCaptured _ p q, s, t => p.Leads s t ∨ q.Leads s t
  | .textStart, s, t => t = s ∧ s.before = []
  | .textEnd, s, t => t = s ∧ s.after = []
  | .lastLineEnd, s, t => t = s ∧ (s.after = [] ∨ s.after = ['\n'])
  | .lineStart, s, t => t = s ∧ (s.before = [] ∨ s.before.head? = some '\n')
  | .lineEnd, s, t => t = s ∧ (s.after = [] ∨ s.after.head? = some '\n')
  | .wordEdge negated, s, t => t = s ∧ s.atWordEdge ≠ negated

/-! ## What is found goes a way -/

theorem skip_reads {set : CharSet} {n : Nat} {k : Next} {s t : Place}
    (h : skip set n k s = some t) :
    ∃ w m, (∀ c ∈ w, set.has c = true) ∧ w.length = n ∧ s.Reads w m ∧ k m = some t := by
  induction n generalizing s with
  | zero => exact ⟨[], s, by simp, rfl, .refl s, h⟩
  | succ n ih =>
    unfold skip at h
    split at h
    · simp at h
    · next x s' hnext =>
      split at h
      · next hx =>
        obtain ⟨w, m, hw, hlen, hreads, hk⟩ := ih h
        exact ⟨x :: w, m, List.forall_mem_cons.mpr ⟨hx, hw⟩, by rw [List.length_cons, hlen],
          (Place.reads_of_next? hnext).trans hreads, hk⟩
      · simp at h

theorem reach_reads {set : CharSet} {n : Nat} {s : Place} {found : List Place} {m : Place}
    (h : m ∈ reach set n s found) :
    m ∈ found ∨ ∃ w, (∀ c ∈ w, set.has c = true) ∧ w.length ≤ n ∧ s.Reads w m := by
  have hhere : m = s → ∃ w, (∀ c ∈ w, set.has c = true) ∧ w.length ≤ n ∧ s.Reads w m := by
    rintro rfl
    exact ⟨[], by simp, Nat.zero_le n, .refl m⟩
  induction n generalizing s found with
  | zero =>
    rcases List.mem_cons.mp h with h | h
    · exact .inr (hhere h)
    · exact .inl h
  | succ n ih =>
    have hstop : m ∈ s :: found → m ∈ found ∨
        ∃ w, (∀ c ∈ w, set.has c = true) ∧ w.length ≤ n + 1 ∧ s.Reads w m := by
      intro h
      rcases List.mem_cons.mp h with h | h
      · exact .inr (hhere h)
      · exact .inl h
    unfold reach at h
    split at h
    · exact hstop h
    · next x t hnext =>
      split at h
      · next hx =>
        have hthere : m = t → ∃ w, (∀ c ∈ w, set.has c = true) ∧ w.length ≤ n ∧ t.Reads w m := by
          rintro rfl
          exact ⟨[], by simp, Nat.zero_le n, .refl m⟩
        rcases ih h hthere with h | ⟨w, hw, hlen, hreads⟩
        · exact hstop h
        · exact .inr ⟨x :: w, List.forall_mem_cons.mpr ⟨hx, hw⟩, Nat.succ_le_succ hlen,
            (Place.reads_of_next? hnext).trans hreads⟩
      · exact hstop h

theorem orElse_eq_some {first : Option Place} {second : Unit → Option Place} {t : Place}
    (h : orElse first second = some t) : first = some t ∨ second () = some t := by
  unfold orElse at h
  split at h
  · exact .inl h
  · exact .inr h

theorem creep_reads {set : CharSet} {n : Nat} {k : Next} {s t : Place}
    (h : creep set n k s = some t) :
    ∃ w m, (∀ c ∈ w, set.has c = true) ∧ w.length ≤ n ∧ s.Reads w m ∧ k m = some t := by
  induction n generalizing s with
  | zero => exact ⟨[], s, by simp, Nat.le_refl 0, .refl s, h⟩
  | succ n ih =>
    rcases orElse_eq_some h with h | h
    · -- the rest succeeds from here
      exact ⟨[], s, by simp, Nat.zero_le _, .refl s, h⟩
    · split at h
      · simp at h
      · next x s' hnext =>
        split at h
        · next hx =>
          obtain ⟨w, m, hw, hlen, hreads, hk⟩ := ih h
          exact ⟨x :: w, m, List.forall_mem_cons.mpr ⟨hx, hw⟩, Nat.succ_le_succ hlen,
            (Place.reads_of_next? hnext).trans hreads, hk⟩
        · simp at h

theorem literally_reads {same : Char → Char → Bool} {text : List Char} {k : Next} {s t : Place}
    (h : literally same text k s = some t) :
    ∃ w m, ((∀ c x, same c x = true → x = c) → w = text) ∧ s.Reads w m ∧ k m = some t := by
  induction text generalizing s with
  | nil => exact ⟨[], s, fun _ => rfl, .refl s, h⟩
  | cons c rest ih =>
    unfold literally at h
    split at h
    · simp at h
    · next x s' hnext =>
      split at h
      · next hx =>
        obtain ⟨w, m, hw, hreads, hk⟩ := ih h
        refine ⟨x :: w, m, ?_, (Place.reads_of_next? hnext).trans hreads, hk⟩
        intro hsame
        rw [hw hsame, hsame c x hx]
      · simp at h

theorem rounds_leads {part : Next → Next} {R : Place → Place → Prop}
    (hpart : ∀ k s t, part k s = some t → ∃ m, R s m ∧ k m = some t) {n : Nat} {k : Next}
    {s t : Place} (h : rounds part n k s = some t) : ∃ m, Rounds R n s m ∧ k m = some t := by
  induction n generalizing s with
  | zero => exact ⟨s, rfl, h⟩
  | succ n ih =>
    obtain ⟨m, hm, h⟩ := hpart _ _ _ h
    obtain ⟨r, hr, hk⟩ := ih h
    exact ⟨r, ⟨m, hm, hr⟩, hk⟩

theorem further_leads {part : Next → Next} {R : Place → Place → Prop}
    (hpart : ∀ k s t, part k s = some t → ∃ m, R s m ∧ k m = some t) {lazy : Bool} {n : Nat}
    {last : Option Nat} {k : Next} {s t : Place} (h : further lazy part n last k s = some t) :
    ∃ j m, Rounds R j s m ∧ k m = some t := by
  induction n generalizing s last with
  | zero => exact ⟨0, s, rfl, h⟩
  | succ n ih =>
    have hround : part (further lazy part n (some s.pos) k) s = some t →
        ∃ j m, Rounds R j s m ∧ k m = some t := by
      intro h
      obtain ⟨m, hm, h⟩ := hpart _ _ _ h
      obtain ⟨j, r, hr, hk⟩ := ih h
      exact ⟨j + 1, r, ⟨m, hm, hr⟩, hk⟩
    unfold further at h
    split at h
    · exact ⟨0, s, rfl, h⟩
    · split at h
      · rcases orElse_eq_some h with h | h
        · exact ⟨0, s, rfl, h⟩
        · exact hround h
      · rcases orElse_eq_some h with h | h
        · exact hround h
        · exact ⟨0, s, rfl, h⟩

theorem rounds_add {R : Place → Place → Prop} {m n : Nat} {s t r : Place} (h : Rounds R m s t)
    (h' : Rounds R n t r) : Rounds R (m + n) s r := by
  induction m generalizing s with
  | zero =>
    rw [Rounds] at h
    rw [Nat.zero_add, ← h]
    exact h'
  | succ m ih =>
    obtain ⟨q, hq, h⟩ := h
    rw [Nat.succ_add]
    exact ⟨q, hq, ih h⟩

/-- **What is found goes a way**: when `run` succeeds, the expression leads to a place from which
    the rest succeeds. -/
theorem run_leads (bound : Nat) (p : Pattern) {k : Next} {s t : Place}
    (h : p.run bound k s = some t) : ∃ m, p.Leads s m ∧ k m = some t := by
  induction p generalizing k s t with
  | empty => exact ⟨s, rfl, h⟩
  | one set =>
    unfold run at h
    split at h
    · simp at h
    · next x s' hnext =>
      split at h
      · next hx => exact ⟨s', ⟨x, hx, hnext⟩, h⟩
      · simp at h
  | span lazy min max set =>
    obtain ⟨w, m, hw, hlen, hreads, h⟩ := skip_reads h
    -- first the characters that there must be, then as many as are taken
    suffices hrest : ∃ v r, (∀ c ∈ v, set.has c = true) ∧ v.length ≤ optional bound min max ∧
        m.Reads v r ∧ k r = some t by
      obtain ⟨v, r, hv, hmax, hreads', hk⟩ := hrest
      refine ⟨r, ⟨w ++ v, List.forall_mem_append.mpr ⟨hw, hv⟩, ?_, ?_, hreads.trans hreads'⟩, hk⟩
      · rw [List.length_append]
        omega
      · rintro n rfl
        rw [optional] at hmax
        rw [List.length_append]
        omega
    split at h
    · exact creep_reads h
    · obtain ⟨r, hr, hk⟩ := List.exists_of_findSome?_eq_some h
      rcases reach_reads hr with hr | ⟨v, hv, hmax, hreads'⟩
      · simp at hr
      · exact ⟨v, r, hv, hmax, hreads', hk⟩
  | seq p q ihp ihq =>
    obtain ⟨m, hm, h⟩ := ihp h
    obtain ⟨r, hr, hk⟩ := ihq h
    exact ⟨r, ⟨m, hm, hr⟩, hk⟩
  | alt p q ihp ihq =>
    rcases orElse_eq_some h with h | h
    · obtain ⟨m, hm, hk⟩ := ihp h
      exact ⟨m, .inl hm, hk⟩
    · obtain ⟨m, hm, hk⟩ := ihq h
      exact ⟨m, .inr hm, hk⟩
  | capture n p ih =>
    obtain ⟨m, hm, hk⟩ := ih h
    exact ⟨m.record n (s.textTo m), ⟨m, hm, rfl⟩, hk⟩
  | «recall» caseless n =>
    unfold run at h
    split at h
    · simp at h
    · next text htext =>
      obtain ⟨w, m, hw, hreads, hk⟩ := literally_reads h
      refine ⟨m, ⟨text, w, htext, ?_, hreads⟩, hk⟩
      rintro rfl
      exact hw fun c x hsame => (by simpa using hsame : c = x).symm
  | loop lazy min max p ih =>
    obtain ⟨m, hm, h⟩ := rounds_leads (R := p.Leads) (fun _ _ _ h => ih h) h
    obtain ⟨j, r, hr, hk⟩ := further_leads (R := p.Leads) (fun _ _ _ h => ih h) h
    exact ⟨r, ⟨min + j, Nat.le_add_right min j, rounds_add hm hr⟩, hk⟩
  | ahead negated p ih =>
    unfold run at h
    split at h
    · -- the part does not match, which is what a negated look is for
      split at h
      · next hneg => exact ⟨s, by simp [Leads, hneg], h⟩
      · simp at h
    · next m hm =>
      split at h
      · simp at h
      · next hneg =>
        obtain ⟨r, hr, hsome⟩ := ih hm
        rw [Option.some.injEq] at hsome
        subst hsome
        refine ⟨_, ?_, h⟩
        rw [Leads, if_neg hneg]
        exact ⟨r, hr, rfl⟩
  | behind negated width p ih =>
    unfold run at h
    split at h
    · split at h
      · next hneg => exact ⟨s, by simp [Leads, hneg], h⟩
      · simp at h
    · next m hm =>
      split at h
      · simp at h
      · next hneg =>
        obtain ⟨b, hb, hm⟩ := Option.bind_eq_some_iff.mp hm
        obtain ⟨r, hr, hsome⟩ := ih hm
        rw [Option.some.injEq] at hsome
        subst hsome
        refine ⟨_, ?_, h⟩
        rw [Leads, if_neg hneg]
        exact ⟨b, r, hb, hr, rfl⟩
  | atomic p ih =>
    unfold run at h
    split at h
    · simp at h
    · next m hm =>
      obtain ⟨r, hr, hsome⟩ := ih hm
      rw [Option.some.injEq] at hsome
      subst hsome
      exact ⟨r, hr, h⟩
  | ifCaptured n p q ihp ihq =>
    unfold run at h
    split at h
    · obtain ⟨m, hm, hk⟩ := ihp h
      exact ⟨m, .inl hm, hk⟩
    · obtain ⟨m, hm, hk⟩ := ihq h
      exact ⟨m, .inr hm, hk⟩
  | textStart | textEnd | lastLineEnd | lineStart | lineEnd =>
    unfold run at h
    split at h
    · next hs => exact ⟨s, ⟨rfl, by simpa using hs⟩, h⟩
    · simp at h
  | wordEdge negated =>
    unfold run at h
    split at h
    · next hs =>
      rw [Bool.and_eq_true] at hs
      exact ⟨s, ⟨rfl, by simpa using hs.1⟩, h⟩
    · simp at h

/-! ## What every way passes -/

/-- Whether no way passes the character; texts that are recalled are not looked into. -/
def avoids (x : Char) : Pattern → Bool
  | .one set => !set.has x
  | .span _ _ _ set => !set.has x
  | .seq p q => p.avoids x && q.avoids x
  | .alt p q => p.avoids x && q.avoids x
  | .capture _ p => p.avoids x
  | .recall _ _ => false
  | .loop _ _ _ p => p.avoids x
  | .atomic p => p.avoids x
  | .ifCaptured _ p q => p.avoids x && q.avoids x
  | _ => true

/-- Whether every way passes the character, as far as single characters tell. -/
def needs (x : Char) : Pattern → Bool
  | .one (.char c) => c == x
  | .span _ (_ + 1) _ (.char c) => c == x
  | .seq p q => p.needs x || q.needs x
  | .alt p q => p.needs x && q.needs x
  | .capture _ p => p.needs x
  | .loop _ (_ + 1) _ p => p.needs x
  | .atomic p => p.needs x
  | .ifCaptured _ p q => p.needs x && q.needs x
  | _ => false

/-- The text of a way, with what it passes for sure. -/
def Passes (p : Pattern) (s t : Place) : Prop :=
  ∃ w, s.after = w ++ t.after ∧ (∀ x, p.avoids x = true → x ∉ w) ∧ ∀ x, p.needs x = true → x ∈ w

theorem Passes.mono {p r : Pattern} {s t : Place} (h : p.Passes s t)
    (havoids : ∀ x, r.avoids x = true → p.avoids x = true)
    (hneeds : ∀ x, r.needs x = true → p.needs x = true) : r.Passes s t := by
  obtain ⟨w, hw, havoid, hneed⟩ := h
  exact ⟨w, hw, fun x hx => havoid x (havoids x hx), fun x hx => hneed x (hneeds x hx)⟩

/-- A way that stays at its place. -/
theorem passes_nothing {p : Pattern} {s t : Place} (hafter : s.after = t.after)
    (hneeds : ∀ x, p.needs x = false) : p.Passes s t :=
  ⟨[], hafter, by simp, by simp [hneeds]⟩

theorem Rounds.passes {p : Pattern} (hp : ∀ s t, p.Leads s t → p.Passes s t) {n : Nat} {s t : Place}
    (h : Rounds p.Leads n s t) :
    ∃ w, s.after = w ++ t.after ∧ (∀ x, p.avoids x = true → x ∉ w) ∧
      ∀ x, n ≠ 0 → p.needs x = true → x ∈ w := by
  induction n generalizing s with
  | zero =>
    rw [Rounds] at h
    subst h
    exact ⟨[], rfl, by simp, by simp⟩
  | succ n ih =>
    obtain ⟨m, hm, h⟩ := h
    obtain ⟨u, hu, havoid, hneed⟩ := hp s m hm
    obtain ⟨v, hv, havoid', -⟩ := ih h
    refine ⟨u ++ v, by rw [hu, hv, List.append_assoc], ?_, ?_⟩
    · intro x hx hmem
      rcases List.mem_append.mp hmem with hmem | hmem
      · exact havoid x hx hmem
      · exact havoid' x hx hmem
    · intro x _ hx
      exact List.mem_append_left v (hneed x hx)

/-- **Every way passes what is needed and nothing that is avoided.** -/
theorem Leads.passes {p : Pattern} {s t : Place} (h : p.Leads s t) : p.Passes s t := by
  induction p generalizing s t with
  | one set =>
    obtain ⟨c, hc, hnext⟩ := h
    refine ⟨[c], (Place.reads_of_next? hnext).after_eq, ?_, ?_⟩
    · rintro x hx hmem
      rw [List.mem_singleton] at hmem
      subst hmem
      simp [avoids, hc] at hx
    · intro x hx
      cases set with
      | char d => simp_all [needs]
      | _ => simp [needs] at hx
  | span lazy min max set =>
    obtain ⟨w, hw, hlen, -, hreads⟩ := h
    refine ⟨w, hreads.after_eq, ?_, ?_⟩
    · rintro x hx hmem
      simp [avoids, hw x hmem] at hx
    · intro x hx
      cases set with
      | char d =>
        rcases min with _ | min
        · simp [needs] at hx
        · rcases w with _ | ⟨c, w⟩
          · simp at hlen
          · have hc := hw c List.mem_cons_self
            simp_all [needs]
      | _ => rcases min with _ | min <;> simp [needs] at hx
  | seq p q ihp ihq =>
    obtain ⟨m, hm, h⟩ := h
    obtain ⟨u, hu, havoid, hneed⟩ := ihp hm
    obtain ⟨v, hv, havoid', hneed'⟩ := ihq h
    refine ⟨u ++ v, by rw [hu, hv, List.append_assoc], ?_, ?_⟩
    · intro x hx hmem
      rw [avoids, Bool.and_eq_true] at hx
      rcases List.mem_append.mp hmem with hmem | hmem
      · exact havoid x hx.1 hmem
      · exact havoid' x hx.2 hmem
    · intro x hx
      rw [needs, Bool.or_eq_true] at hx
      rcases hx with hx | hx
      · exact List.mem_append_left v (hneed x hx)
      · exact List.mem_append_right u (hneed' x hx)
  | alt p q ihp ihq =>
    rcases h with h | h
    · exact (ihp h).mono (fun x => by simp_all [avoids]) fun x => by simp_all [needs]
    · exact (ihq h).mono (fun x => by simp_all [avoids]) fun x => by simp_all [needs]
  | capture n p ih =>
    obtain ⟨m, hm, rfl⟩ := h
    exact (ih hm).mono (fun x hx => hx) fun x hx => hx
  | «recall» caseless n =>
    obtain ⟨text, w, -, -, hreads⟩ := h
    exact ⟨w, hreads.after_eq, by simp [avoids], by simp [needs]⟩
  | loop lazy min max p ih =>
    obtain ⟨n, hn, hrounds⟩ := h
    obtain ⟨w, hw, havoid, hneed⟩ := hrounds.passes fun _ _ => ih
    refine ⟨w, hw, havoid, fun x hx => ?_⟩
    rcases min with _ | min
    · simp [needs] at hx
    · exact hneed x (by omega) hx
  | ahead negated p ih =>
    refine passes_nothing ?_ fun x => rfl
    rw [Leads] at h
    split at h
    · rw [h]
    · obtain ⟨m, -, rfl⟩ := h
      rfl
  | behind negated width p ih =>
    refine passes_nothing ?_ fun x => rfl
    rw [Leads] at h
    split at h
    · rw [h]
    · obtain ⟨b, m, -, -, rfl⟩ := h
      rfl
  | atomic p ih => exact (ih h).mono (fun x hx => hx) fun x hx => hx
  | ifCaptured n p q ihp ihq =>
    rcases h with h | h
    · exact (ihp h).mono (fun x => by simp_all [avoids]) fun x => by simp_all [needs]
    · exact (ihq h).mono (fun x => by simp_all [avoids]) fun x => by simp_all [needs]
  | empty =>
    rw [Leads] at h
    exact passes_nothing (by rw [h]) fun x => rfl
  | textStart | textEnd | lastLineEnd | lineStart | lineEnd | wordEdge =>
    obtain ⟨rfl, -⟩ := h
    exact passes_nothing rfl fun x => rfl

/-! ## Sequences -/

theorem run_sequence_cons (bound : Nat) (p : Pattern) (ps : List Pattern) (k : Next) (s : Place) :
    (sequence (p :: ps)).run bound k s = p.run bound ((sequence ps).run bound k) s := by
  cases ps with
  | nil => rfl
  | cons q qs => rfl

theorem leads_sequence_cons {p : Pattern} {ps : List Pattern} {s t : Place}
    (h : (sequence (p :: ps)).Leads s t) : ∃ m, p.Leads s m ∧ (sequence ps).Leads m t := by
  cases ps with
  | nil => exact ⟨t, h, rfl⟩
  | cons q qs => exact h

theorem leads_sequence_append {ps qs : List Pattern} {s t : Place}
    (h : (sequence (ps ++ qs)).Leads s t) :
    ∃ m, (sequence ps).Leads s m ∧ (sequence qs).Leads m t := by
  induction ps generalizing s with
  | nil => exact ⟨s, rfl, h⟩
  | cons p ps ih =>
    obtain ⟨m, hm, h⟩ := leads_sequence_cons h
    obtain ⟨r, hr, hqs⟩ := ih h
    refine ⟨r, ?_, hqs⟩
    cases ps with
    | nil =>
      rw [sequence, Leads] at hr
      rw [hr]
      exact hm
    | cons q ps => exact ⟨m, hm, hr⟩

theorem leads_one {set : CharSet} {s t : Place} (h : (one set).Leads s t) :
    ∃ c, set.has c = true ∧ s.after = c :: t.after := by
  obtain ⟨c, hc, hnext⟩ := h
  exact ⟨c, hc, (Place.reads_of_next? hnext).after_eq⟩

/-- A sequence has no way where the next character is not one of its first part. -/
theorem not_leads_one {set : CharSet} {ps : List Pattern} {pos : Nat} {before after : List Char}
    {caps : Captures} (h : ∀ c ∈ after.head?, set.has c = false) (t : Place) :
    ¬ (sequence (one set :: ps)).Leads ⟨pos, before, after, caps⟩ t := by
  intro hleads
  obtain ⟨m, hm, -⟩ := leads_sequence_cons hleads
  obtain ⟨c, hc, hafter⟩ := leads_one hm
  rw [h c (by rw [show after = c :: m.after from hafter]; rfl)] at hc
  simp at hc

theorem leads_literal {text : List Char} {s t : Place} (h : (literal text).Leads s t) :
    s.Reads text t := by
  induction text generalizing s with
  | nil =>
    rw [literal, List.map_nil, sequence, Leads] at h
    exact h ▸ .refl s
  | cons c rest ih =>
    rw [literal, List.map_cons] at h
    obtain ⟨m, ⟨x, hx, hnext⟩, hrest⟩ := leads_sequence_cons h
    rw [CharSet.has_char, beq_iff_eq] at hx
    subst hx
    exact (Place.reads_of_next? hnext).trans (ih hrest)

/-! ## Texts in which no way starts -/

/-- No way of the expression starts inside the text, whatever was captured before. -/
def Barren (p : Pattern) (before text after : List Char) : Prop :=
  ∀ u v, text = u ++ v → v ≠ [] → ∀ pos caps t,
    ¬ p.Leads ⟨pos, u.reverse ++ before, v ++ after, caps⟩ t

theorem barren_nil (p : Pattern) (before after : List Char) : p.Barren before [] after := by
  intro u v huv hv
  exact absurd (List.append_eq_nil_iff.mp huv.symm).2 hv

theorem Barren.append {p : Pattern} {before x y after : List Char}
    (hx : p.Barren before x (y ++ after)) (hy : p.Barren (x.reverse ++ before) y after) :
    p.Barren before (x ++ y) after := by
  intro u v huv hv pos caps t
  rcases List.append_eq_append_iff.mp huv with ⟨z, rfl, rfl⟩ | ⟨z, rfl, rfl⟩
  · rw [List.reverse_append, List.append_assoc]
    exact hy z v rfl hv pos caps t
  · rcases Decidable.em (z = []) with rfl | hz
    · have h := hy [] y rfl hv pos caps t
      simpa using h
    · rw [List.append_assoc]
      exact hx u z rfl hz pos caps t

/-- It is enough that no way of the front of a sequence starts inside the text. -/
theorem Barren.of_front {ps qs : List Pattern} {before text after : List Char}
    (h : (sequence ps).Barren before text after) :
    (sequence (ps ++ qs)).Barren before text after := by
  intro u v huv hv pos caps t hleads
  obtain ⟨m, hm, -⟩ := leads_sequence_append hleads
  exact h u v huv hv pos caps m hm

/-- A tail of a text ends with the last character of the text. -/
theorem tail_of_last {text u v : List Char} {c : Char} (h : text ++ [c] = u ++ v) (hv : v ≠ []) :
    ∃ y, text = u ++ y ∧ v = y ++ [c] := by
  rcases List.eq_nil_or_concat v with rfl | ⟨y, d, rfl⟩
  · exact absurd rfl hv
  · rw [List.concat_eq_append] at h ⊢
    rw [← List.append_assoc] at h
    obtain ⟨htext, hlast⟩ := List.append_inj' h rfl
    obtain rfl : c = d := (List.cons_eq_cons.mp hlast).1
    exact ⟨y, htext, rfl⟩

/-- In a text of one character a way can only start at that character. -/
theorem barren_singleton {p : Pattern} {c : Char} {before after : List Char}
    (h : ∀ pos caps t, ¬ p.Leads ⟨pos, before, c :: after, caps⟩ t) :
    p.Barren before [c] after := by
  intro u v huv hv pos caps t
  obtain ⟨y, hy, rfl⟩ := tail_of_last (show [] ++ [c] = u ++ v from huv) hv
  obtain ⟨rfl, rfl⟩ := List.append_eq_nil_iff.mp hy.symm
  exact h pos caps t

/-- **No way starts in front of a separator** if every way passes a character that is not there and
    none passes the separator. -/
theorem barren_before_separator {p : Pattern} {x sep : Char} (hneeds : p.needs x = true)
    (havoids : p.avoids sep = true) {text : List Char} (hx : x ∉ text) (before after : List Char) :
    p.Barren before (text ++ [sep]) after := by
  intro u v huv hv pos caps t hleads
  obtain ⟨y, rfl, rfl⟩ := tail_of_last huv hv
  obtain ⟨w, hw, havoid, hneed⟩ := hleads.passes
  have hin : x ∈ w := hneed x hneeds
  have hout : sep ∉ w := havoid sep havoids
  simp only [List.append_assoc, List.singleton_append] at hw
  rcases List.append_eq_append_iff.mp hw with ⟨z, rfl, hz⟩ | ⟨z, rfl, -⟩
  · rcases z with _ | ⟨c, z⟩
    · -- the way ends in front of the separator
      rw [List.append_nil] at hin
      exact hx (List.mem_append_right u hin)
    · -- the way goes on, so it passes the separator
      obtain rfl : sep = c := (List.cons_eq_cons.mp hz).1
      exact hout (List.mem_append_right y List.mem_cons_self)
  · -- the way ends in the text
    exact hx (List.mem_append_right u (List.mem_append_left z hin))

/-- No way starts in a text without a character that the expression could begin with. -/
theorem barren_one {set : CharSet} {ps : List Pattern} {text : List Char}
    (h : ∀ c ∈ text, set.has c = false) (before after : List Char) :
    (sequence (one set :: ps)).Barren before text after := by
  rintro u v rfl hv pos caps t
  obtain ⟨c, v, rfl⟩ := List.exists_cons_of_ne_nil hv
  refine not_leads_one ?_ t
  rintro d hd
  obtain rfl : c = d := by simpa using hd
  exact h c (List.mem_append_right u List.mem_cons_self)

/-- No way starts where the text ends before a character that every way passes. -/
theorem barren_at_end {p : Pattern} {x : Char} (hneeds : p.needs x = true) {text : List Char}
    (hx : x ∉ text) (before : List Char) : p.Barren before text [] := by
  rintro u v rfl hv pos caps t hleads
  obtain ⟨w, hw, -, hneed⟩ := hleads.passes
  simp only [List.append_nil] at hw
  subst hw
  exact hx (List.mem_append_right u (List.mem_append_left t.after (hneed x hneeds)))

/-! ## The first two characters -/

/-- Every way begins with the character `x` and one of `q` behind it. -/
def Begins (p : Pattern) (x : Char) (q : Char → Bool) : Prop :=
  ∀ s t, p.Leads s t → ∃ d rest, s.after = x :: d :: rest ∧ q d = true

/-- Whether no `x` of a text has a character of `q` behind it. -/
def free (x : Char) (q : Char → Bool) : List Char → Bool
  | c :: d :: rest => !(c == x && q d) && free x q (d :: rest)
  | _ => true

theorem free_of_append {x : Char} {q : Char → Bool} {u v : List Char}
    (h : free x q (u ++ v) = true) : free x q v = true := by
  induction u with
  | nil => exact h
  | cons c rest ih =>
    refine ih ?_
    rw [List.cons_append] at h
    rcases hrest : rest ++ v with _ | ⟨d, more⟩
    · rfl
    · rw [hrest, free, Bool.and_eq_true] at h
      exact h.2

theorem Begins.barren_of_free {p : Pattern} {x : Char} {q : Char → Bool} (hp : p.Begins x q)
    {text : List Char} {d : Char} (h : free x q (text ++ [d]) = true) (before after : List Char) :
    p.Barren before text (d :: after) := by
  rintro u v rfl hv pos caps t hleads
  obtain ⟨e, rest, hafter, he⟩ := hp _ _ hleads
  rw [List.append_assoc] at h
  have hfree := free_of_append h
  obtain ⟨c, v, rfl⟩ := List.exists_cons_of_ne_nil hv
  simp only [List.cons_append, List.cons_eq_cons] at hafter
  obtain ⟨rfl, hafter⟩ := hafter
  rcases v with _ | ⟨c', v⟩
  · obtain ⟨rfl, -⟩ := List.cons_eq_cons.mp hafter
    simp [free, he] at hfree
  · obtain ⟨rfl, -⟩ := List.cons_eq_cons.mp hafter
    simp [free, he] at hfree

theorem Begins.barren_of_not_mem {p : Pattern} {x : Char} {q : Char → Bool} (hp : p.Begins x q)
    {text : List Char} (h : x ∉ text) (before after : List Char) : p.Barren before text after := by
  rintro u v rfl hv pos caps t hleads
  obtain ⟨e, rest, hafter, -⟩ := hp _ _ hleads
  obtain ⟨c, v, rfl⟩ := List.exists_cons_of_ne_nil hv
  obtain ⟨rfl, -⟩ := List.cons_eq_cons.mp hafter
  exact h (List.mem_append_right u List.mem_cons_self)

end StreamResolver.Pattern
