/-
  All ways of an expression, in order.

  `run` tries the ways of an expression one after another on what comes next and keeps the first one
  on which that succeeds.  `ways` lists them: the places that the expression can go to, in the order
  in which they are tried.  Both say the same (`run_eq`): to match is to take the first way on which
  the rest succeeds.  So whether an expression matches is a matter of its list alone, and the list of
  a sequence is made of the lists of its parts (`mem_ways_append`).

  The leftmost match of a text is then the first way at the first place that has one (`search?_eq`,
  `search?_leftmost`), and there is one just when the expression has a way somewhere
  (`search?_isSome_iff`).
-/
import StreamResolver.Proofs.Pattern.Capturing

namespace StreamResolver.Pattern

/-! ## The list -/

/-- The place behind exactly `n` characters of a set, if they are there. -/
def skipWays (set : CharSet) : Nat → Place → List Place
  | 0, s => [s]
  | n + 1, s =>
    match s.next? with
    | none => []
    | some (x, t) => if set.has x then skipWays set n t else []

/-- The place behind a text, if it is there. -/
def literalWays (same : Char → Char → Bool) : List Char → Place → List Place
  | [], s => [s]
  | c :: rest, s =>
    match s.next? with
    | none => []
    | some (x, t) => if same c x then literalWays same rest t else []

/-- The places behind exactly `n` rounds. -/
def roundWays (part : Place → List Place) : Nat → Place → List Place
  | 0, s => [s]
  | n + 1, s => (part s).flatMap (roundWays part n)

/-- The places behind at most `n` further rounds; a round that ends where it started was the last
    one. -/
def furtherWays (lazy : Bool) (part : Place → List Place) : Nat → Option Nat → Place → List Place
  | 0, _, s => [s]
  | n + 1, last, s =>
    if last = some s.pos then [s]
    else if lazy then s :: (part s).flatMap (furtherWays lazy part n (some s.pos))
    else (part s).flatMap (furtherWays lazy part n (some s.pos)) ++ [s]

/-- The place of a look that saw its part end somewhere, or did not. -/
def lookWays (negated : Bool) (s : Place) : Option Place → List Place
  | none => if negated then [s] else []
  | some t => if negated then [] else [{ s with captures := t.captures }]

/-- The places that an expression can go to, the one that is tried first in front. -/
def ways (bound : Nat) : Pattern → Place → List Place
  | .empty, s => [s]
  | .one set, s => skipWays set 1 s
  | .span lazy min max set, s =>
    (skipWays set min s).flatMap fun s =>
      if lazy then (reach set (optional bound min max) s []).reverse
      else reach set (optional bound min max) s []
  | .seq p q, s => (ways bound p s).flatMap (ways bound q)
  | .alt p q, s => ways bound p s ++ ways bound q s
  | .capture n p, s => (ways bound p s).map fun t => t.record n (s.textTo t)
  | .recall caseless n, s =>
    match s.captured? n with
    | none => []
    | some text =>
      literalWays (fun c x => if caseless then (Text.caseVariants x).contains c else c == x) text s
  | .loop lazy min max p, s =>
    (roundWays (ways bound p) min s).flatMap
      (furtherWays lazy (ways bound p) (optional bound min max) none)
  | .ahead negated p, s => lookWays negated s (ways bound p s).head?
  | .behind negated width p, s =>
    lookWays negated s ((s.back? width).bind fun b => (ways bound p b).head?)
  | .atomic p, s => (ways bound p s).head?.toList
  | .ifCaptured n p q, s => if (s.captured? n).isSome then ways bound p s else ways bound q s
  | .textStart, s => if s.before.isEmpty then [s] else []
  | .textEnd, s => if s.after.isEmpty then [s] else []
  | .lastLineEnd, s => if s.after.isEmpty || s.after == ['\n'] then [s] else []
  | .lineStart, s => if s.before.isEmpty || s.before.head? == some '\n' then [s] else []
  | .lineEnd, s => if s.after.isEmpty || s.after.head? == some '\n' then [s] else []
  | .wordEdge negated, s =>
    if s.atWordEdge != negated && !(s.before.isEmpty && s.after.isEmpty) then [s] else []

/-! ## Matching takes the first way that succeeds -/

theorem orElse_eq_or (first : Option Place) (second : Unit → Option Place) :
    orElse first second = first.or (second ()) := by
  cases first <;> rfl

theorem findSome?_single (k : Next) (s : Place) : [s].findSome? k = k s := by
  rw [List.findSome?_cons]
  cases k s <;> rfl

/-- A test of the place has one way or none. -/
theorem findSome?_guard {c : Prop} [Decidable c] (k : Next) (s : Place) :
    (if c then [s] else []).findSome? k = if c then k s else none := by
  split
  · exact findSome?_single k s
  · rfl

/-- What succeeds first on the ways of two parts in a row. -/
theorem findSome?_flatMap {part : Place → List Place} {k : Next} (l : List Place) :
    (l.flatMap part).findSome? k = l.findSome? fun t => (part t).findSome? k := by
  induction l with
  | nil => rfl
  | cons t l ih =>
    rw [List.flatMap_cons, List.findSome?_append, ih, List.findSome?_cons]
    cases (part t).findSome? k <;> rfl

theorem findSome?_some (l : List Place) : l.findSome? some = l.head? := by
  cases l <;> rfl

theorem skip_eq (set : CharSet) (n : Nat) (k : Next) (s : Place) :
    skip set n k s = (skipWays set n s).findSome? k := by
  induction n generalizing s with
  | zero => exact (findSome?_single k s).symm
  | succ n ih =>
    rw [skip, skipWays]
    rcases s.next? with _ | ⟨x, t⟩
    · rfl
    · show (if set.has x then _ else _) = (if set.has x then _ else _ : List Place).findSome? k
      split
      · exact ih t
      · rfl

theorem literally_eq (same : Char → Char → Bool) (text : List Char) (k : Next) (s : Place) :
    literally same text k s = (literalWays same text s).findSome? k := by
  induction text generalizing s with
  | nil => exact (findSome?_single k s).symm
  | cons c rest ih =>
    rw [literally, literalWays]
    rcases s.next? with _ | ⟨x, t⟩
    · rfl
    · show (if same c x then _ else _) = (if same c x then _ else _ : List Place).findSome? k
      split
      · exact ih t
      · rfl

/-- What is reached comes in front of what was found before. -/
theorem reach_append (set : CharSet) (n : Nat) (s : Place) (found : List Place) :
    reach set n s found = reach set n s [] ++ found := by
  induction n generalizing s found with
  | zero => rfl
  | succ n ih =>
    rw [reach, reach]
    rcases s.next? with _ | ⟨x, t⟩
    · rfl
    · show (if set.has x then _ else _) = (if set.has x then _ else _) ++ found
      split
      · rw [ih t (s :: found), ih t [s], List.append_assoc, List.singleton_append]
      · rfl

/-- The nearest place is tried first. -/
theorem creep_eq (set : CharSet) (n : Nat) (k : Next) (s : Place) :
    creep set n k s = (reach set n s []).reverse.findSome? k := by
  induction n generalizing s with
  | zero => exact (findSome?_single k s).symm
  | succ n ih =>
    rw [creep, reach, orElse_eq_or]
    rcases s.next? with _ | ⟨x, t⟩
    · exact Option.or_none.trans (findSome?_single k s).symm
    · show (k s).or (if set.has x then creep set n k t else none) =
        (if set.has x then reach set n t [s] else [s]).reverse.findSome? k
      split
      · rw [reach_append, List.reverse_append, List.reverse_singleton, List.singleton_append,
          List.findSome?_cons, ih t]
        cases k s <;> rfl
      · exact Option.or_none.trans (findSome?_single k s).symm

section Loops

variable {part : Next → Next} {list : Place → List Place}
  (hpart : ∀ k s, part k s = (list s).findSome? k)

include hpart

theorem rounds_eq (n : Nat) (k : Next) (s : Place) :
    rounds part n k s = (roundWays list n s).findSome? k := by
  induction n generalizing s with
  | zero => exact (findSome?_single k s).symm
  | succ n ih =>
    rw [rounds, roundWays, hpart, findSome?_flatMap]
    exact congrArg (list s).findSome? (funext ih)

theorem further_eq (lazy : Bool) (n : Nat) (last : Option Nat) (k : Next) (s : Place) :
    further lazy part n last k s = (furtherWays lazy list n last s).findSome? k := by
  induction n generalizing s last with
  | zero => exact (findSome?_single k s).symm
  | succ n ih =>
    have hround : part (further lazy part n (some s.pos) k) s =
        ((list s).flatMap (furtherWays lazy list n (some s.pos))).findSome? k := by
      rw [hpart, findSome?_flatMap]
      exact congrArg (list s).findSome? (funext (ih (some s.pos)))
    rw [further, furtherWays]
    split
    · exact (findSome?_single k s).symm
    · split
      · rw [orElse_eq_or, hround, List.findSome?_cons]
        cases k s <;> rfl
      · rw [orElse_eq_or, hround, List.findSome?_append, findSome?_single]

end Loops

/-- A look goes on from where it is, with the captures of what it saw. -/
theorem look_eq (negated : Bool) (k : Next) (s : Place) (seen : Option Place) :
    (match seen with
      | none => if negated then k s else none
      | some t => if negated then none else k { s with captures := t.captures }) =
      (lookWays negated s seen).findSome? k := by
  cases seen with
  | none => exact (findSome?_guard k s).symm
  | some t =>
    cases negated with
    | true => rfl
    | false => exact (findSome?_single k _).symm

/-- **To match is to take the first way** on which the rest succeeds. -/
theorem run_eq (bound : Nat) (p : Pattern) (k : Next) (s : Place) :
    p.run bound k s = (p.ways bound s).findSome? k := by
  -- on the expression, for every continuation: a part in front is run with what comes behind it
  induction p generalizing k s with
  | empty => exact (findSome?_single k s).symm
  | one set => exact skip_eq set 1 k s
  | span lazy min max set =>
    rw [run, ways, skip_eq, findSome?_flatMap]
    refine congrArg (skipWays set min s).findSome? (funext fun t => ?_)
    split
    · exact creep_eq set _ k t
    · rfl
  | seq p q ihp ihq =>
    rw [run, ways, ihp, findSome?_flatMap]
    exact congrArg (ways bound p s).findSome? (funext (ihq k))
  | alt p q ihp ihq => rw [run, ways, orElse_eq_or, ihp, ihq, List.findSome?_append]
  | capture n p ih =>
    rw [run, ways, ih, List.findSome?_map]
    rfl
  | «recall» caseless n =>
    rw [run, ways]
    rcases s.captured? n with _ | text
    · rfl
    · exact literally_eq _ text k s
  | loop lazy min max p ih =>
    rw [run, ways, rounds_eq ih, findSome?_flatMap]
    exact congrArg (roundWays (ways bound p) min s).findSome?
      (funext (further_eq ih lazy _ none k))
  | ahead negated p ih =>
    rw [run, ways, ih, findSome?_some]
    exact look_eq negated k s _
  | behind negated width p ih =>
    have hpart : run bound p some = fun b => (ways bound p b).head? :=
      funext fun b => (ih some b).trans (findSome?_some _)
    rw [run, ways, hpart]
    exact look_eq negated k s _
  | atomic p ih =>
    rw [run, ways, ih, findSome?_some]
    rcases (ways bound p s).head? with _ | t
    · rfl
    · exact (findSome?_single k t).symm
  | ifCaptured n p q ihp ihq =>
    rw [run, ways]
    split
    · exact ihp k s
    · exact ihq k s
  | textStart | textEnd | lastLineEnd | lineStart | lineEnd | wordEdge =>
    exact (findSome?_guard k s).symm

/-! ## What a way passes -/

variable {p : Pattern} {bound : Nat} {s t : Place}

/-- Every way of the list is one that the expression can go. -/
theorem leads_of_mem_ways (h : t ∈ p.ways bound s) : p.Leads s t := by
  -- what comes next accepts the one place only, so the run has to end there
  have hrun : (p.run bound (fun r => if r = t then some r else none) s).isSome = true := by
    rw [run_eq, List.findSome?_isSome_iff]
    exact ⟨t, h, by rw [if_pos rfl]; rfl⟩
  obtain ⟨r, hr⟩ := Option.isSome_iff_exists.mp hrun
  obtain ⟨m, hm, hk⟩ := run_leads bound p hr
  split at hk
  · next heq => exact heq ▸ hm
  · cases hk

/-- A way passes a text, which is what lies between its ends. -/
theorem passes_of_mem_ways (h : t ∈ p.ways bound s) :
    ∃ w, s.after = w ++ t.after ∧ s.textTo t = w := by
  obtain ⟨w, hafter, hpos, -⟩ := (leads_of_mem_ways h).records.moved
  refine ⟨w, hafter, ?_⟩
  rw [Place.textTo, hafter, hpos, Nat.add_sub_cancel_left]
  exact List.take_left

theorem mem_ways_cons {ps : List Pattern} : t ∈ (sequence (p :: ps)).ways bound s ↔
    ∃ m ∈ p.ways bound s, t ∈ (sequence ps).ways bound m := by
  cases ps with
  | nil =>
    constructor
    · intro h
      exact ⟨t, h, List.mem_singleton_self t⟩
    · rintro ⟨m, hm, h⟩
      exact List.mem_singleton.mp h ▸ hm
  | cons q qs => exact List.mem_flatMap

/-- **The ways of two sequences in a row** are those of the first, each followed by one of the
    second. -/
theorem mem_ways_append {ps qs : List Pattern} : t ∈ (sequence (ps ++ qs)).ways bound s ↔
    ∃ m ∈ (sequence ps).ways bound s, t ∈ (sequence qs).ways bound m := by
  induction ps generalizing s with
  | nil =>
    constructor
    · intro h
      exact ⟨s, List.mem_singleton_self s, h⟩
    · rintro ⟨m, hm, h⟩
      exact List.mem_singleton.mp hm ▸ h
  | cons p ps ih =>
    rw [List.cons_append, mem_ways_cons]
    constructor
    · rintro ⟨m, hm, h⟩
      obtain ⟨r, hr, h⟩ := ih.mp h
      exact ⟨r, mem_ways_cons.mpr ⟨m, hm, hr⟩, h⟩
    · rintro ⟨r, hr, h⟩
      obtain ⟨m, hm, hr⟩ := mem_ways_cons.mp hr
      exact ⟨m, hm, ih.mpr ⟨r, hr, h⟩⟩

/-- Where a text stands, its first character is next. -/
theorem Place.next?_of_reads {c : Char} {w : List Char} (h : s.Reads (c :: w) t) :
    ∃ m, s.next? = some (c, m) ∧ m.Reads w t := by
  have hafter : s.after = c :: (w ++ t.after) := h.after_eq
  refine ⟨⟨s.pos + 1, c :: s.before, w ++ t.after, s.captures⟩, ?_, rfl, ?_, ?_, h.captures_eq⟩
  · rw [Place.next?, hafter]
  · rw [h.pos_eq, List.length_cons, Nat.add_comm w.length, Nat.add_assoc]
  · rw [h.before_eq, List.reverse_cons, List.append_assoc, List.singleton_append]

theorem Place.eq_of_reads_nil (h : s.Reads [] t) : t = s := by
  obtain ⟨hafter, hpos, hbefore, hcaptures⟩ := h
  cases s
  cases t
  simp_all

theorem Place.reads_append {u v : List Char} (h : s.Reads (u ++ v) t) :
    ∃ m, s.Reads u m ∧ m.Reads v t := by
  obtain ⟨hafter, hpos, hbefore, hcaptures⟩ := h
  refine ⟨⟨s.pos + u.length, u.reverse ++ s.before, v ++ t.after, s.captures⟩,
    ⟨by rw [hafter, List.append_assoc], rfl, rfl, rfl⟩, rfl, ?_, ?_, hcaptures⟩
  · rw [hpos, List.length_append, Nat.add_assoc]
  · rw [hbefore, List.reverse_append, List.append_assoc]

/-- Ahead of a place there is one behind each text that lies there. -/
theorem Place.exists_reads {w rest : List Char} (h : s.after = w ++ rest) :
    ∃ m, s.Reads w m ∧ m.after = rest :=
  ⟨⟨s.pos + w.length, w.reverse ++ s.before, rest, s.captures⟩, ⟨h, rfl, rfl, rfl⟩, rfl⟩

theorem Place.Reads.textTo_eq {w : List Char} (h : s.Reads w t) : s.textTo t = w := by
  rw [Place.textTo, h.after_eq, h.pos_eq, Nat.add_sub_cancel_left]
  exact List.take_left

theorem mem_skipWays {set : CharSet} {n : Nat} : t ∈ skipWays set n s ↔
    ∃ w, (∀ c ∈ w, set.has c = true) ∧ w.length = n ∧ s.Reads w t := by
  induction n generalizing s with
  | zero =>
    rw [skipWays, List.mem_singleton]
    constructor
    · rintro rfl
      exact ⟨[], by simp, rfl, .refl t⟩
    · rintro ⟨w, -, hlen, h⟩
      obtain rfl := List.length_eq_zero_iff.mp hlen
      exact Place.eq_of_reads_nil h
  | succ n ih =>
    rw [skipWays]
    constructor
    · intro h
      split at h
      · cases h
      · next x m hnext =>
        split at h
        · next hx =>
          obtain ⟨w, hw, hlen, hreads⟩ := ih.mp h
          exact ⟨x :: w, List.forall_mem_cons.mpr ⟨hx, hw⟩, by rw [List.length_cons, hlen],
            (Place.reads_of_next? hnext).trans hreads⟩
        · cases h
    · rintro ⟨_ | ⟨c, w⟩, hw, hlen, h⟩
      · cases hlen
      · obtain ⟨m, hnext, hm⟩ := Place.next?_of_reads h
        rw [hnext]
        simp only [hw c List.mem_cons_self, if_true]
        exact ih.mpr ⟨w, fun x hx => hw x (List.mem_cons_of_mem c hx), Nat.succ.inj hlen, hm⟩

theorem mem_reach {set : CharSet} {n : Nat} : t ∈ reach set n s [] ↔
    ∃ w, (∀ c ∈ w, set.has c = true) ∧ w.length ≤ n ∧ s.Reads w t := by
  constructor
  · intro h
    exact (reach_reads h).resolve_left List.not_mem_nil
  · rintro ⟨w, hw, hlen, h⟩
    induction w generalizing s n with
    | nil =>
      obtain rfl := Place.eq_of_reads_nil h
      cases n with
      | zero => exact List.mem_singleton_self t
      | succ n =>
        rw [reach]
        split
        · exact List.mem_singleton_self t
        · split
          · rw [reach_append]
            exact List.mem_append_right _ (List.mem_singleton_self t)
          · exact List.mem_singleton_self t
    | cons c w ih =>
      obtain ⟨m, hnext, hm⟩ := Place.next?_of_reads h
      cases n with
      | zero => cases hlen
      | succ n =>
        rw [reach, hnext]
        simp only [hw c List.mem_cons_self, if_true]
        rw [reach_append]
        exact List.mem_append_left _ (ih (fun x hx => hw x (List.mem_cons_of_mem c hx))
          (Nat.le_of_succ_le_succ hlen) hm)

theorem mem_ways_one {set : CharSet} : t ∈ (one set).ways bound s ↔
    ∃ c, set.has c = true ∧ s.Reads [c] t := by
  rw [ways, mem_skipWays]
  constructor
  · rintro ⟨w, hw, hlen, h⟩
    obtain ⟨c, rfl⟩ := List.length_eq_one_iff.mp hlen
    exact ⟨c, hw c List.mem_cons_self, h⟩
  · rintro ⟨c, hc, h⟩
    exact ⟨[c], by simpa using hc, rfl, h⟩

/-- **A run of characters of a set goes to each place** behind so many of them, in whatever order
    these are tried. -/
theorem mem_ways_span {lazy : Bool} {min : Nat} {max : Option Nat} {set : CharSet} :
    t ∈ (span lazy min max set).ways bound s ↔
      ∃ w, (∀ c ∈ w, set.has c = true) ∧ min ≤ w.length ∧
        w.length ≤ min + optional bound min max ∧ s.Reads w t := by
  have hmem : ∀ m, (t ∈ if lazy then (reach set (optional bound min max) m []).reverse
      else reach set (optional bound min max) m []) ↔
        t ∈ reach set (optional bound min max) m [] := by
    intro m
    split
    · exact List.mem_reverse
    · exact Iff.rfl
  simp only [ways, List.mem_flatMap, hmem, mem_skipWays, mem_reach]
  constructor
  · rintro ⟨m, ⟨u, hu, hulen, hreads⟩, v, hv, hvlen, hreads'⟩
    refine ⟨u ++ v, List.forall_mem_append.mpr ⟨hu, hv⟩, ?_, ?_, hreads.trans hreads'⟩
    · rw [List.length_append]
      omega
    · rw [List.length_append]
      omega
  · rintro ⟨w, hw, hmin, hmax, h⟩
    rw [← List.take_append_drop min w] at h
    obtain ⟨m, hu, hv⟩ := Place.reads_append h
    refine ⟨m, ⟨w.take min, fun c hc => hw c (List.mem_of_mem_take hc),
      List.length_take_of_le hmin, hu⟩, w.drop min, fun c hc => hw c (List.mem_of_mem_drop hc),
      ?_, hv⟩
    rw [List.length_drop]
    omega

/-- A run without a limit can go over any text of the set that is long enough. -/
theorem mem_ways_of_run {lazy : Bool} {min : Nat} {set : CharSet} {w : List Char}
    (hw : ∀ c ∈ w, set.has c = true) (hmin : min ≤ w.length) (hbound : w.length ≤ bound)
    (h : s.Reads w t) : t ∈ (span lazy min none set).ways bound s := by
  have hmax : w.length ≤ min + optional bound min none := by
    rw [optional]
    omega
  exact mem_ways_span.mpr ⟨w, hw, hmin, hmax, h⟩

/-- A part that may be left out goes its own ways or stays. -/
theorem mem_ways_opt : t ∈ (opt p).ways bound s ↔ t ∈ p.ways bound s ∨ t = s := by
  have hways : (opt p).ways bound s = p.ways bound s ++ [s] := by
    rw [opt, ways, roundWays, optional, List.flatMap_singleton]
    show List.flatMap (fun t => [t]) (p.ways bound s) ++ [s] = _
    rw [List.flatMap_singleton']
  rw [hways, List.mem_append, List.mem_singleton]

/-- One of several parts goes the ways of each. -/
theorem mem_ways_anyOf {ps : List Pattern} :
    t ∈ (anyOf ps).ways bound s ↔ ∃ p ∈ ps, t ∈ p.ways bound s := by
  induction ps with
  | nil =>
    have hnone : t ∉ (one (.union [])).ways bound s := by
      rw [mem_ways_one]
      rintro ⟨c, hc, -⟩
      cases hc
    refine iff_of_false ?_ (by simp)
    rw [anyOf, ways, List.mem_append, or_self]
    exact hnone
  | cons p ps ih =>
    cases ps with
    | nil => simp [anyOf]
    | cons q qs => simp only [anyOf, ways, List.mem_append, ih, List.mem_cons, exists_eq_or_imp]
/-- **A literal text has one way**, where it stands. -/
theorem mem_ways_literal {text : List Char} :
    t ∈ (literal text).ways bound s ↔ s.Reads text t := by
  induction text generalizing s with
  | nil =>
    constructor
    · intro h
      exact List.mem_singleton.mp h ▸ .refl s
    · intro h
      exact List.mem_singleton.mpr (Place.eq_of_reads_nil h)
  | cons c rest ih =>
    rw [literal, List.map_cons, mem_ways_cons, ← literal]
    constructor
    · rintro ⟨m, hm, h⟩
      obtain ⟨x, hx, hreads⟩ := mem_ways_one.mp hm
      rw [CharSet.has_char, beq_iff_eq] at hx
      exact (hx ▸ hreads).trans (ih.mp h)
    · intro h
      obtain ⟨m, hnext, hm⟩ := Place.next?_of_reads h
      have hc : (CharSet.char c).has c = true := by simp
      exact ⟨m, mem_ways_one.mpr ⟨c, hc, Place.reads_of_next? hnext⟩, ih.mpr hm⟩

/-! ## The leftmost match -/

/-- The place between two parts of a text, nothing captured yet. -/
def Place.between (front rest : List Char) : Place := ⟨front.length, front.reverse, rest, []⟩

/-- The places of a text behind a given one, from its start on. -/
def startsFrom (front : List Char) : List Char → List Place
  | [] => [.between front []]
  | c :: rest => .between front (c :: rest) :: startsFrom (front ++ [c]) rest

theorem mem_startsFrom {front rest : List Char} :
    s ∈ startsFrom front rest ↔ ∃ u v, rest = u ++ v ∧ s = .between (front ++ u) v := by
  induction rest generalizing front with
  | nil =>
    rw [startsFrom, List.mem_singleton]
    constructor
    · rintro rfl
      exact ⟨[], [], rfl, by rw [List.append_nil]⟩
    · rintro ⟨u, v, hcut, rfl⟩
      obtain ⟨rfl, rfl⟩ := List.append_eq_nil_iff.mp hcut.symm
      rw [List.append_nil]
  | cons c rest ih =>
    rw [startsFrom, List.mem_cons, ih]
    constructor
    · rintro (rfl | ⟨u, v, rfl, rfl⟩)
      · exact ⟨[], c :: rest, rfl, by rw [List.append_nil]⟩
      · exact ⟨c :: u, v, rfl, by rw [List.append_assoc, List.singleton_append]⟩
    · rintro ⟨u, v, hcut, rfl⟩
      rcases List.cons_eq_append_iff.mp hcut with ⟨rfl, rfl⟩ | ⟨u, rfl, rfl⟩
      · exact .inl (by rw [List.append_nil])
      · exact .inr ⟨u, v, rfl, by rw [List.append_assoc, List.singleton_append]⟩

/-- The places are listed from the start of the text on. -/
theorem pairwise_startsFrom (front rest : List Char) :
    (startsFrom front rest).Pairwise fun s t => s.pos < t.pos := by
  induction rest generalizing front with
  | nil => exact List.pairwise_singleton _ _
  | cons c rest ih =>
    refine List.pairwise_cons.mpr ⟨fun t ht => ?_, ih (front ++ [c])⟩
    obtain ⟨u, v, -, rfl⟩ := mem_startsFrom.mp ht
    have hlen : (front ++ [c] ++ u).length = front.length + 1 + u.length := by
      simp only [List.length_append, List.length_singleton]
    show front.length < (front ++ [c] ++ u).length
    omega

theorem matchAt?_ways (bound : Nat) (p : Pattern) (s : Place) : matchAt? bound p false s =
    (p.ways bound s).head?.map fun t => ⟨s.textTo t, t⟩ := by
  rw [matchAt?, run_eq]
  simp only [Bool.false_and, Bool.false_eq_true, if_false]
  exact congrArg _ (findSome?_some _)

/-- The search tries one place after another. -/
theorem searchFrom_eq (front rest passed : List Char) :
    (searchFrom bound p false rest front.length front.reverse passed).map (·.2) =
      (startsFrom front rest).findSome? (matchAt? bound p false) := by
  induction rest generalizing front passed with
  | nil =>
    rw [searchFrom, Option.map_map, startsFrom, List.findSome?_singleton, Place.between]
    cases matchAt? bound p false ⟨front.length, front.reverse, [], []⟩ with
    | none => rfl
    | some m => rfl
  | cons c rest ih =>
    have hnext := ih (front ++ [c]) (c :: passed)
    rw [List.length_append, List.reverse_append] at hnext
    rw [searchFrom, startsFrom, List.findSome?_cons, ← hnext, Place.between]
    cases matchAt? bound p false ⟨front.length, front.reverse, c :: rest, []⟩ with
    | none => rfl
    | some m => rfl

/-- **The leftmost match** is the first way at the first place that has one. -/
theorem search?_eq (p : Pattern) (text : List Char) :
    p.search? text = (startsFrom [] text).findSome? (matchAt? (boundFor text) p false) :=
  searchFrom_eq [] text []

/-- **A match goes a way of the expression** from some place of the text on, and no place before it
    has one. -/
theorem search?_leftmost {text : List Char} {found : Found} (h : p.search? text = some found) :
    ∃ front rest, text = front ++ rest ∧
      found.stop ∈ p.ways (boundFor text) (.between front rest) ∧
      found.text = (Place.between front rest).textTo found.stop ∧
      ∀ front' rest', text = front' ++ rest' →
        p.ways (boundFor text) (.between front' rest') ≠ [] → front.length ≤ front'.length := by
  rw [search?_eq, List.findSome?_eq_some_iff] at h
  obtain ⟨earlier, s, later, hplaces, hmatch, hnone⟩ := h
  have hordered := pairwise_startsFrom [] text
  have hs : s ∈ startsFrom [] text := hplaces ▸ List.mem_append_right _ List.mem_cons_self
  obtain ⟨u, v, rfl, rfl⟩ := mem_startsFrom.mp hs
  rw [matchAt?_ways] at hmatch
  obtain ⟨t, ht, rfl⟩ := Option.map_eq_some_iff.mp hmatch
  refine ⟨u, v, rfl, List.mem_of_head? ht, rfl, fun front' rest' hcut hways => ?_⟩
  have hmem : Place.between front' rest' ∈ startsFrom [] (u ++ v) :=
    mem_startsFrom.mpr ⟨front', rest', hcut, rfl⟩
  rw [hplaces] at hmem hordered
  rcases List.mem_append.mp hmem with hearlier | hlater
  · -- what comes earlier in the list has no way
    have hfails := hnone _ hearlier
    rw [matchAt?_ways, Option.map_eq_none_iff, List.head?_eq_none_iff] at hfails
    exact absurd hfails hways
  · have hbehind := (List.pairwise_append.mp hordered).2.1
    rcases List.mem_cons.mp hlater with hsame | hlater
    · exact Nat.le_of_eq (congrArg Place.pos hsame).symm
    · exact Nat.le_of_lt ((List.pairwise_cons.mp hbehind).1 _ hlater)
theorem search?_ways {text : List Char} {found : Found} (h : p.search? text = some found) :
    ∃ front rest, text = front ++ rest ∧ found.stop ∈ p.ways (boundFor text) (.between front rest) ∧
      found.text = (Place.between front rest).textTo found.stop := by
  obtain ⟨front, rest, htext, hstop, hpassed, -⟩ := search?_leftmost h
  exact ⟨front, rest, htext, hstop, hpassed⟩

/-- There is a match just when the expression has a way somewhere in the text. -/
theorem search?_isSome_iff {text : List Char} : (p.search? text).isSome = true ↔
    ∃ front rest t, text = front ++ rest ∧ t ∈ p.ways (boundFor text) (.between front rest) := by
  rw [search?_eq, List.findSome?_isSome_iff]
  constructor
  · rintro ⟨s, hs, hmatch⟩
    obtain ⟨u, v, rfl, rfl⟩ := mem_startsFrom.mp hs
    rw [matchAt?_ways, Option.isSome_map, List.isSome_head?] at hmatch
    obtain ⟨t, ht⟩ := List.exists_mem_of_ne_nil _ hmatch
    exact ⟨u, v, t, rfl, ht⟩
  · rintro ⟨u, v, t, rfl, ht⟩
    refine ⟨_, mem_startsFrom.mpr ⟨u, v, rfl, rfl⟩, ?_⟩
    rw [matchAt?_ways, Option.isSome_map, List.isSome_head?]
    exact List.ne_nil_of_mem ht

end StreamResolver.Pattern
