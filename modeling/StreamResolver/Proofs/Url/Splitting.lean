/-
  A URL that was cut into parts and put together again is cut into the same parts.

  This does not hold of any parts: a path with a question mark in it, say, would be cut there.  It
  holds of parts that come from cutting (`Cut`).  Cutting goes from left to right and each part ends
  where its sign stands first, so a part never holds the sign that ends it, and these are the facts
  that the second cutting needs.  Two more are needed of parts with an authority: the path is empty or
  begins with a slash, so that no slash is put in, and the scheme is in lower case already.

  `split_text` says it for any query in place of the old one, as long as the new query holds neither
  the sign of a fragment nor a character that cleaning drops.
-/
import StreamResolver.Proofs.Fallible
import StreamResolver.Proofs.Text.Lower
import StreamResolver.Proofs.Url.Coding
import StreamResolver.Url.Basic

namespace StreamResolver.Url

open Text

/-! ## Cleaning -/

/-- Whether cleaning drops a character wherever it stands. -/
def isDropped (c : Char) : Bool := c == '\t' || c == '\n' || c == '\r'

theorem not_isDropped_of_mem_clean {s : List Char} {c : Char} (h : c ∈ clean s) :
    isDropped c = false := by
  have hkept := (List.mem_filter.mp h).2
  simp only [Bool.and_eq_true, decide_eq_true_eq] at hkept
  simp [isDropped, hkept.1.1, hkept.1.2, hkept.2]

/-- A printed character begins the cleaned text, and only dropped characters are missing in it. -/
theorem clean_printed {c : Char} (hc : 0x20 < c.toNat) (s : List Char) :
    clean (c :: s) = (c :: s).filter fun x => !isDropped x := by
  have hfirst : (c :: s).dropWhile (fun c => decide (c.toNat ≤ 0x20)) = c :: s := by
    rw [List.dropWhile_cons_of_neg]
    simp only [decide_eq_true_eq]
    omega
  rw [clean, hfirst]
  refine List.filter_congr fun x _ => ?_
  rw [Bool.eq_iff_iff]
  simp [isDropped, and_assoc]

theorem ascii_of_isSchemeChar {c : Char} (h : isSchemeChar c = true) : c.toNat < 0x80 := by
  simp only [isSchemeChar, Bool.or_eq_true, beq_iff_eq] at h
  rcases h with ((h | rfl) | rfl) | rfl
  · exact ascii_of_isAlphanum h
  all_goals decide

/-- The characters of a scheme are printed ones, none is a colon, and each has one small form. -/
theorem schemeChar_spec {c : Char} (h : isSchemeChar c = true) :
    0x20 < c.toNat ∧ isDropped c = false ∧ c ≠ ':' ∧ lowerOne c = [c.toLower] ∧
      isSchemeChar c.toLower = true ∧ c.toLower.toLower = c.toLower ∧
      (c.isAlpha = true → c.toLower.isAlpha = true) :=
  ascii_forall (P := fun c => isSchemeChar c = true →
      0x20 < c.toNat ∧ isDropped c = false ∧ c ≠ ':' ∧ lowerOne c = [c.toLower] ∧
        isSchemeChar c.toLower = true ∧ c.toLower.toLower = c.toLower ∧
        (c.isAlpha = true → c.toLower.isAlpha = true))
    (by decide +kernel) (ascii_of_isSchemeChar h) h

theorem exists_of_isScheme {s : List Char} (h : isScheme s = true) :
    ∃ c rest, s = c :: rest ∧ c.isAlpha = true ∧ ∀ x ∈ s, isSchemeChar x = true := by
  cases s with
  | nil => simp [isScheme] at h
  | cons c rest =>
    simp only [isScheme, List.head?_cons, Option.any_some, Bool.and_eq_true, List.all_eq_true] at h
    exact ⟨c, rest, rfl, h.1, h.2⟩

theorem lower_scheme {s : List Char} (h : ∀ x ∈ s, isSchemeChar x = true) :
    lower s = s.map Char.toLower := by
  induction s with
  | nil => rfl
  | cons c s ih =>
    have hc := schemeChar_spec (h c List.mem_cons_self)
    have hrest := ih fun x hx => h x (List.mem_cons_of_mem c hx)
    show lowerOne c ++ lower s = _
    rw [hc.2.2.2.1, hrest]
    rfl

/-- A scheme in lower case is a scheme, and lowering it again changes nothing. -/
theorem isScheme_lower {s : List Char} (h : isScheme s = true) :
    isScheme (lower s) = true ∧ lower (lower s) = lower s := by
  obtain ⟨c, rest, rfl, halpha, hall⟩ := exists_of_isScheme h
  have hlow : ∀ x ∈ (c :: rest).map Char.toLower, isSchemeChar x = true := by
    intro x hx
    obtain ⟨y, hy, rfl⟩ := List.mem_map.mp hx
    exact (schemeChar_spec (hall y hy)).2.2.2.2.1
  rw [lower_scheme hall]
  constructor
  · have hfirst := (schemeChar_spec (hall c List.mem_cons_self)).2.2.2.2.2.2 halpha
    rw [isScheme, Bool.and_eq_true, List.all_eq_true]
    exact ⟨by simpa using hfirst, hlow⟩
  · rw [lower_scheme hlow, List.map_map]
    refine List.map_congr_left fun x hx => ?_
    exact (schemeChar_spec (hall x hx)).2.2.2.2.2.1

/-! ## Parts that come from cutting -/

/-- Parts of which none holds the sign that ends it. -/
structure Cut (u : Url) : Prop where
  scheme_lower : u.scheme = [] ∨ (isScheme u.scheme = true ∧ lower u.scheme = u.scheme)
  authority_accepted : isAuthority u.authority = true
  authority_ends : ∀ c ∈ u.authority, endsAuthority c = false
  path_begins : u.authority ≠ [] → u.path = [] ∨ ∃ rest, u.path = '/' :: rest
  path_ends : '?' ∉ u.path ∧ '#' ∉ u.path
  undropped : ∀ c ∈ u.authority ++ u.path ++ u.fragment, isDropped c = false

/-- What stands before the first separator is of the text, and so is what stands behind it. -/
theorem mem_of_mem_cutAt {sep : Char} {s : List Char} {c : Char} :
    (c ∈ (cutAt sep s).1 → c ∈ s) ∧ (c ∈ (cutAt sep s).2.getD [] → c ∈ s) := by
  induction s with
  | nil => simp [cutAt]
  | cons x s ih =>
    rw [cutAt]
    split
    · constructor
      · simp
      · intro h
        exact List.mem_cons_of_mem x h
    · constructor
      · intro h
        rcases List.mem_cons.mp h with rfl | h
        · exact List.mem_cons_self
        · exact List.mem_cons_of_mem x (ih.1 h)
      · intro h
        exact List.mem_cons_of_mem x (ih.2 h)

theorem sep_not_mem_cutAt (sep : Char) (s : List Char) : sep ∉ (cutAt sep s).1 := by
  rw [cutAt_fst]
  intro h
  have hall := List.all_eq_true.mp (List.all_takeWhile (p := (· ≠ sep)) (l := s)) sep h
  simp at hall

theorem head_of_cutAt (sep : Char) {s : List Char} {c : Char} (h : s.head? = some c)
    (hc : c ≠ sep) : (cutAt sep s).1.head? = some c := by
  obtain ⟨rest, rfl⟩ : ∃ rest, s = c :: rest := by
    cases s with
    | nil => simp at h
    | cons x rest =>
      simp only [List.head?_cons, Option.some.injEq] at h
      exact ⟨rest, by rw [h]⟩
  rw [cutAt, if_neg hc]
  rfl

/-- What is left behind an authority begins with a sign that ends it. -/
theorem cutAuthority_rest {s : List Char} (h : (cutAuthority s).1 ≠ []) (c : Char)
    (hc : (cutAuthority s).2.head? = some c) : endsAuthority c = true := by
  unfold cutAuthority at h hc
  split at h
  · next rest =>
    have hhead := List.head?_dropWhile_not (fun c => !endsAuthority c) rest
    simp only at hc
    rw [hc] at hhead
    simpa using hhead
  · exact absurd rfl h

theorem mem_of_mem_cutAuthority {s : List Char} {c : Char} :
    (c ∈ (cutAuthority s).1 → c ∈ s ∧ endsAuthority c = false) ∧
      (c ∈ (cutAuthority s).2 → c ∈ s) := by
  unfold cutAuthority
  split
  · next rest =>
    constructor
    · intro h
      have hend := List.all_eq_true.mp
        (List.all_takeWhile (p := fun c => !endsAuthority c) (l := rest)) c h
      have hmem := (List.takeWhile_sublist _).subset h
      exact ⟨by simp [hmem], by simpa using hend⟩
    · intro h
      have hmem := (List.dropWhile_sublist _).subset h
      simp [hmem]
  · exact ⟨by simp, fun h => h⟩

theorem mem_of_mem_cutScheme {s : List Char} {c : Char} (h : c ∈ (cutScheme [] s).2) : c ∈ s := by
  unfold cutScheme at h
  have hcut := (@mem_of_mem_cutAt ':' s c).2
  split at h
  · next front rest heq =>
    split at h
    · exact hcut (by rw [heq]; exact h)
    · exact h
  · exact h

theorem cutScheme_lower (s : List Char) :
    (cutScheme [] s).1 = [] ∨
      (isScheme (cutScheme [] s).1 = true ∧ lower (cutScheme [] s).1 = (cutScheme [] s).1) := by
  unfold cutScheme
  split
  · split
    · next hscheme => exact .inr (isScheme_lower hscheme)
    · exact .inl rfl
  · exact .inl rfl

/-- Behind an authority stands nothing, or the sign of a path, a query or a fragment: the path is
    empty or starts with its sign. -/
theorem path_after_authority {s : List Char}
    (h : ∀ c, s.head? = some c → endsAuthority c = true) :
    (cutAt '?' (cutAt '#' s).1).1 = [] ∨ ∃ rest, (cutAt '?' (cutAt '#' s).1).1 = '/' :: rest := by
  rcases hs : s with _ | ⟨c, more⟩
  · exact .inl rfl
  have hfirst : s.head? = some c := by rw [hs]; rfl
  have hend := h c hfirst
  simp only [endsAuthority, Bool.or_eq_true, beq_iff_eq] at hend
  rw [← hs]
  rcases hend with (rfl | rfl) | rfl
  · have hpath := head_of_cutAt '?' (head_of_cutAt '#' hfirst (by decide)) (by decide)
    rcases hp : (cutAt '?' (cutAt '#' s).1).1 with _ | ⟨x, tail⟩
    · exact .inl rfl
    · rw [hp, List.head?_cons, Option.some.injEq] at hpath
      exact .inr ⟨tail, by rw [hpath]⟩
  · refine .inl ?_
    rw [hs, cutAt, if_neg (by decide)]
    simp [cutAt]
  · refine .inl ?_
    rw [hs, cutAt, if_pos rfl]
    rfl

/-- Where the parts of a text that is cut come from. -/
theorem parts_of_split {s : List Char} {u : Url} (h : split s = .ok u) :
    ∃ scheme rest authority behind, cutScheme [] (clean s) = (scheme, rest) ∧
      cutAuthority rest = (authority, behind) ∧ isAuthority authority = true ∧
      u = ⟨scheme, authority, (cutAt '?' (cutAt '#' behind).1).1,
        (cutAt '?' (cutAt '#' behind).1).2.getD [], (cutAt '#' behind).2.getD []⟩ := by
  unfold split splitWith at h
  split at h
  next scheme rest hscheme =>
  split at h
  next authority behind hauthority =>
  split at h
  · cases h
  next haccepted =>
  rw [Except.ok.injEq] at h
  exact ⟨scheme, rest, authority, behind, hscheme, hauthority, by simpa using haccepted, h.symm⟩

/-- **Parts that come from cutting.** -/
theorem cut_of_split {s : List Char} {u : Url} (h : split s = .ok u) : Cut u := by
  obtain ⟨scheme, rest, authority, behind, hscheme, hauthority, haccepted, rfl⟩ := parts_of_split h
  obtain ⟨rfl, rfl⟩ : (cutScheme [] (clean s)).1 = scheme ∧ (cutScheme [] (clean s)).2 = rest := by
    simp [hscheme]
  obtain ⟨rfl, rfl⟩ : (cutAuthority (cutScheme [] (clean s)).2).1 = authority ∧
      (cutAuthority (cutScheme [] (clean s)).2).2 = behind := by
    simp [hauthority]
  -- whatever is in a part is in the cleaned text
  have hrest : ∀ c ∈ (cutScheme [] (clean s)).2, isDropped c = false := fun c hc =>
    not_isDropped_of_mem_clean (mem_of_mem_cutScheme hc)
  have hbehind : ∀ c ∈ (cutAuthority (cutScheme [] (clean s)).2).2, isDropped c = false :=
    fun c hc => hrest c (mem_of_mem_cutAuthority.2 hc)
  refine ⟨cutScheme_lower (clean s), haccepted, ?_, ?_, ⟨?_, ?_⟩, ?_⟩
  · exact fun c hc => (mem_of_mem_cutAuthority.1 hc).2
  · exact fun hne => path_after_authority (cutAuthority_rest hne)
  · exact sep_not_mem_cutAt '?' _
  · exact fun hmem => sep_not_mem_cutAt '#' _ (mem_of_mem_cutAt.1 hmem)
  · intro c hc
    simp only [List.mem_append] at hc
    rcases hc with (hc | hc) | hc
    · exact hrest c (mem_of_mem_cutAuthority.1 hc).1
    · exact hbehind c (mem_of_mem_cutAt.1 (mem_of_mem_cutAt.1 hc))
    · exact hbehind c (mem_of_mem_cutAt.2 hc)

/-! ## Nothing is lost -/

/-- The scheme with its sign. -/
def lead (u : Url) : List Char := if u.scheme.isEmpty then [] else u.scheme ++ [':']

theorem text_of_cutAt (sep : Char) (s : List Char) :
    s = (cutAt sep s).1 ++ ((cutAt sep s).2.map (sep :: ·)).getD [] := by
  induction s with
  | nil => rfl
  | cons c s ih =>
    rw [cutAt]
    split
    · next h =>
      rw [h]
      rfl
    · show c :: s = c :: (_ ++ _)
      rw [← ih]

/-- What is cut off as a scheme differs from the scheme by case only. -/
theorem text_of_cutScheme (s : List Char) :
    ∃ front, s = front ++ (cutScheme [] s).2 ∧
      lower front = lower (if (cutScheme [] s).1.isEmpty then [] else (cutScheme [] s).1 ++ [':']) := by
  have hkept : ∃ front, s = front ++ s ∧
      lower front = lower (if ([] : List Char).isEmpty then [] else [] ++ [':']) :=
    ⟨[], rfl, rfl⟩
  unfold cutScheme
  split
  · next front rest heq =>
    split
    · next hscheme =>
      have hs := text_of_cutAt ':' s
      rw [heq] at hs
      obtain ⟨c, more, hcons, -, -⟩ := exists_of_isScheme (isScheme_lower hscheme).1
      refine ⟨front ++ [':'], by simpa using hs, ?_⟩
      rw [hcons, if_neg (by simp), ← hcons, lower_append, lower_append, (isScheme_lower hscheme).2]
    · exact hkept
  · exact hkept

theorem text_of_cutAuthority (s : List Char) :
    (s = (cutAuthority s).2 ∧ (cutAuthority s).1 = []) ∨
      s = '/' :: '/' :: ((cutAuthority s).1 ++ (cutAuthority s).2) := by
  unfold cutAuthority
  split
  · exact .inr (by rw [List.takeWhile_append_dropWhile])
  · exact .inl ⟨rfl, rfl⟩

/-- **The text that was cut**: the parts with their signs, in order. -/
theorem text_of_split {s : List Char} {u : Url} (h : split s = .ok u) (hquery : u.query ≠ []) :
    ∃ front slashes rest, clean s = front ++ (slashes ++ (u.authority ++ u.path) ++ '?' ::
        (u.query ++ rest)) ∧ lower front = lower u.lead ∧
      ((slashes = [] ∧ u.authority = []) ∨ slashes = ['/', '/']) ∧
      ((rest = [] ∧ u.fragment = []) ∨ rest = '#' :: u.fragment) := by
  obtain ⟨scheme, behind, authority, behind', hscheme, hauthority, -, rfl⟩ := parts_of_split h
  obtain ⟨front, hfront, hlower⟩ := text_of_cutScheme (clean s)
  rw [hscheme] at hfront hlower
  have hhash := text_of_cutAt '#' behind'
  have hquestion := text_of_cutAt '?' (cutAt '#' behind').1
  rcases hcut : (cutAt '?' (cutAt '#' behind').1).2 with _ | query
  · simp [hcut] at hquery
  rw [hcut, Option.map_some, Option.getD_some] at hquestion
  obtain ⟨slashes, hslashes, hbehind⟩ : ∃ slashes : List Char,
      ((slashes = [] ∧ authority = []) ∨ slashes = ['/', '/']) ∧
        behind = slashes ++ (authority ++ behind') := by
    have hcases := text_of_cutAuthority behind
    rw [hauthority] at hcases
    rcases hcases with ⟨hsame, hnone⟩ | hslashes
    · obtain rfl : authority = [] := hnone
      exact ⟨[], .inl ⟨rfl, rfl⟩, hsame⟩
    · exact ⟨['/', '/'], .inr rfl, hslashes⟩
  refine ⟨front, slashes, ((cutAt '#' behind').2.map ('#' :: ·)).getD [], ?_, hlower, hslashes, ?_⟩
  · rw [hfront]
    simp only [Option.getD_some]
    conv => lhs; rw [hbehind, hhash, hquestion]
    simp only [List.append_assoc, List.cons_append]
  · rcases (cutAt '#' behind').2 with _ | fragment
    · exact .inl ⟨rfl, rfl⟩
    · exact .inr rfl

/-! ## Cutting again -/

/-- The query and the fragment with their signs. -/
def tail (u : Url) : List Char :=
  (if u.query.isEmpty then [] else '?' :: u.query) ++
    (if u.fragment.isEmpty then [] else '#' :: u.fragment)

/-- The scheme is found again. -/
theorem cutScheme_eq {scheme rest : List Char}
    (h : scheme = [] ∨ (isScheme scheme = true ∧ lower scheme = scheme)) :
    cutScheme [] ((if scheme.isEmpty then [] else scheme ++ [':']) ++ '/' :: rest) =
      (scheme, '/' :: rest) := by
  rcases h with rfl | ⟨hscheme, hlower⟩
  · -- what stands before a colon begins with a slash and is no scheme
    simp only [List.isEmpty_nil, if_true, List.nil_append, cutScheme]
    split
    · next front more heq =>
      have hfront : front.head? = some '/' := by
        have hhead := head_of_cutAt ':' (s := '/' :: rest) rfl (by decide)
        rw [heq] at hhead
        exact hhead
      have hno : isScheme front = false := by
        rw [isScheme, hfront]
        rfl
      rw [hno]
      rfl
    · rfl
  · obtain ⟨c, more, hcons, -, hall⟩ := exists_of_isScheme hscheme
    have hcolon : ':' ∉ scheme := fun hmem => (schemeChar_spec (hall _ hmem)).2.2.1 rfl
    have hfull : scheme.isEmpty = false := by rw [hcons]; rfl
    rw [hfull, if_neg (by simp), List.append_assoc, List.singleton_append, cutScheme,
      cutAt_append hcolon]
    simp only [hscheme, if_true, hlower]

/-- What stands behind the first question mark of a text without a fragment. -/
def Asks (s query : List Char) : Prop :=
  ∃ front, s = front ++ '?' :: query ∧ '?' ∉ front ∧ '#' ∉ front

/-- What is cut off in front of the question mark does not matter. -/
theorem Asks.behind {front s query : List Char} (h : Asks (front ++ s) query) (hfront : '?' ∉ front) :
    Asks s query := by
  obtain ⟨before, heq, hquestion, hhash⟩ := h
  rcases List.append_eq_append_iff.mp heq with ⟨behind, rfl, hs⟩ | ⟨past, rfl, hs⟩
  · exact ⟨behind, hs, fun h => hquestion (List.mem_append_right front h),
      fun h => hhash (List.mem_append_right front h)⟩
  · rcases past with _ | ⟨c, past⟩
    · exact ⟨[], hs.symm, by simp, by simp⟩
    · obtain rfl : '?' = c := (List.cons.inj hs).1
      exact absurd (by simp) hfront

theorem asks_clean {s query : List Char} (h : Asks s query)
    (hquery : ∀ c ∈ query, isDropped c = false) : Asks (clean s) query := by
  obtain ⟨front, rfl, hquestion, hhash⟩ := h
  -- the question mark ends the run of blanks, and what stands behind it is kept
  have hkept : ('?' :: query).filter (fun c => c ≠ '\t' && c ≠ '\n' && c ≠ '\r') = '?' :: query := by
    refine List.filter_eq_self.mpr fun c hc => ?_
    have hc' : isDropped c = false := (List.mem_cons.mp hc).elim (fun h => h ▸ by decide) (hquery c)
    simp only [isDropped, Bool.or_eq_false_iff, beq_eq_false_iff_ne] at hc'
    simp [hc'.1.1, hc'.1.2, hc'.2]
  have hdrop : (front ++ '?' :: query).dropWhile (fun c => decide (c.toNat ≤ 0x20)) =
      front.dropWhile (fun c => decide (c.toNat ≤ 0x20)) ++ '?' :: query := by
    rw [List.dropWhile_append]
    split
    · next hempty =>
      rw [List.isEmpty_iff.mp hempty]
      rfl
    · rfl
  refine ⟨_, by rw [clean, hdrop, List.filter_append, hkept], ?_, ?_⟩
  · exact fun h => hquestion ((List.dropWhile_sublist _).subset (List.mem_filter.mp h).1)
  · exact fun h => hhash ((List.dropWhile_sublist _).subset (List.mem_filter.mp h).1)

theorem asks_cutScheme {s query : List Char} (h : Asks s query) : Asks (cutScheme [] s).2 query := by
  have hs := text_of_cutAt ':' s
  unfold cutScheme
  split
  · next front rest heq =>
    split
    · next hscheme =>
      rw [heq] at hs
      obtain ⟨-, -, -, -, hall⟩ := exists_of_isScheme hscheme
      have hfront : '?' ∉ front ++ [':'] := by
        intro hmem
        rcases List.mem_append.mp hmem with hmem | hmem
        · exact absurd (hall '?' hmem) (by decide)
        · simp at hmem
      have hwhole : Asks ((front ++ [':']) ++ rest) query := by simpa using hs ▸ h
      exact hwhole.behind hfront
    · exact h
  · exact h

theorem asks_cutAuthority {s query : List Char} (h : Asks s query) :
    Asks (cutAuthority s).2 query := by
  rcases text_of_cutAuthority s with ⟨hsame, -⟩ | hslashes
  · exact hsame ▸ h
  · have hfront : '?' ∉ '/' :: '/' :: (cutAuthority s).1 := by
      simp only [List.mem_cons, not_or]
      refine ⟨by decide, by decide, fun hmem => ?_⟩
      exact absurd (mem_of_mem_cutAuthority.1 hmem).2 (by decide)
    have hwhole : Asks ('/' :: '/' :: (cutAuthority s).1 ++ (cutAuthority s).2) query := by
      rw [hslashes] at h
      exact h
    exact hwhole.behind hfront

/-- **The query of a text that is cut** is what stands behind its first question mark, if that holds
    no sign of a fragment and nothing that cleaning drops. -/
theorem query_of_split {s query : List Char} {u : Url} (h : split s = .ok u) (hs : Asks s query)
    (hhash : '#' ∉ query) (hquery : ∀ c ∈ query, isDropped c = false) : u.query = query := by
  obtain ⟨front, hrest, hquestion, hfront⟩ := asks_cutAuthority (asks_cutScheme (asks_clean hs hquery))
  have hnone : '#' ∉ front ++ '?' :: query := by
    simp only [List.mem_append, List.mem_cons, not_or]
    exact ⟨hfront, by decide, hhash⟩
  obtain ⟨scheme, rest, authority, behind, hscheme, hauthority, -, rfl⟩ := parts_of_split h
  rw [hscheme, hauthority] at hrest
  show (cutAt '?' (cutAt '#' behind).1).2.getD [] = query
  rw [show behind = front ++ '?' :: query from hrest, cutAt_of_not_mem hnone, cutAt_append hquestion]
  rfl

/-! ## The path of a text -/

theorem clean_behind_scheme {scheme : List Char} (hscheme : isScheme scheme = true) (s : List Char) :
    clean (scheme ++ ':' :: '/' :: '/' :: s) =
      scheme ++ ':' :: '/' :: '/' :: s.filter fun x => !isDropped x := by
  obtain ⟨c, more, rfl, -, hall⟩ := exists_of_isScheme hscheme
  have hkept : (c :: more).filter (fun x => !isDropped x) = c :: more :=
    List.filter_eq_self.mpr fun x hx => by rw [(schemeChar_spec (hall x hx)).2.1]; rfl
  rw [List.cons_append, clean_printed (schemeChar_spec (hall c List.mem_cons_self)).1,
    ← List.cons_append, List.filter_append, hkept]
  rfl

/-- **The path of a text that is cut** ends with what stands behind a slash behind its site, if that
    holds nothing that cleaning drops, and there is no sign of a query or a fragment. -/
theorem path_of_split {scheme site tail : List Char} {u : Url}
    (h : split (scheme ++ ':' :: '/' :: '/' :: (site ++ '/' :: tail)) = .ok u)
    (hscheme : isScheme scheme = true) (hlower : lower scheme = scheme)
    (hsite : ∀ c ∈ site, c ≠ '?' ∧ c ≠ '#') (htail : ∀ c ∈ tail, c ≠ '?' ∧ c ≠ '#')
    (hkept : ∀ c ∈ tail, isDropped c = false) :
    ('/' :: tail) <:+ u.path ∧ u.query = [] ∧ u.fragment = [] := by
  have hkept' : ('/' :: tail).filter (fun x => !isDropped x) = '/' :: tail := by
    rw [List.filter_eq_self, List.forall_mem_cons]
    exact ⟨rfl, fun x hx => by rw [hkept x hx]; rfl⟩
  obtain ⟨front, rest, authority, behind, hfront, hauthority, -, rfl⟩ := parts_of_split h
  -- the scheme is cut off, and of what follows two slashes the authority
  have hlead : ∀ s, cutScheme [] (scheme ++ ':' :: '/' :: '/' :: s) = (scheme, '/' :: '/' :: s) := by
    intro s
    obtain ⟨c, more, hcons, -, -⟩ := exists_of_isScheme hscheme
    rw [← cutScheme_eq (.inr ⟨hscheme, hlower⟩), hcons, List.isEmpty_cons,
      if_neg Bool.false_ne_true, List.append_assoc, List.singleton_append]
  rw [clean_behind_scheme hscheme, List.filter_append, hkept', hlead] at hfront
  obtain ⟨rfl, rfl⟩ := Prod.mk.inj hfront
  obtain ⟨-, rfl⟩ := Prod.mk.inj hauthority
  generalize hbehind : ((site.filter fun x => !isDropped x) ++ '/' :: tail).dropWhile
    (fun c => !endsAuthority c) = behind
  have hplain : ∀ c ∈ behind, c ≠ '?' ∧ c ≠ '#' := by
    intro c hc
    rw [← hbehind] at hc
    rcases List.mem_append.mp ((List.dropWhile_sublist _).subset hc) with hc | hc
    · exact hsite c (List.mem_filter.mp hc).1
    · rcases List.mem_cons.mp hc with rfl | hc
      · decide
      · exact htail c hc
  have hends : ('/' :: tail) <:+ behind := by
    rw [← hbehind, List.dropWhile_append]
    split
    · exact List.suffix_refl _
    · exact List.suffix_append _ _
  rw [cutAt_of_not_mem fun h => (hplain '#' h).2 rfl, cutAt_of_not_mem fun h => (hplain '?' h).1 rfl]
  exact ⟨hends, rfl, rfl⟩

/-! ## What cannot be cut -/

theorem splitWith_eq_error {given s : List Char} {f : Fault} (h : splitWith given s = .error f) :
    f = .malformedUrl := by
  unfold splitWith at h
  dsimp only at h
  split at h
  · cases h
    rfl
  · cases h

/-- A reference only fails where it or its base cannot be cut. -/
theorem join_eq_error {base reference : List Char} {f : Fault} (h : join base reference = .error f) :
    f = .malformedUrl := by
  unfold join at h
  split at h
  · cases h
  split at h
  · cases h
  rcases Fallible.of_bind_eq_error h with hbase | ⟨b, -, h⟩
  · exact splitWith_eq_error hbase
  rcases Fallible.of_bind_eq_error h with hreference | ⟨r, -, h⟩
  · exact splitWith_eq_error hreference
  -- the two are put together in one of several ways, none of which fails
  dsimp only at h
  split at h
  · cases h
  split at h
  · cases h
  split at h
  · split at h <;> cases h
  · split at h <;> cases h

end StreamResolver.Url
