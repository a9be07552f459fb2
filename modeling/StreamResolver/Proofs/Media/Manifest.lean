/-
  What makes a deciphered URL a manifest.

  Candidates that lead to manifests are left out before any URL is deciphered.  Deciphering cuts a
  URL, writes its query anew and puts it together, and `manifest_of_withPairs` says when the new URL
  leads to a manifest although the old one did not:

    * the old one does once the characters are dropped that cutting drops;
    * two slashes and a third one were put in before a path that had none (`SlashesPutIn`);
    * no fragment follows, and the last value of the new query ends like a manifest
      (`EndsLikeManifest`).

  The crux is that the words looked for hold no sign at which a URL is cut.  A marker therefore
  stands within the hierarchy, the query or the fragment, and a query that is written anew holds no
  slash; an ending stands within the last part, and as it begins with a dot no percent triple can
  help to form it.
-/
import StreamResolver.Cipher.Deciphering
import StreamResolver.Media.Link
import StreamResolver.Proofs.Url.Splitting

namespace StreamResolver

open Text

/-! ## Words between signs -/

section

variable {α : Type} {sep : α} {w x y : List α}

/-- An ending without the sign stands behind the sign. -/
theorem suffix_behind (hsep : sep ∉ w) (h : w <:+ x ++ sep :: y) : w <:+ y := by
  obtain ⟨t, ht⟩ := h
  rcases List.append_eq_append_iff.mp ht with ⟨as, -, has⟩ | ⟨bs, -, hbs⟩
  · exact absurd (by rw [has]; simp) hsep
  · cases bs with
    | nil => exact absurd (by rw [← List.nil_append w, ← hbs]; exact List.mem_cons_self) hsep
    | cons b bs =>
      rw [List.cons_append, List.cons.injEq] at hbs
      exact ⟨bs, hbs.2.symm⟩

/-- A word without the sign stands before the sign or behind it. -/
theorem infix_around (hsep : sep ∉ w) (h : w <:+: x ++ sep :: y) : w <:+: x ∨ w <:+: y := by
  have hstart : ∀ w', sep ∉ w' → w' <+: sep :: y → w' = [] := by
    intro w' hw' hprefix
    rcases w' with _ | ⟨a, w'⟩
    · rfl
    · rw [List.cons_prefix_cons] at hprefix
      exact absurd (by rw [← hprefix.1]; exact List.mem_cons_self) hw'
  rcases List.infix_append_iff.mp h with hx | hy | ⟨w₁, w₂, rfl, hx, hy⟩
  · exact .inl hx
  · rcases List.infix_cons_iff.mp hy with hprefix | hy
    · rw [hstart w hsep hprefix]
      exact .inl (List.nil_infix)
    · exact .inr hy
  · have hw₂ := hstart w₂ (fun hmem => hsep (List.mem_append_right _ hmem)) hy
    rw [hw₂, List.append_nil]
    exact .inl hx.isInfix

end

namespace Text

theorem occurs_iff {needle s : List Char} : occurs needle s = true ↔ needle <:+: s := by
  induction s with
  | nil => simp [occurs]
  | cons c s ih => rw [occurs, Bool.or_eq_true, ih, List.isPrefixOf_iff_prefix, List.infix_cons_iff]

end Text

namespace Link

/-! ## Manifests -/

/-- Whether a text ends like the name of a manifest, whatever the case. -/
def EndsLike (s : List Char) : Prop := ∃ e ∈ manifestEndings, e.toList <:+ lower s

/-- Whether a marker of manifests stands in a text, whatever the case. -/
def IsMarked (s : List Char) : Prop := ∃ m ∈ manifestMarkers, m.toList <:+: lower s

theorem ending_spec {e : String} (he : e ∈ manifestEndings) :
    '/' ∉ e.toList ∧ ':' ∉ e.toList ∧ '?' ∉ e.toList ∧ '#' ∉ e.toList ∧ '=' ∉ e.toList := by
  have hall : ∀ e ∈ manifestEndings,
      '/' ∉ e.toList ∧ ':' ∉ e.toList ∧ '?' ∉ e.toList ∧ '#' ∉ e.toList ∧ '=' ∉ e.toList := by
    decide +kernel
  exact hall e he

/-- A marker begins with a slash that no other slash follows, and holds no other sign. -/
theorem marker_spec {m : String} (hm : m ∈ manifestMarkers) :
    ':' ∉ m.toList ∧ '?' ∉ m.toList ∧ '#' ∉ m.toList ∧
      ∃ c rest, m.toList = '/' :: c :: rest ∧ c ≠ '/' := by
  have hsigns : ∀ m ∈ manifestMarkers, ':' ∉ m.toList ∧ '?' ∉ m.toList ∧ '#' ∉ m.toList := by
    decide +kernel
  obtain ⟨hcolon, hquestion, hhash⟩ := hsigns m hm
  refine ⟨hcolon, hquestion, hhash, ?_⟩
  simp only [manifestMarkers, List.mem_cons, List.not_mem_nil, or_false] at hm
  rcases hm with rfl | rfl | rfl
  · exact ⟨'d', "ash/".toList, by decide +kernel, by decide⟩
  · exact ⟨'a', "pi/manifest/".toList, by decide +kernel, by decide⟩
  · exact ⟨'h', "ls_playlist/".toList, by decide +kernel, by decide⟩

theorem isManifest_iff {url : List Char} :
    isManifest url = true ↔ (∃ e ∈ manifestEndings, e.toList <:+ withoutQuery (lower url)) ∨
      EndsLike url ∨ IsMarked url := by
  simp only [isManifest, Bool.or_eq_true, List.any_eq_true, List.isSuffixOf_iff_suffix, occurs_iff,
    EndsLike, IsMarked, or_assoc]

/-- With a query, an ending is looked for before the query and at the end. -/
theorem withoutQuery_lower {front rest : List Char} (h : '?' ∉ front) :
    withoutQuery (lower (front ++ '?' :: rest)) = lower front := by
  have hlow : '?' ∉ lower front := fun hmem => h ((sign_mem_lower rfl).mp hmem)
  rw [withoutQuery, lower_append, lower_sign_cons rfl, cutAt_append hlow]

theorem isManifest_withQuery {front rest : List Char} (h : '?' ∉ front) :
    isManifest (front ++ '?' :: rest) = true ↔
      EndsLike front ∨ EndsLike (front ++ '?' :: rest) ∨ IsMarked (front ++ '?' :: rest) := by
  rw [isManifest_iff, withoutQuery_lower h]
  rfl

/-- An ending stands behind any sign of URLs. -/
theorem EndsLike.behind {sep : Char} (hsign : isSign sep = true)
    (hsep : sep = '/' ∨ sep = ':' ∨ sep = '?' ∨ sep = '#' ∨ sep = '=') {x y : List Char}
    (h : EndsLike (x ++ sep :: y)) : EndsLike y := by
  obtain ⟨e, he, hsuffix⟩ := h
  rw [lower_append, lower_sign_cons hsign] at hsuffix
  obtain ⟨hslash, hcolon, hquestion, hhash, hequals⟩ := ending_spec he
  refine ⟨e, he, suffix_behind ?_ hsuffix⟩
  rcases hsep with rfl | rfl | rfl | rfl | rfl
  · exact hslash
  · exact hcolon
  · exact hquestion
  · exact hhash
  · exact hequals

theorem EndsLike.append {y : List Char} (h : EndsLike y) (x : List Char) : EndsLike (x ++ y) := by
  obtain ⟨e, he, hsuffix⟩ := h
  refine ⟨e, he, ?_⟩
  rw [lower_append]
  exact List.suffix_append_of_suffix hsuffix

/-- A marker stands before a colon, a question mark or a hash sign, or behind it. -/
theorem IsMarked.around {sep : Char} (hsign : isSign sep = true)
    (hsep : sep = ':' ∨ sep = '?' ∨ sep = '#') {x y : List Char}
    (h : IsMarked (x ++ sep :: y)) : IsMarked x ∨ IsMarked y := by
  obtain ⟨m, hm, hin⟩ := h
  rw [lower_append, lower_sign_cons hsign] at hin
  obtain ⟨hcolon, hquestion, hhash, -⟩ := marker_spec hm
  have hout : sep ∉ m.toList := by
    rcases hsep with rfl | rfl | rfl
    · exact hcolon
    · exact hquestion
    · exact hhash
  rcases infix_around hout hin with hx | hy
  · exact .inl ⟨m, hm, hx⟩
  · exact .inr ⟨m, hm, hy⟩

theorem IsMarked.mono {x y : List Char} (h : IsMarked x) (hin : lower x <:+: lower y) :
    IsMarked y := by
  obtain ⟨m, hm, hx⟩ := h
  exact ⟨m, hm, hx.trans hin⟩

/-- Where a marker stands there is a slash. -/
theorem IsMarked.slash {x : List Char} (h : IsMarked x) : '/' ∈ x := by
  obtain ⟨m, hm, hx⟩ := h
  obtain ⟨-, -, -, c, rest, hcons, -⟩ := marker_spec hm
  exact (sign_mem_lower rfl).mp (hx.subset (by rw [hcons]; exact List.mem_cons_self))

/-- A marker does not begin at a slash that another one follows. -/
theorem IsMarked.skip {x : List Char} (h : IsMarked ('/' :: '/' :: x)) :
    IsMarked ('/' :: x) := by
  obtain ⟨m, hm, hx⟩ := h
  obtain ⟨-, -, -, c, rest, hcons, hc⟩ := marker_spec hm
  rw [lower_sign_cons rfl, List.infix_cons_iff] at hx
  rcases hx with hprefix | hx
  · rw [hcons, lower_sign_cons rfl, List.cons_prefix_cons, List.cons_prefix_cons] at hprefix
    exact absurd hprefix.2.1 hc
  · exact ⟨m, hm, hx⟩

/-- A marker does not consist of a slash at the end. -/
theorem IsMarked.not_last (h : IsMarked ['/']) : False := by
  obtain ⟨m, hm, hx⟩ := h
  obtain ⟨-, -, -, c, rest, hcons, -⟩ := marker_spec hm
  have hlength := hx.length_le
  rw [hcons] at hlength
  simp [lower, lowerOne] at hlength

/-! ## Values that are written anew -/

/-- A character of a value is written as it is, or else without a dot. -/
theorem escapeText_char (c : Char) : Query.escapeText [c] = [c] ∨
    ('.' ∉ Query.escapeText [c] ∧ ('%' ∈ Query.escapeText [c] ∨ '+' ∈ Query.escapeText [c])) := by
  have hpiece : Query.escapeText [c] =
      (Percent.encodeChar (· == ' ') c).map fun c => if c = ' ' then '+' else c := by
    simp [Query.escapeText, Percent.encode]
  rw [hpiece, Percent.encodeChar]
  by_cases hsafe : Percent.alwaysSafe c = true
  · have hspace := (Percent.alwaysSafe_ne hsafe).2.2.2.2.1
    exact .inl (by simp [hsafe, hspace])
  by_cases hspace : c = ' '
  · subst hspace
    exact .inr (by decide)
  rw [if_neg (by simp [hsafe, hspace])]
  refine .inr ⟨fun hdot => ?_, .inl ?_⟩
  · obtain ⟨x, hx, hxdot⟩ := List.mem_map.mp hdot
    obtain ⟨b, hb, hxb⟩ := List.mem_flatMap.mp hx
    have hdigits : ∀ d, d < 16 → Percent.hexDigit d ≠ '.' ∧ Percent.hexDigit d ≠ ' ' := by decide
    have hlt := Utf8.encodeChar_lt c b hb
    have hhigh := hdigits (b / 16) (by omega)
    have hlow := hdigits (b % 16) (by omega)
    simp only [Percent.triple, List.mem_cons, List.not_mem_nil, or_false] at hxb
    rcases hxb with rfl | rfl | rfl
    · exact absurd hxdot (by decide)
    · rw [if_neg hhigh.2] at hxdot
      exact hhigh.1 hxdot
    · rw [if_neg hlow.2] at hxdot
      exact hlow.1 hxdot
  · obtain ⟨b, hb⟩ : ∃ b, b ∈ Utf8.encodeChar c := by
      unfold Utf8.encodeChar
      dsimp only
      split
      · exact ⟨_, List.mem_cons_self⟩
      split
      · exact ⟨_, List.mem_cons_self⟩
      split
      · exact ⟨_, List.mem_cons_self⟩
      · exact ⟨_, List.mem_cons_self⟩
    exact List.mem_map.mpr ⟨'%', List.mem_flatMap.mpr ⟨b, hb, List.mem_cons_self⟩, by decide⟩

theorem escapeText_cons (c : Char) (s : List Char) :
    Query.escapeText (c :: s) = Query.escapeText [c] ++ Query.escapeText s := by
  simp [Query.escapeText, Percent.encode]

/-- A value that is written without percent and plus signs is written as it is. -/
theorem escapeText_eq_self {s : List Char} (hpercent : '%' ∉ Query.escapeText s)
    (hplus : '+' ∉ Query.escapeText s) : Query.escapeText s = s := by
  induction s with
  | nil => rfl
  | cons c s ih =>
    rw [escapeText_cons] at hpercent hplus ⊢
    rw [List.mem_append, not_or] at hpercent hplus
    rw [ih hpercent.2 hplus.2]
    rcases escapeText_char c with hself | ⟨-, hin | hin⟩
    · rw [hself]
      rfl
    · exact absurd hin hpercent.1
    · exact absurd hin hplus.1

/-- **A value that is written anew** ends like a manifest only if the value itself does. -/
theorem EndsLike.of_escapeText {s : List Char} (h : EndsLike (Query.escapeText s)) :
    EndsLike s := by
  obtain ⟨e, he, hsuffix⟩ := h
  refine ⟨e, he, ?_⟩
  have hspec : ∀ e ∈ manifestEndings, '%' ∉ e.toList ∧ '+' ∉ e.toList ∧
      e.toList.head? = some '.' := by decide +kernel
  obtain ⟨hpercent, hplus, hdot⟩ := hspec e he
  generalize e.toList = w at *
  induction s with
  | nil => exact hsuffix
  | cons c s ih =>
    rw [escapeText_cons, lower_append] at hsuffix
    obtain ⟨t, ht⟩ := hsuffix
    rw [show lower (c :: s) = lower [c] ++ lower s from lower_append [c] s]
    rcases List.append_eq_append_iff.mp ht with ⟨as, hfront, hw⟩ | ⟨bs, -, hbs⟩
    case inr => exact List.suffix_append_of_suffix (ih ⟨bs, hbs.symm⟩)
    rcases as with _ | ⟨x, as⟩
    · exact List.suffix_append_of_suffix (ih ⟨[], by rw [hw]; rfl⟩)
    -- it begins within the first character, so that one and all others are written as they are
    have hx : x = '.' := by
      rw [hw] at hdot
      simpa using hdot
    have hrest : Query.escapeText s = s := by
      refine escapeText_eq_self (fun hmem => hpercent ?_) (fun hmem => hplus ?_)
      · rw [hw]
        exact List.mem_append_right _ ((sign_mem_lower rfl).mpr hmem)
      · rw [hw]
        exact List.mem_append_right _ ((sign_mem_lower rfl).mpr hmem)
    rcases escapeText_char c with hself | ⟨hnone, -⟩
    · rw [hself] at hfront
      rw [hw, hrest, hfront]
      exact ⟨t, by rw [List.append_assoc]⟩
    · refine absurd ((sign_mem_lower rfl).mp ?_) hnone
      rw [hfront, hx]
      simp

/-- A query ends with the value of its last pair. -/
theorem render_last {pairs : List Query.Pair} {p : Query.Pair} (h : pairs.getLast? = some p) :
    ∃ front, Query.render pairs = front ++ '=' :: Query.escapeText p.2 := by
  induction pairs with
  | nil => simp at h
  | cons q more ih =>
    rcases more with _ | ⟨q', more⟩
    · rw [List.getLast?_singleton, Option.some.injEq] at h
      subst h
      exact ⟨Query.escapeText q.1, rfl⟩
    · rw [List.getLast?_cons_cons] at h
      obtain ⟨front, hfront⟩ := ih h
      refine ⟨Query.writePair q ++ '&' :: front, ?_⟩
      rw [show Query.render (q :: q' :: more) =
        Query.writePair q ++ ['&'] ++ Query.render (q' :: more) from rfl, hfront]
      simp

end Link

/-! ## The parts of a URL put together -/

namespace Url

/-- Whether putting the parts together puts in slashes before a path that does not begin with
    one. -/
def SlashesPutIn (u : Url) : Prop :=
  u.hasSlashes = true ∧ u.path ≠ [] ∧ u.path.head? ≠ some '/'

/-- Whether putting the parts together leaves the authority and the path as they are. -/
def HierarchyKept (u : Url) : Prop :=
  (u.hierarchy = u.path ∧ u.authority = []) ∨
    (u.hierarchy = '/' :: '/' :: (u.authority ++ u.path) ∧
      (u.path = [] ∨ ∃ rest, u.path = '/' :: rest))

theorem hierarchy_cases (u : Url) : u.SlashesPutIn ∨ u.HierarchyKept := by
  rcases hslashes : u.hasSlashes with _ | _
  · refine .inr (.inl ⟨by rw [hierarchy, hslashes]; rfl, ?_⟩)
    simp only [hasSlashes, Bool.or_eq_false_iff, Bool.not_eq_false', List.isEmpty_iff] at hslashes
    exact hslashes.1
  · rcases hpath : u.path with _ | ⟨c, rest⟩
    · refine .inr (.inr ⟨?_, .inl hpath⟩)
      rw [hierarchy, hslashes, if_pos rfl, hpath]
      rfl
    · by_cases hc : c = '/'
      · subst hc
        refine .inr (.inr ⟨?_, .inr ⟨rest, hpath⟩⟩)
        rw [hierarchy, hslashes, if_pos rfl, hpath]
        rfl
      · exact .inl ⟨hslashes, by simp [hpath], by simpa [hpath] using hc⟩

/-- A scheme holds no slash and no question mark. -/
theorem sign_not_mem_scheme {u : Url} (h : Cut u) {c : Char} (hc : isSchemeChar c = false) :
    c ∉ u.scheme := by
  intro hmem
  rcases h.scheme_lower with hnil | ⟨hscheme, -⟩
  · simp [hnil] at hmem
  · obtain ⟨-, -, -, -, hall⟩ := exists_of_isScheme hscheme
    rw [hall c hmem] at hc
    simp at hc

theorem question_not_mem_lead {u : Url} (h : Cut u) : '?' ∉ u.lead := by
  unfold lead
  split
  · simp
  · simpa using sign_not_mem_scheme h (by decide)

theorem question_not_mem_hierarchy {u : Url} (h : Cut u) : '?' ∉ u.authority ++ u.path := by
  intro hmem
  rcases List.mem_append.mp hmem with hmem | hmem
  · exact absurd (h.authority_ends '?' hmem) (by decide)
  · exact h.path_ends.1 hmem

/-- No question mark stands before the query. -/
theorem question_not_mem_front {u : Url} (h : Cut u) (hkept : u.HierarchyKept) :
    '?' ∉ u.lead ++ u.hierarchy := by
  intro hmem
  rcases List.mem_append.mp hmem with hmem | hmem
  · exact question_not_mem_lead h hmem
  · refine question_not_mem_hierarchy h ?_
    rcases hkept with ⟨heq, hnone⟩ | ⟨heq, -⟩
    · rwa [hnone, List.nil_append, ← heq]
    · simpa [heq] using hmem

open Link

theorem endsLike_hierarchy {u : Url} (hkept : u.HierarchyKept) (h : EndsLike u.hierarchy) :
    EndsLike (u.authority ++ u.path) := by
  rcases hkept with ⟨heq, hnone⟩ | ⟨heq, -⟩
  · rwa [hnone, List.nil_append, ← heq]
  · rw [heq] at h
    have hslash : EndsLike (['/'] ++ '/' :: (u.authority ++ u.path)) := h
    exact hslash.behind rfl (.inl rfl)

/-- A marker in the hierarchy stood there when it was cut, with the slashes that were cut off. -/
theorem isMarked_hierarchy {u : Url} (hkept : u.HierarchyKept) {slashes : List Char}
    (hslashes : (slashes = [] ∧ u.authority = []) ∨ slashes = ['/', '/'])
    (h : IsMarked u.hierarchy) : IsMarked (slashes ++ (u.authority ++ u.path)) := by
  rcases hkept with ⟨heq, hnone⟩ | ⟨heq, hpath⟩
  · rw [heq] at h
    rw [hnone, List.nil_append]
    exact h.mono (by rw [lower_append]; exact (List.suffix_append _ _).isInfix)
  · rw [heq] at h
    rcases hslashes with ⟨rfl, hnone⟩ | rfl
    · -- the slashes were put in, and no marker begins with two of them
      rw [hnone, List.nil_append] at h ⊢
      rcases hpath with hpath | ⟨more, hpath⟩
      · rw [hpath] at h
        exact h.skip.not_last.elim
      · rw [hpath] at h ⊢
        exact h.skip.skip
    · exact h

theorem endsLike_behind_lead {u : Url} {x : List Char} (h : EndsLike (u.lead ++ x)) :
    EndsLike x := by
  unfold lead at h
  split at h
  · exact h
  · rw [List.append_assoc] at h
    exact h.behind rfl (.inr (.inl rfl))

theorem isMarked_behind_lead {u : Url} (hcut : Cut u) {x : List Char}
    (h : IsMarked (u.lead ++ x)) : IsMarked x := by
  unfold lead at h
  split at h
  · exact h
  · rw [List.append_assoc] at h
    rcases h.around rfl (.inl rfl) with hscheme | hx
    · exact absurd hscheme.slash (sign_not_mem_scheme hcut (by decide))
    · exact hx

end Url

/-! ## The deciphered URL -/

namespace Cipher

open Link Url

/-- Whether the last value of the new query ends like a manifest, and nothing follows it. -/
def EndsLikeManifest (u : Url) (pairs : List Query.Pair) : Prop :=
  u.fragment = [] ∧ ∃ p, (withRateFlag pairs).getLast? = some p ∧ EndsLike p.2

theorem exists_last_pair (pairs : List Query.Pair) :
    ∃ p, (withRateFlag pairs).getLast? = some p := by
  have hne : withRateFlag pairs ≠ [] := by
    unfold withRateFlag
    split
    · next h =>
      rintro rfl
      simp at h
    · simp
  exact ⟨_, List.getLast?_eq_some_getLast hne⟩

/-- What stands behind the new query. -/
def behindQuery (u : Url) : List Char := if u.fragment.isEmpty then [] else '#' :: u.fragment

/-- The text of a deciphered URL: what stands before the query, the new query, the fragment. -/
theorem withPairs_eq (u : Url) (pairs : List Query.Pair) :
    (withPairs u pairs).toList = (u.lead ++ u.hierarchy) ++ '?' ::
      (Query.render (withRateFlag pairs) ++ behindQuery u) := by
  obtain ⟨p, hlast⟩ := exists_last_pair pairs
  obtain ⟨front, hrender⟩ := render_last hlast
  have hquery : (Query.render (withRateFlag pairs)).isEmpty = false := by
    rw [hrender]
    cases front <;> rfl
  rw [withPairs, String.toList_ofList, text]
  simp only [hquery, Bool.false_eq_true, if_false, List.append_assoc, List.cons_append]
  rfl

/-- An ending behind the query is that of the fragment or of the last value. -/
theorem endsLike_behindQuery {u : Url} {pairs : List Query.Pair}
    (h : EndsLike (Query.render (withRateFlag pairs) ++ behindQuery u)) :
    EndsLikeManifest u pairs ∨ (u.fragment ≠ [] ∧ EndsLike u.fragment) := by
  rcases hfragment : u.fragment with _ | ⟨c, more⟩
  · rw [behindQuery, hfragment, List.isEmpty_nil, if_pos rfl, List.append_nil] at h
    obtain ⟨p, hlast⟩ := exists_last_pair pairs
    obtain ⟨before, hrender⟩ := render_last hlast
    rw [hrender] at h
    have hvalue := h.behind rfl (.inr (.inr (.inr (.inr rfl))))
    exact .inl ⟨hfragment, p, hlast, hvalue.of_escapeText⟩
  · rw [behindQuery, if_neg (by simp [hfragment]), hfragment] at h
    exact .inr ⟨by simp, h.behind rfl (.inr (.inr (.inr (.inl rfl))))⟩

/-- A query that is written anew holds no slash, so a marker behind it stands in the fragment. -/
theorem isMarked_behindQuery {u : Url} {pairs : List Query.Pair}
    (h : IsMarked (Query.render (withRateFlag pairs) ++ behindQuery u)) :
    u.fragment ≠ [] ∧ IsMarked u.fragment := by
  have hslash : '/' ∉ Query.render (withRateFlag pairs) :=
    Query.not_mem_render (by decide) (by decide) (by decide) (by decide) (by decide) _
  unfold behindQuery at h
  split at h
  · rw [List.append_nil] at h
    exact absurd h.slash hslash
  · next hfragment =>
    rcases h.around rfl (.inr (.inr rfl)) with h | h
    · exact absurd h.slash hslash
    · exact ⟨by simpa using hfragment, h⟩

/-- **What makes a deciphered URL a manifest** that was none as it was cut. -/
theorem manifest_of_withPairs {s : List Char} {u : Url} {pairs : List Query.Pair}
    (h : Url.split s = .ok u) (hquery : u.query ≠ [])
    (hm : isManifest (withPairs u pairs).toList = true) :
    isManifest (clean s) = true ∨ u.SlashesPutIn ∨ EndsLikeManifest u pairs := by
  obtain ⟨front, slashes, rest, hclean, hfront, hslashes, hrest⟩ := text_of_split h hquery
  have hcut := cut_of_split h
  rcases hierarchy_cases u with hput | hkept
  · exact .inr (.inl hput)
  have hquestion : '?' ∉ front ++ (slashes ++ (u.authority ++ u.path)) := by
    intro hmem
    rcases List.mem_append.mp hmem with hmem | hmem
    · refine question_not_mem_lead hcut ((sign_mem_lower rfl).mp ?_)
      rw [← hfront]
      exact (sign_mem_lower rfl).mpr hmem
    · rcases List.mem_append.mp hmem with hmem | hmem
      · rcases hslashes with ⟨rfl, -⟩ | rfl <;> simp at hmem
      · exact question_not_mem_hierarchy hcut hmem
  have hbehind : u.fragment ≠ [] → ∃ before, clean s = before ++ u.fragment := by
    intro hne
    rcases hrest with ⟨-, hnone⟩ | hrest
    · exact absurd hnone hne
    · exact ⟨front ++ (slashes ++ (u.authority ++ u.path)) ++ '?' :: (u.query ++ ['#']), by
        rw [hclean, hrest]
        simp⟩
  rw [← List.append_assoc] at hclean
  rw [withPairs_eq, isManifest_withQuery (question_not_mem_front hcut hkept)] at hm
  rw [hclean, isManifest_withQuery hquestion, ← hclean]
  -- what stands before the query and what stands behind it was there before
  rcases hm with hm | hm | hm
  · refine .inl (.inl ?_)
    rw [← List.append_assoc]
    exact (endsLike_hierarchy hkept (endsLike_behind_lead hm)).append _
  · rcases endsLike_behindQuery (hm.behind rfl (.inr (.inr (.inl rfl)))) with hlast | ⟨hne, hend⟩
    · exact .inr (.inr hlast)
    · obtain ⟨before, hfragment⟩ := hbehind hne
      rw [hfragment]
      exact .inl (.inr (.inl (hend.append _)))
  · refine .inl (.inr (.inr ?_))
    rcases hm.around rfl (.inr (.inl rfl)) with hm | hm
    · refine (isMarked_hierarchy hkept hslashes (isMarked_behind_lead hcut hm)).mono ?_
      rw [hclean, List.append_assoc, lower_append front, lower_append (slashes ++ _)]
      exact List.infix_append' _ _ _
    · obtain ⟨hne, hmarked⟩ := isMarked_behindQuery hm
      obtain ⟨before, hfragment⟩ := hbehind hne
      rw [hfragment]
      refine hmarked.mono ?_
      rw [lower_append]
      exact (List.suffix_append _ _).isInfix

end Cipher

end StreamResolver
