/-
  The page of a link and the ids that the link names.

  A link is rewritten by one set of expressions and read by another.  The crux is that a form with
  a page on an instance says where its id stands: in a path right behind the lead, and no question
  mark comes before it (`onSite_leads`), in a query right behind a key that a question mark or an
  ampersand precedes (`parameter_names`).  These are places where ids are looked for, so the id of
  the page is one of those that the link names, and it is the extracted one when the link names no
  other (`page_names`).
-/
import StreamResolver.Proofs.Media.Naming

namespace StreamResolver.Link

open Text Pattern

/-! ## Forms with a page -/

/-- A link has this page on this instance; a link that is the same on every instance has none. -/
structure HasPage (url instanceUrl : List Char) (target : String) (id : List Char) : Prop where
  rewritten : ∃ other, onInstance url other ≠ url
  page : onInstance url instanceUrl = instanceUrl ++ target.toList ++ id

/-- What stands before an id tells where it ends. -/
theorem target_inj {t t' : String} (ht : t ∈ forms.map (·.target)) (ht' : t' ∈ forms.map (·.target))
    {id id' : List Char} (h : t.toList ++ id = t'.toList ++ id') : t = t' ∧ id = id' := by
  -- the first two characters tell the targets apart
  have hapart : ∀ t ∈ forms.map (·.target), ∀ t' ∈ forms.map (·.target),
      t.toList.take 2 = t'.toList.take 2 → t = t' := by decide
  have hlong : ∀ t ∈ forms.map (·.target), 2 ≤ t.toList.length := by decide
  have htake := congrArg (List.take 2) h
  rw [List.take_append_of_le_length (hlong t ht), List.take_append_of_le_length (hlong t' ht')]
    at htake
  obtain rfl := hapart t ht t' ht' htake
  exact ⟨rfl, List.append_cancel_left h⟩

/-- A page comes from a form that captures its id. -/
theorem HasPage.form {url instanceUrl : List Char} {target : String} {id : List Char}
    (h : HasPage url instanceUrl target id) (htarget : target ∈ forms.map (·.target)) :
    ∃ f ∈ forms, f.target = target ∧ capture? (.seq f.lead f.rest) url = some id := by
  obtain ⟨⟨other, hother⟩, hpage⟩ := h
  -- some form captures an id, whatever the instance
  have hsome : ∃ f ∈ forms, (capture? (.seq f.lead f.rest) url).isSome := by
    refine Classical.byContradiction fun hnone => hother ?_
    rw [onInstance, List.findSome?_eq_none_iff.mpr]
    · rfl
    · intro f hf
      rw [Option.map_eq_none_iff, ← Option.not_isSome_iff_eq_none]
      exact fun hc => hnone ⟨f, hf, hc⟩
  obtain ⟨f, hf, hsome⟩ := hsome
  rcases hfound : forms.findSome? fun f =>
      (capture? (.seq f.lead f.rest) url).map fun id => instanceUrl ++ f.target.toList ++ id
    with _ | page
  · have hnone := List.findSome?_eq_none_iff.mp hfound f hf
    rw [Option.map_eq_none_iff] at hnone
    rw [hnone] at hsome
    cases hsome
  · obtain ⟨g, hg, hmap⟩ := List.exists_of_findSome?_eq_some hfound
    obtain ⟨id', hid', rfl⟩ := Option.map_eq_some_iff.mp hmap
    rw [onInstance, hfound, Option.getD_some, List.append_assoc, List.append_assoc] at hpage
    obtain ⟨htargets, rfl⟩ := target_inj (List.mem_map_of_mem hg) htarget
      (List.append_cancel_left hpage)
    exact ⟨g, hg, htargets, hid'⟩

/-! ## Where the id stands -/

/-- From the start of a text the expression passes something without a question mark and then the
    given text. -/
def EndsIn (p : Pattern) (text : List Char) : Prop :=
  ∀ s t, p.Leads s t → s.before = [] ∧
    ∃ front, '?' ∉ front ∧ s.after = front ++ (text ++ t.after)

theorem scheme_leads {s t : Place} (h : scheme.Leads s t) :
    s.before = [] ∧ ∃ front, '?' ∉ front ∧ s.after = front ++ t.after := by
  obtain ⟨front, hfront, havoid, -⟩ := h.passes
  obtain ⟨m, ⟨-, hstart⟩, -⟩ := h
  exact ⟨hstart, front, havoid '?' (by decide), hfront⟩

theorem endsIn_scheme (text : String) : EndsIn (.seq scheme (.word text)) text.toList := by
  rintro s t ⟨m, hscheme, htext⟩
  obtain ⟨hstart, front, hfront, hafter⟩ := scheme_leads hscheme
  refine ⟨hstart, front, hfront, ?_⟩
  rw [hafter, (leads_literal htext).after_eq]

theorem endsIn_onSite (subdomains : List String) (path : String)
    (hsub : (opt (anyOf (subdomains.map .word))).avoids '?' = true) :
    EndsIn (.sequence [scheme, site subdomains, .word path])
      ("youtube.com/".toList ++ path.toList) := by
  rintro s t ⟨m, hscheme, r, ⟨q, hopt, hsite⟩, hpath⟩
  obtain ⟨hstart, front, hfront, hafter⟩ := scheme_leads hscheme
  obtain ⟨sub, hmid, havoid, -⟩ := hopt.passes
  refine ⟨hstart, front ++ sub, ?_, ?_⟩
  · rw [List.mem_append, not_or]
    exact ⟨hfront, havoid '?' hsub⟩
  · rw [hafter, hmid, (leads_literal hsite).after_eq, (leads_literal hpath).after_eq,
      List.append_assoc, List.append_assoc]

/-- A capture of a lead and a rest is a run of the rest from where the lead ends. -/
theorem capture?_endsIn {lead rest : Pattern} {text url id : List Char} (hlead : EndsIn lead text)
    (h : capture? (.seq lead rest) url = some id) :
    ∃ front bound t, '?' ∉ front ∧ url = front ++ (text ++ t.after) ∧ t.after.length ≤ bound ∧
      (rest.run bound some t).map (·.captured? 1) = some (some id) := by
  obtain ⟨found, hfound, hgroup⟩ := Option.bind_eq_some_iff.mp h
  obtain ⟨bound, s, hwhole, hbound, hrun⟩ := search?_runs hfound
  obtain ⟨t, hleads, hrest⟩ := run_leads bound lead hrun
  obtain ⟨hstart, front, hfront, hafter⟩ := hlead s t hleads
  rw [Place.whole, hstart, List.reverse_nil, List.nil_append, hafter] at hwhole
  refine ⟨front, bound, t, hfront, hwhole.symm, ?_, ?_⟩
  · rw [hafter, List.length_append, List.length_append] at hbound
    omega
  · rw [hrest, Option.map_some]
    exact congrArg some hgroup

/-! ## Ids in paths -/

theorem takeWhile_withoutQuery {p : Char → Bool} (hp : p '?' = false) (s : List Char) :
    (withoutQuery s).takeWhile p = s.takeWhile p := by
  induction s with
  | nil => rfl
  | cons c rest ih =>
    rw [withoutQuery, cutAt]
    split
    · next hc => rw [hc, List.takeWhile_cons, hp]; rfl
    · rw [List.takeWhile_cons, List.takeWhile_cons, ← withoutQuery, ih]

theorem withoutQuery_append {front : List Char} (h : '?' ∉ front) (s : List Char) :
    withoutQuery (front ++ s) = front ++ withoutQuery s := by
  induction front with
  | nil => rfl
  | cons c front ih =>
    rw [List.mem_cons, not_or] at h
    rw [List.cons_append, withoutQuery, cutAt, if_neg (fun hc => h.1 hc.symm), ← withoutQuery,
      ih h.2, List.cons_append]

/-- What a path form captures is an id behind a lead. -/
theorem pathId_names {lead : Pattern} {text url id : List Char} (hlead : EndsIn lead text)
    {leads : List String} {behind : String} (hbehind : behind ∈ leads) (host : List Char)
    (htext : text = host ++ behind.toList) (hplain : '?' ∉ text)
    (h : capture? (.seq lead pathId) url = some id) : id ∈ idsBehind leads (withoutQuery url) := by
  obtain ⟨front, bound, t, hfront, rfl, hbound, hrun⟩ := capture?_endsIn hlead h
  -- the run reads the id off what follows the lead, and the query does not matter for that
  have hread : front? (.noneOf ['/', '?', '#']) (withoutQuery t.after) = some id := by
    have hmap := (run_capture_some1 hbound 1 t.pos t.before t.captures).symm.trans hrun
    rw [front?, takeWhile_withoutQuery (by decide)]
    obtain ⟨w, hw, hid⟩ := Option.map_eq_some_iff.mp hmap
    rw [Option.some.injEq] at hid
    exact hid ▸ hw
  rw [idsBehind, List.mem_flatMap]
  refine ⟨behind, hbehind, ?_⟩
  rw [withoutQuery_append hfront, withoutQuery_append hplain, htext, List.append_assoc,
    ← List.append_assoc front]
  refine mem_readings ?_
  rw [idHere?, dropFront?_eq_some_iff.mpr rfl]
  exact hread

/-! ## Ids in queries -/

/-- What stands before a key is kept, or an ampersand is passed last. -/
theorem before_key_leads {s t : Place}
    (h : (opt (.seq (.many .notNewline) (.word "&"))).Leads s t) :
    t.after = s.after ∨ ∃ w, s.after = w ++ '&' :: t.after := by
  obtain ⟨n, -, hrounds⟩ := h
  induction n generalizing s with
  | zero => exact .inl (congrArg Place.after hrounds)
  | succ n ih =>
    obtain ⟨m, ⟨q, ⟨w, -, -, -, hreads⟩, hamp⟩, hrest⟩ := hrounds
    have hafter : s.after = w ++ '&' :: m.after := by
      rw [hreads.after_eq, (leads_literal hamp).after_eq]
      rfl
    rcases ih hrest with heq | ⟨w', heq⟩
    · exact .inr ⟨w, by rw [hafter, heq]⟩
    · exact .inr ⟨w ++ '&' :: w', by rw [hafter, heq, List.append_assoc, List.cons_append]⟩

/-- What a query form captures is a value of its parameter. -/
theorem parameter_names {lead : Pattern} {text url id : List Char} {key : String}
    (hlead : EndsIn lead text) (front : List Char) (htext : text = front ++ ['?'])
    (h : capture? (.seq lead (parameter key)) url = some id) : id ∈ values key url := by
  subst htext
  obtain ⟨start, bound, t, -, rfl, hbound, hrun⟩ := capture?_endsIn hlead h
  -- other parameters are passed first, then the key is read with its value
  obtain ⟨stop, hstop, hid⟩ := Option.map_eq_some_iff.mp hrun
  obtain ⟨m, hbefore, hkey⟩ := run_leads bound (opt (.seq (.many .notNewline) (.word "&")))
    (k := (sequence [.word key, .word "=", queryId]).run bound some) hstop
  have hcut : ∃ c w, (c = '?' ∨ c = '&') ∧ front ++ ['?'] ++ t.after = w ++ c :: m.after := by
    rcases before_key_leads hbefore with heq | ⟨w, heq⟩
    · exact ⟨'?', front, .inl rfl, by rw [heq, List.append_assoc, List.singleton_append]⟩
    · exact ⟨'&', front ++ ['?'] ++ w, .inr rfl, by rw [heq, List.append_assoc (front ++ ['?'])]⟩
  obtain ⟨c, w, hc, heq⟩ := hcut
  have hlen : m.after.length ≤ bound := by
    have hsum := congrArg List.length heq
    obtain ⟨w', hw', -⟩ := hbefore.passes
    rw [hw', List.length_append] at hbound
    omega
  rw [heq, ← List.append_assoc, values]
  refine mem_readings ?_
  have hreads := assignment_reads key hlen m.pos m.before m.captures
  rw [hkey, Option.map_some, hid] at hreads
  obtain ⟨w, hw, hsame⟩ := Option.map_eq_some_iff.mp hreads.symm
  rw [Option.some.injEq] at hsame
  rw [valueHere?, if_pos hc, hw, hsame]

/-! ## Rewriting and extraction -/

/-- How the id of a page and an extracted one relate: both are named by the link, the extracted one
    first, so a link that names no other id has one id for both. -/
structure Shares (ids : List (List Char)) (id : List Char) (extracted : Option (List Char)) :
    Prop where
  named : id ∈ ids
  first : extracted = ids.head?
  only : (∀ other ∈ ids, other = id) → extracted = some id

theorem shares_of_mem {ids : List (List Char)} {id : List Char} (h : id ∈ ids) :
    Shares ids id ids.head? := by
  refine ⟨h, rfl, fun honly => ?_⟩
  obtain ⟨other, more, rfl⟩ := List.exists_cons_of_ne_nil (List.ne_nil_of_mem h)
  rw [List.head?_cons, honly other List.mem_cons_self]

/-- A path form captures an id behind each lead that its path ends in. -/
theorem onSite_names {path target behind : String} {url id : List Char} {leads : List String}
    (hbehind : behind ∈ leads) (host : List Char)
    (htext : "youtube.com/".toList ++ path.toList = host ++ behind.toList)
    (hplain : '?' ∉ host ++ behind.toList)
    (h : capture? (.seq (Form.onSite ["www."] path pathId target).lead pathId) url = some id) :
    id ∈ idsBehind leads (withoutQuery url) :=
  pathId_names (endsIn_onSite ["www."] path (by decide)) hbehind host htext (htext ▸ hplain) h

theorem videoPath_names {path target : String} (hpath : path ∈ ["shorts/", "live/", "embed/"])
    {url id : List Char}
    (h : capture? (.seq (Form.onSite ["www."] path pathId target).lead pathId) url = some id) :
    id ∈ pathVideoIds url := by
  have hlead : ∀ path ∈ ["shorts/", "live/", "embed/"],
      "youtube.com/" ++ path ∈ videoLeads ∧ '?' ∉ ("youtube.com/" ++ path).toList := by decide
  exact onSite_names (hlead path hpath).1 [] String.toList_append.symm (hlead path hpath).2 h

theorem channelPath_names {path target : String} (hpath : path ∈ ["channel/", "c/", "user/", "@"])
    {url id : List Char}
    (h : capture? (.seq (Form.onSite ["www."] path pathId target).lead pathId) url = some id) :
    id ∈ channelIds url := by
  have hlead : ∀ path ∈ ["channel/", "c/", "user/", "@"],
      "/" ++ path ∈ channelLeads ∧ '?' ∉ "youtube.com".toList ++ ("/" ++ path).toList := by decide
  refine onSite_names (hlead path hpath).1 "youtube.com".toList ?_ (hlead path hpath).2 h
  rw [String.toList_append]
  rfl

/-- Each form captures an id that the link names. -/
theorem form_names {f : Form} (hf : f ∈ forms) {url id : List Char}
    (h : capture? (.seq f.lead f.rest) url = some id) :
    (f.target = "/watch?v=" ∧ id ∈ videoIds url) ∨
      (f.target = "/playlist?list=" ∧ id ∈ playlistIds url) ∨
      (f.target ∈ ["/channel/", "/user/", "/@"] ∧ id ∈ channelIds url) := by
  have hpath : id ∈ pathVideoIds url → id ∈ videoIds url := List.mem_append_right _
  simp only [forms, List.mem_cons, List.not_mem_nil, or_false] at hf
  rcases hf with rfl | rfl | rfl | rfl | rfl | rfl | rfl | rfl | rfl | rfl
  · have hlead := endsIn_onSite ["www.", "m.", "music."] "watch?" (by decide)
    refine .inl ⟨rfl, List.mem_append_left _ ?_⟩
    exact parameter_names hlead "youtube.com/watch".toList (by decide) h
  · refine .inl ⟨rfl, hpath ?_⟩
    have hbehind : "youtu.be/" ∈ videoLeads := by decide
    exact pathId_names (endsIn_scheme "youtu.be/") hbehind [] rfl (by decide) h
  · exact .inl ⟨rfl, hpath (videoPath_names (by decide) h)⟩
  · exact .inl ⟨rfl, hpath (videoPath_names (by decide) h)⟩
  · exact .inl ⟨rfl, hpath (videoPath_names (by decide) h)⟩
  · have hlead := endsIn_onSite ["www.", "music."] "playlist?" (by decide)
    refine .inr (.inl ⟨rfl, ?_⟩)
    exact parameter_names hlead "youtube.com/playlist".toList (by decide) h
  · exact .inr (.inr ⟨by decide, channelPath_names (by decide) h⟩)
  · exact .inr (.inr ⟨by decide, channelPath_names (by decide) h⟩)
  · exact .inr (.inr ⟨by decide, channelPath_names (by decide) h⟩)
  · exact .inr (.inr ⟨by decide, channelPath_names (by decide) h⟩)

/-- **Rewriting and extraction agree up to the choice among several ids**: the id of the page is one
    that the link names, extraction takes the first of these, and a link that names a single id has
    it for both. -/
theorem page_shares_id (url instanceUrl id : List Char) :
    (HasPage url instanceUrl "/watch?v=" id → Shares (videoIds url) id (videoId? url)) ∧
      (HasPage url instanceUrl "/playlist?list=" id →
        Shares (playlistIds url) id (playlistId? url)) ∧
      ∀ target ∈ ["/channel/", "/user/", "/@"], HasPage url instanceUrl target id →
        Shares (channelIds url) id (channel? url) := by
  rw [videoId?_eq, playlistId?_eq, channel?_eq]
  refine ⟨fun h => ?video, fun h => ?playlist, fun target htarget h => ?channel⟩
  case video =>
    obtain ⟨f, hf, htarget, hcapture⟩ := h.form (by decide)
    rcases form_names hf hcapture with ⟨-, hid⟩ | ⟨hother, -⟩ | ⟨hother, -⟩
    · exact shares_of_mem hid
    · exact absurd (htarget.symm.trans hother) (by decide)
    · exact absurd (htarget ▸ hother) (by decide)
  case playlist =>
    obtain ⟨f, hf, htarget, hcapture⟩ := h.form (by decide)
    rcases form_names hf hcapture with ⟨hother, -⟩ | ⟨-, hid⟩ | ⟨hother, -⟩
    · exact absurd (htarget.symm.trans hother) (by decide)
    · exact shares_of_mem hid
    · exact absurd (htarget ▸ hother) (by decide)
  case channel =>
    have htargets : ∀ t ∈ ["/channel/", "/user/", "/@"], t ∈ forms.map (·.target) := by decide
    obtain ⟨f, hf, rfl, hcapture⟩ := h.form (htargets target htarget)
    rcases form_names hf hcapture with ⟨hother, -⟩ | ⟨hother, -⟩ | ⟨-, hid⟩
    · exact absurd (hother ▸ htarget) (by decide)
    · exact absurd (hother ▸ htarget) (by decide)
    · exact shares_of_mem hid

theorem page_shares_id_watch :
    HasPage "https://m.youtube.com/watch?feature=share&v=abc123&list=PL1#t=10".toList
        "https://yewtu.be".toList "/watch?v=" "abc123".toList ∧
      Shares ["abc123".toList] "abc123".toList
        (videoId? "https://m.youtube.com/watch?feature=share&v=abc123&list=PL1#t=10".toList) ∧
    HasPage "http://music.youtube.com/playlist?list=PL1&v=".toList
        "https://yewtu.be".toList "/playlist?list=" "PL1".toList ∧
      Shares ["PL1".toList] "PL1".toList
        (playlistId? "http://music.youtube.com/playlist?list=PL1&v=".toList) ∧
    HasPage "https://www.youtube.com/@name/videos?view=0".toList
        "https://yewtu.be".toList "/@" "name".toList ∧
      Shares ["name".toList] "name".toList
        (channel? "https://www.youtube.com/@name/videos?view=0".toList) := by
  have hpage : ∀ url target id : String, onInstance url.toList [] ≠ url.toList →
      onInstance url.toList "https://yewtu.be".toList =
        "https://yewtu.be".toList ++ target.toList ++ id.toList →
      HasPage url.toList "https://yewtu.be".toList target id.toList :=
    fun _ _ _ hother hpage => ⟨⟨[], hother⟩, hpage⟩
  have hwatch := hpage "https://m.youtube.com/watch?feature=share&v=abc123&list=PL1#t=10"
    "/watch?v=" "abc123" (by decide +kernel) (by decide +kernel)
  have hlist := hpage "http://music.youtube.com/playlist?list=PL1&v="
    "/playlist?list=" "PL1" (by decide +kernel) (by decide +kernel)
  have hhandle := hpage "https://www.youtube.com/@name/videos?view=0"
    "/@" "name" (by decide +kernel) (by decide +kernel)
  have hvideos : videoIds "https://m.youtube.com/watch?feature=share&v=abc123&list=PL1#t=10".toList =
    ["abc123".toList] := by decide +kernel
  have hlists : playlistIds "http://music.youtube.com/playlist?list=PL1&v=".toList =
    ["PL1".toList] := by decide +kernel
  have hchannels : channelIds "https://www.youtube.com/@name/videos?view=0".toList =
    ["name".toList] := by decide +kernel
  exact ⟨hwatch, hvideos ▸ (page_shares_id _ _ _).1 hwatch, hlist,
    hlists ▸ (page_shares_id _ _ _).2.1 hlist, hhandle,
    hchannels ▸ (page_shares_id _ _ _).2.2 "/@" (by decide) hhandle⟩

/-- With two ids the page and the extraction may choose differently. -/
example :
    onInstance "https://youtu.be/abc123?v=xyz789".toList "https://yewtu.be".toList =
        "https://yewtu.be/watch?v=abc123".toList ∧
      videoId? "https://youtu.be/abc123?v=xyz789".toList = some "xyz789".toList := by
  decide +kernel

end StreamResolver.Link
