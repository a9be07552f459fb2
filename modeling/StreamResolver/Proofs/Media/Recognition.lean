/-
  Which links are recognised, and that a link is rewritten once.

  A link is rewritten by a form whose lead and rest it has, and recognised by a lead alone, so what
  is not recognised stays as it is (`onInstance_unrecognised`).

  A rewritten link begins with the address of the instance.  The crux is that every lead says which
  host a recognised link has: a scheme, one of a few hosts (`siteHosts`), and a slash
  (`lead_ways`).  An address has its own host between its first colon and the first slash behind the
  next two, so a page of an instance elsewhere has no lead, whatever id stands in it
  (`page_unrecognised`), and rewriting it again changes nothing.
-/
import StreamResolver.Media.Link
import StreamResolver.Proofs.Pattern.AllWays
import StreamResolver.Proofs.Text.Joining

namespace StreamResolver.Link

open Text Pattern

/-! ## What is rewritten is recognised -/

/-- A link with a page on an instance has the lead of a form. -/
theorem isRecognised_of_capture {f : Form} (hf : f ∈ forms) {url id : List Char}
    (h : capture? (.seq f.lead f.rest) url = some id) : isRecognised url = true := by
  obtain ⟨found, hfound, -⟩ := Option.bind_eq_some_iff.mp h
  obtain ⟨front, rest, hurl, hways, -⟩ := search?_ways hfound
  -- the way of the whole begins with one of the lead
  obtain ⟨m, hlead, -⟩ := List.mem_flatMap.mp hways
  rw [isRecognised, List.any_eq_true]
  exact ⟨f, hf, search?_isSome_iff.mpr ⟨front, rest, m, hurl, hlead⟩⟩

/-- **What is not recognised stays as it is.** -/
theorem onInstance_unrecognised {url : List Char} (h : isRecognised url = false)
    (instanceUrl : List Char) : onInstance url instanceUrl = url := by
  have hnone : ∀ f ∈ forms, capture? (.seq f.lead f.rest) url = none := by
    intro f hf
    rcases hcapture : capture? (.seq f.lead f.rest) url with _ | id
    · rfl
    · have hrecognised := isRecognised_of_capture hf hcapture
      rw [h] at hrecognised
      cases hrecognised
  rw [onInstance, List.findSome?_eq_none_iff.mpr]
  · rfl
  · intro f hf
    rw [hnone f hf, Option.map_none]

/-- A link stays as it is, or a form makes it a page of the instance. -/
theorem onInstance_cases (url instanceUrl : List Char) : onInstance url instanceUrl = url ∨
    ∃ f ∈ forms, ∃ id, onInstance url instanceUrl = instanceUrl ++ f.target.toList ++ id := by
  rcases hpage : forms.findSome? fun f =>
      (capture? (.seq f.lead f.rest) url).map fun id => instanceUrl ++ f.target.toList ++ id
    with _ | page
  · left
    rw [onInstance, hpage]
    rfl
  · right
    obtain ⟨f, hf, hmap⟩ := List.exists_of_findSome?_eq_some hpage
    obtain ⟨id, -, rfl⟩ := Option.map_eq_some_iff.mp hmap
    refine ⟨f, hf, id, ?_⟩
    rw [onInstance, hpage]
    rfl

/-! ## The host of a recognised link -/

/-- The hosts of recognised links. -/
def siteHosts : List String :=
  ["youtu.be", "youtube.com", "www.youtube.com", "m.youtube.com", "music.youtube.com"]

/-- From here on there is a scheme, the host, and a slash. -/
def OnHost (host : String) (s : List Char) : Prop :=
  ∃ front ∈ ["http", "https"], ∃ rest,
    s = front.toList ++ ("://".toList ++ (host.toList ++ '/' :: rest))

variable {bound : Nat} {s t : Place}

theorem scheme_ways (h : t ∈ scheme.ways bound s) :
    s.before = [] ∧
      ∃ front ∈ ["http", "https"], s.after = front.toList ++ ("://".toList ++ t.after) := by
  obtain ⟨m, hstart, h⟩ := mem_ways_cons.mp h
  obtain ⟨m', hhttp, h⟩ := mem_ways_cons.mp h
  obtain ⟨m'', hs, hmarks⟩ := mem_ways_cons.mp h
  obtain ⟨rfl, hbefore⟩ := leads_of_mem_ways hstart
  obtain ⟨w, hw, -, hlen, hreads⟩ := mem_ways_span.mp hs
  have hmarks := (mem_ways_literal.mp hmarks).after_eq
  have hafter : m.after = "http".toList ++ (w ++ ("://".toList ++ t.after)) := by
    rw [(mem_ways_literal.mp hhttp).after_eq, hreads.after_eq, hmarks]
  refine ⟨hbefore, ?_⟩
  -- at most one more letter follows, and it is an s
  match w, hw, hlen with
  | [], _, _ => exact ⟨"http", by simp, hafter⟩
  | [c], hw, _ =>
    obtain rfl : c = 's' := by simpa using hw c List.mem_cons_self
    exact ⟨"https", by simp, hafter⟩
  | _ :: _ :: w, _, hlen => simp [Pattern.optional] at hlen

theorem site_ways {subdomains : List String} (h : t ∈ (site subdomains).ways bound s) :
    ∃ sub ∈ "" :: subdomains, s.after = sub.toList ++ ("youtube.com/".toList ++ t.after) := by
  obtain ⟨m, hsub, hsite⟩ := List.mem_flatMap.mp h
  rw [← (mem_ways_literal.mp hsite).after_eq]
  rcases mem_ways_opt.mp hsub with hsub | rfl
  · obtain ⟨p, hp, hreads⟩ := mem_ways_anyOf.mp hsub
    obtain ⟨sub, hmem, rfl⟩ := List.mem_map.mp hp
    exact ⟨sub, List.mem_cons_of_mem _ hmem, (mem_ways_literal.mp hreads).after_eq⟩
  · exact ⟨"", List.mem_cons_self, rfl⟩

theorem onSite_ways {subdomains : List String} {path target : String} {rest : Pattern}
    (hsub : ∀ sub ∈ "" :: subdomains, sub ++ "youtube.com" ∈ siteHosts)
    (h : t ∈ (Form.onSite subdomains path rest target).lead.ways bound s) :
    s.before = [] ∧ ∃ host ∈ siteHosts, OnHost host s.after := by
  obtain ⟨m, hscheme, h⟩ := mem_ways_cons.mp h
  obtain ⟨m', hsite, -⟩ := mem_ways_cons.mp h
  obtain ⟨hbefore, front, hfront, hafter⟩ := scheme_ways hscheme
  obtain ⟨sub, hmem, hafter'⟩ := site_ways hsite
  refine ⟨hbefore, sub ++ "youtube.com", hsub sub hmem, front, hfront, m'.after, ?_⟩
  rw [hafter, hafter', String.toList_append, List.append_assoc]
  rfl

/-- **Every lead says which host the link has.** -/
theorem lead_ways {f : Form} (hf : f ∈ forms) (h : t ∈ f.lead.ways bound s) :
    s.before = [] ∧ ∃ host ∈ siteHosts, OnHost host s.after := by
  simp only [forms, List.mem_cons, List.not_mem_nil, or_false] at hf
  rcases hf with rfl | rfl | rfl | rfl | rfl | rfl | rfl | rfl | rfl | rfl
  case inr.inl =>
    obtain ⟨m, hscheme, hhost⟩ := List.mem_flatMap.mp h
    obtain ⟨hbefore, front, hfront, hafter⟩ := scheme_ways hscheme
    refine ⟨hbefore, "youtu.be", by decide, front, hfront, t.after, ?_⟩
    rw [hafter, (mem_ways_literal.mp hhost).after_eq]
    rfl
  all_goals exact onSite_ways (by decide) h

theorem isRecognised_onHost {url : List Char} (h : isRecognised url = true) :
    ∃ host ∈ siteHosts, OnHost host url := by
  obtain ⟨f, hf, hoccurs⟩ := List.any_eq_true.mp h
  obtain ⟨front, rest, t, rfl, hways⟩ := search?_isSome_iff.mp hoccurs
  obtain ⟨hbefore, hhost⟩ := lead_ways hf hways
  obtain rfl : front = [] := List.reverse_eq_nil_iff.mp hbefore
  exact hhost

/-! ## Addresses of instances -/

/-- The address of an instance: a scheme, a host and perhaps a port, and no path. -/
structure Address where
  scheme : List Char
  host : List Char
  port : Option (List Char)
  scheme_plain : ':' ∉ scheme
  host_plain : '/' ∉ host
  port_plain : ∀ p ∈ port, '/' ∉ p

namespace Address

/-- The port as it is written. -/
def portText (a : Address) : List Char := a.port.elim [] (':' :: ·)

/-- The address as it is written. -/
def text (a : Address) : List Char := a.scheme ++ "://".toList ++ a.host ++ a.portText

/-- No path begins inside an address. -/
theorem address_plain (a : Address) : '/' ∉ a.host ++ a.portText := by
  rw [List.mem_append, not_or]
  refine ⟨a.host_plain, ?_⟩
  rw [portText]
  rcases hport : a.port with _ | p
  · exact List.not_mem_nil
  · have hp := a.port_plain p (by rw [hport]; rfl)
    simpa using hp

/-- A port is told from a host by its colon. -/
theorem host_eq {a : Address} {host : List Char} (hhost : ':' ∉ host)
    (h : a.host ++ a.portText = host) : a.host = host := by
  rw [portText] at h
  rcases hport : a.port with _ | p
  · rw [hport, Option.elim_none, List.append_nil] at h
    exact h
  · rw [hport, Option.elim_some] at h
    exact absurd (by rw [← h]; simp) hhost

end Address

/-! ## Rewriting once -/

/-- **A page of an instance elsewhere is not recognised.** -/
theorem page_unrecognised {a : Address} (ha : a.host ∉ siteHosts.map String.toList) {f : Form}
    (hf : f ∈ forms) (id : List Char) : isRecognised (a.text ++ f.target.toList ++ id) = false := by
  rw [← Bool.not_eq_true]
  intro hrecognised
  obtain ⟨host, hhost, front, hfront, rest, heq⟩ := isRecognised_onHost hrecognised
  have hfronts : ∀ front ∈ ["http", "https"], ':' ∉ front.toList := by decide
  have hhosts : ∀ host ∈ siteHosts, '/' ∉ host.toList ∧ ':' ∉ host.toList := by decide
  have htargets : ∀ f ∈ forms, ∃ path, f.target.toList = '/' :: path := by
    simp [forms, Form.onSite]
  obtain ⟨path, hpath⟩ := htargets f hf
  -- the scheme ends at the first colon, the host with its port at the third slash
  have hpage : a.scheme ++ ':' :: ("//".toList ++ ((a.host ++ a.portText) ++ '/' :: (path ++ id))) =
      front.toList ++ ':' :: ("//".toList ++ (host.toList ++ '/' :: rest)) := by
    rw [hpath, Address.text] at heq
    simpa using heq
  have hbehind := (append_sep_inj a.scheme_plain (hfronts front hfront) hpage).2
  have hsite := (append_sep_inj a.address_plain (hhosts host hhost).1
    (List.append_cancel_left hbehind)).1
  refine ha (List.mem_map.mpr ⟨host, hhost, ?_⟩)
  exact (a.host_eq (hhosts host hhost).2 hsite).symm

/-- **Only recognised links are rewritten, and only once**, for every instance whose host is not one
    of the video site. -/
theorem onInstance_recognised_once (url : List Char) :
    (∀ instanceUrl, isRecognised url = false → onInstance url instanceUrl = url) ∧
      ∀ a : Address, a.host ∉ siteHosts.map String.toList →
        onInstance (onInstance url a.text) a.text = onInstance url a.text := by
  constructor
  · intro instanceUrl h
    exact onInstance_unrecognised h instanceUrl
  · intro a ha
    rcases onInstance_cases url a.text with hsame | ⟨f, hf, id, hpage⟩
    · rw [hsame, hsame]
    · rw [hpage]
      exact onInstance_unrecognised (page_unrecognised ha hf id) a.text

/-- An instance on a port of its own. -/
def sampleInstance : Address where
  scheme := "https".toList
  host := "yewtu.be".toList
  port := some "3000".toList
  scheme_plain := by decide
  host_plain := by decide
  port_plain := by decide

theorem onInstance_recognised_once_sample :
    isRecognised "https://example.org/watch?v=abc123".toList = false ∧
      onInstance "https://example.org/watch?v=abc123".toList sampleInstance.text =
        "https://example.org/watch?v=abc123".toList ∧
    sampleInstance.host ∉ siteHosts.map String.toList ∧
      onInstance "https://m.youtube.com/watch?v=https://youtu.be/abc123".toList
          sampleInstance.text =
        "https://yewtu.be:3000/watch?v=https://youtu.be/abc123".toList ∧
      onInstance "https://yewtu.be:3000/watch?v=https://youtu.be/abc123".toList
          sampleInstance.text =
        "https://yewtu.be:3000/watch?v=https://youtu.be/abc123".toList := by
  have hother : isRecognised "https://example.org/watch?v=abc123".toList = false := by
    decide +kernel
  have helsewhere : sampleInstance.host ∉ siteHosts.map String.toList := by decide
  have hpage : onInstance "https://m.youtube.com/watch?v=https://youtu.be/abc123".toList
      sampleInstance.text = "https://yewtu.be:3000/watch?v=https://youtu.be/abc123".toList := by
    decide +kernel
  have honce := (onInstance_recognised_once
    "https://m.youtube.com/watch?v=https://youtu.be/abc123".toList).2 sampleInstance helsewhere
  rw [hpage] at honce
  have hsame := (onInstance_recognised_once
    "https://example.org/watch?v=abc123".toList).1 sampleInstance.text hother
  exact ⟨hother, hsame, helsewhere, hpage, honce⟩

/-- On a host of the video site, a page is recognised again, and rewriting does not come to rest. -/
example :
    onInstance "https://youtu.be/abc123".toList "https://youtu.be".toList =
        "https://youtu.be/watch?v=abc123".toList ∧
      onInstance "https://youtu.be/watch?v=abc123".toList "https://youtu.be".toList =
        "https://youtu.be/watch?v=watch".toList := by
  decide +kernel

end StreamResolver.Link
