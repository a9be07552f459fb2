/-
  What is read in a notebook.

  A loop is given a new notebook (`watched`), and what its fetcher is asked for and gives from then
  on are the notes of the run.  Such notes tell where things come from:

    * a script is read in them (`Script.ReadIn`) if the watch page was asked for and came, the
      script that it names was asked for and came, and all this stands there in this order;
    * symbols, tables and transforms are made in them if they are what such a script gives;
    * a caller gets what is in them if its reply is such a script, or is decoded by nothing but such
      transforms (`ReplyIn`).

  All of this stays true when more is written, which is what the `mono` lemmas say.
-/
import StreamResolver.Proofs.Cipher.Callers
import StreamResolver.Proofs.Cipher.Deciphering
import StreamResolver.Proofs.Cipher.Fetches

namespace StreamResolver.Cipher

variable {σ : Type} {settings : Settings} {ns ns' : List Note}

/-! ## The notes of a run -/

namespace EventLoop

/-- The loop with a new notebook. -/
def watched (l : EventLoop σ) : EventLoop (Noted σ) := l.mapWorld fun w => ⟨w, []⟩

/-- What is asked for and got during a run. -/
def notes (settings : Settings) (f : Fetcher σ) (ds : List (Deed σ)) (l : EventLoop σ) :
    List Note :=
  (run settings f.noting (ds.map Deed.noted) l.watched).session.world.notes

/-- The run of which notes are taken is this one. -/
theorem run_watched (settings : Settings) (f : Fetcher σ) (ds : List (Deed σ)) (l : EventLoop σ) :
    run settings f ds l =
      (run settings f.noting (ds.map Deed.noted) l.watched).mapWorld Noted.world :=
  run_noting ds l.watched

end EventLoop

open EventLoop

theorem asked_append (ns ns' : List Note) : asked (ns ++ ns') = asked ns ++ asked ns' :=
  List.filterMap_append

theorem mem_asked {url : String} (h : .asked url ∈ ns) : url ∈ asked ns :=
  List.mem_filterMap.mpr ⟨_, h, rfl⟩

theorem asked_mono {url : String} (h : ns.Sublist ns') (hurl : url ∈ asked ns) : url ∈ asked ns' :=
  (h.filterMap _).subset hurl

/-- Whatever is asked for, the watch page is asked for first. -/
def BeginsWithPage (settings : Settings) (ns : List Note) : Prop :=
  ∀ url, (asked ns).head? = some url → url = settings.watchUrl

theorem BeginsWithPage.append (h : BeginsWithPage settings ns)
    (hnew : settings.watchUrl ∈ asked ns ∨ BeginsWithPage settings ns') :
    BeginsWithPage settings (ns ++ ns') := by
  intro url hurl
  rw [asked_append] at hurl
  rcases hasked : asked ns with _ | ⟨first, rest⟩
  · rw [hasked, List.nil_append] at hurl
    rcases hnew with hmem | hbegins
    · simp [hasked] at hmem
    · exact hbegins url hurl
  · refine h url ?_
    rw [hasked] at hurl ⊢
    exact hurl

/-! ## Readings and scripts -/

/-- The notes of this reading are among the notes. -/
def Reading.TracedIn (settings : Settings) (ns : List Note) (r : Reading) : Prop :=
  ∃ own, Fits settings (some (.reading r)) own ∧ own.Sublist ns

/-- The script was asked for because a page that was asked for before named it, and it came. -/
def Script.ReadIn (settings : Settings) (ns : List Note) (s : Script) : Prop :=
  ∃ own, Fits settings (some (.reading (.source s.url))) own ∧
    (own ++ [Note.got s.url (.ok s.source)]).Sublist ns

theorem Reading.TracedIn.mono {r : Reading} (hns : ns.Sublist ns') (h : r.TracedIn settings ns) :
    r.TracedIn settings ns' := by
  obtain ⟨own, hfits, hown⟩ := h
  exact ⟨own, hfits, hown.trans hns⟩

theorem Script.ReadIn.mono {s : Script} (hns : ns.Sublist ns') (h : s.ReadIn settings ns) :
    s.ReadIn settings ns' := by
  obtain ⟨own, hfits, hown⟩ := h
  exact ⟨own, hfits, hown.trans hns⟩

/-- Whoever reads has asked for the watch page. -/
theorem Reading.TracedIn.page_asked {r : Reading} (h : r.TracedIn settings ns) :
    settings.watchUrl ∈ asked ns := by
  obtain ⟨own, hfits, hown⟩ := h
  have hmem : .asked settings.watchUrl ∈ own := by
    cases r with
    | page =>
      rw [show own = [.asked settings.watchUrl] from hfits]
      simp
    | source url =>
      obtain ⟨page, -, rfl⟩ := hfits
      simp
  exact mem_asked (hown.subset hmem)

theorem Script.ReadIn.page_asked {s : Script} (h : s.ReadIn settings ns) :
    settings.watchUrl ∈ asked ns := by
  obtain ⟨own, hfits, hown⟩ := h
  exact Reading.TracedIn.page_asked
    ⟨own, hfits, (List.sublist_append_left own _).trans hown⟩

theorem tracedIn_page (settings : Settings) (ns : List Note) :
    Reading.page.TracedIn settings (ns ++ [.asked settings.watchUrl]) :=
  ⟨[.asked settings.watchUrl], rfl, List.sublist_append_right ns _⟩

theorem Reading.TracedIn.source {page url : String} (h : Reading.page.TracedIn settings ns)
    (hurl : (scriptUrl settings page).value = .ok url) :
    (Reading.source url).TracedIn settings
      (ns ++ [.got settings.watchUrl (.ok page), .asked url]) := by
  obtain ⟨own, hfits, hown⟩ := h
  refine ⟨own ++ [.got settings.watchUrl (.ok page), .asked url], ⟨page, hurl, ?_⟩,
    hown.append_right _⟩
  rw [show own = [.asked settings.watchUrl] from hfits]
  rfl

theorem Reading.TracedIn.script {url : String} (h : (Reading.source url).TracedIn settings ns)
    (source : String) : Script.ReadIn settings (ns ++ [.got url (.ok source)]) ⟨url, source⟩ := by
  obtain ⟨own, hfits, hown⟩ := h
  exact ⟨own, hfits, hown.append_right _⟩

/-! ## What scripts give -/

/-- What a script gives that was read. -/
def Build.MadeIn (settings : Settings) (ns : List Note) (b : Build) : Prop :=
  ∃ s : Script, s.ReadIn settings ns ∧ (buildFrom settings.patterns s).value = .ok b

/-- The transform of a script that was read. -/
def Transform.MadeIn (settings : Settings) (ns : List Note) (t : Transform) : Prop :=
  ∃ b : Build, b.MadeIn settings ns ∧ b.transform = t

/-- What is kept was read, or made from a script that was read. -/
structure Cache.MadeIn (settings : Settings) (ns : List Note) (c : Cache) : Prop where
  script : ∀ s, c.script = some s → s.ReadIn settings ns
  build : (c.symbols = none ∧ c.table = none ∧ c.transform = none) ∨
    ∃ b : Build, b.MadeIn settings ns ∧ c.symbols = some b.symbols ∧ c.table = some b.table ∧
      c.transform = some b.transform

/-- The outcome of a build: a transform that was made, or a failure for which the watch page was
    asked for, unless the build was cancelled. -/
def OutcomeIn (settings : Settings) (ns : List Note) : Except Failure Transform → Prop
  | .ok t => t.MadeIn settings ns
  | .error e => e = cancellation ∨ settings.watchUrl ∈ asked ns

/-- How a call may end: with what it gives without script and transform, with a script that was
    read, with a reply decoded by transforms that were made, or with a failure. -/
inductive ReplyIn (settings : Settings) (ns : List Note) (call : Call) :
    Except Failure Reply → Prop where
  | plain {r : Except Failure Reply} (h : call.plain? settings = some r) :
      ReplyIn settings ns call r
  | script {s : Script} (hcall : call = .script) (h : s.ReadIn settings ns) :
      ReplyIn settings ns call (.ok (.script s))
  | decoded {d : Demand} {reply : Reply} (hd : call.demand? settings = some d)
      (h : d.YieldsFrom settings.param.toList (Transform.MadeIn settings ns) reply) :
      ReplyIn settings ns call (.ok reply)
  | fails {e : Failure} (h : settings.watchUrl ∈ asked ns) : ReplyIn settings ns call (.error e)
  | cancelled : ReplyIn settings ns call (.error cancellation)

theorem Build.MadeIn.mono {b : Build} (hns : ns.Sublist ns') (h : b.MadeIn settings ns) :
    b.MadeIn settings ns' := by
  obtain ⟨s, hs, hb⟩ := h
  exact ⟨s, hs.mono hns, hb⟩

theorem Transform.MadeIn.mono {t : Transform} (hns : ns.Sublist ns') (h : t.MadeIn settings ns) :
    t.MadeIn settings ns' := by
  obtain ⟨b, hb, ht⟩ := h
  exact ⟨b, hb.mono hns, ht⟩

theorem Cache.MadeIn.mono {c : Cache} (hns : ns.Sublist ns') (h : c.MadeIn settings ns) :
    c.MadeIn settings ns' where
  script s hs := (h.script s hs).mono hns
  build := by
    rcases h.build with hnone | ⟨b, hb, hpieces⟩
    · exact .inl hnone
    · exact .inr ⟨b, hb.mono hns, hpieces⟩

theorem OutcomeIn.mono {o : Except Failure Transform} (hns : ns.Sublist ns')
    (h : OutcomeIn settings ns o) : OutcomeIn settings ns' o := by
  cases o with
  | ok t => exact Transform.MadeIn.mono hns h
  | error e => exact Or.imp_right (asked_mono hns) h

theorem ReplyIn.mono {call : Call} {r : Except Failure Reply} (hns : ns.Sublist ns')
    (h : ReplyIn settings ns call r) : ReplyIn settings ns' call r := by
  cases h with
  | plain h => exact .plain h
  | script hcall h => exact .script hcall (h.mono hns)
  | decoded hd h => exact .decoded hd (h.mono fun _ => Transform.MadeIn.mono hns)
  | fails h => exact .fails (asked_mono hns h)
  | cancelled => exact .cancelled

/-- A call that needs the script or the transform does not end before the watch page is asked for,
    unless it is cancelled. -/
theorem ReplyIn.page_asked {call : Call} {r : Except Failure Reply} (h : ReplyIn settings ns call r)
    (hneeds : call.plain? settings = none) (hr : r ≠ .error cancellation) :
    settings.watchUrl ∈ asked ns := by
  cases h with
  | plain h => simp [hneeds] at h
  | script _ h => exact h.page_asked
  | decoded _ h =>
    obtain ⟨_, _, _, ⟨_, ⟨_, hread, _⟩, _⟩, _⟩ := h
    exact hread.page_asked
  | fails h => exact h
  | cancelled => exact absurd rfl hr

/-! ## What is kept -/

namespace Cache

theorem madeIn_empty (settings : Settings) (ns : List Note) : MadeIn settings ns {} where
  script s hs := by simp at hs
  build := .inl ⟨rfl, rfl, rfl⟩

theorem MadeIn.withScript {c : Cache} (h : c.MadeIn settings ns) {s : Script}
    (hs : s.ReadIn settings ns) : (c.withScript s).MadeIn settings ns where
  script s' hs' := by
    obtain rfl : s = s' := Option.some.inj hs'
    exact hs
  build := h.build

/-- A build keeps its script and all that the script gives. -/
theorem madeIn_build {s : Script} (hs : s.ReadIn settings ns) {b : Build}
    (hb : (buildFrom settings.patterns s).value = .ok b) :
    MadeIn settings ns ⟨some s, some b.symbols, some b.table, some b.transform⟩ where
  script s' hs' := by
    obtain rfl : s = s' := Option.some.inj hs'
    exact hs
  build := .inr ⟨b, ⟨s, hs, hb⟩, rfl, rfl, rfl⟩

theorem MadeIn.transform {c : Cache} (h : c.MadeIn settings ns) {t : Transform}
    (ht : c.transform = some t) : t.MadeIn settings ns := by
  rcases h.build with ⟨-, -, hnone⟩ | ⟨b, hb, -, -, hsome⟩
  · simp [hnone] at ht
  · exact ⟨b, hb, Option.some.inj (hsome.symm.trans ht)⟩

/-- Nothing is made of nothing. -/
theorem MadeIn.empty {c : Cache} (h : c.MadeIn settings []) : c = {} := by
  have hnone : ∀ s : Script, ¬ s.ReadIn settings [] := by
    intro s hs
    have hasked := hs.page_asked
    simp [asked] at hasked
  obtain ⟨script, symbols, table, transform⟩ := c
  rcases h.build with ⟨hsymbols, htable, htransform⟩ | ⟨b, ⟨s, hs, -⟩, -⟩
  · cases script with
    | none =>
      obtain rfl : symbols = none := hsymbols
      obtain rfl : table = none := htable
      obtain rfl : transform = none := htransform
      rfl
    | some s => exact absurd (h.script s rfl) (hnone s)
  · exact absurd hs (hnone s)

end Cache

end StreamResolver.Cipher
