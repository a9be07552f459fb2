/-
  The texts that a build reads.

  A world is given a notebook in which the fetcher writes what it is asked for and what it gives
  (`Fetcher.noting`).  The run stays the same (`run_noting`), and the diary of a run tells for each
  deed which turn it took and what was written during it.

    * Only the turns of builds write anything.
    * What a build asks for is a beginning of: the watch page, the script that the page names.

  The second statement is an invariant between how far a build is and what its turns have written
  (`Fits`): a build that reads the page has asked for the page, a build that reads the script has
  asked for the page, got it, and asked for the script that it names.
-/
import StreamResolver.Proofs.Cipher.Frame
import StreamResolver.Proofs.Cipher.World

namespace StreamResolver.Cipher

variable {σ : Type}

/-- Something that happened to a fetcher. -/
inductive Note where
  | asked (url : String)
  | got (url : String) (text : Except Failure String)

/-- A world with a notebook. -/
structure Noted (σ : Type) where
  world : σ
  notes : List Note := []

/-- A fetcher that writes down what it is asked for and what it gives. -/
def Fetcher.noting (f : Fetcher σ) : Fetcher (Noted σ) where
  request url w := ⟨f.request url w.world, w.notes ++ [.asked url]⟩
  deliver url w :=
    let o := f.deliver url w.world
    ⟨o.result, ⟨o.state, w.notes ++ [.got url o.result]⟩, o.events⟩

/-- A deed that leaves the notebook alone. -/
def Deed.noted : Deed σ → Deed (Noted σ)
  | .start call => .start call
  | .startAtOnce call => .startAtOnce call
  | .cancel i => .cancel i
  | .reset => .reset
  | .change g => .change fun w => { w with world := g w.world }
  | .turn => .turn

theorem Deed.noted_shares {d : Deed σ} (h : d.Shares) : d.noted.Shares := by cases d <;> exact h

theorem Fetcher.noting_mirrors (f : Fetcher σ) : f.noting.Mirrors f Noted.world where
  request _ _ := rfl
  deliver _ _ := rfl

/-- What a fetcher gives is written down. -/
theorem Fetcher.noting_notes (f : Fetcher σ) (url : String) (w : Noted σ) :
    (f.noting.deliver url w).state.notes =
      w.notes ++ [.got url (f.noting.deliver url w).result] := rfl

theorem Fetcher.noting_deliver {f : Fetcher σ} {url : String} {w w' : Noted σ}
    {r : Except Failure String} {events : List Event}
    (h : f.noting.deliver url w = ⟨r, w', events⟩) : w'.notes = w.notes ++ [.got url r] := by
  have hnotes := f.noting_notes url w
  rwa [h] at hnotes

/-- What was asked for, in order. -/
def asked (notes : List Note) : List String :=
  notes.filterMap fun
    | .asked url => some url
    | .got _ _ => none

/-- The script that the first page that was got names. -/
def located? (settings : Settings) (notes : List Note) : Option String :=
  notes.findSome? fun
    | .got _ (.ok page) => (scriptUrl settings page).value.toOption
    | _ => none

namespace EventLoop

variable {settings : Settings} {f : Fetcher σ}

/-- For each deed of a run the turn that it takes, if it takes one, and what is written during
    it. -/
def diary (settings : Settings) (f : Fetcher σ) :
    List (Deed σ) → EventLoop (Noted σ) → List (Option Turn × List Note)
  | [], _ => []
  | d :: ds, l =>
    let l' := perform settings f.noting l d.noted
    (l.turnTaken? d.noted, l'.session.world.notes.drop l.session.world.notes.length) ::
      diary settings f ds l'

/-- What is written during the turns of a build. -/
def notesOf (i : Nat) (entries : List (Option Turn × List Note)) : List Note :=
  (entries.filter fun entry => entry.1 = some (.build i)).flatMap (·.2)

/-- A run of the noting fetcher is the run of the fetcher. -/
theorem run_noting (ds : List (Deed σ)) (l : EventLoop (Noted σ)) :
    run settings f ds (l.mapWorld Noted.world) =
      (run settings f.noting (ds.map Deed.noted) l).mapWorld Noted.world :=
  run_mapWorld f.noting_mirrors (fun d => by cases d <;> simp [Deed.noted, Deed.Mirrors]) ds l

/-! ## Stages and notes -/

/-- Whether the notes of a build are those that a build of this stage has. -/
def Fits (settings : Settings) : Option BuildStage → List Note → Prop
  | none, ns | some .unstarted, ns => ns = []
  | some (.reading .page), ns => ns = [.asked settings.watchUrl]
  | some (.reading (.source url)), ns =>
    ∃ page, (scriptUrl settings page).value = .ok url ∧
      ns = [.asked settings.watchUrl, .got settings.watchUrl (.ok page), .asked url]
  | some (.ended _), ns => asked ns <+: settings.watchUrl :: (located? settings ns).toList

/-- At every stage the URLs asked for are a beginning of the two. -/
theorem Fits.asked_begins {stage : Option BuildStage} {ns : List Note}
    (h : Fits settings stage ns) :
    asked ns <+: settings.watchUrl :: (located? settings ns).toList := by
  rcases stage with _ | _ | (_ | url) | o
  · rw [show ns = [] from h]
    exact List.nil_prefix
  · rw [show ns = [] from h]
    exact List.nil_prefix
  · rw [show ns = [.asked settings.watchUrl] from h]
    exact List.prefix_append [settings.watchUrl] _
  · obtain ⟨page, hurl, rfl⟩ := h
    simp [asked, located?, hurl, Except.toOption]
  · exact h

/-- A build that reads may end when it gets an answer, whatever the answer is. -/
theorem Fits.got {r : Reading} {ns : List Note} (h : Fits settings (some (.reading r)) ns)
    (o : Except Failure Transform) (text : Except Failure String) :
    Fits settings (some (.ended o)) (ns ++ [.got (r.url settings) text]) := by
  cases r with
  | page =>
    rw [show ns = [.asked settings.watchUrl] from h]
    exact List.prefix_append [settings.watchUrl] _
  | source url =>
    obtain ⟨page, hurl, rfl⟩ := h
    show asked _ <+: _
    simp [asked, located?, hurl, Except.toOption]

/-- **A build's turn**: what it writes fits the stage that it reaches. -/
theorem BuildTurn.fits {i : Nat} {l l' : EventLoop (Noted σ)} {b : SharedBuild} {ns : List Note}
    (h : BuildTurn settings f.noting i l b l') (hb : l.builds[i]? = some b)
    (hempty : l.session.cache = {}) (hns : Fits settings (some b.stage) ns) :
    ∃ new, l'.session.world.notes = l.session.world.notes ++ new ∧
      Fits settings (l'.buildStage? i) (ns ++ new) := by
  cases h with
  | neverStarts hs _ =>
    refine ⟨[], by simp [endBuild, enqueue, setBuild], ?_⟩
    simpa [buildStage?, endBuild, enqueue, setBuild, hb, Fits] using hns.asked_begins
  | givesUp r events hs _ =>
    refine ⟨[], by simp [endBuild, enqueue, setBuild, Session.clear], ?_⟩
    simpa [buildStage?, endBuild, enqueue, setBuild, hb, Fits] using hns.asked_begins
  | asksForPage events hs _ _ =>
    refine ⟨[.asked settings.watchUrl], rfl, ?_⟩
    rw [hs] at hns
    simpa [buildStage?, enqueue, setBuild, hb, Fits] using hns
  | asksForSource page url w events events' hs _ hpage hurl =>
    -- the page that came is on the page of the notebook where it is asked for the script
    have hw := Fetcher.noting_deliver hpage
    refine ⟨[.got settings.watchUrl (.ok page), .asked url], ?_, ?_⟩
    · simp [enqueue, setBuild, Fetcher.noting, hw]
    · rw [hs] at hns
      rw [show ns = [.asked settings.watchUrl] from hns]
      simpa [buildStage?, enqueue, setBuild, hb, Fits] using hurl
  | succeeds script build w events _ hscript _ =>
    rcases hscript with ⟨-, hkept, -⟩ | ⟨hs, -, hw⟩
    · rw [hempty] at hkept
      simp at hkept
    · refine ⟨[.got script.url (f.deliver script.url l.session.world.world).result], ?_, ?_⟩
      · simp [endBuild, enqueue, setBuild, hw, Fetcher.noting]
      · rw [hs] at hns
        simpa [buildStage?, endBuild, enqueue, setBuild, hb, Reading.url] using hns.got _ _
  | fails e w events _ hw =>
    rcases hw with ⟨hs, -, hw⟩ | ⟨r, hs, hw⟩
    · refine ⟨[], by simp [endBuild, enqueue, setBuild, hw], ?_⟩
      simpa [buildStage?, endBuild, enqueue, setBuild, hb, Fits] using hns.asked_begins
    · refine ⟨[.got (r.url settings) (f.deliver (r.url settings) l.session.world.world).result],
        ?_, ?_⟩
      · simp [endBuild, enqueue, setBuild, hw, Fetcher.noting]
      · rw [hs] at hns
        simpa [buildStage?, endBuild, enqueue, setBuild, hb] using hns.got _ _

/-! ## The diary of a run -/

theorem notesOf_cons (i : Nat) (taken : Option Turn) (new : List Note)
    (entries : List (Option Turn × List Note)) :
    notesOf i ((taken, new) :: entries) =
      (if taken = some (.build i) then new else []) ++ notesOf i entries := by
  unfold notesOf
  by_cases h : taken = some (.build i) <;> simp [h]

/-- A deed that is not a build's turn writes nothing. -/
theorem notes_onSession (d : Deed σ) (s : Session (Noted σ)) :
    (d.noted.onSession s).world.notes = s.world.notes := by
  cases d <;> rfl

/-- One deed: what is written is written by a build, and fits the stage that it reaches. -/
theorem perform_fits {l : EventLoop (Noted σ)} (h : InOrder settings l) {d : Deed σ}
    (hd : d.Shares) {past : Nat → List Note}
    (hpast : ∀ i, Fits settings (l.buildStage? i) (past i)) :
    let l' := perform settings f.noting l d.noted
    let new := l'.session.world.notes.drop l.session.world.notes.length
    (new ≠ [] → ∃ i, l.turnTaken? d.noted = some (.build i)) ∧
      ∀ i, Fits settings (l'.buildStage? i)
        (past i ++ if l.turnTaken? d.noted = some (.build i) then new else []) := by
  intro l' new
  rcases perform_cases settings f.noting h (Deed.noted_shares hd) with
    ⟨i, rest, b, hturn, hq, hb, ho, hbuild⟩ | ⟨hother, hkept, hsession⟩
  · have htaken : l.turnTaken? d.noted = some (.build i) := by
      rw [hturn]
      simp [turnTaken?, hq]
    have hstage : l.buildStage? i = some b.stage := by simp [buildStage?, hb]
    obtain ⟨added, hadded, hfits⟩ := hbuild.fits hb (h.pending_empty i ⟨b, hb, ho⟩)
      (by rw [← hstage]; exact hpast i)
    have hnew : new = added := by
      show l'.session.world.notes.drop _ = added
      rw [hadded]
      exact List.drop_left
    obtain ⟨-, -, -, hothers⟩ := hbuild.stages hb
    refine ⟨fun _ => ⟨i, htaken⟩, fun j => ?_⟩
    by_cases hji : j = i
    · rw [hji, if_pos htaken, hnew]
      exact hfits
    · have hne : ¬ l.turnTaken? d.noted = some (.build j) := by
        rw [htaken]
        simpa using fun hij => hji hij.symm
      rw [if_neg hne, List.append_nil, hothers j hji]
      exact hpast j
  · have hnew : new = [] := by
      show l'.session.world.notes.drop _ = []
      rw [hsession, notes_onSession, List.drop_length]
    refine ⟨fun hne => absurd hnew hne, fun i => ?_⟩
    rw [if_neg (hother i), List.append_nil]
    rcases hkept i with heq | ⟨hnone, hunstarted, -⟩
    · rw [heq]
      exact hpast i
    · have hfits := hpast i
      rw [hnone] at hfits
      rw [hunstarted]
      exact hfits

/-- **Diary of a deed to diary of a run.**  What every deed keeps of the loop and of what each build
    has written so far, a run keeps. -/
theorem diary_rule {P : EventLoop (Noted σ) → (Nat → List Note) → Prop}
    (hstep : ∀ l (d : Deed σ) past, P l past → d.Shares →
      P (perform settings f.noting l d.noted) fun i =>
        past i ++ if l.turnTaken? d.noted = some (.build i) then
          (perform settings f.noting l d.noted).session.world.notes.drop
            l.session.world.notes.length else [])
    {ds : List (Deed σ)} (hds : ∀ d ∈ ds, d.Shares) {l : EventLoop (Noted σ)}
    {past : Nat → List Note} (h : P l past) :
    P (run settings f.noting (ds.map Deed.noted) l) fun i =>
      past i ++ notesOf i (diary settings f ds l) := by
  induction ds generalizing l past with
  | nil => simpa [diary, notesOf] using h
  | cons d ds ih =>
    have hrest := ih (fun e he => hds e (List.mem_cons_of_mem d he))
      (hstep l d past h (hds d List.mem_cons_self))
    simp only [List.append_assoc, ← notesOf_cons] at hrest
    exact hrest

/-- **The diary of a run**: only builds write, and what each has written fits its stage. -/
theorem diary_fits {ds : List (Deed σ)} (hds : ∀ d ∈ ds, d.Shares) {l : EventLoop (Noted σ)}
    (h : InOrder settings l) {past : Nat → List Note}
    (hpast : ∀ i, Fits settings (l.buildStage? i) (past i)) :
    (∀ entry ∈ diary settings f ds l, entry.2 ≠ [] → ∃ i, entry.1 = some (.build i)) ∧
      ∀ i, Fits settings ((run settings f.noting (ds.map Deed.noted) l).buildStage? i)
        (past i ++ notesOf i (diary settings f ds l)) := by
  refine ⟨?writes, ?fits⟩
  case writes =>
    induction ds generalizing l past with
    | nil => simp [diary]
    | cons d ds ih =>
      have hd : d.Shares := hds d List.mem_cons_self
      obtain ⟨hbuild, hstep⟩ := perform_fits (f := f) h hd hpast
      intro entry hentry
      rcases List.mem_cons.mp hentry with rfl | hentry
      · exact hbuild
      · exact ih (fun e he => hds e (List.mem_cons_of_mem d he)) (h.perform (Deed.noted_shares hd))
          hstep entry hentry
  case fits =>
    exact (diary_rule (P := fun l past => InOrder settings l ∧
        ∀ i, Fits settings (l.buildStage? i) (past i))
      (fun _ _ _ hl hd => ⟨hl.1.perform (Deed.noted_shares hd), (perform_fits hl.1 hd hl.2).2⟩)
      hds ⟨h, hpast⟩).2

/-- Nothing is written before a run. -/
theorem fits_fresh (world : σ) (i : Nat) :
    Fits settings ((fresh (⟨world, []⟩ : Noted σ)).buildStage? i) [] := by
  simp [buildStage?, fresh, Fits]

end EventLoop

end StreamResolver.Cipher
