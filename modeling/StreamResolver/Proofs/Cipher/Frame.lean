/-
  What a deed leaves alone.

  A deed is the turn of a build that has not ended, or it is quiet (`perform_cases`).  A quiet deed
  takes no build further: it may add a build that has not started, and only while nothing is ready.
  All it does to the session is what the deed itself says, a reset or a change of the world
  (`Deed.onSession`); no text is asked for and nothing is kept by it.

  So whatever is said of the texts that a build reads and of the pieces that are kept only has to be
  proved of the six things that a build's turn can do.
-/
import StreamResolver.Proofs.Cipher.Order

namespace StreamResolver.Cipher

/-- What a deed itself does to the session. -/
def Deed.onSession {σ : Type} : Deed σ → Session σ → Session σ
  | .reset, s => s.clear
  | .change g, s => { s with world := g s.world }
  | _, s => s

/-- How many turns a build of this stage has at most. -/
def BuildStage.turnsLeft : BuildStage → Nat
  | .unstarted => 3
  | .reading .page => 2
  | .reading (.source _) => 1
  | .ended _ => 0

theorem BuildStage.turnsLeft_le (s : BuildStage) : s.turnsLeft ≤ turnsLeft .unstarted := by
  rcases s with _ | r | _
  · exact Nat.le_refl _
  · cases r <;> simp [turnsLeft]
  · simp [turnsLeft]

theorem BuildStage.turnsLeft_reading (r : Reading) : 0 < turnsLeft (.reading r) := by
  cases r <;> simp [turnsLeft]

namespace EventLoop

variable {σ : Type} {settings : Settings} {f : Fetcher σ}

/-- How far a build is; nothing for one that does not exist. -/
def buildStage? (l : EventLoop σ) (i : Nat) : Option BuildStage := (l.builds[i]?).map (·.stage)

/-- The outcome of a build that has ended. -/
def outcomeOf? (l : EventLoop σ) (i : Nat) : Option (Except Failure Transform) :=
  (l.builds[i]?).bind SharedBuild.outcome?

/-- The turn that a deed takes. -/
def turnTaken? (l : EventLoop σ) : Deed σ → Option Turn
  | .turn => l.queue.head?
  | _ => none

/-- Builds only come to a loop, and they are as far as they were.  None comes while the transform is
    there. -/
def StagesKept (l l' : EventLoop σ) : Prop :=
  ∀ i, l'.buildStage? i = l.buildStage? i ∨
    (l.buildStage? i = none ∧ l'.buildStage? i = some .unstarted ∧ l.session.isReady = false)

theorem outcomeOf?_eq (l : EventLoop σ) (i : Nat) :
    l.outcomeOf? i = (l.buildStage? i).bind fun
      | .ended o => some o
      | _ => none := by
  unfold outcomeOf? buildStage?
  cases l.builds[i]? with
  | none => rfl
  | some b => rfl

theorem pending_iff {l : EventLoop σ} {i : Nat} :
    l.Pending i ↔ (l.builds[i]?).isSome ∧ l.outcomeOf? i = none := by
  unfold Pending outcomeOf?
  cases l.builds[i]? with
  | none => simp
  | some b => simp

theorem outcomeOf?_of_stagesKept {l l' : EventLoop σ} (h : StagesKept l l') (i : Nat) :
    l'.outcomeOf? i = l.outcomeOf? i := by
  rw [outcomeOf?_eq, outcomeOf?_eq]
  rcases h i with heq | ⟨hnone, hnew, -⟩
  · rw [heq]
  · rw [hnone, hnew]
    rfl

/-- No build comes while the transform is there. -/
theorem length_of_stagesKept {l l' : EventLoop σ} (h : StagesKept l l')
    (hready : l.session.isReady = true) : l'.builds.length = l.builds.length := by
  have hstage : ∀ i, l'.buildStage? i = l.buildStage? i := by
    intro i
    rcases h i with heq | ⟨-, -, hnot⟩
    · exact heq
    · rw [hready] at hnot
      exact absurd hnot (by simp)
  have hiff : ∀ i, l'.builds.length ≤ i ↔ l.builds.length ≤ i := by
    intro i
    have hi := congrArg Option.isNone (hstage i)
    simp only [buildStage?, Option.isNone_map] at hi
    rw [← List.getElem?_eq_none_iff, ← List.getElem?_eq_none_iff, ← Option.isNone_iff_eq_none,
      ← Option.isNone_iff_eq_none, hi]
  have h1 := (hiff l.builds.length).mpr (Nat.le_refl _)
  have h2 := (hiff l'.builds.length).mp (Nat.le_refl _)
  omega

theorem settleTurn_none {i : Nat} {l : EventLoop σ} (h : l.outcomeOf? i = none) :
    l.settleTurn i = l := by
  unfold settleTurn
  unfold outcomeOf? at h
  rcases hb : l.builds[i]? with _ | b
  · rfl
  · rw [hb, Option.bind_some] at h
    simp only [h]

/-! ## Deeds that are not a build's turn -/

theorem stagesKept_of_builds {l l' : EventLoop σ} (h : l'.builds = l.builds) : StagesKept l l' :=
  fun i => .inl (by rw [buildStage?, h, buildStage?])

theorem stagesKept_of_modify {l l' : EventLoop σ} {i : Nat} {g : SharedBuild → SharedBuild}
    (h : l'.builds = l.builds.modify i g) (hg : ∀ b, (g b).stage = b.stage) : StagesKept l l' := by
  intro j
  refine .inl ?_
  rw [buildStage?, h, List.getElem?_modify, buildStage?]
  cases l.builds[j]? with
  | none => rfl
  | some b =>
    by_cases hij : i = j
    · simp [hij, hg]
    · simp [hij]

theorem waitForBuild_quiet (i : Nat) (d : Demand) {l : EventLoop σ} (hnone : l.available? = none) :
    StagesKept l (l.waitForBuild i d) ∧ (l.waitForBuild i d).session = l.session := by
  refine ⟨?_, waitForBuild_session l i d⟩
  rcases hcur : l.current with _ | n
  · rw [waitForBuild_fresh hcur]
    intro j
    simp only [buildStage?, setCaller]
    rcases Nat.lt_trichotomy j l.builds.length with hlt | heq | hgt
    · exact .inl (by rw [List.getElem?_append_left hlt])
    · refine .inr ⟨by simp [heq], by simp [heq], ?_⟩
      unfold Session.isReady
      unfold available? at hnone
      cases ht : l.session.cache.transform with
      | none => rfl
      | some t => simp [ht] at hnone
    · refine .inl ?_
      rw [List.getElem?_eq_none (by simp; omega), List.getElem?_eq_none (by omega)]
  · rw [waitForBuild_current hcur]
    exact stagesKept_of_modify rfl fun _ => rfl

theorem callerTurn_quiet (settings : Settings) (f : Fetcher σ) (i : Nat) {l : EventLoop σ}
    (h : ∀ c ∈ l.callers, c.Shares) :
    StagesKept l (l.callerTurn settings f i) ∧
      (l.callerTurn settings f i).session = l.session := by
  refine callerTurn_rule (P := fun l' => StagesKept l l' ∧ l'.session = l.session) f h ?_ ?_ ?_
  · exact fun _ => ⟨stagesKept_of_builds rfl, rfl⟩
  · exact fun _ _ _ => ⟨stagesKept_of_builds rfl, rfl⟩
  · exact fun _ d _ _ _ hnone => waitForBuild_quiet i d hnone

theorem settleTurn_quiet (i : Nat) (l : EventLoop σ) :
    (l.settleTurn i).builds = l.builds ∧ (l.settleTurn i).session = l.session := by
  rcases hb : l.builds[i]? with _ | b
  · simp [settleTurn, hb]
  rcases ho : b.outcome? with _ | o
  · simp [settleTurn, hb, ho]
  · rw [settleTurn_eq hb ho]
    obtain ⟨hsession, hbuilds, -⟩ := tellAll_frame i o b.waiters
      { l with current := if l.current = some i then none else l.current }
    exact ⟨hbuilds, hsession⟩

theorem cancel_quiet (i : Nat) (l : EventLoop σ) :
    (l.cancel i).builds = l.builds ∧ (l.cancel i).session = l.session := by
  unfold cancel
  split <;> exact ⟨rfl, rfl⟩

/-- A reset leaves callers and turns alone, and of the builds all but whether they are cancelled. -/
theorem reset_frame (l : EventLoop σ) :
    l.reset.callers = l.callers ∧ l.reset.queue = l.queue ∧
      ∀ (i : Nat) (b : SharedBuild), l.builds[i]? = some b → ∃ b' : SharedBuild,
        l.reset.builds[i]? = some b' ∧ b'.waiters = b.waiters ∧ b'.outcome? = b.outcome? := by
  unfold reset
  rcases l.current with _ | n
  · exact ⟨rfl, rfl, fun i b hb => ⟨b, hb, rfl, rfl⟩⟩
  · refine ⟨rfl, rfl, fun i b hb => ?_⟩
    simp only [cancelBuild, List.getElem?_modify, hb]
    by_cases hni : n = i
    · cases ho : b.outcome?.isSome
      · exact ⟨{ b with cancelled := true }, by simp [hni, ho], rfl, rfl⟩
      · exact ⟨b, by simp [hni, ho], rfl, rfl⟩
    · exact ⟨b, by simp [hni], rfl, rfl⟩

theorem length_reset (l : EventLoop σ) : l.reset.builds.length = l.builds.length := by
  rcases hcur : l.current with _ | n
  · rw [reset_none hcur]
  · rw [reset_some hcur, cancelBuild, List.length_modify]

theorem reset_quiet (l : EventLoop σ) :
    StagesKept l l.reset ∧ l.reset.session = l.session.clear := by
  unfold reset
  rcases l.current with _ | n
  · exact ⟨stagesKept_of_builds rfl, rfl⟩
  · refine ⟨stagesKept_of_modify rfl fun b => ?_, rfl⟩
    split <;> rfl

/-- **What a deed can do**: it is the turn of a build that has not ended, or it leaves the builds as
    far as they were and does to the session what the deed says. -/
theorem perform_cases (settings : Settings) (f : Fetcher σ) {l : EventLoop σ}
    (h : InOrder settings l) {d : Deed σ} (hd : d.Shares) :
    (∃ i rest b, d = .turn ∧ l.queue = .build i :: rest ∧ l.builds[i]? = some b ∧
      b.outcome? = none ∧
      BuildTurn settings f i { l with queue := rest } b (perform settings f l d)) ∨
    ((∀ i, l.turnTaken? d ≠ some (.build i)) ∧ StagesKept l (perform settings f l d) ∧
      (perform settings f l d).session = d.onSession l.session) := by
  cases d with
  | start call => exact .inr ⟨by simp [turnTaken?], stagesKept_of_builds rfl, rfl⟩
  | startAtOnce call =>
    exact .inr ⟨by simp [turnTaken?],
      callerTurn_quiet settings f l.callers.length (h.newCaller hd).callers_share⟩
  | cancel i =>
    obtain ⟨hbuilds, hsession⟩ := cancel_quiet i l
    exact .inr ⟨by simp [turnTaken?], stagesKept_of_builds hbuilds, hsession⟩
  | reset => exact .inr ⟨by simp [turnTaken?], reset_quiet l⟩
  | change g => exact .inr ⟨by simp [turnTaken?], stagesKept_of_builds rfl, rfl⟩
  | turn =>
    rcases hq : l.queue with _ | ⟨t, rest⟩
    · rw [perform_turn_nil hq]
      exact .inr ⟨by simp [turnTaken?, hq], stagesKept_of_builds rfl, rfl⟩
    rw [perform_turn_cons hq]
    cases t with
    | caller i =>
      exact .inr ⟨by simp [turnTaken?, hq], callerTurn_quiet settings f i h.callers_share⟩
    | build i =>
      obtain ⟨b, hb, ho⟩ := h.pending_of_turn hq
      exact .inl ⟨i, rest, b, rfl, rfl, hb, ho,
        buildTurn_cases settings f (l := { l with queue := rest }) hb ho⟩
    | settle i =>
      obtain ⟨hbuilds, hsession⟩ := settleTurn_quiet i { l with queue := rest }
      exact .inr ⟨by simp [turnTaken?, hq], stagesKept_of_builds hbuilds, hsession⟩

/-! ## A build's turn moves one build -/

/-- A build's turn takes the build further and lines up one turn: its own next one, or the
    settling of the build if it has ended. -/
theorem BuildTurn.frame {i : Nat} {l l' : EventLoop σ} {b : SharedBuild}
    (h : BuildTurn settings f i l b l') :
    ∃ stage t, l'.callers = l.callers ∧
      l'.builds = l.builds.modify i (fun b => { b with stage }) ∧ l'.queue = l.queue ++ [t] ∧
      ((({ b with stage } : SharedBuild).outcome? = none ∧ t = .build i) ∨
        (({ b with stage } : SharedBuild).outcome? ≠ none ∧ t = .settle i)) ∧
      stage.turnsLeft < b.stage.turnsLeft := by
  cases h with
  | neverStarts hs _ => exact ⟨_, _, rfl, rfl, rfl, .inr ⟨by simp [SharedBuild.outcome?], rfl⟩, by simp [hs, BuildStage.turnsLeft]⟩
  | givesUp r _ hs _ =>
    exact ⟨_, _, rfl, rfl, rfl, .inr ⟨by simp [SharedBuild.outcome?], rfl⟩, by rw [hs]; exact BuildStage.turnsLeft_reading r⟩
  | asksForPage _ hs _ _ =>
    exact ⟨_, _, rfl, rfl, rfl, .inl ⟨rfl, rfl⟩, by simp [hs, BuildStage.turnsLeft]⟩
  | asksForSource _ _ _ _ _ hs _ _ _ =>
    exact ⟨_, _, rfl, rfl, rfl, .inl ⟨rfl, rfl⟩, by simp [hs, BuildStage.turnsLeft]⟩
  | succeeds _ _ _ _ _ hscript _ =>
    refine ⟨_, _, rfl, rfl, rfl, .inr ⟨by simp [SharedBuild.outcome?], rfl⟩, ?_⟩
    rcases hscript with ⟨hs, -⟩ | ⟨hs, -⟩ <;> simp [hs, BuildStage.turnsLeft]
  | fails _ _ _ _ hw =>
    refine ⟨_, _, rfl, rfl, rfl, .inr ⟨by simp [SharedBuild.outcome?], rfl⟩, ?_⟩
    rcases hw with ⟨hs, -⟩ | ⟨r, hs, -⟩
    · simp [hs, BuildStage.turnsLeft]
    · rw [hs]
      exact BuildStage.turnsLeft_reading r

theorem BuildTurn.current {i : Nat} {l l' : EventLoop σ} {b : SharedBuild}
    (h : BuildTurn settings f i l b l') : l'.current = l.current := by
  cases h <;> rfl

/-- The stage that a build's turn leaves the build in, and the other builds as far as they were. -/
theorem BuildTurn.stages {i : Nat} {l l' : EventLoop σ} {b : SharedBuild}
    (h : BuildTurn settings f i l b l') (hb : l.builds[i]? = some b) :
    ∃ stage, l'.buildStage? i = some stage ∧ l'.builds.length = l.builds.length ∧
      ∀ j, j ≠ i → l'.buildStage? j = l.buildStage? j := by
  obtain ⟨stage, t, -, hbuilds, -⟩ := h.frame
  refine ⟨stage, ?_, by simp [hbuilds], fun j hj => ?_⟩
  · simp [buildStage?, hbuilds, hb]
  · rw [buildStage?, hbuilds, List.getElem?_modify_ne _ _ (fun h => hj h.symm), buildStage?]

end EventLoop

end StreamResolver.Cipher
