/-
  Builds that a reset has dropped.

  A reset cancels the current build and leaves no build current.  From then on every build that was
  there is out of play (`Dropped`): it is not the current one and never becomes it again, and if it
  has not ended it is cancelled.  This holds for callers of every kind, also for those that read the
  script on their own account, so it cannot rest on the order that builds keep without them.

  The crux is what a deed does to builds at all (`BuildsGo`): the only way to become current is to
  be new, and the only way to cease to be current is to have ended or to be cancelled.
-/
import StreamResolver.Proofs.Cipher.Callers
import StreamResolver.Proofs.Cipher.Frame

namespace StreamResolver.Cipher.EventLoop

variable {σ : Type} {settings : Settings} {f : Fetcher σ} {l l' : EventLoop σ}

/-- Whatever has neither ended nor been cancelled is the current build. -/
def LiveCurrent (l : EventLoop σ) : Prop :=
  ∀ i b, l.builds[i]? = some b → b.outcome? = none → b.cancelled = false → l.current = some i

/-- The first `n` builds are out of play. -/
structure Dropped (n : Nat) (l : EventLoop σ) : Prop where
  le : n ≤ l.builds.length
  current : ∀ b, l.current = some b → n ≤ b
  cancelled : ∀ (i : Nat) (b : SharedBuild), i < n → l.builds[i]? = some b →
    b.outcome? = none → b.cancelled = true

/-- How builds go on. -/
structure BuildsGo (l l' : EventLoop σ) : Prop where
  length : l.builds.length ≤ l'.builds.length
  /-- Only a new build becomes current. -/
  current : ∀ b, l'.current = some b → l.current = some b ∨ b = l.builds.length
  new : ∀ i b', l.builds.length ≤ i → l'.builds[i]? = some b' → l'.current = some i
  /-- A build that has ended stays so, and so does one that is cancelled. -/
  old : ∀ (i : Nat) (b b' : SharedBuild), l.builds[i]? = some b → l'.builds[i]? = some b' →
    (b'.outcome? = none → b.outcome? = none) ∧ (b.cancelled = true → b'.cancelled = true)
  /-- Whatever is live was live, and it is still the current build if it was. -/
  live : ∀ (i : Nat) (b : SharedBuild), l'.builds[i]? = some b → b.outcome? = none →
    b.cancelled = false → l.current = some i → l'.current = some i

namespace BuildsGo

/-- Nothing happens to builds. -/
theorem of_eq (hbuilds : l'.builds = l.builds) (hcurrent : l'.current = l.current) :
    BuildsGo l l' where
  length := Nat.le_of_eq (by rw [hbuilds])
  current b hb := .inl (hcurrent ▸ hb)
  new i b' hi hb' := by
    rw [hbuilds] at hb'
    have hlt := (List.getElem?_eq_some_iff.mp hb').1
    omega
  old i b b' hb hb' := by
    rw [hbuilds, hb, Option.some.injEq] at hb'
    subst hb'
    exact ⟨id, id⟩
  live i b _ _ _ hcur := hcurrent.trans hcur

/-- One build changes, and it neither comes back to life nor ceases to be current. -/
theorem of_modify {i : Nat} {g : SharedBuild → SharedBuild}
    (hbuilds : l'.builds = l.builds.modify i g) (hcurrent : l'.current = l.current)
    (hg : ∀ b, l.builds[i]? = some b → ((g b).outcome? = none → b.outcome? = none) ∧
      (b.cancelled = true → (g b).cancelled = true)) : BuildsGo l l' where
  length := Nat.le_of_eq (by rw [hbuilds, List.length_modify])
  current b hb := .inl (hcurrent ▸ hb)
  new j b' hj hb' := by
    have hlt := (List.getElem?_eq_some_iff.mp hb').1
    rw [hbuilds, List.length_modify] at hlt
    omega
  old j b b' hb hb' := by
    rw [hbuilds, List.getElem?_modify] at hb'
    by_cases hij : i = j
    · subst hij
      rw [hb] at hb'
      simp only [if_true, Option.map_eq_map, Option.map_some, Option.some.injEq] at hb'
      subst hb'
      exact hg b hb
    · rw [hb] at hb'
      simp only [hij, if_false, Option.map_eq_map, Option.map_some, Option.some.injEq] at hb'
      subst hb'
      exact ⟨id, id⟩
  live j b _ _ _ hcur := hcurrent.trans hcur

/-- Only the builds and the current one matter. -/
theorem of_same {m : EventLoop σ} (h : BuildsGo m l') (hbuilds : m.builds = l.builds)
    (hcurrent : m.current = l.current) : BuildsGo l l' := by
  obtain ⟨hlength, hcur, hnew, hold, hlive⟩ := h
  rw [hbuilds] at hlength hcur hnew hold
  rw [hcurrent] at hcur hlive
  exact ⟨hlength, hcur, hnew, hold, hlive⟩

theorem waitForBuild (l : EventLoop σ) (i : Nat) (d : Demand) :
    BuildsGo l (l.waitForBuild i d) := by
  rcases hcur : l.current with _ | n
  · rw [waitForBuild_fresh hcur]
    refine ⟨by simp [setCaller], ?_, ?_, ?_, ?_⟩
    · intro b hb
      exact .inr (Option.some.inj hb).symm
    · intro j b' hj hb'
      have hlt := (List.getElem?_eq_some_iff.mp hb').1
      simp only [setCaller, List.length_append, List.length_singleton] at hlt
      have hjl : l.builds.length = j := by omega
      simp [setCaller, hjl]
    · intro j b b' hb hb'
      simp only [setCaller] at hb'
      rw [List.getElem?_append_left (List.getElem?_eq_some_iff.mp hb).1, hb,
        Option.some.injEq] at hb'
      subst hb'
      exact ⟨id, id⟩
    · intro j b _ _ _ hj
      simp [hcur] at hj
  · rw [waitForBuild_current hcur]
    exact of_modify rfl rfl fun b _ => ⟨id, id⟩

theorem callerTurn (l : EventLoop σ) (i : Nat) : BuildsGo l (l.callerTurn settings f i) := by
  rcases hc : l.callers[i]? with _ | c
  · rw [callerTurn_none hc]
    exact of_eq rfl rfl
  have hturn := callerTurn_does settings f hc
  generalize l.callerTurn settings f i = l' at hturn
  cases hturn with
  | waits d _ _ _ => exact waitForBuild l i d
  | _ => exact of_eq rfl rfl

theorem buildTurn (l : EventLoop σ) (i : Nat) : BuildsGo l (l.buildTurn settings f i) := by
  refine buildTurn_rule (fun _ => of_eq rfl rfl) fun b l' hb ho hturn => ?_
  obtain ⟨stage, t, -, hbuilds, -⟩ := hturn.frame
  refine of_modify hbuilds hturn.current fun b' hb' => ?_
  rw [hb, Option.some.injEq] at hb'
  subst hb'
  exact ⟨fun _ => ho, id⟩

theorem settleTurn (l : EventLoop σ) (i : Nat) : BuildsGo l (l.settleTurn i) := by
  rcases ho : l.outcomeOf? i with _ | o
  · rw [settleTurn_none ho]
    exact of_eq rfl rfl
  obtain ⟨b, hb, hbo⟩ := Option.bind_eq_some_iff.mp ho
  obtain ⟨-, hbuilds, hcurrent, -⟩ := tellAll_frame i o b.waiters
    { l with current := if l.current = some i then none else l.current }
  rw [settleTurn_eq hb hbo]
  have hsame : ∀ j : Nat, (tellAll i o b.waiters
      { l with current := if l.current = some i then none else l.current }).builds[j]? =
      l.builds[j]? := fun j => by rw [hbuilds]
  refine ⟨Nat.le_of_eq (by rw [hbuilds]), ?_, ?_, ?_, ?_⟩
  · intro j hj
    rw [hcurrent] at hj
    dsimp only at hj
    split at hj
    · simp at hj
    · exact .inl hj
  · intro j b' hj hb'
    rw [hsame] at hb'
    have hlt := (List.getElem?_eq_some_iff.mp hb').1
    omega
  · intro j x x' hx hx'
    rw [hsame, hx, Option.some.injEq] at hx'
    subst hx'
    exact ⟨id, id⟩
  · -- the build that is settled has ended, so a live one is another
    intro j x hx hxo _ hcur
    rw [hsame] at hx
    have hne : ¬ j = i := by
      rintro rfl
      rw [hb, Option.some.injEq] at hx
      rw [← hx, hbo] at hxo
      simp at hxo
    rw [hcurrent]
    simp [hcur, hne]

theorem reset (l : EventLoop σ) : BuildsGo l l.reset := by
  rcases hcur : l.current with _ | n
  · rw [reset_none hcur]
    exact of_eq rfl hcur.symm
  have hmarked : BuildsGo l (l.cancelBuild n) := by
    refine of_modify rfl rfl fun b _ => ?_
    split
    · exact ⟨id, id⟩
    · exact ⟨id, fun _ => rfl⟩
  rw [reset_some hcur]
  refine ⟨hmarked.length, by simp, ?_, hmarked.old, ?_⟩
  · intro j b' hj hb'
    have hlt := (List.getElem?_eq_some_iff.mp hb').1
    simp only [cancelBuild, List.length_modify] at hlt
    omega
  · -- the build that was current is cancelled
    intro j b hb ho hc hj
    rw [hcur, Option.some.injEq] at hj
    subst hj
    simp only [cancelBuild, List.getElem?_modify, if_true, Option.map_eq_map] at hb
    obtain ⟨b', -, rfl⟩ := Option.map_eq_some_iff.mp hb
    split at ho
    · next hended => simp [ho] at hended
    · next hnot => simp [hnot] at hc

/-- **How builds go on** by a deed. -/
theorem perform (l : EventLoop σ) (d : Deed σ) : BuildsGo l (perform settings f l d) := by
  cases d with
  | start call => exact of_eq rfl rfl
  | startAtOnce call =>
    have hturn : BuildsGo { l with callers := l.callers ++ [({ call } : Caller)] }
        (EventLoop.perform settings f l (.startAtOnce call)) := callerTurn _ _
    exact hturn.of_same rfl rfl
  | cancel i =>
    refine of_eq (cancel_quiet i l).1 ?_
    show (l.cancel i).current = l.current
    unfold cancel
    split <;> rfl
  | reset => exact reset l
  | change g => exact of_eq rfl rfl
  | turn =>
    rcases hq : l.queue with _ | ⟨t, rest⟩
    · rw [perform_turn_nil hq]
      exact of_eq rfl rfl
    rw [perform_turn_cons hq]
    have hturn : BuildsGo { l with queue := rest } (turn settings f { l with queue := rest } t) := by
      cases t with
      | caller i => exact callerTurn _ i
      | build i => exact buildTurn _ i
      | settle i => exact settleTurn _ i
    exact hturn.of_same rfl rfl

end BuildsGo

theorem LiveCurrent.go (h : LiveCurrent l) (hgo : BuildsGo l l') : LiveCurrent l' := by
  intro i b hb ho hc
  by_cases hlt : i < l.builds.length
  · have hold : l.builds[i]? = some l.builds[i] := List.getElem?_eq_getElem hlt
    obtain ⟨hended, hcancelled⟩ := hgo.old i _ b hold hb
    have hc' : l.builds[i].cancelled = false := by
      rw [Bool.eq_false_iff]
      intro htrue
      rw [hcancelled htrue] at hc
      simp at hc
    exact hgo.live i b hb ho hc (h i _ hold (hended ho) hc')
  · exact hgo.new i b (Nat.not_lt.mp hlt) hb

theorem Dropped.go {n : Nat} (h : Dropped n l) (hgo : BuildsGo l l') : Dropped n l' where
  le := Nat.le_trans h.le hgo.length
  current b hb := by
    rcases hgo.current b hb with hold | rfl
    · exact h.current b hold
    · exact h.le
  cancelled i b' hi hb' ho := by
    have hlt : i < l.builds.length := Nat.lt_of_lt_of_le hi h.le
    have hold : l.builds[i]? = some l.builds[i] := List.getElem?_eq_getElem hlt
    obtain ⟨hended, hcancelled⟩ := hgo.old i _ b' hold hb'
    exact hcancelled (h.cancelled i _ hi hold (hended ho))

theorem liveCurrent_fresh (world : σ) : LiveCurrent (fresh world) := by
  intro i b hb
  simp [fresh] at hb

/-- **Every run**: what is live is current. -/
theorem run_liveCurrent {ds : List (Deed σ)} (h : LiveCurrent l) :
    LiveCurrent (run settings f ds l) :=
  run_invariant (Q := fun _ => True) (fun _ d hl _ => hl.go (BuildsGo.perform _ d))
    (fun _ _ => trivial) h

theorem reset_current (l : EventLoop σ) : l.reset.current = none := by
  unfold reset
  cases l.current <;> rfl

/-- While no build is current, whatever has not ended is cancelled. -/
theorem LiveCurrent.cancelled (h : LiveCurrent l) (hcur : l.current = none) {i : Nat}
    {b : SharedBuild} (hb : l.builds[i]? = some b) (ho : b.outcome? = none) :
    b.cancelled = true := by
  rcases hc : b.cancelled with _ | _
  · have hlive := h i b hb ho hc
    simp [hcur] at hlive
  · rfl

/-- **A reset drops every build.** -/
theorem dropped_reset (h : LiveCurrent l) : Dropped l.builds.length l.reset where
  le := (BuildsGo.reset l).length
  current b hb := by simp [reset_current] at hb
  cancelled _ _ _ := (h.go (BuildsGo.reset l)).cancelled (reset_current l)

/-- **Every run**: what was dropped stays so. -/
theorem run_dropped {n : Nat} {ds : List (Deed σ)} (h : Dropped n l) :
    Dropped n (run settings f ds l) :=
  run_invariant (Q := fun _ => True) (fun _ d hl _ => hl.go (BuildsGo.perform _ d))
    (fun _ _ => trivial) h

end StreamResolver.Cipher.EventLoop
