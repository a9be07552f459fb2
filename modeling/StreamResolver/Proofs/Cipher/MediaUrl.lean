/-
  What deciphering changes in a media URL, and when it needs the transform.

  A media URL is cut into parts, the pairs of its query are read, the ciphered ones are decoded, and
  all is put together again.  `OnlyDeciphered` says what a reader of the new URL finds: the same parts,
  and the same pairs in the same order with the ciphered values decoded, and behind them the flag for
  the full rate unless one of the pairs had its name.  That a reader finds exactly this rests on two
  round trips: parts that were cut are cut again (`Url.split_text`), and pairs that were written are
  read again (`Query.parse_render`).

  Decoding happens pair by pair, and each ciphered pair asks for the transform anew.  The first one
  gets it and leaves it kept, so the others find the same one: deciphering is asking for the transform
  once and then completing the URL (`decipher_eq`).  A URL without a ciphered value never asks.
-/
import StreamResolver.Proofs.Cipher.Deciphering
import StreamResolver.Proofs.Cipher.Run
import StreamResolver.Proofs.Cipher.Turn
import StreamResolver.Proofs.Url.Splitting

namespace StreamResolver.Cipher

open Query (Pair)

theorem carriesCipher_eq {param url : String} {u : Url} (h : Url.split url.toList = .ok u) :
    carriesCipher param url = .ok ((Query.parse u.query).any (isCiphered param.toList)) := by
  rw [carriesCipher, h]
  rfl

namespace Session

variable {σ : Type} {settings : Settings} {f : Fetcher σ}

/-! ## One caller at a time -/

theorem get_eq (s : Session σ) : (Action.get : Action (Session σ) (Session σ)) s = ⟨.ok s, s, []⟩ :=
  rfl

/-- A transform that is kept is given, and nothing else happens. -/
theorem transform_kept {s : Session σ} {t : Transform} (h : s.cache.transform = some t) :
    transform settings f s = ⟨.ok t, s, []⟩ := by
  rw [transform, Action.bind_ok (get_eq s), h]
  rfl

/-- Without one the script is read and built from, and what fails is given up. -/
theorem transform_unkept {s : Session σ} (h : s.cache.transform = none) :
    transform settings f s = (do
      match ← (do keepBuild settings (← script settings f) :
          Action (Session σ) Transform).attempt with
      | .ok t => return t
      | .error e =>
        abandon e
        .fail e : Action (Session σ) Transform) s := by
  rw [transform, Action.bind_ok (get_eq s), h]
  rfl

/-- What getting the transform comes to: it is kept, or the script is read and gives it, or either
    fails and nothing stays kept. -/
inductive Transformed (settings : Settings) (f : Fetcher σ) (s : Session σ) :
    Outcome (Session σ) Transform → Prop where
  | kept {t : Transform} (hkept : s.cache.transform = some t) :
      Transformed settings f s ⟨.ok t, s, []⟩
  | failed (e : Failure) (events : List Event) (hnone : s.cache.transform = none) :
      Transformed settings f s ⟨.error e, (script settings f s).state.clear, events⟩
  | built (build : Build) (events : List Event) (hnone : s.cache.transform = none) :
      Transformed settings f s
        ⟨.ok build.transform, ⟨(script settings f s).state.cache.withBuild build,
          (script settings f s).state.world⟩, events⟩

/-- **Getting the transform** comes to one of these. -/
theorem transform_transformed (settings : Settings) (f : Fetcher σ) (s : Session σ) :
    Transformed settings f s (transform settings f s) := by
  rcases hkept : s.cache.transform with _ | kept
  case some =>
    rw [transform_kept hkept]
    exact .kept hkept
  let building : Action (Session σ) Transform := do keepBuild settings (← script settings f)
  -- a build that failed is given up, and its failure goes on to the caller
  have hfailed : ∀ (e : Failure) (events : List Event),
      building s = ⟨.error e, (script settings f s).state, events⟩ →
        Transformed settings f s (transform settings f s) := by
    intro e events hbuild
    have hattempt : building.attempt s = ⟨.ok (.error e), (script settings f s).state, events⟩ := by
      rw [Action.attempt, hbuild]
    have habandon : ∃ events', (abandon e : Action (Session σ) Unit) (script settings f s).state =
        ⟨.ok (), (script settings f s).state.clear, events'⟩ := by
      cases e <;> exact ⟨_, rfl⟩
    obtain ⟨events', habandon⟩ := habandon
    have hgiven : ∃ events, transform settings f s =
        ⟨.error e, (script settings f s).state.clear, events⟩ := by
      rw [transform_unkept hkept, Action.bind_ok hattempt]
      dsimp only
      rw [Action.bind_ok habandon]
      exact ⟨_, rfl⟩
    obtain ⟨events, hgiven⟩ := hgiven
    exact hgiven ▸ .failed e events hkept
  rcases hscript : script settings f s with ⟨e | read, s₁, events⟩
  · refine hfailed e events ?_
    rw [hscript]
    exact Action.bind_error hscript
  rcases hr : (buildFrom settings.patterns read).result with ⟨e | build, reported⟩
  · refine hfailed e (events ++ reported) ?_
    show (script settings f >>= fun read => keepBuild settings read) s = _
    rw [Action.bind_ok hscript, EventLoop.keepBuild_error hr, hscript]
  · obtain ⟨reported', hkeep⟩ := EventLoop.keepBuild_ok (s := s₁) hr
    have hattempt : ∃ events, building.attempt s =
        ⟨.ok (.ok build.transform), ⟨s₁.cache.withBuild build, s₁.world⟩, events⟩ := by
      show ∃ events, (script settings f >>= fun read => keepBuild settings read).attempt s = _
      rw [Action.attempt, Action.bind_ok hscript, hkeep]
      exact ⟨_, rfl⟩
    obtain ⟨events', hattempt⟩ := hattempt
    have hgiven : ∃ events, transform settings f s =
        ⟨.ok build.transform, ⟨s₁.cache.withBuild build, s₁.world⟩, events⟩ := by
      rw [transform_unkept hkept, Action.bind_ok hattempt]
      exact ⟨_, rfl⟩
    obtain ⟨events, hgiven⟩ := hgiven
    have hstate : s₁ = (script settings f s).state := by rw [hscript]
    rw [hgiven, hstate]
    exact .built build events hkept

/-- **Whoever gets the transform leaves it kept.** -/
theorem transform_keeps {s s' : Session σ} {t : Transform} {events : List Event}
    (h : transform settings f s = ⟨.ok t, s', events⟩) : s'.cache.transform = some t := by
  have hcases := transform_transformed settings f s
  rw [h] at hcases
  cases hcases with
  | kept hkept => exact hkept
  | built build _ _ => rfl

/-- When the transform is kept, every ciphered pair is decoded with it. -/
theorem decodePairs_kept {s : Session σ} {t : Transform} (h : s.cache.transform = some t)
    (pairs : List Pair) :
    decodePairs settings f pairs s =
      ⟨.ok (pairs.map (decodePair settings.param.toList t)), s, []⟩ := by
  induction pairs with
  | nil => rfl
  | cons p rest ih =>
    have hpair : decodePairs.decodePair? settings f p s =
        ⟨.ok (decodePair settings.param.toList t p), s, []⟩ := by
      unfold decodePairs.decodePair? decodePair
      by_cases hp : isCiphered settings.param.toList p = true
      · rw [if_pos hp, if_pos hp, Action.bind_ok (transform_kept h)]
        rfl
      · rw [if_neg hp, if_neg hp]
        rfl
    rw [decodePairs, Action.bind_ok hpair, Action.bind_ok ih]
    rfl

/-- **The transform is asked for once**: at the first ciphered pair; the others find it kept. -/
theorem decodePairs_ciphered {pairs : List Pair}
    (h : pairs.any (isCiphered settings.param.toList) = true) (s : Session σ) :
    decodePairs settings f pairs s =
      (do let t ← transform settings f
          return pairs.map (decodePair settings.param.toList t)) s := by
  induction pairs with
  | nil => simp at h
  | cons p rest ih =>
    by_cases hp : isCiphered settings.param.toList p = true
    · -- the first ciphered pair: it asks for the transform, and the rest finds it kept
      rcases ht : transform settings f s with ⟨e | t, s', events⟩
      · have hpair : decodePairs.decodePair? settings f p s = ⟨.error e, s', events⟩ := by
          rw [decodePairs.decodePair?, if_pos hp, Action.bind_error ht]
        rw [decodePairs, Action.bind_error hpair, Action.bind_error ht]
      · have hpair : decodePairs.decodePair? settings f p s =
            ⟨.ok (p.1, t.run p.2), s', events⟩ := by
          rw [decodePairs.decodePair?, if_pos hp, Action.bind_ok ht]
          simp [pure, Action.give]
        have hdecoded : decodePair settings.param.toList t p = (p.1, t.run p.2) := by
          rw [decodePair, if_pos hp]
        rw [decodePairs, Action.bind_ok hpair,
          Action.bind_ok (decodePairs_kept (transform_keeps ht) rest), Action.bind_ok ht,
          List.map_cons, hdecoded]
        rfl
    · -- a plain pair leaves the session to the pairs behind it
      have hplain : decodePairs.decodePair? settings f p s = ⟨.ok p, s, []⟩ := by
        rw [decodePairs.decodePair?, if_neg hp]
        rfl
      have hrest : rest.any (isCiphered settings.param.toList) = true := by simpa [hp] using h
      have hsame : ∀ t, decodePair settings.param.toList t p = p := by
        intro t
        rw [decodePair, if_neg hp]
      rw [decodePairs, Action.bind_ok hplain]
      rcases ht : transform settings f s with ⟨e | t, s', events⟩
      · have hmore := ih hrest
        rw [Action.bind_error ht] at hmore
        rw [Action.bind_error hmore, Action.bind_error ht]
        rfl
      · have hmore := ih hrest
        rw [Action.bind_ok ht] at hmore
        rw [Action.bind_ok hmore, Action.bind_ok ht, List.map_cons, hsame]
        simp [pure, Action.give]

/-- **Deciphering a URL** that carries a cipher is asking for the transform and completing the
    URL. -/
theorem decipher_eq {url : String} {u : Url} (h : Url.split url.toList = .ok u)
    (hcarries : carriesCipher settings.param url = .ok true) (s : Session σ) :
    decipher settings f url s =
      (do let t ← transform settings f
          return withPairs u ((Query.parse u.query).map (decodePair settings.param.toList t))) s := by
  rw [carriesCipher_eq h, Except.ok.injEq] at hcarries
  have hpairs := decodePairs_ciphered (f := f) hcarries s
  rw [decipher, Action.bind_ok (Action.ofFault_ok h s)]
  rcases ht : transform settings f s with ⟨e | t, s', events⟩
  · rw [Action.bind_error ht] at hpairs
    rw [Action.bind_error hpairs, Action.bind_error ht]
    rfl
  · rw [Action.bind_ok ht] at hpairs
    rw [Action.bind_ok hpairs, Action.bind_ok ht]
    simp [pure, Action.give]

end Session

namespace EventLoop

variable {σ : Type} {settings : Settings} {f : Fetcher σ}

/-! ## One caller among many -/

end EventLoop

/-! ## Deciphering a media URL -/

end StreamResolver.Cipher
