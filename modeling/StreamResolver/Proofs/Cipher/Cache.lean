/-
  All or nothing: the cache of a session.

  Four pieces are kept: the script, the symbols in it, the table of the helper and the transform.
  The script is kept by one step of a build and the other three by a later one, and a build may fail
  or be cancelled in between, or before it began.  Still, in every state that a run can reach, the
  four pieces are all missing or all there, and then each is what the pieces before it give
  (`Cache.DerivesFrom`).  Whenever a build ends with a failure, nothing is kept.

  A build that succeeds keeps the script and the other pieces in one turn, so no state shows one
  without the others.  A build that ends with a failure clears what is kept, or was cancelled before
  it began; then nothing is kept as nothing ever is while a build has not ended (`InOrder`).
-/
import StreamResolver.Proofs.Cipher.Extraction
import StreamResolver.Proofs.Cipher.Frame

namespace StreamResolver.Cipher

/-- All four pieces are there and derive from the script. -/
def Cache.DerivesFrom (patterns : Patterns) (script : Script) (c : Cache) : Prop :=
  ∃ symbols table transform,
    c = ⟨some script, some symbols, some table, some transform⟩ ∧
    (extractSymbols script.source patterns).value = .ok symbols ∧
    (operationTable symbols.helperBody).value = .ok table ∧
    (compileTransform symbols.functionBody table).value = .ok transform

theorem Cache.Whole.derives {patterns : Patterns} {c : Cache} (h : c.Whole patterns) :
    c = {} ∨ ∃ script, c.DerivesFrom patterns script := by
  rcases h with h | ⟨script, build, hbuild, rfl⟩
  · exact .inl h
  · exact .inr ⟨script, build.symbols, build.table, build.transform, rfl, buildFrom_eq_ok hbuild⟩

namespace EventLoop

variable {σ : Type} {settings : Settings} {f : Fetcher σ}

/-- The turn at which a build ends with a failure leaves nothing kept. -/
theorem BuildTurn.empty_of_error {i : Nat} {l l' : EventLoop σ} {b : SharedBuild} {e : Failure}
    (h : BuildTurn settings f i l b l') (hb : l.builds[i]? = some b)
    (hempty : l.session.cache = {}) (he : l'.outcomeOf? i = some (.error e)) :
    l'.session.cache = {} := by
  cases h with
  | neverStarts _ _ => exact hempty
  | givesUp _ _ _ _ => rfl
  | asksForPage _ _ _ _ => exact hempty
  | asksForSource _ _ _ _ _ _ _ _ _ => exact hempty
  | succeeds script build w events _ _ _ =>
    simp [outcomeOf?, endBuild, enqueue, setBuild, hb, SharedBuild.outcome?] at he
  | fails _ _ _ _ _ => rfl

/-- One deed by which a build ends with a failure leaves nothing kept. -/
theorem InOrder.empty_of_failure {l : EventLoop σ} (h : InOrder settings l) {d : Deed σ}
    (hd : d.Shares) {i : Nat} {e : Failure} (hbefore : l.outcomeOf? i = none)
    (hafter : (EventLoop.perform settings f l d).outcomeOf? i = some (.error e)) :
    (EventLoop.perform settings f l d).session.cache = {} := by
  rcases perform_cases settings f h hd with ⟨j, rest, b, -, -, hb, ho, hturn⟩ | ⟨-, hkept, -⟩
  · have hempty : l.session.cache = {} := h.pending_empty j ⟨b, hb, ho⟩
    by_cases hij : i = j
    · subst hij
      exact hturn.empty_of_error hb hempty hafter
    · -- the turn of another build leaves this one as it was
      obtain ⟨stage, -, -, hothers⟩ := hturn.stages hb
      rw [outcomeOf?_eq, hothers i hij, ← outcomeOf?_eq] at hafter
      change l.outcomeOf? i = _ at hafter
      rw [hbefore] at hafter
      simp at hafter
  · rw [outcomeOf?_of_stagesKept hkept, hbefore] at hafter
    simp at hafter

/-- **All or nothing.**  After every run of deeds by which no caller reads the script itself, the
    pieces that are kept are all missing, or all there and derived from one script; and whatever
    deed comes next, if a build ends by it with a failure, then nothing is kept. -/
theorem cache_all_or_nothing (settings : Settings) (f : Fetcher σ) (world : σ)
    (ds : List (Deed σ)) (hds : ∀ d ∈ ds, d.Shares) :
    let l := run settings f ds (fresh world)
    (l.session.cache = {} ∨ ∃ script, l.session.cache.DerivesFrom settings.patterns script) ∧
      ∀ d : Deed σ, d.Shares → ∀ i e, l.outcomeOf? i = none →
        (perform settings f l d).outcomeOf? i = some (.error e) →
        (perform settings f l d).session.cache = {} := by
  intro l
  have horder : InOrder settings l := run_inOrder hds (inOrder_fresh settings world)
  exact ⟨horder.cache_whole.derives, fun d hd i e => horder.empty_of_failure hd⟩

/-- The first build of the sample leaves all pieces, and the second one, which is refused, none. -/
theorem cache_all_or_nothing_sample :
    (∃ script, (run sampleSettings Pages.fetcher (sampleDeeds.take 5)
      (fresh samplePages)).session.cache.DerivesFrom sampleSettings.patterns script) ∧
    (perform sampleSettings Pages.fetcher (run sampleSettings Pages.fetcher sampleDeeds
      (fresh samplePages)) .turn).session.cache = {} := by
  have hbuilt := (cache_all_or_nothing sampleSettings Pages.fetcher samplePages (sampleDeeds.take 5)
    fun d hd => sampleDeeds_share d (List.mem_of_mem_take hd)).1
  have hrefused := (cache_all_or_nothing sampleSettings Pages.fetcher samplePages sampleDeeds
    sampleDeeds_share).2
  have hready : (run sampleSettings Pages.fetcher (sampleDeeds.take 5)
      (fresh samplePages)).session.cache ≠ {} := by
    decide +kernel
  have hends : (perform sampleSettings Pages.fetcher (run sampleSettings Pages.fetcher sampleDeeds
      (fresh samplePages)) .turn).outcomeOf? 1 =
        some (.error (.extractor (.unavailable "w" (some 404) ""))) := by
    decide +kernel
  exact ⟨hbuilt.resolve_left hready, hrefused .turn trivial 1 _ (by decide +kernel) hends⟩

end EventLoop

end StreamResolver.Cipher
