/-
  What can be relied on once the configuration is loaded.

  All layers end in one object, so each setting that is loaded was read from what they give together,
  or is a default (`of_load_eq_ok`).  `loaded_usable` puts together what the checks then make sure of:
  names without blanks at their ends, words out of the given ones, a limit that is the integer that was
  found and not negative, timeouts that are positive.

  There is one gap.  A timeout is refused if it is at most zero, and the undefined number is not at most
  zero; it is not positive either.  So a layer that gives it, as a number or as the text `nan`, has it
  loaded; `PositiveOrGiven` says that there is no other way to it.
-/
import StreamResolver.Proofs.Config.RoundTrip

namespace StreamResolver

/-- The comparison `0 < x`; it fails for the undefined number. -/
def Binary64.aboveZero : Binary64 → Bool
  | .nan => false
  | .infinity negative => !negative
  | .finite negative m _ => !negative && m != 0

/-- A number is compared with zero in both ways alike, unless it is undefined. -/
theorem Binary64.aboveZero_or_nan {x : Binary64} (h : x.atMostZero = false) :
    x.aboveZero = true ∨ x = .nan := by
  cases x with
  | nan => exact .inr rfl
  | infinity negative =>
    left
    rw [atMostZero] at h
    rw [aboveZero, h]
    rfl
  | finite negative m e =>
    left
    rw [atMostZero, Bool.or_eq_false_iff] at h
    rw [aboveZero, h.1, bne, h.2]
    rfl

namespace Config

open Fallible

/-! ## Places of settings -/

namespace Place

def timeout : Place :=
  .inside ⟨"invidious_timeout_seconds", "invidious", "timeout_seconds"⟩

def logFormat : Place := .inside ⟨"log_format", "logging", "format"⟩

def probeTimeout : Place :=
  .inside ⟨"streams_probe_timeout_seconds", "streams", "probe_timeout_seconds"⟩

def relatedLimit : Place := .inside ⟨"streams_related_limit", "streams", "related_limit"⟩

end Place

/-! ## What was loaded -/

/-- Loading succeeds if each layer is there and what they give together is read. -/
theorem of_load_eq_ok {s : Sources} {c : Config} (h : load s = .ok c) :
    ∃ (env : Keyed String) (file fromEnv : Keyed Value),
      variablesOf s = .ok env ∧ fileLayer s env = .ok file ∧ variableLayer env = .ok fromEnv ∧
        readFields (mergeLayers [defaultLayer, file, fromEnv, s.overrides]) = .ok c := by
  obtain ⟨env, hvars, h⟩ := exists_of_bind_eq_ok h
  obtain ⟨file, hfile, h⟩ := exists_of_bind_eq_ok h
  obtain ⟨fromEnv, hlayer, h⟩ := exists_of_bind_eq_ok h
  exact ⟨env, file, fromEnv, hvars, hfile, eq_ok_of_mapError_eq_ok hlayer,
    eq_ok_of_mapError_eq_ok h⟩

/-- A number of seconds that is positive, or undefined because the value at a place is. -/
def PositiveOrGiven (settings : Keyed Value) (p : Place) (x : Binary64) : Prop :=
  x.aboveZero = true ∨ x = .nan ∧ ∃ v, p.valueIn settings = some v ∧ Setting.number v = .ok .nan

/-- A configuration that can be used, loaded from what the layers give together. -/
structure Usable (settings : Keyed Value) (c : Config) : Prop where
  timeout : PositiveOrGiven settings .timeout c.timeout
  probeTimeout : PositiveOrGiven settings .probeTimeout c.streams.probeTimeout
  /-- The limit is written as an integer that is not negative, the one that was found. -/
  relatedLimit : ∃ n : Int, 0 ≤ n ∧ Place.relatedLimit.valueIn c.sectionFields = some (.int n) ∧
    ∀ v, Place.relatedLimit.valueIn settings = some v → Setting.integer v = .ok n
  named : c.instanceName.toList ≠ []
  bare : Text.Bare c.instanceName.toList
  environment : c.environment.word ∈ ["dev", "test", "prod"]
  logLevel : c.logLevel.word ∈ ["DEBUG", "INFO", "WARNING", "ERROR"]
  /-- The log format is never written as null. -/
  logFormat : ∃ word ∈ ["json", "console"],
    Place.logFormat.valueIn c.sectionFields = some (.str word)

theorem positiveOrGiven_of_check {settings : Keyed Value} {p : Place} {path : List String}
    {name : String} {default x : Binary64}
    (h : check ((p.valueIn settings).map (path, ·)) default (positive name) = .ok x)
    (hdefault : default.aboveZero = true) : PositiveOrGiven settings p x := by
  rcases of_check_eq_ok h with ⟨-, rfl⟩ | ⟨_, v, hgiven, hv⟩
  · exact .inl hdefault
  · obtain ⟨hnumber, hpositive⟩ := of_positive_eq_ok hv
    rcases Binary64.aboveZero_or_nan hpositive with habove | rfl
    · exact .inl habove
    · obtain ⟨w, hw, hpair⟩ := Option.map_eq_some_iff.mp hgiven
      obtain rfl : w = v := congrArg Prod.snd hpair
      exact .inr ⟨rfl, w, hw, hnumber⟩

/-- **What is read from merged layers is usable.** -/
theorem usable_of_readFields {layers : List (Keyed Value)} {c : Config}
    (h : readFields (mergeLayers layers) = .ok c) : Usable (mergeLayers layers) c := by
  have haccepted := accepted_of_readFields h
  have hshaped := shaped_mergeLayers layers
  have hreads := (readFields_eq_ok_iff _ c).mp h
  have hstreams := hreads.streams
  rw [hshaped.checkGroup (by decide), readStreams_eq_ok_iff] at hstreams
  have htimeout := hreads.timeout
  rw [hshaped.givenAs (f := ⟨"invidious_timeout_seconds", "invidious", "timeout_seconds"⟩)
    (by decide)] at htimeout
  refine {
    timeout := positiveOrGiven_of_check htimeout (by decide)
    probeTimeout := positiveOrGiven_of_check (p := .probeTimeout) hstreams.probeTimeout (by decide)
    relatedLimit := ⟨c.streams.relatedLimit, Int.natCast_nonneg _, rfl, fun v hv => ?_⟩
    named := haccepted.named
    bare := haccepted.bare
    environment := ?_
    logLevel := ?_
    logFormat := ⟨c.logFormat.word, ?_, rfl⟩ }
  · rcases of_check_eq_ok hstreams.relatedLimit with ⟨hnone, -⟩ | ⟨_, w, hgiven, hw⟩
    · rw [givenIn, Option.map_eq_none_iff] at hnone
      exact absurd (hnone.symm.trans hv) nofun
    · obtain ⟨u, hu, hpair⟩ := Option.map_eq_some_iff.mp hgiven
      obtain rfl : u = w := congrArg Prod.snd hpair
      obtain rfl : u = v := Option.some.inj (hu.symm.trans hv)
      exact of_count_eq_ok hw
  · cases c.environment <;> decide
  · have hlevel := haccepted.logLevel
    cases hword : c.logLevel with
    | critical =>
      rw [hword] at hlevel
      exact absurd hlevel (by decide)
    | _ => decide
  · cases c.logFormat <;> decide

/-- **Each configuration that is loaded is usable**, whatever the layers are. -/
theorem loaded_usable {s : Sources} {c : Config} (h : load s = .ok c) :
    ∃ (env : Keyed String) (file fromEnv : Keyed Value),
      variablesOf s = .ok env ∧ fileLayer s env = .ok file ∧ variableLayer env = .ok fromEnv ∧
        Usable (mergeLayers [defaultLayer, file, fromEnv, s.overrides]) c := by
  obtain ⟨env, file, fromEnv, hvars, hfile, hlayer, hread⟩ := of_load_eq_ok h
  exact ⟨env, file, fromEnv, hvars, hfile, hlayer, usable_of_readFields hread⟩

/-- Sources that give the undefined number as a timeout. -/
def undefinedTimeout : Sources := { env := [("INVIDIARR_INVIDIOUS_TIMEOUT_SECONDS", "nan")] }

/-- It is loaded, although it is not positive; all else is as it should be. -/
theorem loaded_usable_undefinedTimeout :
    load undefinedTimeout = .ok { timeout := .nan } ∧ Binary64.nan.aboveZero = false ∧
      ∃ file fromEnv : Keyed Value, fileLayer undefinedTimeout undefinedTimeout.env = .ok file ∧
        variableLayer undefinedTimeout.env = .ok fromEnv ∧
        Usable (mergeLayers [defaultLayer, file, fromEnv, []]) { timeout := .nan } := by
  have hnames : lowerNames undefinedTimeout.env =
      [("invidiarr_invidious_timeout_seconds", "nan")] := by decide +kernel
  have hlayer : variableLayer undefinedTimeout.env =
      .ok [("invidious_timeout_seconds", .float .nan)] := by
    rw [variableLayer_eq, hnames]
    rfl
  have hload : load undefinedTimeout = .ok { timeout := .nan } := by
    rw [load_of_layers (s := undefinedTimeout) rfl rfl hlayer]
    rfl
  obtain ⟨env, file, fromEnv, hvars, hfile, hlayer, husable⟩ := loaded_usable hload
  cases hvars
  exact ⟨hload, rfl, file, fromEnv, hfile, hlayer, husable⟩

end Config

end StreamResolver
