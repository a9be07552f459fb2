/-
  What holds of each configuration that is read.

  Reading a configuration is reading its settings one by one, so it succeeds exactly when each of them
  is read (`readFields_eq_ok_iff`).  A setting that was read is its default or came through its check,
  and both have what the check asks for: that is `Accepted`.

  A check of a positive number refuses what is at most zero.  The undefined number is not, so it is
  let through; nothing here says that it is absent.
-/
import StreamResolver.Config.Basic
import StreamResolver.Proofs.Fallible
import StreamResolver.Proofs.Text.Trimming

namespace StreamResolver.Config

open Fallible

/-! ## Reading setting by setting -/

/-- The settings of the streams are read from the fields of a group. -/
structure ReadsStreams (fields : Keyed Value) (s : StreamConfig) : Prop where
  probeTimeout : check (givenIn ["streams"] fields "probe_timeout_seconds")
    ({} : StreamConfig).probeTimeout (positive "probe_timeout_seconds") = .ok s.probeTimeout
  allowUnvalidated : check (givenIn ["streams"] fields "allow_unvalidated_fallback")
    ({} : StreamConfig).allowUnvalidated Setting.truth = .ok s.allowUnvalidated
  relatedLimit : check (givenIn ["streams"] fields "related_limit")
    ({} : StreamConfig).relatedLimit (count "related_limit") = .ok s.relatedLimit

/-- The settings of a configuration are read from the fields of an object. -/
structure Reads (fields : Keyed Value) (c : Config) : Prop where
  appName : check (givenIn [] fields "app_name") ({} : Config).appName Setting.text = .ok c.appName
  environment : check (givenIn [] fields "environment") ({} : Config).environment
    (Setting.oneOf Environment.all Environment.word) = .ok c.environment
  instanceName : check (givenAs fields "invidious_instance" "invidious" "instance")
    ({} : Config).instanceName instanceText = .ok c.instanceName
  timeout : check (givenAs fields "invidious_timeout_seconds" "invidious" "timeout_seconds")
    ({} : Config).timeout (positive "invidious_timeout_seconds") = .ok c.timeout
  userAgent : check (givenAs fields "http_user_agent" "http" "user_agent")
    ({} : Config).userAgent Setting.text = .ok c.userAgent
  logLevel : check (givenAs fields "log_level" "logging" "level") ({} : Config).logLevel
    (Setting.oneOf Level.settable Level.word) = .ok c.logLevel
  logFormat : ∃ format : Option LogFormat,
    check (givenAs fields "log_format" "logging" "format") none formatChoice = .ok format ∧
      format.getD c.environment.logFormat = c.logFormat
  cipher : checkGroup fields "cipher" "CipherConfig" readCipher = .ok c.cipher
  streams : checkGroup fields "streams" "StreamConfig" readStreams = .ok c.streams

theorem readStreams_eq_ok_iff (fields : Keyed Value) (s : StreamConfig) :
    readStreams fields = .ok s ↔ ReadsStreams fields s := by
  simp only [readStreams, Checked.apply_eq_ok_iff]
  constructor
  · rintro ⟨_, _, ⟨_, _, ⟨_, _, ⟨⟩, hprobe, rfl⟩, hallow, rfl⟩, hlimit, rfl⟩
    exact ⟨hprobe, hallow, hlimit⟩
  · rintro ⟨hprobe, hallow, hlimit⟩
    exact ⟨_, _, ⟨_, _, ⟨_, _, rfl, hprobe, rfl⟩, hallow, rfl⟩, hlimit, rfl⟩

/-- **A configuration is read exactly when each of its settings is.** -/
theorem readFields_eq_ok_iff (fields : Keyed Value) (c : Config) :
    readFields fields = .ok c ↔ Reads fields c := by
  -- a function and a value for each setting, that of the last setting outermost
  simp only [readFields, Checked.apply_eq_ok_iff]
  constructor
  · rintro ⟨_, _, ⟨_, _, ⟨_, _, ⟨_, _, ⟨_, _, ⟨_, _, ⟨_, _, ⟨_, _, ⟨_, _, ⟨⟩, happ, rfl⟩, henv, rfl⟩,
      hinst, rfl⟩, htime, rfl⟩, hagent, rfl⟩, hlevel, rfl⟩, hformat, rfl⟩, hcipher, rfl⟩, hstreams, rfl⟩
    exact ⟨happ, henv, hinst, htime, hagent, hlevel, ⟨_, hformat, rfl⟩, hcipher, hstreams⟩
  · rintro ⟨happ, henv, hinst, htime, hagent, hlevel, ⟨format, hformat, hderived⟩, hcipher, hstreams⟩
    refine ⟨_, _, ⟨_, _, ⟨_, _, ⟨_, _, ⟨_, _, ⟨_, _, ⟨_, _, ⟨_, _, ⟨_, _, rfl, happ, rfl⟩, henv, rfl⟩,
      hinst, rfl⟩, htime, rfl⟩, hagent, rfl⟩, hlevel, rfl⟩, hformat, rfl⟩, hcipher, rfl⟩, hstreams, ?_⟩
    rw [make, hderived]

/-! ## What was read -/

variable {α : Type}

/-- A setting that was read is its default or came through the check. -/
theorem of_check_eq_ok {given : Given} {default a : α} {read : Value → Except Refusal α}
    (h : check given default read = .ok a) :
    given = none ∧ a = default ∨ ∃ path v, given = some (path, v) ∧ read v = .ok a := by
  unfold check at h
  split at h
  · cases h
    exact .inl ⟨rfl, rfl⟩
  · next path v =>
    split at h
    · next hread =>
      cases h
      exact .inr ⟨path, v, rfl, hread⟩
    · cases h

/-- A group that was read was read from some fields. -/
theorem of_checkGroup_eq_ok {fields : Keyed Value} {key group : String}
    {read : Keyed Value → Checked α} {a : α} (h : checkGroup fields key group read = .ok a) :
    ∃ inner, read inner = .ok a := by
  unfold checkGroup at h
  split at h
  · exact ⟨_, h⟩
  · exact ⟨_, h⟩
  · cases h

theorem of_positive_eq_ok {name : String} {v : Value} {x : Binary64}
    (h : positive name v = .ok x) : Setting.number v = .ok x ∧ x.atMostZero = false := by
  obtain ⟨y, hnumber, h⟩ := exists_of_bind_eq_ok h
  split at h
  · cases h
  · next hy =>
    cases h
    exact ⟨hnumber, Bool.eq_false_iff.mpr hy⟩

theorem of_count_eq_ok {name : String} {v : Value} {n : Nat} (h : count name v = .ok n) :
    Setting.integer v = .ok (n : Int) := by
  obtain ⟨m, hinteger, h⟩ := exists_of_bind_eq_ok h
  split at h
  · cases h
  · next hm =>
    cases h
    rw [hinteger, Int.toNat_of_nonneg (Int.not_lt.mp hm)]

theorem bare_of_instanceText {v : Value} {s : String} (h : instanceText v = .ok s) :
    s.toList ≠ [] ∧ Text.Bare s.toList := by
  obtain ⟨text, -, h⟩ := exists_of_bind_eq_ok h
  dsimp only at h
  split at h
  · cases h
  · next hne =>
    cases h
    rw [String.toList_ofList]
    exact ⟨fun hnil => hne (List.isEmpty_iff.mpr hnil), Text.bare_trim text.toList⟩

theorem mem_of_oneOf {all : List α} {word : α → String} {v : Value} {a : α}
    (h : Setting.oneOf all word v = .ok a) : a ∈ all := by
  unfold Setting.oneOf at h
  split at h
  · split at h
    · next hfound =>
      cases h
      exact List.mem_of_find?_eq_some hfound
    · cases h
  · cases h

/-- What reading a configuration makes sure of. -/
structure Accepted (c : Config) : Prop where
  named : c.instanceName.toList ≠ []
  bare : Text.Bare c.instanceName.toList
  timeout : c.timeout.atMostZero = false
  probeTimeout : c.streams.probeTimeout.atMostZero = false
  logLevel : c.logLevel ∈ Level.settable

/-- **Each configuration that is read has what the checks ask for.** -/
theorem accepted_of_readFields {fields : Keyed Value} {c : Config}
    (h : readFields fields = .ok c) : Accepted c := by
  have hreads := (readFields_eq_ok_iff fields c).mp h
  obtain ⟨inner, hstreams⟩ := of_checkGroup_eq_ok hreads.streams
  have hinner := (readStreams_eq_ok_iff inner c.streams).mp hstreams
  have hinstance : c.instanceName.toList ≠ [] ∧ Text.Bare c.instanceName.toList := by
    rcases of_check_eq_ok hreads.instanceName with ⟨-, hdefault⟩ | ⟨_, v, -, hv⟩
    · have htrimmed : Text.trim ({} : Config).instanceName.toList =
          ({} : Config).instanceName.toList := by decide
      rw [hdefault]
      exact ⟨by decide, htrimmed ▸ Text.bare_trim _⟩
    · exact bare_of_instanceText hv
  refine ⟨hinstance.1, hinstance.2, ?_, ?_, ?_⟩
  · rcases of_check_eq_ok hreads.timeout with ⟨-, hdefault⟩ | ⟨_, v, -, hv⟩
    · rw [hdefault]
      decide
    · exact (of_positive_eq_ok hv).2
  · rcases of_check_eq_ok hinner.probeTimeout with ⟨-, hdefault⟩ | ⟨_, v, -, hv⟩
    · rw [hdefault]
      decide
    · exact (of_positive_eq_ok hv).2
  · rcases of_check_eq_ok hreads.logLevel with ⟨-, hdefault⟩ | ⟨_, v, -, hv⟩
    · rw [hdefault]
      decide
    · exact mem_of_oneOf hv

theorem accepted_of_read {v : Value} {c : Config} (h : read v = .ok c) : Accepted c := by
  cases v with
  | object fields => exact accepted_of_readFields h
  | _ => cases h

end StreamResolver.Config
