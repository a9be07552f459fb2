/-
  Layers of configuration.

  A configuration is put together from layers; each is an object, and what a later layer says wins.
  `merge` lays one object over another: where both have an object under a key the two are merged, and
  anywhere else the later one is taken.

  A layer may name a setting by its section and its key, or by one flat name.  `normalize` brings a layer
  into sections, where a flat name wins, and keeps nothing that is no setting and no section.

  Statement: `get?_merge`, what a merged object has under a key.
-/
import StreamResolver.Value.Basic

namespace StreamResolver.Config

/-! ## Laying one object over another -/

mutual

/-- What stands under a key once `new` is laid over what stood there. -/
def overlay (old : Option Value) : Value → Value
  | .object new =>
    match old with
    | some (.object fields) => .object (merge fields new)
    | _ => .object new
  | v => v

/-- Lay the fields of one object over another. -/
def merge (base : Keyed Value) : List (String × Value) → Keyed Value
  | [] => base
  | (key, v) :: rest => merge (base.put key (overlay (base.get? key) v)) rest

end

/-! ## Sections and flat names -/

/-- The sections. -/
def sections : List String := ["invidious", "http", "logging", "cipher", "streams"]

/-- The settings that stand in no section. -/
def topSettings : List String := ["app_name", "environment"]

/-- A setting in a section and its flat name. -/
structure FlatName where
  name : String
  heading : String
  key : String
  deriving DecidableEq, Repr

/-- The flat names of the settings. -/
def flatNames : List FlatName :=
  [⟨"invidious_instance", "invidious", "instance"⟩,
   ⟨"invidious_timeout_seconds", "invidious", "timeout_seconds"⟩,
   ⟨"http_user_agent", "http", "user_agent"⟩,
   ⟨"log_level", "logging", "level"⟩,
   ⟨"log_format", "logging", "format"⟩,
   ⟨"cipher_watch_url", "cipher", "watch_url"⟩,
   ⟨"cipher_player_base_url", "cipher", "player_base_url"⟩,
   ⟨"cipher_param", "cipher", "param"⟩,
   ⟨"streams_probe_timeout_seconds", "streams", "probe_timeout_seconds"⟩,
   ⟨"streams_allow_unvalidated_fallback", "streams", "allow_unvalidated_fallback"⟩,
   ⟨"streams_related_limit", "streams", "related_limit"⟩]

/-- The fields of an object under a key; none if there is no object. -/
def fieldsAt (layer : Keyed Value) (key : String) : Keyed Value :=
  match layer.get? key with
  | some (.object fields) => fields
  | _ => []

/-- Set a key inside a section. -/
def putAt (layer : Keyed Value) (heading key : String) (v : Value) : Keyed Value :=
  layer.put heading (.object ((fieldsAt layer heading).put key v))

/-- The sections of a layer that are objects, and its settings that stand in no section. -/
def sectioned (layer : Keyed Value) : Keyed Value :=
  (sections.filterMap fun s =>
    match layer.get? s with
    | some (.object fields) => some (s, .object fields)
    | _ => none) ++
  topSettings.filterMap fun s => (layer.get? s).map (s, ·)

/-- A layer with all its settings in sections. -/
def normalize (layer : Keyed Value) : Keyed Value :=
  flatNames.foldl (fun out f =>
    match layer.get? f.name with
    | some v => putAt out f.heading f.key v
    | none => out) (sectioned layer)

/-! ## Laws -/

/-- What a merged object has under a key, when the later one lists no key twice. -/
theorem get?_merge (base new : Keyed Value) (key : String) (h : (Keyed.keys new).Nodup) :
    Keyed.get? (merge base new) key =
      match Keyed.get? new key with
      | some v => some (overlay (base.get? key) v)
      | none => base.get? key := by
  induction new generalizing base with
  | nil => simp [merge, Keyed.get?]
  | cons e rest ih =>
    obtain ⟨k, v⟩ := e
    have hk : k ∉ Keyed.keys rest := (List.nodup_cons.1 h).1
    have hrest : (Keyed.keys rest).Nodup := (List.nodup_cons.1 h).2
    rw [merge, ih _ hrest, Keyed.get?]
    by_cases he : k = key
    · subst he
      rw [if_pos rfl, (Keyed.get?_eq_none_iff rest k).2 hk, Keyed.get?_put, if_pos rfl]
    · rw [if_neg he]
      simp only [Keyed.get?_put, if_neg he]

end StreamResolver.Config
