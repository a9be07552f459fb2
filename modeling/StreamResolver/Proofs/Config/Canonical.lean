/-
  The canonical form of a layer.

  A layer may name a setting in two ways and may hold anything besides; `normalize` leaves one way
  (`Canonical`).  What is no section and no setting is dropped, and so is a section that is no object.
  A section keeps its keys, known or not, except where the layer gives the setting of the key under
  its flat name; a section that the layer does not have is made when one of its settings is given so.

  A layer that has the shape with sections has no flat name left and only objects as sections, so
  nothing is dropped and nothing is moved when it is normalized again.  It comes out as the same
  mapping, though not with its keys in the same order: the sections come first.
-/
import StreamResolver.Proofs.Config.Layers

namespace StreamResolver.Config

/-! ## Layers with the shape -/

section Shape

variable {fields : Keyed Value}

theorem Sectioned.get?_sectioned (h : Sectioned fields) (key : String) :
    (sectioned fields).get? key = fields.get? key := by
  rw [Config.get?_sectioned]
  by_cases hsection : key ∈ sections
  · rw [if_pos hsection]
    rcases hv : fields.get? key with _ | v
    · rfl
    · rw [Option.filter_some, if_pos (h.objects key hsection v hv)]
  rw [if_neg hsection]
  by_cases htop : key ∈ topSettings
  · rw [if_pos htop]
  · rw [if_neg htop, eq_comm, Keyed.get?_eq_none_iff]
    exact fun hmem => (List.mem_append.mp (h.known key hmem)).elim hsection htop

/-- No flat name is left to be brought into its section. -/
theorem Sectioned.normalize_eq (h : Sectioned fields) : normalize fields = sectioned fields := by
  rw [Config.normalize_eq]
  refine List.foldlRecOn (motive := fun out => out = sectioned fields) flatNames (bringIn fields) rfl
    fun out hout f hf => ?_
  rw [bringIn, h.unnamed hf]
  exact hout

/-- A layer with the shape is normalized already. -/
theorem Sectioned.get?_normalize (h : Sectioned fields) (key : String) :
    (normalize fields).get? key = fields.get? key := by
  rw [h.normalize_eq, h.get?_sectioned]

end Shape

/-! ## What is kept -/

variable (layer : Keyed Value)

/-- Outside the sections only the settings that stand in no section are kept. -/
theorem get?_normalize_of_not_section {key : String} (hkey : key ∉ sections) :
    (normalize layer).get? key = if key ∈ topSettings then layer.get? key else none := by
  refine normalize_induction
    (P := fun out => out.get? key = if key ∈ topSettings then layer.get? key else none) ?_
    fun out v f hf hout => ?_
  · rw [get?_sectioned, if_neg hkey]
  · have hne : f.heading ≠ key := fun h => hkey (h ▸ heading_mem f hf)
    rw [putAt, Keyed.get?_put, if_neg hne, hout]

/-- Inside a section the keys that are no settings are kept. -/
theorem get?_fieldsAt_normalize {heading key : String} (hheading : heading ∈ sections)
    (hkey : ∀ f ∈ flatNames, f.heading = heading → f.key ≠ key) :
    (fieldsAt (normalize layer) heading).get? key = (fieldsAt layer heading).get? key := by
  refine normalize_induction
    (P := fun out => (fieldsAt out heading).get? key = (fieldsAt layer heading).get? key) ?_
    fun out v f hf hout => ?_
  · rw [fieldsAt_sectioned layer hheading]
  · rw [putAt, fieldsAt_put]
    split
    · next heq =>
      rw [Value.fields?, Option.getD_some, Keyed.get?_put, if_neg (hkey f hf heq), heq, hout]
    · exact hout

theorem has_bringIn (out : Keyed Value) (f : FlatName) (key : String) :
    (bringIn layer out f).has key = true ↔
      out.has key = true ∨ (f.heading = key ∧ layer.has f.name = true) := by
  unfold bringIn Keyed.has
  rcases layer.get? f.name with _ | v
  · simp
  · show ((putAt out f.heading f.key v).get? key).isSome = true ↔ _
    rw [putAt, Keyed.get?_put]
    by_cases h : f.heading = key <;> simp [h]

/-- Bringing settings into their sections makes these sections and no other. -/
theorem has_foldl_bringIn (fs : List FlatName) (out : Keyed Value) (key : String) :
    (fs.foldl (bringIn layer) out).has key = true ↔
      out.has key = true ∨ ∃ f ∈ fs, f.heading = key ∧ layer.has f.name = true := by
  induction fs generalizing out with
  | nil => simp
  | cons f fs ih =>
    rw [List.foldl_cons, ih, has_bringIn, or_assoc]
    simp only [List.mem_cons, exists_eq_or_imp]

theorem has_sectioned {heading : String} (hheading : heading ∈ sections) :
    (sectioned layer).has heading = true ↔
      ∃ fields, layer.get? heading = some (.object fields) := by
  rw [Keyed.has, get?_sectioned, if_pos hheading]
  rcases layer.get? heading with _ | v
  · simp
  · cases v <;> simp [Option.filter, Value.isObject, Value.fields?]

/-! ## The canonical form -/

/-- The one way in which `out` says what `layer` says. -/
structure Canonical (layer out : Keyed Value) : Prop where
  /-- No key is listed twice. -/
  distinct : (Keyed.keys out).Nodup
  /-- A section is an object. -/
  objects : ∀ heading ∈ sections, ∀ v, out.get? heading = some v → v.isObject = true
  /-- A section is there if the layer has an object there, or a setting of it under a flat name. -/
  present : ∀ heading ∈ sections, (out.has heading = true ↔
    (∃ fields, layer.get? heading = some (.object fields)) ∨
      ∃ f ∈ flatNames, f.heading = heading ∧ layer.has f.name = true)
  /-- What is no section and no setting is dropped. -/
  others : ∀ key, key ∉ sections →
    out.get? key = if key ∈ topSettings then layer.get? key else none
  /-- A setting in a section is what stands under its flat name, or else what the section has. -/
  settings : ∀ f ∈ flatNames, (fieldsAt out f.heading).get? f.key =
    (layer.get? f.name).or ((fieldsAt layer f.heading).get? f.key)
  /-- Any other key of a section is kept. -/
  unnamed : ∀ heading ∈ sections, ∀ key, (∀ f ∈ flatNames, f.heading = heading → f.key ≠ key) →
    (fieldsAt out heading).get? key = (fieldsAt layer heading).get? key

/-- **Every layer has its canonical form, and that is its own**: normalizing once leaves one way to
    name a setting, and normalizing again changes nothing. -/
theorem normalize_canonical : Canonical layer (normalize layer) ∧
    ∀ key, (normalize (normalize layer)).get? key = (normalize layer).get? key := by
  have hshape := normalize_sectioned layer
  refine ⟨?_, hshape.get?_normalize⟩
  exact {
    distinct := hshape.distinct
    objects := hshape.objects
    present := fun heading hheading => by
      rw [normalize_eq, has_foldl_bringIn, has_sectioned layer hheading]
    others := fun _ hkey => get?_normalize_of_not_section layer hkey
    settings := fun f hf => Place.valueIn_normalize (Place.inside_mem.mpr hf) layer
    unnamed := fun _ hheading _ hkey => get?_fieldsAt_normalize layer hheading hkey }

/-- A section in both shapes, one that is only made by a flat name, and one that is no object. -/
example : normalize [("log_level", .str "DEBUG"), ("cipher_param", .str "n"), ("http", .int 5),
      ("logging", .object [("level", .str "INFO"), ("colour", .null)]), ("other", .null)] =
    [("logging", .object [("level", .str "DEBUG"), ("colour", .null)]),
      ("cipher", .object [("param", .str "n")])] := rfl

end StreamResolver.Config
