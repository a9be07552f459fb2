/-
  What layers say for a setting, and what is left when they are laid over each other.

  A setting has a place in the shape with sections (`Place`), and a layer may supply it in two ways:
  under its flat name, or in its section (`Place.suppliedBy`).  Bringing a layer into sections keeps
  what it supplies and nothing else (`valueIn_normalize`), and laying it over what is there changes
  exactly the settings that it supplies (`valueIn_merge`).  So after a run of layers each setting is
  what the last layer that supplies it says (`valueIn_mergeLayers`).

  Two things could spoil this.  An object at a setting would be merged with an object below it, so
  what is supplied must be no object.  And a section that listed a key twice would say one thing to
  a look-up and another one to a merge; such a table stands for no mapping.
-/
import StreamResolver.Config.Load
import StreamResolver.Proofs.Config.Merging

namespace StreamResolver.Config

/-! ## Places -/

/-- Where a setting stands in an object with sections. -/
inductive Place where
  | top (name : String)
  | inside (f : FlatName)
  deriving DecidableEq

namespace Place

/-- The places of all settings. -/
def all : List Place := topSettings.map .top ++ flatNames.map .inside

/-- The flat name of a setting. -/
def name : Place → String
  | .top name => name
  | .inside f => f.name

/-- What an object with sections has at a place. -/
def valueIn (fields : Keyed Value) : Place → Option Value
  | .top name => fields.get? name
  | .inside f => (fieldsAt fields f.heading).get? f.key

/-- What a layer has under the flat name of a setting in a section. -/
def flatIn (layer : Keyed Value) : Place → Option Value
  | .top _ => none
  | .inside f => layer.get? f.name

/-- What a layer supplies for a setting: what it has under the flat name, or else in the section, if
    that is an object. -/
def suppliedBy (layer : Keyed Value) (p : Place) : Option Value :=
  (p.flatIn layer).or (p.valueIn layer)

/-- A layer supplies no object for a setting. -/
def PlainIn (layer : Keyed Value) (p : Place) : Prop :=
  ∀ v, p.suppliedBy layer = some v → v.isObject = false

instance (layer : Keyed Value) (p : Place) : Decidable (p.PlainIn layer) :=
  decidable_of_iff ((p.suppliedBy layer).all (!·.isObject) = true) <| by
    unfold PlainIn
    rcases p.suppliedBy layer with _ | v <;> simp

theorem inside_mem {f : FlatName} : .inside f ∈ all ↔ f ∈ flatNames := by
  simp [all]

theorem top_mem {name : String} : .top name ∈ all ↔ name ∈ topSettings := by
  simp [all]

end Place

theorem heading_mem : ∀ f ∈ flatNames, f.heading ∈ sections := by decide

theorem top_not_section : ∀ name ∈ topSettings, name ∉ sections := by decide

theorem flat_name_unknown : ∀ f ∈ flatNames, f.name ∉ sections ++ topSettings := by decide

/-- Settings at one place are one setting. -/
theorem flatNames_inj : ∀ f ∈ flatNames, ∀ g ∈ flatNames,
    f.heading = g.heading → f.key = g.key → f = g := by decide

/-! ## Sections -/

theorem fieldsAt_put (fields : Keyed Value) (key key' : String) (v : Value) :
    fieldsAt (fields.put key v) key' =
      if key = key' then v.fields?.getD [] else fieldsAt fields key' := by
  rw [fieldsAt, Keyed.get?_put]
  by_cases h : key = key'
  · rw [if_pos h, if_pos h]
    cases v <;> rfl
  · rw [if_neg h, if_neg h, fieldsAt]

/-- No section of a layer lists a key twice. -/
def Proper (layer : Keyed Value) : Prop :=
  ∀ heading ∈ sections, (Keyed.keys (fieldsAt layer heading)).Nodup

instance (layer : Keyed Value) : Decidable (Proper layer) :=
  inferInstanceAs (Decidable (∀ heading ∈ sections, (Keyed.keys (fieldsAt layer heading)).Nodup))

/-- The shape that `normalize` gives to a layer. -/
structure Sectioned (fields : Keyed Value) : Prop where
  distinct : (Keyed.keys fields).Nodup
  known : ∀ key ∈ Keyed.keys fields, key ∈ sections ++ topSettings
  objects : ∀ heading ∈ sections, ∀ v, fields.get? heading = some v → v.isObject = true

theorem sectioned_eq (layer : Keyed Value) :
    sectioned layer =
      (sections.filterMap fun s => ((layer.get? s).filter Value.isObject).map (s, ·)) ++
        topSettings.filterMap fun s => (layer.get? s).map (s, ·) := by
  refine congrArg (fun f => sections.filterMap f ++ _) (funext fun s => ?_)
  rcases layer.get? s with _ | v
  · rfl
  · cases v <;> rfl

theorem get?_sectioned (layer : Keyed Value) (key : String) :
    (sectioned layer).get? key =
      if key ∈ sections then (layer.get? key).filter Value.isObject
      else if key ∈ topSettings then layer.get? key else none := by
  rw [sectioned_eq, Keyed.get?_append, Keyed.get?_pick sections, Keyed.get?_pick topSettings]
  by_cases hs : key ∈ sections
  · have ht : key ∉ topSettings := fun ht => top_not_section key ht hs
    rw [if_pos hs, if_pos hs, if_neg ht, Option.or_none]
  · rw [if_neg hs, if_neg hs, Option.none_or]

theorem fieldsAt_sectioned (layer : Keyed Value) {heading : String} (h : heading ∈ sections) :
    fieldsAt (sectioned layer) heading = fieldsAt layer heading := by
  rw [fieldsAt, get?_sectioned, if_pos h, fieldsAt]
  rcases layer.get? heading with _ | v
  · rfl
  · cases v <;> rfl

theorem keys_sectioned_sublist (layer : Keyed Value) :
    (Keyed.keys (sectioned layer)).Sublist (sections ++ topSettings) := by
  rw [sectioned_eq, Keyed.keys, List.map_append]
  -- each part has its keys in the order of its list, some of them left out
  refine .append ?_ ?_
  · exact List.map_id sections ▸ Keyed.keys_filterMap_sublist sections id _
  · exact List.map_id topSettings ▸ Keyed.keys_filterMap_sublist topSettings id _

theorem sectioned_sectioned (layer : Keyed Value) : Sectioned (sectioned layer) where
  distinct := (keys_sectioned_sublist layer).nodup (by decide)
  known _ hkey := (keys_sectioned_sublist layer).subset hkey
  objects heading hheading v hv := by
    rw [get?_sectioned, if_pos hheading] at hv
    exact (Option.filter_eq_some_iff.mp hv).2

theorem Proper.sectioned {layer : Keyed Value} (h : Proper layer) : Proper (sectioned layer) :=
  fun heading hheading => fieldsAt_sectioned layer hheading ▸ h heading hheading

theorem Sectioned.unnamed {fields : Keyed Value} (h : Sectioned fields) {f : FlatName}
    (hf : f ∈ flatNames) : fields.get? f.name = none :=
  (Keyed.get?_eq_none_iff fields f.name).mpr fun hmem =>
    flat_name_unknown f hf (h.known f.name hmem)

/-- Setting a key inside a section keeps the shape. -/
theorem Sectioned.putAt {fields : Keyed Value} (h : Sectioned fields) {heading : String}
    (hheading : heading ∈ sections) (key : String) (v : Value) :
    Sectioned (putAt fields heading key v) where
  distinct := Keyed.nodup_put h.distinct heading _
  known key' hkey' := by
    rw [Config.putAt, Keyed.keys_put] at hkey'
    split at hkey'
    · exact h.known key' hkey'
    · rcases List.mem_append.mp hkey' with hold | hnew
      · exact h.known key' hold
      · rw [List.mem_singleton.mp hnew]
        exact List.mem_append_left topSettings hheading
  objects heading' hheading' w hw := by
    rw [Config.putAt, Keyed.get?_put] at hw
    split at hw
    · cases hw
      rfl
    · exact h.objects heading' hheading' w hw

theorem Proper.putAt {fields : Keyed Value} (h : Proper fields) {heading : String}
    (hheading : heading ∈ sections) (key : String) (v : Value) :
    Proper (putAt fields heading key v) := by
  intro heading' hheading'
  rw [Config.putAt, fieldsAt_put]
  split
  · exact Keyed.nodup_put (h heading hheading) key v
  · exact h heading' hheading'

/-! ## Bringing a layer into sections -/

/-- Bring one setting of a layer into its section. -/
def bringIn (layer out : Keyed Value) (f : FlatName) : Keyed Value :=
  match layer.get? f.name with
  | some v => putAt out f.heading f.key v
  | none => out

theorem normalize_eq (layer : Keyed Value) :
    normalize layer = flatNames.foldl (bringIn layer) (sectioned layer) := rfl

/-- What holds of the sections of a layer, and is kept when a setting is put into its section, holds
    of the normalized layer. -/
theorem normalize_induction {P : Keyed Value → Prop} {layer : Keyed Value}
    (hstart : P (sectioned layer))
    (hput : ∀ out v, ∀ f ∈ flatNames, P out → P (putAt out f.heading f.key v)) :
    P (normalize layer) := by
  rw [normalize_eq]
  refine List.foldlRecOn flatNames (bringIn layer) hstart fun out hout f hf => ?_
  rw [bringIn]
  split
  · exact hput out _ f hf hout
  · exact hout

/-- **A normalized layer has the shape with sections, whatever the layer says.** -/
theorem normalize_sectioned (layer : Keyed Value) : Sectioned (normalize layer) :=
  normalize_induction (sectioned_sectioned layer) fun _ v f hf hout =>
    hout.putAt (heading_mem f hf) f.key v

theorem Proper.normalize {layer : Keyed Value} (h : Proper layer) : Proper (normalize layer) :=
  normalize_induction h.sectioned fun _ v f hf hout => hout.putAt (heading_mem f hf) f.key v

theorem Place.valueIn_putAt {p : Place} (hp : p ∈ Place.all) {f : FlatName} (hf : f ∈ flatNames)
    (fields : Keyed Value) (v : Value) :
    p.valueIn (Config.putAt fields f.heading f.key v) =
      if p = .inside f then some v else p.valueIn fields := by
  cases p with
  | top name =>
    -- no section has the name of a setting that stands in none
    have hne : f.heading ≠ name := fun h =>
      top_not_section name (Place.top_mem.mp hp) (h ▸ heading_mem f hf)
    rw [if_neg (by rintro ⟨⟩), valueIn, Config.putAt, Keyed.get?_put, if_neg hne, valueIn]
  | inside g =>
    rw [valueIn, Config.putAt, fieldsAt_put]
    by_cases hheading : f.heading = g.heading
    · rw [if_pos hheading, Value.fields?, Option.getD_some, Keyed.get?_put]
      by_cases hkey : f.key = g.key
      · rw [if_pos hkey, flatNames_inj f hf g (Place.inside_mem.mp hp) hheading hkey, if_pos rfl]
      · rw [if_neg hkey, if_neg (by rintro ⟨⟩; exact hkey rfl), hheading, valueIn]
    · rw [if_neg hheading, if_neg (by rintro ⟨⟩; exact hheading rfl), valueIn]

theorem Place.valueIn_bringIn {p : Place} (hp : p ∈ Place.all) {f : FlatName} (hf : f ∈ flatNames)
    (layer out : Keyed Value) :
    p.valueIn (Config.bringIn layer out f) =
      if p = .inside f then (p.flatIn layer).or (p.valueIn out) else p.valueIn out := by
  rw [Config.bringIn]
  by_cases h : p = .inside f
  · rw [if_pos h, h, flatIn]
    rcases layer.get? f.name with _ | v
    · rw [Option.none_or]
    · rw [Place.valueIn_putAt (h ▸ hp) hf, if_pos rfl, Option.some_or]
  · rw [if_neg h]
    split
    · rw [Place.valueIn_putAt hp hf, if_neg h]
    · rfl

/-- Bringing settings into their sections changes these settings and no other. -/
theorem Place.valueIn_foldl_bringIn {p : Place} (hp : p ∈ Place.all) (layer : Keyed Value)
    {fs : List FlatName} (hfs : ∀ f ∈ fs, f ∈ flatNames) (out : Keyed Value) :
    p.valueIn (fs.foldl (Config.bringIn layer) out) =
      if p ∈ fs.map Place.inside then (p.flatIn layer).or (p.valueIn out) else p.valueIn out := by
  induction fs generalizing out with
  | nil => rfl
  | cons f fs ih =>
    rw [List.foldl_cons, ih fun g hg => hfs g (List.mem_cons_of_mem f hg),
      Place.valueIn_bringIn hp (hfs f List.mem_cons_self), List.map_cons]
    by_cases hf : p = .inside f
    · -- the flat name is asked for again, and says the same
      have hmem : p ∈ Place.inside f :: fs.map Place.inside := hf ▸ List.mem_cons_self
      rw [if_pos hf, if_pos hmem, ← Option.or_assoc, Option.or_self, ite_self]
    · rw [if_neg hf]
      simp only [List.mem_cons, hf, false_or]

/-- **What a normalized layer has at a place is what the layer supplies for the setting.** -/
theorem Place.valueIn_normalize {p : Place} (hp : p ∈ Place.all) (layer : Keyed Value) :
    p.valueIn (normalize layer) = p.suppliedBy layer := by
  rw [normalize_eq, Place.valueIn_foldl_bringIn hp layer fun _ hf => hf]
  cases p with
  | top name =>
    have htop := Place.top_mem.mp hp
    rw [if_neg (by simp), suppliedBy, flatIn, Option.none_or, valueIn, valueIn, get?_sectioned,
      if_neg (top_not_section name htop), if_pos htop]
  | inside f =>
    have hf := Place.inside_mem.mp hp
    rw [if_pos (List.mem_map_of_mem hf), suppliedBy, valueIn, valueIn,
      fieldsAt_sectioned layer (heading_mem f hf)]

/-! ## Laying layers over each other -/

/-- What a section has under a key is what the object there has. -/
theorem fieldsAt_get? (layer : Keyed Value) (heading key : String) :
    (fieldsAt layer heading).get? key = (layer.get? heading).bind (·.get? key) := by
  rw [fieldsAt]
  rcases layer.get? heading with _ | v
  · rfl
  · cases v <;> rfl

/-- What stands in a section once an object with sections is laid over. -/
theorem get?_fieldsAt_merge (base : Keyed Value) {new : Keyed Value} (h : Sectioned new)
    (hproper : Proper new) {heading : String} (hheading : heading ∈ sections) (key : String) :
    (fieldsAt (merge base new) heading).get? key =
      match (fieldsAt new heading).get? key with
      | some v => some (overlay ((fieldsAt base heading).get? key) v)
      | none => (fieldsAt base heading).get? key := by
  have hinner := hproper heading hheading
  rw [fieldsAt_get?, get?_merge base new heading h.distinct, fieldsAt_get?, fieldsAt_get?]
  rcases hnew : new.get? heading with _ | v
  · rfl
  · obtain ⟨fields, rfl⟩ := Value.exists_fields (h.objects heading hheading v hnew)
    rw [fieldsAt, hnew] at hinner
    exact get?_overlay (base.get? heading) hinner key

/-- **Laying an object with sections over another changes the settings that it has, and no other.** -/
theorem Place.valueIn_merge {p : Place} (hp : p ∈ Place.all) (base : Keyed Value)
    {new : Keyed Value} (h : Sectioned new) (hproper : Proper new)
    (hplain : ∀ v, p.valueIn new = some v → v.isObject = false) :
    p.valueIn (merge base new) = (p.valueIn new).or (p.valueIn base) := by
  cases p with
  | top name =>
    rw [valueIn, get?_merge base new name h.distinct, valueIn]
    rcases hv : new.get? name with _ | v
    · rfl
    · exact congrArg some (overlay_of_plain _ (hplain v hv))
  | inside f =>
    rw [valueIn, get?_fieldsAt_merge base h hproper (heading_mem f (inside_mem.mp hp)), valueIn]
    rcases hv : (fieldsAt new f.heading).get? f.key with _ | v
    · rfl
    · exact congrArg some (overlay_of_plain _ (hplain v hv))

/-- Lay a layer over what the lower ones give. -/
theorem Place.valueIn_layer {p : Place} (hp : p ∈ Place.all) (base : Keyed Value)
    {layer : Keyed Value} (hproper : Proper layer) (hplain : p.PlainIn layer) :
    p.valueIn (merge base (normalize layer)) = (p.suppliedBy layer).or (p.valueIn base) := by
  have hvalue := p.valueIn_normalize hp layer
  rw [p.valueIn_merge hp base (normalize_sectioned layer) hproper.normalize (hvalue ▸ hplain), hvalue]

/-- **After a run of layers a setting is what the last layer that supplies it says.** -/
theorem Place.valueIn_mergeLayers {p : Place} (hp : p ∈ Place.all) {layers : List (Keyed Value)}
    (hproper : ∀ layer ∈ layers, Proper layer) (hplain : ∀ layer ∈ layers, p.PlainIn layer) :
    p.valueIn (mergeLayers layers) = layers.reverse.findSome? p.suppliedBy := by
  suffices hrun : ∀ (base : Keyed Value),
      p.valueIn (layers.foldl (fun base layer => merge base (normalize layer)) base) =
        (layers.reverse.findSome? p.suppliedBy).or (p.valueIn base) by
    have hempty : p.valueIn [] = none := by cases p <;> rfl
    rw [mergeLayers, hrun, hempty, Option.or_none]
  induction layers with
  | nil => exact fun _ => rfl
  | cons layer layers ih =>
    intro base
    -- the layers behind this one are asked first, and the base after it
    have hlater := ih (fun l hl => hproper l (List.mem_cons_of_mem layer hl))
      (fun l hl => hplain l (List.mem_cons_of_mem layer hl))
    rw [List.foldl_cons, hlater, List.reverse_cons, List.findSome?_append, Option.or_assoc,
      p.valueIn_layer hp base (hproper layer List.mem_cons_self)
        (hplain layer List.mem_cons_self), List.findSome?_singleton]

end StreamResolver.Config
