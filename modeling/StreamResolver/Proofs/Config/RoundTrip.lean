/-
  A written configuration reads back.

  `Config.sectionFields` gives every setting in its section, so as the highest layer it leaves nothing
  to the others (`valueIn_mergeLayers_written`).  What is read depends on what stands at the places of
  the settings alone, provided that no flat name is left that would win over a section, and that no
  section is something else than an object (`readFields_congr`).  Laying sectioned layers over each
  other never brings either about, whatever the lower ones say (`shaped_mergeLayers`).

  So it is enough to read the written object itself, and there each check meets the value that it once
  gave: a name that was trimmed is not trimmed again, a number that was let through is let through
  again.
-/
import StreamResolver.Proofs.Config.Accepted
import StreamResolver.Proofs.Config.Precedence

namespace StreamResolver.Config

/-! ## What reading depends on -/

/-- An object that gives no setting under its flat name, and whose sections are objects. -/
structure Shaped (fields : Keyed Value) : Prop where
  unnamed : ∀ f ∈ flatNames, fields.get? f.name = none
  objects : ∀ heading ∈ sections, ∀ v, fields.get? heading = some v → v.isObject = true

variable {a b : Keyed Value}

theorem Shaped.givenAs (h : Shaped a) {f : FlatName} (hf : f ∈ flatNames) :
    givenAs a f.name f.heading f.key =
      ((Place.inside f).valueIn a).map ([f.heading, f.key], ·) := by
  rw [Config.givenAs, h.unnamed f hf]
  rfl

theorem Shaped.checkGroup {α : Type} (h : Shaped a) {heading : String} (hheading : heading ∈ sections)
    (group : String) (read : Keyed Value → Checked α) :
    checkGroup a heading group read = read (fieldsAt a heading) := by
  rw [Config.checkGroup, fieldsAt]
  rcases hget : a.get? heading with _ | v
  · rfl
  · have hobject := h.objects heading hheading v hget
    cases v with
    | object fields => rfl
    | _ => cases hobject

/-- **What is read depends on what stands at the places of the settings.** -/
theorem readFields_congr (ha : Shaped a) (hb : Shaped b)
    (h : ∀ p ∈ Place.all, p.valueIn a = p.valueIn b) : readFields a = readFields b := by
  have hnamed : ∀ f ∈ flatNames,
      Config.givenAs a f.name f.heading f.key = Config.givenAs b f.name f.heading f.key := by
    intro f hf
    rw [ha.givenAs hf, hb.givenAs hf, h _ (Place.inside_mem.mpr hf)]
  have htop : ∀ name ∈ topSettings, givenIn [] a name = givenIn [] b name := fun name hname =>
    congrArg (Option.map _) (h _ (Place.top_mem.mpr hname))
  have hinside : ∀ f ∈ flatNames, givenIn [f.heading] (fieldsAt a f.heading) f.key =
      givenIn [f.heading] (fieldsAt b f.heading) f.key := fun f hf =>
    congrArg (Option.map _) (h _ (Place.inside_mem.mpr hf))
  have hcipher : readCipher (fieldsAt a "cipher") = readCipher (fieldsAt b "cipher") := by
    unfold readCipher
    rw [hinside ⟨"cipher_watch_url", "cipher", "watch_url"⟩ (by decide),
      hinside ⟨"cipher_player_base_url", "cipher", "player_base_url"⟩ (by decide),
      hinside ⟨"cipher_param", "cipher", "param"⟩ (by decide)]
  have hstreams : readStreams (fieldsAt a "streams") = readStreams (fieldsAt b "streams") := by
    unfold readStreams
    rw [hinside ⟨"streams_probe_timeout_seconds", "streams", "probe_timeout_seconds"⟩ (by decide),
      hinside ⟨"streams_allow_unvalidated_fallback", "streams", "allow_unvalidated_fallback"⟩
        (by decide),
      hinside ⟨"streams_related_limit", "streams", "related_limit"⟩ (by decide)]
  unfold readFields
  rw [htop "app_name" (by decide), htop "environment" (by decide),
    hnamed ⟨"invidious_instance", "invidious", "instance"⟩ (by decide),
    hnamed ⟨"invidious_timeout_seconds", "invidious", "timeout_seconds"⟩ (by decide),
    hnamed ⟨"http_user_agent", "http", "user_agent"⟩ (by decide),
    hnamed ⟨"log_level", "logging", "level"⟩ (by decide),
    hnamed ⟨"log_format", "logging", "format"⟩ (by decide),
    ha.checkGroup (by decide), hb.checkGroup (by decide), hcipher,
    ha.checkGroup (by decide), hb.checkGroup (by decide), hstreams]

/-! ## The shape of merged layers -/

theorem Sectioned.shaped (h : Sectioned a) : Shaped a where
  unnamed _ hf := h.unnamed hf
  objects := h.objects

theorem overlay_isObject (old : Option Value) {v : Value} (h : v.isObject = true) :
    (overlay old v).isObject = true := by
  cases v with
  | object fields =>
    rcases old with _ | w
    · rfl
    · cases w <;> rfl
  | _ => cases h

theorem Shaped.merge (h : Shaped a) (hb : Sectioned b) : Shaped (merge a b) where
  unnamed f hf := by
    rw [get?_merge a b f.name hb.distinct, hb.shaped.unnamed f hf]
    exact h.unnamed f hf
  objects heading hheading v hv := by
    rw [get?_merge a b heading hb.distinct] at hv
    rcases hnew : b.get? heading with _ | w
    · rw [hnew] at hv
      exact h.objects heading hheading v hv
    · rw [hnew] at hv
      cases hv
      exact overlay_isObject _ (hb.objects heading hheading w hnew)

/-- **No run of layers leaves a flat name, or a section that is no object.** -/
theorem shaped_mergeLayers (layers : List (Keyed Value)) : Shaped (mergeLayers layers) := by
  have hempty : Shaped [] := ⟨fun _ _ => rfl, fun _ _ _ hv => nomatch hv⟩
  rw [mergeLayers]
  exact List.foldlRecOn layers _ hempty fun _ hbase layer _ =>
    hbase.merge (normalize_sectioned layer)

/-! ## The written configuration -/

/-- Its sections have the keys that those of any other configuration have. -/
theorem keys_fieldsAt_sectionFields (c : Config) : ∀ heading ∈ sections,
    Keyed.keys (fieldsAt c.sectionFields heading) =
      Keyed.keys (fieldsAt ({} : Config).sectionFields heading) := by
  simp only [sections, List.forall_mem_cons, List.not_mem_nil, false_implies, implies_true, and_true]
  exact ⟨rfl, rfl, rfl, rfl, rfl⟩

theorem proper_sectionFields (c : Config) : Proper c.sectionFields := by
  intro heading hheading
  rw [keys_fieldsAt_sectionFields c heading hheading]
  exact (by decide : ∀ heading ∈ sections,
    (Keyed.keys (fieldsAt ({} : Config).sectionFields heading)).Nodup) heading hheading

theorem shaped_sectionFields (c : Config) : Shaped c.sectionFields where
  unnamed f hf := by
    rw [Keyed.get?_eq_none_iff]
    exact (by decide : ∀ f ∈ flatNames, f.name ∉ topSettings ++ sections) f hf
  objects := by
    simp only [sections, List.forall_mem_cons, List.not_mem_nil, false_implies, implies_true,
      and_true]
    refine ⟨?_, ?_, ?_, ?_, ?_⟩ <;> rintro v ⟨⟩ <;> rfl

/-- Every setting is written, and none as an object. -/
theorem valueIn_sectionFields (c : Config) :
    ∀ p ∈ Place.all, ∃ v, p.valueIn c.sectionFields = some v ∧ v.isObject = false := by
  simp only [Place.all, topSettings, flatNames, List.map_cons, List.map_nil, List.cons_append,
    List.nil_append, List.forall_mem_cons, List.not_mem_nil, false_implies, implies_true, and_true]
  exact ⟨⟨_, rfl, rfl⟩, ⟨_, rfl, rfl⟩, ⟨_, rfl, rfl⟩, ⟨_, rfl, rfl⟩, ⟨_, rfl, rfl⟩, ⟨_, rfl, rfl⟩,
    ⟨_, rfl, rfl⟩, ⟨_, rfl, rfl⟩, ⟨_, rfl, rfl⟩, ⟨_, rfl, rfl⟩, ⟨_, rfl, rfl⟩, ⟨_, rfl, rfl⟩,
    ⟨_, rfl, rfl⟩⟩

theorem suppliedBy_sectionFields (c : Config) {p : Place} (hp : p ∈ Place.all) :
    p.suppliedBy c.sectionFields = p.valueIn c.sectionFields := by
  cases p with
  | top name => rfl
  | inside f =>
    rw [Place.suppliedBy, Place.flatIn,
      (shaped_sectionFields c).unnamed f (Place.inside_mem.mp hp), Option.none_or]

theorem mergeLayers_concat (layers : List (Keyed Value)) (top : Keyed Value) :
    mergeLayers (layers ++ [top]) = merge (mergeLayers layers) (normalize top) := by
  rw [mergeLayers, List.foldl_append]
  rfl

/-- **As the highest layer a written configuration leaves nothing to the others.** -/
theorem valueIn_mergeLayers_written (c : Config) (layers : List (Keyed Value)) {p : Place}
    (hp : p ∈ Place.all) :
    p.valueIn (mergeLayers (layers ++ [c.sectionFields])) = p.valueIn c.sectionFields := by
  obtain ⟨v, hv, hplain⟩ := valueIn_sectionFields c p hp
  have hsupplied := (suppliedBy_sectionFields c hp).trans hv
  have hplainIn : p.PlainIn c.sectionFields := fun w hw => by
    rw [hsupplied] at hw
    cases hw
    exact hplain
  rw [mergeLayers_concat, p.valueIn_layer hp _ (proper_sectionFields c) hplainIn, hsupplied, hv,
    Option.some_or]

/-! ## Reading it back -/

theorem check_found {α : Type} {path : List String} {v : Value} {default x : α}
    {read : Value → Except Refusal α} (h : read v = .ok x) :
    check (some (path, v)) default read = .ok x := by
  rw [check, h]

theorem positive_float (name : String) {x : Binary64} (h : x.atMostZero = false) :
    positive name (.float x) = .ok x := by
  simp only [positive, Setting.number, bind, Except.bind]
  rw [h]
  rfl

theorem count_int (name : String) (n : Nat) : count name (.int n) = .ok n := by
  simp only [count, Setting.integer, bind, Except.bind]
  rw [if_neg (Int.not_lt.mpr (Int.natCast_nonneg n)), Int.toNat_natCast]

theorem instanceText_bare {s : String} (hne : s.toList ≠ []) (h : Text.Bare s.toList) :
    instanceText (.str s) = .ok s := by
  simp only [instanceText, Setting.text, bind, Except.bind]
  rw [Text.trim_of_bare h, if_neg (by rwa [List.isEmpty_iff]), String.ofList_toList]

theorem oneOf_environment (e : Environment) :
    Setting.oneOf Environment.all Environment.word (.str e.word) = .ok e := by
  cases e <;> rfl

theorem oneOf_level {l : Level} (h : l ∈ Level.settable) :
    Setting.oneOf Level.settable Level.word (.str l.word) = .ok l := by
  cases l with
  | critical => exact absurd h (by decide)
  | _ => rfl

theorem formatChoice_word (f : LogFormat) : formatChoice (.str f.word) = .ok (some f) := by
  cases f <;> rfl

/-- The written object reads as the configuration that was written. -/
theorem readFields_sectionFields {c : Config} (h : Accepted c) :
    readFields c.sectionFields = .ok c := by
  rw [readFields_eq_ok_iff]
  exact {
    appName := rfl
    environment := check_found (oneOf_environment c.environment)
    instanceName := check_found (instanceText_bare h.named h.bare)
    timeout := check_found (positive_float _ h.timeout)
    userAgent := rfl
    logLevel := check_found (oneOf_level h.logLevel)
    logFormat := ⟨some c.logFormat, check_found (formatChoice_word c.logFormat), rfl⟩
    cipher := rfl
    streams := (readStreams_eq_ok_iff _ c.streams).mpr {
      probeTimeout := check_found (positive_float _ h.probeTimeout)
      allowUnvalidated := rfl
      relatedLimit := check_found (count_int _ c.streams.relatedLimit) } }

theorem readFields_mergeLayers_written {c : Config} (h : Accepted c)
    (layers : List (Keyed Value)) :
    readFields (mergeLayers (layers ++ [c.sectionFields])) = .ok c := by
  rw [readFields_congr (shaped_mergeLayers _) (shaped_sectionFields c) fun _ hp =>
    valueIn_mergeLayers_written c layers hp]
  exact readFields_sectionFields h

/-- **What was read is written as an object that reads as the same configuration, also as the highest
    of all layers, whatever the others say.** -/
theorem reads_back {v : Value} {c : Config} (h : read v = .ok c) :
    read (.object c.sectionFields) = .ok c ∧
      ∀ (s : Sources) (env : Keyed String) (file fromEnv : Keyed Value),
        variablesOf s = .ok env → fileLayer s env = .ok file → variableLayer env = .ok fromEnv →
          load { s with overrides := c.sectionFields } = .ok c := by
  have haccepted := accepted_of_read h
  constructor
  · rw [read, readFields_sectionFields haccepted]
  · intro s env file fromEnv hvars hfile hlayer
    have hload := load_of_layers (s := { s with overrides := c.sectionFields }) hvars hfile hlayer
    have hread := readFields_mergeLayers_written haccepted [defaultLayer, file, fromEnv]
    rw [List.cons_append, List.cons_append, List.singleton_append] at hread
    rw [hload, hread]
    rfl

/-- A configuration of production, read from an object of a mixed shape. -/
def production : Config :=
  { environment := .prod, instanceName := "host", timeout := .ofInt 2, logFormat := .json }

theorem reads_back_production :
    read (.object production.sectionFields) = .ok production ∧
      load { manyLayers with overrides := production.sectionFields } = .ok production := by
  have hread : read (.object [("environment", .str "prod"), ("invidious_instance", .str " host "),
      ("invidious", .object [("timeout_seconds", .int 2)])]) = .ok production := by rfl
  obtain ⟨halone, hlayered⟩ := reads_back hread
  obtain ⟨file, hfile, -⟩ := fileLayer_manyLayers
  exact ⟨halone, hlayered manyLayers _ file _ variablesOf_manyLayers hfile
    variableLayer_manyLayers⟩

end StreamResolver.Config
