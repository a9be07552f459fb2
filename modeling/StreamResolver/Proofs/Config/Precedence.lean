/-
  Which layer decides a setting.

  The layers are the defaults, the configuration file, the variables and what the caller sets; the
  variables are those of the process and, below them, those of the variable file.  `highest_layer_wins`
  says that a setting is what the highest of these five says that says anything, whatever the others
  say for it, and that a layer that says nothing for a setting leaves it as it is.

  What the lemmas about layers ask for has to be shown of each layer.  A file lists no key twice in a
  section however its text repeats and merges keys; the caller's layer is given, so there it is a
  premise.  That no object is supplied for the setting at hand is a premise on both.
-/
import StreamResolver.Proofs.Config.Environment
import StreamResolver.Proofs.Yaml.Mappings

namespace StreamResolver.Config

open Fallible Yaml

/-! ## The configuration file -/

/-- The sections of the object of a table list no key twice. -/
theorem proper_entryValues {entries : Keyed Datum} (h : Datum.Table entries) :
    Proper (Datum.entryValues entries) := by
  intro heading _
  rw [fieldsAt, Datum.get?_entryValues]
  rcases hget : entries.get? heading with _ | d
  · exact .nil
  · rw [Option.map_some]
    split
    · next fields hfields =>
      obtain ⟨inner, rfl, rfl⟩ :=
        Datum.exists_of_toValue_eq_object (Option.some.inj hfields)
      obtain ⟨n, hn⟩ := h.nodes (heading, .map inner) (Keyed.mem_of_get? hget)
      rw [Datum.keys_entryValues]
      exact (Datum.table_of_ofNode hn).distinct
    · exact .nil

theorem proper_documentFields {text : List Char} {d : Datum} {file : Keyed Value}
    (hd : Datum.ofText text = .ok d) (h : documentFields d = .ok file) : Proper file := by
  rw [documentFields.eq_def] at h
  split at h
  · cases h
    exact fun _ _ => .nil
  · split at h
    · next fields hfields =>
      cases h
      obtain ⟨entries, rfl, rfl⟩ := Datum.exists_of_toValue_eq_object hfields
      exact proper_entryValues (Datum.table_of_ofText hd)
    · cases h

/-- **However the text of a file repeats and merges keys, no section of it lists one twice.** -/
theorem proper_fileLayer {s : Sources} {env : Keyed String} {file : Keyed Value}
    (h : fileLayer s env = .ok file) : Proper file := by
  rw [fileLayer] at h
  split at h
  · cases h
    exact fun _ _ => .nil
  · obtain ⟨text, -, h⟩ := exists_of_bind_eq_ok h
    rw [fileFields] at h
    split at h
    · next d hd => exact proper_documentFields hd h
    · cases h

/-! ## The defaults -/

theorem proper_defaultLayer : Proper defaultLayer := by decide

theorem plainIn_defaultLayer : ∀ p ∈ Place.all, p.PlainIn defaultLayer := by decide

/-! ## The variables -/

/-- What the variables say: those of the process, and below them those of the file. -/
theorem Place.boundIn_variablesOf {p : Place} (hp : p ∈ Place.all) {s : Sources}
    {env : Keyed String} {fromEnv : Keyed Value} (hvars : variablesOf s = .ok env)
    (hlayer : variableLayer env = .ok fromEnv) (hdistinct : env.keys.Nodup)
    (hcapitals : NamesInCapitals env) :
    p.boundIn env = (p.boundIn s.env).or (p.boundIn (fileVariables s)) := by
  have hname := Place.name_mem hp
  rcases hkind : Keyed.get? variableKinds p.name with _ | kind
  · exact absurd ((Keyed.get?_eq_none_iff _ _).mp hkind) (not_not_intro hname)
  · simp only [boundIn, hkind, Option.bind_some]
    rw [get?_variablesOf hvars]
    rcases hfound : s.env.get? (variableName p.name) with _ | text
    · rw [Option.none_or, Option.bind_none, Option.none_or]
    · -- a text that was refused would not have given a layer
      have hknown : (lowerNames env).get? (variableStart ++ p.name) = some text := by
        rw [get?_lowerNames hdistinct hcapitals hname, get?_variablesOf hvars, hfound,
          Option.some_or]
      obtain ⟨v, hv⟩ : ∃ v, kind (.str text) = .ok v :=
        variableLayer_accepts hlayer (Keyed.mem_of_get? hkind) hknown
      rw [Option.some_or, Option.bind_some, hv]
      rfl

/-! ## Loading -/

/-- Where no layer fails, loading is reading what they give together. -/
theorem load_of_layers {s : Sources} {env : Keyed String} {file fromEnv : Keyed Value}
    (hvars : variablesOf s = .ok env) (hfile : fileLayer s env = .ok file)
    (hlayer : variableLayer env = .ok fromEnv) :
    load s = (readFields (mergeLayers [defaultLayer, file, fromEnv, s.overrides])).mapError
      .badSettings := by
  have hlayer' : (variableLayer env).mapError LoadError.badVariables = .ok fromEnv := by
    rw [hlayer]
    rfl
  simp only [load, hvars, hfile, hlayer', bind, Except.bind]

/-- **A setting is what the highest layer says that says anything, and a layer that says nothing
    for a setting leaves it as it is.** -/
theorem highest_layer_wins {s : Sources} {env : Keyed String} {file fromEnv : Keyed Value}
    (hvars : variablesOf s = .ok env) (hfile : fileLayer s env = .ok file)
    (hlayer : variableLayer env = .ok fromEnv) (hdistinct : s.env.keys.Nodup)
    (hcapitals : NamesInCapitals env) (hproper : Proper s.overrides) :
    let layers := [defaultLayer, file, fromEnv, s.overrides]
    load s = (readFields (mergeLayers layers)).mapError .badSettings ∧
      ∀ p ∈ Place.all,
        (p.PlainIn file → p.PlainIn s.overrides →
          p.valueIn (mergeLayers layers) =
            ((((p.suppliedBy s.overrides).or (p.boundIn s.env)).or
              (p.boundIn (fileVariables s))).or (p.suppliedBy file)).or
                (p.suppliedBy defaultLayer)) ∧
        ∀ layer ∈ layers, p.suppliedBy layer = none → ∀ base : Keyed Value,
          p.valueIn (merge base (normalize layer)) = p.valueIn base := by
  intro layers
  have hproperAll : ∀ layer ∈ layers, Proper layer := by
    simp only [layers, List.forall_mem_cons, List.not_mem_nil, false_implies, implies_true, and_true]
    exact ⟨proper_defaultLayer, proper_fileLayer hfile, proper_variableLayer hlayer, hproper⟩
  refine ⟨?_, fun p hp => ⟨fun hplainFile hplainOverrides => ?_, fun layer hmem hnone base => ?_⟩⟩
  · exact load_of_layers hvars hfile hlayer
  · have hplainAll : ∀ layer ∈ layers, p.PlainIn layer := by
      simp only [layers, List.forall_mem_cons, List.not_mem_nil, false_implies, implies_true,
        and_true]
      exact ⟨plainIn_defaultLayer p hp, hplainFile, Place.plainIn_variableLayer hp hlayer,
        hplainOverrides⟩
    have hdistinctAll := keys_variablesOf_nodup hvars hdistinct
    have hcons (layer : Keyed Value) (below : List (Keyed Value)) :
        (layer :: below).findSome? p.suppliedBy =
          (p.suppliedBy layer).or (below.findSome? p.suppliedBy) := by
      rw [← List.singleton_append, List.findSome?_append, List.findSome?_singleton]
    calc p.valueIn (mergeLayers layers)
        = [s.overrides, fromEnv, file, defaultLayer].findSome? p.suppliedBy :=
          p.valueIn_mergeLayers hp hproperAll hplainAll
      _ = (((p.suppliedBy s.overrides).or (p.suppliedBy fromEnv)).or (p.suppliedBy file)).or
            (p.suppliedBy defaultLayer) := by
          rw [hcons, hcons, hcons, List.findSome?_singleton, Option.or_assoc, Option.or_assoc]
      _ = _ := by
          rw [p.suppliedBy_variableLayer hp hlayer hdistinctAll hcapitals,
            p.boundIn_variablesOf hp hvars hlayer hdistinctAll hcapitals, ← Option.or_assoc]
  · have hplain : p.PlainIn layer := fun v hv => by
      rw [hnone] at hv
      cases hv
    rw [p.valueIn_layer hp base (hproperAll layer hmem) hplain, hnone, Option.none_or]

/-- Sources that name the log level in each layer but the highest. -/
def manyLayers : Sources :=
  { env := [("INVIDIARR_LOG_LEVEL", "ERROR")]
    path := some "config.yaml"
    variablePath := some ".env"
    overrides := [("logging", .object [("format", .str "json")])]
    files := [("config.yaml", "log_level: DEBUG"),
      (".env", "INVIDIARR_LOG_LEVEL=WARNING\nINVIDIARR_APP_NAME=name\n")] }

/-- The variables of these sources: those of the process, and what the file adds. -/
def manyVariables : Keyed String :=
  [("INVIDIARR_LOG_LEVEL", "ERROR"), ("INVIDIARR_APP_NAME", "name")]

theorem variablesOf_manyLayers : variablesOf manyLayers = .ok manyVariables := by
  have hextend : Dotenv.extend manyLayers.env
      "INVIDIARR_LOG_LEVEL=WARNING\nINVIDIARR_APP_NAME=name\n".toList = manyVariables := by
    decide +kernel
  exact congrArg Except.ok hextend

theorem fileLayer_manyLayers : ∃ file, fileLayer manyLayers manyVariables = .ok file ∧
    ∀ p ∈ Place.all, p.PlainIn file := by
  have hread : (fileLayer manyLayers manyVariables).toOption.any
      (fun file => decide (∀ p ∈ Place.all, p.PlainIn file)) = true := by decide +kernel
  rcases hfile : fileLayer manyLayers manyVariables with e | file
  · rw [hfile] at hread
    cases hread
  · rw [hfile] at hread
    exact ⟨file, rfl, of_decide_eq_true hread⟩

theorem variableLayer_manyLayers : variableLayer manyVariables =
    .ok [("app_name", .str "name"), ("log_level", .str "ERROR")] := by
  have hnames : lowerNames manyVariables =
      [("invidiarr_log_level", "ERROR"), ("invidiarr_app_name", "name")] := by decide +kernel
  rw [variableLayer_eq, hnames]
  rfl

theorem highest_layer_wins_manyLayers :
    ∃ file fromEnv : Keyed Value, fileLayer manyLayers manyVariables = .ok file ∧
      variableLayer manyVariables = .ok fromEnv ∧
      let settings := mergeLayers [defaultLayer, file, fromEnv, manyLayers.overrides]
      load manyLayers = (readFields settings).mapError .badSettings ∧
      (Place.inside ⟨"log_level", "logging", "level"⟩).valueIn settings = some (.str "ERROR") ∧
      (Place.top "app_name").valueIn settings = some (.str "name") := by
  obtain ⟨file, hfile, hplain⟩ := fileLayer_manyLayers
  obtain ⟨hload, hall⟩ := highest_layer_wins variablesOf_manyLayers hfile
    variableLayer_manyLayers (by decide) (by decide +kernel) (by decide)
  refine ⟨file, _, hfile, variableLayer_manyLayers, hload, ?_, ?_⟩
  · exact ((hall _ (by decide)).1 (hplain _ (by decide)) (by decide)).trans rfl
  · exact ((hall _ (by decide)).1 (hplain _ (by decide)) (by decide)).trans rfl

end StreamResolver.Config
