/-
  What environment variables say for a setting.

  The variables are looked up by their small names, so of two variables whose names differ in case
  only one is seen.  Where each variable of a setting has its name in capitals (`NamesInCapitals`) this
  cannot happen, and the layer gives for a setting what its kind makes of the text of its variable
  (`suppliedBy_variableLayer`).

  A variable file only adds to the variables of the process: a name that the process has keeps its
  value, and a name that is bound to nothing is not added (`get?_extend`).
-/
import StreamResolver.Proofs.Config.Layers
import StreamResolver.Proofs.Fallible

namespace StreamResolver.Config

open Fallible

/-! ## Names of variables -/

/-- The name under which a variable is looked up. -/
def smallName (n : String) : String := String.ofList (Text.lower n.toList)

/-- The name of the variable of a setting, in capitals. -/
def variableName (name : String) : String :=
  "INVIDIARR_" ++ String.ofList (name.toList.map Char.toUpper)

/-- Each variable that is looked at has its name in capitals. -/
def NamesInCapitals (env : Keyed String) : Prop :=
  ∀ name ∈ Keyed.keys variableKinds, ∀ n ∈ env.keys,
    smallName n = variableStart ++ name → n = variableName name

instance (env : Keyed String) : Decidable (NamesInCapitals env) :=
  inferInstanceAs (Decidable (∀ name ∈ Keyed.keys variableKinds, ∀ n ∈ env.keys,
    smallName n = variableStart ++ name → n = variableName name))

theorem smallName_variableName : ∀ name ∈ Keyed.keys variableKinds,
    smallName (variableName name) = variableStart ++ name := by
  decide +kernel

theorem get?_lowerNames {env : Keyed String} (hdistinct : env.keys.Nodup)
    (hcapitals : NamesInCapitals env) {name : String} (hname : name ∈ Keyed.keys variableKinds) :
    (lowerNames env).get? (variableStart ++ name) = env.get? (variableName name) := by
  rw [← smallName_variableName name hname]
  refine Keyed.get?_ofEntries_rename hdistinct smallName fun n hn heq => ?_
  exact hcapitals name hname n hn (heq.trans (smallName_variableName name hname))

/-! ## The layer of the variables -/

theorem collect_eq_ok_iff (cs : List (Checked (String × Value))) (l : Keyed Value) :
    collect cs = .ok l ↔ cs = l.map .ok := by
  induction cs generalizing l with
  | nil =>
    rw [collect, Except.ok.injEq, eq_comm (a := []), eq_comm (a := []), List.map_eq_nil_iff]
  | cons c cs ih =>
    rw [collect, Checked.apply_eq_ok_iff]
    constructor
    · rintro ⟨g, rest, hg, hrest, rfl⟩
      obtain ⟨_, e, hcons, rfl, rfl⟩ := (Checked.apply_eq_ok_iff _ _ _).mp hg
      cases hcons
      rw [(ih rest).mp hrest, List.map_cons]
    · intro h
      cases l with
      | nil => cases h
      | cons e rest =>
        obtain ⟨rfl, hcs⟩ := List.cons.inj h
        exact ⟨List.cons e, rest, rfl, (ih rest).mpr hcs, rfl⟩

/-- The check of the variable of a setting, if there is one. -/
def checkVariable (known : Keyed String) (e : String × (Value → Except Refusal Value)) :
    Option (Checked (String × Value)) :=
  (known.get? (variableStart ++ e.1)).map fun text =>
    match e.2 (.str text) with
    | .ok v => .ok (e.1, v)
    | .error r => .error [⟨[e.1], r⟩]

theorem variableLayer_eq (env : Keyed String) :
    variableLayer env = collect (variableKinds.filterMap (checkVariable (lowerNames env))) := rfl

/-- What the variables give for a setting of a kind, if it is accepted. -/
def acceptedFrom (known : Keyed String) (name : String) (kind : Value → Except Refusal Value) :
    Option Value :=
  (known.get? (variableStart ++ name)).bind fun text => (kind (.str text)).toOption

theorem checkVariable_toOption (known : Keyed String)
    (e : String × (Value → Except Refusal Value)) :
    (checkVariable known e).bind Except.toOption =
      (acceptedFrom known e.1 e.2).map (e.1, ·) := by
  rw [checkVariable, acceptedFrom]
  rcases known.get? (variableStart ++ e.1) with _ | text
  · rfl
  · simp only [Option.map_some, Option.bind_some]
    rcases e.2 (.str text) with r | v <;> rfl

/-- The layer holds what the variables give. -/
theorem variableLayer_entries {env : Keyed String} {layer : Keyed Value}
    (h : variableLayer env = .ok layer) :
    layer = variableKinds.filterMap fun e =>
      (acceptedFrom (lowerNames env) e.1 e.2).map (e.1, ·) := by
  rw [variableLayer_eq, collect_eq_ok_iff] at h
  -- nothing was refused, so the values of the checks are the layer
  have hlayer : layer = (layer.map Except.ok).filterMap
      fun r : Checked (String × Value) => r.toOption := by
    rw [List.filterMap_map]
    exact List.filterMap_some.symm
  rw [hlayer, ← h, List.filterMap_filterMap]
  exact congrArg (fun f => variableKinds.filterMap f) (funext (checkVariable_toOption _))

/-- No variable of a setting was refused. -/
theorem variableLayer_accepts {env : Keyed String} {layer : Keyed Value}
    (h : variableLayer env = .ok layer) {e : String × (Value → Except Refusal Value)}
    (he : e ∈ variableKinds) {text : String}
    (htext : (lowerNames env).get? (variableStart ++ e.1) = some text) :
    ∃ v, e.2 (.str text) = .ok v := by
  rw [variableLayer_eq, collect_eq_ok_iff] at h
  rcases hkind : e.2 (.str text) with r | v
  · have hcheck : checkVariable (lowerNames env) e = some (.error [⟨[e.1], r⟩]) := by
      rw [checkVariable, htext, Option.map_some, hkind]
    have hmem := List.mem_filterMap.mpr ⟨e, he, hcheck⟩
    rw [h] at hmem
    obtain ⟨_, -, hok⟩ := List.mem_map.mp hmem
    cases hok
  · exact ⟨v, rfl⟩

/-- What a variable gives is no object. -/
theorem plain_of_kind {e : String × (Value → Except Refusal Value)} (he : e ∈ variableKinds)
    {v w : Value} (h : e.2 v = .ok w) : w.isObject = false := by
  simp only [variableKinds, List.mem_cons, List.not_mem_nil, or_false] at he
  rcases he with rfl | rfl | rfl | rfl | rfl | rfl | rfl | rfl | rfl | rfl | rfl | rfl | rfl <;>
    obtain ⟨_, -, rfl⟩ := exists_of_map_eq_ok h <;> rfl

theorem keys_variableKinds_nodup : (Keyed.keys variableKinds).Nodup := by decide

theorem sections_not_variable : ∀ heading ∈ sections, heading ∉ Keyed.keys variableKinds := by
  decide

theorem Place.name_mem {p : Place} (hp : p ∈ Place.all) : p.name ∈ Keyed.keys variableKinds := by
  have hall : ∀ p ∈ Place.all, p.name ∈ Keyed.keys variableKinds := by decide
  exact hall p hp

/-- What variables say for a setting: what its kind makes of the text of its variable. -/
def Place.boundIn (vars : Keyed String) (p : Place) : Option Value :=
  (Keyed.get? variableKinds p.name).bind fun kind =>
    (vars.get? (variableName p.name)).bind fun text => (kind (.str text)).toOption

/-- The layer of the variables gives no section. -/
theorem fieldsAt_variableLayer {env : Keyed String} {layer : Keyed Value}
    (h : variableLayer env = .ok layer) {heading : String} (hheading : heading ∈ sections) :
    fieldsAt layer heading = [] := by
  have hmissing : layer.get? heading = none := by
    rw [Keyed.get?_eq_none_iff, variableLayer_entries h]
    exact fun hmem => sections_not_variable heading hheading
      ((Keyed.keys_filterMap_sublist _ _ _).subset hmem)
  rw [fieldsAt, hmissing]

theorem proper_variableLayer {env : Keyed String} {layer : Keyed Value}
    (h : variableLayer env = .ok layer) : Proper layer := by
  intro heading hheading
  rw [fieldsAt_variableLayer h hheading]
  exact .nil

theorem Place.suppliedBy_flat {p : Place} (hp : p ∈ Place.all) {env : Keyed String}
    {layer : Keyed Value} (h : variableLayer env = .ok layer) :
    p.suppliedBy layer = layer.get? p.name := by
  cases p with
  | top name => rfl
  | inside f =>
    rw [suppliedBy, valueIn, fieldsAt_variableLayer h (heading_mem f (Place.inside_mem.mp hp))]
    exact Option.or_none

/-- **The layer of the variables supplies what they say for a setting, and nothing else.** -/
theorem Place.suppliedBy_variableLayer {p : Place} (hp : p ∈ Place.all) {env : Keyed String}
    {layer : Keyed Value} (h : variableLayer env = .ok layer) (hdistinct : env.keys.Nodup)
    (hcapitals : NamesInCapitals env) : p.suppliedBy layer = p.boundIn env := by
  rw [Place.suppliedBy_flat hp h, variableLayer_entries h,
    Keyed.get?_filterMap keys_variableKinds_nodup, boundIn,
    ← get?_lowerNames hdistinct hcapitals (Place.name_mem hp)]
  rfl

theorem Place.plainIn_variableLayer {p : Place} (hp : p ∈ Place.all) {env : Keyed String}
    {layer : Keyed Value} (h : variableLayer env = .ok layer) : p.PlainIn layer := by
  intro v hv
  rw [Place.suppliedBy_flat hp h] at hv
  have hmem := Keyed.mem_of_get? hv
  rw [variableLayer_entries h] at hmem
  obtain ⟨e, he, hentry⟩ := List.mem_filterMap.mp hmem
  obtain ⟨w, haccepted, hw⟩ := Option.map_eq_some_iff.mp hentry
  obtain ⟨text, -, htext⟩ := Option.bind_eq_some_iff.mp haccepted
  obtain rfl : w = v := congrArg Prod.snd hw
  rcases hkind : e.2 (.str text) with r | w'
  · rw [hkind] at htext
    cases htext
  · rw [hkind] at htext
    cases htext
    exact plain_of_kind he hkind

/-! ## The variables of the process and those of a file -/

theorem keys_resolveAll_nodup (env : Keyed String) (bs : List Dotenv.Binding) :
    (Keyed.keys (Dotenv.resolveAll env bs)).Nodup := by
  rw [Dotenv.resolveAll]
  exact List.foldlRecOn bs _ (motive := fun known => (Keyed.keys known).Nodup) .nil
    fun _ hknown _ _ => Keyed.nodup_put hknown _ _

/-- The variables that a variable file gives a value. -/
def boundByFile (env : Keyed String) (text : List Char) : Keyed String :=
  (Dotenv.resolveAll env (Dotenv.bindings (Text.unifyLineEnds text))).filterMap fun e =>
    e.2.map (e.1, ·)

/-- What a variable file adds to the variables of the process. -/
theorem extend_eq (env : Keyed String) (text : List Char) :
    Dotenv.extend env text =
      env ++ (Dotenv.resolveAll env (Dotenv.bindings (Text.unifyLineEnds text))).filterMap fun e =>
        (if env.has e.1 then none else e.2).map (e.1, ·) := by
  refine congrArg (fun f => env ++ List.filterMap f _) (funext fun e => ?_)
  obtain ⟨n, v⟩ := e
  dsimp only
  split <;> rfl

theorem get?_extend (env : Keyed String) (text : List Char) (n : String) :
    Keyed.get? (Dotenv.extend env text) n =
      (env.get? n).or ((boundByFile env text).get? n) := by
  have hdistinct := keys_resolveAll_nodup env (Dotenv.bindings (Text.unifyLineEnds text))
  rw [extend_eq, Keyed.get?_append,
    Keyed.get?_filterMap hdistinct (fun n v => if env.has n then none else v),
    boundByFile, Keyed.get?_filterMap hdistinct (fun _ v => v)]
  -- what the process has is left out of the rest, where it is not looked for anyway
  rcases hn : env.get? n with _ | v
  · rw [Keyed.has, hn]
    rfl
  · rw [Option.some_or, Option.some_or]

theorem keys_extend_nodup {env : Keyed String} (h : env.keys.Nodup) (text : List Char) :
    (Keyed.keys (Dotenv.extend env text)).Nodup := by
  rw [extend_eq, Keyed.keys, List.map_append]
  refine List.nodup_append.mpr ⟨h, ?_, fun n hn n' hn' => ?_⟩
  · exact (Keyed.keys_filterMap_sublist _ _ _).nodup (keys_resolveAll_nodup env _)
  · -- a name that the process has too was not added
    rintro rfl
    obtain ⟨e, he, rfl⟩ := List.mem_map.mp hn'
    obtain ⟨b, -, hb⟩ := List.mem_filterMap.mp he
    obtain ⟨v, hv, rfl⟩ := Option.map_eq_some_iff.mp hb
    have hmissing : env.get? b.1 = none := by
      rcases hget : env.get? b.1 with _ | w
      · rfl
      · rw [Keyed.has, hget] at hv
        cases hv
    exact (Keyed.get?_eq_none_iff env b.1).mp hmissing hn

/-- The variables that the variable file gives a value, if there is such a file. -/
def fileVariables (s : Sources) : Keyed String :=
  match s.variablePath.bind s.files.get? with
  | some text => boundByFile s.env text.toList
  | none => []

/-- **A variable of the process wins over one of the same name in the file.** -/
theorem get?_variablesOf {s : Sources} {env : Keyed String} (h : variablesOf s = .ok env)
    (n : String) : env.get? n = (s.env.get? n).or ((fileVariables s).get? n) := by
  rw [variablesOf] at h
  rw [fileVariables]
  rcases hpath : s.variablePath with _ | path
  · rw [hpath] at h
    cases h
    exact Option.or_none.symm
  · rw [hpath] at h
    obtain ⟨text, htext, rfl⟩ := exists_of_map_eq_ok h
    rw [fileText] at htext
    split at htext
    · next found hfound =>
      cases htext
      rw [Option.bind_some, hfound]
      exact get?_extend s.env found.toList n
    · cases htext

theorem keys_variablesOf_nodup {s : Sources} {env : Keyed String} (h : variablesOf s = .ok env)
    (hdistinct : s.env.keys.Nodup) : env.keys.Nodup := by
  rw [variablesOf] at h
  rcases hpath : s.variablePath with _ | path
  · rw [hpath] at h
    cases h
    exact hdistinct
  · rw [hpath] at h
    obtain ⟨text, -, rfl⟩ := exists_of_map_eq_ok h
    exact keys_extend_nodup hdistinct text

end StreamResolver.Config
