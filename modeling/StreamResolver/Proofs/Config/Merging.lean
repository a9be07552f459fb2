/-
  What is left of two objects when one is laid over the other.

  Nested objects are trees whose leaves are the values that are no objects, and a path of keys leads
  to each of them (`LeafAt`).  The merged object has the leaves of the later object, and those leaves
  of the earlier one on whose path the later object has nothing but objects and then nothing at all
  (`Silent`); it has no other leaves (`leafAt_merge`).

  The crux is one equation for the entries of a value that is laid over another (`get?_overlay`): it
  says the same whether there is an object below, something else or nothing, so the two trees may
  differ in shape at any depth, and the induction is on the path alone.

  That merging again changes nothing (`merge_merge`) is a statement about the objects and not only
  about their leaves.  It is proved along the later object (`WellKeyed`): each of its entries finds
  itself already there.
-/
import StreamResolver.Config.Layer
import StreamResolver.Proofs.Keyed

namespace StreamResolver

/-! ## Paths and leaves -/

namespace Value

/-- What stands at a path of keys. -/
def at? : List String → Value → Option Value
  | [], v => some v
  | key :: path, v => (v.get? key).bind (at? path)

/-- At this path stands this value, and it is no object. -/
def LeafAt (v : Value) (path : List String) (leaf : Value) : Prop :=
  v.at? path = some leaf ∧ leaf.isObject = false

/-- Nothing stands at this path, and what stands on the way there is an object. -/
def Silent (v : Value) (path : List String) : Prop :=
  v.at? path = none ∧ ∀ front, front <+: path → front ≠ path →
    ∀ w, v.at? front = some w → w.isObject = true

/-- No object lists a key twice, and neither do the objects in it. -/
inductive WellKeyed : Value → Prop where
  | plain {v : Value} (h : v.isObject = false) : WellKeyed v
  | object {fields : Keyed Value} (hkeys : fields.keys.Nodup) (h : ∀ e ∈ fields, WellKeyed e.2) :
      WellKeyed (.object fields)

variable {v leaf : Value} {key : String} {path : List String}

theorem get?_plain (h : v.isObject = false) (key : String) : v.get? key = none := by
  cases v with
  | object fields => cases h
  | _ => rfl

theorem exists_fields (h : v.isObject = true) : ∃ fields, v = .object fields := by
  cases v with
  | object fields => exact ⟨fields, rfl⟩
  | _ => cases h

theorem WellKeyed.entry (h : v.WellKeyed) {w : Value} (hw : v.get? key = some w) : w.WellKeyed := by
  cases h with
  | plain hplain =>
    rw [get?_plain hplain] at hw
    cases hw
  | object _ hentries => exact hentries (key, w) (Keyed.mem_of_get? hw)

/-! ### One key further -/

theorem leafAt_nil : LeafAt v [] leaf ↔ v = leaf ∧ leaf.isObject = false := by
  rw [LeafAt, at?, Option.some.injEq]

theorem leafAt_cons : LeafAt v (key :: path) leaf ↔ ∃ w, v.get? key = some w ∧ LeafAt w path leaf := by
  rw [LeafAt, at?, Option.bind_eq_some_iff]
  exact ⟨fun ⟨⟨w, hw, hpath⟩, hleaf⟩ => ⟨w, hw, hpath, hleaf⟩,
    fun ⟨w, hw, hpath, hleaf⟩ => ⟨⟨w, hw, hpath⟩, hleaf⟩⟩

theorem not_silent_nil : ¬ Silent v [] := fun h => nomatch h.1

theorem silent_cons : Silent v (key :: path) ↔
    v.isObject = true ∧ ∀ w, v.get? key = some w → Silent w path := by
  constructor
  · rintro ⟨hnone, hobjects⟩
    refine ⟨hobjects [] List.nil_prefix (by simp) v rfl, fun w hw => ⟨?_, ?_⟩⟩
    · rw [at?, hw] at hnone
      exact hnone
    · intro front hfront hne u hu
      refine hobjects (key :: front) (List.cons_prefix_cons.mpr ⟨rfl, hfront⟩) (by simp [hne]) u ?_
      rw [at?, hw]
      exact hu
  · rintro ⟨hobject, hsilent⟩
    refine ⟨?_, fun front hfront hne u hu => ?_⟩
    · rw [at?, Option.bind_eq_none_iff]
      exact fun w hw => (hsilent w hw).1
    · rcases front with _ | ⟨key', front⟩
      · rw [at?, Option.some.injEq] at hu
        exact hu ▸ hobject
      · obtain ⟨rfl, hbehind⟩ := List.cons_prefix_cons.mp hfront
        rw [at?, Option.bind_eq_some_iff] at hu
        obtain ⟨w, hw, hu⟩ := hu
        exact (hsilent w hw).2 front hbehind (fun h => hne (by rw [h])) u hu

/-! ### Of an object -/

variable {fields : Keyed Value}

theorem not_leafAt_object_nil : ¬ LeafAt (.object fields) [] leaf := by
  rw [leafAt_nil]
  rintro ⟨rfl, hplain⟩
  cases hplain

theorem leafAt_object_cons : LeafAt (.object fields) (key :: path) leaf ↔
    ∃ w, fields.get? key = some w ∧ LeafAt w path leaf := leafAt_cons

theorem silent_object_cons : Silent (.object fields) (key :: path) ↔
    ∀ w, fields.get? key = some w → Silent w path :=
  silent_cons.trans (and_iff_right rfl)

end Value

namespace Config

open Value

/-! ## Laying one value over another -/

theorem overlay_of_plain (old : Option Value) {v : Value} (h : v.isObject = false) :
    overlay old v = v := by
  cases v with
  | object fields => cases h
  | _ => rfl

theorem overlay_none (v : Value) : overlay none v = v := by
  cases v <;> rfl

theorem exists_overlay_object (old : Option Value) (new : Keyed Value) :
    ∃ t, overlay old (.object new) = .object t := by
  rcases old with _ | old
  · exact ⟨new, rfl⟩
  · cases old <;> exact ⟨_, rfl⟩

/-- **The entries of an object that is laid over whatever stands there.** -/
theorem get?_overlay (old : Option Value) {new : Keyed Value} (h : new.keys.Nodup) (key : String) :
    (overlay old (.object new)).get? key =
      match new.get? key with
      | some v => some (overlay (old.bind (·.get? key)) v)
      | none => old.bind (·.get? key) := by
  -- where no object stands below, the later one is taken as it is
  have halone : new.get? key = match new.get? key with
      | some v => some (overlay none v)
      | none => none := by
    rcases new.get? key with _ | v
    · rfl
    · exact congrArg some (overlay_none v).symm
  rcases old with _ | old
  · exact halone
  · cases old with
    | object fields => exact get?_merge fields new key h
    | _ => exact halone

/-! ## The leaves -/

/-- The leaves of what stands below, one key further. -/
theorem exists_leafAt_below {old : Option Value} {key : String} {path : List String} {leaf : Value} :
    (∃ w, old.bind (·.get? key) = some w ∧ LeafAt w path leaf) ↔
      ∃ w, old = some w ∧ LeafAt w (key :: path) leaf := by
  rcases old with _ | old
  · simp
  · simp [leafAt_cons]

/-- An object over whatever stands there is no leaf, and lets none through. -/
theorem not_leafAt_overlay_nil (old : Option Value) (new : Keyed Value) (leaf : Value) :
    ¬ LeafAt (overlay old (.object new)) [] leaf := by
  obtain ⟨t, ht⟩ := exists_overlay_object old new
  rw [ht]
  exact not_leafAt_object_nil

/-- **The leaves of a value that is laid over another**: its own, and those below where it is
    silent. -/
theorem leafAt_overlay {v : Value} (h : v.WellKeyed) (old : Option Value) (path : List String)
    (leaf : Value) : LeafAt (overlay old v) path leaf ↔
      LeafAt v path leaf ∨ (∃ w, old = some w ∧ LeafAt w path leaf) ∧ Silent v path := by
  induction path generalizing old v with
  | nil =>
    rw [or_iff_left fun hbelow => not_silent_nil hbelow.2]
    cases h with
    | plain hplain => rw [overlay_of_plain old hplain]
    | object => exact iff_of_false (not_leafAt_overlay_nil old _ leaf) not_leafAt_object_nil
  | cons key path ih =>
    cases h with
    | plain hplain =>
      have hloud : ¬ Silent v (key :: path) := fun hsilent => by
        rw [(silent_cons.mp hsilent).1] at hplain
        cases hplain
      rw [overlay_of_plain old hplain, or_iff_left fun hbelow => hloud hbelow.2]
    | @object new hkeys hentries =>
      rw [leafAt_cons, get?_overlay old hkeys, leafAt_object_cons, silent_object_cons,
        ← exists_leafAt_below]
      rcases hv : new.get? key with _ | v
      · -- the later object has no entry, so the one below comes through
        simp
      · have hwell : v.WellKeyed := hentries (key, v) (Keyed.mem_of_get? hv)
        simp only [Option.some.injEq, exists_eq_left', forall_eq', ih hwell]

/-! ## Merging again -/

/-- Entries that find themselves already there change nothing. -/
theorem merge_eq_self {t new : Keyed Value}
    (h : ∀ e ∈ new, ∃ v, t.get? e.1 = some v ∧ overlay (some v) e.2 = v) : merge t new = t := by
  induction new with
  | nil => rfl
  | cons e new ih =>
    obtain ⟨v, hv, hsame⟩ := h e List.mem_cons_self
    rw [merge, hv, hsame, Keyed.put_eq_self hv]
    exact ih fun e' he' => h e' (List.mem_cons_of_mem e he')

/-- **Laying a value over once more changes nothing.** -/
theorem overlay_overlay {v : Value} (h : v.WellKeyed) (old : Option Value) :
    overlay (some (overlay old v)) v = overlay old v := by
  induction h generalizing old with
  | plain hplain => rw [overlay_of_plain _ hplain, overlay_of_plain _ hplain]
  | @object new hkeys _ ih =>
    obtain ⟨t, ht⟩ := exists_overlay_object old new
    have habsorbed : merge t new = t := by
      refine merge_eq_self fun e he => ⟨_, ?_, ih e he (old.bind (·.get? e.1))⟩
      have hentry := get?_overlay old hkeys e.1
      rw [ht, Keyed.get?_of_mem hkeys he] at hentry
      exact hentry
    rw [ht, overlay, habsorbed]

/-- **Merging loses nothing that it should keep**: the leaves of the merged object are those of the
    later one and, where that is silent, those of the earlier one; merging once more changes nothing. -/
theorem leaves_merged (base : Keyed Value) {new : Keyed Value} (h : WellKeyed (.object new)) :
    (∀ path leaf, LeafAt (.object (merge base new)) path leaf ↔
      LeafAt (.object new) path leaf ∨
        (LeafAt (.object base) path leaf ∧ Silent (.object new) path)) ∧
    merge (merge base new) new = merge base new := by
  constructor
  · intro path leaf
    have hoverlay := leafAt_overlay h (some (.object base)) path leaf
    simpa [overlay] using hoverlay
  · have hagain := overlay_overlay h (some (.object base))
    simpa [overlay] using hagain

/-- Two settings in a section and one outside. -/
def sampleBase : Keyed Value :=
  [("http", .object [("user_agent", .str "a"), ("proxy", .int 1)]), ("retries", .int 5)]

/-- A section that gives one of its settings, and a section in place of a setting. -/
def sampleNew : Keyed Value :=
  [("http", .object [("user_agent", .str "b")]), ("retries", .object [])]

theorem leaves_merged_sample : WellKeyed (.object sampleNew) ∧
    LeafAt (.object (merge sampleBase sampleNew)) ["http", "user_agent"] (.str "b") ∧
    LeafAt (.object (merge sampleBase sampleNew)) ["http", "proxy"] (.int 1) ∧
    ¬ LeafAt (.object (merge sampleBase sampleNew)) ["retries"] (.int 5) ∧
    merge (merge sampleBase sampleNew) sampleNew = merge sampleBase sampleNew := by
  have hsection : WellKeyed (.object [("user_agent", .str "b")]) :=
    .object (by decide) (by simpa using .plain rfl)
  have hwell : WellKeyed (.object sampleNew) :=
    .object (by decide) (by simpa [sampleNew] using ⟨hsection, .object .nil (by simp)⟩)
  obtain ⟨hleaves, hagain⟩ := leaves_merged sampleBase hwell
  have hsilent : Silent (.object sampleNew) ["http", "proxy"] := by
    refine silent_cons.mpr ⟨rfl, fun w hw => ?_⟩
    obtain rfl : Value.object [("user_agent", .str "b")] = w := Option.some.inj hw
    exact silent_cons.mpr ⟨rfl, fun w hw => by cases hw⟩
  refine ⟨hwell, (hleaves _ _).mpr (.inl ⟨rfl, rfl⟩), (hleaves _ _).mpr (.inr ⟨⟨rfl, rfl⟩, hsilent⟩),
    fun hleaf => ?_, hagain⟩
  rcases (hleaves _ _).mp hleaf with ⟨hat, -⟩ | ⟨-, hnone, -⟩
  · cases hat
  · cases hnone

end Config

end StreamResolver
