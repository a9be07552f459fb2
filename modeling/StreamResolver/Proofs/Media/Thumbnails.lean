/-
  Which thumbnail is shown.

  A list of thumbnails may hold anything.  What is no object is passed over, wherever it stands; of the
  objects the largest is chosen, and of several the first (`FirstLargest`).  A side that is missing or
  no number counts as 0, so every object has an area: it may be negative, and an object that says
  nothing about its size may be the one that is chosen.

  What is shown is the URL of the chosen object, and nothing if that is missing or void
  (`bestThumbnail_first_largest`).
-/
import StreamResolver.Proofs.Media.Reading

namespace StreamResolver.Response

open Value

/-- The area of a thumbnail; a side that is no number counts as 0. -/
def area (t : Keyed Value) : Int := number (t.get? "width") * number (t.get? "height")

/-- The object is the first of the largest in the list: those in front of it are smaller, and those
    behind it are not larger. -/
def FirstLargest (items : List Value) (best : Keyed Value) : Prop :=
  ∃ front back, items = front ++ .object best :: back ∧
    (∀ t, .object t ∈ front → area t < area best) ∧ ∀ t, .object t ∈ back → area t ≤ area best

/-! ## The objects in a list -/

theorem fields?_eq_some_iff {v : Value} {fields : Keyed Value} :
    v.fields? = some fields ↔ v = .object fields := by
  cases v <;> simp [fields?]

theorem mem_filterMap_fields? {items : List Value} {t : Keyed Value} :
    t ∈ items.filterMap fields? ↔ .object t ∈ items := by
  rw [List.mem_filterMap]
  constructor
  · rintro ⟨v, hv, ht⟩
    rwa [← fields?_eq_some_iff.mp ht]
  · exact fun h => ⟨.object t, h, rfl⟩

/-- What stands between the objects of a list does not shift them. -/
theorem firstLargest_of_split {items : List Value} {front back : List (Keyed Value)}
    {best : Keyed Value} (hsplit : items.filterMap fields? = front ++ best :: back)
    (hfront : ∀ t ∈ front, area t < area best) (hback : ∀ t ∈ back, area t ≤ area best) :
    FirstLargest items best := by
  obtain ⟨before, rest, rfl, rfl, hrest⟩ := List.filterMap_eq_append_iff.mp hsplit
  obtain ⟨void, v, behind, rfl, hvoid, hv, rfl⟩ := List.filterMap_eq_cons_iff.mp hrest
  obtain rfl := fields?_eq_some_iff.mp hv
  refine ⟨before ++ void, behind, (List.append_assoc ..).symm, fun t ht => ?_, fun t ht => ?_⟩
  · rcases List.mem_append.mp ht with ht | ht
    · exact hfront t (mem_filterMap_fields?.mpr ht)
    · cases hvoid (.object t) ht
  · exact hback t (mem_filterMap_fields?.mpr ht)

/-! ## The choice -/

variable {items : List Value}

theorem walkable_list (items : List Value) : Walkable (some (.list items)) := by
  intro w hw
  exact .inl ⟨items, (Option.some.inj (Option.filter_eq_some_iff.mp hw).1).symm⟩

/-- The thumbnail in a list is that of the first of the largest objects, if there is any object. -/
theorem thumbnailIn_list (items : List Value) :
    ((∀ t, .object t ∉ items) ∧ thumbnailIn (some (.list items)) = "") ∨
      ∃ best, FirstLargest items best ∧ thumbnailIn (some (.list items)) = text best "url" := by
  have hmeasured : (itemsOf (some (.list items))).map (fun t =>
      (t, number (t.get? "width") * number (t.get? "height"))) =
        (items.filterMap fields?).map fun t => (t, area t) := rfl
  rw [thumbnailIn, hmeasured]
  rcases hchosen : largest? ((items.filterMap fields?).map fun t => (t, area t)) with
    _ | ⟨best, size⟩
  · have hnone := List.map_eq_nil_iff.mp (largest?_eq_none hchosen)
    refine .inl ⟨fun t ht => ?_, rfl⟩
    rw [← mem_filterMap_fields?, hnone] at ht
    cases ht
  · obtain ⟨front, back, hsplit, hfront, hback⟩ := largest?_first hchosen
    obtain ⟨smaller, rest, hobjects, rfl, hrest⟩ := List.map_eq_append_iff.mp hsplit
    obtain ⟨t, others, rfl, ht, rfl⟩ := List.map_eq_cons_iff.mp hrest
    obtain ⟨rfl, rfl⟩ := Prod.mk.inj ht
    refine .inr ⟨t, firstLargest_of_split hobjects (fun x hx => ?_) (fun x hx => ?_), rfl⟩
    · exact hfront (x, area x) (List.mem_map_of_mem hx)
    · exact hback (x, area x) (List.mem_map_of_mem hx)

theorem text_of_truthy {fields : Keyed Value} {key : String} {v : Value}
    (h : fields.get? key = some v) (htrue : v.truthy = true) : text fields key = v.display := by
  rw [text, textOrEmpty, h, nonVoid?, Option.filter_some, if_pos htrue]
  rfl

theorem text_of_void {fields : Keyed Value} {key : String}
    (h : ∀ v, fields.get? key = some v → v.truthy = false) : text fields key = "" := by
  have hvoid : nonVoid? (fields.get? key) = none :=
    Option.filter_eq_none_iff.mpr fun v hv => by simp [h v hv]
  rw [text, textOrEmpty, hvoid]
  rfl

/-- **The URL of the first of the largest thumbnails is shown**, whatever else the list holds, as long
    as no side of an object is infinite; nothing is shown if the list holds no object or if that one
    has no URL. -/
theorem bestThumbnail_first_largest (hfinite : ∀ t : Keyed Value, .object t ∈ items →
      ¬ IsInfinite (t.get? "width") ∧ ¬ IsInfinite (t.get? "height")) :
    ((∀ t, .object t ∉ items) → bestThumbnail (some (.list items)) = .ok "") ∧
    ((∃ t, .object t ∈ items) → ∃ best, FirstLargest items best ∧
      (∀ url, best.get? "url" = some url → url.truthy = true →
        bestThumbnail (some (.list items)) = .ok url.display) ∧
      ((∀ url, best.get? "url" = some url → url.truthy = false) →
        bestThumbnail (some (.list items)) = .ok "")) := by
  have hreadable : ThumbnailsReadable (some (.list items)) :=
    ⟨walkable_list items, fun t ht => hfinite t (mem_filterMap_fields?.mp ht)⟩
  rw [(bestThumbnail_gives (some (.list items)) _).mpr ⟨hreadable, rfl⟩]
  rcases thumbnailIn_list items with ⟨hnone, hempty⟩ | ⟨best, hbest, hurl⟩
  · exact ⟨fun _ => congrArg Except.ok hempty, fun ⟨t, ht⟩ => absurd ht (hnone t)⟩
  · refine ⟨fun hnone => ?_, fun _ => ⟨best, hbest, fun url hget htrue => ?_, fun hvoid => ?_⟩⟩
    · obtain ⟨front, back, rfl, -, -⟩ := hbest
      exact absurd (List.mem_append_right front List.mem_cons_self) (hnone best)
    · rw [hurl, text_of_truthy hget htrue]
    · rw [hurl, text_of_void hvoid]

/-- Two thumbnails of the same area, the second with a larger side, and other things around them. -/
def sampleThumbnails : List Value :=
  [.int 5, .object [("url", .str "small"), ("width", .int 9), ("height", .null)],
    .object [("url", .str "first"), ("width", .str " 2 "), ("height", .int 3)], .str "text",
    .object [("url", .str "second"), ("width", .int 6), ("height", .bool true)], .object []]

theorem bestThumbnail_first_largest_tied :
    (∀ t : Keyed Value, .object t ∈ sampleThumbnails →
      ¬ IsInfinite (t.get? "width") ∧ ¬ IsInfinite (t.get? "height")) ∧
    ∃ best, FirstLargest sampleThumbnails best ∧
      ∀ url, best.get? "url" = some url → url.truthy = true → url.display = "first" := by
  have hfinite : ∀ t : Keyed Value, .object t ∈ sampleThumbnails →
      ¬ IsInfinite (t.get? "width") ∧ ¬ IsInfinite (t.get? "height") := by
    simp [sampleThumbnails, IsInfinite, Keyed.get?]
  have hshown : bestThumbnail (some (.list sampleThumbnails)) = .ok "first" := rfl
  obtain ⟨-, hchosen⟩ := bestThumbnail_first_largest hfinite
  obtain ⟨best, hbest, hurl, -⟩ := hchosen ⟨[], by simp [sampleThumbnails]⟩
  refine ⟨hfinite, best, hbest, fun url hget htrue => ?_⟩
  exact Except.ok.inj ((hurl url hget htrue).symm.trans hshown)

end StreamResolver.Response
