/-
  Tables that are put together from others.

  What a table has under a key is what the first entry for the key has, so a look-up in a table that
  was put together is a look-up in its parts, one after another.  Where entries were left out, the
  parts must list no key twice: else a later entry would come to light.
-/
import StreamResolver.Keyed

namespace StreamResolver.Keyed

variable {α β : Type}

theorem get?_append (t u : Keyed α) (key : String) :
    Keyed.get? (t ++ u) key = (t.get? key).or (u.get? key) := by
  induction t with
  | nil => rfl
  | cons e t ih =>
    obtain ⟨k, v⟩ := e
    rw [List.cons_append, get?, get?]
    by_cases h : k = key
    · rw [if_pos h, if_pos h, Option.some_or]
    · rw [if_neg h, if_neg h, ih]

theorem mem_of_get? {t : Keyed α} {key : String} {v : α} (h : t.get? key = some v) :
    (key, v) ∈ t := by
  induction t with
  | nil => cases h
  | cons e t ih =>
    obtain ⟨k, w⟩ := e
    rw [get?] at h
    split at h
    · next hk =>
      cases h
      rw [hk]
      exact List.mem_cons_self
    · exact List.mem_cons_of_mem _ (ih h)

/-- What is listed is found, if no key is listed twice. -/
theorem get?_of_mem {t : Keyed α} (h : t.keys.Nodup) {e : String × α} (he : e ∈ t) :
    t.get? e.1 = some e.2 := by
  induction t with
  | nil => cases he
  | cons e' t ih =>
    obtain ⟨k, w⟩ := e'
    obtain ⟨hfresh, hrest⟩ := List.nodup_cons.mp h
    rw [get?]
    rcases List.mem_cons.mp he with rfl | he
    · rw [if_pos rfl]
    · have hne : k ≠ e.1 := fun hk => hfresh (List.mem_map.mpr ⟨e, he, hk.symm⟩)
      rw [if_neg hne, ih hrest he]

/-- A table with an entry for each of some keys for which there is a value. -/
theorem get?_pick (keys : List String) (value? : String → Option α) (key : String) :
    Keyed.get? (keys.filterMap fun k => (value? k).map (k, ·)) key =
      if key ∈ keys then value? key else none := by
  induction keys with
  | nil => rfl
  | cons k keys ih =>
    by_cases h : k = key
    · subst h
      rw [if_pos List.mem_cons_self]
      rcases hv : value? k with _ | v
      · rw [List.filterMap_cons_none (by rw [hv]; rfl), ih, hv]
        split <;> rfl
      · rw [List.filterMap_cons_some (by rw [hv]; rfl), get?, if_pos rfl]
    · have hrest : Keyed.get? ((k :: keys).filterMap fun k => (value? k).map (k, ·)) key =
          Keyed.get? (keys.filterMap fun k => (value? k).map (k, ·)) key := by
        rcases hv : value? k with _ | v
        · rw [List.filterMap_cons_none (by rw [hv]; rfl)]
        · rw [List.filterMap_cons_some (by rw [hv]; rfl), get?, if_neg h]
      rw [hrest, ih]
      simp only [List.mem_cons, Ne.symm h, false_or]

/-- A table of which entries were left out and others changed, by their keys. -/
theorem get?_filterMap {t : Keyed α} (h : t.keys.Nodup) (change : String → α → Option β)
    (key : String) :
    Keyed.get? (t.filterMap fun e => (change e.1 e.2).map (e.1, ·)) key =
      (t.get? key).bind (change key) := by
  induction t with
  | nil => rfl
  | cons e t ih =>
    obtain ⟨k, v⟩ := e
    obtain ⟨hk, hrest⟩ := List.nodup_cons.mp h
    rw [get?]
    by_cases hkey : k = key
    · subst hkey
      rw [if_pos rfl, Option.bind_some]
      rcases hv : change k v with _ | w
      · rw [List.filterMap_cons_none (by rw [hv]; rfl), ih hrest, (get?_eq_none_iff t k).mpr hk]
        rfl
      · rw [List.filterMap_cons_some (by rw [hv]; rfl), get?, if_pos rfl]
    · rw [if_neg hkey, ← ih hrest]
      rcases hv : change k v with _ | w
      · rw [List.filterMap_cons_none (by rw [hv]; rfl)]
      · rw [List.filterMap_cons_some (by rw [hv]; rfl), get?, if_neg hkey]

/-- A table whose values were changed, each by its key. -/
theorem get?_mapValues (t : Keyed α) (change : String → α → β) (key : String) :
    Keyed.get? (t.map fun e => (e.1, change e.1 e.2)) key = (t.get? key).map (change key) := by
  induction t with
  | nil => rfl
  | cons e t ih =>
    obtain ⟨k, v⟩ := e
    rw [List.map_cons, get?, get?]
    by_cases h : k = key
    · rw [if_pos h, if_pos h, h, Option.map_some]
    · rw [if_neg h, if_neg h, ih]

theorem put_mapValues (t : Keyed α) (change : String → α → β) (key : String) (v : α) :
    (t.put key v).map (fun e => (e.1, change e.1 e.2)) =
      Keyed.put (t.map fun e => (e.1, change e.1 e.2)) key (change key v) := by
  induction t with
  | nil => rfl
  | cons e t ih =>
    obtain ⟨k, w⟩ := e
    rw [put, List.map_cons, put]
    by_cases h : k = key
    · subst h
      rw [if_pos rfl, if_pos rfl, List.map_cons]
    · rw [if_neg h, if_neg h, List.map_cons, ih]

theorem mem_put {t : Keyed α} {key : String} {v : α} {e : String × α} (h : e ∈ t.put key v) :
    e = (key, v) ∨ e ∈ t := by
  induction t with
  | nil => exact .inl (List.mem_singleton.mp h)
  | cons e' t ih =>
    obtain ⟨k, w⟩ := e'
    rw [put] at h
    split at h
    · next hk =>
      rcases List.mem_cons.mp h with rfl | hrest
      · exact .inl (by rw [hk])
      · exact .inr (List.mem_cons_of_mem _ hrest)
    · rcases List.mem_cons.mp h with rfl | hrest
      · exact .inr List.mem_cons_self
      · exact (ih hrest).imp id (List.mem_cons_of_mem _)

/-- A value that stands there already is put without a change. -/
theorem put_eq_self {t : Keyed α} {key : String} {v : α} (h : t.get? key = some v) :
    t.put key v = t := by
  induction t with
  | nil => cases h
  | cons e t ih =>
    obtain ⟨k, w⟩ := e
    rw [get?] at h
    rw [put]
    split at h
    · next hk =>
      cases h
      rw [if_pos hk, hk]
    · next hk => rw [if_neg hk, ih h]

theorem nodup_put {t : Keyed α} (h : t.keys.Nodup) (key : String) (v : α) :
    (t.put key v).keys.Nodup := by
  rw [keys_put]
  split
  · exact h
  · next hnew =>
    refine List.nodup_append.mpr ⟨h, List.pairwise_singleton _ key, fun a ha b hb => ?_⟩
    rw [List.mem_singleton.mp hb]
    exact fun heq => hnew (heq ▸ ha)

/-- A table whose keys got other names, where no other key got the name of the one looked up. -/
theorem get?_ofEntries_rename {t : Keyed α} (h : t.keys.Nodup) (rename : String → String)
    {key : String} (hkey : ∀ k ∈ t.keys, rename k = rename key → k = key) :
    (ofEntries (t.map fun e => (rename e.1, e.2))).get? (rename key) = t.get? key := by
  suffices hrun : ∀ u : Keyed α,
      ((t.map fun e => (rename e.1, e.2)).foldl (fun u e => u.put e.1 e.2) u).get? (rename key) =
        (t.get? key).or (u.get? (rename key)) from (hrun []).trans Option.or_none
  induction t with
  | nil => exact fun _ => rfl
  | cons e t ih =>
    intro u
    obtain ⟨k, v⟩ := e
    obtain ⟨hk, hrest⟩ := List.nodup_cons.mp h
    rw [List.map_cons, List.foldl_cons,
      ih hrest fun k' hk' => hkey k' (List.mem_cons_of_mem k hk'), get?_put, get?]
    by_cases heq : k = key
    · subst heq
      rw [if_pos rfl, if_pos rfl, (get?_eq_none_iff t k).mpr hk, Option.none_or, Option.some_or]
    · rw [if_neg heq, if_neg fun hr => heq (hkey k List.mem_cons_self hr)]

/-- The keys of a table with an entry for some of the items of a list. -/
theorem keys_filterMap_sublist {γ : Type} (items : List γ) (key : γ → String)
    (value? : γ → Option α) :
    (Keyed.keys (items.filterMap fun x => (value? x).map (key x, ·))).Sublist (items.map key) := by
  induction items with
  | nil => exact .slnil
  | cons x items ih =>
    rcases hv : value? x with _ | v
    · rw [List.filterMap_cons_none (by rw [hv]; rfl)]
      exact ih.cons (key x)
    · rw [List.filterMap_cons_some (by rw [hv]; rfl)]
      exact ih.cons_cons (key x)

end StreamResolver.Keyed
