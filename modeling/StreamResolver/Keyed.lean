/-
  Tables in insertion order.

  Objects of a video response, sections of a configuration, operations of a player script: each is a
  finite map from names whose order of first insertion can be seen in the output.  A table is the
  list of its entries; `put` replaces a value where its key stands, or appends a new entry, so a key
  is never listed twice in a table that was built by `put`.

  Statements: `get?_put` (what a look-up sees after a `put`), `keys_put` (the order of the keys) and
  `ofEntries_eq` (entries with different keys are a table as they are).
-/

namespace StreamResolver

/-- Entries in order of first insertion. -/
abbrev Keyed (α : Type) := List (String × α)

namespace Keyed

variable {α β : Type}

/-- The value under a key. -/
def get? (t : Keyed α) (key : String) : Option α :=
  match t with
  | [] => none
  | (k, v) :: rest => if k = key then some v else get? rest key

/-- Replace the value under a key, or append the entry. -/
def put (t : Keyed α) (key : String) (value : α) : Keyed α :=
  match t with
  | [] => [(key, value)]
  | (k, v) :: rest => if k = key then (k, value) :: rest else (k, v) :: put rest key value

/-- The keys in order. -/
def keys (t : Keyed α) : List String := t.map (·.1)

/-- Whether a key is present. -/
def has (t : Keyed α) (key : String) : Bool := (t.get? key).isSome

/-- The table of a list of entries, a later entry for a key replacing an earlier one. -/
def ofEntries (entries : List (String × α)) : Keyed α :=
  entries.foldl (fun t e => t.put e.1 e.2) []

/-! ## Laws -/

theorem get?_put (t : Keyed α) (key key' : String) (value : α) :
    (t.put key value).get? key' = if key = key' then some value else t.get? key' := by
  induction t with
  | nil => simp [put, get?]
  | cons e rest ih =>
    obtain ⟨k, v⟩ := e
    by_cases hk : k = key
    · subst hk; by_cases h : k = key' <;> simp [put, get?, h]
    · by_cases h : k = key'
      · subst h; simp [put, get?, hk, Ne.symm hk]
      · simp [put, get?, hk, h, ih]

theorem get?_eq_none_iff (t : Keyed α) (key : String) : t.get? key = none ↔ key ∉ t.keys := by
  induction t with
  | nil => simp [get?, keys]
  | cons e rest ih =>
    obtain ⟨k, v⟩ := e
    by_cases h : k = key
    · simp [get?, keys, h]
    · have : ¬ key = k := fun e => h e.symm
      simp only [get?, h, if_false, ih, keys, List.map_cons, List.mem_cons, this, false_or]

theorem keys_put (t : Keyed α) (key : String) (value : α) :
    (t.put key value).keys = if key ∈ t.keys then t.keys else t.keys ++ [key] := by
  induction t with
  | nil => simp [put, keys]
  | cons e rest ih =>
    obtain ⟨k, v⟩ := e
    by_cases h : k = key
    · simp [put, keys, h]
    · have h' : ¬ key = k := fun e => h e.symm
      have ih' := ih
      simp only [keys] at ih'
      simp only [put, h, if_false, keys, List.map_cons, List.mem_cons, h', false_or, ih']
      split <;> rename_i hm <;> simp [hm]

theorem put_eq_append (t : Keyed α) (key : String) (value : α) (h : key ∉ t.keys) :
    t.put key value = t ++ [(key, value)] := by
  induction t with
  | nil => rfl
  | cons e rest ih =>
    obtain ⟨k, v⟩ := e
    rw [keys, List.map_cons, List.mem_cons, not_or] at h
    rw [put, if_neg fun hk => h.1 hk.symm, ih h.2, List.cons_append]

theorem ofEntries_eq {entries : List (String × α)} (h : (keys entries).Nodup) :
    ofEntries entries = entries := by
  suffices hall : ∀ (es : List (String × α)) (t : Keyed α), (keys (t ++ es)).Nodup →
      es.foldl (fun t e => t.put e.1 e.2) t = t ++ es from hall entries [] h
  intro es
  induction es with
  | nil => exact fun t _ => (List.append_nil t).symm
  | cons e es ih =>
    intro t ht
    have hfresh : e.1 ∉ t.keys := by
      simp only [keys, List.map_append, List.map_cons] at ht
      intro hmem
      exact (List.nodup_append.mp ht).2.2 e.1 hmem e.1 List.mem_cons_self rfl
    have hsplit : t ++ e :: es = (t ++ [e]) ++ es := by
      rw [List.append_assoc, List.singleton_append]
    rw [List.foldl_cons, put_eq_append t e.1 e.2 hfresh, hsplit]
    exact ih (t ++ [e]) (hsplit ▸ ht)

end Keyed

end StreamResolver
