/-
  The mappings of a document.

  A mapping of a YAML text may give a key several times, and may merge other mappings that give it too.
  The table that is made of it lists it once, since all entries get there by `put`.  The tables of the
  mappings inside are made the same way: each datum in a table is that of a node (`Table`), whatever
  mapping it came from.
-/
import StreamResolver.Yaml.Datum
import StreamResolver.Proofs.Fallible
import StreamResolver.Proofs.Keyed

namespace StreamResolver.Yaml.Datum

open Fallible

/-- A table that lists no key twice and holds data of nodes. -/
structure Table (t : Keyed Datum) : Prop where
  distinct : (Keyed.keys t).Nodup
  nodes : ∀ e ∈ t, ∃ n, ofNode n = .ok e.2

/-! ## Putting entries into a table -/

theorem Table.empty : Table [] := ⟨.nil, fun _ he => nomatch he⟩

theorem Table.put {t : Keyed Datum} (h : Table t) (name : String) {d : Datum}
    (hd : ∃ n, ofNode n = .ok d) : Table (t.put name d) where
  distinct := Keyed.nodup_put h.distinct name d
  nodes e he := by
    rcases Keyed.mem_put he with rfl | hold
    · exact hd
    · exact h.nodes e hold

theorem Table.putNamed {t : Keyed Datum} (h : Table t) (name : Option String) {d : Datum}
    (hd : ∃ n, ofNode n = .ok d) : Table (putNamed t name d) := by
  cases name with
  | none => exact h
  | some name => exact h.put name hd

theorem Table.putAll {t new : Keyed Datum} (h : Table t)
    (hnew : ∀ e ∈ new, ∃ n, ofNode n = .ok e.2) : Table (putAll t new) := by
  induction new generalizing t with
  | nil => exact h
  | cons e new ih =>
    exact ih (h.put e.1 (hnew e List.mem_cons_self)) fun e' he' =>
      hnew e' (List.mem_cons_of_mem e he')

theorem Table.foldr_putAll {t : Keyed Datum} (h : Table t) {ts : List (Keyed Datum)}
    (hts : ∀ new ∈ ts, Table new) : Table (ts.foldr (fun new t => Datum.putAll t new) t) := by
  induction ts with
  | nil => exact h
  | cons new ts ih =>
    exact (ih fun t' ht' => hts t' (List.mem_cons_of_mem new ht')).putAll
      (hts new List.mem_cons_self).nodes

/-! ## The table of a mapping -/

theorem Table.ownEntries {t t' : Keyed Datum} {entries : List (Node × Node)} (h : Table t)
    (hread : ownEntries t entries = .ok t') : Table t' := by
  induction entries generalizing t with
  | nil =>
    rw [Datum.ownEntries] at hread
    cases hread
    exact h
  | cons e entries ih =>
    obtain ⟨k, v⟩ := e
    rw [Datum.ownEntries] at hread
    split at hread
    · exact ih h hread
    · obtain ⟨name, -, hread⟩ := exists_of_bind_eq_ok hread
      obtain ⟨d, hd, hread⟩ := exists_of_bind_eq_ok hread
      exact ih (h.putNamed name ⟨v, hd⟩) hread

mutual

/-- Merging other mappings keeps a table; the mappings that are merged may merge others in turn. -/
theorem Table.merged {t t' : Keyed Datum} {entries : List (Node × Node)} (h : Table t)
    (hread : merged t entries = .ok t') : Table t' := by
  match entries with
  | [] =>
    rw [Datum.merged] at hread
    cases hread
    exact h
  | (k, v) :: rest =>
    rw [Datum.merged.eq_def] at hread
    dsimp only at hread
    split at hread
    · match hv : v with
      | .mapping _ inner =>
        obtain ⟨below, hbelow, hread⟩ := exists_of_bind_eq_ok hread
        obtain ⟨new, hnew, hread⟩ := exists_of_bind_eq_ok hread
        have htable := (Table.merged .empty hbelow).ownEntries hnew
        exact Table.merged (h.putAll htable.nodes) hread
      | .sequence _ items =>
        obtain ⟨ts, hts, hread⟩ := exists_of_bind_eq_ok hread
        exact Table.merged (h.foldr_putAll (Table.tables hts)) hread
      | .scalar .. => cases hread
    · exact Table.merged h hread
termination_by sizeOf entries
decreasing_by
  all_goals simp +arith [*]

theorem Table.tables {items : List Node} {ts : List (Keyed Datum)} (hread : tables items = .ok ts) :
    ∀ t ∈ ts, Table t := by
  match items with
  | [] =>
    rw [Datum.tables] at hread
    cases hread
    exact fun _ ht => nomatch ht
  | .mapping _ entries :: rest =>
    rw [Datum.tables] at hread
    obtain ⟨below, hbelow, hread⟩ := exists_of_bind_eq_ok hread
    obtain ⟨new, hnew, hread⟩ := exists_of_bind_eq_ok hread
    obtain ⟨later, hlater, hread⟩ := exists_of_bind_eq_ok hread
    cases hread
    intro t ht
    rcases List.mem_cons.mp ht with rfl | ht
    · exact (Table.merged .empty hbelow).ownEntries hnew
    · exact Table.tables hlater t ht
  | .scalar .. :: _ | .sequence .. :: _ =>
    rw [Datum.tables.eq_def] at hread
    cases hread
termination_by sizeOf items

end

theorem ofScalar_ne_map (kind : Kind) (s : List Char) (entries : Keyed Datum) :
    ofScalar kind s ≠ .ok (.map entries) := by
  intro h
  cases kind with
  | bool | int | float | moment =>
    obtain ⟨_, -, h⟩ := exists_of_map_eq_ok h
    cases h
  | octets =>
    rw [ofScalar] at h
    split at h
    · split at h <;> cases h
    · cases h
  | _ => cases h

/-- **A mapping of a document lists no key twice, and holds data of nodes.** -/
theorem table_of_ofNode {n : Node} {entries : Keyed Datum} (h : ofNode n = .ok (.map entries)) :
    Table entries := by
  match n with
  | .scalar tag isPlain s =>
    rw [ofNode] at h
    exact absurd h (ofScalar_ne_map _ s entries)
  | .sequence tag items =>
    rw [ofNode] at h
    split at h
    · obtain ⟨_, -, h⟩ := exists_of_bind_eq_ok h
      cases h
    · obtain ⟨_, -, h⟩ := exists_of_bind_eq_ok h
      cases h
    · cases h
  | .mapping tag inner =>
    rw [ofNode] at h
    split at h
    · obtain ⟨below, hbelow, h⟩ := exists_of_bind_eq_ok h
      obtain ⟨new, hnew, h⟩ := exists_of_bind_eq_ok h
      cases h
      exact (Table.merged .empty hbelow).ownEntries hnew
    · obtain ⟨below, -, h⟩ := exists_of_bind_eq_ok h
      obtain ⟨new, -, h⟩ := exists_of_bind_eq_ok h
      cases h
    · cases h

theorem table_of_ofText {text : List Char} {entries : Keyed Datum}
    (h : ofText text = .ok (.map entries)) : Table entries := by
  obtain ⟨node, -, h⟩ := exists_of_bind_eq_ok h
  cases node with
  | none => cases h
  | some n => exact table_of_ofNode h

/-! ## As a configuration value -/

theorem keys_entryValues (entries : Keyed Datum) :
    Keyed.keys (entryValues entries) = Keyed.keys entries := by
  induction entries with
  | nil => rfl
  | cons e entries ih => exact congrArg (e.1 :: ·) ih

theorem get?_entryValues (entries : Keyed Datum) (key : String) :
    Keyed.get? (entryValues entries) key = (entries.get? key).map toValue := by
  induction entries with
  | nil => rfl
  | cons e entries ih =>
    obtain ⟨k, d⟩ := e
    rw [entryValues, Keyed.get?, Keyed.get?, ih]
    split <;> rfl

/-- Only a mapping becomes an object. -/
theorem exists_of_toValue_eq_object {d : Datum} {fields : Keyed Value}
    (h : d.toValue = .object fields) : ∃ entries, d = .map entries ∧ fields = entryValues entries := by
  cases d with
  | map entries =>
    rw [toValue] at h
    cases h
    exact ⟨entries, rfl, rfl⟩
  | _ =>
    rw [toValue] at h
    cases h

end StreamResolver.Yaml.Datum
