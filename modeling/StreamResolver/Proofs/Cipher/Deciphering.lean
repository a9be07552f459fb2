/-
  Deciphering step by step and at once.

  A deciphering stands at a ciphered pair and advances to the next one as transforms come in.  If
  the same transform comes in at every step, the URL at the end is the one that `complete` gives
  at once, and every step leaves fewer ciphered pairs than before.
-/
import StreamResolver.Cipher.EventLoop

namespace StreamResolver.Cipher

open Query (Pair)

namespace Deciphering

variable {param : List Char}

/-- The ciphered pairs that are left, the one where the deciphering stands included. -/
def left (param : List Char) (d : Deciphering) : Nat := 1 + d.rest.countP (isCiphered param)

/-- Seeking skips pairs that stay as they are, so the rest of the work is the same. -/
theorem seek_complete (t : Transform) (url : Url) (settled pairs : List Pair) :
    (∀ s, seek param url settled pairs = .inl s →
        s = withPairs url (settled ++ pairs.map (decodePair param t))) ∧
      ∀ d, seek param url settled pairs = .inr d →
        d.complete param t = withPairs url (settled ++ pairs.map (decodePair param t)) := by
  induction pairs generalizing settled with
  | nil => simp [seek]
  | cons p rest ih =>
    unfold seek
    by_cases hp : isCiphered param p = true
    · simp [hp, complete, decodePair]
    · rw [if_neg hp]
      have hkept : decodePair param t p = p := by simp [decodePair, hp]
      rw [List.map_cons, hkept]
      simpa [List.append_assoc] using ih (settled ++ [p])

theorem seek_left (url : Url) (settled pairs : List Pair) {d : Deciphering}
    (h : seek param url settled pairs = .inr d) :
    d.left param = pairs.countP (isCiphered param) := by
  induction pairs generalizing settled with
  | nil => simp [seek] at h
  | cons p rest ih =>
    unfold seek at h
    by_cases hp : isCiphered param p = true
    · simp only [hp, if_true, Sum.inr.injEq] at h
      subst h
      simp [left, hp, Nat.add_comm]
    · rw [if_neg hp] at h
      rw [ih (settled ++ [p]) h]
      simp [hp]

/-- **Step by step or at once**: what is left after a step is completed to the same URL. -/
theorem advance_complete (t : Transform) (d : Deciphering) :
    (∀ s, d.advance param t = .inl s → s = d.complete param t) ∧
      ∀ d', d.advance param t = .inr d' → d'.complete param t = d.complete param t := by
  have hseek := @seek_complete param t d.url (d.settled ++ [(d.key, t.run d.value)]) d.rest
  simpa [advance, complete, List.append_assoc] using hseek

/-- A step leaves one ciphered pair less. -/
theorem advance_left {t : Transform} {d d' : Deciphering} (h : d.advance param t = .inr d') :
    d'.left param + 1 = d.left param := by
  rw [seek_left _ _ _ h, left, Nat.add_comm]

end Deciphering

namespace Demand

variable {param : List Char}

/-- How often the transform is still needed. -/
def size (param : List Char) : Demand → Nat
  | .transform | .decode _ => 1
  | .decipher d => d.left param

theorem size_pos (param : List Char) (d : Demand) : 0 < d.size param := by
  cases d with
  | decipher d => exact Nat.lt_of_lt_of_le Nat.zero_lt_one (Nat.le_add_right 1 _)
  | _ => simp [size]

/-- The reply after one step, or after what is left is completed, is the complete reply. -/
theorem advance_complete (t : Transform) (d : Demand) :
    (∀ r, d.advance param t = .inl r → r = d.complete param t) ∧
      ∀ d', d.advance param t = .inr d' → d'.complete param t = d.complete param t := by
  cases d with
  | transform => simp [advance, complete]
  | decode value => simp [advance, complete]
  | decipher d =>
    obtain ⟨hdone, hleft⟩ := @Deciphering.advance_complete param t d
    rcases hd : d.advance param t with s | d'
    · have hadvance : (decipher d).advance param t = .inl (.text s) := by simp [advance, hd]
      rw [hadvance]
      simp [complete, hdone s hd]
    · have hadvance : (decipher d).advance param t = .inr (.decipher d') := by simp [advance, hd]
      rw [hadvance]
      simp [complete, hleft d' hd]

theorem advance_size {t : Transform} {d d' : Demand} (h : d.advance param t = .inr d') :
    d'.size param + 1 = d.size param := by
  cases d with
  | transform => simp [advance] at h
  | decode value => simp [advance] at h
  | decipher d =>
    unfold advance at h
    rcases hd : d.advance param t with s | e
    · simp [hd] at h
    · simp only [hd, Sum.inr.injEq] at h
      subst h
      exact Deciphering.advance_left hd

/-- The replies that a demand can come to, with any transforms for the values that are left. -/
inductive Yields (param : List Char) : Demand → Reply → Prop where
  | last {d : Demand} {t : Transform} {r : Reply} (h : d.advance param t = .inl r) :
      Yields param d r
  | more {d d' : Demand} {t : Transform} {r : Reply} (h : d.advance param t = .inr d')
      (hr : Yields param d' r) : Yields param d r

/-- What can be left of a demand, after transforms of a kind for the values before. -/
inductive Leaves (param : List Char) (P : Transform → Prop) (d : Demand) : Demand → Prop where
  | all : Leaves param P d d
  | less {d' d'' : Demand} {t : Transform} (h : Leaves param P d d') (ht : P t)
      (hd : d'.advance param t = .inr d'') : Leaves param P d d''

/-- The replies that a demand can come to with transforms of a kind. -/
def YieldsFrom (param : List Char) (P : Transform → Prop) (d : Demand) (r : Reply) : Prop :=
  ∃ d' t, Leaves param P d d' ∧ P t ∧ d'.advance param t = .inl r

theorem Leaves.mono {P Q : Transform → Prop} (hPQ : ∀ t, P t → Q t) {d d' : Demand}
    (h : Leaves param P d d') : Leaves param Q d d' := by
  induction h with
  | all => exact .all
  | less _ ht hd ih => exact ih.less (hPQ _ ht) hd

theorem YieldsFrom.mono {P Q : Transform → Prop} (hPQ : ∀ t, P t → Q t) {d : Demand} {r : Reply}
    (h : d.YieldsFrom param P r) : d.YieldsFrom param Q r := by
  obtain ⟨d', t, hleaves, ht, hd⟩ := h
  exact ⟨d', t, hleaves.mono hPQ, hPQ t ht, hd⟩

/-- What is left may be completed at once. -/
theorem Leaves.complete {P : Transform → Prop} {d d' : Demand} {t : Transform} (ht : P t)
    (h : Leaves param P d d') : d.YieldsFrom param P (d'.complete param t) := by
  -- every step leaves less, so the steps come to an end
  induction hn : d'.size param using Nat.strongRecOn generalizing d' with
  | ind n ih =>
    obtain ⟨hdone, hleft⟩ := @advance_complete param t d'
    rcases hadvance : d'.advance param t with r | d''
    · rw [← hdone r hadvance]
      exact ⟨d', t, h, ht, hadvance⟩
    · have hsize := advance_size hadvance
      rw [← hleft d'' hadvance]
      exact ih (d''.size param) (by omega) (h.less ht hadvance) rfl

theorem Leaves.yields {P : Transform → Prop} {d d' : Demand} {r : Reply}
    (h : Leaves param P d d') (hr : Yields param d' r) : Yields param d r := by
  induction h with
  | all => exact hr
  | less _ _ hd ih => exact ih (.more hd hr)

theorem yields_complete (t : Transform) (d : Demand) : Yields param d (d.complete param t) := by
  obtain ⟨d', t', hleaves, -, hlast⟩ :=
    (@Leaves.all param (fun _ => True) d).complete (t := t) trivial
  exact hleaves.yields (.last hlast)

end Demand

end StreamResolver.Cipher
