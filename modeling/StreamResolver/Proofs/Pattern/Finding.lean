/-
  Where an expression is found.

  The leftmost match stands behind a barren text: no way starts in there, and at its end the
  expression takes the match on its first way (`search?_eq_some`).  Where the whole text is barren
  nothing is found (`search?_eq_none`).  A text that is `Divided` is one barren text and one match
  after another; `cuts` finds just these (`cuts_of_divided`).
-/
import StreamResolver.Proofs.Pattern.Taking

namespace StreamResolver.Pattern

variable {p : Pattern}

/-- No way starts at the end of a text. -/
def Halts (p : Pattern) (before : List Char) : Prop :=
  ∀ pos caps t, ¬ p.Leads ⟨pos, before, [], caps⟩ t

/-- A character that every way passes is not there at the end of a text. -/
theorem halts_of_needs {x : Char} (h : p.needs x = true) (before : List Char) : p.Halts before := by
  intro pos caps t hleads
  obtain ⟨w, hw, -, hneed⟩ := hleads.passes
  have hnil : w = [] := (List.append_eq_nil_iff.mp hw.symm).1
  have hx := hneed x h
  rw [hnil] at hx
  simp at hx

/-! ## One match -/

theorem matchAt?_eq_none {s : Place} (h : ∀ t, ¬ p.Leads s t) (bound : Nat) (advance : Bool) :
    matchAt? bound p advance s = none := by
  rw [matchAt?, run_eq_none h]
  rfl

theorem matchAt?_eq_some {before w after : List Char} {caps : Captures}
    (h : p.Takes before [] w after caps) (hw : w ≠ []) {bound : Nat}
    (hbound : (w ++ after).length ≤ bound) (advance : Bool) (pos : Nat) :
    matchAt? bound p advance ⟨pos, before, w ++ after, []⟩ =
      some ⟨w, ⟨pos + w.length, w.reverse ++ before, after, caps⟩⟩ := by
  have hpos : w.length ≠ 0 := by simpa using hw
  have hmoved : (advance && pos + w.length == pos) = false := by simp [hpos]
  have htext : (⟨pos, before, w ++ after, []⟩ : Place).textTo
      ⟨pos + w.length, w.reverse ++ before, after, caps⟩ = w := by
    rw [Place.textTo, Nat.add_sub_cancel_left]
    exact List.take_left
  rw [matchAt?, h bound hbound pos _ ⟨pos + w.length, w.reverse ++ before, after, caps⟩]
  · rw [Option.map_some, htext]
  · rw [if_neg (by simp [hmoved])]

theorem searchFrom_eq_some {before pre w after : List Char} {caps : Captures}
    (hpre : p.Barren before pre (w ++ after)) (h : p.Takes (pre.reverse ++ before) [] w after caps)
    (hw : w ≠ []) {bound : Nat} (hbound : (w ++ after).length ≤ bound) (advance : Bool) (pos : Nat)
    (passed : List Char) :
    ∃ pos', searchFrom bound p advance (pre ++ (w ++ after)) pos before passed =
      some (passed.reverse ++ pre,
        ⟨w, ⟨pos', w.reverse ++ (pre.reverse ++ before), after, caps⟩⟩) := by
  induction pre generalizing before advance pos passed with
  | nil =>
    refine ⟨pos + w.length, ?_⟩
    have hmatch := matchAt?_eq_some h hw hbound advance pos
    obtain ⟨c, rest, rfl⟩ := List.exists_cons_of_ne_nil hw
    rw [List.nil_append, List.cons_append, searchFrom, ← List.cons_append]
    simp only [List.reverse_nil, List.nil_append] at hmatch ⊢
    rw [hmatch, List.append_nil]
  | cons c rest ih =>
    have hhere := matchAt?_eq_none (hpre [] (c :: rest) rfl (by simp) pos []) bound advance
    have hrest : p.Barren (c :: before) rest (w ++ after) := by
      rintro u v rfl hv pos caps t
      have hthere := hpre (c :: u) v rfl hv pos caps t
      rw [List.reverse_cons, List.append_assoc] at hthere
      exact hthere
    rw [List.reverse_cons, List.append_assoc] at h
    obtain ⟨pos', hfound⟩ := ih hrest h false (pos + 1) (c :: passed)
    refine ⟨pos', ?_⟩
    rw [List.cons_append, searchFrom]
    simp only [List.reverse_nil, List.nil_append, List.cons_append] at hhere
    rw [hhere]
    simp only
    rw [hfound]
    simp only [List.reverse_cons, List.append_assoc, List.singleton_append]

/-- Where the expression takes a text, it is found there or further in front. -/
theorem searchFrom_isSome {before u w after : List Char} {caps : Captures}
    (h : p.Takes (u.reverse ++ before) [] w after caps) (hw : w ≠ []) {bound : Nat}
    (hbound : (w ++ after).length ≤ bound) (advance : Bool) (pos : Nat) (passed : List Char) :
    (searchFrom bound p advance (u ++ (w ++ after)) pos before passed).isSome = true := by
  induction u generalizing before advance pos passed with
  | nil =>
    obtain ⟨pos', hfound⟩ := searchFrom_eq_some (barren_nil p before _) h hw hbound advance pos passed
    rw [hfound]
    rfl
  | cons c rest ih =>
    rw [List.reverse_cons, List.append_assoc] at h
    rw [List.cons_append, searchFrom]
    split
    · rfl
    · exact ih h false (pos + 1) (c :: passed)

theorem searchFrom_eq_none {before text : List Char} (h : p.Barren before text [])
    (hend : p.Halts (text.reverse ++ before)) (bound : Nat) (advance : Bool) (pos : Nat)
    (passed : List Char) : searchFrom bound p advance text pos before passed = none := by
  induction text generalizing before advance pos passed with
  | nil =>
    rw [List.reverse_nil, List.nil_append] at hend
    rw [searchFrom, matchAt?_eq_none (hend pos [])]
    rfl
  | cons c rest ih =>
    have hhere := matchAt?_eq_none (h [] (c :: rest) rfl (by simp) pos []) bound advance
    have hrest : p.Barren (c :: before) rest [] := by
      rintro u v rfl hv pos caps t
      have hthere := h (c :: u) v rfl hv pos caps t
      rw [List.reverse_cons, List.append_assoc] at hthere
      exact hthere
    rw [List.reverse_cons, List.append_assoc] at hend
    simp only [List.reverse_nil, List.nil_append, List.append_nil] at hhere
    rw [searchFrom, hhere]
    exact ih hrest hend false (pos + 1) (c :: passed)

/-- **The leftmost match** stands behind a barren text. -/
theorem search?_eq_some {pre w after : List Char} {caps : Captures}
    (hpre : p.Barren [] pre (w ++ after)) (h : p.Takes pre.reverse [] w after caps) (hw : w ≠ []) :
    ∃ found, p.search? (pre ++ (w ++ after)) = some found ∧ found.stop.captures = caps := by
  have hbound : (w ++ after).length ≤ boundFor (pre ++ (w ++ after)) := by
    simp only [boundFor, List.length_append]
    omega
  rw [← List.append_nil pre.reverse] at h
  obtain ⟨pos, hfound⟩ := searchFrom_eq_some hpre h hw hbound false 0 []
  refine ⟨⟨w, ⟨pos, w.reverse ++ (pre.reverse ++ []), after, caps⟩⟩, ?_, rfl⟩
  rw [search?, hfound, Option.map_some]

/-- A text that the expression takes whole is the leftmost match in itself. -/
theorem search?_whole {w : List Char} {caps : Captures} (h : p.Takes [] [] w [] caps)
    (hw : w ≠ []) :
    ∃ found, p.search? w = some found ∧ found.text = w ∧ found.stop.captures = caps := by
  have hbound : (w ++ []).length ≤ boundFor w := by
    rw [List.append_nil, boundFor]
    omega
  obtain ⟨pos, hfound⟩ := searchFrom_eq_some (barren_nil p [] _) h hw hbound false 0 []
  rw [List.append_nil] at hfound
  exact ⟨_, by rw [search?]; exact congrArg (Option.map Prod.snd) hfound, rfl, rfl⟩

theorem occursIn_of_takes {u w after : List Char} {caps : Captures}
    (h : p.Takes u.reverse [] w after caps) (hw : w ≠ []) :
    p.occursIn (u ++ (w ++ after)) = true := by
  have hbound : (w ++ after).length ≤ boundFor (u ++ (w ++ after)) := by
    simp only [boundFor, List.length_append]
    omega
  rw [← List.append_nil u.reverse] at h
  rw [occursIn, search?, Option.isSome_map]
  exact searchFrom_isSome h hw hbound false 0 []

/-- A capture of a match, by what the match captures. -/
theorem group?_eq {found : Found} {caps : Captures} (h : found.stop.captures = caps) {n : Nat}
    (hn : n ≠ 0) : found.group? n = (caps.find? (·.1 == n)).map (·.2) := by
  rw [Found.group?, if_neg hn, Place.captured?, h]

theorem search?_eq_none {text : List Char} (h : p.Barren [] text []) (hend : p.Halts text.reverse) :
    p.search? text = none := by
  rw [← List.append_nil text.reverse] at hend
  rw [search?, searchFrom_eq_none h hend]
  rfl

/-! ## All matches -/

/-- A match as it is seen from outside: the text in front of it, its own text and what it
    captures. -/
abbrev Part := List Char × List Char × Captures

/-- A text in which barren texts and matches take turns. -/
inductive Divided (p : Pattern) : List Char → List Char → List Part → List Char → Prop where
  | tail {before text : List Char} (h : p.Barren before text [])
      (hend : p.Halts (text.reverse ++ before)) : Divided p before text [] text
  | part {before pre w after : List Char} {caps : Captures} {parts : List Part} {tail : List Char}
      (hpre : p.Barren before pre (w ++ after))
      (h : p.Takes (pre.reverse ++ before) [] w after caps)
      (hw : w ≠ []) (hrest : Divided p (w.reverse ++ (pre.reverse ++ before)) after parts tail) :
      Divided p before (pre ++ (w ++ after)) ((pre, w, caps) :: parts) tail

theorem cutsFrom_of_divided {before text tail : List Char} {parts : List Part}
    (h : p.Divided before text parts tail) {bound fuel : Nat} (hbound : text.length ≤ bound)
    (hfuel : text.length < fuel) (advance : Bool) (pos : Nat) :
    ∃ found, cutsFrom bound p fuel advance ⟨pos, before, text, []⟩ = (found, tail) ∧
      found.map (fun f => (f.1, f.2.text, f.2.stop.captures)) = parts := by
  induction h generalizing fuel advance pos with
  | @tail before text h hend =>
    obtain ⟨fuel, rfl⟩ : ∃ n, fuel = n + 1 := ⟨fuel - 1, by omega⟩
    refine ⟨[], ?_, rfl⟩
    rw [cutsFrom, searchFrom_eq_none h hend]
  | @part before pre w after caps parts tail hpre h hw hrest ih =>
    obtain ⟨fuel, rfl⟩ : ∃ n, fuel = n + 1 := ⟨fuel - 1, by omega⟩
    have hpos : w.length ≠ 0 := by simpa using hw
    have hmatch : (w ++ after).length ≤ bound := by
      rw [List.length_append] at hbound
      omega
    simp only [List.length_append] at hbound hfuel
    obtain ⟨pos', hfound⟩ := searchFrom_eq_some hpre h hw hmatch advance pos []
    obtain ⟨found, hcuts, hparts⟩ :=
      ih (by omega) (by omega : after.length < fuel) w.isEmpty pos'
    refine ⟨(pre, ⟨w, ⟨pos', w.reverse ++ (pre.reverse ++ before), after, caps⟩⟩) :: found, ?_, ?_⟩
    · rw [cutsFrom, hfound]
      simp only [List.reverse_nil, List.nil_append]
      rw [hcuts]
    · rw [List.map_cons, hparts]

/-- **All matches** of a divided text are its parts. -/
theorem cuts_of_divided {text tail : List Char} {parts : List Part}
    (h : p.Divided [] text parts tail) :
    ∃ found, p.cuts text = (found, tail) ∧
      found.map (fun f => (f.1, f.2.text, f.2.stop.captures)) = parts :=
  cutsFrom_of_divided h (by rw [boundFor]; omega) (by omega) false 0

end StreamResolver.Pattern
