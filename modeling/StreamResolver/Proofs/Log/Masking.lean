/-
  What masking hides and what it keeps.

  A secret is the value behind a lead, which is a sign that opens a parameter, one of the names that
  are masked, and an equals sign.  `Masked s t` says, without the scanner, that `t` is `s` with the
  secrets hidden: from left to right, where a secret begins (`Exposed`) its lead is kept and stars
  stand for its value, up to the next ampersand or blank; any other character is kept as it is.  The
  text that a URL becomes is the only one of which this holds (`masked_iff`).

  That a secret is hidden, whatever stands around it, is a statement about two runs of the scanner
  (`mask_swap`).  The crux is where a secret can go wrong: an earlier one may take it in, as a value
  may hold question marks, names and equals signs.  But no lead reaches over the sign of another
  (`Lead.in_front`), so an earlier secret ends in front of this one or at the same place
  (`Secret.in_front`), and in either case the value is not seen.

  For fields of an event: `secrets_hidden`.
-/
import StreamResolver.Log.Redaction
import StreamResolver.Proofs.Keyed
import StreamResolver.Proofs.Text.Joining

namespace StreamResolver.Redaction

open Text

/-! ## Secrets in a text -/

/-- What stands in front of a secret. -/
structure Lead where
  sign : Char
  name : List Char
  sign_opens : sign = '?' ∨ sign = '&'
  name_mem : name ∈ ["sig", "lsig", "signature", "pot"].map String.toList

/-- A secret: up to an ampersand or a blank. -/
structure Secret where
  chars : List Char
  chars_ne : chars ≠ []
  inside : ∀ c ∈ chars, c ≠ '&' ∧ isBlank c = false

/-- A lead as it is written. -/
def Lead.text (l : Lead) : List Char := l.sign :: (l.name ++ ['='])

/-- A secret does not go on here. -/
def Ended (rest : List Char) : Prop := ∀ c ∈ rest.head?, c = '&' ∨ isBlank c = true

theorem ended_cons {c : Char} {rest : List Char} :
    Ended (c :: rest) ↔ c = '&' ∨ isBlank c = true := by
  simp [Ended]

/-- A secret begins here, with its lead. -/
def Exposed (s : List Char) : Prop :=
  ∃ (l : Lead) (v : Secret) (rest : List Char), s = l.text ++ (v.chars ++ rest)

/-- The second text is the first one with its secrets hidden and all else kept. -/
inductive Masked : List Char → List Char → Prop where
  | done : Masked [] []
  | kept {c : Char} {s t : List Char} (hclear : ¬ Exposed (c :: s)) (h : Masked s t) :
      Masked (c :: s) (c :: t)
  | hidden (l : Lead) (v : Secret) {rest t : List Char} (hended : Ended rest) (h : Masked rest t) :
      Masked (l.text ++ (v.chars ++ rest)) (l.text ++ (stars ++ t))

/-! ## Leads -/

theorem secretNames_eq :
    secretNames = ["sig", "lsig", "signature", "pot"].map String.toList := by decide

theorem opens_iff {c : Char} : opens c = true ↔ c = '?' ∨ c = '&' := by
  simp [opens]

theorem inValue_iff {c : Char} : inValue c = true ↔ c ≠ '&' ∧ isBlank c = false := by
  simp [inValue]

theorem inValue_eq_false_iff {c : Char} : inValue c = false ↔ c = '&' ∨ isBlank c = true := by
  by_cases hand : c = '&' <;> simp [inValue, hand]

namespace Lead

variable (l : Lead)

/-- Behind its sign, a lead opens no other parameter, and its characters may stand in a secret. -/
theorem name_spec : ∀ c ∈ l.name ++ ['='], opens c = false ∧ inValue c = true := by
  have hall : ∀ name ∈ secretNames,
      (name ++ ['=']).all (fun c => opens c = false ∧ inValue c = true) = true := by decide
  exact forall_mem_of_all (hall l.name (secretNames_eq ▸ l.name_mem))

theorem equals_not_mem : '=' ∉ l.sign :: l.name := by
  have hnames : ∀ name ∈ secretNames, '=' ∉ name := by decide
  rw [List.mem_cons, not_or]
  refine ⟨?_, hnames l.name (secretNames_eq ▸ l.name_mem)⟩
  rcases l.sign_opens with h | h <;> (rw [h]; decide)

/-- A text has one lead at most at its start. -/
theorem unique {l l' : Lead} {s s' : List Char} (h : l.text ++ s = l'.text ++ s') :
    l.text = l'.text ∧ s = s' := by
  have hsplit : ∀ (l : Lead) (s : List Char), l.text ++ s = (l.sign :: l.name) ++ '=' :: s :=
    fun l s => by simp [text]
  rw [hsplit, hsplit] at h
  obtain ⟨hlead, hs⟩ := append_sep_inj l.equals_not_mem l'.equals_not_mem h
  refine ⟨?_, hs⟩
  rw [List.cons.injEq] at hlead
  rw [text, text, hlead.1, hlead.2]

/-- A lead that begins in front of another one ends there too. -/
theorem in_front {l l' : Lead} {w s : List Char} {c : Char} {front : List Char}
    (h : l.text ++ w = (c :: front) ++ (l'.text ++ s)) :
    ∃ front', c :: front = l.text ++ front' ∧ w = front' ++ (l'.text ++ s) := by
  rw [text, List.cons_append, List.cons_append, List.cons.injEq] at h
  obtain ⟨rfl, h⟩ := h
  rcases List.append_eq_append_iff.mp h with ⟨front', hfront, hw⟩ | ⟨past, hname, hpast⟩
  · exact ⟨front', by rw [text, hfront, List.cons_append], hw⟩
  · rcases past with _ | ⟨x, past⟩
    · exact ⟨[], by rw [text, hname, List.append_nil, List.append_nil], hpast.symm⟩
    · -- the sign of the second lead would stand in the name of the first
      rw [text, List.cons_append, List.cons_append, List.cons.injEq] at hpast
      have hplain := (l.name_spec x (by rw [hname]; simp)).1
      rw [← hpast.1, opens_iff.mpr l'.sign_opens] at hplain
      cases hplain

end Lead

/-! ## Where secrets begin and end -/

theorem Secret.inValue (v : Secret) : ∀ c ∈ v.chars, inValue c = true :=
  fun c hc => inValue_iff.mpr (v.inside c hc)

theorem Ended.stops {rest : List Char} (h : Ended rest) : ∀ c ∈ rest.head?, inValue c = false :=
  fun c hc => inValue_eq_false_iff.mpr (h c hc)

/-- A run of values and the text behind it are told apart. -/
theorem run_unique {v v' rest rest' : List Char} (hv : ∀ c ∈ v, inValue c = true)
    (hv' : ∀ c ∈ v', inValue c = true) (hrest : Ended rest) (hrest' : Ended rest')
    (h : v ++ rest = v' ++ rest') : v = v' ∧ rest = rest' := by
  have hspan := span_run hv hrest.stops
  have hspan' := span_run hv' hrest'.stops
  rw [h] at hspan
  exact ⟨hspan.1.symm.trans hspan'.1, hspan.2.symm.trans hspan'.2⟩

/-- A lead with any part of a secret behind it exposes one. -/
theorem exposed_of_head {l : Lead} {s : List Char} {c : Char} (hs : s.head? = some c)
    (hc : inValue c = true) : Exposed (l.text ++ s) := by
  obtain ⟨rest, rfl⟩ := List.head?_eq_some_iff.mp hs
  exact ⟨l, ⟨[c], by simp, by simpa using inValue_iff.mp hc⟩, rest, rfl⟩

/-- A secret that begins in front of a lead ends in front of it, or where the secret behind the lead
    ends. -/
theorem Secret.in_front {u v : Secret} {l : Lead} {rest front back : List Char}
    (hrest : Ended rest) (hback : Ended back)
    (h : u.chars ++ rest = front ++ (l.text ++ (v.chars ++ back))) :
    (∃ front', front = u.chars ++ front' ∧ rest = front' ++ (l.text ++ (v.chars ++ back))) ∨
      (u.chars = front ++ (l.text ++ v.chars) ∧ rest = back) := by
  rcases List.append_eq_append_iff.mp h with ⟨front', hfront, hrest'⟩ | ⟨past, hu, hpast⟩
  · exact .inl ⟨front', hfront, hrest'⟩
  · rcases past with _ | ⟨x, past⟩
    · exact .inl ⟨[], by rw [hu, List.append_nil, List.append_nil], hpast.symm⟩
    -- the sign stands in the first secret, so all of the lead may, and both secrets are one run
    have hpast' : x :: past ++ rest = (l.text ++ v.chars) ++ back := by
      rw [← hpast, List.append_assoc]
    have hx : ∀ c ∈ x :: past, Redaction.inValue c = true := fun c hc =>
      u.inValue c (by rw [hu]; exact List.mem_append_right front hc)
    have hsign : x = l.sign := by
      rw [Lead.text, List.cons_append, List.cons_append, List.cons_append, List.cons.injEq] at hpast'
      exact hpast'.1
    have hlead : ∀ c ∈ l.text ++ v.chars, Redaction.inValue c = true := by
      intro c hc
      rcases List.mem_append.mp hc with hc | hc
      · rcases List.mem_cons.mp hc with rfl | hc
        · exact hsign ▸ hx x List.mem_cons_self
        · exact (l.name_spec c hc).2
      · exact v.inValue c hc
    obtain ⟨hrun, hend⟩ := run_unique hx hlead hrest hback hpast'
    exact .inr ⟨by rw [hu, hrun], hend⟩

/-- A secret that takes in another one may take in any other in its place. -/
theorem Secret.with_inner {u v : Secret} {l : Lead} {front : List Char} (v' : Secret)
    (h : u.chars = front ++ (l.text ++ v.chars)) :
    ∃ u' : Secret, u'.chars = front ++ (l.text ++ v'.chars) := by
  have hinside : ∀ c ∈ front ++ (l.text ++ v'.chars), c ≠ '&' ∧ isBlank c = false := by
    intro c hc
    rw [← List.append_assoc] at hc
    rcases List.mem_append.mp hc with hc | hc
    · refine u.inside c ?_
      rw [h, ← List.append_assoc]
      exact List.mem_append_left _ hc
    · exact v'.inside c hc
  exact ⟨⟨_, by simp [Lead.text], hinside⟩, rfl⟩

/-! ## One secret for another -/

/-- The text behind a place in front of a lead begins alike, whatever follows the lead. -/
theorem head?_in_front (front : List Char) (l : Lead) (s s' : List Char) :
    (front ++ (l.text ++ s)).head? = (front ++ (l.text ++ s')).head? := by
  cases front <;> rfl

section Swap

variable {l : Lead} {back : List Char} (v v' : Secret)

/-- Whether a secret begins in front of a lead does not depend on what the lead hides. -/
theorem exposed_swap {c : Char} {front : List Char}
    (h : Exposed ((c :: front) ++ (l.text ++ (v.chars ++ back)))) :
    Exposed ((c :: front) ++ (l.text ++ (v'.chars ++ back))) := by
  obtain ⟨l₀, u, rest, heq⟩ := h
  obtain ⟨front', hfront, hu⟩ := Lead.in_front heq.symm
  obtain ⟨x, more, hx⟩ := List.exists_cons_of_ne_nil u.chars_ne
  rw [hfront, List.append_assoc]
  refine exposed_of_head (c := x) ?_ (u.inValue x (by rw [hx]; exact List.mem_cons_self))
  rw [head?_in_front front' l _ (v.chars ++ back), ← hu, hx]
  rfl

/-- **What hides one secret hides any other one in its place.** -/
theorem Masked.swap (hback : Ended back) {front t : List Char}
    (h : Masked (front ++ (l.text ++ (v.chars ++ back))) t) :
    Masked (front ++ (l.text ++ (v'.chars ++ back))) t := by
  generalize hs : front ++ (l.text ++ (v.chars ++ back)) = s at h
  induction h generalizing front with
  | done => simp [Lead.text] at hs
  | @kept c s t hclear h ih =>
    rcases front with _ | ⟨c', front⟩
    · exact absurd ⟨l, v, back, hs.symm⟩ hclear
    · rw [List.cons_append, List.cons.injEq] at hs
      obtain ⟨rfl, hs⟩ := hs
      refine .kept (fun hexposed => hclear ?_) (ih hs)
      rw [← hs]
      exact exposed_swap v' v hexposed
  | @hidden l₀ u rest t hended h ih =>
    rcases front with _ | ⟨c, front⟩
    · obtain ⟨hlead, hrest⟩ := Lead.unique hs
      obtain ⟨-, rfl⟩ := run_unique v.inValue u.inValue hback hended hrest
      rw [← hlead]
      exact .hidden l v' hback h
    · obtain ⟨front', hfront, hu⟩ := Lead.in_front hs.symm
      rw [hfront, List.append_assoc]
      rcases Secret.in_front hended hback hu with ⟨front'', hfront', hrest⟩ | ⟨hu', rfl⟩
      · have hended' : Ended (front'' ++ (l.text ++ (v'.chars ++ back))) := by
          intro x hx
          rw [head?_in_front front'' l _ (v.chars ++ back), ← hrest] at hx
          exact hended x hx
        rw [hfront', List.append_assoc]
        exact .hidden l₀ u hended' (ih hrest.symm)
      · -- the earlier secret takes in this one
        obtain ⟨u', hu''⟩ := Secret.with_inner v' hu'
        have hmasked := Masked.hidden l₀ u' hended h
        rw [hu'', List.append_assoc, List.append_assoc] at hmasked
        exact hmasked

end Swap

/-! ## Masking again -/

namespace Masked

variable {s t : List Char}

theorem head?_eq (h : Masked s t) : s.head? = t.head? := by
  cases h <;> rfl

/-- What opens no parameter was kept. -/
theorem of_plain {w t : List Char} (hw : ∀ c ∈ w, opens c = false) (h : Masked s (w ++ t)) :
    ∃ rest, s = w ++ rest ∧ Masked rest t := by
  induction w generalizing s with
  | nil => exact ⟨s, rfl, h⟩
  | cons c w ih =>
    generalize ht : c :: w ++ t = t' at h
    cases h with
    | done => cases ht
    | kept hclear h =>
      rw [List.cons_append, List.cons.injEq] at ht
      obtain ⟨rfl, rfl⟩ := ht
      obtain ⟨rest, rfl, hrest⟩ := ih (fun x hx => hw x (List.mem_cons_of_mem c hx)) h
      exact ⟨rest, rfl, hrest⟩
    | hidden l v hended h =>
      rw [Lead.text, List.cons_append, List.cons_append, List.cons.injEq] at ht
      have hplain := hw c List.mem_cons_self
      rw [ht.1, opens_iff.mpr l.sign_opens] at hplain
      cases hplain

/-- Masking exposes nothing. -/
theorem exposed (h : Masked s t) {c : Char} (ht : Exposed (c :: t)) : Exposed (c :: s) := by
  obtain ⟨l, v, rest, heq⟩ := ht
  rw [Lead.text, List.cons_append, List.cons.injEq] at heq
  obtain ⟨rfl, rfl⟩ := heq
  obtain ⟨behind, rfl, hbehind⟩ := h.of_plain fun c hc => (l.name_spec c hc).1
  obtain ⟨x, more, hx⟩ := List.exists_cons_of_ne_nil v.chars_ne
  have hhead : behind.head? = some x := by rw [hbehind.head?_eq, hx]; rfl
  exact exposed_of_head (l := l) hhead (v.inValue x (by rw [hx]; exact List.mem_cons_self))

/-- **A masked text has nothing left to mask.** -/
theorem again (h : Masked s t) : Masked t t := by
  induction h with
  | done => exact .done
  | kept hclear h ih => exact .kept (fun hexposed => hclear (h.exposed hexposed)) ih
  | hidden l v hended h ih =>
    refine .hidden l ⟨stars, by decide, forall_mem_of_all (by decide)⟩ (fun c hc => ?_) ih
    rw [← h.head?_eq] at hc
    exact hended c hc

/-- A text is masked in one way. -/
theorem unique {t' : List Char} (h : Masked s t) (h' : Masked s t') : t = t' := by
  induction h generalizing t' with
  | done =>
    generalize hs : ([] : List Char) = s at h'
    cases h' with
    | done => rfl
    | kept => cases hs
    | hidden l v => cases hs
  | @kept c s t hclear h ih =>
    generalize hs : c :: s = s' at h'
    cases h' with
    | done => cases hs
    | kept hclear' h' =>
      rw [List.cons.injEq] at hs
      obtain ⟨rfl, rfl⟩ := hs
      rw [ih h']
    | @hidden l v rest => exact absurd ⟨l, v, rest, hs⟩ hclear
  | @hidden l v rest t hended h ih =>
    generalize hs : l.text ++ (v.chars ++ rest) = s' at h'
    cases h' with
    | done => cases hs
    | kept hclear' h' => exact absurd ⟨l, v, rest, hs.symm⟩ hclear'
    | hidden l' v' hended' h' =>
      obtain ⟨hlead, hrest⟩ := Lead.unique hs
      obtain ⟨-, rfl⟩ := run_unique v.inValue v'.inValue hended hended' hrest
      rw [hlead, ih h']

end Masked

/-! ## The scanner -/

theorem behindName?_eq_some_iff {s name rest : List Char} : behindName? s name = some rest ↔
    s = name ++ ['='] ++ rest ∧ (rest.head?.map inValue).getD false = true := by
  rw [behindName?, Option.filter_eq_some_iff, dropFront?_eq_some_iff]

/-- What is found behind a sign is a lead with a part of a secret behind it. -/
theorem exists_lead_of_secret? {c : Char} (hc : opens c = true) {s name value : List Char}
    (h : secret? s = some (name, value)) : ∃ l : Lead, c :: name = l.text ∧ s = name ++ value ∧
      ∃ x rest, value = x :: rest ∧ inValue x = true := by
  obtain ⟨n, hn, hmap⟩ := List.exists_of_findSome?_eq_some h
  obtain ⟨rest, hbehind, heq⟩ := Option.map_eq_some_iff.mp hmap
  obtain ⟨rfl, rfl⟩ := Prod.mk.injEq _ _ _ _ ▸ heq
  obtain ⟨hs, hvalue⟩ := behindName?_eq_some_iff.mp hbehind
  refine ⟨⟨c, n, opens_iff.mp hc, secretNames_eq ▸ hn⟩, rfl, hs, ?_⟩
  rcases rest with _ | ⟨x, rest⟩
  · cases hvalue
  · exact ⟨x, rest, rfl, hvalue⟩

/-- Where nothing is found behind a sign, no secret begins. -/
theorem not_exposed_of_secret? {c : Char} {s : List Char} (h : secret? s = none) :
    ¬ Exposed (c :: s) := by
  rintro ⟨l, v, rest, heq⟩
  rw [Lead.text, List.cons_append, List.cons.injEq] at heq
  have hnone := List.findSome?_eq_none_iff.mp h l.name (secretNames_eq ▸ l.name_mem)
  obtain ⟨x, more, hx⟩ := List.exists_cons_of_ne_nil v.chars_ne
  have hfound : behindName? s l.name = some (v.chars ++ rest) := by
    rw [behindName?_eq_some_iff, heq.2, hx]
    exact ⟨rfl, v.inValue x (by rw [hx]; exact List.mem_cons_self)⟩
  rw [hfound] at hnone
  cases hnone

theorem not_exposed_of_opens {c : Char} (hc : ¬ opens c = true) (s : List Char) :
    ¬ Exposed (c :: s) := by
  rintro ⟨l, v, rest, heq⟩
  rw [Lead.text, List.cons_append, List.cons.injEq] at heq
  rw [heq.1, opens_iff] at hc
  exact hc l.sign_opens

/-- The run of a value is a secret, and it ends. -/
theorem exists_secret_of_head {x : Char} (hx : inValue x = true) (rest : List Char) :
    ∃ v : Secret, x :: rest = v.chars ++ (x :: rest).dropWhile inValue ∧
      Ended ((x :: rest).dropWhile inValue) := by
  have hall : ∀ c ∈ (x :: rest).takeWhile inValue, c ≠ '&' ∧ isBlank c = false := fun c hc =>
    inValue_iff.mp (List.all_eq_true.mp List.all_takeWhile c hc)
  have hne : (x :: rest).takeWhile inValue ≠ [] := by
    rw [List.takeWhile_cons_of_pos hx]
    simp
  refine ⟨⟨_, hne, hall⟩, List.takeWhile_append_dropWhile.symm, fun c hc => ?_⟩
  have hstop := List.head?_dropWhile_not inValue (x :: rest)
  rw [Option.mem_def.mp hc] at hstop
  exact inValue_eq_false_iff.mp hstop

theorem mask_of_secret? {c : Char} (hc : opens c = true) {s name value : List Char}
    (h : secret? s = some (name, value)) :
    mask (c :: s) = c :: name ++ stars ++ mask (value.dropWhile inValue) := by
  rw [mask, if_pos hc]
  split
  · next heq =>
    rw [h] at heq
    cases heq
    rfl
  · next heq =>
    rw [h] at heq
    cases heq

theorem mask_of_secret?_none (c : Char) {s : List Char} (h : secret? s = none) :
    mask (c :: s) = c :: mask s := by
  rw [mask]
  split
  · split
    · next heq =>
      rw [h] at heq
      cases heq
    · rfl
  · rfl

theorem masked_mask (s : List Char) : Masked s (mask s) := by
  induction s using mask.induct with
  | case1 =>
    rw [mask]
    exact .done
  | case2 c s hopens name value hsecret ih =>
    obtain ⟨l, hlead, hs, x, rest, rfl, hx⟩ := exists_lead_of_secret? hopens hsecret
    obtain ⟨v, hv, hended⟩ := exists_secret_of_head hx rest
    have htext : c :: s = l.text ++ (v.chars ++ (x :: rest).dropWhile inValue) := by
      rw [hs, ← hlead, ← hv, List.cons_append]
    rw [mask_of_secret? hopens hsecret, hlead, List.append_assoc, htext]
    exact .hidden l v hended ih
  | case3 c s hopens hsecret ih =>
    rw [mask_of_secret?_none c hsecret]
    exact .kept (not_exposed_of_secret? hsecret) ih
  | case4 c s hopens ih =>
    rw [mask, if_neg hopens]
    exact .kept (not_exposed_of_opens hopens s) ih

/-- **Masking keeps all but the secrets**, and nothing else does. -/
theorem masked_iff {s t : List Char} : Masked s t ↔ t = mask s :=
  ⟨fun h => h.unique (masked_mask s), fun h => h ▸ masked_mask s⟩

/-- **Which secret stands behind a lead cannot be seen.** -/
theorem mask_swap (front : List Char) (l : Lead) (v v' : Secret) {back : List Char}
    (hback : Ended back) : mask (front ++ (l.text ++ (v.chars ++ back))) =
      mask (front ++ (l.text ++ (v'.chars ++ back))) :=
  masked_iff.mp ((masked_mask _).swap v v' hback)

/-- **Masking twice is masking once.** -/
theorem mask_mask (s : List Char) : mask (mask s) = mask s :=
  (masked_iff.mp (masked_mask s).again).symm

/-! ## Events -/

/-- The fields of an event that hold URLs. -/
def IsUrlField (key : String) : Prop := key ∈ ["url", "stream_url", "player_url"]

instance (key : String) : Decidable (IsUrlField key) :=
  inferInstanceAs (Decidable (key ∈ ["url", "stream_url", "player_url"]))

theorem maskField_url {key : String} (hkey : IsUrlField key) (s : List Char) :
    maskField key (.ofChars s) = .ofChars (mask s) := by
  have hmem : urlFields.contains key = true := List.contains_iff_mem.mpr hkey
  rw [Value.ofChars, maskField, if_pos hmem, String.toList_ofList]

theorem maskField_other {key : String} {v : Value}
    (h : ¬ IsUrlField key ∨ ∀ s, v ≠ .ofChars s) : maskField key v = v := by
  cases v with
  | str s =>
    have hkey : ¬ urlFields.contains key = true := by
      rcases h with h | h
      · exact fun hmem => h (List.contains_iff_mem.mp hmem)
      · exact absurd (congrArg Value.str String.ofList_toList.symm) (h s.toList)
    rw [maskField, if_neg hkey]
  | _ => rfl

theorem maskField_maskField (key : String) (v : Value) :
    maskField key (maskField key v) = maskField key v := by
  by_cases hkey : IsUrlField key
  · cases v with
    | str s =>
      have hs : Value.str s = .ofChars s.toList := congrArg Value.str String.ofList_toList.symm
      rw [hs, maskField_url hkey, maskField_url hkey, mask_mask]
    | _ => rfl
  · rw [maskField_other (.inl hkey), maskField_other (.inl hkey)]

theorem get?_maskFields (event : Keyed Value) (key : String) :
    (maskFields event).get? key = (event.get? key).map (maskField key) :=
  Keyed.get?_mapValues event maskField key

/-- **The secrets of an event are hidden and nothing else is changed**: a secret in a field with a URL
    may be any other one, whatever stands around it; masking once is enough; what is no field with a
    URL or no text keeps its value, and a URL is masked where a secret stands in it and nowhere else. -/
theorem secrets_hidden (event : Keyed Value) :
    (∀ (key : String) (front : List Char) (l : Lead) (v v' : Secret) (back : List Char),
      IsUrlField key → Ended back →
        maskFields (event.put key (.ofChars (front ++ (l.text ++ (v.chars ++ back))))) =
          maskFields (event.put key (.ofChars (front ++ (l.text ++ (v'.chars ++ back)))))) ∧
    maskFields (maskFields event) = maskFields event ∧
    (maskFields event).keys = event.keys ∧
    ∀ key v, event.get? key = some v →
      (¬ IsUrlField key ∨ (∀ s, v ≠ .ofChars s) → (maskFields event).get? key = some v) ∧
      ∀ s, IsUrlField key → v = .ofChars s →
        ∃ t, (maskFields event).get? key = some (.ofChars t) ∧ Masked s t := by
  refine ⟨?swap, ?twice, ?keys, fun key v hv => ⟨fun hother => ?other, ?url⟩⟩
  case swap =>
    intro key front l v v' back hkey hback
    have hput : ∀ w, maskFields (event.put key w) = (maskFields event).put key (maskField key w) :=
      fun w => Keyed.put_mapValues event maskField key w
    rw [hput, hput, maskField_url hkey, maskField_url hkey, mask_swap front l v v' hback]
  case twice =>
    rw [maskFields, maskFields, List.map_map]
    refine List.map_congr_left fun e _ => ?_
    exact congrArg (e.1, ·) (maskField_maskField e.1 e.2)
  case keys =>
    rw [Keyed.keys, maskFields, List.map_map]
    rfl
  case other => rw [get?_maskFields, hv, Option.map_some, maskField_other hother]
  case url =>
    rintro s hkey rfl
    refine ⟨mask s, ?_, masked_mask s⟩
    rw [get?_maskFields, hv, Option.map_some, maskField_url hkey]

/-- A signature that takes in what looks like another one. -/
def sampleSecret : Secret := ⟨"k?pot=1".toList, by decide, forall_mem_of_all (by decide)⟩

/-- A signature behind the first one. -/
def sampleLead : Lead := ⟨'&', "lsig".toList, .inr rfl, by decide⟩

/-- An event with a URL in two fields. -/
def sampleEvent : Keyed Value :=
  [("url", .str "https://h/a?sig=k?pot=1&n=x"), ("note", .str "https://h/a?sig=k")]

theorem secrets_hidden_sample :
    IsUrlField "url" ∧ Ended "&n=x".toList ∧
      maskFields (sampleEvent.put "url" (.ofChars ("https://h/a?sig=k".toList ++
          (sampleLead.text ++ ("a=b".toList ++ "&n=x".toList))))) =
        maskFields (sampleEvent.put "url" (.ofChars ("https://h/a?sig=k".toList ++
          (sampleLead.text ++ (sampleSecret.chars ++ "&n=x".toList))))) ∧
      maskFields (maskFields sampleEvent) = maskFields sampleEvent ∧
      ¬ IsUrlField "note" ∧
      (maskFields sampleEvent).get? "note" = some (.str "https://h/a?sig=k") ∧
      (maskFields sampleEvent).get? "url" = some (.ofChars "https://h/a?sig=***&n=x".toList) := by
  have hurl : IsUrlField "url" := by decide
  have hnote : ¬ IsUrlField "note" := by decide
  have hended : Ended "&n=x".toList := ended_cons.mpr (.inl rfl)
  obtain ⟨hswap, htwice, -, hfields⟩ := secrets_hidden sampleEvent
  refine ⟨hurl, hended, ?_, htwice, hnote, ?_, ?_⟩
  · exact hswap "url" _ sampleLead ⟨"a=b".toList, by decide, forall_mem_of_all (by decide)⟩
      sampleSecret _ hurl hended
  · exact (hfields "note" _ rfl).1 (.inl hnote)
  · obtain ⟨t, hget, hmasked⟩ := (hfields "url" _ rfl).2 "https://h/a?sig=k?pot=1&n=x".toList hurl rfl
    have hmask : mask "https://h/a?sig=k?pot=1&n=x".toList = "https://h/a?sig=***&n=x".toList := by
      decide +kernel
    rw [hget, masked_iff.mp hmasked, hmask]

end StreamResolver.Redaction
