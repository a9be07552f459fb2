/-
  Reading an expression around a name.

  A template is a fixed text with a name in it, so its expression is read in three parts: the text
  in front of the name, the escaped name, and the text behind it.  `readSome` takes so many steps
  and says what is left; the escaped name is read character by character, each as itself
  (`readSome_escape`).
-/
import StreamResolver.Pattern.Template

namespace StreamResolver.Expression

/-! ## Some steps -/

/-- Read so many tokens; what is left unread. -/
def readSome : Nat → Reading → List Char → Except Problem (Reading × List Char)
  | 0, r, s => .ok (r, s)
  | _ + 1, r, [] => .ok (r, [])
  | n + 1, r, c :: rest => do
    let (r, rest) ← step r c rest
    readSome n r rest

theorem readSome_add {m n : Nat} {r r' : Reading} {s s' : List Char}
    (h : readSome m r s = .ok (r', s')) : readSome (m + n) r s = readSome n r' s' := by
  induction m generalizing r s with
  | zero =>
    rw [readSome, Except.ok.injEq, Prod.mk.injEq] at h
    rw [Nat.zero_add, h.1, h.2]
  | succ m ih =>
    rw [Nat.succ_add]
    rcases s with _ | ⟨c, rest⟩
    · rw [readSome, Except.ok.injEq, Prod.mk.injEq] at h
      obtain ⟨rfl, rfl⟩ := h
      rcases n with _ | n <;> rfl
    · rw [readSome] at h ⊢
      rcases hstep : step r c rest with e | ⟨r₁, rest₁⟩
      · rw [hstep] at h
        simp [bind, Except.bind] at h
      · rw [hstep] at h
        exact ih h

theorem readAll_of_readSome {n fuel : Nat} {r r' : Reading} {s : List Char}
    (h : readSome n r s = .ok (r', [])) (hfuel : n ≤ fuel) : readAll fuel r s = .ok r' := by
  induction n generalizing fuel r s with
  | zero =>
    rw [readSome, Except.ok.injEq, Prod.mk.injEq] at h
    obtain ⟨rfl, rfl⟩ := h
    rcases fuel with _ | fuel <;> rfl
  | succ n ih =>
    obtain ⟨fuel, rfl⟩ : ∃ m, fuel = m + 1 := ⟨fuel - 1, by omega⟩
    rcases s with _ | ⟨c, rest⟩
    · rw [readSome, Except.ok.injEq, Prod.mk.injEq] at h
      rw [readAll, h.1]
    · rw [readSome] at h
      rw [readAll]
      rcases hstep : step r c rest with e | ⟨r₁, rest₁⟩
      · rw [hstep] at h
        simp [bind, Except.bind] at h
      · rw [hstep] at h
        exact ih h (Nat.le_of_succ_le_succ hfuel)

/-- What reading to the end gives, when nothing is left open or asked for. -/
theorem compile_of_readSome {f : Flags} {s : List Char} {n : Nat} {r : Reading}
    (h : readSome n (nothing f) s = .ok (r, [])) (hn : n ≤ s.length + 1) (houter : r.outer = [])
    (hasked : r.asked = []) (hfixed : r.unfixed = false) :
    compile f s = .ok ⟨r.current.body, r.groups⟩ := by
  rw [compile, readAll_of_readSome h hn]
  simp only [bind, Except.bind, houter, hasked, List.find?_nil, hfixed]
  rfl

theorem readSome_step {n : Nat} {r r' : Reading} {c : Char} {rest rest' : List Char}
    (h : step r c rest = .ok (r', rest')) :
    readSome (n + 1) r (c :: rest) = readSome n r' rest' := by
  rw [readSome, h]
  rfl

/-- A closing parenthesis, whatever comes behind it. -/
theorem step_close {r : Reading} {outer : Frame} {more : List Frame} {rest : List Char}
    (hverbose : r.current.flags.verbose = false) (hrest : rest ≠ ['\\'])
    (houter : r.outer = outer :: more) :
    step r ')' rest = (closeGroup r outer more rest).map fun r => (r, rest) := by
  unfold step
  simp only [hverbose, Bool.false_and, Bool.false_eq_true, if_false]
  rw [if_neg (by simp [hrest])]
  simp only [houter]
  rcases closeGroup r outer more rest with e | r <;> rfl

/-- A plus sign, whatever comes behind it. -/
theorem step_plus {r : Reading} {rest : List Char} (hverbose : r.current.flags.verbose = false)
    (hrest : rest ≠ ['\\']) : step r '+' rest = quantify r 1 none ('+' :: rest) rest := by
  unfold step
  simp only [hverbose, Bool.false_and, Bool.false_eq_true, if_false]
  rw [if_neg (by simp [hrest])]

/-- A quantifier that is neither lazy nor possessive. -/
theorem quantify_greedy {r : Reading} {p : Pattern} {items : List (ItemKind × Pattern)}
    {rest : List Char} (hitems : r.current.items = (.part, p) :: items)
    (hmode : readMode rest = (.greedy, rest)) (min : Nat) (max : Option Nat) (place : List Char) :
    quantify r min max place rest = .ok ({ r with current := { r.current with
      items := (.repetition, repeated .greedy min max p) :: items } }, rest) := by
  rw [quantify, hitems]
  simp only [hmode]

/-! ## An escaped name -/

/-- Add characters that stand for themselves to the innermost group. -/
def Reading.pushText (r : Reading) (text : List Char) : Reading :=
  { r with current := { r.current with
      items := text.reverse.map (fun c => (.part, .one (.char c))) ++ r.current.items } }

theorem charSet_eq {f : Flags} (hcaseless : f.caseless = false) (c : Char) :
    f.charSet c = .char c := by
  rw [Flags.charSet, if_neg (by simp [hcaseless])]

/-- A character that is not special stands for itself. -/
theorem step_ordinary {r : Reading} {c : Char} {rest : List Char}
    (hc : Template.special.contains c = false) (hrest : rest ≠ ['\\'])
    (hcaseless : r.current.flags.caseless = false) (hverbose : r.current.flags.verbose = false) :
    step r c rest = .ok (r.push .part (.one (.char c)), rest) := by
  unfold step
  simp only [hverbose, Bool.false_and, Bool.false_eq_true, if_false]
  rw [if_neg (by simp [hrest])]
  split
  all_goals first
    | exact absurd hc (by decide)
    | rw [charSet_eq hcaseless]; rfl

/-- A special character stands for itself behind a backslash. -/
theorem step_escaped {r : Reading} {c : Char} {rest : List Char}
    (hc : Template.special.contains c = true) (hcaseless : r.current.flags.caseless = false)
    (hverbose : r.current.flags.verbose = false) :
    step r '\\' (c :: rest) = .ok (r.push .part (.one (.char c)), rest) := by
  have hproperty : ∀ f : Flags, ∀ c ∈ Template.special, f.propertySet? c = none := by
    intro f c hc
    unfold Flags.propertySet?
    split
    all_goals first
      | exact absurd hc (by decide)
      | rfl
  have hplain : (Template.special.all fun c => decide (c ≠ 'A' ∧ c ≠ 'Z' ∧ c ≠ 'b' ∧ c ≠ 'B' ∧
      controlEscape? c = none ∧ hexWidth? c = none ∧ c ≠ '0' ∧ c.isDigit = false ∧
      c.isAlpha = false)) = true := by decide
  have hmem : c ∈ Template.special := List.contains_iff_mem.mp hc
  obtain ⟨hA, hZ, hb, hB, hcontrol, hhex, hzero, hdigit, halpha⟩ :=
    of_decide_eq_true (List.all_eq_true.mp hplain c hmem)
  have hread : readEscape r c rest = .ok (r.push .part (.one (.char c)), rest) := by
    unfold readEscape
    simp only [hproperty _ c hmem, hA, hZ, hb, hB, hcontrol, hhex, hzero, hdigit, halpha,
      if_false, Bool.false_eq_true, charSet_eq hcaseless]
    rfl
  unfold step
  simp only [hverbose, Bool.false_and, Bool.false_eq_true, if_false]
  rw [if_neg (by simp)]
  exact hread

/-- **An escaped name is read as itself**, in one step for each of its characters. -/
theorem readSome_escape (name : List Char) {r : Reading}
    (hcaseless : r.current.flags.caseless = false) (hverbose : r.current.flags.verbose = false)
    {tail : List Char} (htail : 2 ≤ tail.length) :
    readSome name.length r (Template.escape name ++ tail) = .ok (r.pushText name, tail) := by
  induction name generalizing r with
  | nil => rfl
  | cons c rest ih =>
    have hstep : readSome (rest.length + 1) r (Template.escape (c :: rest) ++ tail) =
        readSome rest.length (r.push .part (.one (.char c))) (Template.escape rest ++ tail) := by
      rw [Template.escape, List.flatMap_cons, ← Template.escape]
      split
      · next hspecial =>
        simp only [List.cons_append, List.nil_append]
        exact readSome_step (step_escaped hspecial hcaseless hverbose)
      · next hordinary =>
        have hlong : Template.escape rest ++ tail ≠ ['\\'] := by
          intro h
          have hlen := congrArg List.length h
          simp only [List.length_append, List.length_singleton] at hlen
          omega
        simp only [List.cons_append, List.nil_append]
        exact readSome_step
          (step_ordinary (Bool.not_eq_true _ ▸ hordinary) hlong hcaseless hverbose)
    have hpushed : (r.push .part (.one (.char c))).pushText rest = r.pushText (c :: rest) := by
      simp [Reading.pushText, Reading.push, Frame.push]
    rw [List.length_cons, hstep, ← hpushed]
    exact ih hcaseless hverbose

/-- Nothing in front of an escaped name is repeated lazily or possessively by it, if what stands
    behind does not either. -/
theorem readMode_escape (name : List Char) {tail : List Char}
    (htail : readMode tail = (.greedy, tail)) :
    readMode (Template.escape name ++ tail) = (.greedy, Template.escape name ++ tail) := by
  rcases name with _ | ⟨c, rest⟩
  · exact htail
  rw [Template.escape, List.flatMap_cons, ← Template.escape]
  split
  · rfl
  · next hordinary =>
    simp only [List.cons_append, List.nil_append]
    unfold readMode
    split
    · next heq =>
      obtain ⟨rfl, -⟩ := List.cons_eq_cons.mp heq
      exact absurd (by decide) hordinary
    · next heq =>
      obtain ⟨rfl, -⟩ := List.cons_eq_cons.mp heq
      exact absurd (by decide) hordinary
    · rfl

theorem length_le_length_escape (name : List Char) :
    name.length ≤ (Template.escape name).length := by
  induction name with
  | nil => simp
  | cons c rest ih =>
    rw [Template.escape] at ih ⊢
    rw [List.flatMap_cons, List.length_append, List.length_cons]
    split
    · simp only [List.length_cons, List.length_nil]
      omega
    · simp only [List.length_cons, List.length_nil]
      omega

/-! ## A template with one name -/

/-- A reading at which no group is open and none has been, with the given items. -/
def around (f : Flags) (items : List (ItemKind × Pattern)) : Reading :=
  ⟨⟨.plain, [], f, [], items, 0⟩, [], 0, [], [], [], false⟩

/-- An expression around a name is read in three parts, whatever the name is. -/
theorem compile_of_around {f : Flags} (hcaseless : f.caseless = false) (hverbose : f.verbose = false)
    {front back name : List Char} {m n : Nat} {items : List (ItemKind × Pattern)} {r : Reading}
    (hmode : readMode back = (.greedy, back))
    (hfront : ∀ tail, tail ≠ ['\\'] → readMode tail = (.greedy, tail) →
      readSome m (nothing f) (front ++ tail) = .ok (around f items, tail))
    (hback : readSome n ((around f items).pushText name) back = .ok (r, []))
    (houter : r.outer = []) (hasked : r.asked = []) (hfixed : r.unfixed = false)
    (hlong : 2 ≤ back.length) (hm : m ≤ front.length) (hn : n ≤ back.length) :
    compile f (front ++ (Template.escape name ++ back)) = .ok ⟨r.current.body, r.groups⟩ := by
  have hescaped := length_le_length_escape name
  have htail : Template.escape name ++ back ≠ ['\\'] := by
    intro h
    have hlen := congrArg List.length h
    simp only [List.length_append, List.length_singleton] at hlen
    omega
  have hall : readSome (m + (name.length + n)) (nothing f)
      (front ++ (Template.escape name ++ back)) = .ok (r, []) := by
    rw [readSome_add (hfront _ htail (readMode_escape name hmode)),
      readSome_add (readSome_escape name hcaseless hverbose hlong)]
    exact hback
  exact compile_of_readSome hall (by simp only [List.length_append]; omega) houter hasked hfixed

/-- **An expression around a name** is what stands in front of the name, the name, and what stands
    behind it. -/
theorem compile_around {f : Flags} (hcaseless : f.caseless = false) (hverbose : f.verbose = false)
    {front back name : List Char} {m n groups : Nat} {items : List (ItemKind × Pattern)}
    {parts : List Pattern} (hmode : readMode back = (.greedy, back))
    (hfront : ∀ tail, tail ≠ ['\\'] → readMode tail = (.greedy, tail) →
      readSome m (nothing f) (front ++ tail) = .ok (around f items, tail))
    (hback : ∀ items, ∃ r, readSome n (around f items) back = .ok (r, []) ∧ r.outer = [] ∧
      r.asked = [] ∧ r.unfixed = false ∧ r.groups = groups ∧ r.current.alternatives = [] ∧
      r.current.items.map (·.2) = parts.reverse ++ items.map (·.2))
    (hlong : 2 ≤ back.length) (hm : m ≤ front.length) (hn : n ≤ back.length) :
    compile f (front ++ (Template.escape name ++ back)) =
      .ok ⟨.sequence ((items.map (·.2)).reverse ++
        (name.map (fun c => .one (.char c)) ++ parts)), groups⟩ := by
  obtain ⟨r, hread, houter, hasked, hfixed, hgroups, halternatives, hitems⟩ :=
    hback ((around f items).pushText name).current.items
  have hbody : r.current.body = .sequence ((items.map (·.2)).reverse ++
      (name.map (fun c => .one (.char c)) ++ parts)) := by
    rw [Frame.body, halternatives, Frame.branch, List.map_reverse, hitems]
    simp only [Reading.pushText, around, List.map_append, List.map_map, List.reverse_append,
      List.reverse_reverse, List.map_reverse, List.append_assoc]
    rfl
  rw [compile_of_around hcaseless hverbose hmode hfront hread houter hasked hfixed hlong hm hn, hbody,
    hgroups]

end StreamResolver.Expression
