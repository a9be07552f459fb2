/-
  Names that are reached through a slot of an array.

  A script may call its function as `Xy[1](b)` where `var Xy=[q, Rt]`.  An indexed matcher then
  captures the array and the index, and a second search, for the declaration of the array, gives the
  items.  The name of the array is whatever was captured, so it may hold blanks itself and the places
  where it ends and the gaps begin are not unique.  The crux is that what is listed is unique all the
  same (`declares_unique`): blanks aside, a declaration says where its equals sign stands, and from
  there on it is read character by character.  So the leftmost match lists the items of the first
  declaration (`arrayItems?_of_first`), these are read back by cutting at commas and trimming
  (`items_read`), and the index picks one of them (`slot_resolved`).
-/
import StreamResolver.Proofs.Cipher.Faults
import StreamResolver.Proofs.Cipher.ScriptFunction
import StreamResolver.Proofs.Pattern.AllWays
import StreamResolver.Proofs.Text.Trimming

namespace StreamResolver.Cipher

open Text Pattern

/-! ## Declarations of arrays -/

/-- The text begins with a declaration of the array with the given name, and between the brackets
    stands what it lists. -/
def Declares (name inside s : List Char) : Prop :=
  ∃ (space : Stretch .blank) (gap gap' : Gap) (rest : List Char), inside ≠ [] ∧ ']' ∉ inside ∧
    s = "var".toList ++ (space.chars ++ (name ++ (gap.chars ++ ('=' :: (gap'.chars ++
      ('[' :: (inside ++ ']' :: rest)))))))

/-- The first declaration of the array in the text. -/
def DeclaredFirst (name inside text : List Char) : Prop :=
  ∃ front s, text = front ++ s ∧ Declares name inside s ∧
    ∀ front' s' inside', text = front' ++ s' → Declares name inside' s' →
      front.length ≤ front'.length

/-- Up to the equals sign there are blanks around the name, so they do not matter. -/
theorem dropWhile_declared (space : Stretch .blank) (gap : Gap) (name rest : List Char) :
    ∃ blanks, '=' ∉ blanks ∧
      (space.chars ++ (name ++ (gap.chars ++ '=' :: rest))).dropWhile isBlank =
        name.dropWhile isBlank ++ (blanks ++ '=' :: rest) := by
  have hspace : ∀ c ∈ space.chars, isBlank c = true := space.all
  have hgap : ∀ c ∈ gap.chars, isBlank c = true := gap.all
  rw [List.dropWhile_append_of_pos hspace, List.dropWhile_append]
  split
  · -- the name is made of blanks only, so the gap goes with it
    next hempty =>
    refine ⟨[], List.not_mem_nil, ?_⟩
    rw [List.isEmpty_iff.mp hempty, List.dropWhile_append_of_pos hgap]
    rfl
  · exact ⟨gap.chars, gap.not_mem (by decide), rfl⟩

/-- **A declaration lists one thing**, wherever its gaps are taken to be. -/
theorem declares_unique {name inside inside' s : List Char} (h : Declares name inside s)
    (h' : Declares name inside' s) : inside = inside' := by
  obtain ⟨space, before, after, rest, -, hinside, rfl⟩ := h
  obtain ⟨space', before', after', rest', -, hinside', heq⟩ := h'
  have hbehind := congrArg (List.dropWhile isBlank) (List.append_cancel_left heq)
  obtain ⟨blanks, hblanks, hdropped⟩ := dropWhile_declared space before name
    (after.chars ++ ('[' :: (inside ++ ']' :: rest)))
  obtain ⟨blanks', hblanks', hdropped'⟩ := dropWhile_declared space' before' name
    (after'.chars ++ ('[' :: (inside' ++ ']' :: rest')))
  rw [hdropped, hdropped'] at hbehind
  have hlist := (append_sep_inj hblanks hblanks' (List.append_cancel_left hbehind)).2
  have hitems := (append_sep_inj (after.not_mem (by decide)) (after'.not_mem (by decide)) hlist).2
  exact (append_sep_inj hinside hinside' hitems).1

/-! ## Finding declarations -/

section Finding

variable {name inside text : List Char} {bound : Nat} {s t : Place}

/-- What a match of the expression passes is a declaration, and the capture is what it lists. -/
theorem declares_of_way (h : t ∈ (Matcher.arrayDeclaration name).ways bound s) :
    ∃ inside, Declares name inside s.after ∧ t.captured? 1 = some inside := by
  obtain ⟨a, hvar, h⟩ := mem_ways_cons.mp h
  obtain ⟨b, hspace, h⟩ := mem_ways_cons.mp h
  obtain ⟨c, hname, h⟩ := mem_ways_cons.mp h
  obtain ⟨d, hgap, h⟩ := mem_ways_cons.mp h
  obtain ⟨e, heq, h⟩ := mem_ways_cons.mp h
  obtain ⟨f, hgap', h⟩ := mem_ways_cons.mp h
  obtain ⟨g, hopen, h⟩ := mem_ways_cons.mp h
  obtain ⟨i, hitems, hclose⟩ := mem_ways_cons.mp h
  obtain ⟨space, hspace⟩ := some1_reads (leads_of_mem_ways hspace)
  obtain ⟨gap, hgap⟩ := many_blank_reads (leads_of_mem_ways hgap)
  obtain ⟨gap', hgap'⟩ := many_blank_reads (leads_of_mem_ways hgap')
  obtain ⟨m, hinside, rfl⟩ := List.mem_map.mp hitems
  obtain ⟨inside, hinside⟩ := some1_reads (leads_of_mem_ways hinside)
  have hclose := mem_ways_literal.mp hclose
  refine ⟨inside.chars, ⟨space, gap, gap', t.after, inside.chars_ne, inside.not_mem (by decide), ?_⟩,
    ?_⟩
  · have hbracket : m.after = "]".toList ++ t.after := hclose.after_eq
    rw [(mem_ways_literal.mp hvar).after_eq, hspace.after_eq, (mem_ways_literal.mp hname).after_eq,
      hgap.after_eq, (mem_ways_literal.mp heq).after_eq, hgap'.after_eq,
      (mem_ways_literal.mp hopen).after_eq, hinside.after_eq, hbracket]
    rfl
  · rw [Place.captured?, hclose.captures_eq, Place.record, hinside.textTo_eq]
    rfl

/-- Where a declaration begins the expression has a way. -/
theorem way_of_declares (h : Declares name inside s.after) (hbound : s.after.length ≤ bound) :
    (Matcher.arrayDeclaration name).ways bound s ≠ [] := by
  obtain ⟨space, gap, gap', rest, hne, hinside, hafter⟩ := h
  obtain ⟨a, hvar, ha⟩ := Place.exists_reads hafter
  obtain ⟨b, hspace, hb⟩ := Place.exists_reads ha
  obtain ⟨c, hname, hc⟩ := Place.exists_reads hb
  obtain ⟨d, hgap, hd⟩ := Place.exists_reads hc
  obtain ⟨e, heq, he⟩ := Place.exists_reads (w := ['=']) hd
  obtain ⟨f, hgap', hf⟩ := Place.exists_reads he
  obtain ⟨g, hopen, hg⟩ := Place.exists_reads (w := ['[']) hf
  obtain ⟨m, hlisted, hm⟩ := Place.exists_reads hg
  obtain ⟨t, hclose, -⟩ := Place.exists_reads (s := m.record 1 (g.textTo m)) (w := [']']) hm
  have hlen := congrArg List.length hafter
  simp only [List.length_append, List.length_cons] at hlen
  have hset : ∀ c ∈ inside, (CharSet.noneOf [']']).has c = true := by
    intro c hc
    have hbracket : c ≠ ']' := fun h => hinside (h ▸ hc)
    simpa [CharSet.noneOf] using hbracket
  -- from the start on, each part reads its piece
  have hwaySpace : b ∈ (some1 .blank).ways bound a :=
    mem_ways_of_run space.all (List.length_pos_iff.mpr space.chars_ne) (by omega) hspace
  have hwayGap : d ∈ (many .blank).ways bound c :=
    mem_ways_of_run gap.all (Nat.zero_le _) (by omega) hgap
  have hwayGap' : f ∈ (many .blank).ways bound e :=
    mem_ways_of_run gap'.all (Nat.zero_le _) (by omega) hgap'
  have hwayList : m ∈ (some1 (.noneOf [']'])).ways bound g :=
    mem_ways_of_run hset (List.length_pos_iff.mpr hne) (by omega) hlisted
  have hitems : m.record 1 (g.textTo m) ∈
      (capture 1 (some1 (.noneOf [']']))).ways bound g := List.mem_map.mpr ⟨m, hwayList, rfl⟩
  refine List.ne_nil_of_mem (a := t) ?_
  refine mem_ways_cons.mpr ⟨a, mem_ways_literal.mpr hvar, mem_ways_cons.mpr ⟨b, hwaySpace, ?_⟩⟩
  refine mem_ways_cons.mpr ⟨c, mem_ways_literal.mpr hname, mem_ways_cons.mpr ⟨d, hwayGap, ?_⟩⟩
  refine mem_ways_cons.mpr ⟨e, mem_ways_literal.mpr heq, mem_ways_cons.mpr ⟨f, hwayGap', ?_⟩⟩
  refine mem_ways_cons.mpr ⟨g, mem_ways_literal.mpr hopen, mem_ways_cons.mpr ⟨_, hitems, ?_⟩⟩
  exact mem_ways_literal.mpr hclose

/-- **What is found is listed by the first declaration.** -/
theorem arrayItems?_of_first (h : DeclaredFirst name inside text) :
    Matcher.arrayItems? name text = some ((splitOn ',' inside).map trim) := by
  obtain ⟨front, s, rfl, hdeclares, hfirst⟩ := h
  have hbound : (Place.between front s).after.length ≤ boundFor (front ++ s) := by
    rw [boundFor, List.length_append]
    show s.length ≤ _
    omega
  have hway := way_of_declares (s := .between front s) hdeclares hbound
  obtain ⟨t, ht⟩ := List.exists_mem_of_ne_nil _ hway
  obtain ⟨found, hfound⟩ :=
    Option.isSome_iff_exists.mp (search?_isSome_iff.mpr ⟨front, s, t, rfl, ht⟩)
  -- the match and the declaration are both the first, so they begin at one place
  obtain ⟨front', s', hcut, hstop, -, hleftmost⟩ := search?_leftmost hfound
  obtain ⟨inside', hdeclares', hcapture⟩ := declares_of_way hstop
  have hlen : front.length = front'.length :=
    Nat.le_antisymm (hfirst front' s' inside' hcut hdeclares') (hleftmost front s rfl hway)
  obtain ⟨-, rfl⟩ := List.append_inj hcut hlen
  obtain rfl := declares_unique hdeclares hdeclares'
  have hgroup : found.group? 1 = some inside := hcapture
  rw [Matcher.arrayItems?, hfound, Option.bind_some, hgroup, Option.map_some]

end Finding

/-! ## The items -/

/-- An item of an array as it is written: a name with blanks around it. -/
structure Item where
  front : Gap
  name : Ident
  back : Gap

namespace Item

/-- The item as it is written. -/
def text (i : Item) : List Char := i.front.chars ++ (i.name.chars ++ i.back.chars)

theorem comma_not_mem_text (i : Item) : ',' ∉ i.text := by
  simp only [text, List.mem_append, not_or]
  exact ⟨i.front.not_mem (by decide), i.name.not_mem (by decide), i.back.not_mem (by decide)⟩

theorem trim_text (i : Item) : trim i.text = i.name.chars := by
  have hfront : ∀ c ∈ i.front.chars, isBlank c = true := i.front.all
  have hback : ∀ c ∈ i.back.chars, isBlank c = true := i.back.all
  have hhead : ∀ c, (i.name.chars ++ i.back.chars).head? = some c → isBlank c = false :=
    i.name.head?_append i.name.no_blank i.back.chars
  have hlast : ∀ c, i.name.chars.getLast? = some c → isBlank c = false :=
    fun c hc => i.name.no_blank c (List.mem_of_getLast? hc)
  rw [trim, text, List.dropWhile_append_of_pos hfront, dropWhile_of_head? hhead,
    trimEnd_append hback hlast]

end Item

/-- Items as an array lists them. -/
def listText (items : List Item) : List Char := joinWith [','] (items.map Item.text)

/-- **Listed items are read back** without the blanks around them. -/
theorem items_read {items : List Item} (hne : items ≠ []) :
    (splitOn ',' (listText items)).map trim = items.map fun i => i.name.chars := by
  have hcomma : ∀ piece ∈ items.map Item.text, ',' ∉ piece := by
    intro piece hpiece
    obtain ⟨i, -, rfl⟩ := List.mem_map.mp hpiece
    exact i.comma_not_mem_text
  rw [listText, splitOn_joinWith (by simpa using hne) hcomma, List.map_map]
  exact List.map_congr_left fun i _ => i.trim_text

/-! ## Slots -/

/-- The position that an index stands for. -/
def positionOf (index : List Char) : Nat := valueOf (index.map fun c => (digitValue c).getD 0)

/-- The name in a slot of an array that lists the items, if there is such a slot. -/
def slotName? (items : List Item) (index : List Char) : Option String :=
  (items[positionOf index]?).map fun i => String.ofList i.name.chars

theorem nonEmpty?_of_ne {s : List Char} (h : s ≠ []) :
    Matcher.nonEmpty? (some s) = some (String.ofList s) := by
  obtain ⟨c, rest, rfl⟩ := List.exists_cons_of_ne_nil h
  rfl

variable {m : Matcher} {params : Keyed String} {p : Pattern} {groups : Nat}

/-- **Array indirection finds the right slot.**  An indexed matcher that captures a name and an index
    gives the item in that slot of the first array with this name, without the blanks around it, and
    nothing when there is no such slot; without an index it gives the name. -/
theorem slot_resolved (hstands : m.Stands params p groups) (hindexed : m.indexed = true)
    (hgroups : 2 ≤ groups) {text : String} {found : Found}
    (hfound : p.search? text.toList = some found) {name : List Char}
    (hname : found.group? 1 = some name) :
    (∀ index, found.group? 2 = some index → index ≠ [] → (∀ c ∈ index, isDigit c = true) →
      index.length ≤ maxDigits → ∀ items, items ≠ [] →
        DeclaredFirst name (listText items) text.toList →
          (m.search text params).value = .ok (slotName? items index)) ∧
      ((found.group? 2 = none ∨ found.group? 2 = some []) → name ≠ [] →
        (m.search text params).value = .ok (some (String.ofList name))) := by
  constructor
  · intro index hindex hne hdigits hshort items hitems hfirst
    have hread : readInteger index = .ok (positionOf index) := by
      rw [readInteger_digits hdigits hne, if_neg (Nat.not_lt.mpr hshort)]
      rfl
    have hslot : Matcher.nonEmpty? ((items.map fun i => i.name.chars)[positionOf index]?) =
        slotName? items index := by
      rw [List.getElem?_map, slotName?]
      rcases items[positionOf index]? with _ | i
      · rfl
      · exact nonEmpty?_of_ne i.name.chars_ne
    obtain ⟨c, rest, rfl⟩ := List.exists_cons_of_ne_nil hne
    rw [search_indexed hstands hfound hindexed hgroups, Matcher.resolve, hindex, hname]
    dsimp only
    rw [arrayItems?_of_first hfirst, items_read hitems]
    dsimp only
    rw [hread]
    dsimp only
    rw [slot?_natCast, hslot]
  · intro hindex hne
    have hresolve : Matcher.resolve text.toList found = .ok (Matcher.nonEmpty? (some name)) := by
      rw [Matcher.resolve, hname]
      rcases hindex with hindex | hindex <;> rw [hindex]
    rw [search_indexed hstands hfound hindexed hgroups, hresolve, nonEmpty?_of_ne hne]

/-- An array of two names with blanks around them, and a call. -/
def slotScript (call : String) : String :=
  "var  Xy = [ q\n,\tRt ];a.get(\"n\"))&&(b=" ++ call ++ "(b)"

/-- One space. -/
def oneSpace : Gap := ⟨[' '], List.all_eq_true.mp rfl⟩

/-- The items of the array. -/
def slotItems : List Item :=
  [⟨oneSpace, .of ['q'] ⟨List.cons_ne_nil _ _, rfl⟩, ⟨['\n'], List.all_eq_true.mp rfl⟩⟩,
   ⟨⟨['\t'], List.all_eq_true.mp rfl⟩, .of ['R', 't'] ⟨List.cons_ne_nil _ _, rfl⟩, oneSpace⟩]

theorem declaredFirst_slotScript (call : String) :
    DeclaredFirst "Xy".toList (listText slotItems) (slotScript call).toList := by
  have harray : "var  Xy = [ q\n,\tRt ];a.get(\"n\"))&&(b=".toList =
      "var".toList ++ ([' ', ' '] ++ ("Xy".toList ++ (oneSpace.chars ++ ('=' :: (oneSpace.chars ++
        ('[' :: (listText slotItems ++ ']' :: ";a.get(\"n\"))&&(b=".toList))))))) := by
    decide +kernel
  have htext : (slotScript call).toList =
      "var  Xy = [ q\n,\tRt ];a.get(\"n\"))&&(b=".toList ++ (call.toList ++ "(b)".toList) := by
    unfold slotScript
    simp only [String.toList_append, List.append_assoc]
  have hdeclares : Declares "Xy".toList (listText slotItems) (slotScript call).toList := by
    refine ⟨⟨[' ', ' '], by decide, List.all_eq_true.mp (by decide)⟩, oneSpace, oneSpace,
      ";a.get(\"n\"))&&(b=".toList ++ (call.toList ++ "(b)".toList), by decide +kernel,
      by decide +kernel, htext.trans ?_⟩
    refine (congrArg (· ++ (call.toList ++ "(b)".toList)) harray).trans ?_
    simp only [List.append_assoc, List.cons_append]
  exact ⟨[], _, (List.nil_append _).symm, hdeclares, fun _ _ _ _ _ => Nat.zero_le _⟩

theorem slot_resolved_sample : ∃ m ∈ defaultMatchers .transformFunctionName,
    (m.search (slotScript "Xy[01]") []).value = .ok (some "Rt") ∧
      (m.search (slotScript "Xy[2]") []).value = .ok none ∧
      (m.search (slotScript "Rt") []).value = .ok (some "Rt") := by
  obtain ⟨m, ms, hms, hindexed, hstands⟩ := functionCall_stands []
  have hcall : ∀ call : String, ∀ groups,
      (functionCall.search? (slotScript call).toList).map (fun f => (f.group? 1, f.group? 2)) =
        some groups → ∃ found, functionCall.search? (slotScript call).toList = some found ∧
          found.group? 1 = groups.1 ∧ found.group? 2 = groups.2 := by
    intro call groups h
    obtain ⟨found, hfound, rfl⟩ := Option.map_eq_some_iff.mp h
    exact ⟨found, hfound, rfl, rfl⟩
  obtain ⟨second, hsecond, hname, hindex⟩ :=
    hcall "Xy[01]" (some "Xy".toList, some "01".toList) (by decide +kernel)
  obtain ⟨third, hthird, hname', hindex'⟩ :=
    hcall "Xy[2]" (some "Xy".toList, some "2".toList) (by decide +kernel)
  obtain ⟨plain, hplain, hname'', hindex''⟩ :=
    hcall "Rt" (some "Rt".toList, none) (by decide +kernel)
  have hslots : slotName? slotItems "01".toList = some "Rt" ∧
      slotName? slotItems "2".toList = none := by
    decide +kernel
  have hdigits : ∀ c ∈ "01".toList, isDigit c = true := List.all_eq_true.mp (by decide)
  have hdigits' : ∀ c ∈ "2".toList, isDigit c = true := List.all_eq_true.mp (by decide)
  have hitems : slotItems ≠ [] := List.cons_ne_nil _ _
  refine ⟨m, hms ▸ List.mem_cons_self, ?_, ?_, ?_⟩
  · rw [← hslots.1]
    exact (slot_resolved hstands hindexed (by decide) hsecond hname).1 _ hindex
      (by decide) hdigits (by decide) slotItems hitems (declaredFirst_slotScript _)
  · rw [← hslots.2]
    exact (slot_resolved hstands hindexed (by decide) hthird hname').1 _ hindex'
      (by decide) hdigits' (by decide) slotItems hitems (declaredFirst_slotScript _)
  · have hname := (slot_resolved hstands hindexed (by decide) hplain hname'').2 (.inl hindex'')
      (by decide +kernel)
    rw [String.ofList_toList] at hname
    exact hname

end StreamResolver.Cipher
