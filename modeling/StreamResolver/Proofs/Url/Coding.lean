/-
  What was encoded reads back.

  A query is written in two layers.  Inside, a name or a value is percent coded, with a plus sign
  for a space; outside, pairs are put together with `=` and `&`.  Reading undoes the layers from the
  outside: it cuts at `&`, cuts at the first `=`, turns plus signs into spaces and undoes the percent
  coding.

  The crux is that no layer can mistake a character of the text for one of its own signs: an escaped
  text consists of safe characters, per cent signs and plus signs only (`mem_escapeText`), so it holds
  neither separator, and a plus sign in it was a space.  Percent coding itself is read octet by octet,
  and the octets of a whole ASCII run are decoded together; the induction therefore carries the octets
  that are read already (`decodeFrom_encode`).
-/
import StreamResolver.Proofs.Text.Ascii
import StreamResolver.Proofs.Text.Joining
import StreamResolver.Url.Query

namespace StreamResolver

namespace Percent

open Text

/-! ## Safe characters and digits -/

theorem ascii_of_alwaysSafe {c : Char} (h : alwaysSafe c = true) : c.toNat < 0x80 := by
  simp only [alwaysSafe, Bool.or_eq_true, beq_iff_eq] at h
  rcases h with (((h | rfl) | rfl) | rfl) | rfl
  · exact ascii_of_isAlphanum h
  all_goals decide

/-- No sign of a query or a URL is safe, and nothing that cleaning drops. -/
theorem alwaysSafe_ne {c : Char} (h : alwaysSafe c = true) :
    c ≠ '%' ∧ c ≠ '+' ∧ c ≠ '&' ∧ c ≠ '=' ∧ c ≠ ' ' ∧ c ≠ '#' ∧ c ≠ '\t' ∧ c ≠ '\n' ∧ c ≠ '\r' := by
  refine ⟨?_, ?_, ?_, ?_, ?_, ?_, ?_, ?_, ?_⟩ <;> (rintro rfl; revert h; decide)

/-- A digit of a triple is safe, and it is read with its value. -/
theorem hexDigit_spec {d : Nat} (h : d < 16) :
    alwaysSafe (hexDigit d) = true ∧ hexValue? (hexDigit d) = some d := by
  have hall : ∀ d, d < 16 → alwaysSafe (hexDigit d) = true ∧ hexValue? (hexDigit d) = some d := by
    decide
  exact hall d h

/-! ## Octets -/

/-- A triple is read as its octet. -/
theorem decodeFrom_triple {b : Nat} (hb : b < 256) (octets : List Nat) (rest : List Char) :
    decodeFrom 0 octets (triple b ++ rest) = decodeFrom 0 (octets ++ [b]) rest := by
  have hhigh : b / 16 < 16 := by omega
  have hlow : b % 16 < 16 := by omega
  have hpair : pair? (hexDigit (b / 16) :: hexDigit (b % 16) :: rest) = some b := by
    have hsum : b / 16 * 16 + b % 16 = b := by omega
    simp [pair?, (hexDigit_spec hhigh).2, (hexDigit_spec hlow).2, hsum]
  show decodeFrom 0 octets ('%' :: hexDigit (b / 16) :: hexDigit (b % 16) :: rest) = _
  rw [decodeFrom, if_pos (by decide), if_pos rfl, hpair]
  rfl

theorem decodeFrom_triples {bs : List Nat} (hbs : ∀ b ∈ bs, b < 256) (octets : List Nat)
    (rest : List Char) :
    decodeFrom 0 octets (bs.flatMap triple ++ rest) = decodeFrom 0 (octets ++ bs) rest := by
  induction bs generalizing octets with
  | nil => simp
  | cons b bs ih =>
    have hb : b < 256 := hbs b List.mem_cons_self
    have hrest : ∀ b ∈ bs, b < 256 := fun b' hb' => hbs b' (List.mem_cons_of_mem b hb')
    rw [List.flatMap_cons, List.append_assoc, decodeFrom_triple hb, ih hrest, List.append_assoc]
    rfl

/-- A character that stands for itself is read as its one octet. -/
theorem decodeFrom_plain {c : Char} (hascii : c.toNat < 0x80) (hpercent : c ≠ '%')
    (octets : List Nat) (rest : List Char) :
    decodeFrom 0 octets (c :: rest) = decodeFrom 0 (octets ++ [c.toNat]) rest := by
  rw [decodeFrom, if_pos hascii, if_neg hpercent]

/-! ## Texts -/

/-- The characters that a caller may declare safe. -/
def Transparent (safe : Char → Bool) : Prop := ∀ c, safe c = true → c.toNat < 0x80 ∧ c ≠ '%'

/-- **Octet by octet**: the octets of an encoded text are those of the text. -/
theorem decodeFrom_encode {safe : Char → Bool} (hsafe : Transparent safe) (s : List Char)
    (octets : List Nat) :
    decodeFrom 0 octets (encode safe s) = Utf8.decode (octets ++ Utf8.encode s) := by
  induction s generalizing octets with
  | nil => simp [encode, decodeFrom, Utf8.encode]
  | cons c s ih =>
    have hsplit : encode safe (c :: s) = encodeChar safe c ++ encode safe s := rfl
    have hutf : Utf8.encode (c :: s) = Utf8.encodeChar c ++ Utf8.encode s := rfl
    rw [hsplit, hutf, encodeChar]
    split
    · next hplain =>
      -- the character stands for itself, and so does its octet
      have hboth : c.toNat < 0x80 ∧ c ≠ '%' := by
        rcases Bool.or_eq_true _ _ ▸ hplain with h | h
        · exact ⟨ascii_of_alwaysSafe h, (alwaysSafe_ne h).1⟩
        · exact hsafe c h
      have hone : Utf8.encodeChar c = [c.toNat] := by simp [Utf8.encodeChar, hboth.1]
      rw [List.singleton_append, decodeFrom_plain hboth.1 hboth.2, ih, hone, List.append_assoc]
    · rw [decodeFrom_triples (Utf8.encodeChar_lt c), ih, List.append_assoc]

/-- **Percent coding reads back.** -/
theorem decode_encode {safe : Char → Bool} (hsafe : Transparent safe) (s : List Char) :
    decode (encode safe s) = s := by
  rw [decode, decodeFrom_encode hsafe, List.nil_append, Utf8.decode_encode]

/-- What an encoded text consists of: a character that a caller declared safe is one of the text. -/
theorem mem_encode {safe : Char → Bool} {s : List Char} {c : Char} (h : c ∈ encode safe s) :
    alwaysSafe c = true ∨ (safe c = true ∧ c ∈ s) ∨ c = '%' := by
  obtain ⟨x, hmem, hx⟩ := List.mem_flatMap.mp h
  rw [encodeChar] at hx
  split at hx
  · next hplain =>
    obtain rfl := List.mem_singleton.mp hx
    rcases Bool.or_eq_true _ _ ▸ hplain with h | h
    · exact .inl h
    · exact .inr (.inl ⟨h, hmem⟩)
  · obtain ⟨b, hb, hc⟩ := List.mem_flatMap.mp hx
    have hlt := Utf8.encodeChar_lt x b hb
    have hhigh : b / 16 < 16 := by omega
    have hlow : b % 16 < 16 := by omega
    simp only [triple, List.mem_cons, List.not_mem_nil, or_false] at hc
    rcases hc with rfl | rfl | rfl
    · exact .inr (.inr rfl)
    · exact .inl (hexDigit_spec hhigh).1
    · exact .inl (hexDigit_spec hlow).1

section Kept

variable {safe : Char → Bool} {sep : Char}

theorem encodeChar_safe (hsep : safe sep = true) : encodeChar safe sep = [sep] := by
  rw [encodeChar, hsep, Bool.or_true, if_pos rfl]

theorem encode_append (s t : List Char) : encode safe (s ++ t) = encode safe s ++ encode safe t :=
  List.flatMap_append

theorem encode_joinWith (hsep : safe sep = true) (pieces : List (List Char)) :
    encode safe (joinWith [sep] pieces) = joinWith [sep] (pieces.map (encode safe)) := by
  induction pieces with
  | nil => rfl
  | cons piece more ih =>
    rcases more with _ | ⟨next, more⟩
    · rfl
    · have hone : encode safe [sep] = [sep] := by
        rw [encode, List.flatMap_singleton, encodeChar_safe hsep]
      have hmore : (next :: more).map (encode safe) ≠ [] := by simp
      rw [joinWith_cons [sep] piece (List.cons_ne_nil next more), List.map_cons,
        joinWith_cons [sep] (encode safe piece) hmore, encode_append, encode_append, hone, ih]

/-- **Encoding keeps the pieces of a text** between signs that are encoded nowhere else. -/
theorem splitOn_encode (hsep : safe sep = true) (hsafe : alwaysSafe sep = false)
    (hpercent : sep ≠ '%') (s : List Char) :
    splitOn sep (encode safe s) = (splitOn sep s).map (encode safe) := by
  have hfree : ∀ piece ∈ (splitOn sep s).map (encode safe), sep ∉ piece := by
    intro piece hpiece hmem
    obtain ⟨plain, hplain, rfl⟩ := List.mem_map.mp hpiece
    rcases mem_encode hmem with h | ⟨-, h⟩ | h
    · rw [hsafe] at h
      cases h
    · exact sep_not_mem_of_mem_splitOn hplain h
    · exact hpercent h
  calc splitOn sep (encode safe s)
    _ = splitOn sep (encode safe (joinWith [sep] (splitOn sep s))) := by rw [joinWith_splitOn]
    _ = splitOn sep (joinWith [sep] ((splitOn sep s).map (encode safe))) := by
      rw [encode_joinWith hsep]
    _ = (splitOn sep s).map (encode safe) :=
      splitOn_joinWith (by simp [splitOn_ne_nil]) hfree

end Kept

end Percent

namespace Query

open Text

/-- What an escaped text consists of: no separator is among it. -/
theorem mem_escapeText {s : List Char} {c : Char} (h : c ∈ escapeText s) :
    Percent.alwaysSafe c = true ∨ c = '%' ∨ c = '+' := by
  obtain ⟨x, hx, rfl⟩ := List.mem_map.mp h
  rcases Percent.mem_encode hx with hsafe | ⟨hspace, -⟩ | hpercent
  · rw [if_neg (Percent.alwaysSafe_ne hsafe).2.2.2.2.1]
    exact .inl hsafe
  · rw [if_pos (by simpa using hspace)]
    exact .inr (.inr rfl)
  · rw [hpercent]
    exact .inr (.inl (by decide))

theorem not_mem_escapeText {sep : Char} (hsafe : Percent.alwaysSafe sep = false)
    (hpercent : sep ≠ '%') (hplus : sep ≠ '+') (s : List Char) : sep ∉ escapeText s := by
  intro h
  rcases mem_escapeText h with h | h | h
  · rw [hsafe] at h
    exact absurd h (by simp)
  · exact hpercent h
  · exact hplus h

theorem plus_not_mem_encode {safe : Char → Bool} (hplus : safe '+' = false) (s : List Char) :
    '+' ∉ Percent.encode safe s := by
  intro h
  rcases Percent.mem_encode h with hsafe | ⟨hsafe, -⟩ | hpercent
  · exact (Percent.alwaysSafe_ne hsafe).2.1 rfl
  · rw [hplus] at hsafe
    cases hsafe
  · exact absurd hpercent (by decide)

/-- A text that is percent coded with no plus sign left reads back. -/
theorem unescape_encode {safe : Char → Bool} (hsafe : Percent.Transparent safe)
    (hplus : safe '+' = false) (s : List Char) : unescape (Percent.encode safe s) = s := by
  have hsame : (Percent.encode safe s).map (fun c => if c = '+' then ' ' else c) =
      Percent.encode safe s := by
    refine (List.map_congr_left fun c hc => ?_).trans (List.map_id _)
    exact if_neg fun h : c = '+' => plus_not_mem_encode hplus s (h ▸ hc)
  rw [unescape, hsame, Percent.decode_encode hsafe]

theorem not_mem_writePair {sep : Char} (hsafe : Percent.alwaysSafe sep = false)
    (hpercent : sep ≠ '%') (hplus : sep ≠ '+') (hequals : sep ≠ '=') (p : Pair) :
    sep ∉ writePair p := by
  intro h
  rcases List.mem_append.mp h with h | h
  · exact not_mem_escapeText hsafe hpercent hplus p.1 h
  · rcases List.mem_cons.mp h with h | h
    · exact hequals h
    · exact not_mem_escapeText hsafe hpercent hplus p.2 h

/-- What a query consists of: the separators, and what the texts in it consist of. -/
theorem not_mem_render {c : Char} (hsafe : Percent.alwaysSafe c = false) (hpercent : c ≠ '%')
    (hplus : c ≠ '+') (hequals : c ≠ '=') (hand : c ≠ '&') (pairs : List Pair) :
    c ∉ render pairs := by
  have hjoin : ∀ pieces : List (List Char), (∀ piece ∈ pieces, c ∉ piece) →
      c ∉ joinWith ['&'] pieces := by
    intro pieces
    induction pieces with
    | nil => simp [joinWith]
    | cons piece more ih =>
      intro h
      have hpiece : c ∉ piece := h piece List.mem_cons_self
      cases more with
      | nil => simpa [joinWith] using hpiece
      | cons next more =>
        have hmore := ih fun p hp => h p (List.mem_cons_of_mem piece hp)
        simp only [joinWith, List.mem_append, List.mem_singleton, not_or]
        exact ⟨⟨hpiece, hand⟩, hmore⟩
  refine hjoin _ fun piece hpiece => ?_
  obtain ⟨p, -, rfl⟩ := List.mem_map.mp hpiece
  exact not_mem_writePair hsafe hpercent hplus hequals p

example : parse (render [(['a', '&'], ['=', ' ']), ([], []), (['é'], ['+', '%'])]) =
    [(['a', '&'], ['=', ' ']), ([], []), (['é'], ['+', '%'])] := by decide +kernel

end Query

end StreamResolver
