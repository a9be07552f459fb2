/-
  UTF-8.

  Octets are naturals below 256.  `encodeChar` writes a character in one to four octets; `decode`
  reads octets back and never fails: octets that belong to no character become the replacement
  character, one for each longest run that starts like a character and is cut short, and one for each
  other octet.

  Statement: decoding what was encoded gives the text back (`decode_encode`).
-/
import StreamResolver.Text.Property

namespace StreamResolver.Text.Utf8

/-! ## Writing -/

/-- The octets of a character. -/
def encodeChar (c : Char) : List Nat :=
  let n := c.toNat
  if n < 0x80 then [n]
  else if n < 0x800 then [0xc0 + n / 0x40, 0x80 + n % 0x40]
  else if n < 0x10000 then [0xe0 + n / 0x1000, 0x80 + n / 0x40 % 0x40, 0x80 + n % 0x40]
  else [0xf0 + n / 0x40000, 0x80 + n / 0x1000 % 0x40, 0x80 + n / 0x40 % 0x40, 0x80 + n % 0x40]

/-- The octets of a text. -/
def encode (s : List Char) : List Nat := s.flatMap encodeChar

/-! ## Reading -/

/-- The replacement character. -/
def replacement : Char := Char.ofNat 0xfffd

/-- Whether an octet continues a character. -/
def isContinuation (b : Nat) : Bool := 0x80 ≤ b && b < 0xc0

/-- Whether an octet may come second behind the first octet of a character of three octets. -/
def secondOfThree (first b : Nat) : Bool :=
  if first = 0xe0 then 0xa0 ≤ b && b < 0xc0
  else if first = 0xed then 0x80 ≤ b && b < 0xa0
  else isContinuation b

/-- Whether an octet may come second behind the first octet of a character of four octets. -/
def secondOfFour (first b : Nat) : Bool :=
  if first = 0xf0 then 0x90 ≤ b && b < 0xc0
  else if first = 0xf4 then 0x80 ≤ b && b < 0x90
  else isContinuation b

/-- The first character of a sequence of octets (or the replacement character), and how many octets
    behind the first one it takes. -/
def decodeFirst (first : Nat) (rest : List Nat) : Char × Nat :=
  if first < 0x80 then (Char.ofNat first, 0)
  else if 0xc2 ≤ first && first < 0xe0 then
    match rest with
    | b :: _ =>
      if isContinuation b then (Char.ofNat ((first - 0xc0) * 0x40 + (b - 0x80)), 1)
      else (replacement, 0)
    | [] => (replacement, 0)
  else if 0xe0 ≤ first && first < 0xf0 then
    match rest with
    | b :: rest =>
      if secondOfThree first b then
        match rest with
        | c :: _ =>
          if isContinuation c then
            (Char.ofNat ((first - 0xe0) * 0x1000 + (b - 0x80) * 0x40 + (c - 0x80)), 2)
          else (replacement, 1)
        | [] => (replacement, 1)
      else (replacement, 0)
    | [] => (replacement, 0)
  else if 0xf0 ≤ first && first < 0xf5 then
    match rest with
    | b :: rest =>
      if secondOfFour first b then
        match rest with
        | c :: rest =>
          if isContinuation c then
            match rest with
            | d :: _ =>
              if isContinuation d then
                (Char.ofNat ((first - 0xf0) * 0x40000 + (b - 0x80) * 0x1000 + (c - 0x80) * 0x40 +
                  (d - 0x80)), 3)
              else (replacement, 2)
            | [] => (replacement, 2)
          else (replacement, 1)
        | [] => (replacement, 1)
      else (replacement, 0)
    | [] => (replacement, 0)
  else (replacement, 0)

/-- Decode behind `skip` octets that are already read. -/
def decodeFrom : Nat → List Nat → List Char
  | _, [] => []
  | skip + 1, _ :: rest => decodeFrom skip rest
  | 0, first :: rest =>
    let (c, taken) := decodeFirst first rest
    c :: decodeFrom taken rest

/-- The text of a sequence of octets. -/
def decode (octets : List Nat) : List Char := decodeFrom 0 octets

/-! ## Reading what was written -/

theorem decodeFrom_append (skipped octets : List Nat) :
    decodeFrom skipped.length (skipped ++ octets) = decodeFrom 0 octets := by
  induction skipped with
  | nil => rfl
  | cons b rest ih => simpa [decodeFrom] using ih

theorem toNat_bounds (c : Char) : c.toNat < 0xd800 ∨ (0xdfff < c.toNat ∧ c.toNat < 0x110000) :=
  c.valid

/-- A character that was encoded is decoded, with all of its octets. -/
theorem decodeFirst_encodeChar (c : Char) (rest : List Nat) :
    ∃ first more, encodeChar c = first :: more ∧
      decodeFirst first (more ++ rest) = (c, more.length) := by
  have hb := toNat_bounds c
  unfold encodeChar
  simp only
  split
  · next h =>
    refine ⟨_, _, rfl, ?_⟩
    simp [decodeFirst, h]
  · split
    · next h1 h2 =>
      refine ⟨_, _, rfl, ?_⟩
      have e : (0xc0 + c.toNat / 0x40 - 0xc0) * 0x40 + (0x80 + c.toNat % 0x40 - 0x80) = c.toNat := by
        omega
      have d1 : ¬ 0xc0 + c.toNat / 0x40 < 0x80 := by omega
      have d2 : 0xc2 ≤ 0xc0 + c.toNat / 0x40 ∧ 0xc0 + c.toNat / 0x40 < 0xe0 := by omega
      have d3 : isContinuation (0x80 + c.toNat % 0x40) = true := by
        simp only [isContinuation, Bool.and_eq_true, decide_eq_true_eq]; omega
      simp only [decodeFirst, d1, d2, d3, List.cons_append, List.nil_append, if_false, if_true,
        decide_true, Bool.and_self, e, Char.ofNat_toNat, List.length_cons, List.length_nil]
    · split
      · next h1 h2 h3 =>
        refine ⟨_, _, rfl, ?_⟩
        have e : (0xe0 + c.toNat / 0x1000 - 0xe0) * 0x1000 + (0x80 + c.toNat / 0x40 % 0x40 - 0x80) * 0x40
            + (0x80 + c.toNat % 0x40 - 0x80) = c.toNat := by omega
        have d1 : ¬ 0xe0 + c.toNat / 0x1000 < 0x80 := by omega
        have d2 : ¬ 0xe0 + c.toNat / 0x1000 < 0xe0 := by omega
        have d2' : 0xe0 ≤ 0xe0 + c.toNat / 0x1000 ∧ 0xe0 + c.toNat / 0x1000 < 0xf0 := by omega
        have d3 : isContinuation (0x80 + c.toNat % 0x40) = true := by
          simp only [isContinuation, Bool.and_eq_true, decide_eq_true_eq]; omega
        have d4 : secondOfThree (0xe0 + c.toNat / 0x1000) (0x80 + c.toNat / 0x40 % 0x40) = true := by
          unfold secondOfThree isContinuation
          split
          · simp only [Bool.and_eq_true, decide_eq_true_eq]; omega
          · split
            · simp only [Bool.and_eq_true, decide_eq_true_eq]; omega
            · simp only [Bool.and_eq_true, decide_eq_true_eq]; omega
        simp only [decodeFirst, d1, d2, d2', d3, d4, List.cons_append, List.nil_append, if_false,
          if_true, decide_true, decide_false, Bool.and_self, Bool.and_false, e, Char.ofNat_toNat,
          List.length_cons, List.length_nil, Bool.false_eq_true]
      · next h1 h2 h3 =>
        refine ⟨_, _, rfl, ?_⟩
        have hn : c.toNat < 0x110000 := by omega
        have e : (0xf0 + c.toNat / 0x40000 - 0xf0) * 0x40000
            + (0x80 + c.toNat / 0x1000 % 0x40 - 0x80) * 0x1000
            + (0x80 + c.toNat / 0x40 % 0x40 - 0x80) * 0x40
            + (0x80 + c.toNat % 0x40 - 0x80) = c.toNat := by omega
        have d1 : ¬ 0xf0 + c.toNat / 0x40000 < 0x80 := by omega
        have d2 : ¬ 0xf0 + c.toNat / 0x40000 < 0xe0 := by omega
        have d2' : ¬ 0xf0 + c.toNat / 0x40000 < 0xf0 := by omega
        have d2'' : 0xf0 ≤ 0xf0 + c.toNat / 0x40000 ∧ 0xf0 + c.toNat / 0x40000 < 0xf5 := by omega
        have d3 : isContinuation (0x80 + c.toNat % 0x40) = true := by
          simp only [isContinuation, Bool.and_eq_true, decide_eq_true_eq]; omega
        have d3' : isContinuation (0x80 + c.toNat / 0x40 % 0x40) = true := by
          simp only [isContinuation, Bool.and_eq_true, decide_eq_true_eq]; omega
        have d4 : secondOfFour (0xf0 + c.toNat / 0x40000) (0x80 + c.toNat / 0x1000 % 0x40) = true := by
          unfold secondOfFour isContinuation
          split
          · simp only [Bool.and_eq_true, decide_eq_true_eq]; omega
          · split
            · simp only [Bool.and_eq_true, decide_eq_true_eq]; omega
            · simp only [Bool.and_eq_true, decide_eq_true_eq]; omega
        simp only [decodeFirst, d1, d2, d2', d2'', d3, d3', d4, List.cons_append, List.nil_append,
          if_false, if_true, decide_true, decide_false, Bool.and_self, Bool.and_false, e,
          Char.ofNat_toNat, List.length_cons, List.length_nil, Bool.false_eq_true]

/-- Decoding what was encoded gives the text back, whatever octets follow. -/
theorem decode_encode_append (s : List Char) (octets : List Nat) :
    decode (encode s ++ octets) = s ++ decode octets := by
  induction s with
  | nil => rfl
  | cons c s ih =>
    obtain ⟨first, more, he, hd⟩ := decodeFirst_encodeChar c (encode s ++ octets)
    have : encode (c :: s) ++ octets = first :: (more ++ (encode s ++ octets)) := by
      simp [encode, he]
    rw [this, decode, decodeFrom, hd]
    simp only [decodeFrom_append, List.cons_append]
    rw [← ih, decode]

theorem decode_encode (s : List Char) : decode (encode s) = s := by
  simpa [decode, decodeFrom] using decode_encode_append s []

theorem encodeChar_lt (c : Char) : ∀ b ∈ encodeChar c, b < 256 := by
  have hb := toNat_bounds c
  unfold encodeChar
  simp only
  split
  · simp; omega
  · split
    · simp; omega
    · split <;> (simp; omega)

end StreamResolver.Text.Utf8
