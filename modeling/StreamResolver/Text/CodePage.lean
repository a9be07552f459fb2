/-
  Code pages: character sets of one octet.

  Each page agrees with ASCII below 0x80.  Above, it is given by the runs in which it differs from
  Latin-1, where an octet is its own code point.
-/

namespace StreamResolver.Text.CodePage

/-- Octets `lo` to `hi` that stand for consecutive characters from `first` on; 0 when they stand for
    nothing. -/
structure Run where
  lo : Nat
  hi : Nat
  first : Nat
  deriving Repr

/-- The character of an octet, if it has one. -/
def char? (page : List Run) (b : Nat) : Option Char :=
  match page.find? fun r => r.lo ≤ b && b ≤ r.hi with
  | none => some (Char.ofNat b)
  | some r => if r.first = 0 then none else some (Char.ofNat (r.first + (b - r.lo)))

/-! ## Pages -/

/-- Latin-1. -/
def latin1 : List Run := []

/-- ASCII. -/
def ascii : List Run := [⟨0x80, 0xff, 0⟩]

/-- ISO 8859-2. -/
def latin2 : List Run :=
  [⟨0xa1, 0xa1, 0x104⟩, ⟨0xa2, 0xa2, 0x2d8⟩, ⟨0xa3, 0xa3, 0x141⟩, ⟨0xa5, 0xa5, 0x13d⟩,
   ⟨0xa6, 0xa6, 0x15a⟩, ⟨0xa9, 0xa9, 0x160⟩, ⟨0xaa, 0xaa, 0x15e⟩, ⟨0xab, 0xab, 0x164⟩,
   ⟨0xac, 0xac, 0x179⟩, ⟨0xae, 0xae, 0x17d⟩, ⟨0xaf, 0xaf, 0x17b⟩, ⟨0xb1, 0xb1, 0x105⟩,
   ⟨0xb2, 0xb2, 0x2db⟩, ⟨0xb3, 0xb3, 0x142⟩, ⟨0xb5, 0xb5, 0x13e⟩, ⟨0xb6, 0xb6, 0x15b⟩,
   ⟨0xb7, 0xb7, 0x2c7⟩, ⟨0xb9, 0xb9, 0x161⟩, ⟨0xba, 0xba, 0x15f⟩, ⟨0xbb, 0xbb, 0x165⟩,
   ⟨0xbc, 0xbc, 0x17a⟩, ⟨0xbd, 0xbd, 0x2dd⟩, ⟨0xbe, 0xbe, 0x17e⟩, ⟨0xbf, 0xbf, 0x17c⟩,
   ⟨0xc0, 0xc0, 0x154⟩, ⟨0xc3, 0xc3, 0x102⟩, ⟨0xc5, 0xc5, 0x139⟩, ⟨0xc6, 0xc6, 0x106⟩,
   ⟨0xc8, 0xc8, 0x10c⟩, ⟨0xca, 0xca, 0x118⟩, ⟨0xcc, 0xcc, 0x11a⟩, ⟨0xcf, 0xcf, 0x10e⟩,
   ⟨0xd0, 0xd0, 0x110⟩, ⟨0xd1, 0xd1, 0x143⟩, ⟨0xd2, 0xd2, 0x147⟩, ⟨0xd5, 0xd5, 0x150⟩,
   ⟨0xd8, 0xd8, 0x158⟩, ⟨0xd9, 0xd9, 0x16e⟩, ⟨0xdb, 0xdb, 0x170⟩, ⟨0xde, 0xde, 0x162⟩,
   ⟨0xe0, 0xe0, 0x155⟩, ⟨0xe3, 0xe3, 0x103⟩, ⟨0xe5, 0xe5, 0x13a⟩, ⟨0xe6, 0xe6, 0x107⟩,
   ⟨0xe8, 0xe8, 0x10d⟩, ⟨0xea, 0xea, 0x119⟩, ⟨0xec, 0xec, 0x11b⟩, ⟨0xef, 0xef, 0x10f⟩,
   ⟨0xf0, 0xf0, 0x111⟩, ⟨0xf1, 0xf1, 0x144⟩, ⟨0xf2, 0xf2, 0x148⟩, ⟨0xf5, 0xf5, 0x151⟩,
   ⟨0xf8, 0xf8, 0x159⟩, ⟨0xf9, 0xf9, 0x16f⟩, ⟨0xfb, 0xfb, 0x171⟩, ⟨0xfe, 0xfe, 0x163⟩,
   ⟨0xff, 0xff, 0x2d9⟩]

/-- ISO 8859-5. -/
def cyrillic : List Run :=
  [⟨0xa1, 0xac, 0x401⟩, ⟨0xae, 0xef, 0x40e⟩, ⟨0xf0, 0xf0, 0x2116⟩, ⟨0xf1, 0xfc, 0x451⟩,
   ⟨0xfd, 0xfd, 0xa7⟩, ⟨0xfe, 0xff, 0x45e⟩]

/-- ISO 8859-7. -/
def greek : List Run :=
  [⟨0xa1, 0xa2, 0x2018⟩, ⟨0xa4, 0xa4, 0x20ac⟩, ⟨0xa5, 0xa5, 0x20af⟩, ⟨0xaa, 0xaa, 0x37a⟩,
   ⟨0xae, 0xae, 0⟩, ⟨0xaf, 0xaf, 0x2015⟩, ⟨0xb4, 0xb6, 0x384⟩, ⟨0xb8, 0xba, 0x388⟩,
   ⟨0xbc, 0xbc, 0x38c⟩, ⟨0xbe, 0xd1, 0x38e⟩, ⟨0xd2, 0xd2, 0⟩, ⟨0xd3, 0xfe, 0x3a3⟩, ⟨0xff, 0xff, 0⟩]

/-- ISO 8859-9. -/
def latin5 : List Run :=
  [⟨0xd0, 0xd0, 0x11e⟩, ⟨0xdd, 0xdd, 0x130⟩, ⟨0xde, 0xde, 0x15e⟩, ⟨0xf0, 0xf0, 0x11f⟩,
   ⟨0xfd, 0xfd, 0x131⟩, ⟨0xfe, 0xfe, 0x15f⟩]

/-- ISO 8859-15. -/
def latin9 : List Run :=
  [⟨0xa4, 0xa4, 0x20ac⟩, ⟨0xa6, 0xa6, 0x160⟩, ⟨0xa8, 0xa8, 0x161⟩, ⟨0xb4, 0xb4, 0x17d⟩,
   ⟨0xb8, 0xb8, 0x17e⟩, ⟨0xbc, 0xbd, 0x152⟩, ⟨0xbe, 0xbe, 0x178⟩]

/-- Windows code page 1250. -/
def windows1250 : List Run :=
  [⟨0x80, 0x80, 0x20ac⟩, ⟨0x81, 0x81, 0⟩, ⟨0x82, 0x82, 0x201a⟩, ⟨0x83, 0x83, 0⟩,
   ⟨0x84, 0x84, 0x201e⟩, ⟨0x85, 0x85, 0x2026⟩, ⟨0x86, 0x87, 0x2020⟩, ⟨0x88, 0x88, 0⟩,
   ⟨0x89, 0x89, 0x2030⟩, ⟨0x8a, 0x8a, 0x160⟩, ⟨0x8b, 0x8b, 0x2039⟩, ⟨0x8c, 0x8c, 0x15a⟩,
   ⟨0x8d, 0x8d, 0x164⟩, ⟨0x8e, 0x8e, 0x17d⟩, ⟨0x8f, 0x8f, 0x179⟩, ⟨0x90, 0x90, 0⟩,
   ⟨0x91, 0x92, 0x2018⟩, ⟨0x93, 0x94, 0x201c⟩, ⟨0x95, 0x95, 0x2022⟩, ⟨0x96, 0x97, 0x2013⟩,
   ⟨0x98, 0x98, 0⟩, ⟨0x99, 0x99, 0x2122⟩, ⟨0x9a, 0x9a, 0x161⟩, ⟨0x9b, 0x9b, 0x203a⟩,
   ⟨0x9c, 0x9c, 0x15b⟩, ⟨0x9d, 0x9d, 0x165⟩, ⟨0x9e, 0x9e, 0x17e⟩, ⟨0x9f, 0x9f, 0x17a⟩,
   ⟨0xa1, 0xa1, 0x2c7⟩, ⟨0xa2, 0xa2, 0x2d8⟩, ⟨0xa3, 0xa3, 0x141⟩, ⟨0xa5, 0xa5, 0x104⟩,
   ⟨0xaa, 0xaa, 0x15e⟩, ⟨0xaf, 0xaf, 0x17b⟩, ⟨0xb2, 0xb2, 0x2db⟩, ⟨0xb3, 0xb3, 0x142⟩,
   ⟨0xb9, 0xb9, 0x105⟩, ⟨0xba, 0xba, 0x15f⟩, ⟨0xbc, 0xbc, 0x13d⟩, ⟨0xbd, 0xbd, 0x2dd⟩,
   ⟨0xbe, 0xbe, 0x13e⟩, ⟨0xbf, 0xbf, 0x17c⟩, ⟨0xc0, 0xc0, 0x154⟩, ⟨0xc3, 0xc3, 0x102⟩,
   ⟨0xc5, 0xc5, 0x139⟩, ⟨0xc6, 0xc6, 0x106⟩, ⟨0xc8, 0xc8, 0x10c⟩, ⟨0xca, 0xca, 0x118⟩,
   ⟨0xcc, 0xcc, 0x11a⟩, ⟨0xcf, 0xcf, 0x10e⟩, ⟨0xd0, 0xd0, 0x110⟩, ⟨0xd1, 0xd1, 0x143⟩,
   ⟨0xd2, 0xd2, 0x147⟩, ⟨0xd5, 0xd5, 0x150⟩, ⟨0xd8, 0xd8, 0x158⟩, ⟨0xd9, 0xd9, 0x16e⟩,
   ⟨0xdb, 0xdb, 0x170⟩, ⟨0xde, 0xde, 0x162⟩, ⟨0xe0, 0xe0, 0x155⟩, ⟨0xe3, 0xe3, 0x103⟩,
   ⟨0xe5, 0xe5, 0x13a⟩, ⟨0xe6, 0xe6, 0x107⟩, ⟨0xe8, 0xe8, 0x10d⟩, ⟨0xea, 0xea, 0x119⟩,
   ⟨0xec, 0xec, 0x11b⟩, ⟨0xef, 0xef, 0x10f⟩, ⟨0xf0, 0xf0, 0x111⟩, ⟨0xf1, 0xf1, 0x144⟩,
   ⟨0xf2, 0xf2, 0x148⟩, ⟨0xf5, 0xf5, 0x151⟩, ⟨0xf8, 0xf8, 0x159⟩, ⟨0xf9, 0xf9, 0x16f⟩,
   ⟨0xfb, 0xfb, 0x171⟩, ⟨0xfe, 0xfe, 0x163⟩, ⟨0xff, 0xff, 0x2d9⟩]

/-- Windows code page 1251. -/
def windows1251 : List Run :=
  [⟨0x80, 0x81, 0x402⟩, ⟨0x82, 0x82, 0x201a⟩, ⟨0x83, 0x83, 0x453⟩, ⟨0x84, 0x84, 0x201e⟩,
   ⟨0x85, 0x85, 0x2026⟩, ⟨0x86, 0x87, 0x2020⟩, ⟨0x88, 0x88, 0x20ac⟩, ⟨0x89, 0x89, 0x2030⟩,
   ⟨0x8a, 0x8a, 0x409⟩, ⟨0x8b, 0x8b, 0x2039⟩, ⟨0x8c, 0x8c, 0x40a⟩, ⟨0x8d, 0x8d, 0x40c⟩,
   ⟨0x8e, 0x8e, 0x40b⟩, ⟨0x8f, 0x8f, 0x40f⟩, ⟨0x90, 0x90, 0x452⟩, ⟨0x91, 0x92, 0x2018⟩,
   ⟨0x93, 0x94, 0x201c⟩, ⟨0x95, 0x95, 0x2022⟩, ⟨0x96, 0x97, 0x2013⟩, ⟨0x98, 0x98, 0⟩,
   ⟨0x99, 0x99, 0x2122⟩, ⟨0x9a, 0x9a, 0x459⟩, ⟨0x9b, 0x9b, 0x203a⟩, ⟨0x9c, 0x9c, 0x45a⟩,
   ⟨0x9d, 0x9d, 0x45c⟩, ⟨0x9e, 0x9e, 0x45b⟩, ⟨0x9f, 0x9f, 0x45f⟩, ⟨0xa1, 0xa1, 0x40e⟩,
   ⟨0xa2, 0xa2, 0x45e⟩, ⟨0xa3, 0xa3, 0x408⟩, ⟨0xa5, 0xa5, 0x490⟩, ⟨0xa8, 0xa8, 0x401⟩,
   ⟨0xaa, 0xaa, 0x404⟩, ⟨0xaf, 0xaf, 0x407⟩, ⟨0xb2, 0xb2, 0x406⟩, ⟨0xb3, 0xb3, 0x456⟩,
   ⟨0xb4, 0xb4, 0x491⟩, ⟨0xb8, 0xb8, 0x451⟩, ⟨0xb9, 0xb9, 0x2116⟩, ⟨0xba, 0xba, 0x454⟩,
   ⟨0xbc, 0xbc, 0x458⟩, ⟨0xbd, 0xbd, 0x405⟩, ⟨0xbe, 0xbe, 0x455⟩, ⟨0xbf, 0xbf, 0x457⟩,
   ⟨0xc0, 0xff, 0x410⟩]

/-- Windows code page 1252. -/
def windows1252 : List Run :=
  [⟨0x80, 0x80, 0x20ac⟩, ⟨0x81, 0x81, 0⟩, ⟨0x82, 0x82, 0x201a⟩, ⟨0x83, 0x83, 0x192⟩,
   ⟨0x84, 0x84, 0x201e⟩, ⟨0x85, 0x85, 0x2026⟩, ⟨0x86, 0x87, 0x2020⟩, ⟨0x88, 0x88, 0x2c6⟩,
   ⟨0x89, 0x89, 0x2030⟩, ⟨0x8a, 0x8a, 0x160⟩, ⟨0x8b, 0x8b, 0x2039⟩, ⟨0x8c, 0x8c, 0x152⟩,
   ⟨0x8d, 0x8d, 0⟩, ⟨0x8e, 0x8e, 0x17d⟩, ⟨0x8f, 0x90, 0⟩, ⟨0x91, 0x92, 0x2018⟩,
   ⟨0x93, 0x94, 0x201c⟩, ⟨0x95, 0x95, 0x2022⟩, ⟨0x96, 0x97, 0x2013⟩, ⟨0x98, 0x98, 0x2dc⟩,
   ⟨0x99, 0x99, 0x2122⟩, ⟨0x9a, 0x9a, 0x161⟩, ⟨0x9b, 0x9b, 0x203a⟩, ⟨0x9c, 0x9c, 0x153⟩,
   ⟨0x9d, 0x9d, 0⟩, ⟨0x9e, 0x9e, 0x17e⟩, ⟨0x9f, 0x9f, 0x178⟩]

/-- KOI8-R. -/
def koi8r : List Run :=
  [⟨0x80, 0x80, 0x2500⟩, ⟨0x81, 0x81, 0x2502⟩, ⟨0x82, 0x82, 0x250c⟩, ⟨0x83, 0x83, 0x2510⟩,
   ⟨0x84, 0x84, 0x2514⟩, ⟨0x85, 0x85, 0x2518⟩, ⟨0x86, 0x86, 0x251c⟩, ⟨0x87, 0x87, 0x2524⟩,
   ⟨0x88, 0x88, 0x252c⟩, ⟨0x89, 0x89, 0x2534⟩, ⟨0x8a, 0x8a, 0x253c⟩, ⟨0x8b, 0x8b, 0x2580⟩,
   ⟨0x8c, 0x8c, 0x2584⟩, ⟨0x8d, 0x8d, 0x2588⟩, ⟨0x8e, 0x8e, 0x258c⟩, ⟨0x8f, 0x92, 0x2590⟩,
   ⟨0x93, 0x93, 0x2320⟩, ⟨0x94, 0x94, 0x25a0⟩, ⟨0x95, 0x96, 0x2219⟩, ⟨0x97, 0x97, 0x2248⟩,
   ⟨0x98, 0x99, 0x2264⟩, ⟨0x9a, 0x9a, 0xa0⟩, ⟨0x9b, 0x9b, 0x2321⟩, ⟨0x9c, 0x9c, 0xb0⟩,
   ⟨0x9d, 0x9d, 0xb2⟩, ⟨0x9e, 0x9e, 0xb7⟩, ⟨0x9f, 0x9f, 0xf7⟩, ⟨0xa0, 0xa2, 0x2550⟩,
   ⟨0xa3, 0xa3, 0x451⟩, ⟨0xa4, 0xb2, 0x2553⟩, ⟨0xb3, 0xb3, 0x401⟩, ⟨0xb4, 0xbe, 0x2562⟩,
   ⟨0xbf, 0xbf, 0xa9⟩, ⟨0xc0, 0xc0, 0x44e⟩, ⟨0xc1, 0xc2, 0x430⟩, ⟨0xc3, 0xc3, 0x446⟩,
   ⟨0xc4, 0xc5, 0x434⟩, ⟨0xc6, 0xc6, 0x444⟩, ⟨0xc7, 0xc7, 0x433⟩, ⟨0xc8, 0xc8, 0x445⟩,
   ⟨0xc9, 0xd0, 0x438⟩, ⟨0xd1, 0xd1, 0x44f⟩, ⟨0xd2, 0xd5, 0x440⟩, ⟨0xd6, 0xd6, 0x436⟩,
   ⟨0xd7, 0xd7, 0x432⟩, ⟨0xd8, 0xd8, 0x44c⟩, ⟨0xd9, 0xd9, 0x44b⟩, ⟨0xda, 0xda, 0x437⟩,
   ⟨0xdb, 0xdb, 0x448⟩, ⟨0xdc, 0xdc, 0x44d⟩, ⟨0xdd, 0xdd, 0x449⟩, ⟨0xde, 0xde, 0x447⟩,
   ⟨0xdf, 0xdf, 0x44a⟩, ⟨0xe0, 0xe0, 0x42e⟩, ⟨0xe1, 0xe2, 0x410⟩, ⟨0xe3, 0xe3, 0x426⟩,
   ⟨0xe4, 0xe5, 0x414⟩, ⟨0xe6, 0xe6, 0x424⟩, ⟨0xe7, 0xe7, 0x413⟩, ⟨0xe8, 0xe8, 0x425⟩,
   ⟨0xe9, 0xf0, 0x418⟩, ⟨0xf1, 0xf1, 0x42f⟩, ⟨0xf2, 0xf5, 0x420⟩, ⟨0xf6, 0xf6, 0x416⟩,
   ⟨0xf7, 0xf7, 0x412⟩, ⟨0xf8, 0xf8, 0x42c⟩, ⟨0xf9, 0xf9, 0x42b⟩, ⟨0xfa, 0xfa, 0x417⟩,
   ⟨0xfb, 0xfb, 0x428⟩, ⟨0xfc, 0xfc, 0x42d⟩, ⟨0xfd, 0xfd, 0x429⟩, ⟨0xfe, 0xfe, 0x427⟩,
   ⟨0xff, 0xff, 0x42a⟩]

end StreamResolver.Text.CodePage
