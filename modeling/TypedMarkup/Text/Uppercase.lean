import TypedMarkup.Text.Ranges

/-!
Contract: upper case of texts.

Owns: the Unicode 14 upper case mappings, by how the upper case is found from a character, and
`uppercase`.
-/

namespace TypedMarkup.Text

/-- Ranges in which every second character, from the first on, has its upper case right before it.
-/
def capitalsBefore : List (Nat × Nat) := rangesOf 0 [
  257, 47, 3, 5, 2, 15, 2, 45, 2, 5, 4, 3, 2, 1, 3, 1, 5, 1, 6, 1, 7, 5, 2, 1, 4, 1, 2, 1, 3, 3, 2,
  1, 3, 1, 7, 1, 2, 1, 2, 1, 2, 15, 2, 17, 2, 1, 2, 1, 3, 39, 3, 17, 8, 1, 5, 1, 4, 9, 289, 3, 3, 1,
  97, 23, 8, 1, 2, 1, 101, 33, 9, 53, 2, 13, 2, 95, 6353, 149, 11, 95, 644, 1, 2780, 1, 6, 5, 6, 1,
  2, 1, 10, 99, 8, 3, 4, 1, 31053, 45, 19, 27, 135, 13, 3, 61, 10, 3, 2, 9, 4, 1, 4, 3, 3, 19, 11,
  15, 4, 3, 6, 1, 5, 3, 28, 1]

/-- Ranges that have a range of upper case characters: first, last, and the upper case of the
first. -/
def capitalRanges : List (Nat × Nat × Nat) := [
  (0xE0, 0xF6, 0xC0), (0xF8, 0xFE, 0xD8), (0x23F, 0x240, 0x2C7E), (0x256, 0x257, 0x189),
  (0x28A, 0x28B, 0x1B1), (0x37B, 0x37D, 0x3FD), (0x3AD, 0x3AF, 0x388), (0x3B1, 0x3C1, 0x391),
  (0x3C3, 0x3CB, 0x3A3), (0x3CD, 0x3CE, 0x38E), (0x430, 0x44F, 0x410), (0x450, 0x45F, 0x400),
  (0x561, 0x586, 0x531), (0x10D0, 0x10FA, 0x1C90), (0x10FD, 0x10FF, 0x1CBD),
  (0x13F8, 0x13FD, 0x13F0), (0x1C83, 0x1C84, 0x421), (0x1F00, 0x1F07, 0x1F08),
  (0x1F10, 0x1F15, 0x1F18), (0x1F20, 0x1F27, 0x1F28), (0x1F30, 0x1F37, 0x1F38),
  (0x1F40, 0x1F45, 0x1F48), (0x1F60, 0x1F67, 0x1F68), (0x1F70, 0x1F71, 0x1FBA),
  (0x1F72, 0x1F75, 0x1FC8), (0x1F76, 0x1F77, 0x1FDA), (0x1F78, 0x1F79, 0x1FF8),
  (0x1F7A, 0x1F7B, 0x1FEA), (0x1F7C, 0x1F7D, 0x1FFA), (0x1FB0, 0x1FB1, 0x1FB8),
  (0x1FD0, 0x1FD1, 0x1FD8), (0x1FE0, 0x1FE1, 0x1FE8), (0x2170, 0x217F, 0x2160),
  (0x24D0, 0x24E9, 0x24B6), (0x2C30, 0x2C5F, 0x2C00), (0x2D00, 0x2D25, 0x10A0),
  (0xAB70, 0xABBF, 0x13A0), (0xFF41, 0xFF5A, 0xFF21), (0x10428, 0x1044F, 0x10400),
  (0x104D8, 0x104FB, 0x104B0), (0x10597, 0x105A1, 0x10570), (0x105A3, 0x105B1, 0x1057C),
  (0x105B3, 0x105B9, 0x1058C), (0x105BB, 0x105BC, 0x10594), (0x10CC0, 0x10CF2, 0x10C80),
  (0x118C0, 0x118DF, 0x118A0), (0x16E60, 0x16E7F, 0x16E40), (0x1E922, 0x1E943, 0x1E900)]

/-- Further characters whose upper case is one character. -/
def capitalPairs : List (Nat × Nat) := [
  (0xB5, 0x39C), (0xFF, 0x178), (0x131, 0x49), (0x17F, 0x53), (0x180, 0x243), (0x195, 0x1F6),
  (0x19A, 0x23D), (0x19E, 0x220), (0x1BF, 0x1F7), (0x1C6, 0x1C4), (0x1C9, 0x1C7), (0x1CC, 0x1CA),
  (0x1DD, 0x18E), (0x1F3, 0x1F1), (0x250, 0x2C6F), (0x251, 0x2C6D), (0x252, 0x2C70), (0x253, 0x181),
  (0x254, 0x186), (0x259, 0x18F), (0x25B, 0x190), (0x25C, 0xA7AB), (0x260, 0x193), (0x261, 0xA7AC),
  (0x263, 0x194), (0x265, 0xA78D), (0x266, 0xA7AA), (0x268, 0x197), (0x269, 0x196), (0x26A, 0xA7AE),
  (0x26B, 0x2C62), (0x26C, 0xA7AD), (0x26F, 0x19C), (0x271, 0x2C6E), (0x272, 0x19D), (0x275, 0x19F),
  (0x27D, 0x2C64), (0x280, 0x1A6), (0x282, 0xA7C5), (0x283, 0x1A9), (0x287, 0xA7B1), (0x288, 0x1AE),
  (0x289, 0x244), (0x28C, 0x245), (0x292, 0x1B7), (0x29D, 0xA7B2), (0x29E, 0xA7B0), (0x345, 0x399),
  (0x3AC, 0x386), (0x3C2, 0x3A3), (0x3CC, 0x38C), (0x3D0, 0x392), (0x3D1, 0x398), (0x3D5, 0x3A6),
  (0x3D6, 0x3A0), (0x3D7, 0x3CF), (0x3F0, 0x39A), (0x3F1, 0x3A1), (0x3F2, 0x3F9), (0x3F3, 0x37F),
  (0x3F5, 0x395), (0x4CF, 0x4C0), (0x1C80, 0x412), (0x1C81, 0x414), (0x1C82, 0x41E),
  (0x1C85, 0x422), (0x1C86, 0x42A), (0x1C87, 0x462), (0x1C88, 0xA64A), (0x1D79, 0xA77D),
  (0x1D7D, 0x2C63), (0x1D8E, 0xA7C6), (0x1E9B, 0x1E60), (0x1F51, 0x1F59), (0x1F53, 0x1F5B),
  (0x1F55, 0x1F5D), (0x1F57, 0x1F5F), (0x1FBE, 0x399), (0x1FE5, 0x1FEC), (0x214E, 0x2132),
  (0x2C65, 0x23A), (0x2C66, 0x23E), (0x2D27, 0x10C7), (0x2D2D, 0x10CD), (0xA794, 0xA7C4),
  (0xAB53, 0xA7B3)]

/-- Ranges of eight characters with an iota below, which is written behind their upper case. -/
def iotaRanges : List (Nat × Nat) := [
  (0x1F80, 0x1F08), (0x1F88, 0x1F08), (0x1F90, 0x1F28), (0x1F98, 0x1F28), (0x1FA0, 0x1F68),
  (0x1FA8, 0x1F68)]

/-- Further characters whose upper case is longer than one character. -/
def uppercaseExpansions : List (Nat × List Nat) := [
  (0xDF, [0x53, 0x53]), (0x149, [0x2BC, 0x4E]), (0x1F0, [0x4A, 0x30C]),
  (0x390, [0x399, 0x308, 0x301]), (0x3B0, [0x3A5, 0x308, 0x301]), (0x587, [0x535, 0x552]),
  (0x1E96, [0x48, 0x331]), (0x1E97, [0x54, 0x308]), (0x1E98, [0x57, 0x30A]),
  (0x1E99, [0x59, 0x30A]), (0x1E9A, [0x41, 0x2BE]), (0x1F50, [0x3A5, 0x313]),
  (0x1F52, [0x3A5, 0x313, 0x300]), (0x1F54, [0x3A5, 0x313, 0x301]), (0x1F56, [0x3A5, 0x313, 0x342]),
  (0x1FB2, [0x1FBA, 0x399]), (0x1FB3, [0x391, 0x399]), (0x1FB4, [0x386, 0x399]),
  (0x1FB6, [0x391, 0x342]), (0x1FB7, [0x391, 0x342, 0x399]), (0x1FBC, [0x391, 0x399]),
  (0x1FC2, [0x1FCA, 0x399]), (0x1FC3, [0x397, 0x399]), (0x1FC4, [0x389, 0x399]),
  (0x1FC6, [0x397, 0x342]), (0x1FC7, [0x397, 0x342, 0x399]), (0x1FCC, [0x397, 0x399]),
  (0x1FD2, [0x399, 0x308, 0x300]), (0x1FD3, [0x399, 0x308, 0x301]), (0x1FD6, [0x399, 0x342]),
  (0x1FD7, [0x399, 0x308, 0x342]), (0x1FE2, [0x3A5, 0x308, 0x300]), (0x1FE3, [0x3A5, 0x308, 0x301]),
  (0x1FE4, [0x3A1, 0x313]), (0x1FE6, [0x3A5, 0x342]), (0x1FE7, [0x3A5, 0x308, 0x342]),
  (0x1FF2, [0x1FFA, 0x399]), (0x1FF3, [0x3A9, 0x399]), (0x1FF4, [0x38F, 0x399]),
  (0x1FF6, [0x3A9, 0x342]), (0x1FF7, [0x3A9, 0x342, 0x399]), (0x1FFC, [0x3A9, 0x399]),
  (0xFB00, [0x46, 0x46]), (0xFB01, [0x46, 0x49]), (0xFB02, [0x46, 0x4C]),
  (0xFB03, [0x46, 0x46, 0x49]), (0xFB04, [0x46, 0x46, 0x4C]), (0xFB05, [0x53, 0x54]),
  (0xFB06, [0x53, 0x54]), (0xFB13, [0x544, 0x546]), (0xFB14, [0x544, 0x535]),
  (0xFB15, [0x544, 0x53B]), (0xFB16, [0x54E, 0x546]), (0xFB17, [0x544, 0x53D])]

/-- The upper case of a character above ASCII, if it is another one. -/
def capital? (code : Nat) : Option (List Nat) :=
  ((capitalsBefore.find? fun range =>
      range.1 ≤ code && code ≤ range.2 && (code - range.1) % 2 == 0).map fun _ => [code - 1]) <|>
    ((capitalRanges.find? fun range => range.1 ≤ code && code ≤ range.2.1).map fun range =>
      [code - range.1 + range.2.2]) <|>
    (capitalPairs.lookup code).map ([·]) <|>
    ((iotaRanges.find? fun range => range.1 ≤ code && code < range.1 + 8).map fun range =>
      [code - range.1 + range.2, 0x399]) <|>
    uppercaseExpansions.lookup code

def uppercaseOf (character : Char) : List Char :=
  if character.toNat < 0x80 then [character.toUpper]
  else ((capital? character.toNat).getD [character.toNat]).map Char.ofNat

def uppercase (text : String) : String :=
  String.ofList (text.toList.flatMap uppercaseOf)

end TypedMarkup.Text
