/-
# Small letters

The small form of a text is made character by character.  Capital letters lie in
blocks, and so do their small forms; or capitals and small letters take turns.  The
tables below are those of Unicode 16, beyond ASCII.

Capital sigma has another small form at the end of a word.  It is left out: no word
that this program knows has a sigma of any form.

* `Capitals.blocks`, `Capitals.turns` : the capitals beyond ASCII;
* `smallForm` : the small form of a character;
* `lowercase` : the small form of a text.
-/

namespace Interleave

/-! ## Capitals -/

namespace Capitals

/-- Capitals that follow each other, as their small forms do. -/
structure Block where
  first : Nat
  last : Nat
  /-- The small form of the first. -/
  small : Nat
  deriving DecidableEq, Repr

/-- Capitals each of which is followed by its small form. -/
structure Turns where
  first : Nat
  last : Nat
  deriving DecidableEq, Repr

/-- The character with the number is one of the block. -/
def Block.has (block : Block) (n : Nat) : Bool := block.first ≤ n && n ≤ block.last

/-- The character with the number is one of the capitals. -/
def Turns.has (turns : Turns) (n : Nat) : Bool :=
  turns.first ≤ n && n ≤ turns.last && (n - turns.first) % 2 == 0

/-- The blocks of capitals beyond ASCII. -/
def blocks : List Block := [
    ⟨0xC0, 0xD6, 0xE0⟩, ⟨0xD8, 0xDE, 0xF8⟩, ⟨0x178, 0x178, 0xFF⟩, ⟨0x181, 0x181, 0x253⟩,
    ⟨0x186, 0x186, 0x254⟩, ⟨0x189, 0x18A, 0x256⟩, ⟨0x18E, 0x18E, 0x1DD⟩,
    ⟨0x18F, 0x18F, 0x259⟩, ⟨0x190, 0x190, 0x25B⟩, ⟨0x193, 0x193, 0x260⟩,
    ⟨0x194, 0x194, 0x263⟩, ⟨0x196, 0x196, 0x269⟩, ⟨0x197, 0x197, 0x268⟩,
    ⟨0x19C, 0x19C, 0x26F⟩, ⟨0x19D, 0x19D, 0x272⟩, ⟨0x19F, 0x19F, 0x275⟩,
    ⟨0x1A6, 0x1A6, 0x280⟩, ⟨0x1A9, 0x1A9, 0x283⟩, ⟨0x1AE, 0x1AE, 0x288⟩,
    ⟨0x1B1, 0x1B2, 0x28A⟩, ⟨0x1B7, 0x1B7, 0x292⟩, ⟨0x1C4, 0x1C4, 0x1C6⟩,
    ⟨0x1C7, 0x1C7, 0x1C9⟩, ⟨0x1CA, 0x1CA, 0x1CC⟩, ⟨0x1F1, 0x1F1, 0x1F3⟩,
    ⟨0x1F6, 0x1F6, 0x195⟩, ⟨0x1F7, 0x1F7, 0x1BF⟩, ⟨0x220, 0x220, 0x19E⟩,
    ⟨0x23A, 0x23A, 0x2C65⟩, ⟨0x23D, 0x23D, 0x19A⟩, ⟨0x23E, 0x23E, 0x2C66⟩,
    ⟨0x243, 0x243, 0x180⟩, ⟨0x244, 0x244, 0x289⟩, ⟨0x245, 0x245, 0x28C⟩,
    ⟨0x37F, 0x37F, 0x3F3⟩, ⟨0x386, 0x386, 0x3AC⟩, ⟨0x388, 0x38A, 0x3AD⟩,
    ⟨0x38C, 0x38C, 0x3CC⟩, ⟨0x38E, 0x38F, 0x3CD⟩, ⟨0x391, 0x3A1, 0x3B1⟩,
    ⟨0x3A3, 0x3AB, 0x3C3⟩, ⟨0x3CF, 0x3CF, 0x3D7⟩, ⟨0x3F4, 0x3F4, 0x3B8⟩,
    ⟨0x3F9, 0x3F9, 0x3F2⟩, ⟨0x3FD, 0x3FF, 0x37B⟩, ⟨0x400, 0x40F, 0x450⟩,
    ⟨0x410, 0x42F, 0x430⟩, ⟨0x4C0, 0x4C0, 0x4CF⟩, ⟨0x531, 0x556, 0x561⟩,
    ⟨0x10A0, 0x10C5, 0x2D00⟩, ⟨0x10C7, 0x10C7, 0x2D27⟩, ⟨0x10CD, 0x10CD, 0x2D2D⟩,
    ⟨0x13A0, 0x13EF, 0xAB70⟩, ⟨0x13F0, 0x13F5, 0x13F8⟩, ⟨0x1C90, 0x1CBA, 0x10D0⟩,
    ⟨0x1CBD, 0x1CBF, 0x10FD⟩, ⟨0x1E9E, 0x1E9E, 0xDF⟩, ⟨0x1F08, 0x1F0F, 0x1F00⟩,
    ⟨0x1F18, 0x1F1D, 0x1F10⟩, ⟨0x1F28, 0x1F2F, 0x1F20⟩, ⟨0x1F38, 0x1F3F, 0x1F30⟩,
    ⟨0x1F48, 0x1F4D, 0x1F40⟩, ⟨0x1F59, 0x1F59, 0x1F51⟩, ⟨0x1F5B, 0x1F5B, 0x1F53⟩,
    ⟨0x1F5D, 0x1F5D, 0x1F55⟩, ⟨0x1F5F, 0x1F5F, 0x1F57⟩, ⟨0x1F68, 0x1F6F, 0x1F60⟩,
    ⟨0x1F88, 0x1F8F, 0x1F80⟩, ⟨0x1F98, 0x1F9F, 0x1F90⟩, ⟨0x1FA8, 0x1FAF, 0x1FA0⟩,
    ⟨0x1FB8, 0x1FB9, 0x1FB0⟩, ⟨0x1FBA, 0x1FBB, 0x1F70⟩, ⟨0x1FBC, 0x1FBC, 0x1FB3⟩,
    ⟨0x1FC8, 0x1FCB, 0x1F72⟩, ⟨0x1FCC, 0x1FCC, 0x1FC3⟩, ⟨0x1FD8, 0x1FD9, 0x1FD0⟩,
    ⟨0x1FDA, 0x1FDB, 0x1F76⟩, ⟨0x1FE8, 0x1FE9, 0x1FE0⟩, ⟨0x1FEA, 0x1FEB, 0x1F7A⟩,
    ⟨0x1FEC, 0x1FEC, 0x1FE5⟩, ⟨0x1FF8, 0x1FF9, 0x1F78⟩, ⟨0x1FFA, 0x1FFB, 0x1F7C⟩,
    ⟨0x1FFC, 0x1FFC, 0x1FF3⟩, ⟨0x2126, 0x2126, 0x3C9⟩, ⟨0x212A, 0x212A, 0x6B⟩,
    ⟨0x212B, 0x212B, 0xE5⟩, ⟨0x2132, 0x2132, 0x214E⟩, ⟨0x2160, 0x216F, 0x2170⟩,
    ⟨0x24B6, 0x24CF, 0x24D0⟩, ⟨0x2C00, 0x2C2F, 0x2C30⟩, ⟨0x2C62, 0x2C62, 0x26B⟩,
    ⟨0x2C63, 0x2C63, 0x1D7D⟩, ⟨0x2C64, 0x2C64, 0x27D⟩, ⟨0x2C6D, 0x2C6D, 0x251⟩,
    ⟨0x2C6E, 0x2C6E, 0x271⟩, ⟨0x2C6F, 0x2C6F, 0x250⟩, ⟨0x2C70, 0x2C70, 0x252⟩,
    ⟨0x2C7E, 0x2C7F, 0x23F⟩, ⟨0xA77D, 0xA77D, 0x1D79⟩, ⟨0xA78D, 0xA78D, 0x265⟩,
    ⟨0xA7AA, 0xA7AA, 0x266⟩, ⟨0xA7AB, 0xA7AB, 0x25C⟩, ⟨0xA7AC, 0xA7AC, 0x261⟩,
    ⟨0xA7AD, 0xA7AD, 0x26C⟩, ⟨0xA7AE, 0xA7AE, 0x26A⟩, ⟨0xA7B0, 0xA7B0, 0x29E⟩,
    ⟨0xA7B1, 0xA7B1, 0x287⟩, ⟨0xA7B2, 0xA7B2, 0x29D⟩, ⟨0xA7B3, 0xA7B3, 0xAB53⟩,
    ⟨0xA7C4, 0xA7C4, 0xA794⟩, ⟨0xA7C5, 0xA7C5, 0x282⟩, ⟨0xA7C6, 0xA7C6, 0x1D8E⟩,
    ⟨0xA7CB, 0xA7CB, 0x264⟩, ⟨0xA7DC, 0xA7DC, 0x19B⟩, ⟨0xFF21, 0xFF3A, 0xFF41⟩,
    ⟨0x10400, 0x10427, 0x10428⟩, ⟨0x104B0, 0x104D3, 0x104D8⟩, ⟨0x10570, 0x1057A, 0x10597⟩,
    ⟨0x1057C, 0x1058A, 0x105A3⟩, ⟨0x1058C, 0x10592, 0x105B3⟩, ⟨0x10594, 0x10595, 0x105BB⟩,
    ⟨0x10C80, 0x10CB2, 0x10CC0⟩, ⟨0x10D50, 0x10D65, 0x10D70⟩, ⟨0x118A0, 0x118BF, 0x118C0⟩,
    ⟨0x16E40, 0x16E5F, 0x16E60⟩, ⟨0x1E900, 0x1E921, 0x1E922⟩]

/-- The capitals beyond ASCII that take turns with their small forms. -/
def turns : List Turns := [
    ⟨0x100, 0x12E⟩, ⟨0x132, 0x136⟩, ⟨0x139, 0x147⟩, ⟨0x14A, 0x176⟩, ⟨0x179, 0x17D⟩,
    ⟨0x182, 0x184⟩, ⟨0x187, 0x187⟩, ⟨0x18B, 0x18B⟩, ⟨0x191, 0x191⟩, ⟨0x198, 0x198⟩,
    ⟨0x1A0, 0x1A4⟩, ⟨0x1A7, 0x1A7⟩, ⟨0x1AC, 0x1AC⟩, ⟨0x1AF, 0x1AF⟩, ⟨0x1B3, 0x1B5⟩,
    ⟨0x1B8, 0x1B8⟩, ⟨0x1BC, 0x1BC⟩, ⟨0x1C5, 0x1C5⟩, ⟨0x1C8, 0x1C8⟩, ⟨0x1CB, 0x1DB⟩,
    ⟨0x1DE, 0x1EE⟩, ⟨0x1F2, 0x1F4⟩, ⟨0x1F8, 0x21E⟩, ⟨0x222, 0x232⟩, ⟨0x23B, 0x23B⟩,
    ⟨0x241, 0x241⟩, ⟨0x246, 0x24E⟩, ⟨0x370, 0x372⟩, ⟨0x376, 0x376⟩, ⟨0x3D8, 0x3EE⟩,
    ⟨0x3F7, 0x3F7⟩, ⟨0x3FA, 0x3FA⟩, ⟨0x460, 0x480⟩, ⟨0x48A, 0x4BE⟩, ⟨0x4C1, 0x4CD⟩,
    ⟨0x4D0, 0x52E⟩, ⟨0x1C89, 0x1C89⟩, ⟨0x1E00, 0x1E94⟩, ⟨0x1EA0, 0x1EFE⟩, ⟨0x2183, 0x2183⟩,
    ⟨0x2C60, 0x2C60⟩, ⟨0x2C67, 0x2C6B⟩, ⟨0x2C72, 0x2C72⟩, ⟨0x2C75, 0x2C75⟩, ⟨0x2C80, 0x2CE2⟩,
    ⟨0x2CEB, 0x2CED⟩, ⟨0x2CF2, 0x2CF2⟩, ⟨0xA640, 0xA66C⟩, ⟨0xA680, 0xA69A⟩, ⟨0xA722, 0xA72E⟩,
    ⟨0xA732, 0xA76E⟩, ⟨0xA779, 0xA77B⟩, ⟨0xA77E, 0xA786⟩, ⟨0xA78B, 0xA78B⟩, ⟨0xA790, 0xA792⟩,
    ⟨0xA796, 0xA7A8⟩, ⟨0xA7B4, 0xA7C2⟩, ⟨0xA7C7, 0xA7C9⟩, ⟨0xA7CC, 0xA7CC⟩, ⟨0xA7D0, 0xA7D0⟩,
    ⟨0xA7D6, 0xA7DA⟩, ⟨0xA7F5, 0xA7F5⟩]

end Capitals

/-! ## Small forms -/

open Capitals in
/-- The number of the small form of a character beyond ASCII. -/
def smallNumber (n : Nat) : Nat :=
  match blocks.find? (·.has n) with
  | some block => block.small + (n - block.first)
  | none => if turns.any (·.has n) then n + 1 else n

/-- The small form of a character.  That of the capital I with a dot above is two
characters, an `i` and the dot. -/
def smallForm (c : Char) : List Char :=
  if c.toNat < 0x80 then [c.toLower]
  else if c = '\u0130' then ['i', '\u0307']
  else [Char.ofNat (smallNumber c.toNat)]

/-- The small form of a text. -/
def lowercase (text : String) : String := String.ofList (text.toList.flatMap smallForm)

end Interleave
