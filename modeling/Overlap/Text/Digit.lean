/-! Decimal digits and blanks of all scripts. -/

namespace Overlap

/-- Code points of the digit zero in the scripts that have decimal
digits; the other nine follow it. -/
def zeroDigits : List Nat :=
  [
    0x30, 0x660, 0x6F0, 0x7C0, 0x966, 0x9E6, 0xA66, 0xAE6, 0xB66, 0xBE6,
    0xC66, 0xCE6, 0xD66, 0xDE6, 0xE50, 0xED0, 0xF20, 0x1040, 0x1090, 0x17E0,
    0x1810, 0x1946, 0x19D0, 0x1A80, 0x1A90, 0x1B50, 0x1BB0, 0x1C40, 0x1C50, 0xA620,
    0xA8D0, 0xA900, 0xA9D0, 0xA9F0, 0xAA50, 0xABF0, 0xFF10, 0x104A0, 0x10D30, 0x11066,
    0x110F0, 0x11136, 0x111D0, 0x112F0, 0x11450, 0x114D0, 0x11650, 0x116C0, 0x11730, 0x118E0,
    0x11950, 0x11C50, 0x11D50, 0x11DA0, 0x16A60, 0x16AC0, 0x16B50, 0x1D7CE, 0x1D7D8, 0x1D7E2,
    0x1D7EC, 0x1D7F6, 0x1E140, 0x1E2F0, 0x1E950, 0x1FBF0
  ]

/-- The value of a decimal digit of any script. -/
def decimalValue? (c : Char) : Option Nat :=
  -- At most one of the scripts fits, as their digits do not overlap.
  (zeroDigits.find? fun first => first ≤ c.toNat && c.toNat < first + 10).map (c.toNat - ·)

/-- Blanks of the ASCII range that may surround a number. -/
def isAsciiSpace (c : Char) : Bool :=
  -- The range holds the tabs, the line breaks and the page break.
  c = ' ' || ('\x09' ≤ c && c ≤ '\x0d')

/-- Blanks beyond the ASCII range. -/
def wideSpaces : List Nat :=
  [ 0x85, 0xA0, 0x1680, 0x2000, 0x2001, 0x2002, 0x2003, 0x2004, 0x2005, 0x2006, 0x2007, 0x2008,
    0x2009, 0x200A, 0x2028, 0x2029, 0x202F, 0x205F, 0x3000 ]

/-- One character of a number with digits of any script written in ASCII. -/
def asciiCharacter? (c : Char) : Option Char :=
  -- The last character of ASCII is a control, and has no place in a number.
  if c.toNat < 127 then some c
  -- Blanks of all kinds become one, so that they can be taken away together.
  else if wideSpaces.contains c.toNat then some ' '
  else (decimalValue? c).map fun value => Char.ofNat ('0'.toNat + value)

/-- A number with digits of any script written in ASCII, without the blanks around it. There is none
when a character has no place in a number. -/
def plainNumeral? (text : List Char) : Option (List Char) :=
  (text.mapM asciiCharacter?).map fun ascii =>
    -- Blanks inside of a number stay, and make it none.
    ((ascii.dropWhile isAsciiSpace).reverse.dropWhile isAsciiSpace).reverse

end Overlap
