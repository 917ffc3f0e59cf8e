import Overlap.Text.Printable

/-! Text in quotes, for messages: every character is visible. -/

namespace Overlap

/-- A digit of a number to the base sixteen. -/
def hexDigit (value : Nat) : Char :=
  -- Letters are lower case.
  if value < 10 then Char.ofNat ('0'.toNat + value) else Char.ofNat ('a'.toNat + (value - 10))

/-- The last digits of a number to the base sixteen. -/
def hexDigits : Nat → Nat → List Char
  | 0, _ => []
  -- The digits further in front are cut off.
  | count + 1, value => hexDigits count (value / 16) ++ [hexDigit (value % 16)]

/-- A character by its code point, in the shortest of three forms. -/
def codePoint (c : Char) : List Char :=
  let value := c.toNat
  -- Each form has a letter of its own and a fixed number of digits.
  if value < 0x100 then '\\' :: 'x' :: hexDigits 2 value
  else if value < 0x10000 then '\\' :: 'u' :: hexDigits 4 value
  else '\\' :: 'U' :: hexDigits 8 value

/-- One character between quotes of the given kind. -/
def quotedCharacter (quote c : Char) : List Char :=
  -- The other kind of quotes needs no protection.
  if c = quote || c = '\\' then ['\\', c]
  else if c = '\n' then ['\\', 'n']
  else if c = '\t' then ['\\', 't']
  else if c = '\r' then ['\\', 'r']
  -- Letters of all scripts are shown as they are.
  else if isPrintable c then [c]
  else codePoint c

/-- Text in single quotes, or in double quotes when it holds single quotes and no double ones. -/
def quotedText (text : String) : String :=
  let characters := text.toList
  -- Double quotes save the protection of single ones, unless both occur.
  let quote := if characters.contains '\'' && !characters.contains '"' then '"' else '\''
  String.ofList (quote :: characters.flatMap (quotedCharacter quote) ++ [quote])

end Overlap
