import Overlap.Number.Shortest
import Overlap.Sexp.Basic
import Overlap.Text.Quoted

/-! S-expressions on a single line. -/

namespace Overlap.Sexp

/-- The letter behind a backslash that stands for a character of a text, if it has one. -/
def textEscape? (c : Char) : Option Char :=
  -- These two are protected by themselves.
  if c = '\\' || c = '"' then some c
  else if c = '\x08' then some 'b'
  else if c = '\x0c' then some 'f'
  else if c = '\n' then some 'n'
  else if c = '\r' then some 'r'
  else if c = '\t' then some 't'
  else none

/-- The character of a text that a letter behind a backslash stands for. -/
def textUnescape? (c : Char) : Option Char :=
  -- Both directions list the same pairs, so that what is written is read back.
  if c = '\\' || c = '"' then some c
  else if c = 'b' then some '\x08'
  else if c = 'f' then some '\x0c'
  else if c = 'n' then some '\n'
  else if c = 'r' then some '\r'
  else if c = 't' then some '\t'
  else none

/-- Characters that have to be protected in a symbol. -/
def symbolSpecials : List Char :=
  -- All of them have a meaning of their own between expressions.
  ['\\', '\'', '`', '"', '(', ')', '[', ']', ' ', ',', '?', ';', '#']

/-- A text between quotes. -/
def compactText (text : String) : String :=
  String.ofList ('"' :: text.toList.flatMap (fun c =>
    -- A character without a letter stands for itself, also if it cannot be seen.
    match textEscape? c with
    | some letter => ['\\', letter]
    | none => [c]) ++ ['"'])

/-- A symbol with its special characters protected. -/
def compactSymbol (name : String) : String :=
  -- A symbol is not put into quotes, so every special character is protected on its own.
  String.ofList (name.toList.flatMap fun c => if symbolSpecials.contains c then ['\\', c] else [c])

mutual

/-- An S-expression on a single line. -/
def compact : Sexp → String
  -- No value and the false flag are both written as the empty list.
  | .nothing => "()"
  | .flag true => "t"
  | .flag false => "()"
  | .int value => toString value
  | .real value => value.text
  | .text value => compactText value
  | .symbol name => compactSymbol name
  | .list items => "(" ++ " ".intercalate (compactAll items) ++ ")"
  | .bracket items => "[" ++ " ".intercalate (compactAll items) ++ "]"
  -- The mark stands right in front of what it quotes.
  | .quoted item => "'" ++ compact item

/-- Every item of a list on a single line. -/
def compactAll : List Sexp → List String
  | [] => []
  -- Items are written on their own, and put together by the list around them.
  | item :: rest => compact item :: compactAll rest

end

mutual

/-- An S-expression as messages show it, with the kind of everything that is not an atom. -/
def describe : Sexp → String
  -- These are the words of another notation, which shows kinds as calls.
  | .nothing => "None"
  | .flag true => "True"
  | .flag false => "False"
  | .int value => toString value
  | .real value => value.text
  | .text value => quotedText value
  | .symbol name => "Symbol(" ++ quotedText name ++ ")"
  -- Lists are shown in square brackets, and the brackets of the text by their name.
  | .list items => "[" ++ ", ".intercalate (describeAll items) ++ "]"
  | .bracket items => "Brackets(I=[" ++ ", ".intercalate (describeAll items) ++ "])"
  | .quoted item => "Quoted(" ++ describe item ++ ")"

/-- Every item of a list as messages show it. -/
def describeAll : List Sexp → List String
  | [] => []
  -- Items are separated by commas here.
  | item :: rest => describe item :: describeAll rest

end

end Overlap.Sexp
