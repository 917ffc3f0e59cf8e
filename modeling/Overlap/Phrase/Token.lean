import Overlap.Region.Text
import Overlap.Text.Integer

/-! The tokens of a phrase, taken from the front of a text. -/

namespace Overlap

/-- Characters that may stand between tokens. -/
def isBlank (c : Char) : Bool :=
  -- The vertical tab is not among them.
  c = ' ' || c = '\t' || c = '\x0c' || c = '\r' || c = '\n'

/-- The text from its first token on. -/
def skipBlanks (text : List Char) : List Char :=
  -- Nothing but blanks is skipped; comments do not exist.
  text.dropWhile isBlank

/-- The text behind a given beginning. -/
def behind? : List Char → List Char → Option (List Char)
  -- Nothing is asked for any more, and the rest is what follows.
  | [], text => some text
  | _ :: _, [] => none
  | c :: word, d :: text => if c = d then behind? word text else none

/-- A quoted name without its quotes, and the text behind it. It ends at the first
quote that no backslash protects, and a backslash stands for the character behind it. A
quoted name lies on one line. -/
def quotedName : List Char → Option (List Char × List Char)
  | [] => none
  -- A quote that is reached here is not protected.
  | '"' :: rest => some ([], rest)
  | '\\' :: c :: rest =>
    -- A backslash protects any character but a line break, which no name may hold.
    if c = '\n' then none else (quotedName rest).map fun (name, behind) => (c :: name, behind)
  | c :: rest =>
    -- The last character of the text may be a backslash; it protects nothing,
    -- and then the quote is missing.
    if c = '\n' then none else (quotedName rest).map fun (name, behind) => (c :: name, behind)

/-- A name at the front of a text, bare or quoted, and the text behind it. -/
def nameToken : List Char → Option (List Char × List Char)
  | [] => none
  -- Anything may stand between quotes, also nothing.
  | '"' :: rest => quotedName rest
  | c :: rest =>
    -- A bare name goes on as long as it can.
    if opensName c then some (c :: rest.takeWhile continuesName, rest.dropWhile continuesName)
    else none

/-- Marks that structure a phrase. -/
def isMark (c : Char) : Bool :=
  -- The bracket that closes an array is the one that closes an interval.
  c = ',' || c = '(' || c = '[' || c = ')'

/-- Whatever token of a phrase stands at the front of a text: a name, a number or a mark. -/
def anyToken : List Char → Option (List Char)
  | [] => none
  | c :: rest =>
    -- Names come first, so that keywords are shown as the words they look like.
    match nameToken (c :: rest) with
    -- The token is shown as it is written, with its quotes.
    | some (_, behind) => some ((c :: rest).take (rest.length + 1 - behind.length))
    | none =>
      if isDigit c then some (c :: rest.takeWhile isDigit)
      else if isMark c then some [c]
      else none

end Overlap
