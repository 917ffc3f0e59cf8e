import Overlap.Sexp.Compact
import Overlap.Storage
import Overlap.Text.Real

/-! Reading S-expressions, one character after the other.

The reader keeps the lists that are open. A quote mark opens a list of its own, which takes the rest
of the list around it; when that is closed, the first item is quoted and the others follow it. -/

namespace Overlap.Sexp

/-- Why a text is not an S-expression. -/
inductive ReadError where
  /-- The text holds no expression, or more than one. -/
  | notSingle
  /-- A list is closed by the wrong character, or not at all. -/
  | unclosed (expected : Char) (found : Option Char)
  /-- A closing character where no list is open, with the text from there on. -/
  | surplus (rest : List Char)
  /-- Nothing follows a quote mark at the given place. -/
  | nothingQuoted (place : Nat)
  /-- The text ends inside quotes. -/
  | openText
  /-- The text ends behind a backslash. -/
  | openEscape
  /-- Too many lists are open at once. -/
  | tooDeep
deriving DecidableEq, Repr

/-- The wording of a reading error. -/
def ReadError.message : ReadError → String
  -- There is nothing to say about it but that it failed.
  | .notSingle => ""
  | .unclosed expected found =>
    let shown (c : Char) := quotedText (String.ofList [c])
    let got := match found with
      -- The end of the text is no character.
      | some c => shown c
      | none => "None"
    "Not enough closing brackets. Expected " ++ shown expected ++
      " to be the last letter in the sexp. Got: " ++ got
  | .surplus rest =>
    "Too many closing brackets. Expected no character left in the sexp. Got: " ++
      quotedText (String.ofList rest)
  | .nothingQuoted place => s!"No s-exp is found after an apostrophe at position {place}"
  | .openText => "'NoneType' object has no attribute 'start'"
  | .openEscape => "string index out of range"
  | .tooDeep => "maximum recursion depth exceeded"

/-- What opened a list that is still open. -/
inductive Opener where
  -- Quote marks have no closing character of their own.
  | round
  | square
  | quote (place : Nat)
deriving DecidableEq, Repr

/-- An open list, with the items of the list around it, the latest first. -/
structure Frame where
  -- The frame holds what was read before the list was opened.
  opener : Opener
  outer : List Sexp

/-- Where the reader stands within a text or an atom, with the
characters so far, the latest first. -/
inductive Mode where
  -- A comment is left at the end of its line only.
  | between
  | comment
  | text (characters : List Char)
  | textEscape (characters : List Char)
  | atom (characters : List Char)
  | atomEscape (characters : List Char)

/-- The state of the reader: where it stands, the items of the innermost list, the latest first, and
the open lists, the innermost first. -/
structure State where
  -- A text starts between expressions, with nothing read and nothing open.
  mode : Mode := .between
  items : List Sexp := []
  frames : List Frame := []

/-- Blanks between expressions. -/
def isSpace (c : Char) : Bool :=
  -- Tabs, line breaks and page breaks are in the second range.
  c = ' ' || ('\x09' ≤ c && c ≤ '\x0d')

/-- Characters that end an atom. -/
def endsAtom (c : Char) : Bool :=
  -- A quote mark does not end an atom, and neither does a backslash.
  c = '(' || c = ')' || c = '[' || c = ']' || c = '"' || c = ';' || isSpace c

/-- The value of an atom: the empty list, the true flag, a number or a symbol. -/
def atomValue (characters : List Char) : Sexp :=
  -- Words come before numbers, and numbers before symbols.
  match String.ofList characters with
  | "nil" => .list []
  | "t" => .flag true
  | name =>
    match integer? characters with
    | some value => .int value
    | none =>
      match real? characters with
      | some value => .real value
      | none => .symbol name

/-- Adds an item to the innermost list. -/
def State.push (state : State) (item : Sexp) : State :=
  -- Items are collected backwards.
  { state with mode := .between, items := item :: state.items }

/-- Ends the lists that quote marks opened, up to the nearest bracket. -/
def closeQuotes (items : List Sexp) : List Frame → Except ReadError (List Sexp × List Frame)
  | ⟨.quote place, outer⟩ :: frames =>
    -- The items are collected backwards, so the first one comes last.
    match items.getLast? with
    | none => .error (.nothingQuoted place)
    -- What was read behind the quoted item belongs to the list around it.
    | some first => closeQuotes (items.dropLast ++ .quoted first :: outer) frames
  | frames => .ok (items, frames)

/-- Closes the innermost list at a closing character, which begins the given rest of the text. -/
def close (state : State) (closer : Char) (rest : List Char) : Except ReadError State := do
  -- Lists that quote marks opened end here as well.
  match ← closeQuotes state.items state.frames with
  | (items, ⟨.round, outer⟩ :: frames) =>
    if closer = ')' then return ⟨.between, .list items.reverse :: outer, frames⟩
    -- The message tells which bracket was expected.
    else throw (.unclosed ')' (some closer))
  | (items, ⟨.square, outer⟩ :: frames) =>
    if closer = ']' then return ⟨.between, .bracket items.reverse :: outer, frames⟩
    else throw (.unclosed ']' (some closer))
  | _ => throw (.surplus rest)

/-- Opens a list. -/
def State.opened (state : State) (opener : Opener) : State :=
  -- The items so far wait in the frame for the list to be closed.
  ⟨.between, [], ⟨opener, state.items⟩ :: state.frames⟩

/-- Takes a character between expressions. `rest` is the text from this character on, and `place`
the number of characters before it. -/
def startAt (state : State) (c : Char) (rest : List Char) (place : Nat) : Except ReadError State :=
  if c = '"' then .ok { state with mode := .text [] }
  else if isSpace c then .ok { state with mode := .between }
  else if c = '(' then .ok (state.opened .round)
  else if c = '[' then .ok (state.opened .square)
  -- A bracket that closes is matched with the one that opened.
  else if c = ')' || c = ']' then close state c rest
  else if c = '\'' then .ok (state.opened (.quote place))
  else if c = ';' then .ok { state with mode := .comment }
  -- A backslash may open an atom, whatever follows.
  else if c = '\\' then .ok { state with mode := .atomEscape [] }
  else .ok { state with mode := .atom [c] }

/-- Takes one character. -/
def step (state : State) (c : Char) (rest : List Char) (place : Nat) : Except ReadError State :=
  match state.mode with
  | .between => startAt state c rest place
  | .comment => .ok (if c = '\n' then { state with mode := .between } else state)
  | .text characters =>
    -- Quotes end a text at once, with no blank behind them.
    if c = '"' then .ok (state.push (.text (String.ofList characters.reverse)))
    else if c = '\\' then .ok { state with mode := .textEscape characters }
    else .ok { state with mode := .text (c :: characters) }
  | .textEscape characters =>
    match textUnescape? c with
    | some meant => .ok { state with mode := .text (meant :: characters) }
    -- A backslash in front of any other character stands for itself.
    | none => .ok { state with mode := .text (c :: '\\' :: characters) }
  | .atom characters =>
    -- The character that ends an atom is looked at again, as one between expressions.
    if endsAtom c then startAt (state.push (atomValue characters.reverse)) c rest place
    else if c = '\\' then .ok { state with mode := .atomEscape characters }
    else .ok { state with mode := .atom (c :: characters) }
  | .atomEscape characters =>
    if symbolSpecials.contains c then .ok { state with mode := .atom (c :: characters) }
    else .ok { state with mode := .atom (c :: '\\' :: characters) }

/-- Ends the text: everything has to be closed, and one expression has to be there. -/
def finish (state : State) : Except ReadError Sexp := do
  -- Texts have to be closed, whereas the end of the text also ends an atom or a comment.
  let state ← match state.mode with
    | .text _ => throw .openText
    | .textEscape _ | .atomEscape _ => throw .openEscape
    | .atom characters => pure (state.push (atomValue characters.reverse))
    | .between | .comment => pure state
  -- The end of the text closes the lists of quote marks, but no brackets.
  match ← closeQuotes state.items state.frames with
  | (_, ⟨.round, _⟩ :: _) => throw (.unclosed ')' none)
  | (_, ⟨.square, _⟩ :: _) => throw (.unclosed ']' none)
  -- The frames are gone by now, so one item means one expression.
  | ([item], _) => return item
  | _ => throw .notSingle

/-- Takes the characters of a text one after the other. -/
def run (state : State) (place : Nat) : List Char → Except ReadError Sexp
  | [] => finish state
  | c :: rest => do
    -- The step sees the text from its character on, as some messages show it.
    let next ← step state c (c :: rest) place
    run next (place + 1) rest

/-- The single S-expression in a text. -/
def read (text : List Char) : Except ReadError Sexp :=
  -- The first character has the place zero.
  run {} 0 text

/-- More lists than the limit are open at once, before the text ends or turns out to be wrong. -/
def nestsBeyond (limit : Nat) (state : State) (place : Nat) : List Char → Bool
  | [] => limit < state.frames.length
  | c :: rest =>
    -- The count is taken before every character, so the last list opened is counted too.
    if limit < state.frames.length then true
    else
      match step state c (c :: rest) place with
      | .ok next => nestsBeyond limit next (place + 1) rest
      -- A text that turns out to be wrong before is refused for that reason.
      | .error _ => false

/-- The single S-expression in a text, unless it is nested too deeply. -/
def readNested [Limits] (text : List Char) : Except ReadError Sexp :=
  -- The nesting is looked at first, although the text is read in one go.
  if nestsBeyond maxOpenLists {} 0 text then .error .tooDeep else read text

end Overlap.Sexp
