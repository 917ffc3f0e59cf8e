import Overlap.Diagnostic.Basic
import Overlap.Storage

/-! Diagnostics as text, with the line of the source that they refer to. -/

namespace Overlap

/-- Codes that switch the appearance of text on a terminal. -/
inductive Style where
  | bold
  | red
  | blue
  | cyan
deriving DecidableEq, Repr

/-- The control sequence of a style. -/
def Style.sequence : Style → String
  | .bold => "\x1b[1m"
  | .red => "\x1b[31m"
  | .blue => "\x1b[34m"
  | .cyan => "\x1b[36m"

/-- The control sequence that ends all styles. -/
def resetSequence : String := "\x1b[0m"

/-- Text in some styles, or plain text without colours. -/
def styled (color : Bool) (styles : List Style) (text : String) : String :=
  -- Every style is ended at once, so styled parts never overlap.
  if color then String.join (styles.map Style.sequence) ++ text ++ resetSequence else text

/-- A remark that was given and says something. -/
def remark? (text : Option String) : Option String :=
  -- An empty remark is as good as none.
  text.filter fun text => !text.isEmpty

/-- A number of spaces. -/
def blanks (count : Nat) : String :=
  String.ofList (List.replicate count ' ')

/-- Puts a character in front of the lines of a text. -/
def consLine (c : Char) : List (List Char) → List (List Char)
  -- A line break starts a line in front of the others.
  | line :: lines => if c = '\n' then [] :: line :: lines else (c :: line) :: lines
  -- A text has at least one line, so this does not occur when a text is split.
  | [] => [[c]]

/-- The lines of a text. -/
def splitLines (text : List Char) : List (List Char) :=
  -- The characters are taken from the end, so the lines come out in order.
  text.foldr consLine [[]]

/-- Longest part of a source line that is shown. -/
def shownWidth : Nat := 80

/-- The source line with a number, cut when it is too long, or an empty line when there is none. -/
def sourceLine (source : String) (number : Int) : List Char :=
  let lines := splitLines source.toList
  -- Lines count from one, and no line has the number zero.
  let line := if number < 1 then [] else (lines[(number - 1).toNat]?).getD []
  -- The mark of a cut line is not part of the width.
  if line.length > shownWidth then line.take shownWidth ++ "...".toList else line

/-- Characters at which a marked word ends. -/
def endsWord (c : Char) : Bool :=
  -- These separate the words of a region; brackets that open an interval do not end a word.
  c = ' ' || c = '\t' || c = ',' || c = ')' || c = ']' || c = '('

/-- The number of columns to mark when the end of the place is not known: a word, or one column. -/
def guessWidth (line : List Char) (column : Nat) : Nat :=
  -- At the end of a line there is no word, and still one column is marked.
  max 1 ((line.drop column).takeWhile fun c => !endsWord c).length

/-- The number of columns to mark below a source line. -/
def markWidth (span : Span) (line : List Char) (column : Nat) : Nat :=
  -- The end has to lie on the same line, or on a line that is not known, and behind the start.
  if (span.endLine = 0 ∨ span.endLine = span.line) ∧ span.column < span.endColumn then
    (span.endColumn - span.column).toNat
  else guessWidth line column

namespace Diagnostic

/-- The opening line: the code and the message. -/
def heading (diagnostic : Diagnostic) (color : Bool) : String :=
  -- A code that is empty is not shown in brackets.
  let code := match remark? diagnostic.code with
    | some code => s!"[{code}]"
    | none => ""
  styled color [.bold, .red] ("error" ++ code) ++ styled color [.bold] (": " ++ diagnostic.message)

/-- The closing lines: help and note, behind a gutter of the given width. -/
def remarks (diagnostic : Diagnostic) (gutter : Nat) (color : Bool) : List String :=
  -- The gutter is as wide as the line number, with one blank behind it.
  let pad := blanks (gutter + 1)
  let line (title : String) (text : String) :=
    styled color [.bold, .cyan] (pad ++ "= ") ++ styled color [.bold] (title ++ ": ") ++ text
  let lines := ((remark? diagnostic.help).map (line "help")).toList ++
    ((remark? diagnostic.note).map (line "note")).toList
  -- A bar separates the remarks from what stands above, but only if there are any.
  if lines.isEmpty then [] else styled color [.bold, .blue] (pad ++ "|") :: lines

/-- The lines that show a place in its source. -/
def excerpt (diagnostic : Diagnostic) (span : Span) (source : String) (color : Bool) :
    List String :=
  -- The line number sets the width of the gutter for all lines.
  let number := toString span.line
  let gutter := number.length
  let bar := styled color [.bold, .blue]
  let line := sourceLine source span.line
  -- A column before the first one is marked as the first one.
  let column := (max span.column 1 - 1).toNat
  let marks :=
    blanks column ++ String.ofList (List.replicate (max 1 (markWidth span line column)) '^')
  let label := match remark? diagnostic.label with
    | some label => " " ++ label
    | none => ""
  [ bar (blanks gutter ++ "--> ") ++ span.text,
    bar (blanks (gutter + 1) ++ "|"),
    bar (number ++ " | ") ++ String.ofList line,
    bar (blanks (gutter + 1) ++ "| ") ++ styled color [.bold, .red] (marks ++ label) ] ++
    diagnostic.remarks gutter color

/-- A diagnostic as text. The source line is shown when the place and its source are known. -/
def render (diagnostic : Diagnostic) (source? : String → Option String) (color : Bool) : String :=
  -- Without a source line, the gutter is one column wide.
  let arrow := styled color [.bold, .blue] " --> "
  let body := match diagnostic.span with
    | none => (arrow ++ "<unknown location>") :: diagnostic.remarks 1 color
    | some span =>
      match source? span.file with
      | none => (arrow ++ span.text) :: diagnostic.remarks 1 color
      | some source => diagnostic.excerpt span source color
  -- The last line is not ended.
  "\n".intercalate (diagnostic.heading color :: body)

/-- Accepts a place when the line that marks it can be built. -/
def checkMarks [Limits] (diagnostic : Diagnostic) (source? : String → Option String) :
    Except Fault Unit :=
  -- Marks are built only where a source line is shown.
  match diagnostic.span with
  | none => .ok ()
  | some span =>
    match source? span.file with
    | none => .ok ()
    | some source => do
      let column := max span.column 1 - 1
      let width := markWidth span (sourceLine source span.line) column.toNat
      -- The blanks in front of the marks are built first, and then the marks.
      checkRepeat 1 column
      checkRepeat 1 (max 1 width)

/-- The numbers in the text of a diagnostic. -/
def numbers (diagnostic : Diagnostic) : List Int :=
  -- The ends of the place are not part of the text.
  match diagnostic.span with
  | none => []
  | some span => [span.line, span.column]

/-- Accepts a place when its numbers can be written and the line that marks it can be built. -/
def checkPlace [Limits] (diagnostic : Diagnostic) (source? : String → Option String) :
    Except Fault Unit := do
  -- The numbers are written before the marks are built, so their fault is the first one.
  checkNumbers diagnostic.numbers
  diagnostic.checkMarks source?

/-- A diagnostic as text, unless a number of its place or the line that
marks its place is too long. -/
def renderTold [Limits] (diagnostic : Diagnostic) (source? : String → Option String)
    (color : Bool) : Except Fault String :=
  -- Once both checks have passed, nothing in the text can fail.
  (diagnostic.checkPlace source?).map fun _ => diagnostic.render source? color

end Diagnostic

end Overlap
