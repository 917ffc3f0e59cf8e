import Overlap.Sexp.Compact

/-! S-expressions on several lines: a list that does not fit is broken before its inner lists. -/

namespace Overlap

/-- How lists are broken into lines. -/
structure Layout where
  -- One level is indented by this text.
  indent : String := "  "
  width : Int := 100
deriving DecidableEq, Repr

namespace Sexp

/-- A text between quotes, in which only quotes and backslashes are protected. -/
def prettyText (text : String) : String :=
  String.ofList ('"' :: text.toList.flatMap (fun c =>
    -- Line breaks stay as they are, so such a text takes several lines.
    if c = '\\' || c = '"' then ['\\', c] else [c]) ++ ['"'])

/-- The parts of a list on one line. -/
def oneLine (parts : List String) : String :=
  -- No blanks stand right inside of the parentheses.
  "(" ++ " ".intercalate parts ++ ")"

/-- A part that looks like a list. -/
def looksNested (part : String) : Bool :=
  -- The text decides, so that a symbol with a parenthesis in front counts as a list.
  part.toList.head? == some '('

/-- The beginning of a line at the given depth. -/
def lineStart (layout : Layout) (depth : Int) : String :=
  -- A negative depth is not indented.
  String.join (List.replicate depth.toNat layout.indent)

/-- One line fits at the given depth if it is short enough and holds no line break of its own. -/
def fits (layout : Layout) (depth : Int) (line : String) : Bool :=
  -- Parentheses that other lists put behind this one are not counted.
  decide (line.length + layout.indent.length * depth ≤ layout.width) && !line.toList.contains '\n'

/-- The parts of a list at the given depth. When they do not fit on one line, the first part and the
atoms behind it stay on the opening line, and every other part gets a line of its own. -/
def arrange (layout : Layout) (depth : Int) : List String → String
  -- Nothing can be broken here.
  | [] => "()"
  | first :: others =>
    let line := oneLine (first :: others)
    if fits layout depth line then line
    else
      -- The atoms in front stay together, and nothing joins them once a list has come.
      let (atoms, rest) := others.span fun part => !looksNested part
      let start := lineStart layout (depth + 1)
      "(" ++ " ".intercalate (first :: atoms) ++
        -- Every further part is on its own line, atoms as well.
        String.join (rest.map fun part => "\n" ++ start ++ part) ++ ")"

mutual

/-- An S-expression at the given depth. -/
def pretty (layout : Layout) (depth : Int) : Sexp → String
  -- Flags and missing values are words here, unlike on a single line.
  | .nothing => "nil"
  | .flag true => "true"
  | .flag false => "false"
  | .int value => toString value
  | .real value => value.text
  | .text value => prettyText value
  -- A symbol is written without any protection.
  | .symbol name => name
  | .list items => arrange layout depth (prettyAll layout (depth + 1) items)
  -- Brackets and quotes are shown as in messages.
  | other => other.describe

/-- Every item of a list at the given depth. -/
def prettyAll (layout : Layout) (depth : Int) : List Sexp → List String
  | [] => []
  -- All items stand at one depth, which the list around them has set.
  | item :: rest => pretty layout depth item :: prettyAll layout depth rest

end

end Sexp

end Overlap
