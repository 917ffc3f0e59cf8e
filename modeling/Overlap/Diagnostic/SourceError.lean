import Overlap.Diagnostic.Render

/-! An error in a given text, which carries the text along. -/

namespace Overlap

/-- The code of a text that breaks the rules of the written form. -/
def syntaxCode : String := "E0101"

/-- The code of an axis whose numbers do not fit together. -/
def invalidAxisCode : String := "E0102"

/-- The code of an S-expression that is not a region. -/
def malformedCode : String := "E0103"

/-- A diagnostic together with the text that it is about. -/
structure SourceError where
  -- The text may be missing, and then only the place is shown.
  diagnostic : Diagnostic
  source : Option String := none
deriving DecidableEq, Repr

/-- The error on its own, shown with its own text. -/
def SourceError.render (error : SourceError) (color : Bool) : String :=
  -- Whatever name the place has, its text is the one of this error.
  error.diagnostic.render (fun _ => error.source) color

/-- The error on its own, unless a number or the line that marks its place is too long. -/
def SourceError.renderTold [Limits] (error : SourceError) (color : Bool) : Except Fault String :=
  -- The numbers and the marks are checked against that same text.
  error.diagnostic.renderTold (fun _ => error.source) color

/-- A message with its place behind it. -/
def messageAt (message : String) : Option Span → String
  -- The place stands on a line of its own.
  | some span => message ++ "\n --> " ++ span.text
  | none => message

end Overlap
