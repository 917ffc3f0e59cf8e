import Overlap.Diagnostic.SourceError

/-! A reporter collects diagnostics, and renders them with the texts that it knows. -/

namespace Overlap

/-- Collected diagnostics, and the known texts by name in the order in which they became known. -/
structure Reporter where
  -- A name may stand for one text only, which the functions below keep up.
  sources : List (String × String) := []
  diagnostics : List Diagnostic := []
deriving DecidableEq, Repr

namespace Reporter

/-- The text with a name. -/
def source? (reporter : Reporter) (file : String) : Option String :=
  -- Names are kept apart by their exact spelling.
  reporter.sources.lookup file

/-- Makes a text known, unless a text of that name is known already. -/
def learn (reporter : Reporter) (file text : String) : Reporter :=
  match reporter.source? file with
  -- The first text of a name stays, even if a later error brings another one.
  | some _ => reporter
  | none => { reporter with sources := reporter.sources ++ [(file, text)] }

/-- Collects a diagnostic. -/
def report (reporter : Reporter) (diagnostic : Diagnostic) : Reporter :=
  -- Equal diagnostics are kept as often as they are reported.
  { reporter with diagnostics := reporter.diagnostics ++ [diagnostic] }

/-- Collects an error, and learns the text that it is about. -/
def reportError (reporter : Reporter) (error : SourceError) : Reporter :=
  -- Without a place there is no name under which the text could be found.
  let informed := match error.diagnostic.span, error.source with
    | some span, some text => reporter.learn span.file text
    | _, _ => reporter
  informed.report error.diagnostic

/-- Something was reported. -/
def hasErrors (reporter : Reporter) : Bool :=
  -- Only diagnostics count; texts alone are no errors.
  !reporter.diagnostics.isEmpty

/-- One of the collected diagnostics as text. -/
def render (reporter : Reporter) (diagnostic : Diagnostic) (color : Bool) : String :=
  -- The text is looked up under the name in the place, and not taken from the error.
  diagnostic.render reporter.source? color

/-- The closing line, which counts the errors. -/
def summary (reporter : Reporter) (color : Bool) : String :=
  let count := reporter.diagnostics.length
  -- Zero errors are counted in the plural as well.
  let plural := if count = 1 then "" else "s"
  styled color [.bold, .red] "error" ++
    styled color [.bold] s!": aborting due to {count} previous error{plural}"

/-- All collected diagnostics as text, with a closing line. -/
def renderAll (reporter : Reporter) (color : Bool) : String :=
  -- Diagnostics and the closing line are set apart by empty lines.
  "\n\n".intercalate
    (reporter.diagnostics.map (fun diagnostic => reporter.render diagnostic color) ++
      [reporter.summary color])

/-- What is printed for all diagnostics: nothing if there are none. -/
def printed (reporter : Reporter) (color : Bool) : String :=
  -- The line that closes the text is ended here, and nowhere else.
  if reporter.hasErrors then reporter.renderAll color ++ "\n" else ""

/-- One of the collected diagnostics as text, unless a number or the line that
marks its place is too long. -/
def renderTold [Limits] (reporter : Reporter) (diagnostic : Diagnostic) (color : Bool) :
    Except Fault String :=
  -- The texts are those that the reporter knows at this moment.
  diagnostic.renderTold reporter.source? color

/-- All collected diagnostics as text, unless a number or a line that marks a place is too long. -/
def renderAllTold [Limits] (reporter : Reporter) (color : Bool) : Except Fault String := do
  -- The first diagnostic that cannot be shown stops all of them, before any line is put together.
  reporter.diagnostics.forM fun diagnostic => diagnostic.checkPlace reporter.source?
  return reporter.renderAll color

/-- What is printed for all diagnostics, unless a number or a line that
marks a place is too long. -/
def printedTold [Limits] (reporter : Reporter) (color : Bool) : Except Fault String := do
  -- Without diagnostics there is nothing to check, and nothing to print.
  reporter.diagnostics.forM fun diagnostic => diagnostic.checkPlace reporter.source?
  return reporter.printed color

end Reporter

end Overlap
