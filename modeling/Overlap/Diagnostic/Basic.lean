/-! Diagnostics: what is wrong with a text, and where. -/

namespace Overlap

/-- A place in a named text; lines and columns count from one. An end at line and column zero
means that the end is not known. -/
structure Span where
  file : String
  line : Int
  column : Int
  -- The end is optional, and its default stands for none.
  endLine : Int := 0
  endColumn : Int := 0
deriving DecidableEq, Repr

/-- A place in short form. -/
def Span.text (span : Span) : String :=
  -- The end of a place is never shown.
  s!"{span.file}:{span.line}:{span.column}"

/-- A message about a text, with the place that it refers to and optional remarks. -/
structure Diagnostic where
  -- Only the message is required.
  message : String
  span : Option Span := none
  code : Option String := none
  help : Option String := none
  note : Option String := none
  label : Option String := none
deriving DecidableEq, Repr

/-- Whether output is coloured depends on two settings, either of which may be missing. -/
structure ColorSettings where
  -- Both are texts of the environment, and a missing one counts as an empty one.
  noColor : Option String := none
  choice : Option String := none
deriving DecidableEq, Repr

/-- Answers that turn colours off. -/
def colorOffWords : List String := ["0", "false", "no", "never"]

/-- Colours are on unless one of the settings turns them off. -/
def ColorSettings.enabled (settings : ColorSettings) : Bool :=
  -- The first setting turns colours off by any text at all, the second one by its meaning.
  (settings.noColor.getD "").isEmpty &&
    !colorOffWords.contains ((settings.choice.getD "").map Char.toLower)

end Overlap
