import Overlap.Diagnostic.SourceError
import Overlap.Phrase.Reader

/-! The region that a text describes, or what is wrong with the text. -/

namespace Overlap

/-- What is wrong with the text of a region. -/
inductive PhraseError where
  /-- The text is not a phrase; reading stopped before the given rest. -/
  | unexpected (rest : List Char)
  /-- The numbers of an axis do not fit together; the axis lies between two places, given by the
  lengths of the text behind them. -/
  | invalidAxis (axis : Axis) (before after : Nat)
  /-- A number has too many digits. -/
  | longNumeral
deriving DecidableEq, Repr

/-- The value of a number in a phrase. -/
def Numeral.value (digits : Numeral) : Except PhraseError Int :=
  -- A phrase holds no signs, so a number is never negative.
  match boundedValue? digits with
  | some value => .ok value
  | none => .error .longNumeral

/-- The value of a number that may be left out. -/
def Numeral.value? : Option Numeral → Except PhraseError (Option Int)
  -- What is left out has no value, and no default either.
  | none => .ok none
  | some digits => (Numeral.value digits).map some

/-- What is wrong with the numbers of an axis that is not well formed. -/
def Axis.flaw (axis : Axis) : String :=
  -- The start and the size cannot be negative in a phrase, so they are not mentioned.
  if axis.step ≤ 0 then "step must be positive"
  else if axis.count ≤ 0 then "count must be positive"
  else s!"last index {axis.last} is not below the axis size {axis.size}"

/-- The axis that is written. -/
def AxisPhrase.axis (phrase : AxisPhrase) : Except PhraseError Axis := do
  -- The numbers are converted in the order in which they are written, and
  -- the first that fails is told.
  let start ← phrase.start.value
  let step ← Numeral.value? phrase.step
  let count ← phrase.count.value
  let size ← phrase.size.value
  -- Only the step has a default.
  let axis : Axis := ⟨start, step.getD 1, count, size⟩
  if axis.Valid then return axis
  -- The message about the last index has to write it.
  else if 0 < axis.step ∧ 0 < axis.count ∧ ¬ Writable axis.last then throw .longNumeral
  else throw (.invalidAxis axis phrase.before phrase.after)

/-- The bounds that are written. -/
def BoundsPhrase.values (phrase : BoundsPhrase) : Except PhraseError (Option Int × Option Int) := do
  -- Nothing asks for the bounds to be in order.
  let lower ← Numeral.value? phrase.lower
  let upper ← Numeral.value? phrase.upper
  return (lower, upper)

/-- The region that is written. -/
def Phrase.region (phrase : Phrase) : Except PhraseError Region := do
  -- An object in a phrase is always a name, even if it looks like a number.
  let object := some (Identity.name (String.ofList phrase.name))
  match phrase.form with
  | .bytes bounds =>
    let (lower, upper) ← bounds.values
    return { object, kind := .flat, lower, upper }
  | .dims axes element =>
    -- The first axis that is not well formed is told, before the element size is converted.
    let axes ← axes.mapM AxisPhrase.axis
    let upper ← Numeral.value? element
    return { object, kind := .perAxis, upper, axes }
  | .whole bounds =>
    let (lower, upper) ← bounds.values
    return { object, kind := .whole, lower, upper }

/-- The region that a text describes. -/
def readRegion (text : String) : Except PhraseError Region :=
  -- The whole text is read before any number in it is converted.
  match Phrase.read text.toList with
  | .ok phrase => phrase.region
  | .error rest => .error (.unexpected rest)

/-- Line and column of the place before a rest of the text. -/
def placeBefore (text : List Char) (rest : Nat) : Int × Int :=
  -- The rest is known by its length, so the place is where it begins.
  let before := text.take (text.length - rest)
  let line := before.count '\n' + 1
  -- The column counts the characters since the last line break.
  let column := (before.reverse.takeWhile (· ≠ '\n')).length + 1
  (line, column)

/-- The message for a text that is not a phrase: the token or character in the way, or the end. -/
def unexpectedMessage : List Char → String
  -- At the end there is no token to show.
  | [] => "unexpected end of location"
  | c :: rest =>
    match anyToken (c :: rest) with
    | some token => "unexpected `" ++ String.ofList token ++ "`"
    | none => "unexpected character `" ++ String.ofList [c] ++ "`"

/-- How a region is written. -/
def regionHelp : String :=
  -- The three forms and what may be left out of them.
  "expected `NAME bytes [LOW, HIGH)`, `NAME dims(...) [elem N]` or `NAME whole`"

/-- How an axis is written. -/
def axisHelp : String :=
  -- The step stands in brackets, as it may be left out.
  "a dimension reads `START [step STEP] count COUNT of SIZE`, SIZE 0 = unknown"

/-- The error as a diagnostic about the named text. -/
def PhraseError.sourceError? (file text : String) : PhraseError → Option SourceError
  | .unexpected rest =>
    -- Reading stops at one place, so the end of the place stays open.
    let (line, column) := placeBefore text.toList rest.length
    some {
      diagnostic := {
        message := unexpectedMessage rest
        span := some ⟨file, line, column, 0, 0⟩
        code := some syntaxCode
        help := some regionHelp }
      source := some text }
  | .invalidAxis axis before after =>
    -- The axis is marked from its first to its last digit.
    let (line, column) := placeBefore text.toList before
    let (endLine, endColumn) := placeBefore text.toList after
    some {
      diagnostic := {
        message := "invalid dimension: " ++ axis.flaw
        span := some ⟨file, line, column, endLine, endColumn⟩
        code := some invalidAxisCode
        help := some axisHelp
        -- The same words stand in the message and at the mark.
        label := some axis.flaw }
      source := some text }
  -- A number that cannot be converted is no fault of the text, and has no place.
  | .longNumeral => none

end Overlap
