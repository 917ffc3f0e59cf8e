import Overlap.Diagnostic.Reporter
import Overlap.Footprint.Verify
import Overlap.Phrase.Region
import Overlap.Relation.Told

/-! Comparing two written regions: text in, report out. -/

namespace Overlap

/-- A line about the course of a comparison: a note with its origin, or a
step of the trace without one. -/
structure LogLine where
  -- The origin is kept, since it decides when a line is printed.
  origin : Option String
  text : String
deriving DecidableEq, Repr

/-- What an event says, as a line. -/
def Event.line (event : Event) : LogLine :=
  -- The text is made when the event is told, and not when it is printed.
  ⟨event.origin?, event.text⟩

/-- Notes on a text that is not a region. -/
def PhraseError.lines : PhraseError → List LogLine
  -- Only an axis that was refused is noted, in both of its forms.
  | .invalidAxis axis _ _ =>
    [⟨some "memrange.frontend.transformer",
      "[PARSER] rejected dimension " ++ axis.record ++ ": " ++ axis.flaw⟩]
  | _ => []

/-- What a comparison found. -/
structure Report where
  -- A text that was not read leaves its region out.
  left : Option Region := none
  right : Option Region := none
  outcome : Option Outcome := none
  leftParts : List Region := []
  rightParts : List Region := []
  problems : List String := []
  reporter : Reporter := {}
  log : List LogLine := []

namespace Report

/-- Something was reported as wrong with the texts. -/
def hasErrors (report : Report) : Bool :=
  -- Problems with the outcome do not count here.
  report.reporter.hasErrors

/-- There is an outcome, and nothing was wrong with the texts. -/
def success (report : Report) : Bool :=
  -- An outcome without errors is a success, whatever problems it has.
  report.outcome.isSome && !report.hasErrors

/-- The steps of the trace. -/
def trace (report : Report) : List String :=
  -- Notes are not part of it.
  (report.log.filter fun line => line.origin.isNone).map LogLine.text

/-- A summary to be read. -/
def text (report : Report) : String :=
  match report.outcome with
  | none => "no result"
  | some outcome =>
    -- The region and the leftover parts are shown for an exact outcome only.
    let found := if outcome.relation = .exact then
        ["intersection: " ++ (outcome.region.map Region.text).getD "None"] ++
          report.leftParts.map ("left: " ++ ·.text) ++ report.rightParts.map ("right: " ++ ·.text)
      else []
    "\n".intercalate
      -- Problems come last, for any outcome.
      (["relation: " ++ outcome.relation.word] ++ found ++ report.problems.map ("problem: " ++ ·))

/-- The numbers in a summary. -/
def numbers (report : Report) : List Int :=
  match report.outcome with
  | none => []
  | some outcome =>
    -- A region that goes with another relation is not written, and the
    -- leftover parts are not either.
    outcome.numbers ++ if outcome.relation = .exact then
        (report.leftParts ++ report.rightParts).flatMap Region.numbers
      else []

/-- A summary to be read, unless it holds a number that is too long. -/
def textTold (report : Report) : Except Fault String :=
  -- Problems are texts already, and their numbers were checked when they were made.
  written report.numbers report.text

end Report

/-- Why a comparison of texts gives no report. -/
inductive Failure where
  /-- A number in a text has too many digits. -/
  | longNumeral
  /-- There is no text to be read. -/
  | noText
  /-- The budget is not a number. -/
  | noBudget
  | fault (cause : Fault)
deriving DecidableEq, Repr

/-- The wording of a failure. -/
def Failure.message : Failure → String
  -- The wording does not say which number it was, as the text does not show it.
  | .longNumeral => "a number has too many digits"
  | .noText => "a text is missing"
  | .noBudget => "the threshold is missing"
  | .fault cause => cause.message

/-- What was read from one text: a region, or nothing with the error in the reporter. -/
def readReporting (file text : String) (report : Report) :
    Except Failure (Option Region × Report) :=
  match readRegion text with
  | .ok region => .ok (some region, report)
  | .error error =>
    -- A number that is too long has no place that could be reported.
    match error.sourceError? file text with
    | none => .error .longNumeral
    | some sourceError =>
      -- Errors do not stop the reading, so that the other text is looked at as well.
      .ok (none, { report with
        reporter := report.reporter.reportError sourceError, log := report.log ++ error.lines })

/-- Disagreements of a comparison with the listed addresses, or the
reason why there are no lists. -/
def checkProblems [Limits] (left right : Region) (comparison : Comparison) :
    Except Failure (List String) :=
  match comparison.verifyTold left right with
  | .ok problems => .ok problems
  -- Addresses that cannot be listed are a problem to be shown, and no failure.
  | .error (.unlisted cause) => .ok ["cannot verify: " ++ cause.message]
  | .error fault => .error (.fault fault)

/-- The numbers in the note on a comparison. -/
def noteNumbers (left right : Region) (outcome : Outcome) : List Int :=
  -- The note shows both regions as given, before they were brought into one shape.
  left.numbers ++ right.numbers ++ outcome.numbers

/-- Compares two regions that were read, and checks the outcome on demand. -/
def compareRegions [Limits] (left right : Region) (budget : Int) (check traced : Bool)
    (report : Report) : Except Failure Report := do
  -- All leftover parts are wanted for a report.
  let (comparison, events) ← (left.intersectTold right budget {} traced).mapError .fault
  let note ← (written (noteNumbers left right comparison.outcome)
    (left.text ++ " vs " ++ right.text ++ ": " ++ comparison.outcome.text)).mapError .fault
  -- Without a check there are no problems.
  let problems ← if check then checkProblems left right comparison else pure []
  return { report with
    outcome := some comparison.outcome
    leftParts := comparison.left
    rightParts := comparison.right
    problems := problems
    -- The note on the whole comparison comes after the events that led to it.
    log := report.log ++ events.map Event.line ++ [⟨some "memrange.driver", note⟩] }

/-- Compares two written regions. Both texts are read before anything is compared, so that errors in
both are reported; the second one may be missing. -/
def compareTexts [Limits] (leftText : String) (rightText : Option String)
    (budget : Int := defaultBudget) (check traced : Bool := false) : Except Failure Report := do
  -- The texts have names of their own, under which the reporter keeps them.
  let (left, report) ← readReporting "<lhs>" leftText {}
  match rightText with
  -- The first text was read by then, and what was found in it is lost.
  | none => throw .noText
  | some rightText =>
    let (right, report) ← readReporting "<rhs>" rightText report
    -- The regions are part of the report even if there is no comparison.
    let report := { report with left, right }
    match left, right with
    | some left, some right => compareRegions left right budget check traced report
    | _, _ => return report

end Overlap
