import Overlap.Command.Arguments
import Overlap.Report
import Overlap.Sexp.Encode

/-! The command line program: from its arguments to its output. -/

namespace Overlap.Command

/-- What a run of the program leaves behind. -/
structure Console where
  -- The status follows what was found: problems and misuse count as two, refused texts as one.
  exit : Nat
  out : String := ""
  err : String := ""
deriving DecidableEq, Repr

/-- How the program is called. -/
def usageText : String :=
  "usage: memrange [-h] [--threshold THRESHOLD] [--sexpr] [--trace] [--verify]\n" ++
  "                [-v]\n" ++
  "                lhs rhs\n"

/-- What the program does, and what its arguments mean. -/
def helpText : String :=
  usageText ++
  "\nRelate two memory location ranges of the same object.\n" ++
  "\npositional arguments:\n" ++
  "  lhs                   Left location, e.g. 'A bytes [0, 40)'\n" ++
  "  rhs                   Right location\n" ++
  "\noptions:\n" ++
  "  -h, --help            show this help message and exit\n" ++
  "  --threshold THRESHOLD\n" ++
  "                        Complement fragment budget per axis (default: 10)\n" ++
  "  --sexpr               Print the result as an S-expression\n" ++
  "  --trace               Print the equation solving trace\n" ++
  "  --verify              Cross-check the result by brute force\n" ++
  "  -v, --verbose         Enable debug logging\n" ++
  "\nexample: memrange \"A dims(0 step 2 count 5 of 10)\" \"A dims(0 count 10 of 10)\"\n"

/-- A line of the log as it is printed: notes when they are asked for,
and steps when the trace is. -/
def printedLine? (settings : Settings) (line : LogLine) : Option String :=
  -- A note names where it comes from, and a step of the trace does not.
  match line.origin with
  | some origin => if settings.verbose then some (origin ++ ": " ++ line.text ++ "\n") else none
  | none => if settings.trace then some (line.text ++ "\n") else none

/-- Everything that is printed about the course of a comparison. -/
def printedLog (settings : Settings) (log : List LogLine) : String :=
  -- Lines keep their order, whatever their kind.
  String.join (log.filterMap (printedLine? settings))

/-- The outcome as it is printed. -/
def printedReport [Limits] (settings : Settings) (report : Report) : Except Fault String := do
  match settings.sexpr, report.outcome with
  -- The nested form replaces the outcome only, so problems follow it as lines of their own.
  | true, some outcome =>
    let text ← (outcome.toSexp (some report.leftParts) (some report.rightParts)).writeTold true
    return text ++ "\n" ++
      String.join (report.problems.map fun problem => "problem: " ++ problem ++ "\n")
  -- Without an outcome there is nothing to nest.
  | _, _ => return (← report.textTold) ++ "\n"

/-- Runs a comparison with the given settings. -/
def runSettings [Limits] (settings : Settings) (colors : ColorSettings) :
    Except Failure Console := do
  -- A value that two dashes have taken away is missed as soon as it is used, the budget first.
  match settings.budget, settings.left with
  | none, _ => throw .noBudget
  | _, none => throw .noText
  | some budget, some left =>
    let report ← compareTexts left settings.right budget settings.verify settings.trace
    let log := printedLog settings report.log
    -- A comparison that was carried out is printed, whatever it found.
    if report.success then
      let out ← (printedReport settings report).mapError .fault
      return ⟨if report.problems.isEmpty then 0 else 2, out, log⟩
    else
      -- Otherwise only the diagnostics are shown, behind the log.
      return ⟨1, "", log ++ report.reporter.renderAll colors.enabled ++ "\n"⟩

/-- Runs the program. -/
def run [Limits] (arguments : List String) (colors : ColorSettings) : Except Failure Console :=
  match parse arguments with
  -- Help and misuse end the run before anything is read.
  | .ok settings => runSettings settings colors
  | .error .help => .ok ⟨0, helpText, ""⟩
  | .error (.usage message) => .ok ⟨2, "", usageText ++ "memrange: error: " ++ message ++ "\n"⟩

end Overlap.Command
