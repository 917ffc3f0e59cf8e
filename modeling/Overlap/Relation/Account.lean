import Overlap.Relation.Intersect

/-! An account of a comparison: what was noticed on the way to its outcome, in order. -/

namespace Overlap

/-- One step of a comparison that is worth telling. -/
inductive Event where
  /-- A byte interval was to be expressed by the axes of an array. -/
  | reshaped (array target : Region) (result : Except Obstacle Region)
  /-- Two byte intervals were found apart, or not to be decided. -/
  | intervals (left right : Region) (meet : IntervalMeet)
  /-- Two arrays have different numbers of axes. -/
  | axisCounts (left right : Region)
  /-- Two arrays have elements of different sizes. -/
  | elementSizes (left right : Region)
  /-- One axis has different sizes in the two arrays. -/
  | axisSizes (axis : Nat) (left right : Axis)
  /-- An equation was set up and solved. -/
  | equation (a b c : Int)
  /-- More phases were skipped along an axis than the budget allows. -/
  | overBudget (whole part : Axis) (budget : Int)
  /-- Two axes were compared. -/
  | axisMeet (axis : Nat) (left right : Axis) (common : Option Axis)
  /-- All axes share indices. -/
  | solution (common : Region) (left right : List Region)

/-- A region in a summary: its state and its first axis. -/
def Region.summary (region : Region) : String :=
  -- Only a region of no object is called empty, which has nothing to do with its bytes.
  let state := if region.object = none then "Empty" else "Full"
  let content := match region.axes with
    -- A region without axes is shown in its written form.
    | [] => region.text
    -- Further axes are left out.
    | axis :: _ => s!"{axis.start} + {axis.step} * T, T in [0, {axis.count}), DimSize: {axis.size}"
  "\x7b" ++ state ++ " | " ++ content ++ "\x7d"

/-- The numbers in a summary of a region. -/
def Region.summaryNumbers (region : Region) : List Int :=
  match region.axes with
  -- These are the numbers of the text above, in another order.
  | [] => region.numbers
  | axis :: _ => axis.fields

/-- A summary of a solved comparison: leftover parts on the left, the shared part,
leftover parts on the right. -/
def solutionText (common : Region) (left right : List Region) : String :=
  -- Each part stands on a line of its own, also where there are no leftover parts.
  "\n".intercalate
    [ "[EQUATION] Solution:",
      "Left: " ++ " ".intercalate (left.map Region.summary),
      "Intersection: " ++ common.summary,
      "Right: " ++ " ".intercalate (right.map Region.summary) ]

/-- The equation with its solutions, or with the divisor that rules them out. -/
def equationText (a b c : Int) : String :=
  let equation := s!"[EQUATION] {a}*x + {b}*y = {c}"
  -- The solutions are computed again for the text, and not handed over.
  match solve a b c with
  | .ok (some solution) => equation ++ ": x = " ++ solution.x.text ++ ", y = " ++ solution.y.text
  -- A coefficient of zero does not get this far, so the divisor is the reason.
  | _ => equation ++ s!" has no solution (gcd {(commonDivisor a b).value})"

/-- The numbers in the text of an equation. -/
def equationNumbers (a b c : Int) : List Int :=
  match solve a b c with
  -- The numbers follow the text: lines where there are solutions, and the
  -- divisor where there are none.
  | .ok (some solution) => [a, b, c] ++ solution.x.fields ++ solution.y.fields
  | _ => [a, b, c, (commonDivisor a b).value]

namespace Event

/-- The part of the program that tells an event, or nothing for the steps of a trace. -/
def origin? : Event → Option String
  -- These names stand in front of the notes in a log.
  | .reshaped .. => some "memrange.analysis.delinearize"
  | .intervals .. => some "memrange.analysis.scalar"
  | .axisCounts .. | .elementSizes .. | .axisSizes .. => some "memrange.analysis.intersection"
  | .equation .. => some "memrange.analysis.equation"
  | .overBudget .. => some "memrange.analysis.complement"
  -- The steps of a trace have no name, which tells them from notes.
  | .axisMeet .. | .solution .. => none

/-- What an event says. -/
def text : Event → String
  | .reshaped array target result =>
    match result with
    | .ok region => "[DELINEARIZE] " ++ target.text ++ " -> " ++ region.text
    -- An interval that was not suited is never told, so this text does not show.
    | .error .unsuited => "[DELINEARIZE] " ++ target.text
    | .error (.unknownSize axis) =>
      s!"[DELINEARIZE] axis {axis} of " ++ array.text ++ " has unknown size"
    | .error (.beyond bytes) =>
      "[DELINEARIZE] " ++ target.text ++ s!" exceeds the object ({bytes} bytes)"
    | .error (.partlyCovered axis) =>
      "[DELINEARIZE] " ++ target.text ++ s!": axis {axis} is partially covered"
    | .error (.severalRows axis) =>
      "[DELINEARIZE] " ++ target.text ++ s!" spans several rows of axis {axis}"
  | .intervals left right meet =>
    let verdict := match meet with
      | .undecided => " may overlap (open bound)"
      -- Intervals that share bytes are not told, so this is the only other case.
      | _ => " are disjoint"
    "[SCALAR] " ++ left.text ++ " and " ++ right.text ++ verdict
  | .axisCounts left right =>
    "[EQUATION] axis count mismatch: " ++ left.text ++ " vs " ++ right.text
  | .elementSizes left right =>
    "[EQUATION] element size mismatch: " ++ left.text ++ " vs " ++ right.text
  | .axisSizes axis left right => s!"[EQUATION] axis {axis}: size {left.size} vs {right.size}"
  | .equation a b c => equationText a b c
  | .overBudget whole part budget =>
    -- The number of phases is what exceeds the budget, and not that of the leftover parts.
    "[COMPLEMENT] " ++ whole.text ++ " \\ " ++ part.text ++
      s!": {part.phases whole} phases exceed threshold {budget}"
  | .axisMeet axis left right common =>
    -- An axis without common indices ends the comparison, and is told all the same.
    let result := match common with
      | some common => common.text
      | none => "empty"
    s!"[EQUATION] axis {axis}: (" ++ left.text ++ ") & (" ++ right.text ++ ") = " ++ result
  | .solution common left right => solutionText common left right

/-- The numbers in what an event says. -/
def numbers : Event → List Int
  | .reshaped array target result =>
    -- Each case has the numbers of the text with that reason.
    match result with
    | .ok region => target.numbers ++ region.numbers
    | .error .unsuited => target.numbers
    | .error (.unknownSize _) => array.numbers
    | .error (.beyond bytes) => bytes :: target.numbers
    | .error (.partlyCovered _) | .error (.severalRows _) => target.numbers
  | .intervals left right _ | .axisCounts left right | .elementSizes left right =>
    left.numbers ++ right.numbers
  | .axisSizes _ left right => [left.size, right.size]
  | .equation a b c => equationNumbers a b c
  | .overBudget whole part budget => part.phases whole :: budget :: whole.fields ++ part.fields
  | .axisMeet _ left right common =>
    -- A common part that does not exist holds no numbers.
    left.fields ++ right.fields ++ common.toList.flatMap Axis.fields
  | .solution common left right => (common :: left ++ right).flatMap Region.summaryNumbers

/-- The event is a step of a trace. -/
def isTrace (event : Event) : Bool :=
  -- Notes have an origin, and steps have none.
  event.origin?.isNone

end Event

/-- The lines of a trace, without the notes of the single operations. -/
def traceLines (events : List Event) : List String :=
  -- The order is that of the comparison.
  (events.filter Event.isTrace).map Event.text

/-- Tells that a difference is over budget, for a side whose leftover parts are still collected. -/
def tellBudget (whole part : Axis) (budget : Int) (collecting : Bool) : List Event :=
  -- A side whose parts are not wanted, or already too many, is not told about.
  if collecting && part.phases whole > budget then [.overBudget whole part budget] else []

/-- The steps of comparing two lists of axes; a side stops collecting once it is over budget. -/
def tellAxes (budget : Int) (number : Nat) (wanted : Wanted) : List Axis → List Axis → List Event
  | left :: lefts, right :: rights =>
    -- Sizes that differ end the comparison before any equation.
    if left.size ≠ right.size then [.axisSizes number left right]
    else
      -- Axes that lie apart are compared without an equation.
      let equation := if left.Apart right then []
        else [.equation left.step (-right.step) (right.start - left.start)]
      let common := (left.meet right).toOption.join
      let rest := match common with
        | none => []
        | some part =>
          let leftOver := tellBudget left part budget wanted.left
          let rightOver := tellBudget right part budget wanted.right
          let still : Wanted :=
            -- A side that went over its budget collects nothing on the axes further inside.
            ⟨wanted.left && leftOver.isEmpty, wanted.right && rightOver.isEmpty⟩
          leftOver ++ rightOver ++ tellAxes budget (number + 1) still lefts rights
      equation ++ .axisMeet number left right common :: rest
  | _, _ => []

/-- Tells how a byte interval was brought into the shape of an array. -/
def tellShapes (left right : Region) : List Event :=
  let tell (array target : Region) : List Event :=
    -- The shape is computed again for the account.
    match array.reshape target with
    | .error .unsuited => []
    | result => [.reshaped array target result]
  match left.kind, right.kind with
  -- The array is the side that is given per axis, whichever it is.
  | .flat, .perAxis => tell right left
  | .perAxis, .flat => tell left right
  | _, _ => []

/-- The steps of comparing two byte intervals. -/
def tellIntervals (left right : Region) : List Event :=
  match left.meetBytes right with
  -- Only these two verdicts are told.
  | .apart => [.intervals left right .apart]
  | .undecided => [.intervals left right .undecided]
  | _ => []

/-- The steps of comparing two arrays. -/
def tellArrays (left right : Region) (budget : Int) (wanted : Wanted) : List Event :=
  -- The order is that of the tests in the comparison itself.
  if left.axes.length ≠ right.axes.length then [.axisCounts left right]
  else if left.upper ≠ right.upper then [.elementSizes left right]
  else if left.lower = right.lower ∧ left.axes = right.axes then []
  else tellAxes budget 0 wanted left.axes right.axes

/-- Everything worth telling on the way to an answer: how a shape was found, and
the steps of the comparison. -/
def tellSteps (left right : Region) (budget : Int) (wanted : Wanted) : List Event :=
  -- Regions of different objects are not compared, so there is nothing to tell.
  if ¬ Region.SameObject left.object right.object then []
  else
    let shaped := Region.alignShapes left right
    -- What is compared are the shapes that were found, and not the regions as given.
    let steps := match shaped.1.kind, shaped.2.kind with
      | .flat, .flat => tellIntervals shaped.1 shaped.2
      | .perAxis, .perAxis => tellArrays shaped.1 shaped.2 budget wanted
      | _, _ => []
    tellShapes left right ++ steps

/-- Sums up an exact answer that was found axis by axis. -/
def tellSummary (left right : Region) (answer : Comparison) : List Event :=
  let shaped := Region.alignShapes left right
  -- Equal arrays are answered without a look at their axes.
  if shaped.1.lower = shaped.2.lower ∧ shaped.1.axes = shaped.2.axes then []
  else match shaped.1.kind, answer.outcome.shared? with
    | .perAxis, some common => [.solution common answer.left answer.right]
    | _, _ => []

/-- Everything worth telling about a comparison that had the given answer. -/
def account (left right : Region) (budget : Int) (wanted : Wanted) (answer : Comparison) :
    List Event :=
  -- The summary comes last, as it needs the answer.
  tellSteps left right budget wanted ++ tellSummary left right answer

end Overlap
