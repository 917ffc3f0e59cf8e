import Overlap.Relation.Intersect
import Overlap.Text.Integer
import Overlap.Text.Quoted

/-! The arguments of the command line. -/

namespace Overlap.Command

/-- The options of the command line. -/
inductive Switch where
  | help
  | threshold
  | sexpr
  | trace
  | verify
  | verbose
deriving DecidableEq, Repr

/-- The spellings of the options, in the order in which they are offered. -/
def spellings : List (String × Switch) :=
  -- The order shows where several options match an abbreviation.
  [ ("-h", .help), ("--help", .help), ("--threshold", .threshold), ("--sexpr", .sexpr),
    ("--trace", .trace), ("--verify", .verify), ("-v", .verbose), ("--verbose", .verbose) ]

/-- The name of an option in messages, which has all of its spellings. -/
def Switch.name (switch : Switch) : String :=
  -- An option with a single spelling is named by that one alone.
  "/".intercalate ((spellings.filter fun (_, other) => other = switch).map Prod.fst)

/-- What an argument is taken for. -/
inductive Argument where
  | positional
  /-- The mark behind which there are no options. -/
  | dashes
  /-- An option, spelled short or not, with a value in the same argument. -/
  | option (switch : Switch) (short : Bool) (value : Option String)
  /-- An option that does not exist. -/
  | unknown
deriving DecidableEq, Repr

/-- What was asked for on the command line. A value is missing where
two dashes stand in its place. -/
structure Settings where
  -- Both texts are missing until the positional arguments are counted.
  left : Option String := none
  right : Option String := none
  budget : Option Int := some defaultBudget
  sexpr : Bool := false
  trace : Bool := false
  verify : Bool := false
  verbose : Bool := false
deriving DecidableEq, Repr

/-- Why the arguments are not acted upon: help was asked for, or they are wrong. -/
inductive Stop where
  | help
  | usage (message : String)
deriving DecidableEq, Repr

/-- A message about one option. -/
def aboutSwitch (switch : Switch) (message : String) : Stop :=
  -- The text is the same for all options, which differ in their names only.
  .usage ("argument " ++ switch.name ++ ": " ++ message)

/-- A value that an option does not take. -/
def ignoredValue (switch : Switch) (value : String) : Stop :=
  -- The value is quoted as a literal, so that blanks and control characters in it can be seen.
  aboutSwitch switch ("ignored explicit argument " ++ quotedText value)

/-- A text before and behind its first equals sign, if it has one. -/
def splitValue (text : List Char) : List Char × Option (List Char) :=
  -- Only the first sign counts, so a value may hold further ones.
  match text.span (· ≠ '=') with
  | (front, _ :: value) => (front, some value)
  | (front, []) => (front, none)

/-- A negative number, which is no option: digits, or a fraction. -/
def isNegativeNumber (text : List Char) : Bool :=
  let isDecimal (c : Char) := (decimalValue? c).isSome
  match text with
  | '-' :: unsigned =>
    -- A line break at the end does not count.
    let number := if unsigned.getLast? == some '\n' then unsigned.dropLast else unsigned
    match number.span isDecimal with
    -- Digits alone, but at least one of them.
    | (whole, []) => !whole.isEmpty
    -- Nothing has to stand in front of the point, but a digit has to follow it.
    | (_, '.' :: fraction) => !fraction.isEmpty && fraction.all isDecimal
    | _ => false
  | _ => false

/-- Options that an argument may stand for, when it is not spelled out in full: a long option may be
cut short, and a short one may have more behind it. -/
def abbreviated (text : List Char) : List (String × Argument) :=
  match text with
  | '-' :: '-' :: _ =>
    -- The value is split off first, as a name that was cut short may still have one.
    let (front, value) := splitValue text
    (spellings.filter fun (spelling, _) => front.isPrefixOf spelling.toList).map
      fun (spelling, switch) => (spelling, .option switch false (value.map String.ofList))
  | '-' :: letter :: more =>
    -- Two characters are enough to name a short option, and the rest is its value.
    (spellings.filter fun (spelling, _) => spelling.toList = ['-', letter]).map
      fun (spelling, switch) => (spelling, .option switch true (some (String.ofList more)))
  | _ => []

/-- A short option is one dash and one letter. -/
def isShort (spelling : List Char) : Bool :=
  -- A long option has two dashes, so none of them is as short.
  spelling.length = 2

/-- What one argument is taken for. -/
def classify (argument : String) : Except Stop Argument :=
  let text := argument.toList
  -- A spelling in full is found before any abbreviation of it is considered.
  let spelled (front : List Char) := spellings.lookup (String.ofList front)
  match text with
  | '-' :: _ :: _ =>
    -- The whole argument may be a spelling, also where it holds an equals sign.
    match spelled text with
    | some switch => .ok (.option switch (isShort text) none)
    | none =>
      let (front, value) := splitValue text
      match spelled front, value with
      | some switch, some value => .ok (.option switch (isShort front) (some (String.ofList value)))
      | _, _ =>
        match abbreviated text with
        | [(_, option)] => .ok option
        | [] =>
          -- Texts with blanks are values even where they start with a dash.
          if isNegativeNumber text || text.contains ' ' then .ok .positional else .ok .unknown
        | several =>
          .error (.usage ("ambiguous option: " ++ argument ++ " could match " ++
            ", ".intercalate (several.map Prod.fst)))
  | _ => .ok .positional

/-- Turns an option on. -/
def Settings.enable (settings : Settings) : Switch → Except Stop Settings
  | .help => .error .help
  | .sexpr => .ok { settings with sexpr := true }
  | .trace => .ok { settings with trace := true }
  | .verify => .ok { settings with verify := true }
  | .verbose => .ok { settings with verbose := true }
  -- The budget is not a matter of turning something on.
  | .threshold => .error (aboutSwitch .threshold "expected one argument")

/-- Turns several options on, in order. -/
def Settings.enableAll (settings : Settings) : List Switch → Except Stop Settings
  | [] => .ok settings
  | switch :: rest => do
    -- The first option that stops the run hides those behind it.
    let settings ← settings.enable switch
    settings.enableAll rest

/-- Two dashes, which end the options and are no value themselves. -/
def dashes : String := "--"

/-- What all arguments are taken for; behind two dashes all of them are positional. -/
def classifyAll : List String → Except Stop (List (String × Argument))
  | [] => .ok []
  | argument :: rest =>
    if argument = dashes then
      -- Even what looks like an option is a value from here on.
      .ok ((argument, .dashes) :: rest.map fun other => (other, .positional))
    else do
      -- An argument that is ambiguous stops the run before the ones behind it are looked at.
      let first ← classify argument
      let others ← classifyAll rest
      return (argument, first) :: others

/-- Sets the budget. -/
def Settings.setBudget (settings : Settings) (value : String) : Except Stop Settings :=
  -- Two dashes are taken away as if they were no value, and then the budget is missing.
  if value = dashes then .ok { settings with budget := none }
  else match integer? value.toList with
  | some budget => .ok { settings with budget := some budget }
  | none => .error (aboutSwitch .threshold ("invalid int value: " ++ quotedText value))

/-- The options in an argument of several letters behind one dash. -/
def shortSwitches (switch : Switch) : List Char → Except Stop (List Switch)
  | [] => .ok [switch]
  | letter :: more =>
    -- Every letter has to be an option of its own, as no short option takes a value.
    match spellings.lookup (String.ofList ['-', letter]) with
    | some next => (shortSwitches next more).map (switch :: ·)
    | none => .error (ignoredValue switch (String.ofList (letter :: more)))

/-- Acts upon an option that has a value in the same argument. -/
def Settings.applyValue (settings : Settings) (switch : Switch) (short : Bool) (value : String) :
    Except Stop Settings :=
  -- The budget is the only option that takes a value.
  if switch = .threshold then settings.setBudget value
  -- Letters behind one dash are options again, unless nothing follows the first of them.
  else if short && !value.isEmpty then do
    let switches ← shortSwitches switch value.toList
    settings.enableAll switches
  else .error (ignoredValue switch value)

/-- Positional arguments that were found so far, and those for which there is no place. -/
structure Found where
  -- Settings start from their defaults, and options change them one at a time.
  settings : Settings := {}
  positionals : List (Option String) := []
  extras : List String := []

/-- The number of positional arguments. -/
def positionalCount : Nat := 2

/-- Another positional argument is wanted. -/
def Found.incomplete (found : Found) : Bool :=
  -- A missing value counts as well, once two dashes have taken its place.
  found.positionals.length < positionalCount

/-- Notes an argument for which there is no place. -/
def Found.extra (found : Found) (argument : String) : Found :=
  -- They are only reported at the end, all of them at once.
  { found with extras := found.extras ++ [argument] }

/-- What stands right before an argument. -/
inductive Before where
  /-- A positional argument that was taken. -/
  | taken
  /-- Two dashes that go with the next positional argument. -/
  | dashes
  | other
deriving DecidableEq, Repr

/-- Two dashes go with a positional argument that was taken right before them. -/
def dashesBehind (before : Before) : Bool :=
  -- Anything else that comes between them keeps the dashes for what follows.
  before = .taken

/-- Two dashes go with the positional argument right behind them, if that is taken. -/
def dashesAhead (found : Found) : List (String × Argument) → Bool
  -- Nothing is taken any more once both arguments are there.
  | (_, .positional) :: _ => found.incomplete
  | _ => false

/-- The value of a positional argument. Of the two dashes that go with it the first are dropped, so
that none is left of an argument that is nothing else. -/
def positionalValue (argument : String) (before : Before) : Option String :=
  -- Behind dashes that are dropped already, an argument of two dashes is a text like any other.
  if argument = dashes ∧ before ≠ .dashes then none else some argument

/-- Takes a positional argument. -/
def Found.take (found : Found) (argument : String) (before : Before) : Found :=
  -- The order of the arguments tells left from right.
  { found with positionals := found.positionals ++ [positionalValue argument before] }

/-- Acts upon the arguments from left to right. -/
def act (found : Found) (before : Before) : List (String × Argument) → Except Stop Found
  | [] => .ok found
  | (argument, .positional) :: rest =>
    -- A third argument has no place.
    if found.incomplete then act (found.take argument before) .taken rest
    else act (found.extra argument) .other rest
  | (argument, .dashes) :: rest =>
    -- Dashes that go with neither side are an argument without a place.
    if dashesBehind before then act found .other rest
    else if dashesAhead found rest then act found .dashes rest
    else act (found.extra argument) .other rest
  | (argument, .unknown) :: rest => act (found.extra argument) .other rest
  | (_, .option switch short (some value)) :: rest => do
    let settings ← found.settings.applyValue switch short value
    act { found with settings } .other rest
  -- Only the budget looks at the argument behind it, and only if that is no option.
  | (_, .option .threshold _ none) :: (value, .positional) :: rest => do
    let settings ← found.settings.setBudget value
    act { found with settings } .other rest
  | (_, .option switch _ none) :: rest => do
    let settings ← found.settings.enable switch
    act { found with settings } .other rest

/-- A budget that is a number has to be one that can be spent. -/
def Settings.acceptable (settings : Settings) : Bool :=
  match settings.budget with
  -- Zero is a budget: nothing may be split then.
  | some budget => 0 ≤ budget
  | none => true

/-- The settings that the arguments ask for. -/
def parse (arguments : List String) : Except Stop Settings := do
  -- All arguments are classified before the first of them has an effect.
  let classified ← classifyAll arguments
  let found ← act {} .other classified
  match found.positionals with
  | [left, right] =>
    -- Arguments without a place are reported before the budget is looked at.
    if found.extras.isEmpty then
      let settings := { found.settings with left, right }
      if settings.acceptable then return settings
      else throw (.usage "--threshold must be non-negative")
    else throw (.usage ("unrecognized arguments: " ++ " ".intercalate found.extras))
  -- The message names what is missing, from the first missing argument on.
  | [_] => throw (.usage "the following arguments are required: rhs")
  | _ => throw (.usage "the following arguments are required: lhs, rhs")

end Overlap.Command
