import Overlap.Command.Run

/-! The program on the command line. -/

open scoped Overlap.Limits

/-- Runs the program with its arguments and the settings of its environment. -/
def main (arguments : List String) : IO UInt32 := do
  -- Both settings are read before the arguments.
  let noColor ← IO.getEnv "NO_COLOR"
  let choice ← IO.getEnv "MEMRANGE_COLOR"
  match Overlap.Command.run arguments ⟨noColor, choice⟩ with
  | .ok console =>
    -- The log and the errors come first, on their own stream.
    IO.eprint console.err
    IO.print console.out
    return console.exit.toUInt32
  | .error failure =>
    IO.eprintln failure.message
    return 1
