import Overlap.Fault
import Overlap.Number.Word

/-! What the machine that runs the program can hold. -/

namespace Overlap

/-- Bytes of a word. -/
def wordBytes : Nat := 8

/--
How much memory there is, and how deeply calls may be nested.

Nothing is assumed of the machine beyond what the program relies on to write and list small things.
-/
class Limits where
  /-- Bytes that one list or one text may take. -/
  memoryBytes : Nat
  /-- The deepest nesting that is broken into lines. -/
  maxPrettyHeight : Nat
  /-- The deepest nesting that is written on a single line. -/
  maxCompactHeight : Nat
  /-- The most lists that may be open at once while a text is read. -/
  maxOpenLists : Nat
  /-- There is memory for one word. -/
  word_le_memory : wordBytes ≤ memoryBytes
  -- A list is counted in double precision before its words are allotted.
  /-- The words that fit into memory are counted without rounding. -/
  memory_lt_exact : memoryBytes < wordBytes * 0x20000000000000
  /-- Two blanks for each level fit into memory. -/
  indents_le_memory : 2 * maxPrettyHeight ≤ memoryBytes
  /-- An outcome with the axes of its regions is not nested too deeply to be written. -/
  outcome_le_compact : 5 ≤ maxCompactHeight
  /-- What is written on a single line can be broken into lines as well. -/
  compact_le_pretty : maxCompactHeight ≤ maxPrettyHeight
  /-- What is written on a single line can be read. -/
  compact_lt_open : maxCompactHeight < maxOpenLists

export Limits (memoryBytes maxPrettyHeight maxCompactHeight maxOpenLists)

namespace Limits

/-- An ordinary machine: eight gibibytes, and a thousand nested calls. -/
scoped instance ordinary : Limits where
  -- Of a thousand calls, a level takes two on lines, four on one line, and one while it is read.
  memoryBytes := 0x200000000
  maxPrettyHeight := 496
  maxCompactHeight := 245
  maxOpenLists := 985
  word_le_memory := by decide
  memory_lt_exact := by decide
  indents_le_memory := by decide
  outcome_le_compact := by decide
  compact_le_pretty := by decide
  compact_lt_open := by decide

end Limits

/-- Accepts that many bytes. -/
def checkBytes [Limits] (bytes : Nat) : Except Fault Unit :=
  -- Exactly as much as there is may be asked for.
  if memoryBytes < bytes then .error .outOfMemory else .ok ()

/-- Accepts a list of that many words. Its bytes have to be countable by a word, and to fit into
memory. -/
def checkWords [Limits] (count : Nat) : Except Fault Unit :=
  -- The number of bytes is computed in a word before any memory is asked for.
  if 0x8000000000000000 ≤ count * wordBytes then .error .tooMany
  else checkBytes (count * wordBytes)

/-- Accepts a text of the given length, repeated a number of times. The number of times and the
length of the result have to be words, and the result has to fit into memory. -/
def checkRepeat [Limits] (length : Nat) (times : Int) : Except Fault Unit :=
  -- A negative number of times is a word as well, and repeats nothing.
  if ¬ Word.Fits times ∨ 0x8000000000000000 ≤ length * times.toNat then .error .wordOverflow
  else checkBytes (length * times.toNat)

end Overlap
