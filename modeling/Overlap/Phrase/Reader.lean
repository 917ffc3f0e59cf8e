import Overlap.Phrase.Basic
import Overlap.Phrase.Token

/-! Reading phrases. A reader takes its part from the front of a text; where it finds something else
it stops, and tells the text that is left there. -/

namespace Overlap.Phrase

/-- Text that is still to be read. -/
abbrev Rest := List Char

/-- Reads a keyword or a mark. -/
def readWord (keyword : String) (text : Rest) : Except Rest Rest :=
  -- Blanks in front are skipped, and a failure is told behind them.
  match behind? keyword.toList (skipBlanks text) with
  | some rest => .ok rest
  | none => .error (skipBlanks text)

/-- Reads a number. -/
def readNumeral (text : Rest) : Except Rest (Numeral × Rest) :=
  let here := skipBlanks text
  -- One digit is enough, and all that follow belong to it.
  match here.takeWhile isDigit with
  | [] => .error here
  | digits => .ok (digits, here.dropWhile isDigit)

/-- Reads a number if there is one. -/
def readNumeral? (text : List Char) : Option Numeral × List Char :=
  match readNumeral text with
  | .ok (digits, rest) => (some digits, rest)
  -- Blanks are not skipped when there is no number, so what follows is told from its own place.
  | .error _ => (none, text)

/-- Reads a name. -/
def readName (text : Rest) : Except Rest (List Char × Rest) :=
  -- A name is quoted or not, which its first character tells.
  match nameToken (skipBlanks text) with
  | some read => .ok read
  | none => .error (skipBlanks text)

/-- Reads an interval, behind the word for it: `[LOW, HIGH)`. -/
def readBounds (text : Rest) : Except Rest (BoundsPhrase × Rest) := do
  let text ← readWord "[" text
  -- Either bound may be left out, and the marks around it may not.
  let (lower, text) := readNumeral? text
  let text ← readWord "," text
  let (upper, text) := readNumeral? text
  let text ← readWord ")" text
  return (⟨lower, upper⟩, text)

/-- Reads the count and the size of an axis, behind its start and step. -/
def readExtent (text : Rest) : Except Rest ((Numeral × Numeral) × Rest) := do
  -- Neither number may be left out.
  let text ← readWord "count" text
  let (count, text) ← readNumeral text
  let text ← readWord "of" text
  let (size, text) ← readNumeral text
  return ((count, size), text)

/-- Reads the step of an axis if there is one. -/
def readStep (text : Rest) : Except Rest (Option Numeral × Rest) :=
  match readWord "step" text with
  -- Behind the keyword, a number has to follow.
  | .ok text => (readNumeral text).map fun (step, text) => (some step, text)
  | .error _ => .ok (none, text)

/-- Reads an axis: `START step STEP count COUNT of SIZE`. -/
def readAxis (text : Rest) : Except Rest (AxisPhrase × Rest) := do
  -- The place of an axis starts with its first digit, behind the blanks.
  let before := (skipBlanks text).length
  let (start, text) ← readNumeral text
  let (step, text) ← readStep text
  let ((count, size), text) ← readExtent text
  -- It ends with the last digit, before the blanks that follow.
  return (⟨start, step, count, size, before, text.length⟩, text)

/-- What is behind a given beginning is no longer than the text. -/
theorem behind?_length {keyword text rest : List Char} (found : behind? keyword text = some rest) :
    rest.length ≤ text.length := by
  -- Every character of the beginning takes one character of the text.
  induction keyword generalizing text with
  | nil =>
    simp only [behind?, Option.some.injEq] at found
    simp [found]
  | cons c keyword ih =>
    cases text with
    | nil => simp [behind?] at found
    | cons d text =>
      simp only [behind?] at found
      split at found
      · exact Nat.le_succ_of_le (ih found)
      · simp at found

/-- Blanks are only taken away. -/
theorem skipBlanks_length (text : List Char) : (skipBlanks text).length ≤ text.length :=
  -- What is left of a list behind a number of dropped items is a part of it.
  (List.dropWhile_sublist _).length_le

/-- A keyword is taken from the front. -/
theorem readWord_length {keyword : String} {text rest : List Char}
    (read : readWord keyword text = .ok rest) : rest.length ≤ text.length := by
  -- Blanks go first, and then the keyword.
  unfold readWord at read
  split at read
  · rename_i found
    cases read
    exact Nat.le_trans (behind?_length found) (skipBlanks_length text)
  · cases read

/-- A number has at least one digit. -/
theorem readNumeral_length {text : List Char} {read : Numeral × List Char}
    (succeeded : readNumeral text = .ok read) : read.2.length < text.length := by
  -- The digits in front and the rest make up the text behind the blanks.
  unfold readNumeral at succeeded
  dsimp only at succeeded
  split at succeeded
  · cases succeeded
  · rename_i nonempty
    have whole := congrArg List.length
      (List.takeWhile_append_dropWhile (p := isDigit) (l := skipBlanks text))
    cases succeeded
    have positive := List.length_pos_iff.mpr nonempty
    have blanks := skipBlanks_length text
    simp only [List.length_append] at whole
    dsimp only
    omega

/-- A step that is left out takes nothing. -/
theorem readStep_length {text : List Char} {read : Option Numeral × List Char}
    (succeeded : readStep text = .ok read) : read.2.length ≤ text.length := by
  -- Either the keyword and a number are taken, or the text stays.
  unfold readStep at succeeded
  split at succeeded
  · rename_i behind keyword
    cases number : readNumeral behind with
    | error stop => simp [number, Except.map] at succeeded
    | ok step =>
      simp only [number, Except.map, Except.ok.injEq] at succeeded
      subst succeeded
      have one := readWord_length keyword
      have two := readNumeral_length number
      dsimp only
      omega
  · cases succeeded
    exact Nat.le_refl _

/-- Count and size of an axis take some of the text. -/
theorem readExtent_length {text : List Char} {read : (Numeral × Numeral) × List Char}
    (succeeded : readExtent text = .ok read) : read.2.length < text.length := by
  -- Four parts follow each other, two of which are numbers.
  unfold readExtent at succeeded
  cases first : readWord "count" text with
  | error stop => simp [first, Bind.bind, Except.bind] at succeeded
  | ok afterCount =>
    cases second : readNumeral afterCount with
    | error stop => simp [first, second, Bind.bind, Except.bind] at succeeded
    | ok counted =>
      cases third : readWord "of" counted.2 with
      | error stop => simp [first, second, third, Bind.bind, Except.bind] at succeeded
      | ok afterOf =>
        cases fourth : readNumeral afterOf with
        | error stop => simp [first, second, third, fourth, Bind.bind, Except.bind] at succeeded
        | ok sized =>
          simp only [first, second, third, fourth, Bind.bind, Except.bind, Pure.pure, Except.pure,
            Except.ok.injEq] at succeeded
          subst succeeded
          -- No part makes the text longer, and the first one makes it shorter.
          have one := readWord_length first
          have two := readNumeral_length second
          have three := readWord_length third
          have four := readNumeral_length fourth
          dsimp only
          omega

/-- An axis takes some of the text. -/
theorem readAxis_length {text : List Char} {read : AxisPhrase × List Char}
    (succeeded : readAxis text = .ok read) : read.2.length < text.length := by
  -- The first number alone makes the text shorter.
  unfold readAxis at succeeded
  cases first : readNumeral text with
  | error stop => simp [first, Bind.bind, Except.bind] at succeeded
  | ok started =>
    cases second : readStep started.2 with
    | error stop => simp [first, second, Bind.bind, Except.bind] at succeeded
    | ok stepped =>
      cases third : readExtent stepped.2 with
      | error stop => simp [first, second, third, Bind.bind, Except.bind] at succeeded
      | ok ended =>
        simp only [first, second, third, Bind.bind, Except.bind, Pure.pure, Except.pure,
          Except.ok.injEq] at succeeded
        subst succeeded
        -- The step may be missing, which leaves the text as it is.
        have one := readNumeral_length first
        have two := readStep_length second
        have three := readExtent_length third
        dsimp only
        omega

/-- Reads axes up to the closing mark: `AXIS, AXIS)`. -/
def readAxes (text : Rest) : Except Rest (List AxisPhrase × Rest) :=
  match _ : readAxis text with
  | .error stop => .error stop
  | .ok (first, rest) =>
    match _ : readWord "," rest with
    -- Behind a comma there is another axis, and it may not be left out.
    | .ok more => (readAxes more).map fun (others, rest) => (first :: others, rest)
    -- Any failure behind an axis is told as that of the closing mark.
    | .error _ => (readWord ")" rest).map fun rest => ([first], rest)
termination_by text.length
decreasing_by
  rename_i firstRead comma
  exact Nat.lt_of_le_of_lt (readWord_length comma) (readAxis_length firstRead)

/-- Reads the size of an element if there is one. -/
def readElement (text : Rest) : Except Rest (Option Numeral × Rest) :=
  match readWord "elem" text with
  -- The keyword asks for a number.
  | .ok text => (readNumeral text).map fun (size, text) => (some size, text)
  | .error _ => .ok (none, text)

/-- Reads an interval with the word for it, if there is one. -/
def readInterval? (text : Rest) : Except Rest (BoundsPhrase × Rest) :=
  match readWord "bytes" text with
  | .ok text => readBounds text
  -- What follows is left to the end of the phrase.
  | .error _ => .ok ({}, text)

/-- Reads the axes and the element size of an array, behind the word for it. -/
def readDims (text : Rest) : Except Rest (FormPhrase × Rest) := do
  -- An array has at least one axis.
  let text ← readWord "(" text
  let (axes, text) ← readAxes text
  let (element, text) ← readElement text
  return (.dims axes element, text)

/-- Reads what follows the name of the object. -/
def readForm (text : Rest) : Except Rest (FormPhrase × Rest) :=
  -- The three forms are told apart by their keywords, which are tried in this order.
  match readWord "bytes" text with
  | .ok text => (readBounds text).map fun (bounds, text) => (.bytes bounds, text)
  | .error _ =>
    match readWord "dims" text with
    | .ok text => readDims text
    | .error _ =>
      match readWord "whole" text with
      | .ok text => (readInterval? text).map fun (bounds, text) => (.whole bounds, text)
      -- The text where the last keyword fails is where all of them failed.
      | .error stop => .error stop

/-- Reads a phrase that takes the whole text, or tells the text that is
left where reading stopped. -/
def read (text : Rest) : Except Rest Phrase := do
  let (name, text) ← readName text
  let (form, text) ← readForm text
  -- Blanks may follow, but nothing else.
  match skipBlanks text with
  | [] => return ⟨name, form⟩
  | rest => throw rest

end Overlap.Phrase
