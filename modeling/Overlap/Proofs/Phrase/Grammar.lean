import Overlap.Phrase.Basic
import Overlap.Phrase.Token

/-! The grammar of phrases, apart from any way of reading them: which texts spell a phrase. -/

namespace Overlap

/-- A text of blanks only. -/
def Blank (text : List Char) : Prop :=
  -- The empty text is blank as well.
  ∀ c ∈ text, isBlank c = true

/-- Lexemes that follow each other at the front of a text, each of them behind any number of blanks,
and the text that is left behind the last one. -/
inductive Passes : List (List Char) → List Char → List Char → Prop where
  -- Blanks may stand in front of every lexeme, and none are taken behind the last one.
  | nil {rest : List Char} : Passes [] rest rest
  | cons {blanks lexeme text rest : List Char} {lexemes : List (List Char)} (blank : Blank blanks)
      (more : Passes lexemes text rest) : Passes (lexeme :: lexemes) (blanks ++ lexeme ++ text) rest

/-- The number of backslashes at the end of a text. -/
def backslashesAtEnd (text : List Char) : Nat :=
  -- An odd number of them protects the character that follows.
  (text.reverse.takeWhile (· = '\\')).length

/-- A text that may stand between quotes. It lies on one line, and of all quotes in it and behind it
the one behind it is the first that follows an even number of backslashes. -/
structure Quotable (text : List Char) : Prop where
  -- A quoted name lies on one line.
  oneLine : '\n' ∉ text
  -- The quote that closes it is not protected, and every quote inside is.
  closed : backslashesAtEnd text % 2 = 0
  first : ∀ front behind, text = front ++ '"' :: behind → backslashesAtEnd front % 2 = 1

/-- A text in which each backslash has given way to the character behind it. -/
def unescape : List Char → List Char
  -- A protected character stands for itself, whatever it is.
  | '\\' :: c :: rest => c :: unescape rest
  -- A backslash at the very end protects nothing, and stays.
  | c :: rest => c :: unescape rest
  | [] => []

/-- A lexeme for a name, with the text behind it. A bare name is as long as it can be, and a
quoted one ends with its quote. -/
inductive SpellsName : List Char → List Char → List Char → Prop where
  -- A bare name is as long as it can be.
  | bare {name rest : List Char} (bare : isBareName name = true)
      (longest : ∀ c ∈ rest.head?, continuesName c = false) : SpellsName name name rest
  -- The quotes belong to the lexeme, and not to the name.
  | quoted {text rest : List Char} (quotable : Quotable text) :
      SpellsName (unescape text) ('"' :: text ++ ['"']) rest

/-- A number is written with at least one digit. -/
def Numeral.Proper (digits : Numeral) : Prop :=
  -- Signs and blanks are no digits.
  digits ≠ [] ∧ ∀ c ∈ digits, isDigit c = true

namespace BoundsPhrase

/-- The numbers of an interval. -/
def numerals (bounds : BoundsPhrase) : List Numeral :=
  -- The order is that of the text.
  bounds.lower.toList ++ bounds.upper.toList

/-- The lexemes of an interval: `[LOW, HIGH)`. -/
def lexemes (bounds : BoundsPhrase) : List (List Char) :=
  -- The marks stay even if both bounds are left out.
  "[".toList :: (bounds.lower.toList ++ ",".toList :: (bounds.upper.toList ++ [")".toList]))

/-- An interval at the front of a text, with the text behind it. -/
structure Spelled (bounds : BoundsPhrase) (text rest : List Char) : Prop where
  -- The digits are those of the phrase, and the text passes through the lexemes.
  proper : ∀ digits ∈ bounds.numerals, digits.Proper
  passes : Passes bounds.lexemes text rest

end BoundsPhrase

namespace AxisPhrase

/-- The numbers of an axis. -/
def numerals (axis : AxisPhrase) : List Numeral :=
  -- The order is that of the text.
  axis.start :: (axis.step.toList ++ [axis.count, axis.size])

/-- The lexemes of a step, unless it is left out. -/
def stepLexemes : Option Numeral → List (List Char)
  -- A step that is left out leaves its keyword out as well.
  | none => []
  | some step => ["step".toList, step]

/-- The lexemes of an axis behind its first number: `step STEP count COUNT of SIZE`. -/
def further (axis : AxisPhrase) : List (List Char) :=
  -- All that follows the first number, which has no blanks in front of it.
  stepLexemes axis.step ++ ["count".toList, axis.count, "of".toList, axis.size]

/-- The text of an axis, from its first digit to its last one. -/
structure IsText (axis : AxisPhrase) (text : List Char) : Prop where
  -- The text of an axis begins with its first digit and ends with its last one.
  proper : ∀ digits ∈ axis.numerals, digits.Proper
  passes : ∃ behind, text = axis.start ++ behind ∧ Passes axis.further behind []

/-- An axis at the front of a text, with the text behind it. Its place is
told by what follows its ends. -/
def Spelled (axis : AxisPhrase) (text rest : List Char) : Prop :=
  -- The places in the phrase are those of its text within all that is left.
  ∃ blanks own, Blank blanks ∧ text = blanks ++ own ++ rest ∧ axis.IsText own ∧
    axis.before = (own ++ rest).length ∧ axis.after = rest.length

end AxisPhrase

/-- One or more axes with commas between them, and the text behind them. -/
inductive SpellsAxes : List AxisPhrase → List Char → List Char → Prop where
  -- There is at least one axis.
  | single {axis : AxisPhrase} {text rest : List Char} (first : axis.Spelled text rest) :
      SpellsAxes [axis] text rest
  -- Every further axis has a comma in front.
  | cons {axis : AxisPhrase} {axes : List AxisPhrase} {text behind next rest : List Char}
      (first : axis.Spelled text behind) (comma : Passes [",".toList] behind next)
      (more : SpellsAxes axes next rest) :
      SpellsAxes (axis :: axes) text rest

/-- The size of an element, which may be left out, and the text behind it: `elem SIZE`. -/
inductive SpellsElement : Option Numeral → List Char → List Char → Prop where
  -- Nothing is taken if there is no keyword.
  | absent {text : List Char} : SpellsElement none text text
  | given {size : Numeral} {text rest : List Char} (proper : size.Proper)
      (passes : Passes ["elem".toList, size] text rest) : SpellsElement (some size) text rest

/-- What follows a name, in one of the three forms, and the text behind it. -/
inductive FormPhrase.Spelled : FormPhrase → List Char → List Char → Prop where
  -- Each form begins with its keyword.
  | bytes {bounds : BoundsPhrase} {text behind rest : List Char}
      (word : Passes ["bytes".toList] text behind)
      (interval : bounds.Spelled behind rest) : FormPhrase.Spelled (.bytes bounds) text rest
  | dims {axes : List AxisPhrase} {element : Option Numeral}
      {text list behind next rest : List Char}
      (word : Passes ["dims".toList, "(".toList] text list) (listed : SpellsAxes axes list behind)
      (close : Passes [")".toList] behind next) (size : SpellsElement element next rest) :
      FormPhrase.Spelled (.dims axes element) text rest
  -- Without bounds there is no second keyword.
  | whole {text rest : List Char} (word : Passes ["whole".toList] text rest) :
      FormPhrase.Spelled (.whole {}) text rest
  | wholeBytes {bounds : BoundsPhrase} {text behind rest : List Char}
      (word : Passes ["whole".toList, "bytes".toList] text behind)
      (interval : bounds.Spelled behind rest) :
      FormPhrase.Spelled (.whole bounds) text rest

/-- A text spells a phrase: a name and a form, with nothing but blanks behind them. -/
def Phrase.Spelled (phrase : Phrase) (text : List Char) : Prop :=
  -- The name comes first, and only blanks may follow the form.
  ∃ lexeme behind rest, Passes [lexeme] text behind ∧ SpellsName phrase.name lexeme behind ∧
    phrase.form.Spelled behind rest ∧ Blank rest

end Overlap
