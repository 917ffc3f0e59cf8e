import Overlap.Number.Double

/-! S-expressions: atoms, and lists of S-expressions. -/

namespace Overlap

/-- An S-expression. -/
inductive Sexp where
  /-- No value. -/
  | nothing
  | flag (value : Bool)
  | int (value : Int)
  | real (value : Double)
  | text (value : String)
  | symbol (name : String)
  | list (items : List Sexp)
  /-- A list in square brackets. -/
  | bracket (items : List Sexp)
  | quoted (item : Sexp)
deriving Repr

namespace Sexp

/-- The name of a symbol. -/
def name? : Sexp → Option String
  -- Texts are no symbols, even where they look alike.
  | .symbol name => some name
  | _ => none

mutual

/-- How deeply lists and quotes are nested. -/
def height : Sexp → Nat
  -- An empty list is one level deep.
  | .list items => heightAll items + 1
  | .bracket items => heightAll items + 1
  | .quoted item => height item + 1
  -- Atoms have no levels.
  | _ => 0

/-- The greatest height of the items of a list. -/
def heightAll : List Sexp → Nat
  | [] => 0
  -- Items stand side by side, so only the deepest of them counts.
  | item :: rest => max (height item) (heightAll rest)

end

mutual

/-- The integers in an S-expression. -/
def numbers : Sexp → List Int
  -- Integers inside of texts, symbols and fractions do not count.
  | .int value => [value]
  | .list items => numbersAll items
  | .bracket items => numbersAll items
  | .quoted item => numbers item
  | _ => []

/-- The integers in the items of a list. -/
def numbersAll : List Sexp → List Int
  | [] => []
  -- The order is that of writing.
  | item :: rest => numbers item ++ numbersAll rest

end

end Sexp

end Overlap
