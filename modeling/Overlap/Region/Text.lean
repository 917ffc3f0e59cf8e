import Overlap.Region.Basic

/-! The written form of a region: a name, then a byte interval, axes or the word for everything. -/

namespace Overlap

/-- Words with a meaning in the written form, which therefore have to be quoted as names. -/
def reservedWords : List String :=
  -- A name is compared with them as a whole, so a word may well occur inside a name.
  ["bytes", "dims", "whole", "elem", "step", "count", "of"]

/-- Characters that may open a bare name. -/
def opensName (c : Char) : Bool :=
  -- Letters with marks and those of other alphabets have to be quoted.
  c.isAlpha || c = '_' || c = '%' || c = '$'

/-- Characters that may continue a bare name. -/
def continuesName (c : Char) : Bool :=
  -- A percent sign may only come first, and a point only later.
  c.isAlphanum || c = '_' || c = '.' || c = '$'

/-- A bare name is one opening character followed by continuing ones. -/
def isBareName : List Char → Bool
  | [] => false
  -- A digit in front would make it a number.
  | c :: rest => opensName c && rest.all continuesName

/-- Quotes and backslashes inside a quoted name are preceded by a backslash. -/
def escapeName : List Char → List Char
  | [] => []
  -- The backslash itself is protected, so that it is not taken for a protection.
  | c :: rest => if c = '"' ∨ c = '\\' then '\\' :: c :: escapeName rest else c :: escapeName rest

/-- A name as it is written: bare where that reads back, and quoted otherwise. -/
def nameText (name : String) : String :=
  -- A reserved word would be a bare name by its characters.
  if isBareName name.toList && !reservedWords.contains name then name
  else String.ofList ('"' :: escapeName name.toList ++ ['"'])

/-- The name of an object as it is written, with a placeholder for a missing one. -/
def objectText : Option Identity → String
  | none => "<none>"
  -- Numbers and flags have no quotes of their own, but a text like a number is quoted.
  | some identity => nameText identity.text

/-- A byte interval from the texts of its bounds; a missing bound leaves its place empty. -/
def boundsText (lower upper : Option String) : String :=
  -- The comma and the brackets stay, with nothing between them.
  let low := lower.getD ""
  let high := upper.getD ""
  s!"bytes [{low}, {high})"

/-- A region from the texts of its parts. -/
def partsText (name : String) (kind : Kind) (lower upper : Option String) (axes : List String) :
    String :=
  match kind with
  | .perAxis =>
    -- The list is between parentheses even if it is empty.
    let list := ", ".intercalate axes
    let element := match upper with
      | some size => s!" elem {size}"
      | none => ""
    s!"{name} dims({list}){element}"
  | .whole =>
    -- Bounds are mentioned as soon as one of them is known.
    let bounds := if lower.isSome || upper.isSome then " " ++ boundsText lower upper else ""
    s!"{name} whole{bounds}"
  | .flat =>
    -- An interval always shows both places for its bounds.
    let bounds := boundsText lower upper
    s!"{name} {bounds}"

/-- The numbers in the text of an identity. -/
def Identity.numbers : Identity → List Int
  -- A name may be made of digits, and is still no number.
  | .number value => [value]
  | _ => []

/-- The numbers in the written form of a region, which does not mention every part of it. -/
def Region.numbers (region : Region) : List Int :=
  let object := match region.object with
    | some identity => identity.numbers
    | none => []
  match region.kind with
  -- The lower bound is not part of this form, so it may be of any length.
  | .perAxis => object ++ region.axes.flatMap Axis.fields ++ region.upper.toList
  | _ => object ++ region.lower.toList ++ region.upper.toList

/-- The written form of a region. -/
def Region.text (region : Region) : String :=
  -- Every part is written on its own, and the kind decides which of them are used.
  partsText (objectText region.object) region.kind (region.lower.map toString)
    (region.upper.map toString) (region.axes.map Axis.text)

end Overlap
