import Overlap.Relation.Basic
import Overlap.Sexp.Told

/-! Regions and outcomes as S-expressions. -/

namespace Overlap

/-- A bound or an object that may be missing. -/
def Sexp.orNil : Option Sexp → Sexp
  | some value => value
  -- The symbol is read back as nothing, unlike the empty text.
  | none => .symbol "nil"

/-- A region from its parts. -/
def Sexp.region (object : Sexp) (kind : Kind) (lower upper : Option Sexp)
    (axes : List (List Sexp)) :
    Sexp :=
  let fields :=
    -- All tags are there, even if their values are missing.
    [ .symbol "location", object, .symbol ":kind", .symbol kind.word, .symbol ":lower", orNil lower,
      .symbol ":upper", orNil upper ]
  -- An array without axes is written like one that has no place for them.
  let dims := if axes.isEmpty then []
    else [.list (.symbol "dims" :: axes.map fun fields => .list (.symbol "dim" :: fields))]
  .list (fields ++ dims)

/-- An object as an atom. -/
def Identity.toSexp : Identity → Sexp
  -- A name is a text, so that it may hold any characters.
  | .name text => .text text
  | .number value => .int value
  | .flag value => .flag value

/-- A region as an S-expression. -/
def Region.toSexp (region : Region) : Sexp :=
  -- Bounds and fields are integers whatever the kind of the region.
  Sexp.region (.orNil (region.object.map Identity.toSexp)) region.kind (region.lower.map .int)
    (region.upper.map .int) (region.axes.map fun axis => axis.fields.map .int)

/-- An outcome and the leftover parts that were kept, as an S-expression. -/
def Outcome.toSexp (outcome : Outcome) (left right : Option (List Region)) : Sexp :=
  let parts (title : String) (regions : List Region) : Sexp :=
    -- A part of the outcome without regions is still a list with its title.
    .list (.symbol title :: regions.map Region.toSexp)
  -- The shared region has no title, and is known by its place.
  .list ([.symbol "relation", .symbol outcome.relation.word] ++
    (outcome.shared?.map Region.toSexp).toList ++ (left.map (parts "left")).toList ++
    (right.map (parts "right")).toList)

end Overlap
