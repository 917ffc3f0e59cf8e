import Overlap.Sexp.Pretty
import Overlap.Storage

/-! Writing an S-expression fails on a number that is too long, on lists that are nested too deeply,
and on lines that begin too far to the right. -/

namespace Overlap.Sexp

mutual

/--
Accepts an S-expression that can be written at the given depth.

The parts are taken in the order in which they are written. A number has to be short enough, a list
needs `room` for one more level, and `laid` has to accept a list once its items are accepted.
-/
def checkParts (laid : Int → List Sexp → Except Fault Unit) (room : Nat) (depth : Int) :
    Sexp → Except Fault Unit
  | .int value => checkNumbers [value]
  | .list items =>
    if room = 0 then .error .tooNested
    else do
      -- The items are laid out before it is known whether the list fits on one line.
      checkPartsAll laid (room - 1) (depth + 1) items
      laid depth items
  -- Brackets and quotes are never broken into lines, nor is anything inside them.
  | .bracket items =>
    if room = 0 then .error .tooNested
    else checkPartsAll (fun _ _ => .ok ()) (room - 1) depth items
  | .quoted item =>
    if room = 0 then .error .tooNested
    else checkParts (fun _ _ => .ok ()) (room - 1) depth item
  | _ => .ok ()

/-- Accepts every item of a list at the given depth. -/
def checkPartsAll (laid : Int → List Sexp → Except Fault Unit) (room : Nat) (depth : Int) :
    List Sexp → Except Fault Unit
  | [] => .ok ()
  -- The first item that cannot be written stops the others.
  | item :: rest => do
    checkParts laid room depth item
    checkPartsAll laid room depth rest

end

/-- Accepts a list at the given depth when it fits on one line, or when the beginning of a further
line can be built. -/
def checkLines [Limits] (layout : Layout) (depth : Int) (items : List Sexp) : Except Fault Unit :=
  -- Without items there is nothing to be put on a further line.
  if items.isEmpty || fits layout depth (oneLine (prettyAll layout (depth + 1) items)) then .ok ()
  else checkRepeat layout.indent.length (depth + 1)

/-- An S-expression on several lines, unless something in it cannot be written. -/
def prettyTold [Limits] (layout : Layout) (depth : Int) (sexp : Sexp) : Except Fault String :=
  -- A fault leaves no part of the text behind.
  (checkParts (checkLines layout) maxPrettyHeight depth sexp).map fun _ => sexp.pretty layout depth

/-- An S-expression on a single line, unless something in it cannot be written. -/
def compactTold [Limits] (sexp : Sexp) : Except Fault String :=
  -- A single line begins nowhere but at its start, so lists are held to their items alone.
  (checkParts (fun _ _ => .ok ()) maxCompactHeight 0 sexp).map fun _ => sexp.compact

/-- The text of an S-expression in its default layout, broken into lines or not. -/
def write (sexp : Sexp) (pretty : Bool) : String :=
  -- The outermost list begins a line.
  if pretty then sexp.pretty {} 0 else sexp.compact

/-- The text of an S-expression in its default layout, unless something in it cannot be written. -/
def writeTold [Limits] (sexp : Sexp) (pretty : Bool) : Except Fault String :=
  -- The levels that can be written differ between the two.
  if pretty then sexp.prettyTold {} 0 else sexp.compactTold

end Overlap.Sexp
