import Overlap.Diagnostic.SourceError
import Overlap.Sexp.Encode
import Overlap.Sexp.Reader

/-! Regions from S-expressions. What is read may be looser than a region: any value may stand for
the object, and the true flag may stand for the number one. -/

namespace Overlap

/-- A number, or the true flag in its place. -/
inductive Amount where
  -- Which of the two was read still shows when the region is written again.
  | number (value : Int)
  | truth
deriving DecidableEq, Repr

namespace Amount

/-- The number that counts. -/
def value : Amount → Int
  | .number value => value
  -- The true flag counts as one in every computation.
  | .truth => 1

/-- The amount in the written form of a region. -/
def text : Amount → String
  | .number value => toString value
  -- The word is that of the flag, and not the digit one.
  | .truth => "True"

/-- The amount as an atom. -/
def toSexp : Amount → Sexp
  | .number value => .int value
  -- Written again, the flag is a flag.
  | .truth => .flag true

/-- The amount that an atom stands for. -/
def ofSexp? : Sexp → Option Amount
  | .int value => some (.number value)
  | .flag true => some .truth
  -- The reader has no word for the false flag, which would count as zero.
  | .flag false => some (.number 0)
  | _ => none

end Amount

/-- An axis as it was read. -/
structure AxisReading where
  -- The fields come in the order in which they are written.
  start : Amount
  step : Amount
  count : Amount
  size : Amount
deriving DecidableEq, Repr

namespace AxisReading

/-- The axis that counts. -/
def axis (reading : AxisReading) : Axis :=
  -- Each field counts on its own.
  ⟨reading.start.value, reading.step.value, reading.count.value, reading.size.value⟩

/-- The written form of an axis, which leaves out a step of one. -/
def text (reading : AxisReading) : String :=
  -- A step is left out by its value, so a true flag is left out as well.
  let step := if reading.step.value = 1 then "" else " step " ++ reading.step.text
  reading.start.text ++ step ++ " count " ++ reading.count.text ++ " of " ++ reading.size.text

/-- The axis as atoms. -/
def fields (reading : AxisReading) : List Sexp :=
  -- What was a flag stays a flag.
  [reading.start.toSexp, reading.step.toSexp, reading.count.toSexp, reading.size.toSexp]

end AxisReading

/-- The object of a region as it was read. -/
inductive Subject where
  -- A value of any other kind is kept, because it may still be shown.
  | missing
  | object (identity : Identity)
  /-- Any other value. -/
  | other (value : Sexp)

/-- The object as an atom. Any other value gives way to the text that shows it. -/
def Subject.toSexp : Subject → Sexp
  | .missing => .symbol "nil"
  | .object identity => identity.toSexp
  -- Only its text is left, which reads back as a name.
  | .other value => .text value.describe

/-- A region as it was read. -/
structure Reading where
  -- Everything but the object has the default of a region.
  subject : Subject := .missing
  kind : Kind := .flat
  lower : Option Amount := none
  upper : Option Amount := none
  axes : List AxisReading := []

namespace Reading

/-- The object, unless it is some other value. -/
def object? (reading : Reading) : Option (Option Identity) :=
  match reading.subject with
  -- A missing object is an object that is known to be missing.
  | .missing => some none
  | .object identity => some (some identity)
  | .other _ => none

/-- The region that counts, unless its object is some other value. -/
def region? (reading : Reading) : Option Region :=
  -- Flags turn into numbers here, and nowhere else.
  reading.object?.map fun object =>
    { object := object
      kind := reading.kind
      lower := reading.lower.map Amount.value
      upper := reading.upper.map Amount.value
      axes := reading.axes.map AxisReading.axis }

/-- The written form of what was read, unless its object is some other value. -/
def text? (reading : Reading) : Option String :=
  reading.object?.map fun object =>
    -- The texts of the amounts are used, and not those of their numbers.
    partsText (objectText object) reading.kind (reading.lower.map Amount.text)
      (reading.upper.map Amount.text) (reading.axes.map AxisReading.text)

/-- What was read as an S-expression. -/
def toSexp (reading : Reading) : Sexp :=
  -- Every part goes back to what it was read from.
  Sexp.region reading.subject.toSexp reading.kind (reading.lower.map Amount.toSexp)
    (reading.upper.map Amount.toSexp) (reading.axes.map AxisReading.fields)

/-- What was read as an S-expression, unless its object is some other value. -/
def toSexp? (reading : Reading) : Option Sexp :=
  -- The text of some other value would read back as a name.
  reading.object?.map fun _ => reading.toSexp

/-- A region is what was read. -/
def Matches (reading : Reading) (region : Region) : Prop :=
  match reading.region? with
  -- Objects are compared up to sameness, and everything else as it counts.
  | some found => found.Alike region
  | none => False

/-- A match is settled by comparing regions. -/
instance (reading : Reading) (region : Region) : Decidable (reading.Matches region) := by
  -- Both cases of the definition can be decided.
  unfold Matches
  split <;> infer_instance

end Reading

/-- Why a text is not the S-expression of a region. -/
inductive DecodeError where
  -- The last three are about single parts, and the others about the whole.
  | unreadable (cause : Sexp.ReadError)
  | notRegion (found : Sexp)
  | noValue (tag : String)
  | unexpected (item : Sexp)
  | unknownKind (name : Option String)
  | notAxis
  | notInteger (found : Sexp)

/-- The wording of a decoding error. -/
def DecodeError.message : DecodeError → String
  | .unreadable cause => cause.message
  -- What was found instead is shown on one line, and values as they are in messages.
  | .notRegion found => "expected (location ...), got " ++ found.compact
  | .noValue tag => "missing value for " ++ tag
  | .unexpected item => "unexpected item " ++ item.compact ++ " in location"
  | .unknownKind name => "unknown location kind " ++ (name.map quotedText).getD "None"
  | .notAxis => "expected (dim START STEP COUNT SIZE)"
  | .notInteger found => "expected an integer bound, got " ++ found.describe

/-- A decoding error as an error without a place, unless its message shows something that cannot be
written. -/
def DecodeError.sourceError [Limits] (error : DecodeError) : Except Fault SourceError := do
  match error with
  | .notRegion found | .unexpected found =>
    -- Only these two messages show a whole expression, which may not be written.
    let _ ← found.compactTold
  | _ => pure ()
  -- There is no place, as the reader does not tell any.
  return {
    diagnostic := {
      message := "malformed location S-expression: " ++ error.message
      code := some malformedCode } }

namespace Sexp

/-- The value of an item: nothing for the empty list, the name for a symbol. -/
def plain : Sexp → Option Sexp
  -- The word and the empty list mean the same.
  | .list [] => none
  | .symbol "nil" => none
  -- A symbol and a text of the same name mean the same object.
  | .symbol name => some (.text name)
  | other => some other

/-- The object that an item stands for. -/
def subject (item : Sexp) : Subject :=
  -- Each kind of atom stands for an identity of its own kind.
  match item.plain with
  | none => .missing
  | some (.text name) => .object (.name name)
  | some (.int value) => .object (.number value)
  | some (.flag value) => .object (.flag value)
  | some other => .other other

/-- A bound, if it is given. -/
def bound : Option Sexp → Except DecodeError (Option Amount)
  | none => .ok none
  | some item =>
    match item.plain with
    -- A bound that is given as nothing is open, like one that is not given.
    | none => .ok none
    | some value =>
      match Amount.ofSexp? value with
      | some amount => .ok (some amount)
      -- The message shows the value, so a symbol appears as its text.
      | none => .error (.notInteger value)

/-- An axis. -/
def axisReading : Sexp → Except DecodeError AxisReading
  | .list [.symbol "dim", start, step, count, size] =>
    -- All four fields are needed, and each has to be an amount.
    match Amount.ofSexp? start, Amount.ofSexp? step, Amount.ofSexp? count, Amount.ofSexp? size with
    | some start, some step, some count, some size => .ok ⟨start, step, count, size⟩
    | _, _, _, _ => .error .notAxis
  | _ => .error .notAxis

/-- The parts of a region behind its object, as far as they are known. -/
structure Fields where
  -- Values are kept as they are, and looked at once all of them are collected.
  kind : Option Sexp := none
  lower : Option Sexp := none
  upper : Option Sexp := none
  axes : List AxisReading := []

/-- Notes the value of an option; a later one takes the place of an earlier one, and options
of other names do not matter. -/
def Fields.note (fields : Fields) (tag : String) (value : Sexp) : Fields :=
  match tag with
  -- Tags are compared with their colon.
  | ":kind" => { fields with kind := some value }
  | ":lower" => { fields with lower := some value }
  | ":upper" => { fields with upper := some value }
  | _ => fields

/-- The tag of an option: a symbol that begins with a colon. -/
def tag? (item : Sexp) : Option String :=
  -- A text with a colon is not a tag.
  item.name?.filter fun name => name.toList.head? == some ':'

/-- Collects options and axes in order. -/
def collect (fields : Fields) : List Sexp → Except DecodeError Fields
  | [] => .ok fields
  | item :: rest =>
    match item.tag? with
    | some tag =>
      match rest with
      -- The tag comes last, and nothing is left that could be its value.
      | [] => .error (.noValue tag)
      -- Any item may be the value of an option, also another tag.
      | value :: rest => collect (fields.note tag value) rest
    | none =>
      match item with
      | .list (.symbol "dims" :: axes) => do
        let axes ← axes.mapM axisReading
        -- A second list of axes takes the place of the first one.
        collect { fields with axes } rest
      | other => .error (.unexpected other)

/-- The kind of a region; without an option it is a byte interval. -/
def kindOf : Option Sexp → Except DecodeError Kind
  | none => .ok .flat
  | some item =>
    -- A kind is a symbol; a text with the same word is not accepted.
    match item.name?.bind Kind.ofWord? with
    | some kind => .ok kind
    | none => .error (.unknownKind item.name?)

/-- The region that an S-expression describes. -/
def reading : Sexp → Except DecodeError Reading
  | .list (.symbol "location" :: object :: items) => do
    -- The kind is looked at first, then the bounds from below to above.
    let fields ← collect {} items
    let kind ← kindOf fields.kind
    let lower ← bound fields.lower
    let upper ← bound fields.upper
    return ⟨object.subject, kind, lower, upper, fields.axes⟩
  -- The name of the list and the object have to be there.
  | other => .error (.notRegion other)

end Sexp

/-- The region that the text of an S-expression describes. -/
def readSexpRegion [Limits] (text : String) : Except DecodeError Reading :=
  -- The text is read as a whole before anything in it is taken for a region.
  match Sexp.readNested text.toList with
  | .ok sexp => sexp.reading
  | .error cause => .error (.unreadable cause)

end Overlap
