import Overlap.Proofs.Axis.Tuples
import Overlap.Proofs.Phrase.Verdict
import Overlap.Proofs.Phrase.Writing
import Overlap.Relation.Told

/-! Regions that were read can be written, and a region that can be written is the
meaning of its written form. -/

namespace Overlap

namespace Region

/-- A region that the written form can express: its object has a name on one line, no bound is
negative, and it has axes exactly where it is given by them. -/
structure Readable (region : Region) : Prop where
  -- A name with a line break cannot be written on one line.
  named : ∃ name, region.object = some (.name name) ∧ '\n' ∉ name.toList
  lower : ∀ bound ∈ region.lower, 0 ≤ bound
  upper : ∀ bound ∈ region.upper, 0 ≤ bound
  -- The written form of an array has no place for a lower bound, and that
  -- of an interval none for axes.
  array : region.kind = .perAxis → region.lower = none ∧ region.axes ≠ [] ∧ AllValid region.axes
  interval : region.kind ≠ .perAxis → region.axes = []

/-- A text spells a phrase that means a region and is written with the digits of its numbers. -/
def SpelledBy (region : Region) (text : List Char) : Prop :=
  -- The phrase may be any one of that meaning, as long as it has no other digits.
  ∃ phrase : Phrase, phrase.Spelled text ∧ phrase.AllValid ∧ phrase.meaning = region ∧
    ∀ digits ∈ phrase.form.numerals, ∃ number ∈ region.numbers, digits = digitsOf number

section Written

variable {name : String} {lower upper : Option Int}

/-- A name and a form behind a space make a phrase. -/
theorem spelled_of_form {form : FormPhrase} {behind : List Char} (oneLine : '\n' ∉ name.toList)
    (formed : form.Spelled (' ' :: behind) []) :
    Phrase.Spelled ⟨name.toList, form⟩ ((nameText name).toList ++ ' ' :: behind) := by
  -- A blank ends the name, and nothing follows the form.
  refine ⟨(nameText name).toList, ' ' :: behind, [], .here .nil, ?_, formed, ?_⟩
  · exact spellsName_nameText oneLine fun c head => by cases head; rfl
  · exact fun c member => (List.not_mem_nil member).elim

/-- The digits of bounds stand for the bounds. -/
theorem map_number_digitsOf {bound : Option Int} (nonneg : ∀ value ∈ bound, 0 ≤ value) :
    (bound.map digitsOf).map Numeral.number = bound := by
  -- The digits of a number have its value as long as it has no sign.
  cases bound with
  | none => rfl
  | some value => simp [number_digitsOf (nonneg value rfl)]

/-- The numbers of a written interval are its bounds. -/
theorem numerals_writtenBounds {digits : Numeral}
    (member : digits ∈ (writtenBounds lower upper).numerals) :
    ∃ number ∈ lower.toList ++ upper.toList, digits = digitsOf number := by
  -- There are only the two bounds that were written.
  simp only [BoundsPhrase.numerals, writtenBounds, List.mem_append, Option.mem_toList,
    Option.map_eq_some_iff] at member
  rcases member with ⟨bound, given, rfl⟩ | ⟨bound, given, rfl⟩
  · exact ⟨bound, by simp [given], rfl⟩
  · exact ⟨bound, by simp [given], rfl⟩

/-- The element size behind the axes of an array, as it is written. -/
def elementText : Option Int → List Char
  -- Without a size nothing is written, not even the keyword.
  | none => []
  | some size => ' ' :: "elem".toList ++ (' ' :: digitsOf size ++ [])

variable (oneLine : '\n' ∉ name.toList) (lowerNonneg : ∀ bound ∈ lower, 0 ≤ bound)
  (upperNonneg : ∀ bound ∈ upper, 0 ≤ bound)

include oneLine upperNonneg

/-- The written form of an array spells it. -/
theorem spelledBy_perAxis {axes : List Axis} (valid : AllValid axes) (nonempty : axes ≠ []) :
    let region : Region := ⟨some (.name name), .perAxis, none, upper, axes⟩
    region.SpelledBy region.text.toList := by
  -- Name, axes and element size are spelled one by one, and the text is put together from theirs.
  intro region
  have element : SpellsElement (upper.map digitsOf) (elementText upper) [] := by
    cases upper with
    | none => exact .absent
    | some size => exact .given (proper_digitsOf (upperNonneg size rfl)) (.spaced (.spaced .nil))
  -- The axes are followed by the closing parenthesis and the size of the elements.
  obtain ⟨phrases, spelled, meant, written⟩ :=
    exists_spellsAxes valid nonempty (fun c member => (List.not_mem_nil member).elim)
      (')' :: elementText upper)
  have whole : region.text.toList = (nameText name).toList ++ ' ' ::
    ("dims".toList ++ ("(".toList ++
      ((", ".intercalate (axes.map Axis.text)).toList ++ ')' :: elementText upper))) := by
    cases upper <;> simp [region, Region.text, partsText, objectText, Identity.text, elementText,
      digitsOf, toString]
  rw [whole]
  refine ⟨⟨name.toList, .dims phrases (upper.map digitsOf)⟩, spelled_of_form oneLine
    (.dims (.spaced (.here .nil)) spelled (@Passes.here ")".toList _ _ _ .nil) element), ?_, ?_, ?_⟩
  · intro phrase member
    exact valid phrase.meaning (meant ▸ List.mem_map_of_mem member)
  · simp only [Phrase.meaning, map_number_digitsOf upperNonneg, meant, String.ofList_toList]
    rfl
  · -- The numerals of the text are the numbers of the region.
    intro digits member
    simp only [FormPhrase.numerals, List.mem_append, Option.mem_toList, Option.map_eq_some_iff]
      at member
    rcases member with own | ⟨size, given, rfl⟩
    · obtain ⟨number, member, same⟩ := written digits own
      exact ⟨number, List.mem_append_left _ member, same⟩
    · exact ⟨size, List.mem_append_right _ (Option.mem_toList.mpr given), rfl⟩

include lowerNonneg

/-- The written form of an interval spells it. -/
theorem spelledBy_flat :
    let region : Region := ⟨some (.name name), .flat, lower, upper, []⟩
    region.SpelledBy region.text.toList := by
  intro region
  -- The text is a name, a blank, the keyword and the bounds.
  obtain ⟨behind, text, spelled⟩ := spelled_boundsText lowerNonneg upperNonneg
  have whole : region.text.toList = (nameText name).toList ++ ' ' ::
      ("bytes".toList ++ behind) := by
    rw [← text]
    simp [region, Region.text, partsText, objectText, Identity.text, toString]
  rw [whole]
  refine ⟨⟨name.toList, .bytes (writtenBounds lower upper)⟩,
    spelled_of_form oneLine (.bytes (.spaced .nil) spelled), Phrase.allValid_of_axes_eq_nil rfl, ?_,
    fun digits member => numerals_writtenBounds member⟩
  simp only [Phrase.meaning, writtenBounds, map_number_digitsOf lowerNonneg,
    map_number_digitsOf upperNonneg, String.ofList_toList]
  rfl

/-- The written form of a region that could not be narrowed down spells it. -/
theorem spelledBy_whole :
    let region : Region := ⟨some (.name name), .whole, lower, upper, []⟩
    region.SpelledBy region.text.toList := by
  intro region
  -- The written bounds stand for those of the region.
  have meant : Phrase.meaning ⟨name.toList, .whole (writtenBounds lower upper)⟩ = region := by
    simp only [Phrase.meaning, writtenBounds, map_number_digitsOf lowerNonneg,
      map_number_digitsOf upperNonneg, String.ofList_toList]
    rfl
  refine ⟨⟨name.toList, .whole (writtenBounds lower upper)⟩, ?_,
    Phrase.allValid_of_axes_eq_nil rfl, meant,
    fun digits member => numerals_writtenBounds member⟩
  -- Without any bound the interval is left out.
  by_cases boundless : lower = none ∧ upper = none
  · obtain ⟨rfl, rfl⟩ := boundless
    have text : region.text.toList = (nameText name).toList ++ ' ' :: ("whole".toList ++ []) := by
      simp [region, Region.text, partsText, objectText, Identity.text, toString]
    rw [text]
    exact spelled_of_form oneLine (.whole (.spaced .nil))
  · -- With a bound, the interval follows in words.
    obtain ⟨behind, interval, spelled⟩ := spelled_boundsText lowerNonneg upperNonneg
    have given : lower.isSome = true ∨ upper.isSome = true := by
      cases lower <;> cases upper <;> simp_all
    have text : region.text.toList = (nameText name).toList ++ ' ' :: ("whole".toList ++
        (' ' :: "bytes".toList ++ behind)) := by
      rw [List.cons_append, ← interval]
      simp [region, Region.text, partsText, objectText, Identity.text, toString, given]
    rw [text]
    exact spelled_of_form oneLine (.wholeBytes (.spaced (.spaced .nil)) spelled)

end Written

/-- The written form of a readable region spells it. -/
theorem Readable.spelledBy {region : Region} (readable : region.Readable) :
    region.SpelledBy region.text.toList := by
  -- Each kind of region has a written form of its own.
  obtain ⟨object, kind, lower, upper, axes⟩ := region
  obtain ⟨⟨name, rfl, oneLine⟩, lowerNonneg, upperNonneg, array, interval⟩ := readable
  cases kind with
  | flat =>
    cases interval (by simp)
    exact spelledBy_flat oneLine lowerNonneg upperNonneg
  | perAxis =>
    obtain ⟨rfl, nonempty, valid⟩ := array rfl
    exact spelledBy_perAxis oneLine upperNonneg valid nonempty
  | whole =>
    cases interval (by simp)
    exact spelledBy_whole oneLine lowerNonneg upperNonneg

/-- No number of a readable region is negative. -/
theorem Readable.nonneg {region : Region} (readable : region.Readable) :
    ∀ number ∈ region.numbers, 0 ≤ number := by
  -- The numbers of an array are those of its axes and the element size, and otherwise the bounds.
  obtain ⟨object, kind, lower, upper, axes⟩ := region
  obtain ⟨⟨name, rfl, _⟩, lowerNonneg, upperNonneg, array, _⟩ := readable
  intro number member
  cases kind with
  | perAxis =>
    simp only [numbers, Identity.numbers, List.nil_append, List.mem_append, Option.mem_toList]
      at member
    rcases member with own | given
    · -- The fields of a well-formed axis are not negative.
      obtain ⟨axis, listed, own⟩ := List.mem_flatMap.mp own
      exact ((array rfl).2.2 axis listed).nonneg number own
    · exact upperNonneg number given
  | flat | whole =>
    simp only [numbers, Identity.numbers, List.nil_append, List.mem_append, Option.mem_toList]
      at member
    exact member.elim (lowerNonneg number) (upperNonneg number)

/-- A region is the meaning of its written form, however long its numbers are; and where all of them
can be written, the form is written and the region is found when it is read. -/
def ReadsBack (region : Region) : Prop :=
  -- The text is always one of that meaning, even if its numbers are too long to be converted.
  (∃ phrase : Phrase, phrase.Spelled region.text.toList ∧ phrase.AllValid ∧
    phrase.meaning = region) ∧
    ((∀ number ∈ region.numbers, Writable number) →
      region.textTold = .ok region.text ∧ readRegion region.text = .ok region)

/-- Readable regions read back. -/
theorem Readable.readsBack {region : Region} (readable : region.Readable) : region.ReadsBack := by
  -- The phrase is short because it is written with the digits of the numbers.
  obtain ⟨phrase, spelled, valid, meant, written⟩ := readable.spelledBy
  refine ⟨⟨phrase, spelled, valid, meant⟩, fun writable => ⟨?_, ?_⟩⟩
  · exact written_eq_ok writable
  · refine readRegion_eq_ok_iff.mpr ⟨phrase, spelled, valid, fun digits member => ?_, meant.symm⟩
    obtain ⟨number, own, rfl⟩ := written digits member
    exact (short_digitsOf_iff (readable.nonneg number own)).mpr (writable number own)

end Region

section Reading

/-- Reading an escaped text gives characters of it. -/
theorem mem_of_mem_unescape {c : Char} {text : List Char} (member : c ∈ unescape text) :
    c ∈ text := by
  -- A protected character stands behind its backslash, so it is one of the text.
  fun_induction unescape text with
  | case1 d text ih =>
    rcases List.mem_cons.mp member with rfl | member
    · simp
    · exact List.mem_cons_of_mem _ (List.mem_cons_of_mem _ (ih member))
  | case2 d text _ ih =>
    rcases List.mem_cons.mp member with rfl | member
    · simp
    · exact List.mem_cons_of_mem _ (ih member)
  | case3 => exact member

/-- A name that is spelled lies on one line. -/
theorem SpellsName.oneLine {name lexeme rest : List Char} (spelled : SpellsName name lexeme rest) :
    '\n' ∉ name := by
  -- No character of a bare name is a line break, and a quoted name has only characters of its text.
  cases spelled with
  | bare bare _ =>
    cases name with
    | nil => exact List.not_mem_nil
    | cons c more =>
      rw [isBareName, Bool.and_eq_true, List.all_eq_true] at bare
      intro member
      rcases List.mem_cons.mp member with rfl | member
      · exact absurd bare.1 (by decide)
      · exact absurd (bare.2 _ member) (by decide)
  | quoted quotable => exact fun member => quotable.oneLine (mem_of_mem_unescape member)

/-- Something is listed where axes are spelled. -/
theorem SpellsAxes.ne_nil {axes : List AxisPhrase} {text rest : List Char}
    (spelled : SpellsAxes axes text rest) :
    axes ≠ [] := by
  -- Both ways of spelling axes begin with one.
  cases spelled <;> exact List.cons_ne_nil _ _

/-- No number is negative. -/
theorem Numeral.number_nonneg (digits : Numeral) : 0 ≤ digits.number :=
  -- Digits have no sign.
  Int.natCast_nonneg _

namespace Phrase

/-- The region that is meant by a phrase with well-formed axes is readable. -/
theorem Spelled.readable {phrase : Phrase} {text : List Char} (spelled : phrase.Spelled text)
    (valid : phrase.AllValid) :
    phrase.meaning.Readable := by
  obtain ⟨name, form⟩ := phrase
  obtain ⟨lexeme, behind, rest, _, named, formed, _⟩ := spelled
  -- Numbers are written without a sign.
  have object : ∃ other, some (Identity.name (String.ofList name)) = some (.name other) ∧
      '\n' ∉ other.toList :=
    ⟨_, rfl, by simpa using named.oneLine⟩
  have nonneg : ∀ digits : Option Numeral, ∀ bound ∈ digits.map Numeral.number, 0 ≤ bound := by
    intro digits bound given
    obtain ⟨_, _, rfl⟩ := Option.map_eq_some_iff.mp given
    exact Numeral.number_nonneg _
  cases formed with
  | whole => exact ⟨object, nonneg none, nonneg none, fun array => absurd array (by simp [meaning]),
      fun _ => rfl⟩
  | bytes | wholeBytes =>
    exact ⟨object, nonneg _, nonneg _, fun array => absurd array (by simp [meaning]), fun _ => rfl⟩
  | @dims axes _ _ _ _ _ _ _ listed =>
    refine ⟨object, nonneg none, nonneg _, fun _ => ⟨rfl, ?_, ?_⟩,
      fun interval => absurd rfl interval⟩
    · -- A list of axes that was read has at least one.
      exact fun none => listed.ne_nil (List.map_eq_nil_iff.mp none)
    · intro axis member
      obtain ⟨written, listed, rfl⟩ := List.mem_map.mp member
      exact valid written listed

/-- The numbers of a phrase that is spelled have digits. -/
theorem Spelled.proper {phrase : Phrase} {text : List Char} (spelled : phrase.Spelled text) :
    ∀ digits ∈ phrase.form.numerals, digits.Proper := by
  -- For the axes, the numbers are looked up where the text of each axis lies.
  have axes := @Spelled.liesIn phrase text spelled
  obtain ⟨name, form⟩ := phrase
  obtain ⟨lexeme, behind, rest, _, _, formed, _⟩ := spelled
  intro digits member
  cases formed with
  | bytes _ interval | wholeBytes _ interval => exact interval.proper digits member
  | whole => cases member
  | dims _ listed _ size =>
    simp only [FormPhrase.numerals, List.mem_append, List.mem_flatMap, Option.mem_toList] at member
    rcases member with ⟨axis, listed, numeral⟩ | given
    · -- The numbers of an axis are found inside of its text.
      obtain ⟨front, own, behind, _, isText, _⟩ := axes listed
      exact isText.proper digits numeral
    · cases size with
      | absent => cases given
      | given proper _ =>
        cases given
        exact proper

end Phrase

/-- The numbers of an axis that is meant are written, or a step of one is left out. -/
theorem AxisPhrase.fields_meaning {axis : AxisPhrase} {number : Int}
    (member : number ∈ axis.meaning.fields) :
    number = 1 ∨ ∃ digits ∈ axis.numerals, number = digits.number := by
  -- Each of the four fields has its digits, except for a step that is left out.
  simp only [Axis.fields, meaning, List.mem_cons, List.not_mem_nil, or_false] at member
  rcases member with rfl | rfl | rfl | rfl
  · exact .inr ⟨axis.start, by simp [numerals], rfl⟩
  · cases step : axis.step with
    | none => exact .inl rfl
    | some digits => exact .inr ⟨digits, by simp [numerals, step], rfl⟩
  · exact .inr ⟨axis.count, by simp [numerals], rfl⟩
  · exact .inr ⟨axis.size, by simp [numerals], rfl⟩

/-- The numbers of a region that is meant are written, or a step of one is left out. -/
theorem Phrase.numbers_meaning {phrase : Phrase} {number : Int}
    (member : number ∈ phrase.meaning.numbers) :
    number = 1 ∨ ∃ digits ∈ phrase.form.numerals, number = digits.number := by
  obtain ⟨name, form⟩ := phrase
  -- The fields of the axes and the bounds all come from digits in the text.
  cases form with
  | dims axes element =>
    simp only [meaning, Region.numbers, Identity.numbers, List.nil_append, List.mem_append,
      List.mem_flatMap, List.mem_map, Option.mem_toList, Option.map_eq_some_iff] at member
    rcases member with ⟨_, ⟨axis, listed, rfl⟩, own⟩ | ⟨digits, given, rfl⟩
    · -- A step that is left out is one.
      refine (AxisPhrase.fields_meaning own).imp id fun written => ?_
      obtain ⟨digits, own, same⟩ := written
      exact ⟨digits, FormPhrase.mem_numerals listed own, same⟩
    · exact .inr ⟨digits, List.mem_append_right _ (Option.mem_toList.mpr given), rfl⟩
  | bytes bounds | whole bounds =>
    simp only [meaning, Region.numbers, Identity.numbers, List.nil_append, List.mem_append,
      Option.mem_toList, Option.map_eq_some_iff] at member
    rcases member with ⟨digits, given, rfl⟩ | ⟨digits, given, rfl⟩
    · exact .inr ⟨digits, List.mem_append_left _ (Option.mem_toList.mpr given), rfl⟩
    · exact .inr ⟨digits, List.mem_append_right _ (Option.mem_toList.mpr given), rfl⟩

/-- A region that was read is readable, and its numbers can be written. -/
theorem readable_of_readRegion {text : String} {region : Region}
    (read : readRegion text = .ok region) :
    region.Readable ∧ ∀ number ∈ region.numbers, Writable number := by
  obtain ⟨phrase, spelled, valid, short, rfl⟩ := readRegion_eq_ok_iff.mp read
  refine ⟨spelled.readable valid, fun number member => ?_⟩
  rcases Phrase.numbers_meaning member with rfl | ⟨digits, own, rfl⟩
  · -- One is the step that may be left out.
    decide +kernel
  · exact (spelled.proper digits own).writable (short digits own)

end Reading

end Overlap
