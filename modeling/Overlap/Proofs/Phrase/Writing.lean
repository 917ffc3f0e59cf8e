import Overlap.Proofs.Phrase.Meaning

/-! The written forms of numbers, names, intervals and axes spell what they were written from. -/

namespace Overlap

section Numbers

/-- The digits that a number is written with. -/
def digitsOf (value : Int) : Numeral :=
  -- A negative number has its sign among these characters.
  (toString value).toList

/-- A natural number is written in base ten. -/
theorem digitsOf_natCast (value : Nat) : digitsOf value = Nat.toDigits 10 value := by
  -- The text of an integer without a sign is that of a natural number.
  have plain : toString (value : Int) = value.repr := rfl
  rw [digitsOf, plain, Nat.toList_repr]

/-- Digits of the library are digits here. -/
theorem isDigit_of_isDigit {c : Char} (digit : c.isDigit = true) : isDigit c = true := by
  -- Both classes are the same range of characters.
  simp only [Char.isDigit, Bool.and_eq_true, decide_eq_true_eq] at digit
  simp only [isDigit, Bool.and_eq_true, decide_eq_true_eq]
  exact ⟨digit.1, digit.2⟩

/-- A number is written with digits. -/
theorem proper_digitsOf {value : Int} (nonneg : 0 ≤ value) : (digitsOf value).Proper := by
  -- The number is written as a natural number, which has at least one digit.
  obtain ⟨value, rfl⟩ := Int.eq_ofNat_of_zero_le nonneg
  rw [digitsOf_natCast]
  exact ⟨Nat.toDigits_ne_nil,
    fun c member => isDigit_of_isDigit (Nat.isDigit_of_mem_toDigits (by decide) (by decide) member)⟩

/-- The digits of a number stand for it. -/
theorem number_digitsOf {value : Int} (nonneg : 0 ≤ value) : (digitsOf value).number = value := by
  -- Reading the digits undoes writing them.
  obtain ⟨value, rfl⟩ := Int.eq_ofNat_of_zero_le nonneg
  rw [digitsOf_natCast, Numeral.number, Nat.ofDigitChars_toDigits (by decide) (by decide)]

/-- A natural number can be written when it is below the power of ten with as many
zeros as digits are allowed. -/
theorem writable_natCast_iff {value : Nat} :
    Writable value ↔ value < Nat.pow 10 maxNumeralDigits := by
  -- A natural number is its own size.
  unfold Writable numeralBound
  rw [Int.natAbs_natCast]

/-- A number has few digits exactly when it can be written. -/
theorem short_digitsOf_iff {value : Int} (nonneg : 0 ≤ value) :
    (digitsOf value).Short ↔ Writable value := by
  -- The digits are as many as the power of ten that the number stays below.
  obtain ⟨value, rfl⟩ := Int.eq_ofNat_of_zero_le nonneg
  rw [digitsOf_natCast, Numeral.Short, Nat.length_toDigits_le_iff (by decide) (by decide),
    writable_natCast_iff, Nat.pow_eq]

/-- Digits stand for a number below the power of ten with as many zeros. -/
theorem ofDigitChars_lt {digits : List Char} (all : ∀ c ∈ digits, isDigit c = true) (init : Nat) :
    Nat.ofDigitChars 10 digits init < (init + 1) * Nat.pow 10 digits.length := by
  -- The digits in front are part of the accumulated number.
  induction digits generalizing init with
  | nil => simp
  | cons c digits ih =>
    have here := all c List.mem_cons_self
    have later :=
      ih (fun d member => all d (List.mem_cons_of_mem c member)) (10 * init + (c.toNat - '0'.toNat))
    -- A digit adds nine at most.
    have small : c.toNat - '0'.toNat ≤ 9 := by
      simp only [isDigit, Bool.and_eq_true, decide_eq_true_eq] at here
      have high : c.toNat ≤ '9'.toNat := here.2
      have top : '9'.toNat = '0'.toNat + 9 := rfl
      omega
    rw [Nat.ofDigitChars_cons]
    calc Nat.ofDigitChars 10 digits (10 * init + (c.toNat - '0'.toNat))
      _ < (10 * init + (c.toNat - '0'.toNat) + 1) * Nat.pow 10 digits.length := later
      _ ≤ ((init + 1) * 10) * Nat.pow 10 digits.length := Nat.mul_le_mul_right _ (by omega)
      _ = (init + 1) * Nat.pow 10 (digits.length + 1) := by
        rw [Nat.pow_eq, Nat.pow_eq, Nat.pow_succ, Nat.mul_assoc, Nat.mul_comm 10]

/-- A number that was written with few digits can be written. -/
theorem Numeral.Proper.writable {digits : Numeral} (proper : digits.Proper) (short : digits.Short) :
    Writable digits.number := by
  -- A number with so many digits stays below that power of ten.
  have below := ofDigitChars_lt proper.2 0
  have few : Nat.pow 10 digits.length ≤ Nat.pow 10 maxNumeralDigits := by
    rw [Nat.pow_eq, Nat.pow_eq]
    exact Nat.pow_le_pow_right (by decide) short
  rw [Nat.zero_add, Nat.one_mul] at below
  exact writable_natCast_iff.mpr (Nat.lt_of_lt_of_le below few)

/-- A text is written when all numbers in it can be. -/
theorem written_eq_ok {numbers : List Int} {text : String}
    (writable : ∀ number ∈ numbers, Writable number) :
    written numbers text = .ok text := by
  -- Only the check could have failed.
  have checked : checkNumbers numbers = .ok () := if_pos writable
  rw [written, checked]
  rfl

end Numbers

section Names

/-- Escaping is undone by reading. -/
theorem unescape_escapeName (name : List Char) : unescape (escapeName name) = name := by
  -- Each character was written as it is or behind a backslash of its own.
  induction name with
  | nil => rfl
  | cons c name ih =>
    unfold escapeName
    by_cases special : c = '"' ∨ c = '\\'
    · simp [special, unescape, ih]
    · have plain : c ≠ '\\' := fun same => special (.inr same)
      rw [if_neg special]
      simp [unescape, plain, ih]

/-- An escaped name may stand between quotes. -/
theorem quotable_escapeName {name : List Char} (oneLine : '\n' ∉ name) :
    Quotable (escapeName name) := by
  -- Quotes and backslashes come in pairs with a backslash in front, and no
  -- other character is special.
  induction name with
  | nil => exact quotable_nil
  | cons c name ih =>
    simp only [List.mem_cons, not_or] at oneLine
    have others := ih oneLine.2
    have sameLine : c ≠ '\n' := Ne.symm oneLine.1
    unfold escapeName
    split
    · exact quotable_pair.mpr ⟨sameLine, others⟩
    · rename_i plain
      rw [not_or] at plain
      exact (quotable_cons plain.2).mpr ⟨plain.1, sameLine, others⟩

/-- The written form of a name spells it, where nothing continues it. -/
theorem spellsName_nameText {name : String} (oneLine : '\n' ∉ name.toList) {rest : List Char}
    (ends : ∀ c ∈ rest.head?, continuesName c = false) :
    SpellsName name.toList (nameText name).toList rest := by
  -- A name is bare or stands between quotes, depending on its characters.
  unfold nameText
  split
  · rename_i bare
    rw [Bool.and_eq_true] at bare
    exact .bare bare.1 ends
  · have quoted := @SpellsName.quoted _ rest (quotable_escapeName oneLine)
    rw [unescape_escapeName] at quoted
    rw [String.toList_ofList]
    exact quoted

end Names

section Passing

/-- A lexeme may follow at once. -/
theorem Passes.here {lexeme text rest : List Char} {lexemes : List (List Char)}
    (more : Passes lexemes text rest) :
    Passes (lexeme :: lexemes) (lexeme ++ text) rest :=
  -- No blank is needed in front of a lexeme.
  @Passes.cons [] lexeme text rest lexemes (fun _ member => (List.not_mem_nil member).elim) more

/-- A lexeme may follow behind a space. -/
theorem Passes.spaced {lexeme text rest : List Char} {lexemes : List (List Char)}
    (more : Passes lexemes text rest) :
    Passes (lexeme :: lexemes) (' ' :: lexeme ++ text) rest :=
  -- A single blank is written in front of a lexeme.
  @Passes.cons [' '] lexeme text rest lexemes (by simp [Blank, isBlank]) more

end Passing

section Parts

/-- An interval as a phrase. -/
def writtenBounds (lower upper : Option Int) : BoundsPhrase :=
  -- A bound that is missing is left out.
  ⟨lower.map digitsOf, upper.map digitsOf⟩

/-- The written form of an interval starts with the word for it and spells the interval. -/
theorem spelled_boundsText {lower upper : Option Int} (lowerNonneg : ∀ bound ∈ lower, 0 ≤ bound)
    (upperNonneg : ∀ bound ∈ upper, 0 ≤ bound) :
    ∃ behind, (boundsText (lower.map toString) (upper.map toString)).toList =
      "bytes".toList ++ behind ∧
      (writtenBounds lower upper).Spelled behind [] := by
  -- Written numbers are proper numerals, as they are not negative.
  have proper : ∀ digits ∈ (writtenBounds lower upper).numerals, digits.Proper := by
    intro digits member
    simp only [BoundsPhrase.numerals, writtenBounds, List.mem_append, Option.mem_toList,
      Option.map_eq_some_iff] at member
    rcases member with ⟨bound, given, rfl⟩ | ⟨bound, given, rfl⟩
    · exact proper_digitsOf (lowerNonneg bound given)
    · exact proper_digitsOf (upperNonneg bound given)
  -- A bound that is left out leaves nothing between the marks.
  cases lower with
  | none =>
    cases upper with
    | none => exact ⟨_, by simp [boundsText, toString], proper, .spaced (.here (.spaced .nil))⟩
    | some upper => exact ⟨_, by simp [boundsText, digitsOf, toString], proper,
        .spaced (.here (.spaced (.here .nil)))⟩
  | some lower =>
    cases upper with
    | none => exact ⟨_, by simp [boundsText, digitsOf, toString], proper,
        .spaced (.here (.here (.spaced .nil)))⟩
    | some upper => exact ⟨_, by simp [boundsText, digitsOf, toString], proper,
        .spaced (.here (.here (.spaced (.here .nil))))⟩

/-- An axis as a phrase at a given place. A step of one is left out. -/
def Axis.phrase (axis : Axis) (before after : Nat) : AxisPhrase where
  -- A step of one is left out, as in the written form.
  start := digitsOf axis.start
  step := if axis.step = 1 then none else some (digitsOf axis.step)
  count := digitsOf axis.count
  size := digitsOf axis.size
  before := before
  after := after

/-- The numbers of a well-formed axis are not negative. -/
theorem Axis.Valid.nonneg {axis : Axis} (valid : axis.Valid) :
    ∀ number ∈ axis.fields, 0 ≤ number := by
  -- The step and the count are even positive.
  obtain ⟨start, step, count, size, _⟩ := valid
  simp only [fields, List.mem_cons, List.not_mem_nil, or_false]
  rintro number (rfl | rfl | rfl | rfl) <;> omega

/-- The phrase of an axis is written with the digits of its numbers. -/
theorem Axis.numerals_phrase {axis : Axis} {before after : Nat} {digits : Numeral}
    (member : digits ∈ (axis.phrase before after).numerals) :
    ∃ number ∈ axis.fields, digits = digitsOf number := by
  -- The numerals are those of the fields, except for a step that is left out.
  simp only [AxisPhrase.numerals, phrase, List.mem_cons, List.mem_append, Option.mem_toList,
    List.not_mem_nil, or_false] at member
  rcases member with rfl | given | rfl | rfl
  · exact ⟨axis.start, by simp [fields], rfl⟩
  · split at given
    · cases given
    · cases given
      exact ⟨axis.step, by simp [fields], rfl⟩
  · exact ⟨axis.count, by simp [fields], rfl⟩
  · exact ⟨axis.size, by simp [fields], rfl⟩

/-- The phrase of a well-formed axis means the axis. -/
theorem Axis.meaning_phrase {axis : Axis} (valid : axis.Valid) (before after : Nat) :
    (axis.phrase before after).meaning = axis := by
  -- A step that was left out is one.
  obtain ⟨start, step, count, size, _⟩ := valid
  have stepped : ((axis.phrase before after).step.map Numeral.number).getD 1 = axis.step := by
    by_cases one : axis.step = 1
    · simp [phrase, one]
    · simp [phrase, one, number_digitsOf (Int.le_of_lt step)]
  rw [AxisPhrase.meaning, stepped]
  simp only [phrase, number_digitsOf start, number_digitsOf (Int.le_of_lt count),
    number_digitsOf size]

/-- The written form of a well-formed axis is the text of its phrase. -/
theorem Axis.isText_phrase {axis : Axis} (valid : axis.Valid) (before after : Nat) :
    (axis.phrase before after).IsText axis.text.toList := by
  refine ⟨fun digits member => ?_, ?_⟩
  · -- The numerals of a text are written numbers.
    obtain ⟨number, own, rfl⟩ := numerals_phrase member
    exact proper_digitsOf (valid.nonneg number own)
  · -- All lexemes behind the first follow after one space each.
    by_cases one : axis.step = 1
    · -- A step of one is left out.
      refine ⟨' ' :: "count".toList ++ (' ' :: digitsOf axis.count ++ (' ' :: "of".toList ++
        (' ' :: digitsOf axis.size ++ []))), ?_, ?_⟩
      · simp [text, phrase, one, digitsOf, toString]
      · simp only [AxisPhrase.further, phrase, one]
        exact .spaced (.spaced (.spaced (.spaced .nil)))
    · refine ⟨' ' :: "step".toList ++ (' ' :: digitsOf axis.step ++ (' ' :: "count".toList ++
        (' ' :: digitsOf axis.count ++ (' ' :: "of".toList ++ (' ' :: digitsOf axis.size ++ []))))),
        ?_, ?_⟩
      · simp [text, phrase, one, digitsOf, toString]
      · simp only [AxisPhrase.further, phrase, one]
        exact .spaced (.spaced (.spaced (.spaced (.spaced (.spaced .nil)))))

/-- The written form of a well-formed axis spells it, behind any blanks. -/
theorem Axis.exists_spelled {axis : Axis} (valid : axis.Valid) {blanks : List Char}
    (blank : Blank blanks) (rest : List Char) :
    ∃ before after, (axis.phrase before after).Spelled (blanks ++ axis.text.toList ++ rest) rest :=
  -- The places are those that the text around the axis has.
  ⟨_, _, blanks, axis.text.toList, blank, rfl, isText_phrase valid _ _, rfl, rfl⟩

/-- A list with commas starts with its first item and a comma, if there are more. -/
theorem toList_intercalate_cons_cons (first second : String) (more : List String) :
    (", ".intercalate (first :: second :: more)).toList =
      first.toList ++ ',' :: ' ' :: (", ".intercalate (second :: more)).toList := by
  -- The first text is followed by the separator and the others.
  simp [String.toList_intercalate, List.intercalate]

/-- The written forms of well-formed axes, with commas between them, spell the axes. -/
theorem exists_spellsAxes {axes : List Axis} (valid : ∀ axis ∈ axes, axis.Valid)
    (nonempty : axes ≠ []) {blanks : List Char} (blank : Blank blanks) (rest : List Char) :
    ∃ phrases, SpellsAxes phrases (blanks ++ (", ".intercalate (axes.map Axis.text)).toList ++
      rest) rest ∧
      phrases.map AxisPhrase.meaning = axes ∧
      ∀ digits ∈ phrases.flatMap AxisPhrase.numerals, ∃ number ∈ axes.flatMap Axis.fields, digits =
        digitsOf number := by
  -- Behind a comma the next axis follows after one space.
  induction axes generalizing blanks with
  | nil => exact (nonempty rfl).elim
  | cons axis axes ih =>
    have first := valid axis List.mem_cons_self
    cases axes with
    | nil =>
      -- A single axis has no comma.
      obtain ⟨before, after, spelled⟩ := Axis.exists_spelled first blank rest
      refine ⟨[axis.phrase before after], ?_, ?_, fun digits member => ?_⟩
      · simpa [String.toList_intercalate, List.intercalate] using SpellsAxes.single spelled
      · simp [Axis.meaning_phrase first]
      · simp only [List.flatMap_cons, List.flatMap_nil, List.append_nil] at member ⊢
        exact Axis.numerals_phrase member
    | cons next axes =>
      have others := fun axis member => valid axis (List.mem_cons_of_mem _ member)
      have space : Blank [' '] := by simp [Blank, isBlank]
      obtain ⟨phrases, spelled, meant, written⟩ := ih others (List.cons_ne_nil _ _) space
      -- The text of the first axis ends at the comma.
      obtain ⟨before, after, here⟩ := Axis.exists_spelled first blank
        (',' :: ' ' :: (", ".intercalate ((next :: axes).map Axis.text)).toList ++ rest)
      refine ⟨axis.phrase before after :: phrases, ?_, ?_, fun digits member => ?_⟩
      · rw [List.map_cons, List.map_cons, toList_intercalate_cons_cons]
        have whole := SpellsAxes.cons here (@Passes.here ",".toList _ _ _ .nil) spelled
        simpa using whole
      · rw [List.map_cons, meant, Axis.meaning_phrase first]
      · rw [List.flatMap_cons, List.mem_append] at member
        rw [List.flatMap_cons]
        rcases member with own | later
        · obtain ⟨number, member, same⟩ := Axis.numerals_phrase own
          exact ⟨number, List.mem_append_left _ member, same⟩
        · obtain ⟨number, member, same⟩ := written digits later
          exact ⟨number, List.mem_append_right _ member, same⟩

end Parts

end Overlap
