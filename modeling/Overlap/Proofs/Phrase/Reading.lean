import Overlap.Proofs.Phrase.Tokens

/-! Reading accepts exactly the texts of the grammar, and finds the phrase that is spelled. -/

namespace Overlap

section Steps

variable {ε α β : Type}

/-- Steps succeed when the first one does and the others do with its result. -/
theorem bind_eq_ok_iff {first : Except ε α} {more : α → Except ε β} {result : β} :
    (first >>= more) = .ok result ↔ ∃ found, first = .ok found ∧ more found = .ok result := by
  -- A failure in front would be one of the whole.
  constructor
  · intro succeeded
    cases first with
    | error => cases succeeded
    | ok found => exact ⟨found, rfl, succeeded⟩
  · rintro ⟨found, rfl, succeeded⟩
    exact succeeded

/-- A result is changed when there is one. -/
theorem map_eq_ok_iff {first : Except ε α} {change : α → β} {result : β} :
    first.map change = .ok result ↔ ∃ found, first = .ok found ∧ change found = result := by
  -- Changing the answer does not make a failure succeed.
  constructor
  · intro succeeded
    cases first with
    | error => cases succeeded
    | ok found =>
      cases succeeded
      exact ⟨found, rfl, rfl⟩
  · rintro ⟨found, rfl, rfl⟩
    rfl

end Steps

section Follow

/-- No digit follows where none follows behind the blanks. -/
theorem noDigit_of_skipBlanks {text : List Char} (stop : NoDigit (skipBlanks text)) :
    NoDigit text := by
  -- A digit is not blank, so it would be the first character behind the blanks.
  intro c head
  cases text with
  | nil => cases head
  | cons d text =>
    cases head
    by_contra digit
    rw [Bool.not_eq_false] at digit
    rw [skipBlanks_cons (isBlank_of_isDigit digit)] at stop
    exact absurd (stop c rfl) (by simp [digit])

/-- No digit follows where the text ends with blanks. -/
theorem Blank.noDigit {text : List Char} (blank : Blank text) : NoDigit text := by
  -- Behind blanks alone there is nothing, and nothing is no digit.
  apply noDigit_of_skipBlanks
  rw [skipBlanks_eq_nil_iff.mpr blank]
  intro c head
  cases head

namespace Passes

/-- The first character of the next lexeme is the first one behind the blanks. -/
theorem head_skipBlanks {first : Char} {more text rest : List Char} {lexemes : List (List Char)}
    (passes : Passes ((first :: more) :: lexemes) text rest) (solid : isBlank first = false) :
    (skipBlanks text).head? = some first := by
  -- The first lexeme begins right behind the blanks.
  obtain ⟨behind, next, _⟩ := cons_iff.mp passes
  rw [(single_iff_skipBlanks ⟨first, more, rfl, solid⟩).mp next]
  rfl

/-- No digit follows where a lexeme of another kind does. -/
theorem noDigit {first : Char} {more text rest : List Char} {lexemes : List (List Char)}
    (passes : Passes ((first :: more) :: lexemes) text rest)
    (mark : isBlank first = false ∧ isDigit first = false) : NoDigit (skipBlanks text) := by
  -- The first character is known, and it is not a digit.
  intro c head
  rw [passes.head_skipBlanks mark.1] at head
  cases head
  exact mark.2

end Passes

end Follow

namespace Phrase

section Words

/-- A word is not read where a lexeme with another beginning follows. -/
theorem readWord_eq_error_of_passes {keyword : String} {first start : Char}
    {more text rest : List Char} {lexemes : List (List Char)}
    (passes : Passes ((first :: more) :: lexemes) text rest)
    (starts : keyword.toList.head? = some start) (other : isBlank first = false ∧ first ≠ start) :
    readWord keyword text = .error (skipBlanks text) := by
  -- The text goes on with another character than the keyword does.
  apply readWord_eq_error starts
  rw [passes.head_skipBlanks other.1]
  exact fun same => other.2 (Option.some.inj same)

/-- No word is read from blanks. -/
theorem readWord_eq_error_of_blank {keyword : String} {start : Char} {text : List Char}
    (blank : Blank text) (starts : keyword.toList.head? = some start) :
    readWord keyword text = .error (skipBlanks text) := by
  -- The text is over where the keyword should begin.
  apply readWord_eq_error starts
  rw [skipBlanks_eq_nil_iff.mpr blank]
  exact Option.some_ne_none start |>.symm

/-- A number that was read, if there was one, is the next lexeme. -/
theorem passes_of_readNumeral? {digits : Option Numeral} {text rest : List Char}
    (read : readNumeral? text = (digits, rest)) :
    (∀ number ∈ digits, number.Proper) ∧ Passes digits.toList text rest := by
  -- Either a number was found, or nothing was taken.
  unfold readNumeral? at read
  split at read
  · rename_i number behind found
    cases read
    obtain ⟨proper, passes, _⟩ := readNumeral_eq_ok_iff.mp found
    refine ⟨fun number given => ?_, passes⟩
    cases given
    exact proper
  · cases read
    exact ⟨fun number given => (Option.not_mem_none number given).elim, .nil⟩

/-- A number that may be left out is read where it is the next lexeme, as
long as no other digit follows. -/
theorem readNumeral?_eq_iff {digits : Option Numeral} {text rest : List Char}
    (stop : NoDigit (skipBlanks rest)) :
    readNumeral? text = (digits, rest) ↔
      (∀ number ∈ digits, number.Proper) ∧ Passes digits.toList text rest := by
  -- The condition on the rest makes the number end where its lexeme does.
  constructor
  · exact passes_of_readNumeral?
  · intro spelled
    obtain ⟨proper, passes⟩ := spelled
    unfold readNumeral?
    cases digits with
    | none =>
      -- Without digits nothing is taken, as the next lexeme is no number.
      cases passes
      cases found : readNumeral text with
      | error => rfl
      | ok read =>
        obtain ⟨digits, behind⟩ := read
        obtain ⟨⟨nonempty, all⟩, next, _⟩ := readNumeral_eq_ok_iff.mp found
        obtain ⟨c, more, rfl⟩ := List.exists_cons_of_ne_nil nonempty
        have digit := all c List.mem_cons_self
        have head := stop c (next.head_skipBlanks (isBlank_of_isDigit digit))
        rw [digit] at head
        cases head
    | some number =>
      rw [readNumeral_eq_ok_iff.mpr ⟨proper number rfl, passes, noDigit_of_skipBlanks stop⟩]

end Words

/-- An interval is read where one is spelled. -/
theorem readBounds_eq_ok_iff {text rest : List Char} {bounds : BoundsPhrase} :
    readBounds text = .ok (bounds, rest) ↔ bounds.Spelled text rest := by
  -- The marks on both sides of a bound are no digits, so a bound is read as far as it goes.
  unfold readBounds
  constructor
  · intro read
    obtain ⟨first, opened, read⟩ := bind_eq_ok_iff.mp read
    obtain ⟨second, parted, read⟩ := bind_eq_ok_iff.mp read
    obtain ⟨third, closed, read⟩ := bind_eq_ok_iff.mp read
    cases read
    replace opened := passes_of_readWord opened
    replace parted := passes_of_readWord parted
    replace closed := passes_of_readWord closed
    obtain ⟨lowerProper, lower⟩ := (readNumeral?_eq_iff (parted.noDigit (by decide))).mp rfl
    obtain ⟨upperProper, upper⟩ := (readNumeral?_eq_iff (closed.noDigit (by decide))).mp rfl
    refine ⟨fun digits member => ?_, ?_⟩
    · simp only [BoundsPhrase.numerals, List.mem_append, Option.mem_toList] at member
      exact member.elim (lowerProper digits) (upperProper digits)
    · -- The parts are passed one after the other.
      exact Passes.cons_iff.mpr ⟨_, opened, Passes.append_iff.mpr ⟨_, lower,
        Passes.cons_iff.mpr ⟨_, parted, Passes.append_iff.mpr ⟨_, upper, closed⟩⟩⟩⟩
  · intro spelled
    -- Each part is read again from the lexemes that spell it.
    obtain ⟨proper, passes⟩ := spelled
    obtain ⟨first, opened, passes⟩ := Passes.cons_iff.mp passes
    obtain ⟨afterLower, lower, passes⟩ := Passes.append_iff.mp passes
    obtain ⟨second, parted, passes⟩ := Passes.cons_iff.mp passes
    obtain ⟨afterUpper, upper, closed⟩ := Passes.append_iff.mp passes
    have lowerRead := (readNumeral?_eq_iff (parted.noDigit (by decide))).mpr
      ⟨fun digits given => proper digits (List.mem_append_left _ (Option.mem_toList.mpr given)),
        lower⟩
    have upperRead := (readNumeral?_eq_iff (closed.noDigit (by decide))).mpr
      ⟨fun digits given => proper digits (List.mem_append_right _ (Option.mem_toList.mpr given)),
        upper⟩
    refine bind_eq_ok_iff.mpr ⟨first, readWord_of_passes opened (by decide), ?_⟩
    rw [lowerRead]
    refine bind_eq_ok_iff.mpr ⟨second, readWord_of_passes parted (by decide), ?_⟩
    rw [upperRead]
    exact bind_eq_ok_iff.mpr ⟨rest, readWord_of_passes closed (by decide), rfl⟩

section Axes

/-- A step that was read, if there was one, is spelled there. -/
theorem passes_of_readStep {text rest : List Char} {step : Option Numeral}
    (read : readStep text = .ok (step, rest)) :
    (∀ number ∈ step, number.Proper) ∧ Passes (AxisPhrase.stepLexemes step) text rest := by
  -- Either the keyword and a number were found, or nothing was taken.
  unfold readStep at read
  split at read
  · rename_i found
    obtain ⟨⟨number, next⟩, found', same⟩ := map_eq_ok_iff.mp read
    cases same
    obtain ⟨proper, passes, _⟩ := readNumeral_eq_ok_iff.mp found'
    refine ⟨fun digits given => ?_, Passes.cons_iff.mpr ⟨_, passes_of_readWord found, passes⟩⟩
    cases given
    exact proper
  · cases read
    exact ⟨fun number given => (Option.not_mem_none number given).elim, .nil⟩

/-- A step is read where one is spelled, and left out where the count follows. -/
theorem readStep_eq_ok_iff {text rest behind : List Char} {step : Option Numeral}
    {lexemes : List (List Char)} (count : Passes ("count".toList :: lexemes) rest behind) :
    readStep text = .ok (step, rest) ↔
      (∀ number ∈ step, number.Proper) ∧ Passes (AxisPhrase.stepLexemes step) text rest := by
  -- The words for step and count differ in their first letters.
  constructor
  · exact passes_of_readStep
  · intro spelled
    obtain ⟨proper, passes⟩ := spelled
    unfold readStep
    cases step with
    | none =>
      -- Without a step, the next word is the one for the count.
      cases passes
      rw [readWord_eq_error_of_passes count rfl (by decide)]
    | some number =>
      obtain ⟨next, found, passes⟩ := Passes.cons_iff.mp passes
      rw [readWord_of_passes found (by decide)]
      refine map_eq_ok_iff.mpr ⟨(number, rest), ?_, rfl⟩
      exact readNumeral_eq_ok_iff.mpr ⟨proper number rfl, passes,
        noDigit_of_skipBlanks (count.noDigit (by decide))⟩

/-- No digit follows where a step or the count does. -/
theorem noDigit_of_step {text rest behind : List Char} {step : Option Numeral}
    {lexemes : List (List Char)} (stepped : Passes (AxisPhrase.stepLexemes step) text rest)
    (count : Passes ("count".toList :: lexemes) rest behind) : NoDigit text := by
  -- Whatever follows the first number begins with a keyword.
  cases step with
  | none =>
    cases stepped
    exact noDigit_of_skipBlanks (count.noDigit (by decide))
  | some number => exact noDigit_of_skipBlanks (stepped.noDigit (by decide))

/-- Count and size of an axis are read where they are spelled. -/
theorem readExtent_eq_ok_iff {text rest : List Char} {count size : Numeral} :
    readExtent text = .ok ((count, size), rest) ↔
      count.Proper ∧ size.Proper ∧ Passes ["count".toList, count, "of".toList, size] text rest ∧
        NoDigit rest := by
  unfold readExtent
  constructor
  · -- The four steps are undone one by one, and their parts put in a row.
    intro read
    obtain ⟨first, word, read⟩ := bind_eq_ok_iff.mp read
    obtain ⟨⟨_, second⟩, counted, read⟩ := bind_eq_ok_iff.mp read
    obtain ⟨third, between, read⟩ := bind_eq_ok_iff.mp read
    obtain ⟨⟨_, fourth⟩, sized, read⟩ := bind_eq_ok_iff.mp read
    cases read
    obtain ⟨countProper, counted, _⟩ := readNumeral_eq_ok_iff.mp counted
    obtain ⟨sizeProper, sized, stop⟩ := readNumeral_eq_ok_iff.mp sized
    refine ⟨countProper, sizeProper, ?_, stop⟩
    exact Passes.cons_iff.mpr ⟨first, passes_of_readWord word,
      Passes.cons_iff.mpr ⟨second, counted,
        Passes.cons_iff.mpr ⟨third, passes_of_readWord between, sized⟩⟩⟩
  · intro spelled
    obtain ⟨countProper, sizeProper, passes, stop⟩ := spelled
    obtain ⟨first, word, passes⟩ := Passes.cons_iff.mp passes
    obtain ⟨second, counted, passes⟩ := Passes.cons_iff.mp passes
    obtain ⟨third, between, sized⟩ := Passes.cons_iff.mp passes
    -- The count ends where the next keyword begins, so all of its digits are read.
    have noDigit : NoDigit second := noDigit_of_skipBlanks (between.noDigit (by decide))
    refine bind_eq_ok_iff.mpr ⟨first, readWord_of_passes word (by decide), ?_⟩
    refine bind_eq_ok_iff.mpr ⟨(count, second),
      readNumeral_eq_ok_iff.mpr ⟨countProper, counted, noDigit⟩, ?_⟩
    refine bind_eq_ok_iff.mpr ⟨third, readWord_of_passes between (by decide), ?_⟩
    exact bind_eq_ok_iff.mpr ⟨(size, rest),
      readNumeral_eq_ok_iff.mpr ⟨sizeProper, sized, stop⟩, rfl⟩

/-- An axis is read where one is spelled, up to its last digit. -/
theorem readAxis_eq_ok_iff {text rest : List Char} {axis : AxisPhrase} :
    readAxis text = .ok (axis, rest) ↔ axis.Spelled text rest ∧ NoDigit rest := by
  unfold readAxis
  constructor
  · intro read
    -- Start, step and extent were read one after the other.
    obtain ⟨⟨start, first⟩, started, read⟩ := bind_eq_ok_iff.mp read
    obtain ⟨⟨step, second⟩, stepped, read⟩ := bind_eq_ok_iff.mp read
    obtain ⟨⟨⟨count, size⟩, third⟩, extent, read⟩ := bind_eq_ok_iff.mp read
    cases read
    obtain ⟨startProper, started, _⟩ := readNumeral_eq_ok_iff.mp started
    obtain ⟨countProper, sizeProper, extent, stop⟩ := readExtent_eq_ok_iff.mp extent
    obtain ⟨stepProper, stepped⟩ := (readStep_eq_ok_iff extent).mp stepped
    -- What lies between the first digit and the rest is the text of the axis.
    obtain ⟨own, rfl, further⟩ := (Passes.append_iff.mpr ⟨second, stepped, extent⟩).exists_own
    have found := (Passes.single_iff_skipBlanks startProper.solid).mp started
    obtain ⟨blanks, blank, split⟩ := exists_blank_append_skipBlanks text
    refine ⟨⟨blanks, start ++ own, blank, ?_, ⟨?_, own, rfl, further⟩, ?_, rfl⟩, stop⟩
    · rw [List.append_assoc, List.append_assoc, ← found]
      exact split
    · -- All four numbers are proper, each for a reason of its own.
      intro digits member
      simp only [AxisPhrase.numerals, List.mem_cons, List.mem_append, Option.mem_toList,
        List.not_mem_nil, or_false] at member
      rcases member with rfl | given | rfl | rfl
      · exact startProper
      · exact stepProper digits given
      · exact countProper
      · exact sizeProper
    · rw [found, List.append_assoc]
  · intro spelled
    obtain ⟨⟨blanks, own, blank, rfl, ⟨proper, behind, rfl, further⟩, before, after⟩, stop⟩ :=
      spelled
    simp only [AxisPhrase.numerals, List.mem_cons, List.mem_append, Option.mem_toList,
      List.not_mem_nil, or_false] at proper
    -- The text of the axis begins with its start, behind the blanks.
    have startProper := proper axis.start (.inl rfl)
    obtain ⟨second, stepped, extent⟩ := Passes.append_iff.mp (further.extend rest)
    have found : Passes [axis.start] (blanks ++ (axis.start ++ behind) ++ rest) (behind ++ rest) :=
      Passes.single_iff.mpr ⟨blanks, blank, by simp⟩
    have length : (skipBlanks (blanks ++ (axis.start ++ behind) ++ rest)).length = axis.before := by
      rw [(Passes.single_iff_skipBlanks startProper.solid).mp found, before, List.append_assoc]
    -- The start ends where the next word begins.
    have noDigit := noDigit_of_step stepped extent
    refine bind_eq_ok_iff.mpr ⟨(axis.start, behind ++ rest),
      readNumeral_eq_ok_iff.mpr ⟨startProper, found, noDigit⟩, ?_⟩
    refine bind_eq_ok_iff.mpr ⟨(axis.step, second),
      (readStep_eq_ok_iff extent).mpr ⟨?_, stepped⟩, ?_⟩
    · exact fun digits given => proper digits (.inr (.inl given))
    refine bind_eq_ok_iff.mpr ⟨((axis.count, axis.size), rest),
      readExtent_eq_ok_iff.mpr ⟨?_, ?_, extent, stop⟩, ?_⟩
    · exact proper axis.count (.inr (.inr (.inl rfl)))
    · exact proper axis.size (.inr (.inr (.inr rfl)))
    · dsimp only
      rw [length, ← after]
      rfl

/-- Behind a comma reading goes on with another axis. -/
theorem readAxes_of_comma {text behind next : List Char} {axis : AxisPhrase}
    (found : readAxis text = .ok (axis, behind)) (comma : readWord "," behind = .ok next) :
    readAxes text = (readAxes next).map fun others => (axis :: others.1, others.2) := by
  -- The reader matches on results that are known, so all other cases are impossible.
  rw [readAxes]
  split
  · rename_i failed
    cases found.symm.trans failed
  · rename_i again
    cases found.symm.trans again
    split
    · rename_i again
      cases comma.symm.trans again
      rfl
    · rename_i failed
      cases comma.symm.trans failed

/-- Without a comma reading ends with the closing mark. -/
theorem readAxes_of_last {text behind stop : List Char} {axis : AxisPhrase}
    (found : readAxis text = .ok (axis, behind)) (last : readWord "," behind = .error stop) :
    readAxes text = (readWord ")" behind).map fun rest => ([axis], rest) := by
  -- The same results are known, but for the comma that is missing.
  rw [readAxes]
  split
  · rename_i failed
    cases found.symm.trans failed
  · rename_i again
    cases found.symm.trans again
    split
    · rename_i comma
      cases last.symm.trans comma
    · rfl

/-- Axes are read where they are spelled, up to the closing mark. -/
theorem readAxes_eq_ok_iff {text rest : List Char} {axes : List AxisPhrase} :
    readAxes text = .ok (axes, rest) ↔
      ∃ behind, SpellsAxes axes text behind ∧ Passes [")".toList] behind rest := by
  -- One direction follows the reader, the other one the list of axes.
  constructor
  · intro read
    fun_induction readAxes text generalizing axes with
    | case1 => cases read
    | case2 text axis next first behind parted ih =>
      obtain ⟨⟨others, _⟩, found, same⟩ := map_eq_ok_iff.mp read
      cases same
      obtain ⟨last, spelled, closed⟩ := ih found
      exact ⟨last, .cons (readAxis_eq_ok_iff.mp first).1 (passes_of_readWord parted) spelled,
        closed⟩
    | case3 text axis next first stop parted =>
      obtain ⟨_, closed, same⟩ := map_eq_ok_iff.mp read
      cases same
      exact ⟨next, .single (readAxis_eq_ok_iff.mp first).1, passes_of_readWord closed⟩
  · intro spelled
    obtain ⟨behind, spelled, closed⟩ := spelled
    -- The closing mark is no comma, so the last axis is known by it.
    induction spelled with
    | single first =>
      have found :=
        readAxis_eq_ok_iff.mpr ⟨first, noDigit_of_skipBlanks (closed.noDigit (by decide))⟩
      rw [readAxes_of_last found (readWord_eq_error_of_passes closed rfl (by decide))]
      exact map_eq_ok_iff.mpr ⟨rest, readWord_of_passes closed (by decide), rfl⟩
    | @cons axis axes _ _ _ _ first parted more ih =>
      have found :=
        readAxis_eq_ok_iff.mpr ⟨first, noDigit_of_skipBlanks (parted.noDigit (by decide))⟩
      rw [readAxes_of_comma found (readWord_of_passes parted (by decide))]
      exact map_eq_ok_iff.mpr ⟨(axes, rest), ih closed, rfl⟩

end Axes

section Forms

/-- The size of an element that was read, if there was one, is spelled there. -/
theorem spells_of_readElement {text rest : List Char} {element : Option Numeral}
    (read : readElement text = .ok (element, rest)) : SpellsElement element text rest := by
  -- Either the keyword and a number were found, or nothing was taken.
  unfold readElement at read
  split at read
  · rename_i found
    obtain ⟨⟨size, _⟩, sized, same⟩ := map_eq_ok_iff.mp read
    cases same
    obtain ⟨proper, passes, _⟩ := readNumeral_eq_ok_iff.mp sized
    exact .given proper (Passes.cons_iff.mpr ⟨_, passes_of_readWord found, passes⟩)
  · cases read
    exact .absent

/-- The size of an element is read where it is spelled, and left out at the end of the text. -/
theorem readElement_eq_ok_iff {text rest : List Char} {element : Option Numeral}
    (blank : Blank rest) :
    readElement text = .ok (element, rest) ↔ SpellsElement element text rest := by
  -- Nothing but blanks is left, so the word is there or the text has ended.
  constructor
  · exact spells_of_readElement
  · intro spelled
    unfold readElement
    cases spelled with
    | absent => rw [readWord_eq_error_of_blank blank rfl]
    | @given size _ _ proper passes =>
      obtain ⟨behind, found, passes⟩ := Passes.cons_iff.mp passes
      rw [readWord_of_passes found (by decide)]
      exact map_eq_ok_iff.mpr ⟨(size, rest),
        readNumeral_eq_ok_iff.mpr ⟨proper, passes, blank.noDigit⟩, rfl⟩

/-- Axes and element size that were read are spelled there. -/
theorem spells_of_readDims {text rest : List Char} {form : FormPhrase}
    (read : readDims text = .ok (form, rest)) :
    ∃ axes element list behind next, form = .dims axes element ∧ Passes ["(".toList] text list ∧
      SpellsAxes axes list behind ∧ Passes [")".toList] behind next ∧
        SpellsElement element next rest := by
  -- Three steps follow each other, and the closing mark belongs to the axes.
  unfold readDims at read
  obtain ⟨list, opened, read⟩ := bind_eq_ok_iff.mp read
  obtain ⟨⟨axes, next⟩, listed, read⟩ := bind_eq_ok_iff.mp read
  obtain ⟨⟨element, _⟩, sized, read⟩ := bind_eq_ok_iff.mp read
  cases read
  obtain ⟨behind, listed, closed⟩ := readAxes_eq_ok_iff.mp listed
  exact ⟨axes, element, list, behind, next, rfl, passes_of_readWord opened, listed, closed,
    spells_of_readElement sized⟩

/-- Axes and element size are read where they are spelled. -/
theorem readDims_eq_ok_iff {text rest : List Char} {form : FormPhrase} (blank : Blank rest) :
    readDims text = .ok (form, rest) ↔ ∃ axes element list behind next, form = .dims axes element ∧
      Passes ["(".toList] text list ∧ SpellsAxes axes list behind ∧
        Passes [")".toList] behind next ∧
      SpellsElement element next rest := by
  constructor
  · -- What is read is spelled, whatever follows it.
    exact spells_of_readDims
  · intro spelled
    obtain ⟨axes, element, list, behind, next, rfl, opened, listed, closed, sized⟩ := spelled
    -- Blanks at the end are needed for the element size, which must not be cut short.
    refine bind_eq_ok_iff.mpr ⟨list, readWord_of_passes opened (by decide), ?_⟩
    refine bind_eq_ok_iff.mpr ⟨(axes, next), readAxes_eq_ok_iff.mpr ⟨behind, listed, closed⟩, ?_⟩
    exact bind_eq_ok_iff.mpr ⟨(element, rest), (readElement_eq_ok_iff blank).mpr sized, rfl⟩

/-- What was read behind a name is spelled there. -/
theorem spelled_of_readForm {text rest : List Char} {form : FormPhrase}
    (read : readForm text = .ok (form, rest)) :
    form.Spelled text rest := by
  -- The keyword that was found tells the form.
  unfold readForm at read
  split at read
  · rename_i found
    obtain ⟨⟨bounds, _⟩, interval, same⟩ := map_eq_ok_iff.mp read
    cases same
    exact .bytes (passes_of_readWord found) (readBounds_eq_ok_iff.mp interval)
  · split at read
    · rename_i found
      obtain ⟨axes, element, list, behind, next, rfl, opened, listed, closed, sized⟩ :=
        spells_of_readDims read
      exact .dims (Passes.cons_iff.mpr ⟨_, passes_of_readWord found, opened⟩) listed closed sized
    · split at read
      · rename_i next found
        obtain ⟨⟨bounds, _⟩, interval, same⟩ := map_eq_ok_iff.mp read
        cases same
        replace found := passes_of_readWord found
        -- Behind the last keyword, an interval may follow or not.
        unfold readInterval? at interval
        split at interval
        · rename_i word
          exact .wholeBytes (Passes.cons_iff.mpr ⟨next, found, passes_of_readWord word⟩)
            (readBounds_eq_ok_iff.mp interval)
        · cases interval
          exact .whole found
      · cases read

/-- What follows a name is read where it is spelled, up to the end of the text. -/
theorem readForm_eq_ok_iff {text rest : List Char} {form : FormPhrase} (blank : Blank rest) :
    readForm text = .ok (form, rest) ↔ form.Spelled text rest := by
  -- The word behind the name tells the form.
  constructor
  · exact spelled_of_readForm
  · intro spelled
    -- The three words differ in their first letters.
    unfold readForm
    cases spelled with
    | @bytes bounds _ behind _ word interval =>
      rw [readWord_of_passes word (by decide)]
      exact map_eq_ok_iff.mpr ⟨(bounds, rest), readBounds_eq_ok_iff.mpr interval, rfl⟩
    | @dims axes element _ list behind next _ word listed closed sized =>
      rw [readWord_eq_error_of_passes word rfl (by decide)]
      obtain ⟨first, word, opened⟩ := Passes.cons_iff.mp word
      rw [readWord_of_passes word (by decide)]
      exact (readDims_eq_ok_iff blank).mpr ⟨axes, element, list, behind, next, rfl, opened, listed,
        closed, sized⟩
    | whole word =>
      rw [readWord_eq_error_of_passes word rfl (by decide),
        readWord_eq_error_of_passes word rfl (by decide), readWord_of_passes word (by decide)]
      refine map_eq_ok_iff.mpr ⟨({}, rest), ?_, rfl⟩
      rw [readInterval?, readWord_eq_error_of_blank blank rfl]
    | @wholeBytes bounds _ behind _ word interval =>
      rw [readWord_eq_error_of_passes word rfl (by decide),
        readWord_eq_error_of_passes word rfl (by decide)]
      obtain ⟨first, word, bytes⟩ := Passes.cons_iff.mp word
      rw [readWord_of_passes word (by decide)]
      refine map_eq_ok_iff.mpr ⟨(bounds, rest), ?_, rfl⟩
      rw [readInterval?, readWord_of_passes bytes (by decide)]
      exact readBounds_eq_ok_iff.mpr interval

end Forms

/-- Exactly the texts of the grammar are read, each as the phrase that it spells. -/
theorem read_eq_ok_iff {text : List Char} {phrase : Phrase} :
    read text = .ok phrase ↔ phrase.Spelled text := by
  -- That only blanks are left behind the form is what the reader checks last.
  unfold read
  constructor
  · intro succeeded
    obtain ⟨⟨name, behind⟩, named, succeeded⟩ := bind_eq_ok_iff.mp succeeded
    obtain ⟨⟨form, rest⟩, formed, succeeded⟩ := bind_eq_ok_iff.mp succeeded
    dsimp only at succeeded formed
    split at succeeded
    · rename_i ended
      cases succeeded
      have blank := skipBlanks_eq_nil_iff.mp ended
      -- The name and the form are spelled, and nothing but blanks follows.
      obtain ⟨lexeme, passes, spelled⟩ := readName_eq_ok_iff.mp named
      exact ⟨lexeme, behind, rest, passes, spelled, (readForm_eq_ok_iff blank).mp formed, blank⟩
    · cases succeeded
  · intro spelled
    obtain ⟨lexeme, behind, rest, passes, spelled, formed, blank⟩ := spelled
    refine bind_eq_ok_iff.mpr ⟨(phrase.name, behind),
      readName_eq_ok_iff.mpr ⟨lexeme, passes, spelled⟩, ?_⟩
    refine bind_eq_ok_iff.mpr ⟨(phrase.form, rest), (readForm_eq_ok_iff blank).mpr formed, ?_⟩
    dsimp only
    rw [skipBlanks_eq_nil_iff.mpr blank]
    rfl

end Phrase

end Overlap
