import Mathlib.Data.List.DropRight
import Overlap.Proofs.Phrase.Meaning

/-! Where reading stops, what has been read can be completed to a phrase. -/

namespace Overlap

section Lexemes

/-- The lexemes of an axis. -/
def AxisPhrase.lexemes (axis : AxisPhrase) : List (List Char) :=
  -- The first number comes first, and the places of the phrase do not matter.
  axis.start :: axis.further

/-- The lexemes of one or more axes with commas between them. -/
inductive AxesLexemes : List (List Char) → Prop where
  -- The lexemes of an axis have no blanks, so the text around them is not fixed.
  | single {axis : AxisPhrase} (proper : ∀ digits ∈ axis.numerals, digits.Proper) :
      AxesLexemes axis.lexemes
  | cons {axis : AxisPhrase} {lexemes : List (List Char)} (proper : ∀ digits ∈ axis.numerals,
      digits.Proper)
      (more : AxesLexemes lexemes) : AxesLexemes (axis.lexemes ++ ",".toList :: lexemes)

/-- The lexemes of an element size, which may be left out. -/
inductive ElementLexemes : List (List Char) → Prop where
  -- Either both lexemes are there, or none is.
  | absent : ElementLexemes []
  | given {size : Numeral} (proper : size.Proper) : ElementLexemes ["elem".toList, size]

/-- The lexemes that may follow a name. -/
inductive FormLexemes : List (List Char) → Prop where
  -- Each form has its keyword in front.
  | bytes {bounds : BoundsPhrase} (proper : ∀ digits ∈ bounds.numerals, digits.Proper) :
      FormLexemes (["bytes".toList] ++ bounds.lexemes)
  | dims {axes element : List (List Char)} (listed : AxesLexemes axes)
      (size : ElementLexemes element) :
      FormLexemes (["dims".toList, "(".toList] ++ (axes ++ [")".toList] ++ element))
  | whole : FormLexemes ["whole".toList]
  | wholeBytes {bounds : BoundsPhrase} (proper : ∀ digits ∈ bounds.numerals, digits.Proper) :
      FormLexemes (["whole".toList, "bytes".toList] ++ bounds.lexemes)

/-- An axis that is spelled has its lexemes there. -/
theorem AxisPhrase.Spelled.passes {axis : AxisPhrase} {text rest : List Char}
    (spelled : axis.Spelled text rest) :
    (∀ digits ∈ axis.numerals, digits.Proper) ∧ Passes axis.lexemes text rest := by
  -- The first number follows the blanks, and the others follow it.
  obtain ⟨blanks, own, blank, rfl, ⟨proper, behind, rfl, further⟩, -, -⟩ := spelled
  have start : Passes [axis.start] (blanks ++ (axis.start ++ behind) ++ rest) (behind ++ rest) :=
    Passes.single_iff.mpr ⟨blanks, blank, by simp⟩
  exact ⟨proper, Passes.cons_iff.mpr ⟨_, start, further.extend rest⟩⟩

/-- Where the lexemes of an axis are, an axis is spelled. -/
theorem AxisPhrase.exists_spelled {axis : AxisPhrase} {text rest : List Char}
    (proper : ∀ digits ∈ axis.numerals, digits.Proper) (passes : Passes axis.lexemes text rest) :
    ∃ spelled : AxisPhrase, spelled.Spelled text rest := by
  -- The numbers are those of the given axis, and the place is told by the text.
  obtain ⟨behind, start, further⟩ := Passes.cons_iff.mp passes
  obtain ⟨blanks, blank, rfl⟩ := Passes.single_iff.mp start
  obtain ⟨own, rfl, alone⟩ := further.exists_own
  let placed : AxisPhrase :=
    { axis with before := (axis.start ++ own ++ rest).length, after := rest.length }
  exact ⟨placed, blanks, axis.start ++ own, blank, by simp, ⟨proper, own, rfl, alone⟩, rfl, rfl⟩

/-- Axes that are spelled have their lexemes there. -/
theorem SpellsAxes.passes {axes : List AxisPhrase} {text rest : List Char}
    (spelled : SpellsAxes axes text rest) :
    ∃ lexemes, AxesLexemes lexemes ∧ Passes lexemes text rest := by
  -- Axes and commas take turns.
  induction spelled with
  | single first =>
    obtain ⟨proper, passes⟩ := first.passes
    exact ⟨_, .single proper, passes⟩
  | cons first comma more ih =>
    obtain ⟨proper, passes⟩ := first.passes
    obtain ⟨lexemes, listed, others⟩ := ih
    exact ⟨_, .cons proper listed,
      Passes.append_iff.mpr ⟨_, passes, Passes.cons_iff.mpr ⟨_, comma, others⟩⟩⟩

/-- Where the lexemes of axes are, axes are spelled. -/
theorem AxesLexemes.exists_spells {lexemes : List (List Char)} (listed : AxesLexemes lexemes)
    {text rest : List Char} (passes : Passes lexemes text rest) :
    ∃ axes, SpellsAxes axes text rest := by
  -- The lexemes are taken apart where the commas are, and each part is the text of an axis.
  induction listed generalizing text with
  | single proper =>
    obtain ⟨axis, first⟩ := AxisPhrase.exists_spelled proper passes
    exact ⟨[axis], .single first⟩
  | cons proper more ih =>
    obtain ⟨behind, first, passes⟩ := Passes.append_iff.mp passes
    obtain ⟨next, comma, passes⟩ := Passes.cons_iff.mp passes
    obtain ⟨axis, first⟩ := AxisPhrase.exists_spelled proper first
    obtain ⟨axes, others⟩ := ih passes
    exact ⟨axis :: axes, .cons first comma others⟩

/-- What is spelled behind a name has its lexemes there. -/
theorem FormPhrase.Spelled.passes {form : FormPhrase} {text rest : List Char}
    (spelled : form.Spelled text rest) :
    ∃ lexemes, FormLexemes lexemes ∧ Passes lexemes text rest := by
  -- The parts of the form stand in a row, each of them with its lexemes.
  cases spelled with
  | bytes word interval =>
    exact ⟨_, .bytes interval.proper, Passes.append_iff.mpr ⟨_, word, interval.passes⟩⟩
  | dims word listed close size =>
    obtain ⟨axes, listed, passes⟩ := listed.passes
    have closed := Passes.append_iff.mpr ⟨_, passes, close⟩
    -- The element size is the only part that may be missing.
    cases size with
    | absent =>
      refine ⟨_, .dims listed .absent, Passes.append_iff.mpr ⟨_, word, ?_⟩⟩
      rw [List.append_nil]
      exact closed
    | given proper sized =>
      exact ⟨_, .dims listed (.given proper),
        Passes.append_iff.mpr ⟨_, word, Passes.append_iff.mpr ⟨_, closed, sized⟩⟩⟩
  | whole word => exact ⟨_, .whole, word⟩
  | wholeBytes word interval =>
    exact ⟨_, .wholeBytes interval.proper, Passes.append_iff.mpr ⟨_, word, interval.passes⟩⟩

/-- Where lexemes are that may follow a name, a form is spelled. -/
theorem FormLexemes.exists_spelled {lexemes : List (List Char)} (follow : FormLexemes lexemes)
    {text rest : List Char} (passes : Passes lexemes text rest) :
    ∃ form : FormPhrase, form.Spelled text rest := by
  -- The lexemes are taken apart at the marks between the parts.
  cases follow with
  | bytes proper =>
    obtain ⟨behind, word, interval⟩ := Passes.append_iff.mp passes
    exact ⟨_, .bytes word ⟨proper, interval⟩⟩
  | dims listed size =>
    -- Between the word and the closing mark, there are the axes.
    obtain ⟨list, word, passes⟩ := Passes.append_iff.mp passes
    obtain ⟨next, passes, sized⟩ := Passes.append_iff.mp passes
    obtain ⟨behind, passes, close⟩ := Passes.append_iff.mp passes
    obtain ⟨axes, listed⟩ := listed.exists_spells passes
    cases size with
    | absent =>
      cases sized
      exact ⟨_, .dims word listed close .absent⟩
    | given proper => exact ⟨_, .dims word listed close (.given proper sized)⟩
  | whole => exact ⟨_, .whole passes⟩
  | wholeBytes proper =>
    obtain ⟨behind, word, interval⟩ := Passes.append_iff.mp passes
    exact ⟨_, .wholeBytes word ⟨proper, interval⟩⟩

end Lexemes

section Breaks

/-- Of several lexemes some are at the front of a text, with nothing but blanks behind them up to a
stop, and the stop does not start with a blank itself. -/
def Breaks (lexemes : List (List Char)) (text stop : List Char) : Prop :=
  -- The lexemes end somewhere, and what follows there does not begin with a blank.
  ∃ passed missing blanks, lexemes = passed ++ missing ∧ Passes passed text (blanks ++ stop) ∧
    Blank blanks ∧
    skipBlanks stop = stop

/-- Blanks are skipped once. -/
theorem skipBlanks_skipBlanks (text : List Char) : skipBlanks (skipBlanks text) = skipBlanks text :=
  -- Nothing is left to be skipped.
  List.dropWhile_idempotent _ _

/-- Before the first token every lexeme is missing. -/
theorem breaks_skipBlanks (lexemes : List (List Char)) (text : List Char) :
    Breaks lexemes text (skipBlanks text) := by
  -- No lexeme is passed, only the blanks in front.
  obtain ⟨blanks, blank, split⟩ := exists_blank_append_skipBlanks text
  refine ⟨[], lexemes, blanks, rfl, ?_, blank, skipBlanks_skipBlanks text⟩
  rw [← split]
  exact .nil

/-- Lexemes that have been passed come before those that break. -/
theorem Breaks.behind {front lexemes : List (List Char)} {text behind stop : List Char}
    (breaks : Breaks lexemes behind stop) (passes : Passes front text behind) :
    Breaks (front ++ lexemes) text stop := by
  -- The lexemes in front are passed as well.
  obtain ⟨passed, missing, blanks, rfl, more, blank⟩ := breaks
  exact ⟨front ++ passed, missing, blanks, by simp, Passes.append_iff.mpr ⟨_, passes, more⟩, blank⟩

/-- Behind lexemes that break any others may be missing. -/
theorem Breaks.append {lexemes : List (List Char)} {text stop : List Char}
    (breaks : Breaks lexemes text stop) (others : List (List Char)) :
    Breaks (lexemes ++ others) text stop := by
  -- The lexemes behind are missing as well.
  obtain ⟨passed, missing, blanks, rfl, passes, blank⟩ := breaks
  exact ⟨passed, missing ++ others, blanks, by simp, passes, blank⟩

/-- Lexemes stand one behind the other without blanks. -/
theorem passes_flatten (lexemes : List (List Char)) (rest : List Char) :
    Passes lexemes (lexemes.flatten ++ rest) rest := by
  -- The lexemes may stand side by side, as blanks are never required between them.
  induction lexemes with
  | nil => exact .nil
  | cons lexeme lexemes ih =>
    rw [List.flatten_cons, List.append_assoc]
    exact @Passes.cons [] lexeme _ _ _ (fun c member => (List.not_mem_nil member).elim) ih

/-- One more blank keeps a text of blanks. -/
theorem Blank.wider {blanks : List Char} (blank : Blank blanks) : Blank (blanks ++ [' ']) := by
  -- One blank more is still nothing but blanks.
  intro c member
  rcases List.mem_append.mp member with member | member
  · exact blank c member
  · cases List.mem_singleton.mp member
    rfl

/-- A blank and the lexemes that are missing complete the text before a stop. -/
theorem Breaks.complete {lexemes : List (List Char)} {text stop : List Char}
    (breaks : Breaks lexemes text stop) :
    ∃ front more rest, text = front ++ stop ∧ Passes lexemes (front ++ ' ' :: more) rest ∧
      Blank rest := by
  obtain ⟨passed, missing, blanks, rfl, passes, blank, -⟩ := breaks
  obtain ⟨own, rfl, alone⟩ := passes.exists_own
  cases missing with
  | nil =>
    -- Nothing is missing, and the blanks are what is left.
    refine ⟨own ++ blanks, [], blanks ++ [' '], by simp, ?_, blank.wider⟩
    rw [List.append_nil, List.append_assoc]
    exact alone.extend _
  | cons next missing =>
    -- All blanks stand in front of the first lexeme that is missing.
    refine ⟨own ++ blanks, next ++ missing.flatten, [], by simp, ?_,
      fun c member => (List.not_mem_nil member).elim⟩
    have following := @Passes.cons _ next _ _ _ blank.wider (passes_flatten missing [])
    have whole := Passes.append_iff.mpr ⟨_, alone.extend _, following⟩
    simpa using whole

end Breaks

namespace Phrase

section Stops

variable {text stop : List Char}

/-- A single digit is a number. -/
theorem proper_zero : Numeral.Proper ['0'] := by
  -- One digit is enough.
  refine ⟨List.cons_ne_nil _ _, fun c member => ?_⟩
  cases List.mem_singleton.mp member
  rfl

/-- A word that is not read leaves the text from its first token on. -/
theorem breaks_of_readWord {keyword : String} (failed : readWord keyword text = .error stop)
    (lexemes : List (List Char)) : Breaks lexemes text stop := by
  -- Reading stops behind the blanks, where the keyword should be.
  unfold readWord at failed
  split at failed
  · cases failed
  · cases failed
    exact breaks_skipBlanks lexemes text

/-- A number that is not read leaves the text from its first token on. -/
theorem breaks_of_readNumeral (failed : readNumeral text = .error stop)
    (lexemes : List (List Char)) :
    Breaks lexemes text stop := by
  -- Reading stops behind the blanks, where a digit should be.
  unfold readNumeral at failed
  dsimp only at failed
  split at failed
  · cases failed
    exact breaks_skipBlanks lexemes text
  · cases failed

/-- An interval breaks at one of its marks, as the bounds may be left out. -/
theorem breaks_of_readBounds (failed : readBounds text = .error stop) :
    ∃ bounds : BoundsPhrase, (∀ digits ∈ bounds.numerals, digits.Proper) ∧
      Breaks bounds.lexemes text stop := by
  unfold readBounds at failed
  rcases bind_eq_error_iff.mp failed with failed | ⟨first, opened, failed⟩
  · exact ⟨{}, fun digits member => (List.not_mem_nil member).elim, breaks_of_readWord failed _⟩
  replace opened := passes_of_readWord opened
  obtain ⟨lowerProper, lower⟩ := passes_of_readNumeral? (Prod.eta (readNumeral? first)).symm
  rcases bind_eq_error_iff.mp failed with failed | ⟨second, parted, failed⟩
  · -- With the comma the upper bound is missing, or there is none.
    refine ⟨⟨(readNumeral? first).1, none⟩, fun digits member => ?_, ?_⟩
    · rw [BoundsPhrase.numerals, Option.toList_none, List.append_nil, Option.mem_toList] at member
      exact lowerProper digits member
    · exact ((breaks_of_readWord failed _).behind lower).behind opened
  replace parted := passes_of_readWord parted
  obtain ⟨upperProper, upper⟩ := passes_of_readNumeral? (Prod.eta (readNumeral? second)).symm
  rcases bind_eq_error_iff.mp failed with failed | ⟨third, closed, failed⟩
  · -- Both bounds were read, and the closing mark is missing.
    refine ⟨⟨(readNumeral? first).1, (readNumeral? second).1⟩, fun digits member => ?_, ?_⟩
    · simp only [BoundsPhrase.numerals, List.mem_append, Option.mem_toList] at member
      exact member.elim (lowerProper digits) (upperProper digits)
    · exact ((((breaks_of_readWord failed _).behind upper).behind parted).behind lower).behind
        opened
  · cases failed

/-- Count and size break at any of their four lexemes. -/
theorem breaks_of_readExtent (failed : readExtent text = .error stop) :
    ∃ count size : Numeral, count.Proper ∧ size.Proper ∧
      Breaks ["count".toList, count, "of".toList, size] text stop := by
  -- The four parts are read in order, and the first that fails decides how many are passed.
  unfold readExtent at failed
  rcases bind_eq_error_iff.mp failed with failed | ⟨first, word, failed⟩
  · -- A zero stands in for every number that was not reached.
    exact ⟨_, _, proper_zero, proper_zero, breaks_of_readWord failed _⟩
  replace word := passes_of_readWord word
  rcases bind_eq_error_iff.mp failed with failed | ⟨⟨count, second⟩, counted, failed⟩
  · exact ⟨_, _, proper_zero, proper_zero, (breaks_of_readNumeral failed _).behind word⟩
  obtain ⟨proper, counted, -⟩ := readNumeral_eq_ok_iff.mp counted
  rcases bind_eq_error_iff.mp failed with failed | ⟨third, between, failed⟩
  · exact ⟨count, _, proper, proper_zero,
      ((breaks_of_readWord failed _).behind counted).behind word⟩
  replace between := passes_of_readWord between
  rcases bind_eq_error_iff.mp failed with failed | ⟨sized, -, failed⟩
  · exact ⟨count, _, proper, proper_zero,
      (((breaks_of_readNumeral failed _).behind between).behind counted).behind word⟩
  · cases failed

/-- A step breaks behind the word for it. -/
theorem breaks_of_readStep (failed : readStep text = .error stop) :
    ∃ step : Numeral, step.Proper ∧ Breaks (AxisPhrase.stepLexemes (some step)) text stop := by
  -- The keyword was found, so only the number can be missing.
  unfold readStep at failed
  split at failed
  · rename_i behind word
    cases number : readNumeral behind with
    | ok read => simp [number, Except.map] at failed
    | error other =>
      simp only [number, Except.map, Except.error.injEq] at failed
      subst failed
      exact ⟨_, proper_zero, (breaks_of_readNumeral number _).behind (passes_of_readWord word)⟩
  · cases failed

/-- An axis breaks at one of its lexemes. -/
theorem breaks_of_readAxis (failed : readAxis text = .error stop) :
    ∃ axis : AxisPhrase, (∀ digits ∈ axis.numerals, digits.Proper) ∧
      Breaks axis.lexemes text stop := by
  -- Whatever is made up for a missing number is a proper numeral.
  have numerals : ∀ {start count size : Numeral} {step : Option Numeral}, start.Proper →
    (∀ number ∈ step, number.Proper) →
      count.Proper → size.Proper →
        ∀ digits ∈ (⟨start, step, count, size, 0, 0⟩ : AxisPhrase).numerals, digits.Proper := by
    intro start count size step startProper stepProper countProper sizeProper digits member
    simp only [AxisPhrase.numerals, List.mem_cons, List.mem_append, Option.mem_toList,
      List.not_mem_nil, or_false] at member
    rcases member with rfl | given | rfl | rfl
    · exact startProper
    · exact stepProper digits given
    · exact countProper
    · exact sizeProper
  have stepless : ∀ number ∈ (none : Option Numeral), number.Proper :=
    fun number given => (Option.not_mem_none number given).elim
  unfold readAxis at failed
  rcases bind_eq_error_iff.mp failed with failed | ⟨⟨start, first⟩, started, failed⟩
  · -- Nothing was read, and zeros stand for all numbers.
    exact ⟨_, numerals proper_zero stepless proper_zero proper_zero, breaks_of_readNumeral failed _⟩
  obtain ⟨startProper, started, -⟩ := readNumeral_eq_ok_iff.mp started
  rcases bind_eq_error_iff.mp failed with failed | ⟨⟨step, second⟩, stepped, failed⟩
  · -- Count and size are missing along with the number of the step.
    obtain ⟨step, proper, breaks⟩ := breaks_of_readStep failed
    refine ⟨⟨start, some step, ['0'], ['0'], 0, 0⟩,
      numerals startProper ?_ proper_zero proper_zero, ?_⟩
    · intro number given
      cases given
      exact proper
    · exact (breaks.append _).behind started
  obtain ⟨stepProper, stepped⟩ := passes_of_readStep stepped
  rcases bind_eq_error_iff.mp failed with failed | ⟨extent, -, failed⟩
  · -- The start and the step were read, and the rest is made up.
    obtain ⟨count, size, countProper, sizeProper, breaks⟩ := breaks_of_readExtent failed
    exact ⟨⟨start, step, count, size, 0, 0⟩, numerals startProper stepProper countProper sizeProper,
      (breaks.behind stepped).behind started⟩
  · cases failed

/-- Axes break in one of them, or where neither a comma nor the closing mark follows. -/
theorem breaks_of_readAxes (failed : readAxes text = .error stop) :
    ∃ lexemes, AxesLexemes lexemes ∧ Breaks (lexemes ++ [")".toList]) text stop := by
  -- The recursion of the reader is followed, axis by axis.
  fun_induction readAxes text with
  | case1 text other first =>
    cases failed
    obtain ⟨axis, proper, breaks⟩ := breaks_of_readAxis first
    exact ⟨_, .single proper, breaks.append _⟩
  | case2 text axis next first behind parted ih =>
    obtain ⟨proper, passes⟩ := (readAxis_eq_ok_iff.mp first).1.passes
    -- Behind a comma, the axis that fails is one further on.
    cases others : readAxes behind with
    | ok read => simp [others, Except.map] at failed
    | error other =>
      simp only [others, Except.map, Except.error.injEq] at failed
      obtain ⟨lexemes, listed, breaks⟩ := ih (failed ▸ others)
      refine ⟨_, .cons proper listed, ?_⟩
      rw [List.append_assoc]
      exact (breaks.behind (passes_of_readWord parted)).behind passes
  | case3 text axis next first other parted =>
    obtain ⟨proper, passes⟩ := (readAxis_eq_ok_iff.mp first).1.passes
    -- Without a comma, the closing mark is what is missing.
    cases closed : readWord ")" next with
    | ok read => simp [closed, Except.map] at failed
    | error other =>
      simp only [closed, Except.map, Except.error.injEq] at failed
      exact ⟨_, .single proper, (breaks_of_readWord (failed ▸ closed) _).behind passes⟩

/-- An element size breaks behind the word for it. -/
theorem breaks_of_readElement (failed : readElement text = .error stop) :
    ∃ lexemes, ElementLexemes lexemes ∧ Breaks lexemes text stop := by
  -- The keyword was found, so only the number can be missing.
  unfold readElement at failed
  split at failed
  · rename_i behind word
    cases number : readNumeral behind with
    | ok read => simp [number, Except.map] at failed
    | error other =>
      simp only [number, Except.map, Except.error.injEq] at failed
      subst failed
      exact ⟨_, .given proper_zero,
        (breaks_of_readNumeral number _).behind (passes_of_readWord word)⟩
  · cases failed

/-- An array breaks in its axes or in its element size. -/
theorem breaks_of_readDims (failed : readDims text = .error stop) :
    ∃ axes element, AxesLexemes axes ∧ ElementLexemes element ∧
      Breaks ("(".toList :: (axes ++ [")".toList] ++ element)) text stop := by
  -- Where no axis was reached, one of zeros stands in for it.
  have single : AxesLexemes (⟨['0'], none, ['0'], ['0'], 0, 0⟩ : AxisPhrase).lexemes := by
    refine .single fun digits member => ?_
    simp only [AxisPhrase.numerals, Option.toList_none, List.nil_append, List.mem_cons,
      List.not_mem_nil, or_false, or_self] at member
    exact member ▸ proper_zero
  unfold readDims at failed
  -- The mark, the axes and the element size are read in order.
  rcases bind_eq_error_iff.mp failed with failed | ⟨list, opened, failed⟩
  · exact ⟨_, _, single, .absent, breaks_of_readWord failed _⟩
  replace opened := passes_of_readWord opened
  rcases bind_eq_error_iff.mp failed with failed | ⟨⟨axes, next⟩, listed, failed⟩
  · obtain ⟨axes, listed, breaks⟩ := breaks_of_readAxes failed
    exact ⟨axes, _, listed, .absent, (breaks.append _).behind opened⟩
  obtain ⟨behind, listed, closed⟩ := readAxes_eq_ok_iff.mp listed
  obtain ⟨axes, listed, passes⟩ := listed.passes
  rcases bind_eq_error_iff.mp failed with failed | ⟨sized, -, failed⟩
  · obtain ⟨element, size, breaks⟩ := breaks_of_readElement failed
    exact ⟨axes, element, listed, size,
      (breaks.behind (Passes.append_iff.mpr ⟨_, passes, closed⟩)).behind opened⟩
  · cases failed

/-- What follows a name breaks behind one of the three words, or before them. -/
theorem breaks_of_readForm (failed : readForm text = .error stop) :
    ∃ lexemes, FormLexemes lexemes ∧ Breaks lexemes text stop := by
  -- The keyword that was found tells which form breaks off.
  unfold readForm at failed
  split at failed
  · -- The interval of bytes breaks off.
    rename_i behind word
    cases interval : readBounds behind with
    | ok read => simp [interval, Except.map] at failed
    | error other =>
      simp only [interval, Except.map, Except.error.injEq] at failed
      obtain ⟨bounds, proper, breaks⟩ := breaks_of_readBounds (failed ▸ interval)
      exact ⟨_, .bytes proper, breaks.behind (passes_of_readWord word)⟩
  · split at failed
    · -- The list of axes breaks off.
      rename_i behind word
      obtain ⟨axes, element, listed, size, breaks⟩ := breaks_of_readDims failed
      exact ⟨_, .dims listed size, breaks.behind (passes_of_readWord word)⟩
    · split at failed
      · rename_i behind word
        cases interval : readInterval? behind with
        | ok read => simp [interval, Except.map] at failed
        | error other =>
          simp only [interval, Except.map, Except.error.injEq] at failed
          subst failed
          unfold readInterval? at interval
          split at interval
          -- The word for bytes was found, so only its interval can break off.
          · rename_i next bytes
            obtain ⟨bounds, proper, breaks⟩ := breaks_of_readBounds interval
            exact ⟨_, .wholeBytes proper,
              (breaks.behind (passes_of_readWord bytes)).behind (passes_of_readWord word)⟩
          · cases interval
      · rename_i other word
        cases failed
        -- Where no keyword was found, any form would have begun here.
        exact ⟨_, .whole, breaks_of_readWord word _⟩

end Stops

end Phrase

/-- A name does not depend on what follows it, as long as that starts with the same
characters or with a blank. -/
theorem SpellsName.change {name lexeme front stop : List Char}
    (spelled : SpellsName name lexeme (front ++ stop)) (more : List Char) :
    SpellsName name lexeme (front ++ ' ' :: more) := by
  -- A bare name is ended by the blank, or by what ended it before.
  cases spelled with
  | quoted quotable => exact .quoted quotable
  | bare bare longest =>
    refine .bare bare fun c head => ?_
    cases front with
    | nil =>
      cases head
      decide
    | cons d front => exact longest c head

/-- A text that a blank and more text complete to a phrase. -/
def Completable (text : List Char) : Prop :=
  -- A blank ends the last token, so that it is not made longer by what follows.
  ∃ (more : List Char) (phrase : Phrase), phrase.Spelled (text ++ ' ' :: more)

/-- Reading stops in the name, in what follows it, or before a token behind that. -/
theorem Phrase.read_error_cases {text stop : List Char} (failed : Phrase.read text = .error stop) :
    readName text = .error stop ∨ ∃ name behind, readName text = .ok (name, behind) ∧
      (readForm behind = .error stop ∨ ∃ form rest, readForm behind = .ok (form, rest) ∧
        stop = skipBlanks rest) := by
  -- The name, the form and the end are reached one after the other.
  unfold Phrase.read at failed
  rcases bind_eq_error_iff.mp failed with failed | ⟨⟨name, behind⟩, named, later⟩
  · exact .inl failed
  · refine .inr ⟨name, behind, named, ?_⟩
    rcases bind_eq_error_iff.mp later with failed | ⟨⟨form, rest⟩, formed, later⟩
    · exact .inl failed
    · refine .inr ⟨form, rest, formed, ?_⟩
      dsimp only at later
      split at later
      · cases later
      · cases later
        rfl

/-- The text before the place where reading stops can be completed, and no blank follows there. -/
theorem Phrase.completable_of_read {text stop : List Char}
    (failed : Phrase.read text = .error stop) :
    ∃ front, text = front ++ stop ∧ Completable front ∧ skipBlanks stop = stop := by
  rcases Phrase.read_error_cases failed with failed | ⟨name, behind, named, later⟩
  · -- Without a name only blanks have been read, and any phrase may follow.
    unfold readName at failed
    split at failed
    · cases failed
    · cases failed
      obtain ⟨blanks, blank, split⟩ := exists_blank_append_skipBlanks text
      refine ⟨blanks, split,
        ⟨"A whole".toList, ⟨['A'], .whole {}⟩, ['A'], " whole".toList, [], ?_, ?_, ?_, ?_⟩,
        skipBlanks_skipBlanks text⟩
      · exact Passes.single_iff.mpr ⟨blanks ++ [' '], blank.wider, by simp⟩
      · refine .bare (by decide) fun c head => ?_
        cases head
        decide
      · exact .whole
          (Passes.single_iff.mpr ⟨[' '], fun c member => List.mem_singleton.mp member ▸ rfl, rfl⟩)
      · exact fun c member => (List.not_mem_nil member).elim
  obtain ⟨lexeme, passes, spelled⟩ := readName_eq_ok_iff.mp named
  obtain ⟨blanks, blank, rfl⟩ := Passes.single_iff.mp passes
  -- The form breaks, or all of it has been read and something else follows.
  have breaks : ∃ lexemes, FormLexemes lexemes ∧ Breaks lexemes behind stop := by
    rcases later with failed | ⟨form, rest, formed, rfl⟩
    · exact breaks_of_readForm failed
    · obtain ⟨lexemes, follow, passes⟩ := (spelled_of_readForm formed).passes
      have breaks := (breaks_skipBlanks [] rest).behind passes
      rw [List.append_nil] at breaks
      exact ⟨lexemes, follow, breaks⟩
  obtain ⟨lexemes, follow, breaks⟩ := breaks
  have tight : skipBlanks stop = stop := by
    obtain ⟨-, -, -, -, -, -, tight⟩ := breaks
    exact tight
  -- What completes the lexemes completes the phrase.
  obtain ⟨front, more, rest, rfl, passes, blankRest⟩ := breaks.complete
  obtain ⟨form, formed⟩ := follow.exists_spelled passes
  refine ⟨blanks ++ lexeme ++ front, by simp,
    ⟨more, ⟨name, form⟩, lexeme, front ++ ' ' :: more, rest, ?_, spelled.change more, formed,
      blankRest⟩, tight⟩
  exact Passes.single_iff.mpr ⟨blanks, blank, by simp⟩

end Overlap
