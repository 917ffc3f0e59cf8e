import Mathlib.Data.List.Induction
import Overlap.Proofs.Phrase.Meaning

/-! Every text is a region or is refused with the code that its grammar and its axes call for. -/

namespace Overlap

section Places

/-- The place behind one more character, as line and column. -/
def advance (place : Int × Int) (c : Char) : Int × Int :=
  -- A line break leads to the beginning of the next line.
  if c = '\n' then (place.1 + 1, 1) else (place.1, place.2 + 1)

/-- The place behind a text that starts in the first column of the first line. -/
def placeAfter (text : List Char) : Int × Int :=
  -- Lines and columns are counted from one.
  text.foldl advance (1, 1)

/-- The place before a rest is the place behind the text in front of it. -/
theorem placeBefore_append (front rest : List Char) :
    placeBefore (front ++ rest) rest.length = placeAfter front := by
  have taken : (front ++ rest).take ((front ++ rest).length - rest.length) = front := by simp
  unfold placeBefore
  rw [taken]
  -- A newline starts the count of columns again, and every other character adds to it.
  induction front using List.reverseRecOn with
  | nil => rfl
  | append_singleton front c ih =>
    have place : placeAfter (front ++ [c]) = advance (placeAfter front) c := by simp [placeAfter]
    rw [place, ← ih (by simp), advance]
    by_cases newline : c = '\n' <;> simp [newline]

/-- The place of a piece of text behind the text in front of it. -/
def Span.ofPiece (file : String) (front piece : List Char) : Span :=
  -- The end is the place right behind the piece.
  let start := placeAfter front
  let stop := placeAfter (front ++ piece)
  ⟨file, start.1, start.2, stop.1, stop.2⟩

end Places

section Axes

/-- The text of an axis inside a longer text, at the place that the axis tells. -/
def AxisPhrase.LiesIn (axis : AxisPhrase) (text front own : List Char) : Prop :=
  -- The places of the phrase are lengths of what is left, counted from the
  -- front and the end of the axis.
  ∃ behind, text = front ++ own ++ behind ∧ axis.IsText own ∧ axis.before = (own ++ behind).length ∧
    axis.after = behind.length

/-- An axis lies in every text that ends with one that it lies in. -/
theorem AxisPhrase.LiesIn.of_suffix {axis : AxisPhrase} {text list front own : List Char}
    (lies : axis.LiesIn list front own) (ends : list <:+ text) :
    ∃ front, axis.LiesIn text front own := by
  -- More text in front moves the axis, and changes nothing of what is left behind it.
  obtain ⟨behind, rfl, isText, before, after⟩ := lies
  obtain ⟨more, rfl⟩ := ends
  exact ⟨more ++ front, behind, by simp, isText, before, after⟩

/-- Each of several axes lies in their text. -/
theorem SpellsAxes.liesIn {axes : List AxisPhrase} {text rest : List Char}
    (spelled : SpellsAxes axes text rest) {axis : AxisPhrase} (member : axis ∈ axes) :
    ∃ front own, axis.LiesIn text front own := by
  -- What is found in the text behind a comma lies in the whole text, which ends with it.
  induction spelled with
  | single first =>
    obtain ⟨blanks, own, _, rfl, isText, before, after⟩ := first
    cases List.mem_singleton.mp member
    exact ⟨blanks, own, _, rfl, isText, before, after⟩
  | cons first comma more ih =>
    obtain ⟨blanks, own, _, rfl, isText, before, after⟩ := first
    rcases List.mem_cons.mp member with rfl | member
    · exact ⟨blanks, own, _, rfl, isText, before, after⟩
    · obtain ⟨front, own, lies⟩ := ih member
      obtain ⟨front, lies⟩ := lies.of_suffix (comma.suffix.trans (List.suffix_append _ _))
      exact ⟨front, own, lies⟩

/-- Each axis of a phrase lies in its text. -/
theorem Phrase.Spelled.liesIn {phrase : Phrase} {text : List Char} (spelled : phrase.Spelled text)
    {axis : AxisPhrase} (member : axis ∈ phrase.form.axes) :
    ∃ front own, axis.LiesIn text front own := by
  obtain ⟨name, form⟩ := phrase
  obtain ⟨lexeme, behind, rest, named, _, formed, _⟩ := spelled
  -- Only an array has axes, and its list is an end of the whole text.
  cases formed with
  | dims word listed close size =>
    obtain ⟨front, own, lies⟩ := listed.liesIn member
    obtain ⟨front, lies⟩ := lies.of_suffix (word.suffix.trans named.suffix)
    exact ⟨front, own, lies⟩
  | bytes | whole | wholeBytes => cases member

end Axes

section Verdict

/-- A text is refused with a report. -/
def RefusedWith (file text : String) (report : SourceError) : Prop :=
  -- Errors without a place are not refused with a report.
  ∃ error, readRegion text = .error error ∧ error.sourceError? file text = some report

/-- A text that spells a phrase is read as that phrase. -/
theorem readRegion_of_spelled {text : String} {phrase : Phrase}
    (spelled : phrase.Spelled text.toList) :
    readRegion text = phrase.region := by
  -- A spelled phrase is what is read, so only its meaning can fail.
  rw [readRegion, Phrase.read_eq_ok_iff.mpr spelled]

/-- Reading stops in every other text. -/
theorem readRegion_of_not_spelled {text : String}
    (none : ¬ ∃ phrase : Phrase, phrase.Spelled text.toList) :
    ∃ rest, readRegion text = .error (.unexpected rest) := by
  -- A text that is read is spelled.
  unfold readRegion
  cases found : Phrase.read text.toList with
  | ok phrase => exact (none ⟨phrase, Phrase.read_eq_ok_iff.mp found⟩).elim
  | error rest => exact ⟨rest, rfl⟩

/-- Exactly the regions that are meant by short and well-formed phrases are found. -/
theorem readRegion_eq_ok_iff {text : String} {region : Region} :
    readRegion text = .ok region ↔
      ∃ phrase : Phrase, phrase.Spelled text.toList ∧ phrase.AllValid ∧ phrase.Short ∧
        region = phrase.meaning := by
  -- What was read was spelled, as any other text is unexpected.
  constructor
  · intro found
    by_cases grammatical : ∃ phrase : Phrase, phrase.Spelled text.toList
    · obtain ⟨phrase, spelled⟩ := grammatical
      rw [readRegion_of_spelled spelled] at found
      obtain ⟨short, valid, same⟩ := Phrase.region_eq_ok_iff.mp found
      exact ⟨phrase, spelled, valid, short, same⟩
    · obtain ⟨rest, failed⟩ := readRegion_of_not_spelled grammatical
      cases found.symm.trans failed
  · intro meant
    obtain ⟨phrase, spelled, valid, short, same⟩ := meant
    rw [readRegion_of_spelled spelled]
    exact Phrase.region_eq_ok_iff.mpr ⟨short, valid, same⟩

/-- A text without a phrase is unexpected, and no other one is. -/
theorem readRegion_eq_unexpected_iff {text : String} :
    (∃ rest, readRegion text = .error (.unexpected rest)) ↔
      ¬ ∃ phrase : Phrase, phrase.Spelled text.toList := by
  -- A spelled phrase fails with a reason of its own, and never as unexpected.
  refine ⟨fun failed grammatical => ?_, readRegion_of_not_spelled⟩
  obtain ⟨rest, failed⟩ := failed
  obtain ⟨phrase, spelled⟩ := grammatical
  rw [readRegion_of_spelled spelled] at failed
  rcases Phrase.region_error_cases failed with ⟨_, _, _, other⟩ | ⟨other, _⟩ <;> cases other

/-- An axis is refused where it is the leftmost one that is not well formed. -/
theorem readRegion_eq_invalidAxis_iff {text : String} {axis : Axis} {before after : Nat} :
    readRegion text = .error (.invalidAxis axis before after) ↔
      ∃ (phrase : Phrase) (front : List AxisPhrase) (bad : AxisPhrase),
        phrase.Spelled text.toList ∧ phrase.FirstInvalid front bad ∧
        (∀ axis ∈ front, axis.Short) ∧ bad.Short ∧ bad.meaning.FlawWritable ∧
        axis = bad.meaning ∧ before = bad.before ∧ after = bad.after := by
  -- Both sides speak of a spelled phrase, whose meaning decides.
  constructor
  · intro failed
    by_cases grammatical : ∃ phrase : Phrase, phrase.Spelled text.toList
    · obtain ⟨phrase, spelled⟩ := grammatical
      rw [readRegion_of_spelled spelled] at failed
      obtain ⟨front, bad, first⟩ := Phrase.region_eq_invalidAxis_iff.mp failed
      exact ⟨phrase, front, bad, spelled, first⟩
    · -- A text that is no phrase is refused as such.
      obtain ⟨rest, other⟩ := readRegion_of_not_spelled grammatical
      cases failed.symm.trans other
  · intro first
    obtain ⟨phrase, front, bad, spelled, first⟩ := first
    rw [readRegion_of_spelled spelled]
    exact Phrase.region_eq_invalidAxis_iff.mpr ⟨front, bad, first⟩

/-- The report about an axis marks the text of the axis. -/
theorem sourceError?_of_liesIn {file text : String} {axis : AxisPhrase} {front own : List Char}
    (lies : axis.LiesIn text.toList front own) :
    ∃ report, (PhraseError.invalidAxis axis.meaning axis.before axis.after).sourceError? file text =
      some report ∧
      report.diagnostic.code = some invalidAxisCode ∧
      report.diagnostic.span = some (Span.ofPiece file front own) := by
  -- Both ends of the axis are told by the length of the text behind them.
  obtain ⟨behind, split, _, before, after⟩ := lies
  have start : placeBefore text.toList axis.before = placeAfter front := by
    rw [split, before, List.append_assoc, placeBefore_append]
  have stop : placeBefore text.toList axis.after = placeAfter (front ++ own) := by
    rw [split, after, placeBefore_append]
  rw [PhraseError.sourceError?, start, stop]
  exact ⟨_, rfl, rfl, rfl⟩

/-- A text is settled by its grammar and its axes. It gives the region that is meant when it spells
a phrase whose axes are all well formed; it is refused with the one code, at the text of the
leftmost axis that is not, when there is such an axis; and it is refused with the other code when it
spells no phrase. Nothing else happens, except that a number may be too long. -/
theorem readRegion_settled (file text : String) :
    (∀ region, readRegion text = .ok region ↔
      ∃ phrase : Phrase, phrase.Spelled text.toList ∧ phrase.AllValid ∧ phrase.Short ∧
        region = phrase.meaning) ∧
    (∀ span, (∃ report, RefusedWith file text report ∧ report.diagnostic.code = some "E0102" ∧
        report.diagnostic.span = span) ↔
      ∃ (phrase : Phrase) (front : List AxisPhrase) (bad : AxisPhrase) (before own : List Char),
        phrase.Spelled text.toList ∧ phrase.FirstInvalid front bad ∧
        (∀ axis ∈ front, axis.Short) ∧ bad.Short ∧ bad.meaning.FlawWritable ∧
        bad.LiesIn text.toList before own ∧ span = some (Span.ofPiece file before own)) ∧
    ((∃ report, RefusedWith file text report ∧ report.diagnostic.code = some "E0101") ↔
      ¬ ∃ phrase : Phrase, phrase.Spelled text.toList) ∧
    (readRegion text = .error .longNumeral →
      ∃ phrase : Phrase, phrase.Spelled text.toList ∧
        (¬ phrase.Short ∨ ∃ axis ∈ phrase.form.axes, ¬ Writable axis.meaning.last)) := by
  refine ⟨fun region => readRegion_eq_ok_iff, fun span => ⟨?_, ?_⟩, ⟨?_, ?_⟩, ?_⟩
  · -- The code tells which of the failures was reported, and the failure tells the axis.
    rintro ⟨report, ⟨error, failed, told⟩, code, rfl⟩
    cases error with
    | invalidAxis axis before after =>
      obtain ⟨phrase, front, bad, spelled, first, frontShort, short, flaw, rfl, rfl, rfl⟩ :=
        readRegion_eq_invalidAxis_iff.mp failed
      obtain ⟨behind, split⟩ := first.1
      have member : bad ∈ phrase.form.axes := by simp [split]
      obtain ⟨before, own, lies⟩ := spelled.liesIn member
      obtain ⟨other, same, _, place⟩ := @sourceError?_of_liesIn file _ _ _ _ lies
      cases told.symm.trans same
      exact ⟨phrase, front, bad, before, own, spelled, first, frontShort, short, flaw, lies, place⟩
    | unexpected rest =>
      cases told
      simp [syntaxCode] at code
    | longNumeral => cases told
  · -- The first invalid axis is reported where it lies.
    rintro ⟨phrase, front, bad, before, own, spelled, first, frontShort, short, flaw, lies, rfl⟩
    obtain ⟨report, told, code, place⟩ := @sourceError?_of_liesIn file _ _ _ _ lies
    have failed := readRegion_eq_invalidAxis_iff.mpr
      ⟨phrase, front, bad, spelled, first, frontShort, short, flaw, rfl, rfl, rfl⟩
    exact ⟨report, ⟨_, failed, told⟩, code, place⟩
  · -- Only a text that is no phrase is reported with this code.
    rintro ⟨report, ⟨error, failed, told⟩, code⟩
    cases error with
    | unexpected rest => exact readRegion_eq_unexpected_iff.mp ⟨rest, failed⟩
    | invalidAxis axis before after =>
      cases told
      simp [invalidAxisCode] at code
    | longNumeral => cases told
  · -- A text that is no phrase is refused at some place.
    intro ungrammatical
    obtain ⟨rest, failed⟩ := readRegion_of_not_spelled ungrammatical
    exact ⟨_, ⟨_, failed, rfl⟩, rfl⟩
  · -- Only a phrase has numbers that could be too long.
    intro failed
    by_cases grammatical : ∃ phrase : Phrase, phrase.Spelled text.toList
    · obtain ⟨phrase, spelled⟩ := grammatical
      rw [readRegion_of_spelled spelled] at failed
      rcases Phrase.region_error_cases failed with ⟨_, _, _, other⟩ | ⟨_, long⟩
      · cases other
      · exact ⟨phrase, spelled, long⟩
    · obtain ⟨rest, other⟩ := readRegion_of_not_spelled grammatical
      cases failed.symm.trans other

end Verdict

end Overlap
