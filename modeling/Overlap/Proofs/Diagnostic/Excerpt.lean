import Mathlib.Data.List.TakeWhile
import Overlap.Diagnostic.Render

/-! What a rendered diagnostic shows of its source: one line, and nothing else of
the source has any influence. -/

namespace Overlap

section Lines

/-- A line that a character is put in front of stays one line, or becomes two. -/
theorem consLine_oneLine {lines : List (List Char)} (nonempty : lines ≠ [])
    (each : ∀ line ∈ lines, '\n' ∉ line) (c : Char) :
    consLine c lines ≠ [] ∧ ∀ line ∈ consLine c lines, '\n' ∉ line := by
  -- A line break only adds an empty line, and another character only extends the first one.
  cases lines with
  | nil => exact absurd rfl nonempty
  | cons first others =>
    unfold consLine
    by_cases lineEnd : c = '\n'
    · simpa [lineEnd] using each
    · simpa [lineEnd, Ne.symm lineEnd] using each

/-- No line of a text holds a line end. -/
theorem splitLines_oneLine (text : List Char) :
    splitLines text ≠ [] ∧ ∀ line ∈ splitLines text, '\n' ∉ line := by
  -- The lines are built from the end of the text, one character at a time.
  induction text with
  | nil => simp [splitLines]
  | cons c text ih => exact consLine_oneLine ih.1 ih.2 c

/-- The line that is shown of a source holds no line end. -/
theorem sourceLine_oneLine (source : String) (number : Int) : '\n' ∉ sourceLine source number := by
  -- The line is one of those between line ends, or it is empty.
  have each := (splitLines_oneLine source.toList).2
  have whole : '\n' ∉ if number < 1 then []
      else ((splitLines source.toList)[(number - 1).toNat]?).getD [] := by
    split
    · simp
    · cases found : (splitLines source.toList)[(number - 1).toNat]? with
      | none => simp
      | some line => exact each line (List.mem_of_getElem? found)
  unfold sourceLine
  dsimp only
  generalize (if number < 1 then []
    else ((splitLines source.toList)[(number - 1).toNat]?).getD []) = line at whole ⊢
  split
  · -- The part that is shown of a long line is followed by dots.
    intro member
    rcases List.mem_append.mp member with shown | dots
    · exact whole (List.mem_of_mem_take shown)
    · exact absurd dots (by decide)
  · exact whole

/-- A line is settled by the text that it is the first line of. -/
theorem eq_of_append_lineEnd_eq {line other behind further : List Char} (oneLine : '\n' ∉ line)
    (otherOneLine : '\n' ∉ other) (same : line ++ '\n' :: behind = other ++ '\n' :: further) :
    line = other := by
  -- The characters in front of the first line break are all of the line.
  have first {line behind : List Char} (oneLine : '\n' ∉ line) :
      (line ++ '\n' :: behind).takeWhile (· ≠ '\n') = line := by
    rw [List.takeWhile_append_of_pos]
    · simp
    · intro c member
      simpa using ne_of_mem_of_not_mem member oneLine
  rw [← first oneLine, same, first otherOneLine]

/-- Joined texts follow each other, with the separator in front of each further one. -/
theorem toList_intercalate_cons (separator text : String) (texts : List String) :
    (separator.intercalate (text :: texts)).toList = text.toList ++
      texts.flatMap (separator.toList ++ ·.toList) := by
  -- Every further text comes with its separator in front.
  induction texts generalizing text with
  | nil => simp
  | cons next texts ih =>
    rw [String.intercalate_cons_cons, String.toList_append, ih]
    simp

/-- The characters of a line that follows another one. -/
def furtherLine (line : String) : List Char :=
  -- All lines but the first one follow a line break.
  '\n' :: line.toList

/-- Lines are written one behind the other, with a line end in front of each further one. -/
theorem toList_lines (line : String) (lines : List String) :
    ("\n".intercalate (line :: lines)).toList = line.toList ++ lines.flatMap furtherLine :=
  -- A line break is a separator of one character.
  toList_intercalate_cons "\n" line lines

end Lines

namespace Diagnostic

variable {diagnostic : Diagnostic} {source? other? : String → Option String} {color : Bool}
  {span : Span}

/-- The line of its source that a diagnostic shows, if its place and the source are known. -/
def shownLine (diagnostic : Diagnostic) (source? : String → Option String) : Option (List Char) :=
  -- Without a place or without its text no line is shown.
  diagnostic.span.bind fun span => (source? span.file).map fun source => sourceLine source span.line

/-- An excerpt shows its line behind something that does not depend on the source. -/
theorem exists_excerpt_eq (diagnostic : Diagnostic) (span : Span) (color : Bool) :
    ∃ arrow bar number, ∀ source, ∃ marks remarks, diagnostic.excerpt span source color =
      arrow :: bar :: (number ++ String.ofList (sourceLine source span.line)) :: marks :: remarks :=
  -- The source occurs in the third line, and in what follows it.
  ⟨_, _, _, fun _ => ⟨_, _, rfl⟩⟩

/-- Excerpts are the same exactly when their lines are. -/
theorem flatMap_excerpt_eq_iff {source other : String} :
    (diagnostic.excerpt span source color).flatMap furtherLine =
        (diagnostic.excerpt span other color).flatMap furtherLine ↔
      sourceLine source span.line = sourceLine other span.line := by
  -- The lines in front are the same for all sources, so the first difference is in the source line.
  constructor
  · intro same
    -- What follows the source line depends on it, and may differ in length.
    obtain ⟨arrow, bar, number, shape⟩ := diagnostic.exists_excerpt_eq span color
    obtain ⟨marks, remarks, shown⟩ := shape source
    obtain ⟨otherMarks, otherRemarks, otherShown⟩ := shape other
    rw [shown, otherShown] at same
    simp only [List.flatMap_cons, furtherLine, String.toList_append, String.toList_ofList,
      List.cons_append, List.append_assoc, List.cons.injEq, true_and,
      List.append_cancel_left_eq] at same
    exact eq_of_append_lineEnd_eq (sourceLine_oneLine source span.line)
      (sourceLine_oneLine other span.line) same
  · intro same
    -- The marks are computed from the source line, so equal lines are marked alike.
    unfold excerpt
    rw [same]

/-- Blanks in front of a text make it longer by their number, in all styles. -/
theorem length_styled_blanks (color : Bool) (styles : List Style) (count : Nat) (text : String) :
    (styled color styles (blanks count ++ text)).toList.length =
      count + (styled color styles text).toList.length := by
  -- The control sequences are the same with and without the blanks.
  unfold styled blanks
  split
  · simp only [String.toList_append, String.toList_ofList, List.length_append,
      List.length_replicate]
    omega
  · simp

/-- The closing lines are shorter by three characters at most when the gutter has no column. -/
theorem length_remarks_le (diagnostic : Diagnostic) (gutter : Nat) (color : Bool) :
    ((diagnostic.remarks 1 color).flatMap furtherLine).length ≤
      ((diagnostic.remarks gutter color).flatMap furtherLine).length + 3 := by
  -- A gutter of one column is the narrowest, and up to three lines are indented by it.
  unfold remarks
  cases remark? diagnostic.help <;> cases remark? diagnostic.note <;>
    simp [furtherLine, length_styled_blanks]
  all_goals omega

/-- An excerpt is longer than a bare place. -/
theorem length_place_lt_excerpt (diagnostic : Diagnostic) (span : Span) (source : String)
    (color : Bool) :
    (((styled color [.bold, .blue] " --> " ++ span.text) :: diagnostic.remarks 1 color).flatMap
      furtherLine).length <
      ((diagnostic.excerpt span source color).flatMap furtherLine).length := by
  -- The gutter of an excerpt is at least as wide as the one without a source.
  have remarks := diagnostic.length_remarks_le (toString span.line).length color
  have arrow : (styled color [.bold, .blue] " --> ").toList.length =
      1 + (styled color [.bold, .blue] "--> ").toList.length :=
        length_styled_blanks color _ 1 "--> "
  unfold excerpt
  simp only [List.flatMap_cons, List.cons_append, List.nil_append, furtherLine, List.length_cons,
    List.length_append, String.toList_append, length_styled_blanks, arrow]
  omega

/-- A diagnostic is rendered in the same way for two sources exactly when it
shows the same line of both. -/
theorem render_eq_render_iff : diagnostic.render source? color = diagnostic.render other? color ↔
    diagnostic.shownLine source? = diagnostic.shownLine other? := by
  rw [← String.toList_inj]
  unfold render shownLine
  cases diagnostic.span with
  | none => simp
  | some span =>
    -- Two excerpts differ in their lines, and an excerpt is longer than a place without one.
    have longer (source : String) :=
      Nat.ne_of_lt (diagnostic.length_place_lt_excerpt span source color)
    simp only [toList_lines, List.append_cancel_left_eq, Option.bind_some]
    cases source? span.file with
    | none =>
      cases other? span.file with
      | none =>
        -- Neither file is known, so neither excerpt is shown.
        simp
      | some other =>
        exact iff_of_false (fun same => longer other (congrArg List.length same)) (by simp)
    | some source =>
      cases other? span.file with
      | none =>
        exact iff_of_false (fun same => longer source (congrArg List.length same.symm)) (by simp)
      | some other => simpa using flatMap_excerpt_eq_iff

/-- Whether the place of a diagnostic can be marked depends on the line that it shows only. -/
theorem checkPlace_congr [Limits]
    (same : diagnostic.shownLine source? = diagnostic.shownLine other?) :
    diagnostic.checkPlace source? = diagnostic.checkPlace other? := by
  -- Marks depend on the line that is shown, and the numbers of the place do not even depend on it.
  have marks : diagnostic.checkMarks source? = diagnostic.checkMarks other? := by
    unfold shownLine at same
    unfold checkMarks
    cases located : diagnostic.span with
    | none => rfl
    | some span =>
      rw [located, Option.bind_some, Option.bind_some] at same
      dsimp only
      cases first : source? span.file with
      | none =>
        -- A text that is known on one side only would show a line on that side only.
        cases second : other? span.file with
        | none => rfl
        | some other => simp [first, second] at same
      | some source =>
        cases second : other? span.file with
        | none => simp [first, second] at same
        | some other =>
          rw [first, second] at same
          have lines : sourceLine source span.line = sourceLine other span.line :=
            Option.some.inj same
          simp only [lines]
  unfold checkPlace
  rw [marks]

/-- A diagnostic is told in the same way for two sources when it shows the same line of both. -/
theorem renderTold_congr [Limits]
    (same : diagnostic.shownLine source? = diagnostic.shownLine other?) :
    diagnostic.renderTold source? color = diagnostic.renderTold other? color := by
  -- Both the check and the text are determined by the line that is shown.
  unfold renderTold
  rw [checkPlace_congr same, render_eq_render_iff.mpr same]

/-- What is told is the diagnostic as it is rendered. -/
theorem eq_render_of_renderTold [Limits] {text : String}
    (told : diagnostic.renderTold source? color = .ok text) :
    text = diagnostic.render source? color := by
  -- A check that fails tells no text at all.
  unfold renderTold at told
  cases checked : diagnostic.checkPlace source? with
  | error fault =>
    rw [checked] at told
    cases told
  | ok accepted =>
    rw [checked] at told
    exact (Except.ok.inj told).symm

end Diagnostic

end Overlap
