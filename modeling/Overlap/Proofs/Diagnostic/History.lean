import Overlap.Diagnostic.Reporter
import Overlap.Proofs.Diagnostic.Excerpt

/-! A reporter keeps one text for each name, the first that it was told. So it renders an error as
the error renders itself exactly when both texts have the same line at the place of the error. -/

namespace Overlap

namespace SourceError

/-- The name of the text that an error is about, if its place is known. -/
def file? (error : SourceError) : Option String :=
  -- An error without a place is about no name.
  error.diagnostic.span.map Span.file

/-- The text that an error brings under a name. -/
def textUnder (error : SourceError) (file : String) : Option String :=
  -- Under any other name the error has nothing to tell.
  if error.file? = some file then error.source else none

end SourceError

/-- The first text that a sequence of errors brings under a name. -/
def firstText (errors : List SourceError) (file : String) : Option String :=
  -- The errors are searched in the order in which they were reported.
  errors.findSome? fun error => error.textUnder file

namespace Reporter

variable {reporter : Reporter} {error : SourceError} {errors : List SourceError}

/-- A learned text is known from then on, unless its name stood for another one before. -/
theorem source?_learn (reporter : Reporter) (name text file : String) :
    (reporter.learn name text).source? file =
      (reporter.source? file).or (if name = file then some text else none) := by
  unfold learn
  cases known : reporter.source? name with
  | some earlier =>
    -- The name keeps its text, and no other name is concerned.
    by_cases same : name = file
    · subst same
      simp [known]
    · simp [same]
  | none =>
    unfold source?
    rw [List.lookup_append]
    by_cases same : name = file
    · subst same
      simp
    · simp [same, List.lookup_cons, beq_eq_false_iff_ne.mpr (Ne.symm same)]

/-- An error is reported behind the others. -/
@[simp] theorem diagnostics_reportError (reporter : Reporter) (error : SourceError) :
    (reporter.reportError error).diagnostics = reporter.diagnostics ++ [error.diagnostic] := by
  -- Learning the text of the error leaves the diagnostics as they are.
  unfold reportError report
  cases error.diagnostic.span with
  | none => rfl
  | some span =>
    cases error.source with
    | none => rfl
    | some text =>
      simp only [learn]
      split <;> rfl

@[simp] theorem source?_report (reporter : Reporter) (diagnostic : Diagnostic) (file : String) :
    (reporter.report diagnostic).source? file = reporter.source? file :=
  -- Reporting a diagnostic adds no text.
  rfl

/-- One error makes its own text known, where none was known under the name. -/
theorem source?_reportError (reporter : Reporter) (error : SourceError) (file : String) :
    (reporter.reportError error).source? file =
      (reporter.source? file).or (error.textUnder file) := by
  -- Only an error that has both a place and a text is learned from.
  unfold reportError SourceError.textUnder SourceError.file?
  cases error.diagnostic.span with
  | none => simp
  | some span =>
    cases error.source with
    | none => simp
    | some text => simpa using reporter.source?_learn span.file text file

/-- A run of errors is reported in its order. -/
theorem diagnostics_foldl (reporter : Reporter) (errors : List SourceError) :
    (errors.foldl reportError reporter).diagnostics = reporter.diagnostics ++
      errors.map SourceError.diagnostic := by
  -- Errors are taken one at a time, so the reporter in front of them is arbitrary.
  induction errors generalizing reporter with
  | nil => simp
  | cons error errors ih => simp [ih]

/-- After a run of errors, the text of a name is the one that was known before or
else the first one of the run. -/
theorem source?_foldl (reporter : Reporter) (errors : List SourceError) (file : String) :
    (errors.foldl reportError reporter).source? file =
      (reporter.source? file).or (firstText errors file) := by
  -- What an error brings is known before the next one comes, so the first text of a name stays.
  induction errors generalizing reporter with
  | nil => simp [firstText]
  | cons error errors ih =>
    -- The first of the errors has the first word, and the others follow if it has none.
    have first : firstText (error :: errors) file =
        (error.textUnder file).or (firstText errors file) := by
      unfold firstText
      rw [← List.singleton_append, List.findSome?_append]
      simp
    rw [List.foldl_cons, ih, source?_reportError, first, Option.or_assoc]

end Reporter

/-- Where all errors about one name bring the same text, the first one
is the text of each of them. -/
theorem firstText_of_alike {errors : List SourceError} {error : SourceError} {file : String}
    (member : error ∈ errors) (named : error.file? = some file)
    (alike : ∀ other ∈ errors, other.file? = some file → other.source = error.source) :
    firstText errors file = error.source := by
  -- Every error about the name would bring the same text, and the others bring none.
  have each : ∀ other ∈ errors, other.textUnder file = error.source ∨
      other.textUnder file = none := by
    intro other reported
    unfold SourceError.textUnder
    split
    · exact .inl (alike other reported (by assumption))
    · exact .inr rfl
  cases found : firstText errors file with
  -- The error itself brings a text under its name, so nothing is found only if that is missing.
  | none =>
    have absent := List.findSome?_eq_none_iff.mp found error member
    rw [SourceError.textUnder, if_pos named] at absent
    exact absent.symm
  -- Whatever is found was brought by one of the errors.
  | some text =>
    obtain ⟨other, reported, brought⟩ := List.exists_of_findSome?_eq_some found
    rcases each other reported with own | none
    · exact brought.symm.trans own
    · exact absurd (brought.symm.trans none) (by simp)

/-- However errors were reported, each of them is rendered with the first text that was reported
under its name. It is rendered as it renders itself if that text has its own line at the place of
the error, in particular if all errors about the name bring the same text, and never otherwise. -/
theorem Reporter.renderTold_reported [Limits] {errors : List SourceError} {index : Nat}
    {error : SourceError} (reported : errors[index]? = some error) (color : Bool) :
    let reporter := errors.foldl reportError {}
    let own := error.diagnostic.shownLine fun _ => error.source
    reporter.diagnostics[index]? = some error.diagnostic ∧
      reporter.renderTold error.diagnostic color =
        error.diagnostic.renderTold (firstText errors) color ∧
      (error.diagnostic.shownLine (firstText errors) = own →
        reporter.renderTold error.diagnostic color = error.renderTold color) ∧
      (error.diagnostic.shownLine (firstText errors) ≠ own →
        ∀ text, error.renderTold color = .ok text →
          reporter.renderTold error.diagnostic color ≠ .ok text) ∧
      ((∀ other ∈ errors, other.file? = error.file? → other.source = error.source) →
        error.diagnostic.shownLine (firstText errors) = own) := by
  intro reporter own
  -- What the reporter knows of a file is the first text that was reported for it.
  have known : reporter.source? = firstText errors :=
    funext fun file => source?_foldl {} errors file
  have told : reporter.renderTold error.diagnostic color =
      error.diagnostic.renderTold (firstText errors) color := by
    rw [Reporter.renderTold, known]
  refine ⟨?_, told, fun same => ?_, fun differs text ownText sameText => ?_, fun alike => ?_⟩
  · -- The diagnostics stand in the order of the reports.
    simp [reporter, diagnostics_foldl, reported]
  · rw [told]
    exact Diagnostic.renderTold_congr same
  · rw [told] at sameText
    -- Two texts that are the same would show the same line.
    have texts := (Diagnostic.eq_render_of_renderTold sameText).symm.trans
      (Diagnostic.eq_render_of_renderTold ownText)
    exact differs (Diagnostic.render_eq_render_iff.mp texts)
  · -- All texts of the file are the same, so the first one is the own one.
    have member := List.mem_of_getElem? reported
    unfold own Diagnostic.shownLine
    cases located : error.diagnostic.span with
    | none => rfl
    | some span =>
      have named : error.file? = some span.file := by simp [SourceError.file?, located]
      rw [Option.bind_some, Option.bind_some,
        firstText_of_alike member named fun other reported same =>
        alike other reported (same.trans named.symm)]

open scoped Limits

/-- Two errors under one name: the second one is rendered with the line of the first text,
and not as it renders itself. -/
theorem Reporter.renderTold_reported_renamed :
    let first : SourceError :=
      ⟨{ message := "bad", span := some ⟨"<location>", 1, 3, 0, 0⟩ }, some "A ? B"⟩
    let second : SourceError :=
      ⟨{ message := "worse", span := some ⟨"<location>", 1, 5, 0, 0⟩ }, some "B ; C"⟩
    let reporter := [first, second].foldl reportError {}
    [first, second][1]? = some second ∧
      reporter.renderTold second.diagnostic false =
        .ok "error: worse\n --> <location>:1:5\n  |\n1 | A ? B\n  |     ^" ∧
      second.renderTold false = .ok "error: worse\n --> <location>:1:5\n  |\n1 | B ; C\n  |     ^" ∧
      reporter.renderTold second.diagnostic false ≠ second.renderTold false := by
  intro first second reporter
  -- The second error on its own shows the text that it came with.
  have own : second.renderTold false =
      .ok "error: worse\n --> <location>:1:5\n  |\n1 | B ; C\n  |     ^" := by
    decide +kernel
  obtain ⟨-, told, -, differs, -⟩ :=
    renderTold_reported (show [first, second][1]? = some second from rfl) false
  refine ⟨rfl, ?_, own, ?_⟩
  · -- Reported, it is shown with the text that the first error had brought under the same name.
    rw [told]
    decide +kernel
  · rw [own]
    exact differs (by decide +kernel) _ own

end Overlap
