import Overlap.Proofs.Diagnostic.History
import Overlap.Proofs.Relation.Telling
import Overlap.Proofs.Report.Problems

/-! What becomes of comparing two texts: a report with one error for each text that is refused, or
the limit that was in the way. -/

namespace Overlap

section Reading

variable {file text : String}

/-- No number of a text is too long to be read, or to be named in an error. -/
def Legible (text : String) : Prop :=
  -- A text may be wrong in any other way.
  readRegion text ≠ .error .longNumeral

/-- Whether a text is legible shows when it is read. -/
instance (text : String) : Decidable (Legible text) :=
  -- The results of reading can be compared.
  inferInstanceAs (Decidable (readRegion text ≠ _))

/-- What is reported about one text: nothing about a region, and otherwise one
error at a place in the text. -/
inductive Reported (file text : String) : Option Region → List Diagnostic → Prop where
  -- A text is read and nothing is reported, or it is refused with one report about itself.
  | read {region : Region} (read : readRegion text = .ok region) :
      Reported file text (some region) []
  | refused {error : SourceError} {span : Span} (refused : RefusedWith file text error)
      (located : error.diagnostic.span = some span) (named : span.file = file) :
      Reported file text none [error.diagnostic]

/-- Only an error about a long number cannot be reported. Every other one
is about a place in the text. -/
theorem sourceError?_located {error : PhraseError} (short : error ≠ .longNumeral) :
    ∃ report span, error.sourceError? file text = some report ∧ report.diagnostic.span = some span ∧
      span.file = file := by
  -- All other errors have a place in the text.
  cases error with
  | unexpected rest => exact ⟨_, _, rfl, rfl, rfl⟩
  | invalidAxis axis before after => exact ⟨_, _, rfl, rfl, rfl⟩
  | longNumeral => exact absurd rfl short

/-- A text with a number that is too long ends the comparison. -/
theorem readReporting_illegible (long : ¬ Legible text) (report : Report) :
    readReporting file text report = .error .longNumeral := by
  -- The only error without a place is a long number.
  have failed : readRegion text = .error .longNumeral := not_not.mp long
  simp [readReporting, failed, PhraseError.sourceError?]

/-- Reading a legible text adds what is reported about it, and nothing else that matters. -/
theorem readReporting_legible (legible : Legible text) (report : Report) :
    ∃ region? errors next, readReporting file text report = .ok (region?, next) ∧
      Reported file text region? errors ∧
      next.reporter.diagnostics = report.reporter.diagnostics ++ errors ∧
        next.outcome = report.outcome := by
  -- Reading ends with a region or with an error, which is not about a long number.
  unfold Legible at legible
  unfold readReporting
  cases result : readRegion text with
  | ok region => exact ⟨some region, [], report, rfl, .read result, by simp, rfl⟩
  | error error =>
    -- The error becomes a diagnostic at the end of the list.
    have short : error ≠ .longNumeral := by
      rintro rfl
      exact legible result
    obtain ⟨sourceError, span, found, located, named⟩ := @sourceError?_located file text error short
    simp only [found]
    exact ⟨none, [sourceError.diagnostic], _, rfl, .refused ⟨error, result, found⟩ located named,
      Reporter.diagnostics_reportError .., rfl⟩

end Reading

section Regions

open Region

variable {left right : Region}

/-- Everything that is said about an answer can be written: the account
of it, and its shared region. -/
def Sayable (left right : Region) (budget : Int) (traced : Bool) (answer : Comparison) : Prop :=
  -- The account and the outcome are written, and everything in them has to be short.
  Tellable traced (account left right budget {} answer) ∧
    ∀ number ∈ answer.outcome.numbers, Writable number

/-- What can be said is settled number by number. -/
instance (left right : Region) (budget : Int) (traced : Bool) (answer : Comparison) :
    Decidable (Sayable left right budget traced answer) :=
  -- Both conditions are about finitely many numbers.
  inferInstanceAs (Decidable (_ ∧ _))

/-- Readable regions are compared without a fault. -/
theorem Region.Readable.answered (leftReadable : left.Readable) (rightReadable : right.Readable)
    (budget : Int) :
    ∃ answer, left.intersect right budget = .ok answer := by
  rcases intersect_cases left right with ⟨breached, -⟩ | ⟨-, outcome, answered⟩
  · -- Both objects have names, and no axis is malformed.
    obtain ⟨leftName, leftNamed, -⟩ := leftReadable.named
    obtain ⟨rightName, rightNamed, -⟩ := rightReadable.named
    rcases breached with none | none | ⟨-, -, malformed⟩
    · cases leftNamed.symm.trans none
    · cases rightNamed.symm.trans none
    · rcases malformed with ⟨-, axis, member, invalid⟩ | ⟨-, axis, member, invalid⟩
      · exact absurd (leftReadable.allValid axis member) invalid
      · exact absurd (rightReadable.allValid axis member) invalid
  · obtain ⟨full, -, -, answer⟩ := answered budget
    exact ⟨_, answer {}⟩

/-- A report shows an answer, and the problems with it if it was checked. -/
structure Report.Shows [Limits] (report : Report) (left right : Region) (answer : Comparison)
    (check : Bool) : Prop where
  -- The report holds the answer, and the problems only if they were asked for.
  outcome : report.outcome = some answer.outcome
  leftParts : report.leftParts = answer.left
  rightParts : report.rightParts = answer.right
  problems : if check then Checked left right answer report.problems else report.problems = []

/-- What becomes of comparing two regions that were read. -/
inductive Compared [Limits] (left right : Region) (budget : Int) (check traced : Bool)
    (report : Report) : Except Failure Report → Prop where
  -- The answer always exists, and what may fail is telling it, checking it, or neither.
  | unsaid {answer : Comparison} (answered : left.intersect right budget = .ok answer)
      (long : ¬ Sayable left right budget traced answer) :
      Compared left right budget check traced report (.error (.fault .longNumber))
  | exceeded {answer : Comparison} {fault : Fault}
      (answered : left.intersect right budget = .ok answer)
      (sayable : Sayable left right budget traced answer) (checked : check = true)
      (exceeds : Exceeds left right answer fault) :
      Compared left right budget check traced report (.error (.fault fault))
  | shown {answer : Comparison} {next : Report}
      (answered : left.intersect right budget = .ok answer)
      (sayable : Sayable left right budget traced answer)
      (within : check = true → ∀ fault, ¬ Exceeds left right answer fault)
      (shows : next.Shows left right answer check)
      (sides : next.left = report.left ∧ next.right = report.right) (reporter : next.reporter =
        report.reporter) :
      Compared left right budget check traced report (.ok next)

/-- Two readable regions are compared, up to the limits of what can be written and listed. -/
theorem compareRegions_compared [Limits] (leftReadable : left.Readable)
    (rightReadable : right.Readable) (leftWritten : ∀ number ∈ left.numbers, Writable number)
    (rightWritten : ∀ number ∈ right.numbers, Writable number) (budget : Int) (check traced : Bool)
    (report : Report) :
    Compared left right budget check traced report
      (compareRegions left right budget check traced report) := by
  -- The comparison itself has an answer; telling it, noting it and checking
  -- it may fail, in this order.
  obtain ⟨answer, answered⟩ := leftReadable.answered rightReadable budget
  unfold compareRegions
  rw [intersectTold_eq answered traced]
  by_cases tellable : Tellable traced (account left right budget {} answer)
  · rw [if_pos tellable]
    by_cases short : ∀ number ∈ answer.outcome.numbers, Writable number
    · -- The note and the account can be written, so that only the check can stop.
      have all : ∀ number ∈ noteNumbers left right answer.outcome, Writable number :=
        List.forall_mem_append.mpr ⟨List.forall_mem_append.mpr ⟨leftWritten, rightWritten⟩, short⟩
      have sayable : Sayable left right budget traced answer := ⟨tellable, short⟩
      simp only [Except.mapError, written_eq_ok all, Bind.bind, Except.bind, Pure.pure, Except.pure]
      cases check with
      | false => exact .shown answered sayable (by simp) ⟨rfl, rfl, rfl, rfl⟩ ⟨rfl, rfl⟩ rfl
      | true =>
        rcases checkProblems_cases leftReadable.allValid rightReadable.allValid answered all with
          ⟨problems, found, checked, within⟩ | ⟨fault, stopped, exceeds⟩
        · simp only [found, if_true]
          exact .shown answered sayable (fun _ => within) ⟨rfl, rfl, rfl, checked⟩ ⟨rfl, rfl⟩ rfl
        · simp only [stopped, if_true]
          exact .exceeded answered sayable rfl exceeds
    · have long : checkNumbers (noteNumbers left right answer.outcome) = .error .longNumber := by
        refine if_neg fun all => short fun number own => all number ?_
        exact List.mem_append_right _ own
      simp only [Except.mapError, written, long, Except.map, Bind.bind, Except.bind]
      exact .unsaid answered fun sayable => short sayable.2
  · rw [if_neg tellable]
    simp only [Except.mapError, Bind.bind, Except.bind]
    exact .unsaid answered fun sayable => tellable sayable.1

end Regions

section Texts

variable {leftText rightText : String} {budget : Int} {check traced : Bool}

/-- A number that is too long, in either text, ends the comparison. -/
theorem compareTexts_illegible [Limits] (long : ¬ (Legible leftText ∧ Legible rightText)) :
    compareTexts leftText (some rightText) budget check traced = .error .longNumeral := by
  by_cases leftLegible : Legible leftText
  · -- The left text is read first, and what was read of it makes no difference.
    obtain ⟨left?, errors, next, read, -⟩ := @readReporting_legible "<lhs>" _ leftLegible {}
    have failed :=
      @readReporting_illegible "<rhs>" rightText (fun legible => long ⟨leftLegible, legible⟩) next
    simp [compareTexts, read, failed, Bind.bind, Except.bind]
  · have failed := @readReporting_illegible "<lhs>" _ leftLegible {}
    simp [compareTexts, failed, Bind.bind, Except.bind]

/-- A report tells what was read from two texts: a region or one error for each
of them, the errors in order. -/
def Report.About (report : Report) (leftText rightText : String) : Prop :=
  -- What was reported is about the two texts, in this order, and about nothing else.
  ∃ leftErrors rightErrors, Reported "<lhs>" leftText report.left leftErrors ∧
    Reported "<rhs>" rightText report.right rightErrors ∧
      report.reporter.diagnostics = leftErrors ++ rightErrors

/-- Legible texts are both read, and compared if both are regions. -/
theorem compareTexts_legible [Limits] (leftLegible : Legible leftText)
    (rightLegible : Legible rightText) (budget : Int) (check traced : Bool) :
    ∃ report : Report, report.About leftText rightText ∧ report.outcome = none ∧
      (report.left = none ∨ report.right = none →
        compareTexts leftText (some rightText) budget check traced = .ok report) ∧
      ∀ left right, report.left = some left → report.right = some right →
        compareTexts leftText (some rightText) budget check traced =
          compareRegions left right budget check traced report := by
  -- The right text is read whatever became of the left one.
  obtain ⟨left?, leftErrors, first, leftRead, leftReported, leftListed, leftOutcome⟩ :=
    @readReporting_legible "<lhs>" _ leftLegible {}
  obtain ⟨right?, rightErrors, second, rightRead, rightReported, rightListed, rightOutcome⟩ :=
    @readReporting_legible "<rhs>" _ rightLegible first
  refine ⟨{ second with left := left?, right := right? },
    ⟨leftErrors, rightErrors, leftReported, rightReported, ?_⟩,
    rightOutcome.trans leftOutcome, ?_, ?_⟩
  · -- The reporter starts without errors.
    simpa [leftListed] using rightListed
  · -- Without both regions, there is nothing to compare.
    intro missing
    simp only [compareTexts, leftRead, rightRead, Bind.bind, Except.bind]
    rcases missing with rfl | rfl
    · rfl
    · cases left? <;> rfl
  · rintro left right rfl rfl
    simp only [compareTexts, leftRead, rightRead, Bind.bind, Except.bind]

/-- What is read and reported about a text is settled by the text. -/
theorem Reported.region_iff {file text : String} {region? : Option Region}
    {errors : List Diagnostic} (reported : Reported file text region? errors) (region : Region) :
    readRegion text = .ok region ↔ region? = some region := by
  -- A text that was refused is no region.
  cases reported with
  | read read => simp [read]
  | refused refused =>
    obtain ⟨error, failed, -⟩ := refused
    simp [failed]

namespace Report.About

variable {report : Report}

theorem left_iff (about : report.About leftText rightText) (region : Region) :
    readRegion leftText = .ok region ↔ report.left = some region := by
  -- Only the first text matters here.
  obtain ⟨_, _, reported, -⟩ := about
  exact reported.region_iff region

theorem right_iff (about : report.About leftText rightText) (region : Region) :
    readRegion rightText = .ok region ↔ report.right = some region := by
  -- Only the second text matters here.
  obtain ⟨_, _, -, reported, -⟩ := about
  exact reported.region_iff region

/-- A report about two texts has errors unless both are regions. -/
theorem hasErrors_iff (about : report.About leftText rightText) :
    report.hasErrors = true ↔ report.left = none ∨ report.right = none := by
  -- A text that is a region adds no error, and any other one adds one.
  obtain ⟨leftErrors, rightErrors, leftReported, rightReported, listed⟩ := about
  unfold hasErrors Reporter.hasErrors
  rw [listed]
  generalize report.left = left? at leftReported ⊢
  generalize report.right = right? at rightReported ⊢
  cases leftReported <;> cases rightReported <;> simp

/-- Both texts are regions when the report has both. -/
theorem both_iff (about : report.About leftText rightText) :
    ((∃ left, readRegion leftText = .ok left) ∧ ∃ right, readRegion rightText = .ok right) ↔
      ¬ (report.left = none ∨ report.right = none) := by
  -- A region is missing exactly if its text was not read.
  simp only [about.left_iff, about.right_iff, not_or, ← Option.isSome_iff_exists,
    Option.isSome_iff_ne_none, ne_eq]

end Report.About

/-- Comparing two texts ends with a number that is too long, with a report about a text that is
refused, or as comparing the two regions ends. -/
theorem compareTexts_cases [Limits] (leftText rightText : String) (budget : Int)
    (check traced : Bool) :
    ¬ (Legible leftText ∧ Legible rightText) ∧
        compareTexts leftText (some rightText) budget check traced = .error .longNumeral ∨
      (Legible leftText ∧ Legible rightText) ∧ ∃ report : Report, report.About leftText rightText ∧
        ((report.left = none ∨ report.right = none) ∧ report.outcome = none ∧
            compareTexts leftText (some rightText) budget check traced = .ok report ∨
          ∃ left right, report.left = some left ∧ report.right = some right ∧
            Compared left right budget check traced report
              (compareTexts leftText (some rightText) budget check traced)) := by
  by_cases legible : Legible leftText ∧ Legible rightText
  · -- Both texts are read, whatever the first one gave.
    obtain ⟨report, about, bare, alone, both⟩ :=
      compareTexts_legible legible.1 legible.2 budget check traced
    refine Or.inr ⟨legible, report, about, ?_⟩
    cases leftFound : report.left with
    | none => exact Or.inl ⟨Or.inl rfl, bare, alone (Or.inl leftFound)⟩
    | some left =>
      cases rightFound : report.right with
      | none => exact Or.inl ⟨Or.inr rfl, bare, alone (Or.inr rightFound)⟩
      | some right =>
        -- Regions that were read are readable, and their numbers can be written again.
        obtain ⟨leftReadable, leftWritten⟩ :=
          readable_of_readRegion ((about.left_iff left).mpr leftFound)
        obtain ⟨rightReadable, rightWritten⟩ :=
          readable_of_readRegion ((about.right_iff right).mpr rightFound)
        refine Or.inr ⟨left, right, rfl, rfl, ?_⟩
        rw [both left right leftFound rightFound]
        exact compareRegions_compared leftReadable rightReadable leftWritten rightWritten budget
          check traced report
  · exact Or.inl ⟨legible, compareTexts_illegible legible⟩

/-- There is a report exactly when nothing is too long to be read or told, and
the check keeps to the limits. -/
theorem exists_report_iff [Limits] (leftText rightText : String) (budget : Int)
    (check traced : Bool) :
    (∃ report, compareTexts leftText (some rightText) budget check traced = .ok report) ↔
      Legible leftText ∧ Legible rightText ∧
        ∀ left right, readRegion leftText = .ok left → readRegion rightText = .ok right →
          ∃ answer, left.intersect right budget = .ok answer ∧
            Sayable left right budget traced answer ∧
            (check = true → ∀ fault, ¬ Exceeds left right answer fault) := by
  -- Each way to end decides both sides of the equivalence.
  rcases compareTexts_cases leftText rightText budget check traced with ⟨long, failed⟩ |
    ⟨⟨leftLegible, rightLegible⟩, report, about, ⟨missing, -, found⟩ |
      ⟨left, right, leftFound, rightFound, compared⟩⟩
  · simp only [failed, reduceCtorEq, exists_false, false_iff]
    exact fun all => long ⟨all.1, all.2.1⟩
  · -- Nothing is compared if one of the texts is refused.
    refine ⟨fun _ => ⟨leftLegible, rightLegible, fun left right leftRead rightRead => ?_⟩,
      fun _ => ⟨report, found⟩⟩
    exact absurd missing (about.both_iff.mp ⟨⟨left, leftRead⟩, right, rightRead⟩)
  · have leftRead := (about.left_iff left).mpr leftFound
    have rightRead := (about.right_iff right).mpr rightFound
    generalize compareTexts leftText (some rightText) budget check traced = result at compared ⊢
    cases compared with
    | unsaid answered long =>
      -- There is one answer only, and it cannot be told.
      refine ⟨by simp, fun all => ?_⟩
      obtain ⟨other, same, sayable, -⟩ := all.2.2 left right leftRead rightRead
      cases same.symm.trans answered
      exact absurd sayable long
    | exceeded answered sayable checked exceeds =>
      refine ⟨by simp, fun all => ?_⟩
      obtain ⟨other, same, -, within⟩ := all.2.2 left right leftRead rightRead
      cases same.symm.trans answered
      exact absurd exceeds (within checked _)
    | shown answered sayable within shows =>
      refine ⟨fun _ => ⟨leftLegible, rightLegible, fun other another otherRead anotherRead => ?_⟩,
        fun _ => ⟨_, rfl⟩⟩
      cases leftRead.symm.trans otherRead
      cases rightRead.symm.trans anotherRead
      exact ⟨_, answered, sayable, within⟩

/-- A report is a success when both texts are regions, tells what was read from them,
and shows how they compare. -/
theorem report_of_compareTexts [Limits] {report : Report}
    (found : compareTexts leftText (some rightText) budget check traced = .ok report) :
    (report.success = true ↔
      (∃ left, readRegion leftText = .ok left) ∧ ∃ right, readRegion rightText = .ok right) ∧
      report.About leftText rightText ∧
      ∀ left right, readRegion leftText = .ok left → readRegion rightText = .ok right →
        ∃ answer, left.intersect right budget = .ok answer ∧
          report.Shows left right answer check := by
  rcases compareTexts_cases leftText rightText budget check traced with ⟨-, failed⟩ |
    ⟨-, first, about, ⟨missing, bare, alone⟩ | ⟨left, right, leftFound, rightFound, compared⟩⟩
  · cases failed.symm.trans found
  · -- A text is refused: there is no outcome, so this is no success.
    cases alone.symm.trans found
    refine ⟨?_, about, fun left right leftRead rightRead => ?_⟩
    · rw [about.both_iff]
      simp [Report.success, bare, missing]
    · exact absurd missing (about.both_iff.mp ⟨⟨left, leftRead⟩, right, rightRead⟩)
  · have leftRead := (about.left_iff left).mpr leftFound
    have rightRead := (about.right_iff right).mpr rightFound
    rw [found] at compared
    cases compared with
    | shown answered _ _ shows sides reporter =>
      -- The regions and the errors stay as they were read.
      have aboutToo : report.About leftText rightText := by
        unfold Report.About
        rw [sides.1, sides.2, reporter]
        exact about
      refine ⟨?_, aboutToo, fun other another otherRead anotherRead => ?_⟩
      · have clean : report.hasErrors = false := by
          rw [Bool.eq_false_iff]
          intro errors
          have missing := aboutToo.hasErrors_iff.mp errors
          simp [sides, leftFound, rightFound] at missing
        simp [Report.success, shows.outcome, clean, leftRead, rightRead]
      · cases leftRead.symm.trans otherRead
        cases rightRead.symm.trans anotherRead
        exact ⟨_, answered, shows⟩

/-- Without a report, a number is too long to be read or told, or the check has
reached a limit of the machine. -/
theorem failure_of_compareTexts [Limits] {failure : Failure}
    (failed : compareTexts leftText (some rightText) budget check traced = .error failure) :
    failure ∈ .longNumeral :: .fault .longNumber :: machineFaults.map Failure.fault := by
  -- The cases of a comparison of texts are gone through, and only three of them fail.
  rcases compareTexts_cases leftText rightText budget check traced with ⟨-, long⟩ |
    ⟨-, report, -, ⟨-, -, found⟩ | ⟨left, right, -, -, compared⟩⟩
  · cases long.symm.trans failed
    exact List.mem_cons_self
  · cases found.symm.trans failed
  · rw [failed] at compared
    cases compared with
    | unsaid => simp
    | exceeded _ _ _ exceeds =>
      exact List.mem_cons_of_mem _ (List.mem_cons_of_mem _ (List.mem_map_of_mem exceeds.1))

/-- Two texts are compared to a report, exactly when every number in them and in what is told about
their comparison can be written, and the check, where it is asked for, stops at no limit of the
machine. A report is a success exactly when both texts are regions. It has one error for each of the
other texts, in order and at a place in that text. It shows the outcome of the comparison and, if it
was checked, the problems: also that a region could not be listed is a problem only. There is no
other failure, and moderate regions stop the check only at a limit that one of them exceeds. -/
theorem compareTexts_reports [Limits] (leftText rightText : String) (budget : Int)
    (check traced : Bool) :
    ((∃ report, compareTexts leftText (some rightText) budget check traced = .ok report) ↔
      Legible leftText ∧ Legible rightText ∧
        ∀ left right, readRegion leftText = .ok left → readRegion rightText = .ok right →
          ∃ answer, left.intersect right budget = .ok answer ∧
            Sayable left right budget traced answer ∧
            (check = true → ∀ fault, ¬ Exceeds left right answer fault)) ∧
    (∀ report, compareTexts leftText (some rightText) budget check traced = .ok report →
      (report.success = true ↔
        (∃ left, readRegion leftText = .ok left) ∧ ∃ right, readRegion rightText = .ok right) ∧
      report.About leftText rightText ∧
      ∀ left right, readRegion leftText = .ok left → readRegion rightText = .ok right →
        ∃ answer, left.intersect right budget = .ok answer ∧ report.Shows left right answer check) ∧
    (∀ failure, compareTexts leftText (some rightText) budget check traced = .error failure →
      failure ∈ .longNumeral :: .fault .longNumber :: machineFaults.map Failure.fault) ∧
    ∀ left right answer fault, readRegion leftText = .ok left → readRegion rightText = .ok right →
      left.intersect right budget = .ok answer → Exceeds left right answer fault → left.Moderate →
        right.Moderate →
      left.Overfull fault ∨ right.Overfull fault := by
  -- The first three parts are those of the lemmas above, and the last one is about the regions.
  refine ⟨exists_report_iff leftText rightText budget check traced,
    fun report => report_of_compareTexts,
    fun failure => failure_of_compareTexts, ?_⟩
  intro left right answer fault leftRead rightRead answered exceeds leftModerate rightModerate
  obtain ⟨leftReadable, -⟩ := readable_of_readRegion leftRead
  obtain ⟨rightReadable, -⟩ := readable_of_readRegion rightRead
  -- A check that exceeds the machine was made of readable regions, whose axes are all valid.
  have stops :=
    verify_intersect_stops leftReadable.allValid rightReadable.allValid answered exceeds.2
  exact stops.2 leftModerate rightModerate exceeds.1

open scoped Limits

/-- Bytes behind the largest word stop the check, and there is no report. An array whose inner size
is not known is no obstacle: that it could not be listed is the one problem in the report. Two texts
that are no regions give two errors. -/
theorem compareTexts_reports_limits :
    let array := "A dims(0 count 2 of 0, 0 count 2 of 0)"
    let bytes := "A bytes [9223372036854775808, 9223372036854775812)"
    (¬ ∃ report, compareTexts bytes (some "A bytes [0, 4)") 10 true false = .ok report) ∧
    (∃ report, compareTexts array (some array) 10 true false = .ok report ∧ report.success = true ∧
      report.problems = ["cannot verify: Axis 1 of " ++ array ++ " has unknown size"]) ∧
    ∃ report, compareTexts "A bytes" (some "") 10 true false = .ok report ∧ report.success = false ∧
      report.reporter.diagnostics.length = 2 := by
  intro array bytes
  refine ⟨?_, ?_, ?_⟩
  · -- The two intervals have four bytes each, and the first one is beyond the words.
    let far : Region :=
      ⟨some (.name "A"), .flat, some 9223372036854775808, some 9223372036854775812, []⟩
    let near : Region := ⟨some (.name "A"), .flat, some 0, some 4, []⟩
    rw [(compareTexts_reports _ _ 10 true false).1]
    rintro ⟨-, -, compared⟩
    obtain ⟨answer, answered, -, within⟩ :=
      compared far near (by decide +kernel) (by decide +kernel)
    have apart : far.intersect near 10 = .ok { outcome := .disjoint } := by decide +kernel
    cases apart.symm.trans answered
    exact within rfl .wordOverflow ⟨by decide, by decide +kernel⟩
  · -- Equal arrays are compared without listing them, and only the check needs the inner size.
    let region : Region := ⟨some (.name "A"), .perAxis, none, none, [⟨0, 1, 2, 0⟩, ⟨0, 1, 2, 0⟩]⟩
    have read : readRegion array = .ok region := by decide +kernel
    have equal : region.intersect region 10 = .ok ⟨.exact region, [], []⟩ := by decide +kernel
    -- The check stops at the inner size, which is not known.
    have stopped : checkAnswer region region ⟨.exact region, [], []⟩ =
        .error (.unlisted (.axisSize 1 region)) := by
      decide +kernel
    obtain ⟨reports, shows, -⟩ := compareTexts_reports array array 10 true false
    obtain ⟨report, found⟩ := reports.mpr ⟨by decide +kernel, by decide +kernel, by
      intro left right leftRead rightRead
      cases read.symm.trans leftRead
      cases read.symm.trans rightRead
      refine ⟨_, equal, by decide +kernel, fun _ fault exceeds => ?_⟩
      cases stopped.symm.trans exceeds.2
      simp [Exceeds, machineFaults] at exceeds⟩
    obtain ⟨success, -, shown⟩ := shows report found
    obtain ⟨answer, answered, shown⟩ := shown region region read read
    cases equal.symm.trans answered
    refine ⟨report, found, success.mpr ⟨⟨region, read⟩, region, read⟩, ?_⟩
    have problems : Checked region region ⟨.exact region, [], []⟩ report.problems := shown.problems
    -- What the theorem says about the problems leaves only the message about the size.
    generalize report.problems = listed at problems ⊢
    cases problems with
    | listed passed => cases stopped.symm.trans passed
    | unlisted _ other =>
      cases stopped.symm.trans other
      decide +kernel
  · -- Neither text is a region, so each of them has its error.
    have leftRefused : (readRegion "A bytes").toOption = none := by decide +kernel
    have rightRefused : (readRegion "").toOption = none := by decide +kernel
    obtain ⟨reports, shows, -⟩ := compareTexts_reports "A bytes" "" 10 true false
    obtain ⟨report, found⟩ :=
      reports.mpr ⟨by decide +kernel, by decide +kernel, fun left right leftRead _ => by
      simp [leftRead, Except.toOption] at leftRefused⟩
    obtain ⟨success, ⟨leftErrors, rightErrors, leftReported, rightReported, listed⟩, -⟩ :=
      shows report found
    refine ⟨report, found, ?_, ?_⟩
    · rw [Bool.eq_false_iff, ne_eq, success]
      rintro ⟨⟨left, leftRead⟩, -⟩
      simp [leftRead, Except.toOption] at leftRefused
    · -- Each side was refused with one error.
      rw [listed]
      generalize report.left = left? at leftReported
      generalize report.right = right? at rightReported
      cases leftReported with
      | read leftRead => simp [leftRead, Except.toOption] at leftRefused
      | refused =>
        cases rightReported with
        | read rightRead => simp [rightRead, Except.toOption] at rightRefused
        | refused => rfl

end Texts

end Overlap
