import Overlap.Phrase.Region
import Overlap.Proofs.Phrase.Reading

/-! What a phrase means, however long its numbers are, and when that meaning is found. -/

namespace Overlap

section Steps

variable {ε α β : Type}

/-- Steps fail when the first one does or the others do with its result. -/
theorem bind_eq_error_iff {first : Except ε α} {more : α → Except ε β} {error : ε} :
    (first >>= more) = .error error ↔
      first = .error error ∨ ∃ found, first = .ok found ∧ more found = .error error := by
  -- A failure of the first part is the only one that does not come from the second.
  cases first <;> simp [Bind.bind, Except.bind]

/-- Changing a result does not change a failure. -/
theorem map_eq_error_iff {first : Except ε α} {change : α → β} {error : ε} :
    first.map change = .error error ↔ first = .error error := by
  -- Changing the answer leaves a failure as it is.
  cases first <;> simp [Except.map]

/-- Results are collected exactly when every step has one. -/
theorem mapM_eq_ok_iff {step : α → Except ε β} {condition : α → Prop} {result : α → β}
    (each : ∀ item found, step item = .ok found ↔ condition item ∧ found = result item)
    {list : List α} {results : List β} :
    list.mapM step = .ok results ↔ (∀ item ∈ list, condition item) ∧ results = list.map result := by
  -- Every step succeeds under a condition on its own item, so the list is taken one item at a time.
  induction list generalizing results with
  | nil => simp [Pure.pure, Except.pure, eq_comm]
  | cons first list ih =>
    rw [List.mapM_cons, List.forall_mem_cons, List.map_cons]
    constructor
    · -- The first item and the others have results of their own.
      intro collected
      obtain ⟨found, here, collected⟩ := bind_eq_ok_iff.mp collected
      obtain ⟨others, later, collected⟩ := bind_eq_ok_iff.mp collected
      cases collected
      obtain ⟨holds, rfl⟩ := (each first found).mp here
      obtain ⟨all, rfl⟩ := ih.mp later
      exact ⟨⟨holds, all⟩, rfl⟩
    · -- Each result is found under its condition.
      intro all
      obtain ⟨⟨holds, all⟩, rfl⟩ := all
      refine bind_eq_ok_iff.mpr ⟨result first, (each first _).mpr ⟨holds, rfl⟩, ?_⟩
      exact bind_eq_ok_iff.mpr ⟨list.map result, ih.mpr ⟨all, rfl⟩, rfl⟩

/-- Collecting results stops at the first step that fails. -/
theorem mapM_eq_error_iff {step : α → Except ε β} {list : List α} {error : ε} :
    list.mapM step = .error error ↔ ∃ front bad behind, list = front ++ bad :: behind ∧
      (∀ item ∈ front, ∃ result, step item = .ok result) ∧ step bad = .error error := by
  -- The first item fails, or it has a result and the failure is among the others.
  induction list with
  | nil =>
    constructor
    · intro failed
      cases failed
    · intro split
      obtain ⟨front, bad, behind, none, _⟩ := split
      simp at none
  | cons first list ih =>
    rw [List.mapM_cons]
    constructor
    · intro failed
      rcases bind_eq_error_iff.mp failed with here | ⟨result, found, failed⟩
      · -- The first item is the bad one.
        exact ⟨[], first, list, rfl, fun item member => (List.not_mem_nil member).elim, here⟩
      · rcases bind_eq_error_iff.mp failed with later | ⟨others, _, failed⟩
        · -- The bad one stands further behind.
          obtain ⟨front, bad, behind, rfl, before, here⟩ := ih.mp later
          refine ⟨first :: front, bad, behind, rfl, fun item member => ?_, here⟩
          rcases List.mem_cons.mp member with rfl | member
          · exact ⟨result, found⟩
          · exact before item member
        · cases failed
    · intro split
      obtain ⟨front, bad, behind, whole, before, here⟩ := split
      -- The bad item comes first, or the first one has a result.
      cases front with
      | nil =>
        cases whole
        exact bind_eq_error_iff.mpr (.inl here)
      | cons item front =>
        cases whole
        obtain ⟨result, found⟩ := before first List.mem_cons_self
        have later := ih.mpr
          ⟨front, bad, behind, rfl,
            fun item member => before item (List.mem_cons_of_mem _ member), here⟩
        exact bind_eq_error_iff.mpr (.inr ⟨result, found, bind_eq_error_iff.mpr (.inl later)⟩)

end Steps

namespace Numeral

/-- The number that digits stand for. -/
def number (digits : Numeral) : Int :=
  -- Zeros in front make no difference.
  Nat.ofDigitChars 10 digits 0

/-- A number has no more digits than allowed. -/
def Short (digits : Numeral) : Prop :=
  -- Zeros in front count here.
  digits.length ≤ maxNumeralDigits

/-- Shortness is settled by counting digits. -/
instance (digits : Numeral) : Decidable digits.Short :=
  -- Numbers are compared.
  inferInstanceAs (Decidable (_ ≤ _))

/-- A short number is found. -/
theorem value_of_short {digits : Numeral} (short : digits.Short) :
    digits.value = .ok digits.number := by
  -- Few enough digits are converted without further conditions.
  unfold Short at short
  rw [value, boundedValue?, if_pos short]
  rfl

/-- Any other number is too long. -/
theorem value_of_long {digits : Numeral} (long : ¬ digits.Short) :
    digits.value = .error .longNumeral := by
  -- The length is looked at before any digit is.
  unfold Short at long
  rw [value, boundedValue?, if_neg long]

/-- A number that may be left out is found unless it is too long. -/
theorem value?_eq_ok_iff {digits : Option Numeral} {value : Option Int} :
    value? digits = .ok value ↔ (∀ given ∈ digits, given.Short) ∧ value = digits.map number := by
  -- A number that is left out has no digits that could be too many.
  cases digits with
  | none => simp [value?, eq_comm]
  | some given =>
    by_cases short : given.Short
    · simp [value?, value_of_short short, short, Except.map, eq_comm]
    · simp [value?, value_of_long short, short, Except.map]

/-- A number that may be left out fails only where it is too long. -/
theorem value?_eq_error_iff {digits : Option Numeral} {error : PhraseError} :
    value? digits = .error error ↔ error = .longNumeral ∧ ∃ given ∈ digits, ¬ given.Short := by
  -- Only a number that is given can be too long.
  cases digits with
  | none => simp [value?]
  | some given =>
    by_cases short : given.Short
    · simp [value?, value_of_short short, short, Except.map]
    · simp [value?, value_of_long short, short, Except.map, eq_comm]

end Numeral

/-- What is wrong with an axis can be told unless its last index has to
be written and is too long. -/
def Axis.FlawWritable (axis : Axis) : Prop :=
  -- The other two faults are told without a number that could be long.
  0 < axis.step → 0 < axis.count → Writable axis.last

/-- Whether a flaw can be told is settled by comparing numbers. -/
instance (axis : Axis) : Decidable axis.FlawWritable :=
  -- An implication between conditions that can be decided can be decided.
  inferInstanceAs (Decidable (_ → _ → _))

namespace AxisPhrase

/-- The axis that is meant; a step that is left out is one. -/
def meaning (axis : AxisPhrase) : Axis :=
  -- Only the step has a default.
  ⟨axis.start.number, (axis.step.map Numeral.number).getD 1, axis.count.number, axis.size.number⟩

/-- All numbers of an axis are short. -/
def Short (axis : AxisPhrase) : Prop :=
  -- Four numbers at most, each with its own digits.
  ∀ digits ∈ axis.numerals, digits.Short

/-- Shortness is settled number by number. -/
instance (axis : AxisPhrase) : Decidable axis.Short :=
  -- A few numerals are looked at.
  inferInstanceAs (Decidable (∀ digits ∈ axis.numerals, digits.Short))

/-- An axis is short when its parts are. -/
theorem short_iff {axis : AxisPhrase} :
    axis.Short ↔
      axis.start.Short ∧ (∀ step ∈ axis.step, step.Short) ∧ axis.count.Short ∧ axis.size.Short := by
  -- The step is the only numeral that may be missing.
  simp [Short, numerals, or_imp, forall_and]

/-- The axis that is meant is found if its numbers are short and fit together;
otherwise the first reason is told. -/
theorem axis_eq (axis : AxisPhrase) :
    axis.axis =
      if axis.Short then
        if axis.meaning.Valid then .ok axis.meaning
        else if axis.meaning.FlawWritable then
          .error (.invalidAxis axis.meaning axis.before axis.after)
        else .error .longNumeral
      else .error .longNumeral := by
  unfold AxisPhrase.axis
  by_cases short : axis.Short
  · -- All numbers are found, and what is left are the checks.
    obtain ⟨start, step, count, size⟩ := short_iff.mp short
    rw [if_pos short, Numeral.value_of_short start, Numeral.value?_eq_ok_iff.mpr ⟨step, rfl⟩,
      Numeral.value_of_short count, Numeral.value_of_short size]
    change (if axis.meaning.Valid then Except.ok axis.meaning
      else if 0 < axis.meaning.step ∧ 0 < axis.meaning.count ∧ ¬ Writable axis.meaning.last then
        Except.error PhraseError.longNumeral
      else .error (.invalidAxis axis.meaning axis.before axis.after)) = _
    have told : axis.meaning.FlawWritable ↔
        ¬ (0 < axis.meaning.step ∧ 0 < axis.meaning.count ∧ ¬ Writable axis.meaning.last) := by
      simp only [Axis.FlawWritable, not_and, not_not]
    by_cases flaw : axis.meaning.FlawWritable
    · -- The flaw can be told, so it is what is refused.
      rw [if_pos flaw, if_neg (told.mp flaw)]
    · rw [if_neg flaw, if_pos (not_not.mp (mt told.mpr flaw))]
  · -- Reading goes from number to number and stops at the first that is too long.
    rw [if_neg short]
    -- The four numbers are taken in order: start, step, count and size.
    by_cases start : axis.start.Short
    · rw [Numeral.value_of_short start]
      cases step : Numeral.value? axis.step with
      | error error =>
        obtain ⟨rfl, _⟩ := Numeral.value?_eq_error_iff.mp step
        rfl
      | ok value =>
        by_cases count : axis.count.Short
        · have size : ¬ axis.size.Short := fun size =>
            short (short_iff.mpr ⟨start, (Numeral.value?_eq_ok_iff.mp step).1, count, size⟩)
          rw [Numeral.value_of_short count, Numeral.value_of_long size]
          rfl
        · rw [Numeral.value_of_long count]
          rfl
    · rw [Numeral.value_of_long start]
      rfl

/-- Success means that the numbers of the axis are short and fit together. -/
theorem axis_eq_ok_iff {phrase : AxisPhrase} {axis : Axis} :
    phrase.axis = .ok axis ↔ phrase.Short ∧ phrase.meaning.Valid ∧ axis = phrase.meaning := by
  -- Of the four ways in which an axis is read, one succeeds.
  rw [axis_eq]
  split
  · split
    · simp_all [eq_comm]
    · split <;> simp_all
  · simp_all

/-- A refused axis has short numbers that do not fit together. -/
theorem axis_eq_invalidAxis_iff {phrase : AxisPhrase} {axis : Axis} {before after : Nat} :
    phrase.axis = .error (.invalidAxis axis before after) ↔
      phrase.Short ∧ ¬ phrase.meaning.Valid ∧ phrase.meaning.FlawWritable ∧
        axis = phrase.meaning ∧ before = phrase.before ∧ after = phrase.after := by
  -- Of the four ways in which an axis is read, one names the axis.
  rw [axis_eq]
  split
  · split
    · simp_all
    · split <;> simp_all [eq_comm]
  · simp_all

/-- Every other failure of an axis is about a number that is too long. -/
theorem axis_eq_error {phrase : AxisPhrase} {error : PhraseError}
    (failed : phrase.axis = .error error) :
    (∃ axis before after, error = .invalidAxis axis before after) ∨
      error = .longNumeral ∧ (¬ phrase.Short ∨ ¬ Writable phrase.meaning.last) := by
  -- The other two ways are about long numbers, those of the axis and its last index.
  rw [axis_eq] at failed
  split at failed
  · split at failed
    · cases failed
    · split at failed
      · cases failed
        exact .inl ⟨_, _, _, rfl⟩
      · rename_i long
        cases failed
        exact .inr ⟨rfl, .inr fun writable => long fun _ _ => writable⟩
  · rename_i long
    cases failed
    exact .inr ⟨rfl, .inl long⟩

end AxisPhrase

/-- The axes of a form. -/
def FormPhrase.axes : FormPhrase → List AxisPhrase
  -- Intervals have no axes.
  | .dims axes _ => axes
  | _ => []

/-- The numbers of a form. -/
def FormPhrase.numerals : FormPhrase → List Numeral
  -- All numbers of the form, in the order of the text.
  | .bytes bounds => bounds.numerals
  | .dims axes element => axes.flatMap AxisPhrase.numerals ++ element.toList
  | .whole bounds => bounds.numerals

/-- The numbers of an axis are numbers of the form. -/
theorem FormPhrase.mem_numerals {form : FormPhrase} {axis : AxisPhrase} {digits : Numeral}
    (member : axis ∈ form.axes) (own : digits ∈ axis.numerals) : digits ∈ form.numerals := by
  -- Only an array has axes.
  cases form with
  | dims axes element => exact List.mem_append_left _ (List.mem_flatMap.mpr ⟨axis, member, own⟩)
  | bytes bounds | whole bounds => cases member

/-- Bounds are found unless one of them is too long. -/
theorem BoundsPhrase.values_eq_ok_iff {bounds : BoundsPhrase} {values : Option Int × Option Int} :
    bounds.values = .ok values ↔ (∀ digits ∈ bounds.numerals, digits.Short) ∧
      values = (bounds.lower.map Numeral.number, bounds.upper.map Numeral.number) := by
  -- Both bounds are converted, the lower one first.
  unfold BoundsPhrase.values
  constructor
  · -- Both numbers were found, so both are short.
    intro found
    obtain ⟨lower, low, found⟩ := bind_eq_ok_iff.mp found
    obtain ⟨upper, high, found⟩ := bind_eq_ok_iff.mp found
    cases found
    obtain ⟨lowShort, rfl⟩ := Numeral.value?_eq_ok_iff.mp low
    obtain ⟨highShort, rfl⟩ := Numeral.value?_eq_ok_iff.mp high
    refine ⟨fun digits member => ?_, rfl⟩
    simp only [numerals, List.mem_append, Option.mem_toList] at member
    exact member.elim (lowShort digits) (highShort digits)
  · -- Short numerals have values.
    intro short
    obtain ⟨short, rfl⟩ := short
    simp only [numerals, List.mem_append, Option.mem_toList] at short
    refine bind_eq_ok_iff.mpr ⟨_, Numeral.value?_eq_ok_iff.mpr ⟨fun digits given => ?_, rfl⟩, ?_⟩
    · exact short digits (.inl given)
    · refine bind_eq_ok_iff.mpr ⟨_, Numeral.value?_eq_ok_iff.mpr ⟨fun digits given => ?_, rfl⟩, rfl⟩
      exact short digits (.inr given)

/-- A region given by bounds is found unless one of them is too long. -/
theorem BoundsPhrase.place_eq_ok_iff {bounds : BoundsPhrase}
    {place : Option Int × Option Int → Region} {region : Region} :
    (bounds.values >>= fun values => Except.ok (place values)) = .ok region ↔
      (∀ digits ∈ bounds.numerals, digits.Short) ∧
        region = place (bounds.lower.map Numeral.number, bounds.upper.map Numeral.number) := by
  -- Placing the bounds cannot fail.
  constructor
  · intro found
    obtain ⟨values, found, same⟩ := bind_eq_ok_iff.mp found
    obtain ⟨short, rfl⟩ := values_eq_ok_iff.mp found
    cases same
    exact ⟨short, rfl⟩
  · intro short
    obtain ⟨short, rfl⟩ := short
    exact bind_eq_ok_iff.mpr ⟨_, values_eq_ok_iff.mpr ⟨short, rfl⟩, rfl⟩

/-- A region given by bounds fails only where one of them is too long. -/
theorem BoundsPhrase.place_eq_error {bounds : BoundsPhrase}
    {place : Option Int × Option Int → Region} {error : PhraseError}
    (failed : (bounds.values >>= fun values => Except.ok (place values)) = .error error) :
    error = .longNumeral ∧ ¬ ∀ digits ∈ bounds.numerals, digits.Short := by
  -- The first bound that fails is too long, and nothing else can fail.
  simp only [numerals, List.mem_append, Option.mem_toList]
  rcases bind_eq_error_iff.mp failed with failed | ⟨values, _, failed⟩
  · rcases bind_eq_error_iff.mp failed with low | ⟨lower, _, failed⟩
    · obtain ⟨rfl, digits, given, long⟩ := Numeral.value?_eq_error_iff.mp low
      exact ⟨rfl, fun short => long (short digits (.inl given))⟩
    · rcases bind_eq_error_iff.mp failed with high | ⟨upper, _, failed⟩
      · obtain ⟨rfl, digits, given, long⟩ := Numeral.value?_eq_error_iff.mp high
        exact ⟨rfl, fun short => long (short digits (.inr given))⟩
      · cases failed
  · cases failed

namespace Phrase

/-- The region that is meant. -/
def meaning (phrase : Phrase) : Region :=
  -- The name is taken as it is, and never as a number.
  let object := some (Identity.name (String.ofList phrase.name))
  match phrase.form with
  | .bytes bounds =>
    { object, kind := .flat, lower := bounds.lower.map Numeral.number,
      upper := bounds.upper.map Numeral.number }
  | .dims axes element =>
    { object, kind := .perAxis, upper := element.map Numeral.number,
      axes := axes.map AxisPhrase.meaning }
  | .whole bounds =>
    { object, kind := .whole, lower := bounds.lower.map Numeral.number,
      upper := bounds.upper.map Numeral.number }

/-- All numbers of a phrase are short. -/
def Short (phrase : Phrase) : Prop :=
  -- One number that is too long is enough to refuse the phrase.
  ∀ digits ∈ phrase.form.numerals, digits.Short

/-- All axes of a phrase are well formed. -/
def AllValid (phrase : Phrase) : Prop :=
  -- Only the meaning of an axis counts, and not its place.
  ∀ axis ∈ phrase.form.axes, axis.meaning.Valid

/-- The leftmost axis that is not well formed, with the axes in front of it. -/
def FirstInvalid (phrase : Phrase) (front : List AxisPhrase) (bad : AxisPhrase) : Prop :=
  -- All axes in front of it are well formed, and those behind it may be anything.
  (∃ behind, phrase.form.axes = front ++ bad :: behind) ∧ (∀ axis ∈ front, axis.meaning.Valid) ∧
    ¬ bad.meaning.Valid

/-- Without axes there is nothing to check. -/
theorem allValid_of_axes_eq_nil {phrase : Phrase} (none : phrase.form.axes = []) :
    phrase.AllValid := by
  -- Intervals have no axes that could be malformed.
  unfold AllValid
  rw [none]
  exact fun axis member => (List.not_mem_nil member).elim

/-- The numbers of an array are those of its axes and its element size. -/
theorem short_dims_iff {name : List Char} {axes : List AxisPhrase} {element : Option Numeral} :
    Short ⟨name, .dims axes element⟩ ↔
      (∀ axis ∈ axes, axis.Short) ∧ ∀ size ∈ element, size.Short := by
  -- The numbers of an array are those of its axes, and its element size.
  simp only [Short, FormPhrase.numerals, List.mem_append, List.mem_flatMap, Option.mem_toList]
  constructor
  · intro all
    exact ⟨fun axis member digits own => all digits (.inl ⟨axis, member, own⟩),
      fun size given => all size (.inr given)⟩
  · rintro ⟨axesShort, sizeShort⟩ digits (⟨axis, member, own⟩ | given)
    · exact axesShort axis member digits own
    · exact sizeShort digits given

/-- The region that is meant is found exactly when all numbers are short
and all axes are well formed. -/
theorem region_eq_ok_iff {phrase : Phrase} {region : Region} :
    phrase.region = .ok region ↔ phrase.Short ∧ phrase.AllValid ∧ region = phrase.meaning := by
  -- Intervals have no axes to check, and arrays are checked axis by axis.
  obtain ⟨name, form⟩ := phrase
  unfold Phrase.region
  cases form with
  | bytes bounds =>
    rw [and_iff_right (allValid_of_axes_eq_nil rfl)]
    exact BoundsPhrase.place_eq_ok_iff
  | dims axes element =>
    -- The axes are collected under the condition that each of them is short and well-formed.
    have collected :=
      @mapM_eq_ok_iff _ _ _ AxisPhrase.axis (fun axis => axis.Short ∧ axis.meaning.Valid)
      AxisPhrase.meaning (fun axis found => by rw [AxisPhrase.axis_eq_ok_iff, and_assoc]) axes
    rw [short_dims_iff]
    constructor
    · intro found
      obtain ⟨list, listed, found⟩ := bind_eq_ok_iff.mp found
      obtain ⟨upper, sized, same⟩ := bind_eq_ok_iff.mp found
      cases same
      obtain ⟨all, rfl⟩ := collected.mp listed
      obtain ⟨sizeShort, rfl⟩ := Numeral.value?_eq_ok_iff.mp sized
      exact ⟨⟨fun axis member => (all axis member).1, sizeShort⟩,
        fun axis member => (all axis member).2, rfl⟩
    · -- Nothing is refused in the list of axes, nor in the size of an element.
      intro all
      obtain ⟨⟨axesShort, sizeShort⟩, valid, rfl⟩ := all
      have listed :=
        collected.mpr ⟨fun axis member => ⟨axesShort axis member, valid axis member⟩, rfl⟩
      exact bind_eq_ok_iff.mpr ⟨_, listed, bind_eq_ok_iff.mpr
        ⟨_, Numeral.value?_eq_ok_iff.mpr ⟨sizeShort, rfl⟩, rfl⟩⟩
  | whole bounds =>
    rw [and_iff_right (allValid_of_axes_eq_nil rfl)]
    exact BoundsPhrase.place_eq_ok_iff

/-- A failure is that of the first axis that fails, or a number is too long. -/
theorem region_eq_error {phrase : Phrase} {error : PhraseError}
    (failed : phrase.region = .error error) :
    (∃ front bad behind, phrase.form.axes = front ++ bad :: behind ∧
      (∀ axis ∈ front, ∃ found, axis.axis = .ok found) ∧ bad.axis = .error error) ∨
      error = .longNumeral ∧ ¬ phrase.Short := by
  obtain ⟨name, form⟩ := phrase
  unfold Phrase.region at failed
  -- Each form fails in its own way, and only an array can fail at an axis.
  cases form with
  | bytes bounds => exact .inr (BoundsPhrase.place_eq_error failed)
  | dims axes element =>
    rcases bind_eq_error_iff.mp failed with listed | ⟨list, _, failed⟩
    · exact .inl (mapM_eq_error_iff.mp listed)
    · -- All axes were read, so only the element size is left to fail.
      rcases bind_eq_error_iff.mp failed with sized | ⟨upper, _, failed⟩
      · obtain ⟨rfl, size, given, long⟩ := Numeral.value?_eq_error_iff.mp sized
        refine .inr ⟨rfl, fun short => long (short size ?_)⟩
        exact List.mem_append_right _ (Option.mem_toList.mpr given)
      · cases failed
  | whole bounds => exact .inr (BoundsPhrase.place_eq_error failed)

/-- An axis is refused exactly when it is the leftmost one that is not well formed and no
number up to it is too long. -/
theorem region_eq_invalidAxis_iff {phrase : Phrase} {axis : Axis} {before after : Nat} :
    phrase.region = .error (.invalidAxis axis before after) ↔
      ∃ front bad, phrase.FirstInvalid front bad ∧ (∀ axis ∈ front, axis.Short) ∧ bad.Short ∧
        bad.meaning.FlawWritable ∧ axis = bad.meaning ∧ before = bad.before ∧
          after = bad.after := by
  -- The axes in front of the first that fails were found, so they are short and well formed.
  constructor
  · intro failed
    rcases region_eq_error failed with ⟨front, bad, behind, split, before, here⟩ | ⟨long, _⟩
    · obtain ⟨short, invalid, flaw, same⟩ := AxisPhrase.axis_eq_invalidAxis_iff.mp here
      refine ⟨front, bad, ⟨⟨behind, split⟩, fun axis member => ?_, invalid⟩, fun axis member => ?_,
        short, flaw, same⟩
      · -- The axes in front were found, so they are well-formed.
        obtain ⟨found, here⟩ := before axis member
        exact (AxisPhrase.axis_eq_ok_iff.mp here).2.1
      · obtain ⟨found, here⟩ := before axis member
        exact (AxisPhrase.axis_eq_ok_iff.mp here).1
    · cases long
  · intro first
    obtain ⟨front, bad, ⟨⟨behind, split⟩, valid, invalid⟩, frontShort, short, flaw, same⟩ := first
    obtain ⟨name, form⟩ := phrase
    cases form with
    | dims axes element =>
      -- The list is refused with the error of its first bad axis.
      refine bind_eq_error_iff.mpr
        (.inl (mapM_eq_error_iff.mpr ⟨front, bad, behind, split, fun axis member => ?_, ?_⟩))
      · exact ⟨axis.meaning,
          AxisPhrase.axis_eq_ok_iff.mpr ⟨frontShort axis member, valid axis member, rfl⟩⟩
      · exact AxisPhrase.axis_eq_invalidAxis_iff.mpr ⟨short, invalid, flaw, same⟩
    | bytes bounds | whole bounds => simp [FormPhrase.axes] at split

/-- Every other failure is about a number that is too long. -/
theorem region_error_cases {phrase : Phrase} {error : PhraseError}
    (failed : phrase.region = .error error) :
    (∃ axis before after, error = .invalidAxis axis before after) ∨
      error = .longNumeral ∧
        (¬ phrase.Short ∨ ∃ axis ∈ phrase.form.axes, ¬ Writable axis.meaning.last) := by
  -- What fails at an axis is its own fault, and every number of an axis is one of the phrase.
  rcases region_eq_error failed with ⟨front, bad, behind, split, _, here⟩ | ⟨rfl, long⟩
  · have member : bad ∈ phrase.form.axes := by simp [split]
    rcases AxisPhrase.axis_eq_error here with invalid | ⟨rfl, long | long⟩
    · exact .inl invalid
    · exact .inr ⟨rfl, .inl fun short => long fun digits own =>
        short digits (FormPhrase.mem_numerals member own)⟩
    · exact .inr ⟨rfl, .inr ⟨bad, member, long⟩⟩
  · exact .inr ⟨rfl, .inl long⟩

end Phrase

end Overlap
