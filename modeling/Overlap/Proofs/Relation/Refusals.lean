import Overlap.Proofs.Region.Division
import Overlap.Proofs.Relation.Shapes
import Overlap.Proofs.Relation.Sizes
import Overlap.Proofs.Relation.Telling

/-! A comparison is refused exactly when an object is missing or an array with a malformed
axis is compared along its axes. Every other comparison has an answer, whose outcome
depends on the two regions only. -/

namespace Overlap

/-- The check names a broken contract for every axis that is not well-formed. -/
theorem Axis.check_of_not_valid {axis : Axis} (malformed : ¬ axis.Valid) :
    ∃ cause, axis.check = .error (.breach cause) := by
  cases checked : axis.check with
  | ok other => exact absurd (check_eq_ok_iff.mp checked).2 malformed
  | error fault =>
    -- Every test of the check has a cause of its own.
    unfold check at checked
    repeat' split at checked
    all_goals cases checked
    all_goals exact ⟨_, rfl⟩

/-- Among axes that are not all well-formed, the check names the cause of one of them. -/
theorem checkAxes_of_not_valid {axes : List Axis} (malformed : ¬ AllValid axes) :
    ∃ cause, checkAxes axes = .error (.breach cause) ∧
      ∃ axis ∈ axes, axis.check = .error (.breach cause) := by
  -- The first malformed axis ends the check.
  induction axes with
  | nil => exact absurd (fun axis member => absurd member List.not_mem_nil) malformed
  | cons axis axes ih =>
    by_cases valid : axis.Valid
    · obtain ⟨cause, failed, other, member, checked⟩ :=
        ih fun others => malformed (allValid_cons.mpr ⟨valid, others⟩)
      refine ⟨cause, ?_, other, List.mem_cons_of_mem axis member, checked⟩
      simp [checkAxes, Axis.check_of_valid valid, failed, Bind.bind, Except.bind]
    · obtain ⟨cause, checked⟩ := Axis.check_of_not_valid valid
      refine ⟨cause, ?_, axis, List.mem_cons_self, checked⟩
      simp [checkAxes, checked, Bind.bind, Except.bind]

/-- The message about a broken contract shows unless it holds a number that is too long. -/
theorem Fault.told_breach (cause : Breach) : (Fault.breach cause).told =
    if ∀ number ∈ cause.numbers, Writable number then .breach cause else .longNumber :=
  -- The message about a contract is made of its own numbers.
  Fault.told_eq (.breach cause)

/-- The answer to a comparison with all of its leftover parts: those that are not wanted are dropped
from it, and only an exact outcome has any. -/
structure Full (compare : Wanted → Except Fault Comparison) (outcome : Outcome)
    (full : Comparison) : Prop where
  -- One full answer has the parts for all sides, and every other one is a part of it.
  same : full.outcome = outcome
  parts : outcome.relation ≠ .exact → full.left = [] ∧ full.right = []
  answer : ∀ wanted, compare wanted = .ok (full.only wanted)

/-- Whatever the budget, there is an answer with the given outcome. -/
def Answered (compare : Int → Wanted → Except Fault Comparison) (outcome : Outcome) : Prop :=
  -- The budget may change the parts, but not the outcome.
  ∀ budget, ∃ full, Full (compare budget) outcome full

/-- An answer that never has leftover parts is the same for every budget. -/
theorem answered_of_bare {compare : Int → Wanted → Except Fault Comparison} {outcome : Outcome}
    (bare : ∀ budget wanted, compare budget wanted = .ok { outcome }) :
    Answered compare outcome := by
  intro budget
  refine ⟨{ outcome }, rfl, fun _ => ⟨rfl, rfl⟩, fun wanted => ?_⟩
  -- Dropping parts changes nothing where there are none.
  simp [bare, Comparison.only]

namespace Region

/-- Arrays with a malformed axis are refused, whatever is wanted of the comparison. -/
theorem relateAxes_refused {left right : Region}
    (malformed : ¬ (AllValid left.axes ∧ AllValid right.axes)) :
    ∃ cause, (∃ axis ∈ left.axes ++ right.axes, axis.check = .error (.breach cause)) ∧
      ∀ budget wanted, left.relateAxes right budget wanted = .error (.breach cause) := by
  have together : ¬ AllValid (left.axes ++ right.axes) := by
    simpa only [AllValid, List.forall_mem_append] using malformed
  obtain ⟨cause, failed, axis, member, checked⟩ := checkAxes_of_not_valid together
  refine ⟨cause, ⟨axis, member, checked⟩, fun budget wanted => ?_⟩
  -- The check comes before everything else.
  simp [relateAxes, failed, Bind.bind, Except.bind]

/-- Arrays with well-formed axes are compared, and the outcome does not depend on the budget. -/
theorem relateAxes_answered {left right : Region} (leftKind : left.kind = .perAxis)
    (rightKind : right.kind = .perAxis) (leftValid : AllValid left.axes)
    (rightValid : AllValid right.axes) :
    ∃ outcome, Answered (left.relateAxes right) outcome := by
  by_cases shape : left.axes.length ≠ right.axes.length ∨ left.upper ≠ right.upper
  · -- Different numbers of axes or element sizes are not compared.
    exact ⟨.imprecise, answered_of_bare (relateAxes_of_shape leftValid rightValid shape)⟩
  by_cases equal : left.lower = right.lower ∧ left.axes = right.axes
  · -- Equal axes are answered at once.
    exact ⟨.exact left, answered_of_bare (relateAxes_of_equal leftValid rightValid shape equal)⟩
  -- Only common indices along all axes leave parts over.
  have settled := @relateAxes_eq_settle left right leftValid rightValid shape equal
  simp only [not_or, ne_eq, not_not] at shape
  obtain ⟨met, found, parts⟩ := meetAxes_found leftValid rightValid shape.1 0
  cases met with
  | mismatch axis =>
    exact ⟨.imprecise, answered_of_bare fun budget wanted => settled found budget wanted⟩
  | apart axis =>
    exact ⟨.disjoint, answered_of_bare fun budget wanted => settled found budget wanted⟩
  | shared commons =>
    refine ⟨.exact (left.withAxes commons), fun budget => ?_⟩
    obtain ⟨leftRest, rightRest, -, -, -, -, answer⟩ :=
      settle_shared leftKind rightKind (parts commons rfl) budget
    exact ⟨⟨_, leftRest, rightRest⟩, rfl, fun other => absurd rfl other, fun wanted =>
      (settled found budget wanted).trans (answer wanted)⟩

/-- The regions are compared along their axes: both are arrays, or one is an array and the other one
an interval that is expressed by its axes. -/
def AlongAxes (left right : Region) : Prop :=
  -- Two arrays, or an array with an interval that has its shape.
  left.kind = .perAxis ∧ right.kind = .perAxis ∨
    left.kind = .flat ∧ right.kind = .perAxis ∧ (∃ shaped, right.reshape left = .ok shaped) ∨
    left.kind = .perAxis ∧ right.kind = .flat ∧ ∃ shaped, left.reshape right = .ok shaped

/-- An array with an axis that is not well-formed. -/
def Malformed (region : Region) : Prop :=
  -- An interval may hold axes too, but nobody looks at them.
  region.kind = .perAxis ∧ ∃ axis ∈ region.axes, ¬ axis.Valid

/-- A contract of the comparison is broken: an object is missing, or regions of one object are
compared along their axes and one of them is a malformed array. -/
def Breached (left right : Region) : Prop :=
  -- These are the two reasons for which a comparison is refused.
  left.object = none ∨ right.object = none ∨
    SameObject left.object right.object ∧ AlongAxes left right ∧ (left.Malformed ∨ right.Malformed)

theorem malformed_iff {region : Region} (kind : region.kind = .perAxis) :
    region.Malformed ↔ ¬ AllValid region.axes := by
  -- For an array, the kind is no further condition.
  simp [Malformed, kind, AllValid]

theorem not_malformed_of_flat {region : Region} (kind : region.kind = .flat) :
    ¬ region.Malformed := by
  -- Only an array is malformed.
  simp [Malformed, kind]

/-- A fault says that an object is missing, or it comes from the check
of an axis that is compared. -/
def NamesBreach (left right : Region) (cause : Breach) : Prop :=
  -- The axes are those that are compared, and not those that were given.
  cause = .noObject ∨ ∃ axis ∈ (alignShapes left right).1.axes ++ (alignShapes left right).2.axes,
    axis.check = .error (.breach cause)

/-- An interval in the shape of an array is an array itself, and it is not
malformed unless the array is. -/
theorem inherits_of_reshape {array target shaped : Region}
    (made : array.reshape target = .ok shaped) :
    shaped.kind = .perAxis ∧ (AllValid array.axes → AllValid shaped.axes) := by
  constructor
  · -- The shape is given by its construction, whatever the array is like.
    obtain ⟨element, low, high, -, -, shape⟩ := suits_of_reshape made
    rw [shape]
  · intro valid
    obtain ⟨element, low, high, reshaped⟩ := reshaped_of_reshape valid made
    exact reshaped.fills.valid

/-- Regions that are compared along their axes have the shape of arrays, whose axes are well-formed
unless one of the regions is a malformed array. -/
theorem alignShapes_along {left right : Region} (along : AlongAxes left right) :
    (alignShapes left right).1.kind = .perAxis ∧ (alignShapes left right).2.kind = .perAxis ∧
      (AllValid (alignShapes left right).1.axes ∧ AllValid (alignShapes left right).2.axes ↔
        ¬ (left.Malformed ∨ right.Malformed)) := by
  rcases along with ⟨leftKind, rightKind⟩ | ⟨leftKind, rightKind, shaped, made⟩ |
    ⟨leftKind, rightKind, shaped, made⟩
  · simp [alignShapes, leftKind, rightKind, malformed_iff]
  all_goals
    -- The axes of the shape are checked beside those of the array.
    obtain ⟨kind, inherits⟩ := inherits_of_reshape made
    simpa [alignShapes, leftKind, rightKind, made, Except.toOption, kind, malformed_iff,
      not_malformed_of_flat] using inherits

/-- Regions of one object in the shape of arrays are compared along their axes. -/
theorem intersect_eq_relateAxes_aligned {left right : Region} (object : left.object ≠ none)
    (same : SameObject left.object right.object) (along : AlongAxes left right) (budget : Int)
    (wanted : Wanted) :
    left.intersect right budget wanted =
      (alignShapes left right).1.relateAxes (alignShapes left right).2 budget wanted := by
  -- Once the shapes are found, both are arrays, and nothing else is tested.
  obtain ⟨leftKind, rightKind, -⟩ := alignShapes_along along
  simp [intersect, object, object_ne_none_of_same object same, same, leftKind, rightKind]

/-- Intervals are compared by their bytes. -/
theorem intersect_eq_relateBytes {left right : Region} (object : left.object ≠ none)
    (same : SameObject left.object right.object) (leftKind : left.kind = .flat)
    (rightKind : right.kind = .flat) (budget : Int) (wanted : Wanted) :
    left.intersect right budget wanted = .ok (left.relateBytes right wanted) := by
  -- Intervals are compared as they are.
  have other := object_ne_none_of_same object same
  simp [intersect, object, other, same, alignShapes, leftKind, rightKind, Pure.pure, Except.pure]

/-- Two intervals are compared, and the outcome depends on nothing else. -/
theorem relateBytes_answered (left right : Region) :
    ∃ outcome, Answered (fun _ wanted => .ok (left.relateBytes right wanted)) outcome := by
  cases met : left.meetBytes right with
  | foreign => exact ⟨.disjoint, answered_of_bare fun _ _ => by simp only [relateBytes, met]⟩
  | apart => exact ⟨.disjoint, answered_of_bare fun _ _ => by simp only [relateBytes, met]⟩
  | undecided => exact ⟨.imprecise, answered_of_bare fun _ _ => by simp only [relateBytes, met]⟩
  | shared common =>
    -- What lies outside the common bytes is left over, for the sides for which it is wanted.
    exact ⟨.exact common, fun _ => ⟨⟨.exact common, left.outside common, right.outside common⟩, rfl,
      fun other => absurd rfl other, fun wanted => by
        simp only [relateBytes, met, Comparison.only]⟩⟩

/-- Regions that are not compared along their axes stay as they are. -/
theorem alignShapes_not_along {left right : Region} (other : ¬ AlongAxes left right) :
    alignShapes left right = (left, right) := by
  cases leftKind : left.kind <;> cases rightKind : right.kind
  case flat.perAxis =>
    -- The interval does not fit the array, so its shape stays unknown.
    cases made : right.reshape left with
    | ok shaped => exact absurd (Or.inr (Or.inl ⟨leftKind, rightKind, shaped, made⟩)) other
    | error obstacle => simp [alignShapes, leftKind, rightKind, made, Except.toOption]
  case perAxis.flat =>
    cases made : left.reshape right with
    | ok shaped => exact absurd (Or.inr (Or.inr ⟨leftKind, rightKind, shaped, made⟩)) other
    | error obstacle => simp [alignShapes, leftKind, rightKind, made, Except.toOption]
  all_goals simp [alignShapes, leftKind, rightKind]

/-- Regions of one object that are not compared along their axes are compared
as intervals, or imprecisely. -/
theorem intersect_not_along {left right : Region} (object : left.object ≠ none)
    (same : SameObject left.object right.object) (other : ¬ AlongAxes left right) :
    left.kind = .flat ∧ right.kind = .flat ∧ (∀ budget wanted,
      left.intersect right budget wanted = .ok (left.relateBytes right wanted)) ∨
    ¬ (left.kind = .flat ∧ right.kind = .flat) ∧
      ∀ budget wanted, left.intersect right budget wanted = .ok { outcome := .imprecise } := by
  -- What is left are pairs of kinds that cannot be brought into one shape.
  have objects := object_ne_none_of_same object same
  have shapes := alignShapes_not_along other
  cases leftKind : left.kind <;> cases rightKind : right.kind
  case flat.flat =>
    refine Or.inl ⟨rfl, rfl, fun _ _ => ?_⟩
    simp [intersect, object, objects, same, shapes, leftKind, rightKind, Pure.pure, Except.pure]
  case perAxis.perAxis => exact absurd (Or.inl ⟨leftKind, rightKind⟩) other
  all_goals
    refine Or.inr ⟨by simp, fun _ _ => ?_⟩
    simp [intersect, object, objects, same, shapes, leftKind, rightKind, Pure.pure, Except.pure]

/-- A comparison is refused with one cause whatever is wanted of it, or it
is answered with one outcome. -/
theorem intersect_cases (left right : Region) :
    (left.Breached right ∧ ∃ cause, left.NamesBreach right cause ∧
      ∀ budget wanted, left.intersect right budget wanted = .error (.breach cause)) ∨
    (¬ left.Breached right ∧
      ∃ outcome, Answered (fun budget wanted => left.intersect right budget wanted) outcome) := by
  by_cases missing : left.object = none ∨ right.object = none
  · refine Or.inl ⟨missing.imp_right Or.inl, .noObject, Or.inl rfl, fun _ _ => ?_⟩
    simp only [intersect, if_pos missing, throw, throwThe, MonadExceptOf.throw, Bind.bind,
      Except.bind]
  obtain ⟨object, objects⟩ := not_or.mp missing
  by_cases same : SameObject left.object right.object
  · by_cases along : AlongAxes left right
    · -- The axes are checked in the shape in which they are compared.
      obtain ⟨leftKind, rightKind, valid⟩ := alignShapes_along along
      simp only [intersect_eq_relateAxes_aligned object same along]
      by_cases malformed : left.Malformed ∨ right.Malformed
      · obtain ⟨cause, named, refused⟩ := relateAxes_refused (fun all => valid.mp all malformed)
        exact Or.inl ⟨Or.inr (Or.inr ⟨same, along, malformed⟩), cause, Or.inr named, refused⟩
      · obtain ⟨leftValid, rightValid⟩ := valid.mpr malformed
        exact Or.inr ⟨by simp [Breached, object, objects, malformed],
          relateAxes_answered leftKind rightKind leftValid rightValid⟩
    · -- Intervals have no axes to check.
      refine Or.inr ⟨by simp [Breached, object, objects, along], ?_⟩
      rcases intersect_not_along object same along with ⟨-, -, bytes⟩ | ⟨-, imprecise⟩
      · simpa only [bytes] using relateBytes_answered left right
      · exact ⟨.imprecise, answered_of_bare imprecise⟩
  · refine Or.inr ⟨by simp [Breached, object, objects, same], .differentObjects,
      answered_of_bare fun _ _ => ?_⟩
    simp [intersect, object, objects, same, Pure.pure, Except.pure]

/-- A comparison breaks a contract exactly when an object is missing, or when regions of one object
are compared along their axes and one of them is an array with a malformed axis. No other fault
arises: no divisor is zero, no shape of a well-formed array is malformed, and every fault names a
missing object or comes from the check of an axis that is compared. What shows of it is the fault or
the answer, unless a number in what is told is too long. -/
theorem intersect_refused_iff (left right : Region) (budget : Int) (wanted : Wanted)
    (traced : Bool) :
    alignShapesChecked left right = .ok (alignShapes left right) ∧
    (AlongAxes left right → ¬ (left.Malformed ∨ right.Malformed) →
      AllValid (alignShapes left right).1.axes ∧ AllValid (alignShapes left right).2.axes) ∧
    ((∃ cause, left.intersect right budget wanted = .error (.breach cause)) ↔ left.Breached right) ∧
    (∀ fault, left.intersect right budget wanted = .error fault → ∃ cause, fault = .breach cause ∧
      left.NamesBreach right cause ∧ left.intersectTold right budget wanted traced =
        .error (if Tellable traced (shapeNotes left right) ∧
          ∀ number ∈ cause.numbers, Writable number then .breach cause
          else .longNumber)) ∧
    ∀ comparison, left.intersect right budget wanted = .ok comparison →
      left.intersectTold right budget wanted traced =
      if Tellable traced (account left right budget wanted comparison) then
        .ok (comparison, heard traced (account left right budget wanted comparison))
      else .error .longNumber := by
  refine ⟨alignShapesChecked_eq left right, fun along => (alignShapes_along along).2.2.mpr, ?_, ?_,
    fun comparison answered => intersectTold_eq answered traced⟩
  · -- A comparison that is not refused has an answer.
    rcases intersect_cases left right with ⟨refused, cause, -, failed⟩ | ⟨free, outcome, answered⟩
    · exact ⟨fun _ => refused, fun _ => ⟨cause, failed budget wanted⟩⟩
    · obtain ⟨full, -, -, answer⟩ := answered budget
      simp [answer wanted, free]
  · intro fault failed
    rcases intersect_cases left right with ⟨-, cause, named, refused⟩ | ⟨-, outcome, answered⟩
    · obtain rfl := Except.error.inj ((refused budget wanted).symm.trans failed)
      refine ⟨cause, rfl, named, ?_⟩
      rw [intersectTold_error failed, Fault.told_breach, ite_and]
    · obtain ⟨full, -, -, answer⟩ := answered budget
      cases (answer wanted).symm.trans failed

/-- An axis that ends behind its array is refused, and its last index has too many digits for the
message about it. A byte next to an array with axes of negative sizes is expressed by these axes
and refused with a message. -/
theorem intersect_refused_far_index :
    let far : Int := (10 ^ 4000 : Nat)
    let array (axes : List Axis) : Region := ⟨some (.name "A"), .perAxis, none, some 1, axes⟩
    let wide := array [⟨0, far, far, 5⟩]
    let single := array [⟨0, 1, 1, 5⟩]
    let odd := array [⟨0, 1, 1, -4⟩, ⟨0, 1, 1, -4⟩]
    let byte : Region := ⟨some (.name "A"), .flat, some 0, some 1, []⟩
    (wide.Breached single ∧ wide.intersect single 10 = .error (.breach (.bounds ⟨0, far, far, 5⟩)) ∧
      wide.intersectTold single 10 {} false = .error .longNumber) ∧
    byte.Breached odd ∧
      byte.intersectTold odd 10 {} false = .error (.breach (.size ⟨0, 1, 1, -4⟩)) := by
  intro far array wide single odd byte
  -- The bound of the axis is broken by an index of eight thousand digits.
  have wideFails : wide.intersect single 10 = .error (.breach (.bounds ⟨0, far, far, 5⟩)) := by
    decide +kernel
  -- The interval is brought into the shape of the odd array, whose sizes
  -- multiply to a positive number.
  have oddFails : byte.intersect odd 10 = .error (.breach (.size ⟨0, 1, 1, -4⟩)) := by
    decide +kernel
  obtain ⟨-, -, wideRefused, wideTold, -⟩ := intersect_refused_iff wide single 10 {} false
  obtain ⟨-, -, oddRefused, oddTold, -⟩ := intersect_refused_iff byte odd 10 {} false
  obtain ⟨cause, same, -, told⟩ := wideTold _ wideFails
  obtain ⟨other, otherSame, -, otherTold⟩ := oddTold _ oddFails
  cases same
  cases otherSame
  -- The index is part of the message, and so the fault itself cannot be told.
  have long : ¬ (Tellable false (shapeNotes wide single) ∧
      ∀ number ∈ (Breach.bounds ⟨0, far, far, 5⟩).numbers, Writable number) := by decide +kernel
  have short : Tellable false (shapeNotes byte odd) ∧
      ∀ number ∈ (Breach.size ⟨0, 1, 1, -4⟩).numbers, Writable number := by decide +kernel
  rw [if_neg long] at told
  rw [if_pos short] at otherTold
  exact ⟨⟨wideRefused.mp ⟨_, wideFails⟩, wideFails, told⟩, oddRefused.mp ⟨_, oddFails⟩, otherTold⟩

end Region

end Overlap
