import Overlap.Proofs.Equation.Bounds
import Overlap.Proofs.Relation.Lists
import Overlap.Proofs.Relation.Symmetry

/-! What is told about a comparison holds the same numbers in either order, up to those that an
equation makes up. So a comparison shows its answer in one order if it does in the other one. A
message about a malformed axis names the first one, and so depends on the order. -/

namespace Overlap

/-- The same lists with the sides exchanged. -/
def Kept.swap (kept : Kept) : Kept :=
  -- Only the sides change places, and the order within a list stays.
  ⟨kept.right, kept.left⟩

section Events

variable {traced : Bool} {event other : Event} {events : List Event}

/-- One event is told if its numbers can be written. Nobody hears the steps of a
trace that was not asked for. -/
theorem tellable_singleton : Tellable traced [event] ↔
    ((traced || !event.isTrace) = true → ∀ number ∈ event.numbers, Writable number) := by
  -- An event that is not heard holds no numbers that matter.
  by_cases audible : (traced || !event.isTrace) = true <;> simp [Tellable, heard, audible]

/-- Several events are told if the first one is and the others are. -/
theorem tellable_cons :
    Tellable traced (event :: events) ↔ Tellable traced [event] ∧ Tellable traced events :=
  -- The first event is a list of its own.
  @tellable_append traced [event] events

/-- Events of one sort with the same numbers are told under the same condition. -/
theorem tellable_congr (trace : event.isTrace = other.isTrace)
    (numbers : (∀ number ∈ event.numbers, Writable number) ↔
      ∀ number ∈ other.numbers, Writable number) :
    Tellable traced [event] ↔ Tellable traced [other] := by
  -- Both are heard or both are not.
  rw [tellable_singleton, tellable_singleton, trace, numbers]

/-- The order of numbers has no influence on whether they can be written. -/
theorem writable_append_comm (numbers others : List Int) :
    (∀ number ∈ numbers ++ others, Writable number) ↔
      ∀ number ∈ others ++ numbers, Writable number := by
  -- The order of the numbers does not matter.
  rw [List.forall_mem_append, List.forall_mem_append, and_comm]

end Events

section Axes

variable {traced : Bool} {left right : Axis}

/-- Being apart does not depend on the order. -/
theorem Axis.apart_comm : left.Apart right ↔ right.Apart left :=
  -- The definition treats both sides alike.
  or_comm

/-- The equation for two axes that are not apart can be told in either order. -/
theorem tellable_equation_swap (leftValid : left.Valid) (rightValid : right.Valid) :
    Tellable traced (if left.Apart right then []
      else [.equation left.step (-right.step) (right.start - left.start)]) ↔
      Tellable traced (if right.Apart left then []
        else [.equation right.step (-left.step) (left.start - right.start)]) := by
  by_cases apart : left.Apart right
  · rw [if_pos apart, if_pos (Axis.apart_comm.mp apart)]
  rw [if_neg apart, if_neg (fun back => apart (Axis.apart_comm.mpr back))]
  have leftStep : left.step ≠ 0 := Int.ne_of_gt leftValid.2.1
  have rightStep : right.step ≠ 0 := Int.ne_of_gt rightValid.2.1
  refine tellable_congr rfl ?_
  -- The other order turns all signs and exchanges the coefficients.
  rw [Event.numbers, Event.numbers,
    writable_equationNumbers leftStep (Int.neg_ne_zero.mpr rightStep),
    writable_equationNumbers rightStep (Int.neg_ne_zero.mpr leftStep), writable_neg, writable_neg,
    ← Int.neg_sub left.start right.start, writable_neg, and_left_comm]

/-- The result for two axes can be told in either order. -/
theorem tellable_axisMeet_swap {number : Nat} {common : Option Axis} :
    Tellable traced [.axisMeet number left right common] ↔
      Tellable traced [.axisMeet number right left common] := by
  -- The fields of both axes are written, in either order.
  refine tellable_congr rfl ?_
  simp only [Event.numbers, List.forall_mem_append]
  rw [and_comm (a := ∀ number ∈ left.fields, Writable number)]

/-- A difference of sizes can be told in either order. -/
theorem tellable_axisSizes_swap {number : Nat} :
    Tellable traced [.axisSizes number left right] ↔
      Tellable traced [.axisSizes number right left] := by
  -- Both sizes are written, in either order.
  refine tellable_congr rfl ?_
  simp only [Event.numbers, List.forall_mem_cons]
  rw [and_left_comm]

end Axes

/-- The comparison of well-formed axes can be told in either order. -/
theorem tellable_tellAxes_swap {lefts rights : List Axis} (leftValid : AllValid lefts)
    (rightValid : AllValid rights) (traced : Bool) (budget : Int) (number : Nat) (wanted : Wanted) :
    Tellable traced (tellAxes budget number wanted lefts rights) ↔
      Tellable traced (tellAxes budget number wanted.swap rights lefts) := by
  -- Axis by axis, each event has a counterpart; only the notes about the two budgets change places.
  induction lefts generalizing rights number wanted with
  | nil => cases rights <;> simp [tellAxes]
  | cons left lefts ih =>
    cases rights with
    | nil => simp [tellAxes]
    | cons right rights =>
      obtain ⟨leftFirst, leftRest⟩ := allValid_cons.mp leftValid
      obtain ⟨rightFirst, rightRest⟩ := allValid_cons.mp rightValid
      by_cases size : left.size = right.size
      · have turned := Axis.meet_comm leftFirst rightFirst size
        simp only [tellAxes, size, ne_eq, not_true_eq_false, if_false, ← turned, tellable_append]
        refine and_congr (tellable_equation_swap leftFirst rightFirst) ?_
        refine tellable_cons.trans ((and_congr tellable_axisMeet_swap ?_).trans tellable_cons.symm)
        -- The inner axes are reached only behind common indices, and then with the
        -- same sides over budget.
        cases (left.meet right).toOption.join with
        | none => exact Iff.rfl
        | some common =>
          simp only [tellable_append, ih leftRest rightRest]
          rw [and_comm (a := Tellable traced (tellBudget left common budget wanted.left))]
          exact Iff.rfl
      · simp only [tellAxes, if_pos size, if_pos (Ne.symm size)]
        exact tellable_axisSizes_swap

/-- The representative of an identity can be written if the identity can. -/
theorem Identity.writable_canonical (identity : Identity) :
    (∀ number ∈ identity.canonical.numbers, Writable number) ↔
      ∀ number ∈ identity.numbers, Writable number := by
  cases identity with
  | name text => exact Iff.rfl
  | number value => exact Iff.rfl
  | flag value =>
    -- A flag shows no number, and the number that it stands for is short.
    have short : Writable (if value then 1 else 0) := by
      revert value
      decide +kernel
    simpa [canonical, numbers] using short

namespace Region

/-- The summary of a region can be written if that of a region like it can. -/
theorem Alike.writable_iff {region other : Region} (alike : region.Alike other) :
    (∀ number ∈ region.summaryNumbers, Writable number) ↔
      ∀ number ∈ other.summaryNumbers, Writable number := by
  obtain ⟨same, kind, lower, upper, axes⟩ := alike
  cases others : other.axes with
  | cons axis rest =>
    -- The object is not shown along with axes.
    simp only [summaryNumbers, axes, others]
  | nil =>
    simp only [summaryNumbers, numbers, kind, lower, upper, axes, others]
    -- Only the identities of the object can differ.
    revert same
    cases region.object with
    | none =>
      cases other.object with
      | none => exact fun _ => Iff.rfl
      | some otherIdentity => exact fun same => absurd same id
    | some identity =>
      cases other.object with
      | none => exact fun same => absurd same id
      | some otherIdentity =>
        intro same
        -- Two identities of one object have one representative, which can be written if they can.
        have representative : identity.canonical = otherIdentity.canonical := same
        have written := identity.writable_canonical
        rw [representative, otherIdentity.writable_canonical] at written
        cases other.kind <;> simp only [List.forall_mem_append, written]

/-- How a shape was found is told in the same way in either order. -/
theorem tellShapes_swap (left right : Region) : tellShapes right left = tellShapes left right := by
  -- An array and an interval are told the same way on either side.
  unfold tellShapes
  cases left.kind <;> cases right.kind <;> rfl

variable {left right : Region} {traced : Bool}

/-- The comparison of plain intervals can be told in either order. -/
theorem tellable_tellIntervals_swap (leftKind : left.kind = .flat) (rightKind : right.kind = .flat)
    (leftPlain : left.Plain) (rightPlain : right.Plain)
    (same : SameObject left.object right.object) :
    Tellable traced (tellIntervals left right) ↔ Tellable traced (tellIntervals right left) := by
  -- Only a verdict without common bytes is told, and it names both intervals.
  rcases meetBytes_swap leftKind rightKind leftPlain rightPlain same with
    ⟨equal, -⟩ | ⟨common, other, met, turned, -⟩
  · simp only [tellIntervals, ← equal]
    cases left.meetBytes right with
    | foreign => exact Iff.rfl
    | apart => exact tellable_congr rfl (writable_append_comm ..)
    | undecided => exact tellable_congr rfl (writable_append_comm ..)
    | shared common => exact Iff.rfl
  · simp only [tellIntervals, met, turned]

/-- The comparison of arrays with well-formed axes can be told in either order. -/
theorem tellable_tellArrays_swap (leftValid : AllValid left.axes) (rightValid : AllValid right.axes)
    (budget : Int) (wanted : Wanted) :
    Tellable traced (tellArrays left right budget wanted) ↔
      Tellable traced (tellArrays right left budget wanted.swap) := by
  -- Each test is symmetric, and so are the numbers in what is told behind it.
  unfold tellArrays
  by_cases counts : left.axes.length = right.axes.length
  · rw [if_neg (not_not.mpr counts), if_neg (not_not.mpr counts.symm)]
    by_cases element : left.upper = right.upper
    · rw [if_neg (not_not.mpr element), if_neg (not_not.mpr element.symm)]
      by_cases equal : left.lower = right.lower ∧ left.axes = right.axes
      · rw [if_pos equal, if_pos (equal.imp Eq.symm Eq.symm)]
      · rw [if_neg equal, if_neg fun back => equal (back.imp Eq.symm Eq.symm)]
        exact tellable_tellAxes_swap leftValid rightValid traced budget 0 wanted
    · rw [if_pos element, if_pos (Ne.symm element)]
      exact tellable_congr rfl (writable_append_comm ..)
  · rw [if_pos counts, if_pos (Ne.symm counts)]
    exact tellable_congr rfl (writable_append_comm ..)

/-- The steps of comparing plain regions that break no contract can be told in either order. -/
theorem tellable_tellSteps_swap (same : SameObject left.object right.object)
    (leftPlain : left.Plain) (rightPlain : right.Plain) (free : ¬ left.Breached right)
    (budget : Int) (wanted : Wanted) :
    Tellable traced (tellSteps left right budget wanted) ↔
      Tellable traced (tellSteps right left budget wanted.swap) := by
  have turned := sameObject_symm same
  simp only [tellSteps, same, turned, not_true_eq_false, if_false, tellable_append,
    tellShapes_swap left right, alignShapes_swap left right, Prod.fst_swap, Prod.snd_swap]
  refine and_congr_right fun _ => ?_
  by_cases along : AlongAxes left right
  · -- Both regions are arrays by now, and well-formed ones.
    obtain ⟨leftKind, rightKind, valid⟩ := alignShapes_along along
    obtain ⟨leftValid, rightValid⟩ :=
      valid.mpr fun malformed => free (Or.inr (Or.inr ⟨same, along, malformed⟩))
    simp only [leftKind, rightKind]
    exact tellable_tellArrays_swap leftValid rightValid budget wanted
  · -- Regions that stay as they are have steps to tell only if both are intervals.
    simp only [alignShapes_not_along along]
    cases leftKind : left.kind <;> cases rightKind : right.kind
    case flat.flat => exact tellable_tellIntervals_swap leftKind rightKind leftPlain rightPlain same
    case perAxis.perAxis => exact absurd (Or.inl ⟨leftKind, rightKind⟩) along
    all_goals exact Iff.rfl

end Region

/-- Mirrored answers share like regions, or none. -/
theorem Comparison.Mirrors.shared? {comparison other : Comparison}
    (mirrors : comparison.Mirrors other) :
    Option.Rel Region.Alike comparison.outcome.shared? other.outcome.shared? := by
  -- Whether a region is shared is a matter of the relation.
  unfold Outcome.shared?
  rw [mirrors.relation]
  split
  · exact mirrors.region
  · exact .none

namespace Region

variable {left right : Region} {traced : Bool}

/-- The sides of an exact answer have one kind once they have one shape. -/
theorem kind_eq_of_shared (object : left.object ≠ none) (same : SameObject left.object right.object)
    {budget : Int} {wanted : Wanted} {comparison : Comparison}
    (answered : left.intersect right budget wanted = .ok comparison)
    (shared : comparison.outcome.shared? ≠ none) :
    (alignShapes left right).1.kind = (alignShapes left right).2.kind := by
  -- A shared region is only known for two intervals or for two arrays.
  by_cases along : AlongAxes left right
  · obtain ⟨leftKind, rightKind, -⟩ := alignShapes_along along
    rw [leftKind, rightKind]
  · rcases intersect_not_along object same along with ⟨leftKind, rightKind, -⟩ | ⟨-, imprecise⟩
    · rw [alignShapes_not_along along, leftKind, rightKind]
    -- An answer that is not precise has no shared region.
    · cases (imprecise budget wanted).symm.trans answered
      exact absurd rfl shared

/-- The summaries of mirrored answers can be told in either order. -/
theorem tellable_tellSummary_swap {comparison other : Comparison}
    (mirrors : comparison.Mirrors other) (kinds : comparison.outcome.shared? ≠ none →
      (alignShapes left right).1.kind = (alignShapes left right).2.kind) :
    Tellable traced (tellSummary left right comparison) ↔
      Tellable traced (tellSummary right left other) := by
  simp only [tellSummary, alignShapes_swap left right, Prod.fst_swap, Prod.snd_swap]
  by_cases equal : (alignShapes left right).1.lower = (alignShapes left right).2.lower ∧
      (alignShapes left right).1.axes = (alignShapes left right).2.axes
  · rw [if_pos equal, if_pos (equal.imp Eq.symm Eq.symm)]
  rw [if_neg equal, if_neg fun back => equal (back.imp Eq.symm Eq.symm)]
  -- Only a shared region is summed up, and both answers have one or none.
  have alike := mirrors.shared?
  generalize comparison.outcome.shared? = shared at alike kinds ⊢
  generalize other.outcome.shared? = turned at alike ⊢
  cases alike with
  | none => cases (alignShapes left right).1.kind <;> cases (alignShapes left
      right).2.kind <;> exact Iff.rfl
  | some alike =>
    rw [kinds (by simp)]
    cases (alignShapes left right).2.kind with
    | flat => exact Iff.rfl
    | whole => exact Iff.rfl
    | perAxis =>
      -- The parts of the two sides change places in the summary.
      refine tellable_congr rfl ?_
      simp only [Event.numbers, mirrors.left, mirrors.right, List.cons_append, List.flatMap_cons,
        List.flatMap_append, List.forall_mem_append, alike.writable_iff]
      rw [and_comm (a := ∀ number ∈ other.right.flatMap summaryNumbers, Writable number)]

/-- Everything about mirrored answers can be told in either order. -/
theorem tellable_account_swap (same : SameObject left.object right.object) (leftPlain : left.Plain)
    (rightPlain : right.Plain) (free : ¬ left.Breached right) {budget : Int} {wanted : Wanted}
    {comparison other : Comparison} (answered : left.intersect right budget wanted = .ok comparison)
    (mirrors : comparison.Mirrors other) :
    Tellable traced (account left right budget wanted comparison) ↔
      Tellable traced (account right left budget wanted.swap other) := by
  -- The account is made up of the steps and the summary.
  have object : left.object ≠ none := fun missing => free (Or.inl missing)
  simp only [account, tellable_append]
  exact and_congr (tellable_tellSteps_swap same leftPlain rightPlain free budget wanted)
    (tellable_tellSummary_swap mirrors (kind_eq_of_shared object same answered))

/-- What is told in front of a refusal does not depend on the order. -/
theorem shapeNotes_swap (same : SameObject left.object right.object) :
    shapeNotes right left = shapeNotes left right := by
  -- Whether the notes are made depends on the objects, which agree.
  have turned := sameObject_symm same
  have objects : right.object ≠ none ↔ left.object ≠ none :=
    ⟨fun object => object_ne_none_of_same object turned,
      fun object => object_ne_none_of_same object same⟩
  simp only [shapeNotes, same, turned, objects, tellShapes_swap left right]

/-- Regions that break a contract are refused with one cause, whatever is wanted of them. -/
theorem intersect_of_breached (breached : left.Breached right) :
    ∃ cause, ∀ budget wanted, left.intersect right budget wanted = .error (.breach cause) := by
  -- A comparison that is breached has no answer.
  rcases intersect_cases left right with ⟨-, cause, -, failed⟩ | ⟨free, -⟩
  · exact ⟨cause, failed⟩
  · exact absurd breached free

/-- Plain regions of one object are refused in both orders or in none. Otherwise the answers in both
orders have the same relation, like regions and the same leftover parts with the sides exchanged,
and they show in both orders or in none. The lists are exchanged in any case. A refusal may show in
one order only, since a message names the first malformed axis, and its numbers may be too long. -/
theorem intersectInto_mirrors {left right : Region} (same : SameObject left.object right.object)
    (leftPlain : left.Plain) (rightPlain : right.Plain) (budget : Int) (kept : Kept)
    (traced : Bool) :
    (right.intersectInto left budget kept.swap traced).2 =
      (left.intersectInto right budget kept traced).2.swap ∧
    ((∃ cause other, left.intersect right budget kept.wanted = .error (.breach cause) ∧
        right.intersect left budget kept.swap.wanted = .error (.breach other) ∧
        (left.intersectInto right budget kept traced).1 =
          .error (if Tellable false (shapeNotes left right) ∧
          ∀ number ∈ cause.numbers, Writable number then .breach cause else .longNumber) ∧
        (right.intersectInto left budget kept.swap traced).1 =
          .error (if Tellable false (shapeNotes left right) ∧
          ∀ number ∈ other.numbers, Writable number then .breach other else .longNumber)) ∨
      ∃ comparison other, left.intersect right budget kept.wanted = .ok comparison ∧
        right.intersect left budget kept.swap.wanted = .ok other ∧ comparison.Mirrors other ∧
        ((left.intersectInto right budget kept traced).1.map Prod.fst = .ok comparison ∧
            (right.intersectInto left budget kept.swap traced).1.map Prod.fst = .ok other ∨
          (left.intersectInto right budget kept traced).1 = .error .longNumber ∧
            (right.intersectInto left budget kept.swap traced).1 = .error .longNumber)) := by
  by_cases breached : left.Breached right
  · -- The contract is broken in both orders, and nothing is put behind the lists.
    obtain ⟨cause, failed⟩ := intersect_of_breached breached
    obtain ⟨other, turned⟩ := intersect_of_breached breached.symm
    rw [intersectInto_error (failed budget kept.wanted),
      intersectInto_error (turned budget kept.swap.wanted), shapeNotes_swap same, Fault.told_breach,
      Fault.told_breach]
    refine ⟨rfl, Or.inl ⟨cause, other, failed _ _, turned _ _, ?_, ?_⟩⟩
    · rw [ite_and]
    · rw [ite_and]
  · -- The answers mirror each other, and so do the conditions under which they show.
    obtain ⟨comparison, other, answered, turned, mirrors⟩ :=
      intersect_mirrors same leftPlain rightPlain breached budget kept.wanted
    have steps : Tellable traced (tellSteps left right budget kept.wanted) ↔
        Tellable traced (tellSteps right left budget kept.swap.wanted) :=
      tellable_tellSteps_swap same leftPlain rightPlain breached budget kept.wanted
    have whole : Tellable traced (account left right budget kept.wanted comparison) ↔
        Tellable traced (account right left budget kept.swap.wanted other) :=
      tellable_account_swap same leftPlain rightPlain breached answered mirrors
    have into := intersectInto_ok answered traced
    have intoTurned := @intersectInto_ok right left budget kept.swap other turned traced
    rw [into, intoTurned]
    refine ⟨?_, Or.inr ⟨comparison, other, answered, turned, mirrors, ?_⟩⟩
    · -- The parts that are put behind a list are the same in both orders.
      by_cases told : Tellable traced (tellSteps left right budget kept.wanted)
      · rw [if_pos told, if_pos (steps.mp told), ← mirrors.left, ← mirrors.right]
        rfl
      · rw [if_neg told, if_neg fun back => told (steps.mpr back)]
    · by_cases told : Tellable traced (account left right budget kept.wanted comparison)
      · rw [if_pos told, if_pos (whole.mp told)]
        exact Or.inl ⟨rfl, rfl⟩
      · rw [if_neg told, if_neg fun back => told (whole.mpr back)]
        exact Or.inr ⟨rfl, rfl⟩

/-- Rows in steps of two and in steps of three share a row in either order, although one side calls
the object by a flag and the other one by a number. An axis with a negative start and an axis that
ends behind its array are refused in either order, and the message shows only if the first one comes
first: the last index of the other one has too many digits. -/
theorem intersectInto_mirrors_orders :
    let array (object : Identity) (axes : List Axis) : Region :=
      ⟨some object, .perAxis, none, some 8, axes⟩
    let left := array (.flag true) [⟨0, 2, 5, 10⟩]
    let right := array (.number 1) [⟨1, 3, 3, 10⟩]
    let far : Int := (10 ^ 4000 : Nat)
    let wide := array (.name "A") [⟨0, far, far, 5⟩]
    let negative := array (.name "A") [⟨-1, 1, 1, 5⟩]
    let lists : Kept := ⟨some [], some []⟩
    let answer (result : Except Fault (Comparison × List Event) × Kept) := result.1.map Prod.fst
    ((left.intersectInto right 10 lists).2 =
      ⟨some [array (.flag true) [⟨0, 2, 2, 10⟩], array (.flag true) [⟨6, 2, 2, 10⟩]],
          some [array (.number 1) [⟨1, 3, 1, 10⟩], array (.number 1) [⟨7, 3, 1, 10⟩]]⟩ ∧
        (right.intersectInto left 10 lists).2 = (left.intersectInto right 10 lists).2.swap ∧
        answer (left.intersectInto right 10 {}) =
          .ok { outcome := .exact (array (.flag true) [⟨4, 6, 1, 10⟩]) } ∧
        answer (right.intersectInto left 10 {}) =
          .ok { outcome := .exact (array (.number 1) [⟨4, 6, 1, 10⟩]) }) ∧
      answer (wide.intersectInto negative 10 lists) = .error .longNumber ∧
        answer (negative.intersectInto wide 10 lists) = .error (.breach (.start ⟨-1, 1, 1, 5⟩)) ∧
        (negative.intersectInto wide 10 lists).2 = lists := by
  intro array left right far wide negative lists answer
  -- Arrays without a lower bound are plain.
  have plain : ∀ object axes, (array object axes).Plain :=
    fun object axes => ⟨(fun kind => by cases kind), fun _ => rfl⟩
  have exchanged :=
    (intersectInto_mirrors (show SameObject left.object right.object by decide)
      (plain _ _) (plain _ _) 10 lists false).1
  have kept :=
    (intersectInto_mirrors (show SameObject wide.object negative.object by decide)
      (plain _ _) (plain _ _) 10 lists false).1
  -- A text that is too long stops the first order before anything is kept.
  have wideKept : (wide.intersectInto negative 10 lists).2 = lists := by decide +kernel
  refine ⟨⟨by decide +kernel, exchanged, by decide +kernel, by decide +kernel⟩,
    by decide +kernel, by decide +kernel, ?_⟩
  rw [wideKept] at kept
  exact kept

end Region

end Overlap
