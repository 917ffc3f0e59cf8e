import Overlap.Proofs.Axis.Difference
import Overlap.Proofs.Axis.Meet
import Overlap.Proofs.Axis.Tuples
import Overlap.Relation.Intersect

/-! Comparing lists of axes finds the common tuples, and what is left splits the others. -/

namespace Overlap

/-- An axis is part of another one along the same array axis, with steps that are steps of it. -/
structure PartOf (part whole : Axis) : Prop where
  -- The steps divide, so the part can be taken away from the whole axis.
  valid : part.Valid
  wholeValid : whole.Valid
  size : part.size = whole.size
  aligned : whole.step ∣ part.step
  subset : ∀ index, index ∈ part → index ∈ whole

/-- The common indices of two axes are part of the left one. -/
theorem Axis.Meets.partOf_left {common left right : Axis} (meets : common.Meets left right)
    (leftValid : left.Valid) : PartOf common left where
  -- The common step is a multiple of both steps.
  valid := meets.valid
  wholeValid := leftValid
  size := meets.size
  aligned := meets.step ▸ Int.dvd_lcm_left ..
  subset index member := ((meets.mem index).mp member).1

/-- The common indices of two axes of equal size are part of the right one. -/
theorem Axis.Meets.partOf_right {common left right : Axis} (meets : common.Meets left right)
    (rightValid : right.Valid) (sizes : left.size = right.size) : PartOf common right where
  -- The size is that of the left axis, so the sizes have to agree here.
  valid := meets.valid
  wholeValid := rightValid
  size := meets.size.trans sizes
  aligned := meets.step ▸ Int.dvd_lcm_right ..
  subset index member := ((meets.mem index).mp member).2

/-- Axis by axis, a list of axes is part of another one. -/
def PartsOf (parts wholes : List Axis) : Prop :=
  -- The parts and the axes come in pairs.
  List.Forall₂ PartOf parts wholes

namespace PartsOf

variable {parts wholes : List Axis}

/-- Parts are well-formed. -/
theorem valid (partsOf : PartsOf parts wholes) : AllValid parts := by
  -- Axis by axis, the part is well formed.
  induction partsOf with
  | nil => exact fun axis member => nomatch member
  | cons first _ ih => exact allValid_cons.mpr ⟨first.valid, ih⟩

/-- What has parts is well-formed. -/
theorem wholeValid (partsOf : PartsOf parts wholes) : AllValid wholes := by
  -- Axis by axis, the whole is well formed.
  induction partsOf with
  | nil => exact fun axis member => nomatch member
  | cons first _ ih => exact allValid_cons.mpr ⟨first.wholeValid, ih⟩

/-- Parts have the sizes of the axes that they are parts of. -/
theorem sizes (partsOf : PartsOf parts wholes) : SameSizes parts wholes := by
  -- Axis by axis, the sizes agree.
  induction partsOf with
  | nil => rfl
  | cons first _ ih => exact sameSizes_cons.mpr ⟨first.size, ih⟩

/-- The tuples of the parts are tuples of the axes that they are parts of. -/
theorem subset (partsOf : PartsOf parts wholes) {tuple : List Int} (held : InAxes parts tuple) :
    InAxes wholes tuple := by
  -- Each index belongs to its part.
  induction partsOf generalizing tuple with
  | nil => exact held
  | cons first _ ih =>
    cases held with
    | cons inFirst inRest => exact inAxes_cons.mpr ⟨first.subset _ inFirst, ih inRest⟩

end PartsOf

/-- Axis by axis, the least common multiple of two steps. -/
def jointSteps (steps others : List Int) : List Int :=
  -- The steps are joined axis by axis, and nothing depends on the starts.
  List.zipWith (fun step other => (Int.lcm step other : Int)) steps others

/-- Well-formed axes climb by their joint steps with themselves. -/
theorem jointSteps_self {axes : List Axis} (valid : AllValid axes) :
    jointSteps (axes.map Axis.step) (axes.map Axis.step) = axes.map Axis.step := by
  rw [jointSteps, List.zipWith_self, List.map_map]
  refine List.map_congr_left fun axis member => ?_
  -- A positive step is the least common multiple of itself with itself.
  have rising := (valid axis member).2.1
  rw [Function.comp_apply, Int.lcm_self, Int.natAbs_of_nonneg (Int.le_of_lt rising)]

/-- The axes hold exactly the tuples common to two lists of axes, climb by their joint steps
and are part of both lists. -/
structure MeetAll (commons lefts rights : List Axis) : Prop where
  -- The parts belong to both sides, and no tuple in both is missing.
  left : PartsOf commons lefts
  right : PartsOf commons rights
  steps : commons.map Axis.step = jointSteps (lefts.map Axis.step) (rights.map Axis.step)
  mem : ∀ tuple, InAxes commons tuple ↔ InAxes lefts tuple ∧ InAxes rights tuple

/-- Two lists of well-formed axes of the same sizes are found to share nothing, or
their common tuples are found. -/
theorem meetAxes_cases {lefts rights : List Axis} (leftValid : AllValid lefts)
    (rightValid : AllValid rights) (sizes : SameSizes lefts rights) (number : Nat) :
    (∃ axis, meetAxes number lefts rights = .ok (.apart axis) ∧
      ∀ tuple, ¬ (InAxes lefts tuple ∧ InAxes rights tuple)) ∨
      ∃ commons, meetAxes number lefts rights = .ok (.shared commons) ∧
        MeetAll commons lefts rights := by
  -- A tuple is common when its indices are, axis by axis.
  induction sizes.forall₂ generalizing number with
  | nil => exact Or.inr ⟨[], rfl, List.Forall₂.nil, List.Forall₂.nil, rfl, by simp⟩
  | @cons left right lefts rights _ _ ih =>
    obtain ⟨leftFirst, leftRest⟩ := allValid_cons.mp leftValid
    obtain ⟨rightFirst, rightRest⟩ := allValid_cons.mp rightValid
    obtain ⟨size, sizes⟩ := sameSizes_cons.mp sizes
    rcases Axis.meet_cases leftFirst rightFirst with ⟨met, apart⟩ | ⟨common, met, meets⟩
    · -- An axis without common indices rules out every common tuple.
      refine Or.inl ⟨number, ?_, ?_⟩
      · simp [meetAxes, size, met, Bind.bind, Except.bind, Pure.pure, Except.pure]
      · intro tuple both
        cases both.1 with
        | cons inLeft _ => exact apart _ ⟨inLeft, (inAxes_cons.mp both.2).1⟩
    · -- Along this axis the indices are shared, so the inner axes decide.
      rcases ih leftRest rightRest sizes (number + 1) with ⟨axis, rest, none⟩ | ⟨commons, rest, all⟩
      · refine Or.inl ⟨axis, ?_, ?_⟩
        · simp [meetAxes, size, met, rest, Bind.bind, Except.bind, Pure.pure, Except.pure]
        · intro tuple both
          cases both.1 with
          | cons _ inLefts => exact none _ ⟨inLefts, (inAxes_cons.mp both.2).2⟩
      · refine Or.inr ⟨common :: commons, ?_, ?_⟩
        · simp [meetAxes, size, met, rest, Bind.bind, Except.bind, Pure.pure, Except.pure]
        · refine ⟨.cons (meets.partOf_left leftFirst) all.left,
            .cons (meets.partOf_right rightFirst size) all.right, ?_, ?_⟩
          · simp [jointSteps, meets.step, all.steps]
          · intro tuple
            cases tuple with
            | nil => simp
            | cons index indices =>
              simp only [inAxes_cons, meets.mem, all.mem]
              exact and_and_and_comm

/-- Lists of axes that split the tuples of a list of axes outside a part, all of them
well-formed and of the same sizes. -/
structure LeavesAll (pieces : List (List Axis)) (parts wholes : List Axis) : Prop where
  -- The pieces are lists of axes of the same array, and together they hold what the parts leave.
  valid : ∀ piece ∈ pieces, AllValid piece
  sizes : ∀ piece ∈ pieces, SameSizes piece wholes
  splits : Splits InAxes pieces fun tuple => InAxes wholes tuple ∧ ¬ InAxes parts tuple

/-- What is left along the first axis and what is left behind it make up all that is left. -/
theorem LeavesAll.cons {part whole : Axis} {parts wholes firsts : List Axis}
    {rests : List (List Axis)} (first : PartOf part whole) (others : PartsOf parts wholes)
    (leaves : Axis.Leaves firsts part whole) (rest : LeavesAll rests parts wholes) :
    LeavesAll (firsts.map (· :: wholes) ++ rests.map (part :: ·)) (part :: parts)
      (whole :: wholes) := by
  -- The pieces in front are free along the inner axes, and those behind keep to the
  -- part along the first one.
  refine ⟨?_, ?_, ?_⟩
  · intro piece member
    rcases List.mem_append.mp member with front | behind
    · obtain ⟨axis, axisMem, rfl⟩ := List.mem_map.mp front
      exact allValid_cons.mpr ⟨leaves.valid axis axisMem, others.wholeValid⟩
    · obtain ⟨axes, axesMem, rfl⟩ := List.mem_map.mp behind
      exact allValid_cons.mpr ⟨first.valid, rest.valid axes axesMem⟩
  · intro piece member
    rcases List.mem_append.mp member with front | behind
    · obtain ⟨axis, axisMem, rfl⟩ := List.mem_map.mp front
      exact sameSizes_cons.mpr ⟨leaves.size axis axisMem, rfl⟩
    · obtain ⟨axes, axesMem, rfl⟩ := List.mem_map.mp behind
      exact sameSizes_cons.mpr ⟨first.size, rest.sizes axes axesMem⟩
  · -- A tuple leaves the part along the first axis, or keeps to it there and leaves it further in.
    have front : Splits InAxes _ _ := leaves.splits.map (· :: wholes) (fun tuple => tuple.headD 0)
      (fun tuple => tuple ≠ [] ∧ InAxes wholes tuple.tail) (by
        intro axis tuple
        cases tuple <;> simp [and_comm])
    have behind : Splits InAxes _ _ := rest.splits.map (part :: ·) List.tail
      (fun tuple => tuple ≠ [] ∧ tuple.headD 0 ∈ part) (by
        intro axes tuple
        cases tuple <;> simp)
    refine (front.append behind ?_).congr ?_
    · intro tuple inFront inBehind
      exact inFront.2.2 inBehind.1.2
    · intro tuple
      cases tuple with
      | nil => simp
      | cons index indices =>
        have := first.subset index
        have : InAxes parts indices → InAxes wholes indices := others.subset
        simp only [inAxes_cons, List.headD_cons, List.tail_cons, ne_eq, reduceCtorEq,
          not_false_eq_true, true_and]
        tauto

/-- Taking parts away from a list of axes is over budget along some axis, or leaves lists of axes
that split the other tuples. -/
theorem leftoverAxes_cases {parts wholes : List Axis} (partsOf : PartsOf parts wholes)
    (budget : Int) :
    leftoverAxes budget wholes parts = .ok none ∨
      ∃ pieces, leftoverAxes budget wholes parts = .ok (some pieces) ∧
        LeavesAll pieces parts wholes := by
  -- One axis over budget is enough for having no answer.
  induction partsOf with
  | nil => exact Or.inr ⟨[], rfl, by simp, by simp, Splits.nil (by simp)⟩
  | @cons part whole parts wholes first others ih =>
    rcases Axis.difference_cases first.valid first.wholeValid first.aligned first.subset budget with
      ⟨-, exceeded⟩ | ⟨firsts, -, within, leaves⟩
    · exact Or.inl
        (by simp [leftoverAxes, exceeded, Bind.bind, Except.bind, Pure.pure, Except.pure])
    · rcases ih with exceeded | ⟨rests, inner, rest⟩
      · exact Or.inl
          (by simp [leftoverAxes, within, exceeded, Bind.bind, Except.bind, Pure.pure, Except.pure])
      · refine Or.inr ⟨_, ?_, LeavesAll.cons first others leaves rest⟩
        simp [leftoverAxes, within, inner, Bind.bind, Except.bind, Pure.pure, Except.pure]

end Overlap
