import Mathlib.Data.List.Forall2
import Overlap.Proofs.Axis.Basic

/-! Tuples with one index from each of several axes. -/

namespace Overlap

/-- The tuple has one index for each axis, and each of them belongs to its axis. -/
def InAxes (axes : List Axis) (tuple : List Int) : Prop :=
  -- A tuple has one index for every axis, in the same order.
  List.Forall₂ (fun axis index => index ∈ axis) axes tuple

/-- All axes are well-formed. -/
def AllValid (axes : List Axis) : Prop :=
  -- The order of the axes plays no role.
  ∀ axis ∈ axes, axis.Valid

/-- The axes have the same numbers of positions, axis by axis. -/
def SameSizes (axes others : List Axis) : Prop :=
  -- Lists of different lengths never have the same sizes.
  axes.map Axis.size = others.map Axis.size

/-- Belonging is settled index by index. -/
instance (axes : List Axis) (tuple : List Int) : Decidable (InAxes axes tuple) :=
  -- Lists are compared item by item, and each membership can be decided.
  inferInstanceAs (Decidable (List.Forall₂ _ axes tuple))

/-- Sizes are compared one by one. -/
instance (axes others : List Axis) : Decidable (SameSizes axes others) :=
  -- Lists of integers are compared.
  inferInstanceAs (Decidable (_ = _))

/-- Well-formedness is settled axis by axis. -/
instance (axes : List Axis) : Decidable (AllValid axes) :=
  -- Finitely many axes are looked at.
  inferInstanceAs (Decidable (∀ axis ∈ axes, axis.Valid))

/-- Without axes there is the empty tuple only. -/
@[simp] theorem inAxes_nil {tuple : List Int} : InAxes [] tuple ↔ tuple = [] :=
  -- Only the empty tuple has an index for each of no axes.
  List.forall₂_nil_left_iff

/-- The first index belongs to the first axis, and the others to the others. -/
@[simp] theorem inAxes_cons {axis : Axis} {axes : List Axis} {index : Int} {indices : List Int} :
    InAxes (axis :: axes) (index :: indices) ↔ index ∈ axis ∧ InAxes axes indices :=
  -- The first index belongs to the first axis, and the others to the others.
  List.forall₂_cons

/-- A tuple without indices leaves a first axis unserved. -/
@[simp] theorem not_inAxes_nil {axis : Axis} {axes : List Axis} : ¬ InAxes (axis :: axes) [] :=
  -- A tuple without indices is too short.
  fun held => nomatch held

/-- Well-formed axes have at least one tuple. -/
theorem exists_inAxes {axes : List Axis} (valid : AllValid axes) : ∃ tuple, InAxes axes tuple := by
  -- Every axis contributes its start.
  induction axes with
  | nil => exact ⟨[], inAxes_nil.mpr rfl⟩
  | cons axis axes ih =>
    obtain ⟨tuple, held⟩ := ih fun other member => valid other (List.mem_cons_of_mem axis member)
    exact ⟨axis.start :: tuple,
      inAxes_cons.mpr ⟨Axis.start_mem (valid axis List.mem_cons_self), held⟩⟩

/-- Well-formed axes are a well-formed one in front of well-formed ones. -/
@[simp] theorem allValid_cons {axis : Axis} {axes : List Axis} :
    AllValid (axis :: axes) ↔ axis.Valid ∧ AllValid axes :=
  -- This is how a property of all items is split.
  List.forall_mem_cons

/-- Sizes agree when the first ones and the others do. -/
@[simp] theorem sameSizes_cons {axis other : Axis} {axes others : List Axis} :
    SameSizes (axis :: axes) (other :: others) ↔
      axis.size = other.size ∧ SameSizes axes others := by
  -- Lists of sizes agree in their first items and in the rest.
  simp [SameSizes]

/-- Axis by axis, the sizes agree. -/
theorem SameSizes.forall₂ {axes others : List Axis} (sizes : SameSizes axes others) :
    List.Forall₂ (fun axis other => axis.size = other.size) axes others := by
  -- Equal lists agree item by item, and the items are sizes.
  have equal : List.Forall₂ (· = ·) (axes.map Axis.size) (others.map Axis.size) := by
    rw [List.forall₂_eq_eq_eq]
    exact sizes
  exact List.forall₂_map_right_iff.mp (List.forall₂_map_left_iff.mp equal)

/-- Lists with the same sizes have the same number of axes. -/
theorem SameSizes.length_eq {axes others : List Axis} (sizes : SameSizes axes others) :
    axes.length = others.length := by
  -- Sizes are as many as axes.
  simpa using congrArg List.length sizes

/-- Axes in the sizes of others are there when those are. -/
theorem SameSizes.ne_nil {axes others : List Axis} (same : SameSizes axes others)
    (nonempty : others ≠ []) :
    axes ≠ [] := by
  -- An empty list on one side would make the other one empty too.
  rintro rfl
  exact nonempty (List.eq_nil_of_length_eq_zero same.length_eq.symm)

end Overlap
