import Overlap.Proofs.Footprint.Exact
import Overlap.Proofs.Phrase.Meaning

/-! Listing addresses stops for one of two reasons: it is not known where the region lies, or a
limit of the machine is reached. -/

namespace Overlap

/-- Faults that come from a limit of the machine and not from what is known of a region. -/
def machineFaults : List Fault :=
  -- These are the faults that depend on the size of what is listed, and not on its meaning.
  [.tooMany, .outOfMemory, .wordOverflow]

section Words

variable {fault : Fault}

theorem checkBytes_error [Limits] {bytes : Nat} (failed : checkBytes bytes = .error fault) :
    fault ∈ machineFaults := by
  -- Memory is the only thing that is asked for.
  unfold checkBytes at failed
  split at failed <;> cases failed
  simp [machineFaults]

theorem checkWords_error [Limits] {count : Nat} (failed : checkWords count = .error fault) :
    fault ∈ machineFaults := by
  -- Either the number of bytes is no word, or there is no memory for them.
  unfold checkWords at failed
  split at failed
  · cases failed
    simp [machineFaults]
  · exact checkBytes_error failed

/-- A step that is not zero can be counted, as far as words reach. -/
theorem stepCount_error {start stop step : Int} (nonzero : step ≠ 0)
    (failed : stepCount start stop step = .error fault) : fault ∈ machineFaults := by
  rw [stepCount, if_neg nonzero] at failed
  -- Both ways to fail say that there are too many steps.
  split at failed
  · split at failed <;> cases failed
    simp [machineFaults]
  · cases failed
    simp [machineFaults]

/-- Words in steps that are not zero are listed, up to the limits of the machine. -/
theorem wordRange_error [Limits] {start stop step : Int} (nonzero : step ≠ 0)
    (failed : wordRange start stop step = .error fault) : fault ∈ machineFaults := by
  -- The steps are counted, the room is checked, and the first two words have to fit.
  rcases bind_eq_error_iff.mp failed with uncounted | ⟨count, -, failed⟩
  · exact stepCount_error nonzero uncounted
  rcases bind_eq_error_iff.mp failed with full | ⟨_, -, failed⟩
  · exact checkWords_error full
  · by_cases first : count ≥ 1 ∧ ¬ Word.Fits start
    · simp only [first] at failed
      cases failed
      simp [machineFaults]
    · by_cases second : count ≥ 2 ∧ ¬ Word.Fits (start + step)
      · simp only [first, second, if_false] at failed
        cases failed
        simp [machineFaults]
      · simp only [first, second, if_false] at failed
        cases failed

theorem checkChoices_error [Limits] {choices : Nat} {lengths : List Nat}
    (failed : checkChoices choices lengths = .error fault) :
    fault ∈ machineFaults := by
  -- The room is checked list by list.
  induction lengths generalizing choices with
  | nil => cases failed
  | cons length lengths ih =>
    rcases bind_eq_error_iff.mp failed with full | ⟨_, -, failed⟩
    · exact checkWords_error full
    · exact ih failed

/-- Strides are found when the inner sizes are known. -/
theorem strides_ok {region : Region} {number : Nat} {axes : List Axis} {found : List Int}
    (made : strides region number axes = .ok found) : InnerSized axes := by
  -- Sizes are tested for every axis but the outermost.
  induction axes generalizing number found with
  | nil => simp [InnerSized, Sized]
  | cons axis axes ih =>
    cases axes with
    | nil => simp [InnerSized, Sized]
    | cons next rest =>
      -- The strides further in come first, and then the size of the next axis is tested.
      obtain ⟨inner, innerMade, made⟩ := bind_eq_ok_iff.mp made
      by_cases unknown : next.size ≤ 0
      · simp only [unknown, if_true] at made
        cases made
      · exact sized_cons.mpr ⟨by omega, ih innerMade⟩

/-- Without strides an inner size is not known, or it is too large for a word. -/
theorem strides_error {region : Region} {number : Nat} {axes : List Axis}
    (failed : strides region number axes = .error fault) :
    fault ∈ machineFaults ∨
      ¬ InnerSized axes ∧ ∃ index, fault = .unlisted (.axisSize index region) := by
  -- Inner strides are found first, so that the fault is the one furthest in.
  induction axes generalizing number with
  | nil => cases failed
  | cons axis axes ih =>
    cases axes with
    | nil => cases failed
    | cons next rest =>
      rcases bind_eq_error_iff.mp failed with innerFailed | ⟨inner, -, failed⟩
      · -- What is missing further in is missing here.
        rcases ih innerFailed with limit | ⟨unsized, named⟩
        · exact Or.inl limit
        · exact Or.inr ⟨fun sized => unsized (sized_cons.mp sized).2, named⟩
      · by_cases unknown : next.size ≤ 0
        · simp only [unknown, if_true] at failed
          cases failed
          refine Or.inr ⟨fun sized => ?_, _, rfl⟩
          have := (sized_cons.mp sized).1
          omega
        · by_cases fits : Word.Fits next.size
          · simp only [unknown, fits, not_true_eq_false, if_false] at failed
            cases failed
          · simp only [unknown, fits, not_false_eq_true, if_true, if_false] at failed
            cases failed
            simp [machineFaults]

end Words

namespace Region

/-- The places of the elements of a region are known: it is an array, and all
of its inner sizes are known. -/
def Arrayed (region : Region) : Prop :=
  -- These are the arrays whose elements have a place.
  region.kind = .perAxis ∧ region.axes ≠ [] ∧ InnerSized region.axes

/-- A way of listing regions lists known ones only. Where it stops, it has reached a limit of the
machine, or it names a region that is not known. -/
structure ListsKnown (listing : Region → Except Fault (List Int))
    (known : Region → Prop) : Prop where
  -- A list is only ever made of a region that is known well enough.
  listed : ∀ region numbers, listing region = .ok numbers → known region
  stopped : ∀ region fault, AllValid region.axes → listing region = .error fault →
    -- Any fault but those of the machine names the region that is not known well enough.
    fault ∈ machineFaults ∨ ¬ known region ∧ ∃ cause, fault = .unlisted cause ∧
      cause.region = region

/-- Elements are listed for arrays of known sizes. -/
theorem listsKnown_elementOffsets [Limits] : ListsKnown elementOffsets Arrayed where
  listed region numbers listed := by
    -- The two tests at the start are about the kind of the region and about its sizes.
    unfold elementOffsets at listed
    by_cases other : region.kind ≠ .perAxis ∨ region.axes = []
    · simp only [if_pos other] at listed
      cases listed
    · simp only [if_neg other] at listed
      obtain ⟨found, made, -⟩ := bind_eq_ok_iff.mp listed
      simp only [not_or, ne_eq, not_not] at other
      exact ⟨other.1, other.2, strides_ok made⟩
  stopped region fault valid failed := by
    unfold elementOffsets at failed
    by_cases other : region.kind ≠ .perAxis ∨ region.axes = []
    · -- Such a region has no elements to list.
      simp only [if_pos other] at failed
      cases failed
      exact Or.inr ⟨fun known => other.elim (fun kind => kind known.1) known.2.1, _, rfl, rfl⟩
    · simp only [if_neg other] at failed
      -- Strides are found first, then the indices along each axis, and then these are combined.
      rcases bind_eq_error_iff.mp failed with noStrides | ⟨_, -, failed⟩
      · rcases strides_error noStrides with limit | ⟨unsized, index, rfl⟩
        · exact Or.inl limit
        · exact Or.inr ⟨fun known => unsized known.2.2, _, rfl, rfl⟩
      rcases bind_eq_error_iff.mp failed with noIndices | ⟨indices, -, failed⟩
      · obtain ⟨front, axis, behind, split, -, here⟩ := mapM_eq_error_iff.mp noIndices
        have rising := (valid axis (by simp [split])).2.1
        exact Or.inl (wordRange_error (Int.ne_of_gt rising) here)
      · -- The arrays of indices may be too many, or their product too large.
        by_cases many : region.axes.length > maxAxes
        · simp only [many, if_true] at failed
          cases failed
          simp [machineFaults]
        · simp only [many, if_false] at failed
          rcases bind_eq_error_iff.mp failed with full | ⟨_, -, failed⟩
          · exact Or.inl (checkChoices_error full)
          · cases failed

/-- Elements without a known size have no bytes to list. -/
theorem byteOffsets_unsized [Limits] {region : Region} (kind : region.kind = .perAxis)
    (unsized : ¬ ∃ size, region.upper = some size ∧ 0 < size) :
    region.byteOffsets = .error (.unlisted (.elementSize region)) := by
  -- A size that is not positive counts as unknown.
  cases upper : region.upper with
  | none => simp [byteOffsets, kind, elementSize?, upper]
  | some size =>
    have small : size ≤ 0 := by
      by_contra positive
      exact unsized ⟨size, upper, by omega⟩
    simp [byteOffsets, kind, elementSize?, upper, small, Bind.bind, Except.bind, throw, throwThe,
      MonadExceptOf.throw]

/-- The bytes of elements of known size are listed from the elements, up
to the limits of the machine. -/
theorem byteOffsets_sized [Limits] {region : Region} (kind : region.kind = .perAxis) {size : Int}
    (upper : region.upper = some size) (positive : 0 < size) :
    (∀ numbers, region.byteOffsets = .ok numbers → ∃ offsets, region.elementOffsets = .ok offsets) ∧
      ∀ fault, region.byteOffsets = .error fault →
        region.elementOffsets = .error fault ∨ fault ∈ machineFaults := by
  have known : region.elementSize? = some size := by simp [elementSize?, kind, upper]
  simp only [byteOffsets, kind, known, show ¬ size ≤ 0 by omega, if_false]
  constructor
  · -- The bytes come from the elements, which must have been listed.
    intro numbers listed
    obtain ⟨offsets, found, -⟩ := bind_eq_ok_iff.mp listed
    exact ⟨offsets, found⟩
  · intro fault failed
    -- The elements are listed first, then the bytes of one element, and then both are combined.
    rcases bind_eq_error_iff.mp failed with noOffsets | ⟨offsets, -, failed⟩
    · exact Or.inl noOffsets
    by_cases fits : Word.Fits size
    · simp only [fits, not_true_eq_false, if_false] at failed
      rcases bind_eq_error_iff.mp failed with noBytes | ⟨bytes, -, failed⟩
      · exact Or.inr (wordRange_error (by decide) noBytes)
      rcases bind_eq_error_iff.mp failed with full | ⟨_, -, failed⟩
      · exact Or.inr (checkChoices_error full)
      · cases failed
    · simp only [fits, not_false_eq_true, if_true] at failed
      cases failed
      simp [machineFaults]

/-- Bytes are listed for regions whose bytes are known. -/
theorem listsKnown_byteOffsets [Limits] : ListsKnown byteOffsets Located where
  listed region numbers listed := by
    unfold Located
    cases kind : region.kind with
    | flat =>
      -- Only an interval with both ends has bytes.
      cases bounds : region.bounds? with
      | none => simp [byteOffsets, kind, bounds] at listed
      | some ends => exact ⟨ends.1, ends.2, rfl⟩
    | whole => simp [byteOffsets, kind] at listed
    | perAxis =>
      -- The bytes of an array were listed from its elements.
      by_cases sized : ∃ size, region.upper = some size ∧ 0 < size
      · obtain ⟨size, upper, positive⟩ := sized
        obtain ⟨offsets, found⟩ := (byteOffsets_sized kind upper positive).1 numbers listed
        obtain ⟨-, nonempty, inner⟩ := listsKnown_elementOffsets.listed region offsets found
        exact ⟨nonempty, inner, size, upper, positive⟩
      · cases (byteOffsets_unsized kind sized).symm.trans listed
  stopped region fault valid failed := by
    unfold Located
    cases kind : region.kind with
    | flat =>
      cases bounds : region.bounds? with
      | none =>
        simp only [byteOffsets, kind, bounds] at failed
        cases failed
        exact Or.inr ⟨by simp, _, rfl, rfl⟩
      | some ends =>
        simp only [byteOffsets, kind, bounds] at failed
        exact Or.inl (wordRange_error (by decide) failed)
    | whole =>
      simp only [byteOffsets, kind] at failed
      cases failed
      exact Or.inr ⟨by simp, _, rfl, rfl⟩
    | perAxis =>
      -- Without an element size, it is not known where the bytes are.
      by_cases sized : ∃ size, region.upper = some size ∧ 0 < size
      · obtain ⟨size, upper, positive⟩ := sized
        rcases (byteOffsets_sized kind upper positive).2 fault failed with noOffsets | limit
        · -- Without its elements, the array lacks an inner size or is too large.
          rcases listsKnown_elementOffsets.stopped region fault valid noOffsets with limit |
            ⟨unknown, named⟩
          · exact Or.inl limit
          · exact Or.inr ⟨fun known => unknown ⟨kind, known.1, known.2.1⟩, named⟩
        · exact Or.inl limit
      · cases (byteOffsets_unsized kind sized).symm.trans failed
        exact Or.inr ⟨fun known => sized known.2.2, _, rfl, rfl⟩

/-- An interval in the shape of an array has known bytes. -/
theorem Reshaped.located {shaped array target : Region} {element low high : Int}
    (reshaped : Reshaped shaped array target element low high) : shaped.Located := by
  -- The shape has the axes of the array, and the element size that the interval was measured with.
  simp only [Located, reshaped.kind]
  exact ⟨SameSizes.ne_nil reshaped.sizes reshaped.arrayAxes,
    reshaped.sized.congr reshaped.sizes.symm, element, reshaped.upper, reshaped.positive⟩

/-- Listing the elements of a moderate region stops at a limit that the region exceeds. -/
theorem elementOffsets_overfull [Limits] {region : Region} {fault : Fault}
    (valid : AllValid region.axes) (moderate : region.Moderate)
    (failed : region.elementOffsets = .error fault) (limit : fault ∈ machineFaults) :
    region.Overfull fault := by
  by_cases kind : region.kind = .perAxis
  · -- Elements have smaller numbers than units, so that listing them ends in one of the known ways.
    have positive : 0 < region.unit := by
      unfold unit
      omega
    have bounded : ∀ address, Covers region.axes region.unit address → address < 2 ^ 53 := by
      intro address covered
      exact (moderate.addresses address (by simpa [Occupies, kind] using covered)).2
    have listing :=
      elementOffsets_listing kind valid (moderate.strides kind) (moderate_elements positive bounded)
    rw [failed] at listing
    cases listing with
    | unlisted => simp [machineFaults] at limit
    | tooMany many => exact ⟨kind, many⟩
    | outOfMemory full =>
      -- There are at least as many units as elements.
      have more : (addresses region.axes 1).length ≤ region.volume := by
        simp only [volume, kind, length_addresses]
        exact Nat.mul_le_mul_left _ (by omega)
      exact Nat.lt_of_lt_of_le full (Nat.mul_le_mul_right wordBytes more)
  · -- Other regions have no elements.
    simp only [elementOffsets, kind, ne_eq, not_false_eq_true, true_or, if_true] at failed
    cases failed
    simp [machineFaults] at limit

/-- An interval without bytes is listed. -/
theorem wordRange_empty [Limits] (low : Int) : wordRange low low 1 = .ok [] := by
  -- No step is needed to get from a number to itself.
  have counted : stepCount low low 1 = .ok 0 := by
    rw [stepCount, Int.sub_self]
    decide
  simp [wordRange, counted, checkWords, checkBytes, wordBytes, Bind.bind, Except.bind, Pure.pure,
    Except.pure]

/-- Listing the bytes of a moderate region stops at a limit that the region exceeds. -/
theorem byteOffsets_overfull [Limits] {region : Region} {fault : Fault}
    (valid : AllValid region.axes) (moderate : region.Moderate)
    (failed : region.byteOffsets = .error fault) (limit : fault ∈ machineFaults) :
    region.Overfull fault := by
  -- Moderate intervals and arrays are refused for being overfull, or else they are listed.
  have ofRefused : region.Refused byteOffsets → region.Overfull fault := by
    rintro ⟨other, refused, ⟨cause, rfl⟩ | overfull⟩
    · cases refused.symm.trans failed
      simp [machineFaults] at limit
    · cases refused.symm.trans failed
      exact overfull
  cases kind : region.kind with
  | flat =>
    cases bounds : region.bounds? with
    | none =>
      -- A missing bound is nothing that a limit is about.
      simp only [byteOffsets, kind, bounds] at failed
      cases failed
      simp [machineFaults] at limit
    | some ends =>
      -- The interval has two ends, and may be empty.
      obtain ⟨low, high⟩ := ends
      by_cases ordered : low < high
      · rcases interval_cases kind bounds ordered moderate with refused | ⟨interval, -⟩
        · exact ofRefused refused
        · obtain ⟨numbers, listed, -⟩ := interval.lists
          cases listed.symm.trans failed
      · -- There is nothing to list.
        simp only [byteOffsets, kind, bounds, Int.max_eq_left (Int.not_lt.mp ordered),
          wordRange_empty] at failed
        cases failed
  | whole =>
    simp only [byteOffsets, kind] at failed
    cases failed
    simp [machineFaults] at limit
  | perAxis =>
    by_cases sized : ∃ size, region.upper = some size ∧ 0 < size
    · -- The size of the elements is known, so the array is listed byte by byte.
      obtain ⟨size, upper, positive⟩ := sized
      have bytes : region.unit = size := by
        simp only [unit, upper, Option.getD_some]
        omega
      have arrays : ListsArrays byteOffsets region.unit (some size) := by
        rw [bytes]
        exact listsArrays_byteOffsets positive
      rcases array_cases arrays kind upper valid moderate with refused | ⟨enumerable, -⟩
      · exact ofRefused refused
      · obtain ⟨numbers, listed, -⟩ := enumerable.lists arrays (by omega)
        cases listed.symm.trans failed
    · -- Without it, the fault is about the region and not about the machine.
      cases (byteOffsets_unsized kind sized).symm.trans failed
      simp [machineFaults] at limit

end Region

end Overlap
