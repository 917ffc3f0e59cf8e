import Overlap.Proofs.Footprint.Ascending

/-! Listed addresses that agree with an outcome pass the check of it. -/

namespace Overlap

/-- The addresses of a region are listed, and they are those with a property. -/
def ListsBy (listing : Region → Except Fault (List Int)) (region : Region)
    (holds : Int → Prop) : Prop :=
  -- The listing succeeds, and lists exactly the addresses that are held.
  ∃ numbers, listing region = .ok numbers ∧ Lists numbers holds

variable {listing : Region → Except Fault (List Int)}

theorem mapM_listing {regions : List Region} {holds : Region → Int → Prop}
    (each : ∀ region ∈ regions, ListsBy listing region (holds region)) :
    ∃ lists, regions.mapM listing = .ok lists ∧
      ∀ number, number ∈ lists.flatten ↔ ∃ region ∈ regions, holds region number := by
  -- Every region adds the numbers that it is listed by.
  induction regions with
  | nil => exact ⟨[], rfl, by simp⟩
  | cons region rest ih =>
    obtain ⟨first, others⟩ := List.forall_mem_cons.mp each
    obtain ⟨numbers, listed, lists⟩ := first
    obtain ⟨more, restListed, mem⟩ := ih others
    refine ⟨numbers :: more, ?_, ?_⟩
    · simp [List.mapM_cons, listed, restListed, Bind.bind, Except.bind, Pure.pure, Except.pure]
    · intro number
      rw [List.flatten_cons, List.mem_append, lists.mem, mem]
      simp

/-- Several listed regions are listed together. -/
theorem listAll_lists {regions : List Region} {holds : Region → Int → Prop}
    (each : ∀ region ∈ regions, ListsBy listing region (holds region)) :
    ∃ numbers, listAll listing regions = .ok numbers ∧
      Lists numbers fun number => ∃ region ∈ regions, holds region number := by
  -- The single lists are joined and put into order.
  obtain ⟨lists, listed, mem⟩ := mapM_listing each
  obtain ⟨rising, held⟩ := lists_ascending lists.flatten
  refine ⟨ascending lists.flatten, ?_, rising, fun number => by rw [held, mem]⟩
  simp [listAll, listed, Bind.bind, Except.bind, Pure.pure, Except.pure]

/-- Fragments whose addresses make up those of a side outside a common part, or
one that is not narrowed down. -/
def Remainder (listing : Region → Except Fault (List Int)) (fragments : List Region)
    (base common : Int → Prop) : Prop :=
  -- A part that was not narrowed down stands for anything.
  (∃ fragment ∈ fragments, fragment.kind = .whole) ∨
    -- Otherwise every part can be listed, and together they hold what is not common.
    ∃ holds : Region → Int → Prop,
      (∀ fragment ∈ fragments, ListsBy listing fragment (holds fragment)) ∧
      ∀ address, (∃ fragment ∈ fragments, holds fragment address) ↔ base address ∧ ¬ common address

/-- A side whose fragments are the remainder has no problem. -/
theorem checkSide_eq_ok {fragments : List Region} {base common : Int → Prop}
    {addresses shared : List Int} (remainder : Remainder listing fragments base common)
    (lists : Lists addresses base) (sharedLists : Lists shared common)
    (inside : ∀ address, common address → base address) (side : Side) (region : Region) :
    checkSide listing side region addresses shared (some fragments) = .ok [] := by
  -- Three tests are passed: no fragment leaves the side, none reaches the shared part,
  -- and together they cover it.
  by_cases marked : fragments.any (·.kind == .whole) = true
  · simp [checkSide, marked, Pure.pure, Except.pure]
  · rcases remainder with ⟨fragment, member, whole⟩ | ⟨holds, each, mem⟩
    · exact absurd (List.any_eq_true.mpr ⟨fragment, member, by simp [whole]⟩) marked
    · obtain ⟨rest, listed, restLists⟩ := listAll_lists each
      have within : otherNumbers rest addresses = [] := by
        refine List.eq_nil_iff_forall_not_mem.mpr fun number member => ?_
        rw [mem_otherNumbers, restLists.mem, lists.mem, mem] at member
        exact member.2 member.1.1
      have separate : commonNumbers rest shared = [] := by
        refine List.eq_nil_iff_forall_not_mem.mpr fun number member => ?_
        rw [mem_commonNumbers, restLists.mem, sharedLists.mem, mem] at member
        exact member.1.2 member.2
      have covering : ascending (rest ++ shared) = addresses := by
        refine (lists_ascending (rest ++ shared)).unique lists fun number => ?_
        rw [List.mem_append, restLists.mem, sharedLists.mem, mem]
        by_cases held : common number
        · simp [held, inside number held]
        · simp [held]
      simp [checkSide, marked, listed, within, separate, covering, Bind.bind, Except.bind,
        Pure.pure, Except.pure]

/-- An exact outcome passes when the shared region has the common addresses,
and the fragments the others. -/
theorem verify_eq_ok [Limits] {left right common : Region} {leftRest rightRest : List Region}
    {base other : Int → Prop} (way : listingFor left right = listing)
    (leftLists : ListsBy listing left base) (rightLists : ListsBy listing right other)
    (commonLists : ListsBy listing common fun address => base address ∧ other address)
    (leftRemains : Remainder listing leftRest base fun address => base address ∧ other address)
    (rightRemains : Remainder listing rightRest other fun address => base address ∧ other address) :
    verify left right (.exact common) (some leftRest) (some rightRest) = .ok [] := by
  -- In rising order the common addresses have a single list, so the shared one agrees.
  obtain ⟨leftNumbers, leftListed, leftHeld⟩ := leftLists
  obtain ⟨rightNumbers, rightListed, rightHeld⟩ := rightLists
  obtain ⟨shared, sharedListed, sharedHeld⟩ := commonLists
  have agree : shared = commonNumbers (ascending leftNumbers) rightNumbers := by
    rw [ascending_of_rising leftHeld.rising]
    exact sharedHeld.unique (leftHeld.common rightHeld) fun _ => Iff.rfl
  have leftChecked :=
    checkSide_eq_ok leftRemains leftHeld sharedHeld (fun _ both => both.1) .left left
  have rightChecked :=
    checkSide_eq_ok rightRemains rightHeld sharedHeld (fun _ both => both.2) .right right
  simp [verify, Outcome.exact, way, leftListed, rightListed, sharedListed, ← agree, leftChecked,
    rightChecked, Bind.bind, Except.bind, Pure.pure, Except.pure]

end Overlap
