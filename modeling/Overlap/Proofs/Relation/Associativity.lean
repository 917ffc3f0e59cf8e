import Overlap.Proofs.Axis.Canonical
import Overlap.Proofs.Relation.Shapes
import Overlap.Proofs.Relation.Telling

/-! Three comparable arrays share one and the same region, whichever two
of them are compared first. -/

namespace Overlap

/-- Joint steps of three lists of axes do not depend on which two come first. -/
theorem jointSteps_assoc (first second third : List Int) :
    jointSteps (jointSteps first second) third = jointSteps first (jointSteps second third) := by
  -- Axis by axis, least common multiples can be grouped at will.
  induction first generalizing second third with
  | nil => rfl
  | cons step steps ih =>
    cases second with
    | nil => rfl
    | cons other others =>
      cases third with
      | nil => rfl
      | cons last lasts =>
        have rest := ih others lasts
        simp only [jointSteps, List.zipWith_cons_cons, List.cons.injEq] at rest ⊢
        exact ⟨by rw [Int.lcm_assoc], rest⟩

namespace Region

/-- Fragments of one array with the same steps and the same tuples are equal. -/
theorem FragmentOf.eq_of_holds_iff {fragment other base : Region} (first : fragment.FragmentOf base)
    (second : other.FragmentOf base)
    (steps : fragment.axes.map Axis.step = other.axes.map Axis.step)
    (same : ∀ tuple, fragment.Holds tuple ↔ other.Holds tuple) : fragment = other := by
  have axes : fragment.axes = other.axes := by
    refine axes_eq_of_inAxes_iff first.valid second.valid steps
      (first.sizes.trans second.sizes.symm) fun tuple => ?_
    simpa [Holds, first.kind, second.kind] using same tuple
  -- All other fields come from the array.
  have kind := first.kind.trans second.kind.symm
  have object := first.object.trans second.object.symm
  have lower := first.lower.trans second.lower.symm
  have upper := first.upper.trans second.upper.symm
  cases fragment
  cases other
  simp_all

/-- The region that two regions are found to share, or nothing. -/
def sharedRegion (budget : Int) (wanted : Wanted) (left right : Region) :
    Except Fault (Option Region) :=
  -- The leftover parts do not enter.
  (left.intersect right budget wanted).map fun comparison => comparison.outcome.shared?

/-- The region that two regions are found to share, where the comparison is told. -/
def sharedTold (budget : Int) (wanted : Wanted) (traced : Bool) (left right : Region) :
    Except Fault (Option Region) :=
  -- The same region, as far as the comparison could be told.
  (left.intersectTold right budget wanted traced).map fun told => told.1.outcome.shared?

/-- Goes on with a shared region, if there is one. -/
def thenShare (found : Except Fault (Option Region))
    (next : Region → Except Fault (Option Region)) :
    Except Fault (Option Region) := do
  -- Nothing in common leaves nothing to compare with.
  match ← found with
  | none => return none
  | some common => next common

/-- The region that three regions share: first that of the first two, then
that of it and the third one. -/
def meetFirst (share : Region → Region → Except Fault (Option Region))
    (first second third : Region) : Except Fault (Option Region) :=
  -- The third region meets what the first two share.
  thenShare (share first second) fun common => share common third

/-- The region that three regions share: first that of the last two, then
that of the first one and it. -/
def meetLast (share : Region → Region → Except Fault (Option Region))
    (first second third : Region) : Except Fault (Option Region) :=
  -- The first region meets what the other two share.
  thenShare (share second third) fun common => share first common

/-- The answer to what three regions share: nothing if they have no common tuple, and otherwise the
fragment of the first one that holds the common tuples and climbs by the joint steps. -/
inductive SharedByAll (first second third : Region) : Option Region → Prop where
  -- Either nothing is shared by all three, or exactly the tuples of one part.
  | nothing (apart : ∀ tuple, ¬ (first.Holds tuple ∧ second.Holds tuple ∧ third.Holds tuple)) :
      SharedByAll first second third none
  | part {common : Region} (fragment : common.FragmentOf first)
      (steps : common.axes.map Axis.step = jointSteps (first.axes.map Axis.step)
        (jointSteps (second.axes.map Axis.step) (third.axes.map Axis.step)))
      (mem : ∀ tuple, common.Holds tuple ↔
        first.Holds tuple ∧ second.Holds tuple ∧ third.Holds tuple) :
      SharedByAll first second third (some common)

@[simp] theorem thenShare_none (next : Region → Except Fault (Option Region)) :
    thenShare (.ok none) next = .ok none :=
  -- Nothing is compared any more.
  rfl

@[simp] theorem thenShare_some (common : Region) (next : Region → Except Fault (Option Region)) :
    thenShare (.ok (some common)) next = next common :=
  -- The comparison goes on with the common part.
  rfl

/-- Sameness of objects carries over. -/
theorem sameObject_trans {left middle right : Option Identity} (first : SameObject left middle)
    (second : SameObject middle right) : SameObject left right := by
  -- Each of the regions has an object, or none of them has.
  revert first second
  cases left <;> cases middle <;> cases right <;> simp [SameObject, Identity.Same]
  exact Eq.trans

/-- Comparability carries over. -/
theorem Comparable.trans {left middle right : Region} (first : left.Comparable middle)
    (second : middle.Comparable right) : left.Comparable right where
  -- What both comparisons have in common goes through the region in the middle.
  object := first.object
  same := sameObject_trans first.same second.same
  leftKind := first.leftKind
  rightKind := second.rightKind
  leftValid := first.leftValid
  rightValid := second.rightValid
  element := first.element.trans second.element
  sizes := first.sizes.trans second.sizes

/-- A fragment holds some tuple. -/
theorem FragmentOf.exists_holds {fragment base : Region} (fragmentOf : fragment.FragmentOf base) :
    ∃ tuple, fragment.Holds tuple := by
  -- Well-formed axes have a tuple.
  obtain ⟨tuple, held⟩ := exists_inAxes fragmentOf.valid
  exact ⟨tuple, fragmentOf.kind, held⟩

variable {first second third : Region} {budget : Int} {wanted : Wanted} {traced : Bool}

/-- There is only one answer to what three regions share. -/
theorem SharedByAll.unique {answer other : Option Region}
    (holds : SharedByAll first second third answer)
    (otherHolds : SharedByAll first second third other) : answer = other := by
  -- A shared region holds a tuple, which rules out that nothing is shared.
  cases holds with
  | nothing apart =>
    cases otherHolds with
    | nothing _ => rfl
    | part fragment _ mem =>
      obtain ⟨tuple, held⟩ := fragment.exists_holds
      exact absurd ((mem tuple).mp held) (apart tuple)
  | part fragment steps mem =>
    cases otherHolds with
    | nothing apart =>
      obtain ⟨tuple, held⟩ := fragment.exists_holds
      exact absurd ((mem tuple).mp held) (apart tuple)
    | part otherFragment otherSteps otherMem =>
      -- Fragments with the same steps and the same tuples are equal.
      rw [fragment.eq_of_holds_iff otherFragment (steps.trans otherSteps.symm) fun tuple =>
        (mem tuple).trans (otherMem tuple).symm]

/-- Comparable regions are found to share nothing, or the shared region is found. -/
theorem sharedRegion_cases {left right : Region} (comparable : left.Comparable right) (budget : Int)
    (wanted : Wanted) :
    (sharedRegion budget wanted left right = .ok none ∧
      ∀ tuple, ¬ (left.Holds tuple ∧ right.Holds tuple)) ∨
      ∃ common, sharedRegion budget wanted left right = .ok (some common) ∧
        common.Shared left right := by
  -- The comparison goes along the axes, and its parts are of no interest here.
  unfold sharedRegion
  rw [intersect_eq_relateAxes comparable.object comparable.same comparable.leftKind
    comparable.rightKind]
  rcases relateAxes_cases comparable budget wanted with ⟨compared, apart⟩ |
    ⟨common, _, _, compared, shared, -, -⟩
  · rw [compared]
    exact Or.inl ⟨rfl, apart⟩
  · rw [compared]
    exact Or.inr ⟨common, rfl, shared⟩

/-- Comparing the first two regions first finds what all three share. -/
theorem meetFirst_shared (comparable : first.Comparable second) (others : second.Comparable third)
    (budget : Int) (wanted : Wanted) :
    ∃ answer, meetFirst (sharedRegion budget wanted) first second third = .ok answer ∧
      SharedByAll first second third answer := by
  -- What the first two share is a fragment of the first one, so it can be
  -- compared with the third one.
  rcases sharedRegion_cases comparable budget wanted with ⟨found, apart⟩ | ⟨inner, found, shared⟩
  · refine ⟨none, ?_, .nothing fun tuple all => apart tuple ⟨all.1, all.2.1⟩⟩
    simp only [meetFirst, found, thenShare_none]
  simp only [meetFirst, found, thenShare_some]
  rcases sharedRegion_cases (shared.fragment.comparable (comparable.trans others)) budget wanted
    with
    ⟨last, apart⟩ | ⟨common, last, whole⟩
  · refine ⟨none, last, .nothing fun tuple all => apart tuple ⟨?_, all.2.2⟩⟩
    exact (shared.mem tuple).mpr ⟨all.1, all.2.1⟩
  · refine ⟨some common, last, .part (whole.fragment.trans shared.fragment) ?_ fun tuple => ?_⟩
    · rw [whole.steps, shared.steps, jointSteps_assoc]
    · rw [whole.mem, shared.mem, and_assoc]

/-- Comparing the last two regions first finds what all three share. -/
theorem meetLast_shared (comparable : first.Comparable second) (others : second.Comparable third)
    (budget : Int) (wanted : Wanted) :
    ∃ answer, meetLast (sharedRegion budget wanted) first second third = .ok answer ∧
      SharedByAll first second third answer := by
  -- What the last two share is a fragment of the second one, so the first
  -- one can be compared with it.
  rcases sharedRegion_cases others budget wanted with ⟨found, apart⟩ | ⟨inner, found, shared⟩
  · refine ⟨none, ?_, .nothing fun tuple all => apart tuple all.2⟩
    simp only [meetLast, found, thenShare_none]
  simp only [meetLast, found, thenShare_some]
  rcases sharedRegion_cases (shared.fragment.comparable comparable.symm).symm budget wanted with
    ⟨last, apart⟩ | ⟨common, last, whole⟩
  · refine ⟨none, last, .nothing fun tuple all => apart tuple ⟨all.1, ?_⟩⟩
    exact (shared.mem tuple).mpr all.2
  · refine ⟨some common, last, .part whole.fragment ?_ fun tuple => ?_⟩
    · rw [whole.steps, shared.steps]
    · rw [whole.mem, shared.mem]

/-- A told answer shows under a condition, and otherwise a number in what is told is too long. -/
def ShowsIf (condition : Prop) (answer : Option Region)
    (told : Except Fault (Option Region)) : Prop :=
  -- The answer shows exactly under the condition.
  (condition → told = .ok answer) ∧ (¬ condition → told = .error .longNumber)

/-- Everything about a comparison can be told. -/
def Shows (budget : Int) (wanted : Wanted) (traced : Bool) (left right : Region) : Prop :=
  -- The account of the answer can be told, if there is an answer.
  ∀ comparison, left.intersect right budget wanted = .ok comparison →
    Tellable traced (account left right budget wanted comparison)

/-- The shared region of two regions is told if everything about the comparison can be. -/
theorem showsIf_sharedTold {left right : Region} {answer : Option Region}
    (found : sharedRegion budget wanted left right = .ok answer) :
    ShowsIf (Shows budget wanted traced left right) answer
      (sharedTold budget wanted traced left right) := by
  -- The comparison has one answer, so its account is the only one to be told.
  cases answered : left.intersect right budget wanted with
  | error fault => simp [sharedRegion, answered, Except.map] at found
  | ok comparison =>
    have same : comparison.outcome.shared? = answer := by
      simpa [sharedRegion, answered, Except.map] using found
    have condition : Shows budget wanted traced left right ↔
        Tellable traced (account left right budget wanted comparison) := by
      simp [Shows, answered]
    rw [condition, sharedTold, intersectTold_eq answered, ← same]
    constructor
    · -- The shared region is shown.
      intro told
      rw [if_pos told]
      rfl
    · intro untold
      rw [if_neg untold]
      rfl

/-- Two comparisons, one after the other, are told if both of them can be. -/
theorem showsIf_thenShare {condition : Prop} {plain told : Except Fault (Option Region)}
    {nextCondition : Region → Prop} {next nextTold : Region → Except Fault (Option Region)}
    {answer : Option Region} (shows : ∀ inner, plain = .ok inner → ShowsIf condition inner told)
    (nextShows : ∀ common, next common = .ok answer →
      ShowsIf (nextCondition common) answer (nextTold common))
    (found : thenShare plain next = .ok answer) :
    ShowsIf (condition ∧ ∀ common, plain = .ok (some common) → nextCondition common) answer
      (thenShare told nextTold) := by
  -- A first comparison that fails has no answer, told or not.
  cases plain with
  | error fault => cases found
  | ok inner =>
    obtain ⟨shown, untold⟩ := shows inner rfl
    by_cases can : condition
    · rw [shown can]
      cases inner with
      | none =>
        -- Without a shared region there is no second comparison.
        refine ⟨fun _ => found, fun cannot => absurd ⟨can, fun common same => ?_⟩ cannot⟩
        cases same
      | some common =>
        -- The second comparison is told under its own condition.
        obtain ⟨lastShown, lastUntold⟩ := nextShows common found
        refine ⟨fun all => lastShown (all.2 common rfl), fun cannot => lastUntold fun last =>
          cannot ⟨can, ?_⟩⟩
        intro other same
        cases same
        exact last
    · -- What cannot be told of the first comparison ends both.
      rw [untold can]
      exact ⟨fun all => absurd all.1 can, fun _ => rfl⟩

/-- Three arrays of one object, with elements of one size and well-formed axes of the same
sizes, share the same region field by field whichever two of them are compared first: nothing
if they have no common tuple, and otherwise the fragment of the first one that holds the common
tuples and climbs by the joint steps. In each order the answer shows exactly if every
comparison on the way can be told. -/
theorem intersect_assoc {first second third : Region} (comparable : first.Comparable second)
    (others : second.Comparable third) (budget : Int) (wanted : Wanted) (traced : Bool) :
    ∃ answer, SharedByAll first second third answer ∧
      meetFirst (sharedRegion budget wanted) first second third = .ok answer ∧
      meetLast (sharedRegion budget wanted) first second third = .ok answer ∧
      ShowsIf (Shows budget wanted traced first second ∧
          ∀ common, sharedRegion budget wanted first second = .ok (some common) →
            Shows budget wanted traced common third)
        answer (meetFirst (sharedTold budget wanted traced) first second third) ∧
      ShowsIf (Shows budget wanted traced second third ∧
          ∀ common, sharedRegion budget wanted second third = .ok (some common) →
            Shows budget wanted traced first common)
        answer (meetLast (sharedTold budget wanted traced) first second third) := by
  -- Both orders answer the same question, and it has one answer only.
  obtain ⟨answer, found, shared⟩ := meetFirst_shared comparable others budget wanted
  obtain ⟨other, otherFound, otherShared⟩ := meetLast_shared comparable others budget wanted
  obtain rfl := shared.unique otherShared
  refine ⟨answer, shared, found, otherFound, ?_, ?_⟩
  · exact showsIf_thenShare (fun inner => showsIf_sharedTold)
      (fun common => showsIf_sharedTold) found
  · exact showsIf_thenShare (fun inner => showsIf_sharedTold)
      (fun common => showsIf_sharedTold) otherFound

/-- Rows in steps of two, three and four share one row in either order, and its step is twelve. A
row beside rows in steps of four thousand digits shares none of them, and that does not show in
either order: its distance to their start has too many digits. -/
theorem intersect_assoc_rows :
    let array (axes : List Axis) : Region := ⟨some (.name "A"), .perAxis, none, some 8, axes⟩
    let twos := array [⟨0, 2, 5, 10⟩]
    let threes := array [⟨1, 3, 3, 10⟩]
    let fours := array [⟨0, 4, 3, 10⟩]
    let common := array [⟨4, 12, 1, 10⟩]
    let far : Int := (10 ^ 4000 : Nat)
    let beside := array [⟨1 + 2 * far * far, 2 * far, 1, 0⟩]
    let sparse := array [⟨0, 2 * far, 4 * far, 0⟩]
    (SharedByAll twos threes fours (some common) ∧
      meetFirst (sharedTold 10 {} false) twos threes fours = .ok (some common) ∧
      meetLast (sharedTold 10 {} false) twos threes fours = .ok (some common)) ∧
    SharedByAll beside sparse sparse none ∧
      meetFirst (sharedTold 10 {} false) beside sparse sparse = .error .longNumber ∧
      meetLast (sharedTold 10 {} false) beside sparse sparse = .error .longNumber := by
  intro array twos threes fours common far beside sparse
  -- Twos, threes and fours share one index, by either order of comparing them.
  obtain ⟨answer, shared, found, -, -, -⟩ := intersect_assoc
    (show twos.Comparable threes
      from ⟨by decide, by decide, rfl, rfl, by decide, by decide, rfl, rfl⟩)
    (show threes.Comparable fours
      from ⟨by decide, by decide, rfl, rfl, by decide, by decide, rfl, rfl⟩) 10 {} false
  -- The other three share nothing, and the distance between the starts is too long to be told.
  obtain ⟨nothing, apart, unfound, -, -, -⟩ := intersect_assoc
    (show beside.Comparable sparse from
      ⟨by decide, by decide, rfl, rfl, by decide +kernel, by decide +kernel,
        rfl, by decide +kernel⟩)
    (show sparse.Comparable sparse
      from ⟨by decide, by decide, rfl, rfl, by decide +kernel, by decide +kernel, rfl, rfl⟩)
    10 {} false
  -- The regions are computed once, and both orders are bound to give them.
  have computed : meetFirst (sharedRegion 10 {}) twos threes fours = .ok (some common) := by
    decide +kernel
  have computedApart : meetFirst (sharedRegion 10 {}) beside sparse sparse = .ok none := by
    decide +kernel
  obtain rfl := Except.ok.inj (computed.symm.trans found)
  obtain rfl := Except.ok.inj (computedApart.symm.trans unfound)
  exact ⟨⟨shared, by decide +kernel, by decide +kernel⟩,
    apart, by decide +kernel, by decide +kernel⟩

end Region

end Overlap
