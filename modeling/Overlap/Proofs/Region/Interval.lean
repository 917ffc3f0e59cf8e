import Overlap.Proofs.Footprint.Intervals
import Overlap.Proofs.Relation.Exchange

/-! Byte intervals are intersected exactly when all their bounds are given. With an open bound it is
only decided whether they share a byte. -/

namespace Overlap

/-- The outcome of relating two regions by their bytes. -/
def IntervalMeet.outcome : IntervalMeet → Outcome
  -- Objects that differ are not told apart from intervals that do.
  | .foreign | .apart => .disjoint
  | .undecided => .imprecise
  | .shared common => .exact common

namespace Region

/-- The byte at an address lies between the bounds of a region, where a missing bound is open. -/
def InBounds (region : Region) (address : Int) : Prop :=
  -- An open bound excludes nothing.
  (∀ low, region.lower = some low → low ≤ address) ∧ ∀ high, region.upper = some high →
    address < high

/-- The byte at an address lies between the bounds of both regions. -/
def InBoth (left right : Region) (address : Int) : Prop :=
  -- Addresses count for both, whatever their objects are.
  left.InBounds address ∧ right.InBounds address

/-- What is left of a side outside a common part: at most two intervals of it, none of them empty,
which split the side together with the common part. -/
structure Remains (pieces : List Region) (common side : Region) : Prop where
  -- At most two pieces are left, one on either side of the common part.
  few : pieces.length ≤ 2
  nonempty : ∀ piece ∈ pieces, ∃ low high, low < high ∧
    piece = { side with lower := some low, upper := some high }
  splits : Splits InBounds (common :: pieces) side.InBounds

section Given

variable {region : Region} {low high : Int}

theorem inBounds_iff (bounds : region.bounds? = some (low, high)) {address : Int} :
    region.InBounds address ↔ low ≤ address ∧ address < high := by
  -- Both bounds are given, and no other condition is left.
  obtain ⟨lower, upper⟩ := bounds?_eq_some_iff.mp bounds
  simp [InBounds, lower, upper]

/-- An interval that is dropped when it is empty splits the bytes between its bounds. -/
theorem splits_interval (bounds : region.bounds? = some (low, high)) :
    Splits InBounds (if low < high then [region] else []) fun address => low ≤ address ∧
      address < high := by
  -- An interval without bytes is left out, since it would hold nothing.
  by_cases nonempty : low < high
  · rw [if_pos nonempty]
    exact Splits.single fun _ => (inBounds_iff bounds).symm
  · rw [if_neg nonempty]
    exact Splits.nil fun address => by omega

/-- A part is cut out of an interval: what remains are the bytes in
front of it and those behind it. -/
theorem remains_outside {common : Region} {first stop : Int}
    (bounds : region.bounds? = some (low, high))
    (commonBounds : common.bounds? = some (first, stop))
    (ordered : first < stop) (after : low ≤ first) (before : stop ≤ high) :
    Remains (region.outside common) common region := by
  obtain ⟨lower, upper⟩ := bounds?_eq_some_iff.mp bounds
  refine ⟨?_, ?_, ?_⟩
  · -- There is a part on each side, or none.
    simp only [outside, bounds, commonBounds, List.length_append]
    split <;> split <;> simp
  · intro piece member
    -- A part that is there is not empty.
    rcases (mem_outside_iff bounds commonBounds).mp member with ⟨some, rfl⟩ | ⟨some, rfl⟩
    · exact ⟨low, first, some, by simp [← lower]⟩
    · exact ⟨stop, high, some, by simp [← upper]⟩
  · -- The front ends where the common part starts, and the back starts where it ends.
    have front : Splits InBounds _ _ :=
      @splits_interval { region with upper := some first } low first (by simp [bounds?, lower])
    have back : Splits InBounds _ _ :=
      @splits_interval { region with lower := some stop } stop high (by simp [bounds?, upper])
    have rest : Splits InBounds (region.outside common) fun address =>
        (low ≤ address ∧ address < first) ∨ (stop ≤ address ∧ address < high) := by
      simp only [outside, bounds, commonBounds]
      exact front.append back fun address => by omega
    have middle : Splits InBounds [common] fun address => first ≤ address ∧ address < stop :=
      Splits.single fun _ => (inBounds_iff commonBounds).symm
    refine (middle.append rest fun address => by omega).congr fun address => ?_
    rw [inBounds_iff bounds]
    omega

end Given

section Meet

variable {left right : Region}

/-- A region with a byte before or at a byte of another one shares a byte with it, unless it ends
before the other one starts. -/
theorem exists_inBoth {first second : Int} (inLeft : left.InBounds first)
    (inRight : right.InBounds second) (le : first ≤ second)
    (reaches : ¬ EndsBefore left.upper right.lower) : ∃ address, left.InBoth right address := by
  -- The start of the right region is common if it lies behind the left byte, and
  -- otherwise the left byte itself is.
  cases start : right.lower with
  | none =>
    refine ⟨first, inLeft, by simp [start], fun high upper => ?_⟩
    have := inRight.2 high upper
    omega
  | some low =>
    have inside := inRight.1 low start
    by_cases early : first < low
    · refine ⟨low, ⟨fun least lower => ?_, fun high upper => ?_⟩, ?_, fun high upper => ?_⟩
      · have := inLeft.1 least lower
        omega
      · rw [start, upper] at reaches
        exact Int.not_le.mp reaches
      · simp [start]
      · have := inRight.2 high upper
        omega
    · refine ⟨first, inLeft, ?_, fun high upper => ?_⟩
      · simp only [start, Option.some.injEq, forall_eq']
        omega
      · have := inRight.2 high upper
        omega

/-- A region that ends before another one starts has no byte in common with it. -/
theorem not_inBoth_of_endsBefore (ends : EndsBefore left.upper right.lower) (address : Int) :
    ¬ left.InBoth right address := by
  -- Both bounds are given, and the address would have to lie on both sides of them.
  intro both
  cases stop : left.upper with
  | none => simp [EndsBefore, stop] at ends
  | some high =>
    cases start : right.lower with
    | none => simp [EndsBefore, stop, start] at ends
    | some low =>
      have := both.1.2 high stop
      have := both.2.1 low start
      simp only [EndsBefore, stop, start] at ends
      omega

/-- Intervals that are not empty share a byte unless one of them ends
before the other one starts. -/
theorem exists_inBoth_iff (leftBytes : ∃ address, left.InBounds address)
    (rightBytes : ∃ address, right.InBounds address) :
    (∃ address, left.InBoth right address) ↔
      ¬ (EndsBefore left.upper right.lower ∨ EndsBefore right.upper left.lower) := by
  obtain ⟨first, inLeft⟩ := leftBytes
  obtain ⟨second, inRight⟩ := rightBytes
  constructor
  · intro shared ends
    obtain ⟨address, both⟩ := shared
    rcases ends with ends | ends
    · exact not_inBoth_of_endsBefore ends address both
    · exact not_inBoth_of_endsBefore ends address both.symm
  · -- The two bytes say which of the regions reaches up to the other one.
    intro reaches
    obtain ⟨leftReaches, rightReaches⟩ := not_or.mp reaches
    rcases Int.le_total first second with le | le
    · exact exists_inBoth inLeft inRight le leftReaches
    · obtain ⟨address, both⟩ := exists_inBoth inRight inLeft le rightReaches
      exact ⟨address, both.symm⟩

/-- Intervals with all bounds share the bytes between the later start and the earlier end. -/
theorem inBoth_iff {leftLow leftHigh rightLow rightHigh : Int}
    (leftBounds : left.bounds? = some (leftLow, leftHigh))
    (rightBounds : right.bounds? = some (rightLow, rightHigh)) {address : Int} :
    left.InBoth right address ↔
      max leftLow rightLow ≤ address ∧ address < min leftHigh rightHigh := by
  -- Lying in both intervals means lying between the inner bounds.
  rw [InBoth, inBounds_iff leftBounds, inBounds_iff rightBounds]
  omega

/-- The numbers in the written forms of two regions can all be written. -/
def BothWritable (left right : Region) : Prop :=
  -- These are the numbers that a message about the two intervals holds.
  ∀ number ∈ left.numbers ++ right.numbers, Writable number

/-- Whether both regions can be written is settled number by number. -/
instance (left right : Region) : Decidable (left.BothWritable right) :=
  -- Finitely many numbers are looked at.
  inferInstanceAs (Decidable (∀ number ∈ _, Writable number))

/-- Shared bytes are not told, and what lies outside them is put behind the lists. -/
theorem meetBytesInto_of_shared {common : Region} (met : left.meetBytes right = .shared common)
    (kept : Kept) :
    left.meetBytesInto right kept = (.ok (.shared common),
      ⟨kept.left.map (· ++ left.outside common), kept.right.map (· ++ right.outside common)⟩) := by
  -- There is no event, so nothing can fail to be told.
  have silent : tell false (tellIntervals left right) = .ok [] := by
    rw [tellIntervals, met]
    rfl
  simp only [meetBytesInto, silent, met, IntervalMeet.leftover]
  rfl

/-- Any other verdict on intervals of one object is told with all their numbers, and
leaves the lists as they are. -/
theorem meetBytesInto_of_verdict {verdict : IntervalMeet} (met : left.meetBytes right = verdict)
    (told : verdict = .apart ∨ verdict = .undecided) (kept : Kept) :
    left.meetBytesInto right kept =
      (if left.BothWritable right then .ok verdict else .error .longNumber, kept) := by
  have note : tellIntervals left right = [.intervals left right verdict] := by
    rw [tellIntervals, met]
    rcases told with rfl | rfl <;> rfl
  have rest : ∀ region, verdict.leftover region = [] := by
    rcases told with rfl | rfl <;> exact fun region => rfl
  -- The note holds both regions, so it can be told if both of them can be written.
  have tellable : Tellable false [.intervals left right verdict] ↔ left.BothWritable right := by
    rw [tellable_singleton]
    exact ⟨fun short => short rfl, fun short _ => short⟩
  rw [meetBytesInto, note, tell_eq]
  by_cases short : left.BothWritable right
  · rw [if_pos (tellable.mpr short), if_pos short]
    simp only [met, rest, Kept.add_nil]
  · rw [if_neg (mt tellable.mp short), if_neg short]

/-- Intervals that are said to be apart are found to be so. -/
theorem meetBytes_of_said {kept : Kept} (said : (left.meetBytesInto right kept).1 = .ok .apart) :
    left.meetBytes right = .apart := by
  -- What is said is what was found, once it could be told.
  unfold meetBytesInto at said
  split at said
  · cases said
  · exact Except.ok.inj said

/-- Relating two intervals adds nothing to how they meet. -/
theorem relateBytes_eq_only (left right : Region) (wanted : Wanted) :
    left.relateBytes right wanted = Comparison.only ⟨(left.meetBytes right).outcome,
      (left.meetBytes right).leftover left, (left.meetBytes right).leftover right⟩ wanted := by
  -- Every way in which two intervals meet has one outcome and its own leftover parts.
  cases met : left.meetBytes right <;>
    simp [relateBytes, met, Comparison.only, IntervalMeet.outcome, IntervalMeet.leftover]

variable (same : SameObject left.object right.object)

include same

/-- Intervals with all bounds are apart unless the later start lies before the earlier end. -/
theorem meetBytes_of_bounds {leftLow leftHigh rightLow rightHigh : Int}
    (leftBounds : left.bounds? = some (leftLow, leftHigh))
    (rightBounds : right.bounds? = some (rightLow, rightHigh)) :
    left.meetBytes right =
      if max leftLow rightLow < min leftHigh rightHigh then
        .shared { left with
          lower := some (max leftLow rightLow)
          upper := some (min leftHigh rightHigh) }
      else .apart := by
  -- An empty interval ends before it starts, so the four tests together are one.
  have tests : max leftLow rightLow < min leftHigh rightHigh ↔
      ¬ (leftHigh ≤ rightLow ∨ rightHigh ≤ leftLow ∨ leftHigh ≤ leftLow ∨
        rightHigh ≤ rightLow) := by omega
  simp only [meetBytes, same, not_true_eq_false, if_false, leftBounds, rightBounds]
  by_cases overlap : max leftLow rightLow < min leftHigh rightHigh
  · rw [if_pos overlap, if_neg (tests.mp overlap)]
  · rw [if_neg overlap, if_pos (not_not.mp (mt tests.mpr overlap))]

/-- Intervals that are found to be apart share no byte. -/
theorem not_inBoth_of_apart (apart : left.meetBytes right = .apart) (address : Int) :
    ¬ left.InBoth right address := by
  by_cases missing : left.bounds? = none ∨ right.bounds? = none
  · -- With an open bound, only an end before a start leads to this verdict.
    rw [meetBytes_of_open same missing] at apart
    have ends : EndsBefore left.upper right.lower ∨ EndsBefore right.upper left.lower := by
      by_contra reaches
      simp [reaches] at apart
    rcases ends with ends | ends
    · exact not_inBoth_of_endsBefore ends address
    · exact fun both => not_inBoth_of_endsBefore ends address both.symm
  · -- Both bounds are given, and a common byte would lie between them.
    obtain ⟨leftGiven, rightGiven⟩ := not_or.mp missing
    obtain ⟨⟨leftLow, leftHigh⟩, leftBounds⟩ := Option.ne_none_iff_exists'.mp leftGiven
    obtain ⟨⟨rightLow, rightHigh⟩, rightBounds⟩ := Option.ne_none_iff_exists'.mp rightGiven
    rw [meetBytes_of_bounds same leftBounds rightBounds] at apart
    intro both
    have := (inBoth_iff leftBounds rightBounds).mp both
    simp [show max leftLow rightLow < min leftHigh rightHigh by omega] at apart

/-- Flat regions of one object are related by their bytes: the lists are the
same, and so is the answer. -/
theorem intersectInto_flat (object : left.object ≠ none) (leftKind : left.kind = .flat)
    (rightKind : right.kind = .flat) (budget : Int) (kept : Kept) :
    (left.intersectInto right budget kept).2 = (left.meetBytesInto right kept).2 ∧
      (left.intersectInto right budget kept).1.map (fun answer => answer.1.outcome) =
        (left.meetBytesInto right kept).1.map IntervalMeet.outcome := by
  have answered := intersect_eq_relateBytes object same leftKind rightKind budget kept.wanted
  have steps : tellSteps left right budget kept.wanted = tellIntervals left right := by
    simp [tellSteps, same, alignShapes, tellShapes, leftKind, rightKind]
  -- Only arrays are summed up, so the account ends with the verdict on the intervals.
  have whole : account left right budget kept.wanted (left.relateBytes right kept.wanted) =
      tellIntervals left right := by
    simp [account, steps, tellSummary, alignShapes, leftKind, rightKind]
  rw [intersectInto_ok answered, whole, steps, relateBytes_eq_only, Kept.add_only,
    meetBytesInto, tell_eq]
  by_cases short : Tellable false (tellIntervals left right)
  · simp only [if_pos short, true_and]
    rfl
  · simp only [if_neg short, true_and]
    rfl

/-- Intervals of one object are said to be apart only if they share no byte. If all bounds are
given, they are apart exactly then, and otherwise the shared bytes are found and what remains of
either side is put behind its list. If a bound is open and neither interval is empty, they are apart
exactly when they share no byte, and otherwise it stays undecided which bytes they share; the lists
stay as they are. Where no byte is found, the verdict is given exactly when all numbers of both
intervals can be written. Flat regions are related in this way. -/
theorem meetBytesInto_exact (kept : Kept) :
    ((left.meetBytesInto right kept).1 = .ok .apart → ∀ address, ¬ left.InBoth right address) ∧
    (left.bounds? ≠ none → right.bounds? ≠ none →
      ((∀ address, ¬ left.InBoth right address) ∧
        left.meetBytesInto right kept =
          (if left.BothWritable right then .ok .apart else .error .longNumber, kept)) ∨
      (∃ address, left.InBoth right address) ∧ ∃ low high leftRest rightRest,
        let common : Region := { left with lower := some low, upper := some high }
        left.meetBytesInto right kept = (.ok (.shared common),
          ⟨kept.left.map (· ++ leftRest), kept.right.map (· ++ rightRest)⟩) ∧
        (∀ address, common.InBounds address ↔ left.InBoth right address) ∧
        Remains leftRest common left ∧ Remains rightRest common right) ∧
    (left.bounds? = none ∨ right.bounds? = none → (∃ address, left.InBounds address) →
      (∃ address, right.InBounds address) →
        ((∀ address, ¬ left.InBoth right address) ∧
          left.meetBytesInto right kept =
            (if left.BothWritable right then .ok .apart else .error .longNumber, kept)) ∨
        (∃ address, left.InBoth right address) ∧
          left.meetBytesInto right kept =
            (if left.BothWritable right then .ok .undecided else .error .longNumber, kept)) ∧
    (left.object ≠ none → left.kind = .flat → right.kind = .flat → ∀ budget,
      (left.intersectInto right budget kept).2 = (left.meetBytesInto right kept).2 ∧
      (left.intersectInto right budget kept).1.map (fun answer => answer.1.outcome) =
        (left.meetBytesInto right kept).1.map IntervalMeet.outcome) := by
  refine ⟨fun said => not_inBoth_of_apart same (meetBytes_of_said said),
    fun leftGiven rightGiven => ?_,
    fun missing leftBytes rightBytes => ?_,
    fun object leftKind rightKind budget =>
      intersectInto_flat same object leftKind rightKind budget kept⟩
  · -- With all bounds given, the larger lower and the smaller upper one decide.
    obtain ⟨⟨leftLow, leftHigh⟩, leftBounds⟩ := Option.ne_none_iff_exists'.mp leftGiven
    obtain ⟨⟨rightLow, rightHigh⟩, rightBounds⟩ := Option.ne_none_iff_exists'.mp rightGiven
    have both : ∀ address, left.InBoth right address ↔ _ :=
      fun _ => inBoth_iff leftBounds rightBounds
    have met := meetBytes_of_bounds same leftBounds rightBounds
    by_cases overlap : max leftLow rightLow < min leftHigh rightHigh
    · -- The common part lies inside of either side.
      rw [if_pos overlap] at met
      refine Or.inr ⟨⟨max leftLow rightLow, (both _).mpr (by omega)⟩, max leftLow rightLow,
        min leftHigh rightHigh, _, _, meetBytesInto_of_shared met kept, fun address => ?_, ?_, ?_⟩
      · rw [both]
        exact inBounds_iff rfl
      · exact remains_outside leftBounds rfl overlap (by omega) (by omega)
      · exact remains_outside rightBounds rfl overlap (by omega) (by omega)
    · -- No byte lies between the bounds, so nothing is kept.
      rw [if_neg overlap] at met
      refine Or.inl ⟨fun address => ?_, meetBytesInto_of_verdict met (.inl rfl) kept⟩
      rw [both]
      omega
  · -- With an open bound, it only counts whether one side ends before the other one starts.
    have shared := exists_inBoth_iff leftBytes rightBytes
    have met := meetBytes_of_open same missing
    by_cases ends : EndsBefore left.upper right.lower ∨ EndsBefore right.upper left.lower
    · rw [if_pos ends] at met
      exact Or.inl ⟨not_exists.mp fun some => shared.mp some ends,
        meetBytesInto_of_verdict met (.inl rfl) kept⟩
    · rw [if_neg ends] at met
      exact Or.inr ⟨shared.mpr ends, meetBytesInto_of_verdict met (.inr rfl) kept⟩

end Meet

/-- Two overlapping intervals leave one part of either side, and it is put behind what was in the
lists before. An interval that is open below is apart from one behind its end; from one around its
end it is not, and the lists stay as they are. That two intervals with bounds of more than four
thousand digits are apart is not said. -/
theorem meetBytesInto_exact_crossing :
    let interval (lower upper : Option Int) : Region := ⟨some (.name "A"), .flat, lower, upper, []⟩
    let first := interval (some 0) (some 10)
    let second := interval (some 5) (some 15)
    let below := interval none (some 4)
    let far : Int := (10 ^ 4300 : Nat)
    let short := interval (some 0) (some far)
    let long := interval (some far) (some (far + 4))
    let kept : Kept := ⟨some [second], some [first]⟩
    (first.meetBytesInto second kept = (.ok (.shared (interval (some 5) (some 10))),
        ⟨some [second, interval (some 0) (some 5)], some [first, interval (some 10) (some 15)]⟩) ∧
      Splits InBounds [interval (some 5) (some 10), interval (some 0) (some 5)] first.InBounds ∧
      Splits InBounds [interval (some 5) (some 10), interval (some 10) (some 15)] second.InBounds) ∧
    (below.meetBytesInto second kept = (.ok .apart, kept) ∧
      ∀ address, ¬ below.InBoth second address) ∧
    (below.meetBytesInto first kept = (.ok .undecided, kept) ∧
      ∃ address, below.InBoth first address) ∧
    short.meetBytesInto long kept = (.error .longNumber, kept) ∧
      ∀ address, ¬ short.InBoth long address := by
  intro interval first second below far short long kept
  -- All four verdicts are computed, and the theorem explains them one by one.
  have cut : first.meetBytesInto second kept = (.ok (.shared (interval (some 5) (some 10))),
      ⟨some [second, interval (some 0) (some 5)], some [first, interval (some 10) (some 15)]⟩) := by
        decide +kernel
  have apart : below.meetBytesInto second kept = (.ok .apart, kept) := by decide +kernel
  have undecided : below.meetBytesInto first kept = (.ok .undecided, kept) := by decide +kernel
  have untold : short.meetBytesInto long kept = (.error .longNumber, kept) := by decide +kernel
  obtain ⟨-, bounded, -⟩ :=
    meetBytesInto_exact (show SameObject first.object second.object by decide) kept
  obtain ⟨unshared, -, -⟩ :=
    meetBytesInto_exact (show SameObject below.object second.object by decide) kept
  obtain ⟨-, -, opened, -⟩ :=
    meetBytesInto_exact (show SameObject below.object first.object by decide) kept
  obtain ⟨-, given, -⟩ :=
    meetBytesInto_exact (show SameObject short.object long.object by decide) kept
  refine ⟨⟨cut, ?_⟩, ⟨apart, unshared (congrArg Prod.fst apart)⟩, ⟨undecided, ?_⟩, untold, ?_⟩
  · rcases bounded (by decide) (by decide) with ⟨-, none⟩ |
      ⟨-, low, high, leftRest, rightRest, shared, -, leftRemains, rightRemains⟩
    · rw [cut] at none
      split at none <;> cases none
    · -- The answer that is computed names the common part and both lists.
      have same := cut.symm.trans shared
      simp only [Prod.mk.injEq, Except.ok.injEq, IntervalMeet.shared.injEq, Kept.mk.injEq, kept,
        Option.map_some, Option.some.injEq, List.singleton_append, List.cons.injEq,
        true_and] at same
      obtain ⟨common, rfl, rfl⟩ := same
      rw [common]
      exact ⟨leftRemains.splits, rightRemains.splits⟩
  · -- Both intervals hold the byte at zero, so they are not apart.
    rcases opened (by decide) ⟨0, by simp [InBounds, below, interval]⟩
      ⟨0, by simp [InBounds, first, interval]⟩ with
      ⟨-, none⟩ | ⟨some, -⟩
    · rw [undecided] at none
      split at none <;> cases none
    · exact some
  · -- The bounds are given, and the verdict that cannot be told is about intervals apart.
    rcases given (by decide) (by decide) with ⟨none, -⟩ |
      ⟨-, low, high, leftRest, rightRest, shared, -⟩
    · exact none
    · cases untold.symm.trans shared

end Region

end Overlap
