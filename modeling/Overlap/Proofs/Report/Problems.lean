import Overlap.Proofs.Footprint.Stops
import Overlap.Report

/-! What the check of an answer puts into a report: the problems that it found, or that it could not
list one of the two regions. Only a limit of the machine keeps it from both. -/

namespace Overlap

open Region

variable {left right : Region} {answer : Comparison}

/-- The check of an answer against the listed addresses. -/
def checkAnswer [Limits] (left right : Region) (answer : Comparison) :
    Except Fault (List Problem) :=
  -- A comparison has its leftover parts at hand.
  verify left right answer.outcome (some answer.left) (some answer.right)

/-- The problems of one side name the region on that side. -/
theorem checkSide_numbers {listing : Region → Except Fault (List Int)} {side : Side} {base : Region}
    {addresses common : List Int} {parts : List Region} {problems : List Problem}
    (checked : checkSide listing side base addresses common (some parts) = .ok problems) :
    ∀ problem ∈ problems, ∀ number ∈ problem.numbers, number ∈ base.numbers := by
  simp only [checkSide] at checked
  split at checked
  · -- Nothing is checked if a part was not narrowed down.
    cases checked
    simp
  · obtain ⟨rest, -, checked⟩ := bind_eq_ok_iff.mp checked
    cases checked
    -- Each of the three tests adds one problem at most, and the second one names no region.
    intro problem member number own
    simp only [List.mem_append] at member
    rcases member with (outside | overlapping) | uncovered
    · split at outside <;> simp_all [Problem.numbers]
    · split at overlapping <;> simp_all [Problem.numbers]
    · split at uncovered <;> simp_all [Problem.numbers]

/-- The problems of an answer name the two regions and the shared one. -/
theorem checkAnswer_numbers [Limits] {problems : List Problem}
    (checked : checkAnswer left right answer = .ok problems) :
    ∀ problem ∈ problems, ∀ number ∈ problem.numbers,
      number ∈ left.numbers ++ right.numbers ++ answer.outcome.numbers := by
  unfold checkAnswer verify at checked
  split at checked
  · -- Answers that are not precise, or about different objects, are not checked.
    cases checked
    simp
  · cases checked
    simp
  · -- Both regions are listed before anything is compared.
    obtain ⟨leftNumbers, -, checked⟩ := bind_eq_ok_iff.mp checked
    obtain ⟨rightNumbers, -, checked⟩ := bind_eq_ok_iff.mp checked
    split at checked
    · -- A disjoint answer has one problem at most, and it names nothing.
      cases checked
      split <;> simp [Problem.numbers]
    · rename_i apart
      have exact : answer.outcome.relation = .exact := by
        cases relation : answer.outcome.relation <;> simp_all
      split at checked
      · cases checked
      · rename_i region shared
        obtain ⟨common, -, checked⟩ := bind_eq_ok_iff.mp checked
        obtain ⟨leftProblems, leftChecked, checked⟩ := bind_eq_ok_iff.mp checked
        obtain ⟨rightProblems, rightChecked, checked⟩ := bind_eq_ok_iff.mp checked
        cases checked
        -- The common part is the one that the outcome names.
        have named : answer.outcome.numbers = region.numbers := by
          simp [Outcome.numbers, Outcome.shared?, exact, shared]
        intro problem member number own
        simp only [List.mem_append, named] at member ⊢
        rcases member with (wrong | inLeft) | inRight
        · split at wrong <;> simp_all [Problem.numbers]
        · exact Or.inl (Or.inl (checkSide_numbers leftChecked problem inLeft number own))
        · exact Or.inl (Or.inr (checkSide_numbers rightChecked problem inRight number own))

/-- The problems in a report: those that the check found, or that it could not
list one of the two regions. -/
inductive Checked [Limits] (left right : Region) (answer : Comparison) : List String → Prop where
  -- Either there are problems to tell, or there is a region whose addresses cannot be listed.
  | listed {problems : List Problem} (found : checkAnswer left right answer = .ok problems) :
      Checked left right answer (problems.map Problem.text)
  | unlisted {cause : Unlisted} (about : cause.region = left ∨ cause.region = right)
      (stopped : checkAnswer left right answer = .error (.unlisted cause)) :
      Checked left right answer ["cannot verify: " ++ cause.message]

/-- The check of an answer stops at a limit of the machine. -/
def Exceeds [Limits] (left right : Region) (answer : Comparison) (fault : Fault) : Prop :=
  -- The machine is too small for the addresses of the regions.
  fault ∈ machineFaults ∧ checkAnswer left right answer = .error fault

/-- The message of a fault shows if its numbers can be written. -/
theorem Fault.told_of_writable {fault : Fault}
    (writable : ∀ number ∈ fault.numbers, Writable number) :
    fault.told = fault := by
  -- A fault is only replaced when its numbers are too long.
  rw [Fault.told_eq, if_pos writable]

/-- The message about a limit of the machine has no numbers in it. -/
theorem Fault.told_of_limit {fault : Fault} (limit : fault ∈ machineFaults) :
    fault.told = fault := by
  -- The messages about limits hold no numbers.
  simp only [machineFaults, List.mem_cons, List.not_mem_nil, or_false] at limit
  rcases limit with rfl | rfl | rfl <;> rfl

/-- The check of an answer gives problems, unless it stops at a limit of the machine. All that it
says can be written if the regions can. -/
theorem checkProblems_cases [Limits] (leftValid : AllValid left.axes)
    (rightValid : AllValid right.axes) {budget : Int}
    (answered : left.intersect right budget = .ok answer)
    (written :
      ∀ number ∈ left.numbers ++ right.numbers ++ answer.outcome.numbers, Writable number) :
    (∃ problems, checkProblems left right answer = .ok problems ∧
      Checked left right answer problems ∧
        ∀ fault, ¬ Exceeds left right answer fault) ∨
      ∃ fault, checkProblems left right answer = .error (.fault fault) ∧
        Exceeds left right answer fault := by
  unfold checkProblems Comparison.verifyTold verifyTold
  cases result : checkAnswer left right answer with
  | ok problems =>
    -- Problems name regions whose numbers can be written.
    have accepted : checkNumbers (problems.flatMap Problem.numbers) = .ok () := by
      refine if_pos fun number member => ?_
      obtain ⟨problem, own, listed⟩ := List.mem_flatMap.mp member
      exact written number (checkAnswer_numbers result problem own number listed)
    refine Or.inl ⟨problems.map Problem.text, ?_, .listed result, fun fault exceeds => ?_⟩
    · rw [checkAnswer] at result
      simp [result, withTold, Except.mapError, accepted, Bind.bind, Except.bind, Pure.pure,
        Except.pure]
    · cases result.symm.trans exceeds.2
  | error fault =>
    have stopped := result
    rw [checkAnswer] at stopped
    rcases (verify_intersect_stops leftValid rightValid answered stopped).1 with limit |
      ⟨cause, rfl, about⟩
    · -- A limit is not about a region, so it is no problem of the report.
      right
      refine ⟨fault, ?_, limit, result⟩
      simp only [stopped, withTold, Except.mapError, Fault.told_of_limit limit, Bind.bind,
        Except.bind]
      simp only [machineFaults, List.mem_cons, List.not_mem_nil, or_false] at limit
      rcases limit with rfl | rfl | rfl <;> rfl
    · -- The region that is not known is one of the two, and its numbers can be written.
      left
      refine ⟨["cannot verify: " ++ cause.message], ?_, .unlisted about result,
        fun fault exceeds => ?_⟩
      · have told : (Fault.unlisted cause).told = .unlisted cause := by
          refine Fault.told_of_writable fun number own => written number ?_
          simp only [Fault.numbers] at own
          rcases about with same | same <;> simp [← same, own]
        simp only [stopped, withTold, Except.mapError, told, Bind.bind, Except.bind]
      · cases result.symm.trans exceeds.2
        simp [Exceeds, machineFaults] at exceeds

end Overlap
