import Overlap.Proofs.Relation.Refusals

/-! The lists that collect leftover parts have no influence on a comparison, and only an exact
answer is put behind them. A number that is too long for what is told can stop a comparison, and it
can do so after the lists were written. -/

namespace Overlap

namespace Kept

/-- Putting no parts behind the lists leaves them as they are. -/
theorem add_nil (kept : Kept) : kept.add [] [] = kept := by
  -- A list with nothing behind it is the same list, and no list stays none.
  cases kept with
  | mk left right => cases left <;> cases right <;> simp [add]

/-- Parts for which there is no list are dropped in any case. -/
theorem add_only (kept : Kept) (full : Comparison) :
    kept.add (full.only kept.wanted).left (full.only kept.wanted).right =
      kept.add full.left full.right := by
  -- Parts that are not wanted have no list to go to.
  cases kept with
  | mk left right => cases left <;> cases right <;> simp [add, wanted, Comparison.only]

end Kept

namespace Region

/-- Shapes are told whether or not a trace is asked for. -/
theorem tellable_shapeNotes (left right : Region) (traced : Bool) :
    Tellable traced (shapeNotes left right) ↔ Tellable false (shapeNotes left right) := by
  -- No event about a shape is a step of a trace.
  have plain : ∀ event ∈ shapeNotes left right, event.isTrace = false := by
    intro event member
    have shaped : ∃ array target result, event = .reshaped array target result := by
      unfold shapeNotes tellShapes at member
      grind
    obtain ⟨array, target, result, rfl⟩ := shaped
    rfl
  have all : heard traced (shapeNotes left right) = heard false (shapeNotes left right) := by
    refine List.filter_congr fun event member => ?_
    simp [plain event member]
  rw [Tellable, Tellable, all]

variable {left right : Region} {budget : Int} {kept : Kept}

/-- A fault of the comparison leaves the lists as they are. -/
theorem intersectInto_error {fault : Fault}
    (failed : left.intersect right budget kept.wanted = .error fault) (traced : Bool) :
    left.intersectInto right budget kept traced =
      (.error (if Tellable false (shapeNotes left right) then fault.told else .longNumber),
        kept) := by
  -- Nothing is kept unless there is an answer.
  simp only [intersectInto, failed, intersectTold_error failed, tellable_shapeNotes]

/-- The parts of an answer are put behind the lists once all is told but the summary. -/
theorem intersectInto_ok {comparison : Comparison}
    (answered : left.intersect right budget kept.wanted = .ok comparison) (traced : Bool) :
    left.intersectInto right budget kept traced =
      (if Tellable traced (account left right budget kept.wanted comparison) then
        .ok (comparison, heard traced (account left right budget kept.wanted comparison))
      else .error .longNumber,
      if Tellable traced (tellSteps left right budget kept.wanted) then
        kept.add comparison.left comparison.right
      else kept) := by
  -- The lists are written as soon as the steps are told, and the answer shows only if all of it is.
  simp only [intersectInto, answered, intersectTold_eq answered, tell_eq]
  by_cases steps : Tellable traced (tellSteps left right budget kept.wanted)
  · simp only [if_pos steps]
  · simp only [if_neg steps]

/-- Two regions are refused with one fault whatever the budget, the lists and the trace are, and the
lists stay as they are. Or there is one outcome for all of them: the lists stay as they are unless
it is exact, and an exact one puts parts behind them that depend on the regions and the budget only.
Such an answer fails to show when a number in its account is too long, and the lists are then as
they were unless all but the summary was told. -/
theorem intersectInto_uniform (left right : Region) :
    (∃ fault, ∀ budget kept traced, left.intersectInto right budget kept traced =
      (.error fault, kept)) ∨
    ∃ outcome, ∀ budget, ∃ leftRest rightRest, ∀ kept traced,
      let comparison := Comparison.only ⟨outcome, leftRest, rightRest⟩ kept.wanted
      (outcome.relation ≠ .exact → (left.intersectInto right budget kept traced).2 = kept) ∧
      left.intersectInto right budget kept traced =
        (if Tellable traced (account left right budget kept.wanted comparison) then
          .ok (comparison, heard traced (account left right budget kept.wanted comparison))
        else .error .longNumber,
        if Tellable traced (tellSteps left right budget kept.wanted) then
          kept.add leftRest rightRest else kept) := by
  rcases intersect_cases left right with ⟨-, cause, -, failed⟩ | ⟨-, outcome, answered⟩
  · exact Or.inl ⟨_, fun budget kept traced =>
      intersectInto_error (failed budget kept.wanted) traced⟩
  · refine Or.inr ⟨outcome, fun budget => ?_⟩
    obtain ⟨full, same, parts, answer⟩ := answered budget
    refine ⟨full.left, full.right, fun kept traced => ?_⟩
    obtain rfl := same
    have into := intersectInto_ok (answer kept.wanted) traced
    rw [Kept.add_only] at into
    refine ⟨fun inexact => ?_, into⟩
    -- Without an exact outcome there is nothing to put behind the lists.
    obtain ⟨noLeft, noRight⟩ := parts inexact
    rw [into, noLeft, noRight, Kept.add_nil, ite_self]

/-- Rows in steps of more than two thousand digits that meet other rows in other columns are
disjoint without lists, and with lists that is not told. Rows in steps of four thousand digits leave
one row over on either side: with a trace the lists hold it behind what they held before, although
the answer does not show, because the summary cannot be told. -/
theorem intersectInto_uniform_exceptions :
    let array (axes : List Axis) : Region := ⟨some (.name "A"), .perAxis, none, some 4, axes⟩
    let far : Int := (10 ^ 2200 : Nat)
    let sparse := array [⟨0, far, far + 2, 0⟩, ⟨0, 1, 1, 0⟩]
    let other := array [⟨0, far + 1, far + 1, 0⟩, ⟨1, 1, 1, 0⟩]
    let further : Int := (10 ^ 4000 : Nat)
    let early := array [⟨0, further, further + 1, 0⟩]
    let late := array [⟨further, further, further + 1, 0⟩]
    let lists : Kept := ⟨some [late], some [early]⟩
    let answer (result : Except Fault (Comparison × List Event) × Kept) := result.1.map Prod.fst
    (answer (sparse.intersectInto other 10 {}) = .ok { outcome := .disjoint } ∧
      answer (sparse.intersectInto other 10 lists) = .error .longNumber ∧
      (sparse.intersectInto other 10 lists).2 = lists) ∧
    answer (early.intersectInto late 10 lists true) = .error .longNumber ∧
      (early.intersectInto late 10 lists true).2 =
        ⟨some [late, array [⟨0, further, 1, 0⟩]],
          some [early, array [⟨further * further + further, further, 1, 0⟩]]⟩ := by
  intro array far sparse other further early late lists answer
  have bare : answer (sparse.intersectInto other 10 {}) = .ok { outcome := .disjoint } := by
    decide +kernel
  refine ⟨⟨bare, by decide +kernel, ?_⟩, by decide +kernel, by decide +kernel⟩
  rcases intersectInto_uniform sparse other with ⟨fault, fails⟩ | ⟨outcome, answers⟩
  · exact congrArg Prod.snd (fails 10 lists false)
  · -- The outcome is the one that shows without lists.
    obtain ⟨leftRest, rightRest, uniform⟩ := answers 10
    have same : outcome = .disjoint := by
      simp only [answer, (uniform {} false).2] at bare
      split at bare
      · exact congrArg Comparison.outcome (Except.ok.inj bare)
      · cases bare
    exact (uniform lists false).1 (by simp [same, Outcome.disjoint])

end Region

end Overlap
