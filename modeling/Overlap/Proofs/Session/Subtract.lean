import Overlap.Proofs.Relation.Telling
import Overlap.Session

/-! Taking regions away from a list, one after the other. The parts in the list never
overlap and never reach into a region that was taken away, and nothing else is lost as long
as every part was narrowed down. -/

namespace Overlap

namespace Region

/-- A part that is left of a region: a fragment of it, or a mark of its object
that was not narrowed down. -/
def PartOf (part base : Region) : Prop :=
  -- A part that was not narrowed down is known by its object only.
  part.FragmentOf base ∨ part.kind = .whole ∧ part.object = base.object

/-- Parts of a region that keep to the tuples which stay. They hold all of
them unless one part is a mark. -/
structure Narrows (parts : List Region) (base : Region) (stays : List Int → Prop) : Prop where
  -- Parts belong to the region, do not overlap, and are complete unless one of them is unknown.
  part : ∀ part ∈ parts, part.PartOf base
  packs : Packs Holds parts stays
  complete : (∃ part ∈ parts, part.kind = .whole) ∨ Splits Holds parts stays

/-- A mark holds no tuple that is known. -/
theorem not_holds_of_whole {mark : Region} (kind : mark.kind = .whole) (tuple : List Int) :
    ¬ mark.Holds tuple := by
  -- Only arrays hold tuples.
  simp [Holds, kind]

/-- A single mark keeps to everything. -/
theorem narrows_mark {mark base : Region} {stays : List Int → Prop} (kind : mark.kind = .whole)
    (object : mark.object = base.object) : Narrows [mark] base stays where
  -- The mark holds nothing, so it neither overlaps nor reaches outside.
  part := by simp [PartOf, kind, object]
  packs := Packs.single fun tuple held => absurd held (not_holds_of_whole kind tuple)
  complete := Or.inl ⟨mark, List.mem_cons_self, kind⟩

/-- Fragments that split what stays leave nothing out. -/
theorem narrows_of_splits {parts : List Region} {base : Region} {stays : List Int → Prop}
    (fragments : ∀ part ∈ parts, part.FragmentOf base) (splits : Splits Holds parts stays) :
    Narrows parts base stays where
  -- Nothing is unknown among fragments.
  part := fun part member => Or.inl (fragments part member)
  packs := splits.toPacks
  complete := Or.inr splits

/-- Narrowing every part down again narrows the region down, if no mark gets lost. -/
theorem Narrows.flatMap {parts : List Region} {base : Region} {stays leaves : List Int → Prop}
    (narrows : Narrows parts base stays) (f : Region → List Region)
    (each : ∀ part ∈ parts, Narrows (f part) base fun tuple => part.Holds tuple ∧ leaves tuple)
    (marks : ∀ part ∈ parts, part.kind = .whole → part ∈ f part) :
    Narrows (parts.flatMap f) base fun tuple => stays tuple ∧ leaves tuple where
  -- Parts of parts are parts.
  part := by
    intro piece member
    obtain ⟨part, partMem, pieceMem⟩ := List.mem_flatMap.mp member
    exact (each part partMem).part piece pieceMem
  packs := narrows.packs.flatMap f fun part member => (each part member).packs
  complete := by
    by_cases marked : ∃ piece ∈ parts.flatMap f, piece.kind = .whole
    · exact Or.inl marked
    -- Without a mark among the new parts there was none before, and every part was split.
    have unmarked : ∀ part ∈ parts, ∀ piece ∈ f part, piece.kind ≠ .whole := by
      intro part partMem piece pieceMem kind
      exact marked ⟨piece, List.mem_flatMap.mpr ⟨part, partMem, pieceMem⟩, kind⟩
    right
    rcases narrows.complete with ⟨part, member, kind⟩ | splits
    · exact absurd kind (unmarked part member part (marks part member kind))
    · refine splits.flatMap f fun part member => ?_
      rcases (each part member).complete with ⟨piece, pieceMem, kind⟩ | pieces
      · exact absurd kind (unmarked part member piece pieceMem)
      · exact pieces

/-- A mark is compared imprecisely with every region given per axis. -/
theorem intersect_whole {mark region : Region} (kind : mark.kind = .whole)
    (object : mark.object ≠ none) (same : SameObject mark.object region.object)
    (regionKind : region.kind = .perAxis) (budget : Int) (wanted : Wanted) :
    mark.intersect region budget wanted = .ok { outcome := .imprecise } := by
  -- A region that was not narrowed down is never brought into a shape.
  have other := object_ne_none_of_same object same
  simp [intersect, object, other, same, alignShapes, kind, regionKind, Pure.pure, Except.pure]

end Region

namespace Session

/-- What stays in a list of a region with the given comparison. -/
def kept (first : Region) (comparison : Comparison) : List Region :=
  -- An overlap that is not exact leaves the region as it is.
  if comparison.outcome.relation = .exact then comparison.left else [first]

/-- A part is compared with every region that its base is comparable with, and what stays of
it keeps out of that region. -/
theorem kept_narrows {part base region : Region} (partOf : part.PartOf base)
    (comparable : base.Comparable region) (budget : Int) :
    ∃ comparison, part.intersect region budget ⟨true, false⟩ = .ok comparison ∧
      (part.kind = .whole → part ∈ kept part comparison) ∧
      Region.Narrows (kept part comparison) base fun tuple => part.Holds tuple ∧
        ¬ region.Holds tuple := by
  -- A fragment is compared exactly, and a mark is kept.
  rcases partOf with fragment | ⟨kind, object⟩
  · have notWhole : part.kind ≠ .whole := by simp [fragment.kind]
    have partComparable := fragment.comparable comparable
    rw [Region.intersect_eq_relateAxes partComparable.object partComparable.same
      partComparable.leftKind partComparable.rightKind]
    rcases Region.relateAxes_cases partComparable budget ⟨true, false⟩ with ⟨compared, none⟩ |
      ⟨common, leftRest, rightRest, compared, shared, rest, -⟩
    · -- Nothing is taken away, so the part stays as it is.
      refine ⟨_, compared, fun whole => absurd whole notWhole, ?_⟩
      have stays : kept part { outcome := .disjoint } = [part] := rfl
      rw [stays]
      refine Region.narrows_of_splits (by simpa using fragment) (Splits.single fun tuple => ?_)
      exact ⟨fun both => both.1, fun held => ⟨held, fun other => none tuple ⟨held, other⟩⟩⟩
    · -- The fragments take the place of the part, or a mark does.
      refine ⟨_, compared, fun whole => absurd whole notWhole, ?_⟩
      have stays : kept part ⟨.exact common, leftRest, rightRest⟩ = leftRest := rfl
      rw [stays]
      rcases rest rfl with widened | ⟨fragments, splits⟩
      · subst widened
        exact Region.narrows_mark rfl fragment.object
      · refine Region.narrows_of_splits
          (fun piece member => (fragments piece member).trans fragment) ?_
        refine splits.congr fun tuple => and_congr_right fun held => not_congr ?_
        rw [shared.mem]
        exact ⟨fun other => ⟨held, other⟩, fun both => both.2⟩
  · have compared :=
      Region.intersect_whole kind (object ▸ comparable.object) (object ▸ comparable.same)
      comparable.rightKind budget ⟨true, false⟩
    have stays : kept part { outcome := .imprecise } = [part] := rfl
    refine ⟨_, compared, ?_, ?_⟩
    · simp [stays]
    · rw [stays]
      exact Region.narrows_mark kind object

theorem subtractAll_eq {compare : Region → Except Fault Comparison} {answer : Region → Comparison}
    {regions : List Region} (each : ∀ first ∈ regions, compare first = .ok (answer first)) :
    subtractAll compare regions = .ok (regions.map fun first => (answer first).outcome.relation,
      regions.flatMap fun first => kept first (answer first)) := by
  -- The answers are collected from the front; each of them adds what stays of its region.
  induction regions with
  | nil => rfl
  | cons first rest ih =>
    have tail := ih fun other member => each other (List.mem_cons_of_mem _ member)
    simp [subtractAll, each first List.mem_cons_self, tail, kept, Bind.bind, Except.bind, Pure.pure,
      Except.pure]

/-- A fault in one comparison is the only answer, if the other ones have no other fault. -/
theorem subtractAll_error {compare : Region → Except Fault Comparison} {fault : Fault}
    {regions : List Region} (each : ∀ first ∈ regions,
      (∃ comparison, compare first = .ok comparison) ∨ compare first = .error fault)
    (failing : ∃ first ∈ regions, compare first = .error fault) :
    subtractAll compare regions = .error fault := by
  -- The first comparison fails, or the failing one is among the others.
  induction regions with
  | nil => simp at failing
  | cons first rest ih =>
    rcases each first List.mem_cons_self with ⟨comparison, answered⟩ | failed
    · have later : ∃ other ∈ rest, compare other = .error fault := by
        obtain ⟨other, member, failed⟩ := failing
        rcases List.mem_cons.mp member with same | inRest
        · rw [same, answered] at failed
          cases failed
        · exact ⟨other, inRest, failed⟩
      have tail := ih (fun other member => each other (List.mem_cons_of_mem _ member)) later
      simp [subtractAll, answered, tail, Bind.bind, Except.bind]
    · simp [subtractAll, failed, Bind.bind, Except.bind]

@[simp] theorem list_set (session : Session) (name : String) (regions : List Region) :
    (session.set name regions).list name = regions := by
  -- The new list stands in front of all others.
  simp [list, set]

/-- The account of taking a region away from one region of a list holds
a number that is too long. -/
def Untold (regions : List Region) (region : Region) (budget : Int) : Prop :=
  -- Telling stops the whole operation, whichever region it is about.
  ∃ first ∈ regions, ∃ comparison, first.intersect region budget ⟨true, false⟩ = .ok comparison ∧
    ¬ Tellable false (account first region budget ⟨true, false⟩ comparison)

/-- Taking a comparable region away narrows a list down further, unless a
number is too long to be told. -/
theorem subtract_cases {session : Session} {name : String} {base region : Region}
    {stays : List Int → Prop} (narrows : Region.Narrows (session.list name) base stays)
    (comparable : base.Comparable region) (budget : Int) :
    (¬ Untold (session.list name) region budget ∧ ∃ relations next,
      session.subtract name region budget = .ok (relations, next) ∧
        Region.Narrows (next.list name) base fun tuple => stays tuple ∧ ¬ region.Holds tuple) ∨
    (Untold (session.list name) region budget ∧
      session.subtract name region budget = .error .longNumber) := by
  -- Every part is compared on its own, and what stays of it takes its place.
  have each := fun part member => kept_narrows (narrows.part part member) comparable budget
  have : Nonempty Comparison := ⟨{ outcome := .disjoint }⟩
  choose! answer answered marks parts using each
  -- A told comparison has the same answer, or fails because of its account.
  have told : ∀ first ∈ session.list name,
      (first.intersectTold region budget ⟨true, false⟩ false).map Prod.fst =
        if Tellable false (account first region budget ⟨true, false⟩ (answer first)) then
          .ok (answer first)
        else .error .longNumber := by
    intro first member
    rw [Region.intersectTold_eq (answered first member)]
    split <;> rfl
  by_cases untold : Untold (session.list name) region budget
  · -- One comparison cannot be told, and no other fault can come before it.
    have failed : subtractAll
      (fun first => (first.intersectTold region budget ⟨true, false⟩ false).map Prod.fst)
        (session.list name) = .error .longNumber := by
      apply subtractAll_error
      · intro first member
        rw [told first member]
        split
        · exact Or.inl ⟨_, rfl⟩
        · exact Or.inr rfl
      · obtain ⟨first, member, comparison, compared, long⟩ := untold
        obtain rfl := Except.ok.inj ((answered first member).symm.trans compared)
        exact ⟨first, member, by rw [told first member, if_neg long]⟩
    exact Or.inr ⟨untold, by simp [subtract, failed, Bind.bind, Except.bind]⟩
  · -- All comparisons are told, so the new list is what stays of every part.
    have short : ∀ first ∈ session.list name,
        Tellable false (account first region budget ⟨true, false⟩ (answer first)) := by
      intro first member
      by_contra long
      exact untold ⟨first, member, answer first, answered first member, long⟩
    have taken :=
      subtractAll_eq fun first member => (told first member).trans (if_pos (short first member))
    have result : session.subtract name region budget =
        .ok ((session.list name).map fun first => (answer first).outcome.relation,
          session.set name ((session.list name).flatMap fun first =>
            kept first (answer first))) := by
      simp only [subtract, taken, Bind.bind, Except.bind, Pure.pure, Except.pure]
    refine Or.inl ⟨untold, _, _, result, ?_⟩
    rw [list_set]
    exact narrows.flatMap _ parts marks

/-- Takes regions away from a list one after the other, each of them with a budget of its own. -/
def subtractEach (session : Session) (name : String) : List (Region × Int) → Except Fault Session
  | [] => .ok session
  | (region, budget) :: rest => do
    -- The relations are not needed to go on.
    let (_, next) ← session.subtract name region budget
    next.subtractEach name rest

/-- On the way through a list of subtractions a number is met that is too long to be told. -/
inductive Stuck (name : String) : Session → List (Region × Int) → Prop where
  /-- The first region cannot be taken away. -/
  | here {session : Session} {region : Region} {budget : Int} {rest : List (Region × Int)} :
      Untold (session.list name) region budget → Stuck name session ((region, budget) :: rest)
  /-- The first region is taken away, and a later one cannot be. -/
  | further {session next : Session} {region : Region} {budget : Int} {rest : List (Region × Int)}
      {relations : List Relation} : session.subtract name region budget = .ok (relations, next) →
      Stuck name next rest → Stuck name session ((region, budget) :: rest)

/-- Along a whole run the list is narrowed down by every region, unless the run gets stuck. -/
theorem subtractEach_cases {session : Session} {name : String} {base : Region}
    {stays : List Int → Prop} {steps : List (Region × Int)}
    (narrows : Region.Narrows (session.list name) base stays)
    (comparable : ∀ step ∈ steps, base.Comparable step.1) :
    (¬ Stuck name session steps ∧ ∃ after, session.subtractEach name steps = .ok after ∧
      Region.Narrows (after.list name) base fun tuple => stays tuple ∧
        ∀ step ∈ steps, ¬ step.1.Holds tuple) ∨
    (Stuck name session steps ∧ session.subtractEach name steps = .error .longNumber) := by
  -- Each step moves one region over to the tuples that do not stay.
  induction steps generalizing session stays with
  | nil => exact Or.inl ⟨fun stuck => (by cases stuck), session, rfl, by simpa using narrows⟩
  | cons step rest ih =>
    obtain ⟨region, budget⟩ := step
    rcases subtract_cases narrows (comparable (region, budget) List.mem_cons_self) budget with
      ⟨told, relations, next, taken, further⟩ | ⟨untold, failed⟩
    · -- The rest of the run starts from the narrowed list.
      have run : session.subtractEach name ((region, budget) :: rest) =
          next.subtractEach name rest := by
        simp [subtractEach, taken, Bind.bind, Except.bind]
      rw [run]
      rcases ih further fun other member => comparable other (List.mem_cons_of_mem _ member) with
        ⟨free, after, ran, narrowed⟩ | ⟨stuck, failed⟩
      · refine Or.inl ⟨?_, after, ran, ?_⟩
        · intro stuck
          cases stuck with
          | here untold => exact told untold
          | further again stuck =>
            cases taken.symm.trans again
            exact free stuck
        · simpa [and_assoc] using narrowed
      · exact Or.inr ⟨.further taken stuck, failed⟩
    · exact Or.inr ⟨.here untold, by simp [subtractEach, failed, Bind.bind, Except.bind]⟩

/-- Regions are taken away from a region given per axis, in any number and with any budgets. If
every number on the way can be told, the parts in the list are fragments of the region or marks, no
two of them overlap, and none reaches into a region that was taken away; without a mark they hold
all the other tuples. Otherwise the run ends with the number that cannot be told. -/
theorem subtractEach_narrows {session : Session} {name : String} {base : Region}
    (start : session.list name = [base]) (kind : base.kind = .perAxis) (valid : AllValid base.axes)
    {steps : List (Region × Int)} (comparable : ∀ step ∈ steps, base.Comparable step.1) :
    (¬ Stuck name session steps ∧ ∃ after, session.subtractEach name steps = .ok after ∧
      Region.Narrows (after.list name) base fun tuple =>
        base.Holds tuple ∧ ∀ step ∈ steps, ¬ step.1.Holds tuple) ∨
    (Stuck name session steps ∧ session.subtractEach name steps = .error .longNumber) := by
  -- At the start the list holds the region itself, which is all of its tuples.
  refine subtractEach_cases ?_ comparable
  rw [start]
  refine Region.narrows_of_splits ?_ (Splits.single fun tuple => Iff.rfl)
  intro part member
  obtain rfl := List.mem_singleton.mp member
  exact ⟨kind, rfl, rfl, rfl, valid, rfl⟩

/-- Six rows lose the middle of two rows and then two rows, and four fragments without a mark are
left. Rows in steps of more than two thousand digits that meet a region in other columns stay as
they are, and that is not told. -/
theorem subtractEach_narrows_rows :
    let array (axes : List Axis) : Region := ⟨some (.name "A"), .perAxis, none, some 4, axes⟩
    let base := array [⟨0, 1, 6, 6⟩, ⟨0, 1, 4, 4⟩]
    let steps := [(array [⟨1, 3, 2, 6⟩, ⟨1, 1, 2, 4⟩], 10), (array [⟨2, 1, 2, 6⟩, ⟨0, 1, 4, 4⟩], 0)]
    let parts :=
      [[⟨5, 3, 1, 6⟩, ⟨0, 1, 4, 4⟩], [⟨0, 3, 1, 6⟩, ⟨0, 1, 4, 4⟩], [⟨1, 3, 2, 6⟩, ⟨0, 1, 1, 4⟩],
        [⟨1, 3, 2, 6⟩, ⟨3, 1, 1, 4⟩]].map array
    let far : Int := (10 ^ 2200 : Nat)
    let sparse := array [⟨0, far, far + 2, 0⟩, ⟨0, 1, 1, 0⟩]
    let other := array [⟨0, far + 1, far + 1, 0⟩, ⟨1, 1, 1, 0⟩]
    (Session.subtractEach ⟨[("rest", [base])]⟩ "rest" steps = .ok ⟨[("rest", parts)]⟩ ∧
      Splits Region.Holds parts fun tuple => base.Holds tuple ∧
        ∀ step ∈ steps, ¬ step.1.Holds tuple) ∧
    Stuck "rest" ⟨[("rest", [sparse])]⟩ [(other, 10)] ∧
      Session.subtractEach ⟨[("rest", [sparse])]⟩ "rest" [(other, 10)] = .error .longNumber := by
  intro array base steps parts far sparse other
  -- Both regions that are taken away have the shape of the array.
  have comparable : ∀ step ∈ steps, base.Comparable step.1 := by
    intro step member
    rcases List.mem_pair.mp member with rfl | rfl
    all_goals exact ⟨by decide, by decide, rfl, rfl, by decide, by decide, rfl, rfl⟩
  -- The parts are computed, and the theorem says that they are all that is left.
  have computed : Session.subtractEach ⟨[("rest", [base])]⟩ "rest" steps =
      .ok ⟨[("rest", parts)]⟩ := by
    decide +kernel
  have sparseComparable : ∀ step ∈ [(other, (10 : Int))], sparse.Comparable step.1 := by
    intro step member
    obtain rfl := List.mem_singleton.mp member
    exact ⟨by decide, by decide, rfl, rfl, by decide +kernel, by decide +kernel,
      rfl, by decide +kernel⟩
  have failed : Session.subtractEach ⟨[("rest", [sparse])]⟩ "rest" [(other, 10)] =
      .error .longNumber := by
    decide +kernel
  constructor
  · have start : Session.list ⟨[("rest", [base])]⟩ "rest" = [base] := rfl
    rcases subtractEach_narrows start rfl (by decide) comparable with ⟨-, after, ran, narrows⟩ |
      ⟨-, stopped⟩
    · obtain rfl := Except.ok.inj (computed.symm.trans ran)
      rcases narrows.complete with ⟨part, member, whole⟩ | splits
      · -- Nothing was left unknown, since the budgets were large enough.
        exact absurd whole ((by decide : ∀ part ∈ parts, part.kind ≠ .whole) part member)
      · exact ⟨computed, splits⟩
    · cases computed.symm.trans stopped
  · -- The comparison with the sparse array cannot be told.
    have start : Session.list ⟨[("rest", [sparse])]⟩ "rest" = [sparse] := rfl
    rcases subtractEach_narrows start rfl (by decide +kernel) sparseComparable with
      ⟨-, after, ran, -⟩ | ⟨stuck, -⟩
    · cases failed.symm.trans ran
    · exact ⟨stuck, failed⟩

end Session

end Overlap
