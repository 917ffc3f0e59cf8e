import Mathlib.Data.List.Basic

/-! Pieces that do not overlap inside a whole, and pieces that cover all of it. -/

namespace Overlap

/-- Pieces inside a whole, no two of which have a member in common. -/
structure Packs {α β : Type} (holds : α → β → Prop) (pieces : List α)
    (whole : β → Prop) : Prop where
  -- Nothing is held by two pieces, and nothing outside of the whole.
  apart : pieces.Pairwise fun first second => ∀ x, holds first x → ¬ holds second x
  inside : ∀ piece ∈ pieces, ∀ x, holds piece x → whole x

/-- Pieces inside a whole that hold all of its members, each of them once. -/
structure Splits {α β : Type} (holds : α → β → Prop) (pieces : List α) (whole : β → Prop) : Prop
    extends Packs holds pieces whole where
  -- Nothing of the whole is missing.
  complete : ∀ x, whole x → ∃ piece ∈ pieces, holds piece x

variable {α β γ δ : Type} {holds : α → β → Prop} {pieces others : List α} {whole rest : β → Prop}

namespace Packs

/-- No pieces fit into every whole. -/
theorem nil : Packs holds [] whole :=
  -- There is nothing to be kept apart.
  ⟨List.Pairwise.nil, by simp⟩

/-- A single piece fits into every whole that has its members. -/
theorem single {piece : α} (inside : ∀ x, holds piece x → whole x) : Packs holds [piece] whole :=
  -- One piece overlaps nothing.
  ⟨List.pairwise_singleton _ _, by simpa using inside⟩

/-- Pieces of two wholes without a common member fit into both of them together. -/
theorem append (packs : Packs holds pieces whole) (restPacks : Packs holds others rest)
    (disjoint : ∀ x, whole x → ¬ rest x) :
    Packs holds (pieces ++ others) fun x => whole x ∨ rest x := by
  constructor
  · refine List.pairwise_append.mpr ⟨packs.apart, restPacks.apart, ?_⟩
    -- A member of a piece from either list would be common to both wholes.
    intro first firstMem second secondMem x inFirst inSecond
    exact disjoint x (packs.inside first firstMem x inFirst)
      (restPacks.inside second secondMem x inSecond)
  · intro piece member x held
    rcases List.mem_append.mp member with left | right
    · exact Or.inl (packs.inside piece left x held)
    · exact Or.inr (restPacks.inside piece right x held)

/-- Replacing every piece by smaller ones keeps the pieces apart, and what
no smaller piece has is gone. -/
theorem flatMap {held : γ → β → Prop} {stays : β → Prop} (packs : Packs holds pieces whole)
    (f : α → List γ)
    (each : ∀ piece ∈ pieces, Packs held (f piece) fun x => holds piece x ∧ stays x) :
    Packs held (pieces.flatMap f) fun x => whole x ∧ stays x := by
  constructor
  · refine List.pairwise_flatMap.mpr ⟨fun piece member => (each piece member).apart, ?_⟩
    -- Parts of different pieces have no member in common, because the pieces have none.
    refine packs.apart.imp_of_mem ?_
    intro first second firstMem secondMem apart left leftMem right rightMem x inLeft inRight
    exact apart x ((each first firstMem).inside left leftMem x inLeft).1
      ((each second secondMem).inside right rightMem x inRight).1
  · intro part member x inPart
    obtain ⟨piece, pieceMem, partMem⟩ := List.mem_flatMap.mp member
    obtain ⟨inPiece, kept⟩ := (each piece pieceMem).inside part partMem x inPart
    exact ⟨packs.inside piece pieceMem x inPiece, kept⟩

end Packs

namespace Splits

/-- The members of a whole are those of its pieces. -/
theorem covers (splits : Splits holds pieces whole) (x : β) :
    whole x ↔ ∃ piece ∈ pieces, holds piece x :=
  -- What is held by a piece is inside, and what is inside is held by a piece.
  ⟨splits.complete x, fun ⟨piece, member, held⟩ => splits.inside piece member x held⟩

/-- Pieces split a whole when they are apart and have the same members. -/
theorem of_covers
    (apart : pieces.Pairwise fun first second => ∀ x, holds first x → ¬ holds second x)
    (covers : ∀ x, whole x ↔ ∃ piece ∈ pieces, holds piece x) : Splits holds pieces whole :=
  -- Every piece lies inside, as the whole is what they cover.
  ⟨⟨apart, fun piece member x held => (covers x).mpr ⟨piece, member, held⟩⟩, fun x => (covers x).mp⟩

/-- Wholes with the same members are split by the same pieces. -/
theorem congr (splits : Splits holds pieces whole) (same : ∀ x, rest x ↔ whole x) :
    Splits holds pieces rest :=
  -- Only the members of the whole count.
  of_covers splits.apart fun x => (same x).trans (splits.covers x)

/-- A whole without members is split into no pieces. -/
theorem nil (empty : ∀ x, ¬ whole x) : Splits holds [] whole :=
  -- No piece is needed where there is nothing.
  ⟨Packs.nil, fun x member => absurd member (empty x)⟩

/-- A single piece splits a whole with the same members. -/
theorem single {piece : α} (same : ∀ x, whole x ↔ holds piece x) : Splits holds [piece] whole :=
  -- The piece and the whole hold the same.
  ⟨Packs.single fun x => (same x).mpr, fun x member => ⟨piece, by simp, (same x).mp member⟩⟩

/-- Two wholes without a common member are split together. -/
theorem append (splits : Splits holds pieces whole) (restSplits : Splits holds others rest)
    (disjoint : ∀ x, whole x → ¬ rest x) :
    Splits holds (pieces ++ others) fun x => whole x ∨ rest x := by
  refine ⟨splits.toPacks.append restSplits.toPacks disjoint, ?_⟩
  -- A member of either whole is in one of its pieces.
  intro x either
  rcases either with left | right
  · obtain ⟨piece, member, held⟩ := splits.complete x left
    exact ⟨piece, List.mem_append_left _ member, held⟩
  · obtain ⟨piece, member, held⟩ := restSplits.complete x right
    exact ⟨piece, List.mem_append_right _ member, held⟩

/-- Pieces that are carried over to another kind of members split what is seen of them there. -/
theorem map {held : γ → δ → Prop} (splits : Splits holds pieces whole) (f : α → γ) (view : δ → β)
    (side : δ → Prop) (same : ∀ piece y, held (f piece) y ↔ side y ∧ holds piece (view y)) :
    Splits held (pieces.map f) fun y => side y ∧ whole (view y) := by
  -- The view of a common member would be common to the pieces.
  apply of_covers
  · refine List.pairwise_map.mpr (splits.apart.imp ?_)
    intro first second apart y inFirst inSecond
    exact apart (view y) ((same first y).mp inFirst).2 ((same second y).mp inSecond).2
  · intro y
    rw [splits.covers]
    simp only [List.mem_map, exists_exists_and_eq_and, same]
    constructor
    · intro seen
      obtain ⟨beside, piece, member, held⟩ := seen
      exact ⟨piece, member, beside, held⟩
    · intro found
      obtain ⟨piece, member, beside, held⟩ := found
      exact ⟨beside, piece, member, held⟩

/-- Splitting every piece again splits what stays of the whole. -/
theorem flatMap {held : γ → β → Prop} {stays : β → Prop} (splits : Splits holds pieces whole)
    (f : α → List γ)
    (each : ∀ piece ∈ pieces, Splits held (f piece) fun x => holds piece x ∧ stays x) :
    Splits held (pieces.flatMap f) fun x => whole x ∧ stays x := by
  refine ⟨splits.toPacks.flatMap f fun piece member => (each piece member).toPacks, ?_⟩
  -- A member that stays is in one piece, and in one of the parts of that.
  intro x staying
  obtain ⟨inWhole, kept⟩ := staying
  obtain ⟨piece, pieceMem, inPiece⟩ := splits.complete x inWhole
  obtain ⟨part, partMem, inPart⟩ := (each piece pieceMem).complete x ⟨inPiece, kept⟩
  exact ⟨part, List.mem_flatMap.mpr ⟨piece, pieceMem, partMem⟩, inPart⟩

end Splits

end Overlap
