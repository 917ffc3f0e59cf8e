import Overlap.Proofs.Phrase.Writing
import Overlap.Sexp.Told

/-! What keeps an S-expression from being written: a number, the nesting,
or the beginning of a line. -/

namespace Overlap.Sexp

/-- The integers in a list are those in its items. -/
theorem numbersAll_eq (items : List Sexp) : numbersAll items = items.flatMap numbers := by
  -- One item at a time, as the integers are collected.
  induction items with
  | nil => rfl
  | cons item items ih => rw [numbersAll, ih, List.flatMap_cons]

/-- An S-expression whose integers can all be written. -/
def NumbersWritable (sexp : Sexp) : Prop :=
  -- Numbers at every level count.
  ∀ number ∈ sexp.numbers, Writable number

/-- Whether all integers can be written is settled one by one. -/
instance (sexp : Sexp) : Decidable sexp.NumbersWritable :=
  -- The numbers of an expression are a list.
  inferInstanceAs (Decidable (∀ number ∈ sexp.numbers, Writable number))

/-- The integers of a list can be written when those of its items can. -/
theorem numbersWritable_list {items : List Sexp} :
    (Sexp.list items).NumbersWritable ↔ ∀ item ∈ items, item.NumbersWritable := by
  -- An integer of the list is an integer of one of the items.
  rw [NumbersWritable, numbers, numbersAll_eq]
  simp only [List.mem_flatMap, forall_exists_index, and_imp]
  exact ⟨fun all item member number found => all number item member found,
    fun each number item member found => each item member number found⟩

section Parts

variable {laid : Int → List Sexp → Except Fault Unit} {room : Nat} {depth : Int} {fault : Fault}

/-- An S-expression that is accepted has short numbers, and no more
levels than there is room for. -/
theorem checkParts_ok {sexp : Sexp} (accepted : checkParts laid room depth sexp = .ok ()) :
    sexp.NumbersWritable ∧ sexp.height ≤ room := by
  revert laid room depth
  -- Inside brackets and quotes another check is made of the lists, so the
  -- check is not fixed either.
  refine @Sexp.rec
    (fun sexp => ∀ {laid room depth}, checkParts laid room depth sexp = .ok () →
      sexp.NumbersWritable ∧ sexp.height ≤ room)
    (fun items => ∀ {laid room depth}, checkPartsAll laid room depth items = .ok () →
      (∀ number ∈ numbersAll items, Writable number) ∧ heightAll items ≤ room)
    ?nothing ?flag ?int ?real ?text ?symbol ?list ?bracket ?quoted ?nil ?cons sexp
  case int =>
    intro value laid room depth accepted
    refine ⟨?_, Nat.zero_le room⟩
    by_contra long
    have refused : checkNumbers [value] = .error .longNumber := if_neg long
    rw [checkParts, refused] at accepted
    cases accepted
  case list =>
    intro items each laid room depth accepted
    rw [checkParts] at accepted
    split at accepted
    · cases accepted
    · -- The items have one level less, and the list itself takes that level.
      obtain ⟨_, accepted, -⟩ := bind_eq_ok_iff.mp accepted
      obtain ⟨writable, levels⟩ := each accepted
      exact ⟨writable, by rw [height]; omega⟩
  case bracket | quoted =>
    intro inside each laid room depth accepted
    rw [checkParts] at accepted
    split at accepted
    · cases accepted
    · obtain ⟨writable, levels⟩ := each accepted
      exact ⟨writable, by rw [height]; omega⟩
  case cons =>
    intro item items first others laid room depth accepted
    rw [checkPartsAll] at accepted
    obtain ⟨_, accepted, rest⟩ := bind_eq_ok_iff.mp accepted
    obtain ⟨writable, levels⟩ := first accepted
    obtain ⟨allWritable, allLevels⟩ := others rest
    refine ⟨fun number member => ?_, Nat.max_le.mpr ⟨levels, allLevels⟩⟩
    exact (List.mem_append.mp member).elim (writable number) (allWritable number)
  -- Every other atom has no number and no level.
  all_goals
    intros
    exact ⟨fun number member => absurd member List.not_mem_nil, Nat.zero_le _⟩

/-- An S-expression is refused for a number, for its levels, or for a list that is refused at the
level where it stands. -/
theorem checkParts_error {sexp : Sexp} (refused : checkParts laid room depth sexp = .error fault) :
    fault = .longNumber ∧ ¬ sexp.NumbersWritable ∨ fault = .tooNested ∧ room < sexp.height ∨
      ∃ level items, depth ≤ level ∧ level < depth + room ∧ level < depth + sexp.height ∧
        laid level items = .error fault := by
  revert laid room depth
  refine @Sexp.rec
    (fun sexp => ∀ {laid room depth}, checkParts laid room depth sexp = .error fault →
      fault = .longNumber ∧ ¬ sexp.NumbersWritable ∨ fault = .tooNested ∧ room < sexp.height ∨
        ∃ level items, depth ≤ level ∧ level < depth + room ∧ level < depth + sexp.height ∧
          laid level items = .error fault)
    (fun items => ∀ {laid room depth}, checkPartsAll laid room depth items = .error fault →
      fault = .longNumber ∧ ¬ (∀ number ∈ numbersAll items, Writable number) ∨
        fault = .tooNested ∧ room < heightAll items ∨
        ∃ level inner, depth ≤ level ∧ level < depth + room ∧ level < depth + heightAll items ∧
          laid level inner = .error fault)
    ?nothing ?flag ?int ?real ?text ?symbol ?list ?bracket ?quoted ?nil ?cons sexp
  case int =>
    -- A number is refused for its length only.
    intro value laid room depth refused
    rw [checkParts] at refused
    by_cases short : ∀ number ∈ [value], Writable number
    · rw [checkNumbers, if_pos short] at refused
      cases refused
    · rw [checkNumbers, if_neg short] at refused
      cases refused
      exact .inl ⟨rfl, short⟩
  case list =>
    intro items each laid room depth refused
    rw [checkParts] at refused
    rw [height]
    split at refused
    · cases refused
      exact .inr (.inl ⟨rfl, by omega⟩)
    · -- The items are refused one level deeper, or the list itself at its own level.
      rcases bind_eq_error_iff.mp refused with refused | ⟨_, -, refused⟩
      · rcases each refused with long | ⟨deep, levels⟩ |
          ⟨level, inner, above, within, below, refused⟩
        · exact .inl long
        · exact .inr (.inl ⟨deep, by omega⟩)
        · exact .inr (.inr ⟨level, inner, by omega, by omega, by omega, refused⟩)
      · exact .inr (.inr ⟨depth, items, by omega, by omega, by omega, refused⟩)
  case bracket | quoted =>
    intro inside each laid room depth refused
    rw [checkParts] at refused
    rw [height]
    split at refused
    · cases refused
      exact .inr (.inl ⟨rfl, by omega⟩)
    · -- No list inside is refused for itself.
      rcases each refused with long | ⟨deep, levels⟩ | ⟨_, _, _, _, _, refused⟩
      · exact .inl long
      · exact .inr (.inl ⟨deep, by omega⟩)
      · cases refused
  case cons =>
    -- The first item is refused, or it is accepted and a later one is refused.
    intro item items first others laid room depth refused
    have highest : heightAll (item :: items) = max item.height (heightAll items) := rfl
    have all : numbersAll (item :: items) = item.numbers ++ numbersAll items := rfl
    rw [checkPartsAll] at refused
    rw [all, List.forall_mem_append]
    rcases bind_eq_error_iff.mp refused with refused | ⟨_, -, refused⟩
    · rcases first refused with ⟨long, unwritable⟩ | ⟨deep, levels⟩ |
        ⟨level, inner, above, within, below, refused⟩
      · exact .inl ⟨long, fun writable => unwritable writable.1⟩
      · exact .inr (.inl ⟨deep, by omega⟩)
      · exact .inr (.inr ⟨level, inner, above, within, by omega, refused⟩)
    · rcases others refused with ⟨long, unwritable⟩ | ⟨deep, levels⟩ |
        ⟨level, inner, above, within, below, refused⟩
      · exact .inl ⟨long, fun writable => unwritable writable.2⟩
      · exact .inr (.inl ⟨deep, by omega⟩)
      · exact .inr (.inr ⟨level, inner, above, within, by omega, refused⟩)
  -- No other atom is refused.
  all_goals
    intros
    rename_i refused
    cases refused

end Parts

section Layouts

variable [Limits] {sexp : Sexp} {layout : Layout} {depth : Int} {text : String} {fault : Fault}

/-- What is told on several lines is the text in its layout, of short numbers in few levels. -/
theorem prettyTold_ok (told : sexp.prettyTold layout depth = .ok text) :
    text = sexp.pretty layout depth ∧ sexp.NumbersWritable ∧ sexp.height ≤ maxPrettyHeight := by
  -- The text is only written after all of its parts were accepted.
  obtain ⟨_, accepted, rfl⟩ := map_eq_ok_iff.mp told
  exact ⟨rfl, checkParts_ok accepted⟩

/-- Several lines cannot be told for a number, for too many levels, or when the beginning of a line
cannot be built. -/
theorem prettyTold_error (failed : sexp.prettyTold layout depth = .error fault) :
    fault = .longNumber ∧ ¬ sexp.NumbersWritable ∨
      fault = .tooNested ∧ maxPrettyHeight < sexp.height ∨
      ∃ level, depth < level ∧ level ≤ depth + maxPrettyHeight ∧ level ≤ depth + sexp.height ∧
        checkRepeat layout.indent.length level = .error fault := by
  rcases checkParts_error (map_eq_error_iff.mp failed) with
    long | deep | ⟨level, items, above, within, below, unbuilt⟩
  · exact .inl long
  · exact .inr (.inl deep)
  · -- The further lines of a list begin one level deeper than the list itself.
    unfold checkLines at unbuilt
    split at unbuilt
    · cases unbuilt
    · exact .inr (.inr ⟨level + 1, by omega, by omega, by omega, unbuilt⟩)

/-- With two blanks for each level, every line that is reached can be begun. -/
theorem prettyTold_default_error {width : Int}
    (failed : sexp.prettyTold { width } 0 = .error fault) :
    fault = .longNumber ∧ ¬ sexp.NumbersWritable ∨
      fault = .tooNested ∧ maxPrettyHeight < sexp.height := by
  rcases prettyTold_error failed with long | deep | ⟨level, above, within, -, unbuilt⟩
  · exact .inl long
  · exact .inr deep
  · -- So few levels are indented by fewer blanks than a text may have.
    have indents := Limits.indents_le_memory
    have memory := Limits.memory_lt_exact
    unfold wordBytes at memory
    have indent : "  ".length = 2 := by decide
    have word : ¬ (¬ Word.Fits level ∨ 0x8000000000000000 ≤ 2 * level.toNat) := by
      unfold Word.Fits
      omega
    have small : ¬ memoryBytes < 2 * level.toNat := by omega
    dsimp only at unbuilt
    rw [indent, checkRepeat, if_neg word, checkBytes, if_neg small] at unbuilt
    cases unbuilt

/-- What is told on one line is its text, of short numbers in few levels. -/
theorem compactTold_ok (told : sexp.compactTold = .ok text) :
    text = sexp.compact ∧ sexp.NumbersWritable ∧ sexp.height ≤ maxCompactHeight := by
  -- The text is only written after all of its parts were accepted.
  obtain ⟨_, accepted, rfl⟩ := map_eq_ok_iff.mp told
  exact ⟨rfl, checkParts_ok accepted⟩

/-- One line cannot be told for a number, or for too many levels. -/
theorem compactTold_error (failed : sexp.compactTold = .error fault) :
    fault = .longNumber ∧ ¬ sexp.NumbersWritable ∨
      fault = .tooNested ∧ maxCompactHeight < sexp.height := by
  rcases checkParts_error (map_eq_error_iff.mp failed) with long | deep | ⟨_, _, _, _, _, refused⟩
  · exact .inl long
  · exact .inr deep
  · -- On one line, no list is refused for itself.
    cases refused

/-- With two blanks for each level, few levels are told on lines unless a number cannot be. -/
theorem prettyTold_eq {width : Int} (low : sexp.height ≤ maxPrettyHeight) :
    sexp.prettyTold { width } 0 =
      if sexp.NumbersWritable then .ok (sexp.pretty { width } 0) else .error .longNumber := by
  -- Of the two things that can stop the text, the levels are excluded.
  cases told : sexp.prettyTold { width } 0 with
  | ok text =>
    obtain ⟨rfl, writable, -⟩ := prettyTold_ok told
    exact (if_pos writable).symm
  | error fault =>
    obtain ⟨rfl, long⟩ :=
      (prettyTold_default_error told).resolve_right fun deep => deep.2.not_ge low
    exact (if_neg long).symm

/-- Few levels are told on one line unless a number cannot be. -/
theorem compactTold_eq (low : sexp.height ≤ maxCompactHeight) :
    sexp.compactTold =
      if sexp.NumbersWritable then .ok sexp.compact else .error .longNumber := by
  -- Few levels leave a long number as the only reason for a fault.
  cases told : sexp.compactTold with
  | ok text =>
    obtain ⟨rfl, writable, -⟩ := compactTold_ok told
    exact (if_pos writable).symm
  | error fault =>
    obtain ⟨rfl, long⟩ := (compactTold_error told).resolve_right fun deep => deep.2.not_ge low
    exact (if_neg long).symm

/-- In the default layouts, few levels are written unless a number cannot be. -/
theorem writeTold_eq (low : sexp.height ≤ maxCompactHeight) (pretty : Bool) :
    sexp.writeTold pretty =
      if sexp.NumbersWritable then .ok (sexp.write pretty) else .error .longNumber := by
  -- Lines leave room for all levels that one line leaves room for.
  cases pretty with
  | true => exact prettyTold_eq (low.trans Limits.compact_le_pretty)
  | false => exact compactTold_eq low

end Layouts

end Overlap.Sexp
