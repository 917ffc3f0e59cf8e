import Overlap.Proofs.Phrase.Verdict
import Overlap.Proofs.Phrase.Viable

/-! Reading stops as late as it can: no longer part of the text could have been completed. -/

namespace Overlap

section Fronts

/-- A place lies beyond a front, but for blanks, when it lies in the tail behind the front. -/
def Beyond (tail text : List Char) : Prop :=
  -- Blanks in front of the text do not count, as every reader skips them.
  skipBlanks text <:+ tail

/-- What is left of a text is also left of it behind the blanks. -/
theorem skipBlanks_suffix {rest text : List Char} (ends : rest <:+ text) :
    skipBlanks rest <:+ skipBlanks text := by
  obtain ⟨front, rfl⟩ := ends
  by_cases blank : Blank front
  · simp only [skipBlanks_append blank, List.suffix_refl]
  · -- A token in the front is not skipped, so the whole rest is left.
    rw [skipBlanks, skipBlanks, List.dropWhile_append, if_neg]
    · exact (List.dropWhile_suffix _).trans (List.suffix_append _ _)
    · rw [List.isEmpty_iff]
      exact fun none => blank (skipBlanks_eq_nil_iff.mp none)

/-- What is left of a text beyond a front lies beyond it too. -/
theorem Beyond.of_suffix {tail text rest : List Char} (beyond : Beyond tail text)
    (ends : rest <:+ text) :
    Beyond tail rest :=
  -- A later end of the text stays beyond.
  (skipBlanks_suffix ends).trans beyond

/-- All that is left of a tail lies beyond the front. -/
theorem beyond_of_suffix {tail rest : List Char} (ends : rest <:+ tail) : Beyond tail rest :=
  -- What is left without its blanks is an end of what is left.
  (List.dropWhile_suffix _).trans ends

/-- Every place lies beyond a front of blanks. -/
theorem beyond_of_blank {front tail rest : List Char} (blank : Blank front)
    (ends : rest <:+ front ++ tail) :
    Beyond tail rest := by
  -- Nothing solid stands between the front and the tail.
  have skipped := skipBlanks_suffix ends
  rw [skipBlanks_append blank] at skipped
  exact skipped.trans (List.dropWhile_suffix _)

/-- The first token of a front that has one is the first token of the text. -/
theorem skipBlanks_append_of_not_blank {front : List Char} (solid : ¬ Blank front)
    (tail : List Char) :
    skipBlanks (front ++ tail) = skipBlanks front ++ tail := by
  -- Skipping stops inside the front, so the tail is not touched.
  rw [skipBlanks, List.dropWhile_append, if_neg, skipBlanks]
  rw [List.isEmpty_iff]
  exact fun none => solid (skipBlanks_eq_nil_iff.mp none)

/-- A front with a token does not lie beyond itself. -/
theorem not_beyond_of_not_blank {front tail : List Char} (solid : ¬ Blank front) :
    ¬ Beyond tail (front ++ tail) := by
  -- The front has a solid character, which makes the rest longer than the tail.
  intro beyond
  rw [Beyond, skipBlanks_append_of_not_blank solid] at beyond
  have longer := beyond.length_le
  rw [List.length_append] at longer
  exact solid (skipBlanks_eq_nil_iff.mp (List.length_eq_zero_iff.mp (by omega)))

/-- A lexeme without blanks ends before the first blank. -/
theorem split_at_blank {front more lexeme rest : List Char} (noBlank : ' ' ∉ lexeme)
    (split : front ++ ' ' :: more = lexeme ++ rest) :
    ∃ own, front = lexeme ++ own ∧ rest = own ++ ' ' :: more := by
  rcases List.append_eq_append_iff.mp split with ⟨part, rfl, behind⟩ | ⟨own, rfl, rest⟩
  · -- If the lexeme went on behind the front, it would go on with the blank.
    cases part with
    | nil => exact ⟨[], by simp, behind.symm⟩
    | cons c part =>
      cases behind
      exact absurd (by simp) noBlank
  · exact ⟨own, rfl, rest⟩

end Fronts

namespace Phrase

section Agreement

variable {α β : Type}

/-- The text that is left where a reader ends or stops. -/
def remaining : Except Rest (α × Rest) → Rest
  -- A reader that fails tells where it stopped, and one that succeeds tells where it ended.
  | .ok (_, rest) => rest
  | .error stop => stop

/-- Two readers that take the same way. What one of them reads up to a blank behind a front, the
other one reads too, whatever follows the front instead, unless it gets beyond the front. -/
structure Agree (reader other : Rest → Except Rest (α × Rest)) : Prop where
  -- The second reader only moves forwards.
  suffix : ∀ text, remaining (other text) <:+ text
  -- Where the first one succeeds in front of a blank, the second one reads the
  -- same part or goes beyond it.
  follows : ∀ {front more rest : List Char} {found : α}, ¬ Blank front →
    reader (front ++ ' ' :: more) = .ok (found, rest) → ∀ tail,
      Beyond tail (remaining (other (front ++ tail))) ∨
        ∃ own again, rest = own ++ ' ' :: more ∧ other (front ++ tail) = .ok (again, own ++ tail)

namespace Agree

variable {reader other : Rest → Except Rest (α × Rest)}

/-- Readers that take the same way do so behind blanks as well. -/
theorem go (agree : Agree reader other) {front more rest : List Char} {found : α}
    (read : reader (front ++ ' ' :: more) = .ok (found, rest)) (tail : List Char) :
    Beyond tail (remaining (other (front ++ tail))) ∨
      ∃ own again, rest = own ++ ' ' :: more ∧
        other (front ++ tail) = .ok (again, own ++ tail) := by
  -- In front of blanks alone, anything that is read lies beyond them.
  by_cases blank : Blank front
  · exact .inl (beyond_of_blank blank (agree.suffix _))
  · exact agree.follows blank read tail

/-- To change a result is to go on with the changed one. -/
theorem map_eq_bind {ε : Type} (result : Except ε α) (change : α → β) :
    result.map change = result >>= fun found => .ok (change found) := by
  -- Both sides do nothing to a failure.
  cases result <;> rfl

/-- Nothing is taken when something is returned at once. -/
theorem done (found again : Rest → α) :
    Agree (fun text => .ok (found text, text)) (fun text => .ok (again text, text)) where
  -- Nothing is read, so both stay at the same place.
  suffix text := List.suffix_refl text
  follows := by
    intro front more rest value _ read tail
    cases read
    exact .inr ⟨front, again (front ++ tail), rfl, rfl⟩

/-- One reader behind another. -/
theorem bind {next following : α × Rest → Except Rest (β × Rest)} (agree : Agree reader other)
    (more : ∀ found again,
      Agree (fun text => next (found, text)) (fun text => following (again, text))) :
    Agree (fun text => reader text >>= next) (fun text => other text >>= following) where
  suffix text := by
    -- The second reader starts inside of what the first one has left.
    have first := agree.suffix text
    cases result : other text with
    | error stop =>
      rw [result] at first
      exact first
    | ok found =>
      rw [result] at first
      exact ((more found.1 found.1).suffix found.2).trans first
  follows := by
    intro front blank rest value solid read tail
    obtain ⟨⟨found, behind⟩, first, second⟩ := bind_eq_ok_iff.mp read
    rcases agree.follows solid first tail with beyond | ⟨own, again, rfl, same⟩
    · -- Once beyond the front, the second reader stays there.
      left
      cases result : other (front ++ tail) with
      | error stop =>
        rw [result] at beyond
        exact beyond
      | ok pair =>
        rw [result] at beyond
        exact beyond.of_suffix ((more pair.1 pair.1).suffix pair.2)
    · -- The first part is read alike, and the second one starts behind it.
      rw [same]
      exact (more found again).go second tail

/-- A reader whose result is changed. -/
theorem map (agree : Agree reader other) (change shift : α → β) :
    Agree (fun text => (reader text).map fun pair => (change pair.1, pair.2))
      (fun text => (other text).map fun pair => (shift pair.1, pair.2)) := by
  -- The change is a step that reads nothing.
  simp only [map_eq_bind]
  exact agree.bind fun found again => done (fun _ => change found) fun _ => shift again

end Agree

end Agreement

section Words

variable {α : Type} {keyword : String}

/-- What is left behind a word ends the text. -/
theorem suffix_of_readWord {text rest : List Char} (read : readWord keyword text = .ok rest) :
    rest <:+ text := by
  -- Blanks and the keyword are taken from the front.
  unfold readWord at read
  split at read
  · rename_i found
    cases read
    have ends : rest <:+ skipBlanks text := by
      rw [behind?_eq_some_iff.mp found]
      exact List.suffix_append _ _
    exact ends.trans (List.dropWhile_suffix _)
  · cases read

/-- Where a word is not read, the text is left from its first token on. -/
theorem stop_of_readWord {text stop : List Char} (failed : readWord keyword text = .error stop) :
    stop = skipBlanks text := by
  -- The keyword was looked for behind the blanks, so reading stops there.
  unfold readWord at failed
  split at failed
  · cases failed
  · cases failed
    rfl

/-- A word behind a front that has a token is read inside the front or not at all. -/
theorem readWord_front {front more rest : List Char} (solid : ¬ Blank front)
    (noBlank : ' ' ∉ keyword.toList) (read : readWord keyword (front ++ ' ' :: more) = .ok rest)
    (tail : List Char) :
    ∃ own, rest = own ++ ' ' :: more ∧ readWord keyword (front ++ tail) = .ok (own ++ tail) := by
  -- The keyword holds no blank, so it ends before the one that follows the front.
  unfold readWord at read
  split at read
  · rename_i found
    cases read
    rw [behind?_eq_some_iff, skipBlanks_append_of_not_blank solid] at found
    -- What is left of the front is found again in front of any other tail.
    obtain ⟨own, split, rfl⟩ := split_at_blank noBlank found
    refine ⟨own, rfl, ?_⟩
    have again : behind? keyword.toList (skipBlanks (front ++ tail)) = some (own ++ tail) := by
      rw [behind?_eq_some_iff, skipBlanks_append_of_not_blank solid, split, List.append_assoc]
    rw [readWord, again]
  · cases read

/-- A word that is not read up to a blank behind a front can only be read when
it goes on beyond the front. -/
theorem readWord_beyond {front more stop rest tail : List Char} (solid : ¬ Blank front)
    (failed : readWord keyword (front ++ ' ' :: more) = .error stop)
    (read : readWord keyword (front ++ tail) = .ok rest) : rest <:+ tail := by
  unfold readWord at read
  split at read
  · rename_i found
    cases read
    rw [behind?_eq_some_iff, skipBlanks_append_of_not_blank solid] at found
    rcases List.append_eq_append_iff.mp found with ⟨part, -, rfl⟩ | ⟨own, split, -⟩
    · exact List.suffix_append _ _
    · -- A word that ends inside the front would have been read before the blank as well.
      have earlier : behind? keyword.toList (skipBlanks (front ++ ' ' :: more)) =
          some (own ++ ' ' :: more) := by
        rw [behind?_eq_some_iff, skipBlanks_append_of_not_blank solid, split, List.append_assoc]
      rw [readWord, earlier] at failed
      cases failed
  · cases read

/-- A reader behind a word. -/
theorem Agree.word {next following : Rest → Except Rest (α × Rest)} (agree : Agree next following)
    (noBlank : ' ' ∉ keyword.toList) :
    Agree (fun text => readWord keyword text >>= next)
      (fun text => readWord keyword text >>= following) where
  -- Wherever the keyword fails or ends, an end of the text is left.
  suffix text := by
    cases result : readWord keyword text with
    | error stop =>
      rw [stop_of_readWord result]
      exact List.dropWhile_suffix _
    | ok rest => exact (agree.suffix rest).trans (suffix_of_readWord result)
  -- The keyword lies in the front, so the second reader finds it too and
  -- goes on as the first one does.
  follows := by
    intro front more rest found solid read tail
    obtain ⟨behind, first, second⟩ := bind_eq_ok_iff.mp read
    obtain ⟨own, rfl, same⟩ := readWord_front solid noBlank first tail
    rw [same]
    exact agree.go second tail

/-- A reader behind a word, or another one where the word is not found. -/
theorem Agree.orElse {next following absent missing : Rest → Except Rest (α × Rest)}
    (agree : Agree next following) (otherwise : Agree absent missing)
    (noBlank : ' ' ∉ keyword.toList) :
    Agree (fun text => (readWord keyword text).toOption.elim (absent text) next)
      (fun text => (readWord keyword text).toOption.elim (missing text) following) where
  suffix text := by
    -- Without the word, nothing has been read.
    cases result : readWord keyword text with
    | error stop => exact otherwise.suffix text
    | ok rest => exact (agree.suffix rest).trans (suffix_of_readWord result)
  follows := by
    intro front more rest found solid read tail
    cases first : readWord keyword (front ++ ' ' :: more) with
    | ok behind =>
      rw [first] at read
      -- The word lies in the front, so it is read again.
      obtain ⟨own, rfl, same⟩ := readWord_front solid noBlank first tail
      rw [same]
      exact agree.go read tail
    | error stop =>
      rw [first] at read
      cases second : readWord keyword (front ++ tail) with
      | error stop => exact otherwise.follows solid read tail
      | ok behind =>
        -- The word goes on beyond the front, and so does what is read behind it.
        have beyond := beyond_of_suffix (readWord_beyond solid first second)
        exact .inl (beyond.of_suffix (agree.suffix behind))

end Words

section Tokens

/-- A number is not read where no digit comes first. -/
theorem readNumeral_eq_error_iff {text stop : List Char} :
    readNumeral text = .error stop ↔ NoDigit (skipBlanks text) ∧ stop = skipBlanks text := by
  -- Whether there is a digit is seen at the first character that is not blank.
  unfold readNumeral
  cases skipBlanks text with
  | nil =>
    -- A text that is over has no digit.
    have none : NoDigit [] := fun c head => (Option.not_mem_none c head).elim
    rw [and_iff_right none, eq_comm]
    constructor
    · intro failed
      cases failed
      rfl
    · rintro rfl
      rfl
  | cons c token => by_cases digit : isDigit c = true <;> simp [NoDigit, digit, @eq_comm _ stop]

/-- A number is read inside a front that has a token, or goes on beyond it. -/
theorem agree_readNumeral : Agree readNumeral readNumeral where
  suffix text := by
    -- A number leaves the text behind it, and no number leaves the text behind the blanks.
    cases result : readNumeral text with
    | ok pair => exact (readNumeral_eq_ok_iff.mp result).2.1.suffix
    | error stop =>
      rw [(readNumeral_eq_error_iff.mp result).2]
      exact List.dropWhile_suffix _
  follows := by
    intro front more rest digits solid read tail
    -- The number has no blank, so it ends before the one behind the front.
    obtain ⟨proper, passes, stop⟩ := readNumeral_eq_ok_iff.mp read
    have noBlank : ' ' ∉ digits := fun member => absurd (proper.2 ' ' member) (by decide)
    rw [Passes.single_iff_skipBlanks proper.solid, skipBlanks_append_of_not_blank solid] at passes
    obtain ⟨own, split, rfl⟩ := split_at_blank noBlank passes
    have found : skipBlanks (front ++ tail) = digits ++ own ++ tail := by
      rw [skipBlanks_append_of_not_blank solid, split]
    cases own with
    | nil =>
      -- All of the front is the number, and it takes the digits behind the front as well.
      obtain ⟨whole, all, stops⟩ :=
        takeWhile_dropWhile_iff.mp ⟨@rfl _ (tail.takeWhile isDigit), rfl⟩
      have longer : Numeral.Proper (digits ++ tail.takeWhile isDigit) := by
        refine ⟨fun none => proper.1 (List.append_eq_nil_iff.mp none).1, fun c member => ?_⟩
        exact (List.mem_append.mp member).elim (proper.2 c) (all c)
      have taken : readNumeral (front ++ tail) =
          .ok (digits ++ tail.takeWhile isDigit, tail.dropWhile isDigit) := by
        refine readNumeral_eq_ok_iff.mpr ⟨longer,
          (Passes.single_iff_skipBlanks longer.solid).mpr ?_, stops⟩
        rw [found, List.append_nil, List.append_assoc, ← whole]
      rw [taken]
      exact .inl (beyond_of_suffix (List.dropWhile_suffix _))
    | cons c own =>
      -- The character behind the number is still part of the front.
      refine .inr ⟨c :: own, digits, rfl, readNumeral_eq_ok_iff.mpr ⟨proper, ?_, stop⟩⟩
      rw [Passes.single_iff_skipBlanks proper.solid, found, List.append_assoc]

/-- A number that may be left out is read inside a front that has a token, or goes on beyond it. -/
theorem agree_readNumeral? :
    Agree (fun text => .ok (readNumeral? text)) (fun text => .ok (readNumeral? text)) where
  suffix text := (passes_of_readNumeral? rfl).2.suffix
  follows := by
    intro front more rest digits solid read tail
    unfold readNumeral? at read ⊢
    cases first : readNumeral (front ++ ' ' :: more) with
    | ok pair =>
      obtain ⟨number, behind⟩ := pair
      rw [first] at read
      cases read
      rcases agree_readNumeral.follows solid first tail with beyond | ⟨own, again, rfl, same⟩
      · -- The number was read beyond the front, as there is a token in the front.
        left
        cases second : readNumeral (front ++ tail) with
        | ok pair =>
          rw [second] at beyond
          exact beyond
        | error stop =>
          rw [second, (readNumeral_eq_error_iff.mp second).2] at beyond
          rw [remaining, Beyond, skipBlanks_skipBlanks] at beyond
          exact absurd beyond (not_beyond_of_not_blank solid)
      · -- The same number is read again.
        rw [same]
        exact .inr ⟨own, some again, rfl, rfl⟩
    | error stop =>
      rw [first] at read
      cases read
      -- The first character of the token is no digit, whatever follows it.
      obtain ⟨noDigit, -⟩ := readNumeral_eq_error_iff.mp first
      have missing : readNumeral (front ++ tail) = .error (skipBlanks (front ++ tail)) := by
        refine readNumeral_eq_error_iff.mpr ⟨?_, rfl⟩
        rw [skipBlanks_append_of_not_blank solid] at noDigit ⊢
        cases token : skipBlanks front with
        | nil => exact absurd (skipBlanks_eq_nil_iff.mp token) solid
        | cons c token =>
          rw [token] at noDigit
          exact noDigit
      rw [missing]
      exact .inr ⟨front, none, rfl, rfl⟩

/-- A name does not hold a blank unless it is quoted. -/
theorem noBlank_of_isBareName {name : List Char} (bare : isBareName name = true) : ' ' ∉ name := by
  -- Blanks neither open nor continue a name.
  intro member
  cases name with
  | nil => cases bare
  | cons c name =>
    rw [isBareName, Bool.and_eq_true, List.all_eq_true] at bare
    rcases List.mem_cons.mp member with rfl | member
    · exact absurd bare.1 (by decide)
    · exact absurd (bare.2 ' ' member) (by decide)

/-- A bare name that goes on is a bare name. -/
theorem isBareName_append {name more : List Char} (bare : isBareName name = true)
    (all : ∀ c ∈ more, continuesName c = true) : isBareName (name ++ more) = true := by
  -- The first character stays the same, and all others continue a name.
  cases name with
  | nil => cases bare
  | cons c name =>
    rw [List.cons_append, isBareName, Bool.and_eq_true, List.all_eq_true]
    rw [isBareName, Bool.and_eq_true, List.all_eq_true] at bare
    refine ⟨bare.1, fun d member => ?_⟩
    exact (List.mem_append.mp member).elim (bare.2 d) (all d)

/-- A front of a quotable text does not close the quotes. -/
theorem suffix_of_quotedName {front part tail name rest : List Char}
    (quotable : Quotable (front ++ part)) (read : quotedName (front ++ tail) = some (name, rest)) :
    rest <:+ tail := by
  obtain ⟨own, split, closed, -⟩ := exists_quotable_of_quotedName read
  rcases List.append_eq_append_iff.mp split with ⟨more, rfl, rfl⟩ | ⟨more, rfl, behind⟩
  · exact (List.suffix_cons _ _).trans (List.suffix_append _ _)
  · cases more with
    | nil =>
      rw [List.nil_append] at behind
      rw [← behind]
      exact List.suffix_cons _ _
    | cons c more =>
      -- A quote inside the front that ends the name would end the quotable text as well.
      obtain ⟨rfl, rfl⟩ := List.cons.inj behind
      have odd := quotable.first own (more ++ part) (by simp)
      have even := closed.closed
      omega

/-- A name is read inside a front that has a token, or goes on beyond it, unless
its quotes are never closed. -/
theorem readName_follows {front more name rest : List Char} (solid : ¬ Blank front)
    (read : readName (front ++ ' ' :: more) = .ok (name, rest)) (tail : List Char) :
    Beyond tail (remaining (readName (front ++ tail))) ∨
      (∃ own again, rest = own ++ ' ' :: more ∧
        readName (front ++ tail) = .ok (again, own ++ tail)) ∨
      ∃ stop, readName (front ++ tail) = .error ('"' :: stop) := by
  -- The name is bare or in quotes, and only the latter may hold the blank behind the front.
  obtain ⟨lexeme, passes, spelled⟩ := readName_eq_ok_iff.mp read
  rw [Passes.single_iff_skipBlanks spelled.solid, skipBlanks_append_of_not_blank solid] at passes
  have front_eq : ∀ tail, skipBlanks (front ++ tail) = skipBlanks front ++ tail :=
    skipBlanks_append_of_not_blank solid
  cases spelled with
  | bare bare longest =>
    obtain ⟨own, split, rfl⟩ := split_at_blank (noBlank_of_isBareName bare) passes
    cases own with
    | nil =>
      -- All of the front is the name, and it takes more characters behind the front as well.
      obtain ⟨whole, all, stops⟩ :=
        takeWhile_dropWhile_iff.mp ⟨@rfl _ (tail.takeWhile continuesName), rfl⟩
      have longer := SpellsName.bare (isBareName_append bare all) stops
      have taken : readName (front ++ tail) =
          .ok (name ++ tail.takeWhile continuesName, tail.dropWhile continuesName) := by
        refine readName_eq_ok_iff.mpr ⟨_,
          (Passes.single_iff_skipBlanks longer.solid).mpr ?_, longer⟩
        rw [front_eq, split, List.append_nil, List.append_assoc, ← whole]
      rw [taken]
      exact .inl (beyond_of_suffix (List.dropWhile_suffix _))
    | cons c own =>
      -- A character behind the name ends it, whatever follows.
      have again := @SpellsName.bare name (c :: own ++ tail) bare longest
      refine .inr (.inl ⟨c :: own, name, rfl, readName_eq_ok_iff.mpr ⟨name, ?_, again⟩⟩)
      rw [Passes.single_iff_skipBlanks again.solid, front_eq, split, List.append_assoc]
  | @quoted text _ quotable =>
    by_cases inside : '"' :: text ++ ['"'] <+: skipBlanks front
    · -- The closing quote is part of the front.
      obtain ⟨own, split⟩ := inside
      rw [← split, List.append_assoc] at passes
      have again := @SpellsName.quoted text (own ++ tail) quotable
      refine .inr (.inl ⟨own, unescape text, (List.append_cancel_left passes).symm,
        readName_eq_ok_iff.mpr ⟨_, ?_, again⟩⟩)
      rw [Passes.single_iff_skipBlanks again.solid, front_eq, ← split, List.append_assoc]
    · -- The closing quote lies behind the front, if there is one at all.
      have starts : skipBlanks front <+: '"' :: text := by
        rcases List.append_eq_append_iff.mp passes with ⟨part, lexeme, -⟩ | ⟨own, split, -⟩
        · rcases List.prefix_concat_iff.mp ⟨part, lexeme.symm⟩ with all | starts
          · exact absurd ⟨[], by rw [all, List.append_nil]⟩ inside
          · exact starts
        · exact absurd ⟨own, split.symm⟩ inside
      obtain ⟨token, opened, part, rfl⟩ : ∃ token, skipBlanks front = '"' :: token ∧
          token <+: text := by
        cases found : skipBlanks front with
        | nil => exact absurd (skipBlanks_eq_nil_iff.mp found) solid
        | cons c token =>
          rw [found] at starts
          obtain ⟨rfl, inner⟩ := List.cons_prefix_cons.mp starts
          exact ⟨token, rfl, inner⟩
      have next : nameToken (skipBlanks (front ++ tail)) = quotedName (token ++ tail) := by
        rw [front_eq, opened]
        rfl
      rw [readName, next]
      -- A quote that is never closed is refused where it was opened.
      cases read : quotedName (token ++ tail) with
      | none =>
        rw [front_eq, opened]
        exact .inr (.inr ⟨_, rfl⟩)
      | some pair => exact .inl (beyond_of_suffix (suffix_of_quotedName quotable read))

end Tokens

section Readers

/-- Intervals are read in agreement. -/
theorem agree_readBounds : Agree readBounds readBounds := by
  -- The bounds are read in five steps, which the definition makes one after the other.
  have steps : readBounds = fun text => readWord "[" text >>= fun text =>
    Except.ok (readNumeral? text) >>= fun lower =>
      readWord "," lower.2 >>= fun text => Except.ok (readNumeral? text) >>= fun upper =>
        readWord ")" upper.2 >>= fun text => .ok (⟨lower.1, upper.1⟩, text) := rfl
  rw [steps]
  -- The marks hold no blanks, and a number that may be left out is found again or left out again.
  refine .word ?_ (by decide)
  refine .bind agree_readNumeral? fun lower lower' => ?_
  dsimp only
  refine .word ?_ (by decide)
  refine .bind agree_readNumeral? fun upper upper' => ?_
  dsimp only
  exact .word (.done _ _) (by decide)

/-- Steps are read in agreement. -/
theorem agree_readStep : Agree readStep readStep := by
  -- The keyword decides which of the two ways is gone.
  have steps : readStep = fun text =>
    (readWord "step" text).toOption.elim (.ok (none, text)) fun text =>
      (readNumeral text).map fun pair => (some pair.1, pair.2) := by
    funext text
    unfold readStep
    cases readWord "step" text <;> rfl
  rw [steps]
  exact .orElse (agree_readNumeral.map some some) (.done _ _) (by decide)

/-- Counts and sizes are read in agreement. -/
theorem agree_readExtent : Agree readExtent readExtent := by
  -- Two keywords and two numbers follow each other.
  refine .word ?_ (by decide)
  refine .bind agree_readNumeral fun count count' => ?_
  refine .word ?_ (by decide)
  exact .bind agree_readNumeral fun size size' => .done _ _

/-- Axes are read in agreement, although each of them tells its own place. -/
theorem agree_readAxis : Agree readAxis readAxis := by
  -- Only the place where an axis begins differs between two texts, and it is not looked at again.
  have placed : ∀ before before' : Nat,
      Agree (fun text => readNumeral text >>= fun start => readStep start.2 >>= fun step =>
        readExtent step.2 >>= fun extent =>
          .ok ((⟨start.1, step.1, extent.1.1, extent.1.2, before, extent.2.length⟩ : AxisPhrase),
            extent.2))
        (fun text => readNumeral text >>= fun start => readStep start.2 >>= fun step =>
          readExtent step.2 >>= fun extent =>
          .ok ((⟨start.1, step.1, extent.1.1, extent.1.2, before', extent.2.length⟩ : AxisPhrase),
            extent.2)) := by
    intro before before'
    -- The parts are read alike one after the other.
    refine .bind agree_readNumeral fun start start' => ?_
    dsimp only
    refine .bind agree_readStep fun step step' => ?_
    dsimp only
    exact .bind agree_readExtent fun extent extent' => .done _ _
  exact ⟨fun text => (placed 0 _).suffix text, fun solid read tail =>
    (placed _ _).follows solid read tail⟩

/-- Reads axes, as long as there are no more of them than a limit. -/
def readFewAxes : Nat → Rest → Except Rest (List AxisPhrase × Rest)
  -- The limit takes the place of the shrinking text, so that the induction can be on a number.
  | 0, text => .error text
  | limit + 1, text => readAxis text >>= fun first =>
    (readWord "," first.2).toOption.elim (readWord ")" first.2 >>= fun text =>
      .ok ([first.1], text)) fun text =>
      (readFewAxes limit text).map fun others => (first.1 :: others.1, others.2)

/-- A limit above the length of the text is no limit, as every axis takes some of the text. -/
theorem readFewAxes_eq {limit : Nat} {text : List Char} (enough : text.length < limit) :
    readFewAxes limit text = readAxes text := by
  -- Every axis is at least one character long, so the limit is never reached.
  induction limit generalizing text with
  | zero => exact absurd enough (Nat.not_lt_zero _)
  | succ limit ih =>
    rw [readFewAxes]
    cases first : readAxis text with
    -- Where the first axis fails, both readers stop.
    | error stop =>
      rw [readAxes]
      split
      · rename_i failed
        cases first.symm.trans failed
        rfl
      · rename_i found
        cases first.symm.trans found
    | ok pair =>
      obtain ⟨axis, behind⟩ := pair
      cases comma : readWord "," behind with
      -- Behind a comma the text is shorter, and the limit is still larger than its length.
      | ok next =>
        have shorter := readAxis_length first
        have less := readWord_length comma
        have later : next.length < limit := by
          dsimp only at shorter
          omega
        rw [readAxes_of_comma first comma, ← ih later]
        simp only [Bind.bind, Except.bind, comma]
        rfl
      -- Without a comma, the closing mark is looked for in both.
      | error stop =>
        rw [readAxes_of_last first comma, Agree.map_eq_bind]
        simp only [Bind.bind, Except.bind, comma]
        rfl

/-- Axes are read in agreement up to any number of them. -/
theorem agree_readFewAxes (limit : Nat) : Agree (readFewAxes limit) (readFewAxes limit) := by
  -- One more axis is one more step, followed by a choice between the comma and the closing mark.
  induction limit with
  | zero =>
    refine ⟨fun text => List.suffix_refl text, ?_⟩
    intro front more rest found _ read
    cases read
  | succ limit ih =>
    refine .bind agree_readAxis fun axis axis' => ?_
    dsimp only
    exact .orElse (ih.map _ _) (.word (.done _ _) (by decide)) (by decide)

/-- Lists of axes are read in agreement. -/
theorem agree_readAxes : Agree readAxes readAxes where
  suffix text := by
    rw [← readFewAxes_eq (Nat.lt_succ_self text.length)]
    exact (agree_readFewAxes _).suffix text
  follows := by
    intro front more rest axes solid read tail
    -- One limit is enough for both texts.
    let limit := (front ++ ' ' :: more).length + (front ++ tail).length + 1
    have first : readFewAxes limit (front ++ ' ' :: more) = readAxes (front ++ ' ' :: more) :=
      readFewAxes_eq (by omega)
    have second : readFewAxes limit (front ++ tail) = readAxes (front ++ tail) :=
      readFewAxes_eq (by omega)
    rw [← first] at read
    rw [← second]
    exact (agree_readFewAxes limit).follows solid read tail

/-- Element sizes are read in agreement. -/
theorem agree_readElement : Agree readElement readElement := by
  -- The keyword decides which of the two ways is gone.
  have steps : readElement = fun text =>
    (readWord "elem" text).toOption.elim (.ok (none, text)) fun text =>
      (readNumeral text).map fun pair => (some pair.1, pair.2) := by
    funext text
    unfold readElement
    cases readWord "elem" text <;> rfl
  rw [steps]
  exact .orElse (agree_readNumeral.map some some) (.done _ _) (by decide)

/-- Arrays are read in agreement. -/
theorem agree_readDims : Agree readDims readDims := by
  -- A mark, the axes and the element size follow each other.
  refine .word ?_ (by decide)
  refine .bind agree_readAxes fun axes axes' => ?_
  exact .bind agree_readElement fun element element' => .done _ _

/-- Intervals with the word for them are read in agreement. -/
theorem agree_readInterval? : Agree readInterval? readInterval? := by
  -- The keyword decides whether there is an interval.
  have steps : readInterval? = fun text =>
      (readWord "bytes" text).toOption.elim (.ok ({}, text)) readBounds := by
    funext text
    unfold readInterval?
    cases readWord "bytes" text <;> rfl
  rw [steps]
  exact .orElse agree_readBounds (.done _ _) (by decide)

/-- What follows a name is read in agreement. -/
theorem agree_readForm : Agree readForm readForm := by
  -- The three keywords are tried in order, and each choice is one of two ways.
  have steps : readForm = fun text => (readWord "bytes" text).toOption.elim
      ((readWord "dims" text).toOption.elim
        (readWord "whole" text >>= fun text => (readInterval? text).map fun pair =>
          (FormPhrase.whole pair.1, pair.2)) readDims)
      fun text => (readBounds text).map fun pair => (.bytes pair.1, pair.2) := by
    funext text
    unfold readForm
    cases readWord "bytes" text with
    | ok behind => rfl
    | error stop =>
      cases readWord "dims" text with
      | ok behind => rfl
      | error stop => cases readWord "whole" text <;> rfl
  rw [steps]
  -- The last keyword is not optional, so it is read as a step.
  exact .orElse (agree_readBounds.map _ _)
    (.orElse agree_readDims (.word (agree_readInterval?.map _ _) (by decide)) (by decide))
      (by decide)

end Readers

/-- A text that can be completed is read to its end, whatever follows it, unless it
breaks off in a quoted name. -/
theorem suffix_of_completable {front tail stop : List Char} (completable : Completable front)
    (failed : Phrase.read (front ++ tail) = .error stop) (noQuote : stop.head? ≠ some '"') :
    stop <:+ tail := by
  obtain ⟨before, split, -, tight⟩ := completable_of_read failed
  -- No blank follows the stop, so it is enough that it lies beyond the front.
  suffices beyond : Beyond tail stop by
    rw [Beyond, tight] at beyond
    exact beyond
  by_cases blank : Blank front
  · exact beyond_of_blank blank (split ▸ List.suffix_append _ _)
  obtain ⟨more, phrase, spelled⟩ := completable
  have read := read_eq_ok_iff.mpr spelled
  unfold Phrase.read at read
  obtain ⟨⟨name, behind⟩, named, read⟩ := bind_eq_ok_iff.mp read
  obtain ⟨⟨form, rest⟩, formed, read⟩ := bind_eq_ok_iff.mp read
  -- Only blanks are left where the completed text has been read.
  have ended : Blank rest := by
    dsimp only at read
    split at read
    · rename_i ended
      exact skipBlanks_eq_nil_iff.mp ended
    · cases read
  rcases read_error_cases failed with nameless | ⟨other, next, renamed, later⟩
  · -- Without a name reading stops at the first token, which is no open quote.
    rcases readName_follows blank named tail with beyond | ⟨own, again, -, same⟩ |
      ⟨quoted, unclosed⟩
    · rw [nameless] at beyond
      exact beyond
    · cases nameless.symm.trans same
    · cases nameless.symm.trans unclosed
      exact absurd rfl noQuote
  have inForm : stop <:+ remaining (readForm next) := by
    rcases later with failed | ⟨form, rest, formed, rfl⟩
    · rw [failed]
      exact List.suffix_refl _
    · rw [formed]
      exact List.dropWhile_suffix _
  rcases readName_follows blank named tail with beyond | ⟨own, again, rfl, same⟩ |
    ⟨quoted, unclosed⟩
  · rw [renamed] at beyond
    exact beyond.of_suffix (inForm.trans (agree_readForm.suffix next))
  · cases renamed.symm.trans same
    rcases agree_readForm.go formed tail with beyond | ⟨own, again, rfl, reformed⟩
    · exact beyond.of_suffix inForm
    · -- Both forms end at the same place, and there are only blanks up to the end of the front.
      have blank : Blank own := fun c member => ended c (List.mem_append_left _ member)
      rw [reformed] at inForm
      exact beyond_of_blank blank inForm
  · cases renamed.symm.trans unclosed

end Phrase

section Places

/-- A place, given by its line and column, is that of an offset in a text. Lines are counted by
their newlines, and columns from the last newline on. -/
structure PlacedAt (text : List Char) (offset : Nat) (line column : Int) : Prop where
  -- Lines are counted by the line breaks in front of the place.
  within : offset ≤ text.length
  line : line = 1 + (text.take offset).count '\n'
  -- The column counts the characters behind the last of them.
  column : ∃ lines own, text.take offset = lines ++ own ∧
    (lines = [] ∨ ∃ earlier, lines = earlier ++ ['\n']) ∧
    '\n' ∉ own ∧ column = 1 + own.length

/-- The place before a rest is that of the offset where the rest starts. -/
theorem placedAt_placeBefore (front rest : List Char) :
    PlacedAt (front ++ rest) front.length (placeBefore (front ++ rest) rest.length).1
      (placeBefore (front ++ rest) rest.length).2 := by
  -- The text up to the place is the front.
  have taken : (front ++ rest).take ((front ++ rest).length - rest.length) = front := by simp
  unfold placeBefore
  rw [taken]
  refine ⟨by simp, by simp [Int.add_comm], ?_⟩
  -- The last line is what the characters from the end show up to a newline.
  obtain ⟨split, all, stops⟩ :=
    takeWhile_dropWhile_iff.mp ⟨@rfl _ (front.reverse.takeWhile (· ≠ '\n')), rfl⟩
  refine ⟨(front.reverse.dropWhile (· ≠ '\n')).reverse,
    (front.reverse.takeWhile (· ≠ '\n')).reverse, ?_, ?_, ?_, ?_⟩
  · rw [← List.reverse_append, ← split]
    simp
  · -- The line begins after a newline, or with the text.
    cases earlier : front.reverse.dropWhile (· ≠ '\n') with
    | nil => exact .inl rfl
    | cons c earlier' =>
      rw [earlier] at stops
      have newline := stops c rfl
      simp only [ne_eq, decide_not, Bool.not_eq_false', decide_eq_true_eq] at newline
      exact .inr ⟨earlier'.reverse, by rw [List.reverse_cons, newline]⟩
  · -- There is no newline in the last line.
    intro member
    simpa using all '\n' (List.mem_reverse.mp member)
  · rw [List.length_reverse, Int.add_comm]
    rfl

/-- A last line is no shorter than another one that ends the same text. -/
theorem lastLine_le {lines own lines' own' : List Char} (same : lines ++ own = lines' ++ own')
    (ends : lines = [] ∨ ∃ earlier, lines = earlier ++ ['\n']) (oneLine : '\n' ∉ own') :
    own'.length ≤ own.length := by
  rcases List.append_eq_append_iff.mp same with ⟨more, -, rfl⟩ | ⟨more, split, rfl⟩
  · simp
  · -- A newline at the end of the lines would be part of the longer line.
    rcases List.eq_nil_or_concat more with rfl | ⟨more, c, rfl⟩
    · simp
    · rcases ends with rfl | ⟨earlier, rfl⟩
      · simp at split
      · rw [List.concat_eq_append, ← List.append_assoc] at split
        obtain ⟨-, newline⟩ := List.append_inj' split rfl
        cases newline
        exact absurd (by simp) oneLine

/-- No further offset has the same place. -/
theorem PlacedAt.le {text : List Char} {offset other : Nat} {line column : Int}
    (placed : PlacedAt text offset line column) (again : PlacedAt text other line column) :
    other ≤ offset := by
  by_contra later
  -- The characters between both offsets hold no newline, so they make the last line longer.
  obtain ⟨distance, rfl⟩ := Nat.exists_eq_add_of_le (Nat.le_of_not_le later)
  have split := List.take_add (l := text) (i := offset) (j := distance)
  obtain ⟨lines, own, front, ends, oneLine, column⟩ := placed.column
  obtain ⟨lines', own', front', ends', oneLine', column'⟩ := again.column
  -- The same line has as many newlines in front of it.
  have newlines := placed.line.symm.trans again.line
  rw [split, List.count_append] at newlines
  have between : '\n' ∉ (text.drop offset).take distance := List.count_eq_zero.mp (by omega)
  have longer : (own ++ (text.drop offset).take distance).length ≤ own'.length := by
    refine @lastLine_le lines' _ lines _ ?_ ends' ?_
    · rw [← front', split, front, List.append_assoc]
    · rw [List.mem_append, not_or]
      exact ⟨oneLine, between⟩
  have within := again.within
  rw [List.length_append, List.length_take, List.length_drop] at longer
  omega

end Places

/-- Only at the end of a text the end is what was not expected. -/
theorem unexpectedMessage_eq_end_iff {rest : List Char} :
    unexpectedMessage rest = "unexpected end of location" ↔ rest = [] := by
  constructor
  · intro message
    cases rest with
    | nil => rfl
    | cons c rest =>
      -- The texts differ right behind the first word.
      rw [unexpectedMessage] at message
      split at message
      · simpa using congrArg String.toList message
      · simpa using congrArg String.toList message
  · rintro rfl
    rfl

/-- A text that spells no phrase is refused with a report that points at one offset of the text.
What comes before it can be completed to the text of a phrase, and the report names the end of
the text exactly when the offset is its end. Nothing beyond the offset could be completed,
unless a quote is open there. -/
theorem readRegion_furthest (file text : String)
    (ungrammatical : ¬ ∃ phrase : Phrase, phrase.Spelled text.toList) :
    ∃ (report : SourceError) (offset : Nat) (line column : Int), RefusedWith file text report ∧
      report.diagnostic.code = some "E0101" ∧
        report.diagnostic.span = some ⟨file, line, column, 0, 0⟩ ∧
      PlacedAt text.toList offset line column ∧
        (∀ other, PlacedAt text.toList other line column → other = offset) ∧
      Completable (text.toList.take offset) ∧
      (report.diagnostic.message = "unexpected end of location" ↔ offset = text.toList.length) ∧
      (text.toList[offset]? ≠ some '"' →
        ∀ further, offset < further → further ≤ text.toList.length →
          ¬ Completable (text.toList.take further)) := by
  -- The text was read or refused, and what is read has a spelling.
  obtain ⟨phrase, failed⟩ | ⟨stop, failed⟩ : (∃ phrase, Phrase.read text.toList = .ok phrase) ∨
      ∃ stop, Phrase.read text.toList = .error stop := by
    cases Phrase.read text.toList with
    | ok phrase => exact .inl ⟨phrase, rfl⟩
    | error stop => exact .inr ⟨stop, rfl⟩
  · exact absurd ⟨phrase, Phrase.read_eq_ok_iff.mp failed⟩ ungrammatical
  obtain ⟨front, split, completable, -⟩ := Phrase.completable_of_read failed
  have refused : readRegion text = .error (.unexpected stop) := by rw [readRegion, failed]
  have placed := placedAt_placeBefore front stop
  rw [← split] at placed
  refine ⟨_, front.length, _, _, ⟨_, refused, rfl⟩, rfl, rfl, placed, ?_, ?_, ?_, ?_⟩
  · -- Two offsets of one place are equal.
    intro other again
    exact Nat.le_antisymm (placed.le again) (again.le placed)
  · -- What stands in front of the error can be completed.
    rw [split, List.take_left]
    exact completable
  · -- The end of the text is reported as such.
    rw [split, List.length_append]
    exact unexpectedMessage_eq_end_iff.trans (by rw [← List.length_eq_zero_iff]; omega)
  · -- A longer front that can be completed would have been read to its end.
    intro noQuote further beyond within longer
    rw [split, List.getElem?_append_right (Nat.le_refl _), Nat.sub_self, ← List.head?_eq_getElem?]
      at noQuote
    rw [← List.take_append_drop further text.toList] at failed
    have ends := (Phrase.suffix_of_completable longer failed noQuote).length_le
    have whole := congrArg List.length split
    rw [List.length_drop] at ends
    rw [List.length_append] at whole
    omega

/-- A comma is missing on the second line, an axis breaks off at the end, and an
open quote is never closed. -/
theorem readRegion_furthest_places :
    let offsets (text : String) (offset : Nat) (line column : Int) : Prop :=
      ∃ report, RefusedWith "stdin" text report ∧
        report.diagnostic.span = some ⟨"stdin", line, column, 0, 0⟩ ∧
        PlacedAt text.toList offset line column ∧ Completable (text.toList.take offset) ∧
        (report.diagnostic.message = "unexpected end of location" ↔ offset = text.toList.length)
    offsets "A bytes\n  [0 8)" 13 2 6 ∧ offsets "A dims(0 count\n" 15 2 1 ∧
      offsets " \"A whole" 1 1 2 := by
  intro offsets
  -- The place in the report is computed, and it is that of the offset that the theorem tells.
  have settle : ∀ (text : String) (rest : List Char) (offset : Nat) (line column : Int),
      readRegion text = .error (.unexpected rest) →
        placeBefore text.toList rest.length = (line, column) →
      PlacedAt text.toList offset line column → offsets text offset line column := by
    intro text rest offset line column failed place placed
    obtain ⟨report, told, line', column', ⟨error, refused, shown⟩, -, span, -, unique, completable,
        message, -⟩ :=
      readRegion_furthest "stdin" text (readRegion_eq_unexpected_iff.mp ⟨rest, failed⟩)
    cases failed.symm.trans refused
    have pointed : report.diagnostic.span = some ⟨"stdin", line, column, 0, 0⟩ := by
      rw [PhraseError.sourceError?, place] at shown
      cases shown
      rfl
    rw [pointed] at span
    cases span
    obtain rfl := unique offset placed
    exact ⟨report, ⟨_, failed, shown⟩, pointed, placed, completable, message⟩
  -- Each of the three texts stops at its own place.
  refine ⟨settle _ "8)".toList 13 2 6 (by decide +kernel) (by decide) ⟨by decide, by decide, ?_⟩,
    settle _ [] 15 2 1 (by decide +kernel) (by decide) ⟨by decide, by decide, ?_⟩,
    settle _ "\"A whole".toList 1 1 2 (by decide +kernel) (by decide) ⟨by decide, by decide, ?_⟩⟩
  · exact ⟨"A bytes\n".toList, "  [0 ".toList, by decide,
      .inr ⟨"A bytes".toList, by decide⟩, by decide, by decide⟩
  · exact ⟨"A dims(0 count\n".toList, [], by decide,
      .inr ⟨"A dims(0 count".toList, by decide⟩, by decide, by decide⟩
  · exact ⟨[], " ".toList, by decide, .inl rfl, by decide, by decide⟩

end Overlap
