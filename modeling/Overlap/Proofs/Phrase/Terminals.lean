import Overlap.Proofs.Phrase.Writing

/-! The terminals of names as patterns, apart from the scanner that reads names. A written
name is the one lexeme that they take from the front of a text, and it stands for the
name, if that lies on one line. -/

namespace Overlap

/-- A place in a text: the characters in front of it, the last one first, and those behind it. -/
structure Place where
  -- What was passed is kept backwards, so that its last character is at hand.
  passed : List Char
  rest : List Char

namespace Place

/-- The places that are reached by going on any number of times, where going on further is tried
first. Every step has to come closer to the end of the text. -/
def greedily (step : Place → List Place) (place : Place) : List Place :=
  -- All ways of going on come before stopping here, and a step that takes nothing is not repeated.
  (step place).flatMap (fun next => if next.rest.length < place.rest.length then greedily step next
    else []) ++ [place]
termination_by place.rest.length

/-- The places that are reached by going on any number of times, where staying is tried first. -/
def lazily (step : Place → List Place) (place : Place) : List Place :=
  -- Stopping here comes before all ways of going on.
  place :: (step place).flatMap fun next => if next.rest.length < place.rest.length then
    lazily step next else []
termination_by place.rest.length

end Place

/-- Patterns of lexemes. -/
inductive Pattern where
  /-- One character of a class. -/
  | one (accepts : Char → Bool)
  /-- Nothing, but not behind the given character. -/
  | notAfter (c : Char)
  /-- One pattern and then another. -/
  | seq (first second : Pattern)
  /-- A pattern any number of times, where more is tried first. -/
  | greedy (body : Pattern)
  /-- A pattern any number of times, where less is tried first. -/
  | lazy (body : Pattern)

namespace Pattern

/-- The places that a pattern leads to, in the order in which they are tried. -/
def places : Pattern → Place → List Place
  | one accepts, ⟨passed, c :: rest⟩ => if accepts c then [⟨c :: passed, rest⟩] else []
  -- A class takes exactly one character, and there is none at the end.
  | one _, ⟨_, []⟩ => []
  -- Looking back takes nothing.
  | notAfter c, place => if place.passed.head? = some c then [] else [place]
  -- The places keep the order of the first pattern, and for each of them that of the second.
  | seq first second, place => (first.places place).flatMap second.places
  | greedy body, place => place.greedily body.places
  | lazy body, place => place.lazily body.places

/-- The lexeme that a pattern takes from the front of a text, and the text behind it. -/
def take? (pattern : Pattern) (text : List Char) : Option (List Char × List Char) :=
  -- The first place counts, as a search that fails goes back to the next one.
  (pattern.places ⟨[], text⟩).head?.map fun place => (place.passed.reverse, place.rest)

section Repetition

variable {accepts : Char → Bool} {c : Char} {passed rest : List Char} {place : Place}
  {first second body : Pattern}

@[simp] theorem places_one_nil : (one accepts).places ⟨passed, []⟩ = [] :=
  -- A class needs a character.
  rfl

@[simp] theorem places_one_cons :
    (one accepts).places ⟨passed, c :: rest⟩ = if accepts c then [⟨c :: passed, rest⟩]
      -- The character decides on its own.
      else [] := rfl

@[simp] theorem places_notAfter :
    -- Only the last passed character is looked at.
    (notAfter c).places place = if place.passed.head? = some c then [] else [place] := rfl

@[simp] theorem places_seq :
    -- Going on starts from each place in turn.
    (seq first second).places place = (first.places place).flatMap second.places := rfl

theorem places_greedy : (greedy body).places place = (body.places place).flatMap (fun next =>
    if next.rest.length < place.rest.length then (greedy body).places next else []) ++ [place] := by
  -- One round is unfolded, and the rest is the same pattern again.
  rw [places, Place.greedily]
  rfl

theorem places_lazy : (lazy body).places place = place :: (body.places place).flatMap fun next =>
    if next.rest.length < place.rest.length then (lazy body).places next else [] := by
  -- One round is unfolded, and the rest is the same pattern again.
  rw [places, Place.lazily]
  rfl

/-- Of a repeated class as much as possible is taken first. -/
theorem head?_places_greedy (passed rest : List Char) :
    ((greedy (one accepts)).places ⟨passed, rest⟩).head? =
      some ⟨(rest.takeWhile accepts).reverse ++ passed, rest.dropWhile accepts⟩ := by
  -- The place moves along with the text, so what was passed stays quantified over.
  induction rest generalizing passed with
  | nil =>
    rw [places_greedy]
    simp
  | cons c rest ih =>
    rw [places_greedy]
    by_cases accepted : accepts c <;> simp [accepted, ih]

/-- A repeated class takes nothing at first, and then one character more at a time. -/
theorem places_lazy_cons : (lazy (one accepts)).places ⟨passed, c :: rest⟩ =
    ⟨passed, c :: rest⟩ :: if accepts c then (lazy (one accepts)).places ⟨c :: passed, rest⟩
      else [] := by
  -- One character makes the text shorter, so the pattern may go on behind it.
  rw [places_lazy]
  by_cases accepted : accepts c <;> simp [accepted]

theorem places_lazy_nil : (lazy (one accepts)).places ⟨passed, []⟩ = [⟨passed, []⟩] := by
  -- At the end of the text only stopping is left.
  rw [places_lazy]
  simp

end Repetition

end Pattern

section Quoted

/-- Pairs of backslashes, as few as possible, and then a quote: `(\\\\)*?"`. -/
def closingPattern : Pattern :=
  -- Backslashes in pairs protect each other, and leave the quote unprotected.
  .seq (.lazy (.seq (.one (· = '\\')) (.one (· = '\\')))) (.one (· = '"'))

/-- As few characters of a line as possible up to a place that is not behind a backslash, and then
the closing quote: `.*?(?<!\\)(\\\\)*?"`. -/
def openedPattern : Pattern :=
  -- The characters in front of the pairs must not end with a backslash.
  .seq (.lazy (.one (· ≠ '\n'))) (.seq (.notAfter '\\') closingPattern)

/-- The quotes that start and end at two places enclose a quotable text. -/
def Encloses (start finish : Place) : Prop :=
  -- The text between two places is a name that can be quoted, and the
  -- quote behind it is passed too.
  ∃ text, Quotable text ∧ start.rest = text ++ '"' :: finish.rest ∧
    finish.passed = '"' :: text.reverse ++ start.passed

variable {c : Char} {passed rest : List Char} {finish : Place}

/-- A quote ends the quoted text where it starts. -/
theorem encloses_quote :
    Encloses ⟨passed, '"' :: rest⟩ finish ↔ finish = ⟨'"' :: passed, rest⟩ := by
  constructor
  · intro encloses
    obtain ⟨text, quotable, whole, behind⟩ := encloses
    -- A quotable text cannot hold the quote as its first character, so it is empty.
    cases text with
    | nil =>
      obtain ⟨front, rest⟩ := finish
      simp_all
    | cons d text =>
      obtain ⟨rfl, -⟩ := List.cons.inj whole
      exact absurd rfl ((quotable_cons (by decide)).mp quotable).1
  · rintro rfl
    exact ⟨[], quotable_nil, rfl, rfl⟩

/-- A backslash and the character behind it belong to the quoted text together. -/
theorem encloses_pair :
    Encloses ⟨passed, '\\' :: c :: rest⟩ finish ↔
      c ≠ '\n' ∧ Encloses ⟨c :: '\\' :: passed, rest⟩ finish := by
  constructor
  · intro encloses
    obtain ⟨text, quotable, whole, behind⟩ := encloses
    -- The text holds the backslash and also the character behind it, or the closing
    -- quote would be protected.
    cases text with
    | nil => simp at whole
    | cons d text =>
      obtain ⟨rfl, inner⟩ := List.cons.inj whole
      cases text with
      | nil => exact absurd quotable not_quotable_backslash
      | cons e text =>
        obtain ⟨rfl, further⟩ := List.cons.inj inner
        obtain ⟨sameLine, quotable⟩ := quotable_pair.mp quotable
        exact ⟨sameLine, text, quotable, further, by simp [behind]⟩
  · intro encloses
    obtain ⟨sameLine, text, quotable, whole, behind⟩ := encloses
    exact ⟨'\\' :: c :: text, quotable_pair.mpr ⟨sameLine, quotable⟩,
      congrArg (['\\', c] ++ ·) whole, by simp [behind]⟩

/-- Any other character of the line belongs to the quoted text. -/
theorem encloses_cons (plain : c ≠ '\\') (noQuote : c ≠ '"') :
    Encloses ⟨passed, c :: rest⟩ finish ↔ c ≠ '\n' ∧ Encloses ⟨c :: passed, rest⟩ finish := by
  -- A plain character at the front can be put into the name or taken out of it.
  constructor
  · intro encloses
    obtain ⟨text, quotable, whole, behind⟩ := encloses
    cases text with
    | nil => exact absurd (List.cons.inj whole).1 noQuote
    | cons d text =>
      obtain ⟨rfl, further⟩ := List.cons.inj whole
      obtain ⟨-, sameLine, quotable⟩ := (quotable_cons plain).mp quotable
      exact ⟨sameLine, text, quotable, further, by simp [behind]⟩
  · intro encloses
    obtain ⟨sameLine, text, quotable, whole, behind⟩ := encloses
    exact ⟨c :: text, (quotable_cons plain).mpr ⟨noQuote, sameLine, quotable⟩,
      congrArg (c :: ·) whole, by simp [behind]⟩

/-- A backslash at the end of a text is no quoted text. -/
theorem not_encloses_backslash : ¬ Encloses ⟨passed, ['\\']⟩ finish := by
  -- A name would have to end with a quote, and there is none.
  intro encloses
  obtain ⟨text, -, whole, -⟩ := encloses
  cases text <;> simp at whole

/-- The end of a quoted text is settled by its start. -/
theorem Encloses.unique {start other : Place} (encloses : Encloses start finish)
    (again : Encloses start other) :
    finish = other := by
  obtain ⟨text, quotable, whole, behind⟩ := encloses
  obtain ⟨more, moreQuotable, same, moreBehind⟩ := again
  -- The reader finds one end only, and the text in front of it is the same then.
  have read := quotedName_of_quotable quotable finish.rest
  rw [← whole, same, quotedName_of_quotable moreQuotable] at read
  have rest : other.rest = finish.rest := congrArg Prod.snd (Option.some.inj read)
  rw [same, rest] at whole
  have texts := List.append_cancel_right whole
  obtain ⟨front, back⟩ := finish
  obtain ⟨otherFront, otherBack⟩ := other
  simp_all

/-- A pair of backslashes in front of the closing quote is passed. -/
theorem head?_places_closing_pair :
    (closingPattern.places ⟨passed, '\\' :: '\\' :: rest⟩).head? =
      (closingPattern.places ⟨'\\' :: '\\' :: passed, rest⟩).head? := by
  simp only [closingPattern, Pattern.places_seq, List.head?_flatMap]
  -- No pair at all is tried first, but then there is no quote.
  rw [Pattern.places_lazy]
  simp +arith

/-- The closing quote is taken where it stands. -/
theorem head?_places_closing_quote :
    (closingPattern.places ⟨passed, '"' :: rest⟩).head? = some ⟨'"' :: passed, rest⟩ := by
  -- No pair of backslashes is needed in front of a quote.
  simp only [closingPattern, Pattern.places_seq, List.head?_flatMap]
  rw [Pattern.places_lazy]
  simp

/-- Anything else does not lead to a closing quote. -/
theorem head?_places_closing_other {text : List Char} (noQuote : text.head? ≠ some '"')
    (noPair : ∀ rest, text ≠ '\\' :: '\\' :: rest) :
    (closingPattern.places ⟨passed, text⟩).head? = none := by
  simp only [closingPattern, Pattern.places_seq, List.head?_flatMap]
  -- Neither a quote nor a pair can be passed, so the repetition stays where it is.
  rw [Pattern.places_lazy]
  cases text with
  | nil => simp
  | cons c text =>
    cases text with
    | nil => simp_all
    | cons d text => simp_all

/-- The closing quote behind pairs of backslashes ends a quoted text. -/
theorem encloses_of_closing {text : List Char}
    (closes : (closingPattern.places ⟨passed, text⟩).head? = some finish) :
    Encloses ⟨passed, text⟩ finish := by
  -- Only pairs are passed, and two characters are taken at a time.
  fun_induction unescape text generalizing passed with
  | case1 c text ih =>
    by_cases pair : c = '\\'
    · -- A protected backslash is passed with the one in front.
      subst pair
      rw [head?_places_closing_pair] at closes
      exact encloses_pair.mpr ⟨by decide, ih closes⟩
    · rw [head?_places_closing_other (by simp) (by simp [pair])] at closes
      cases closes
  | case2 c text noPair ih =>
    by_cases quote : c = '"'
    · -- The quote closes the text here.
      subst quote
      rw [head?_places_closing_quote] at closes
      exact encloses_quote.mpr (Option.some.inj closes).symm
    · rw [head?_places_closing_other (by simpa using quote) ?_] at closes
      · cases closes
      · rintro rest same
        obtain ⟨rfl, rfl⟩ := List.cons.inj same
        exact noPair _ _ rfl rfl
  | case3 =>
    rw [head?_places_closing_other (by simp) (by simp)] at closes
    cases closes

/-- At the end of a text no quote is left. -/
theorem head?_places_opened_nil : (openedPattern.places ⟨passed, []⟩).head? = none := by
  -- There is no quote left to close the name.
  have unclosed : (closingPattern.places ⟨passed, []⟩).head? = none :=
    head?_places_closing_other (by simp) (by simp)
  simp only [openedPattern, Pattern.places_seq, List.head?_flatMap, Pattern.places_lazy_nil]
  by_cases behind : passed.head? = some '\\' <;> simp [behind, unclosed]

/-- The quoted text is closed here, or holds the next character of the line. -/
theorem head?_places_opened_cons : (openedPattern.places ⟨passed, c :: rest⟩).head? =
    (if passed.head? = some '\\' then none
      else (closingPattern.places ⟨passed, c :: rest⟩).head?).or
      (if c = '\n' then none else (openedPattern.places ⟨c :: passed, rest⟩).head?) := by
  -- The name ends here if it can, and otherwise goes on behind the next character.
  simp only [openedPattern, Pattern.places_seq, List.head?_flatMap, Pattern.places_lazy_cons]
  rw [← List.singleton_append, List.findSome?_append]
  -- A backslash in front rules out the first way, and a line break the second.
  by_cases behind : passed.head? = some '\\' <;> by_cases lineEnd : c = '\n' <;>
    simp [behind, lineEnd]

/-- A quoted text is taken up to the quote that ends it. Behind a backslash nothing is closed, so
the search may start there only where no closing quote is missed by that. -/
theorem head?_places_opened_eq_some_iff {text : List Char}
    (missed : passed.head? = some '\\' → (closingPattern.places ⟨passed, text⟩).head? = none) :
    (openedPattern.places ⟨passed, text⟩).head? = some finish ↔ Encloses ⟨passed, text⟩ finish := by
  -- The induction takes a backslash with the character behind it, as the grammar does.
  fun_induction unescape text generalizing passed with
  | case1 c text ih =>
    rw [head?_places_opened_cons, ite_eq_right_iff.mpr fun behind => (missed behind).symm]
    cases closes : (closingPattern.places ⟨passed, '\\' :: c :: text⟩).head? with
    | some place =>
      -- The earliest place is the one where the text is closed.
      have here := encloses_of_closing closes
      rw [Option.some_or]
      constructor
      · intro same
        exact Option.some.inj same ▸ here
      · intro encloses
        exact congrArg some (here.unique encloses)
    | none =>
      -- Nothing is closed between the two characters, and behind them only what was missed already.
      rw [Option.none_or, if_neg (by decide), head?_places_opened_cons, List.head?_cons, if_pos rfl,
        Option.none_or, encloses_pair]
      by_cases lineEnd : c = '\n'
      · simp [lineEnd]
      · have unclosed : c = '\\' →
            (closingPattern.places ⟨c :: '\\' :: passed, text⟩).head? = none := by
          rintro rfl
          rw [← head?_places_closing_pair, closes]
        rw [if_neg lineEnd, ih (fun head => unclosed (Option.some.inj head))]
        simp [lineEnd]
  | case2 c text noPair ih =>
    rw [head?_places_opened_cons, ite_eq_right_iff.mpr fun behind => (missed behind).symm]
    by_cases quote : c = '"'
    · -- The quote closes the text, and nothing earlier could have.
      subst quote
      rw [head?_places_closing_quote, Option.some_or, encloses_quote, Option.some.injEq, eq_comm]
    · have unpaired : ∀ rest, c :: text ≠ '\\' :: '\\' :: rest := by
        rintro rest same
        obtain ⟨rfl, rfl⟩ := List.cons.inj same
        exact noPair _ _ rfl rfl
      rw [head?_places_closing_other (by simpa using quote) unpaired, Option.none_or]
      by_cases plain : c = '\\'
      · -- A backslash that protects nothing would be the last character.
        subst plain
        cases text with
        | nil => simp [head?_places_opened_nil, not_encloses_backslash]
        | cons d text => exact absurd rfl (noPair d text rfl)
      · -- Any other character is passed, unless it ends the line.
        rw [encloses_cons plain quote]
        by_cases lineEnd : c = '\n'
        · simp [lineEnd]
        · rw [if_neg lineEnd, @ih (c :: passed) (by simp [plain])]
          simp [lineEnd]
  | case3 =>
    rw [head?_places_opened_nil]
    simp [Encloses]

end Quoted

/-- The terminals of names. -/
inductive NameTerminal where
  -- Both take a text from the front, and differ in what they make of it.
  | bare
  | quoted
deriving DecidableEq, Repr

namespace NameTerminal

/-- What a terminal takes: `[A-Za-z_%$][A-Za-z0-9_.$]*` or `".*?(?<!\\)(\\\\)*?"`. -/
def pattern : NameTerminal → Pattern
  -- A bare name goes on as long as it can, and a quoted one ends as early as it can.
  | bare => .seq (.one opensName) (.greedy (.one continuesName))
  | quoted => .seq (.one (· = '"')) openedPattern

/-- The name that a lexeme stands for: itself, or what is between its quotes without the backslashes
that protect other characters. -/
def value : NameTerminal → List Char → List Char
  -- The quotes are taken away before the backslashes.
  | bare, lexeme => lexeme
  | quoted, lexeme => unescape lexeme.tail.dropLast

/-- The terminal of a name as it is written. -/
def ofName (name : String) : NameTerminal :=
  -- This is the choice that writing makes.
  if isBareName name.toList && !reservedWords.contains name then bare else quoted

end NameTerminal

/-- The lexeme of a name at the front of a text, with its terminal and the text behind it. -/
def nameLexeme? (text : List Char) : Option (NameTerminal × List Char × List Char) :=
  -- At most one of them fits, since they begin with different characters.
  [NameTerminal.bare, .quoted].findSome? fun terminal =>
    (terminal.pattern.take? text).map (terminal, ·)

section Lexemes

variable {c : Char} {text lexeme rest : List Char}

/-- A quoted name is taken where the grammar has one, up to the quote that ends it. -/
theorem take?_quoted_eq_some_iff :
    NameTerminal.quoted.pattern.take? ('"' :: text) = some (lexeme, rest) ↔
    ∃ inner, Quotable inner ∧ text = inner ++ '"' :: rest ∧ lexeme = '"' :: inner ++ ['"'] := by
  -- Behind the first quote, the search is that of an opened name.
  have opened : NameTerminal.quoted.pattern.take? ('"' :: text) =
      (openedPattern.places ⟨['"'], text⟩).head?.map fun place =>
        (place.passed.reverse, place.rest) := by
    simp [NameTerminal.pattern, Pattern.take?]
  -- The places that it finds enclose a name between the quotes.
  have found (finish : Place) := @head?_places_opened_eq_some_iff ['"'] finish text (by simp)
  simp only [opened, Option.map_eq_some_iff, found, Prod.mk.injEq]
  constructor
  · intro taken
    obtain ⟨finish, ⟨inner, quotable, whole, behind⟩, rfl, rfl⟩ := taken
    exact ⟨inner, quotable, whole, by simp [behind]⟩
  · intro spelled
    obtain ⟨inner, quotable, whole, rfl⟩ := spelled
    exact ⟨⟨'"' :: inner.reverse ++ ['"'], rest⟩, ⟨inner, quotable, whole, rfl⟩, by simp, rfl⟩

/-- Behind a quote only a quoted name can stand. -/
theorem nameLexeme?_quote :
    nameLexeme? ('"' :: text) =
      (NameTerminal.quoted.pattern.take? ('"' :: text)).map (NameTerminal.quoted, ·) := by
  -- A quote opens no bare name.
  have none : NameTerminal.bare.pattern.take? ('"' :: text) = none := by
    simp [NameTerminal.pattern, Pattern.take?, show opensName '"' = false by decide]
  simp [nameLexeme?, none]

/-- Without a quote only a bare name can stand, and it is as long as possible. -/
theorem nameLexeme?_cons (noQuote : c ≠ '"') : nameLexeme? (c :: text) =
    if opensName c then
      some (.bare, c :: text.takeWhile continuesName, text.dropWhile continuesName) else none := by
  -- A character that opens no name leaves both terminals without a match.
  by_cases opens : opensName c <;>
    simp [nameLexeme?, NameTerminal.pattern, Pattern.take?, noQuote, opens,
      Pattern.head?_places_greedy]

/-- A bare name is the lexeme in front of anything that does not continue it. -/
theorem nameLexeme?_bare (bare : isBareName lexeme = true)
    (ends : ∀ c ∈ rest.head?, continuesName c = false) :
    nameLexeme? (lexeme ++ rest) = some (.bare, lexeme, rest) := by
  -- The lexeme ends where its characters end, as the next one does not continue a name.
  cases lexeme with
  | nil => cases bare
  | cons c more =>
    rw [isBareName, Bool.and_eq_true, List.all_eq_true] at bare
    obtain ⟨opens, all⟩ := bare
    have noQuote : c ≠ '"' := by
      rintro rfl
      exact absurd opens (by decide)
    obtain ⟨taken, dropped⟩ := takeWhile_dropWhile_iff.mpr ⟨@rfl _ (more ++ rest), all, ends⟩
    rw [List.cons_append, nameLexeme?_cons noQuote, if_pos opens, taken, dropped]

/-- A quotable text in quotes is the lexeme in front of anything. -/
theorem nameLexeme?_quoted {inner : List Char} (quotable : Quotable inner) (rest : List Char) :
    nameLexeme? ('"' :: inner ++ ['"'] ++ rest) = some (.quoted, '"' :: inner ++ ['"'], rest) := by
  -- The name ends with the first quote that is not protected, which is the one behind it.
  have taken : NameTerminal.quoted.pattern.take? ('"' :: (inner ++ '"' :: rest)) =
      some ('"' :: inner ++ ['"'], rest) :=
    take?_quoted_eq_some_iff.mpr ⟨inner, quotable, rfl, rfl⟩
  rw [List.append_assoc, List.singleton_append, List.cons_append, nameLexeme?_quote, taken]
  rfl

/-- The reader of names takes the lexeme of one of the terminals, and gives
the name that it stands for. -/
theorem nameToken_eq_nameLexeme? (text : List Char) :
    nameToken text = (nameLexeme? text).map fun found => (found.1.value found.2.1, found.2.2) := by
  cases text with
  | nil => simp [nameToken, nameLexeme?, NameTerminal.pattern, Pattern.take?]
  | cons c text =>
    by_cases quote : c = '"'
    · subst quote
      rw [nameLexeme?_quote, Option.map_map]
      -- Both sides find the one quotable text in front of a quote, or none.
      refine Option.ext fun found => ?_
      obtain ⟨name, rest⟩ := found
      constructor
      · intro read
        obtain ⟨inner, rfl, quotable, rfl⟩ := exists_quotable_of_quotedName read
        rw [take?_quoted_eq_some_iff.mpr ⟨inner, quotable, rfl, rfl⟩]
        simp [NameTerminal.value]
      · intro taken
        simp only [Option.map_eq_some_iff, Prod.exists, take?_quoted_eq_some_iff] at taken
        obtain ⟨lexeme, behind, ⟨inner, quotable, rfl, rfl⟩, same⟩ := taken
        obtain ⟨rfl, rfl⟩ : unescape inner = name ∧ behind = rest := by
          simpa [NameTerminal.value] using same
        exact quotedName_of_quotable quotable behind
    · -- A bare name is cut off in the same way on both sides.
      rw [nameLexeme?_cons quote]
      by_cases opens : opensName c <;> simp [nameToken, opens, NameTerminal.value]

end Lexemes

section Written

/-- A text in which each occurrence of one character has a backslash in front of it. -/
def protect (special : Char) (text : List Char) : List Char :=
  -- Other characters stay as they are.
  text.flatMap fun c => if c = special then ['\\', c] else [c]

/-- Escaping a name protects its backslashes, and then its quotes. -/
theorem escapeName_eq_protect (name : List Char) :
    escapeName name = protect '"' (protect '\\' name) := by
  -- The backslashes that protect a backslash are no quotes, so the second round leaves them alone.
  induction name with
  | nil => rfl
  | cons c name ih =>
    have quotes (d : Char) (text : List Char) :
        protect '"' (d :: text) = (if d = '"' then ['\\', d] else [d]) ++ protect '"' text := rfl
    have backslashes : protect '\\' (c :: name) = (if c = '\\' then ['\\', c] else [c]) ++
        protect '\\' name := rfl
    rw [escapeName, ih, backslashes]
    by_cases backslash : c = '\\'
    · simp [backslash, quotes]
    · by_cases quote : c = '"' <;> simp [backslash, quote, quotes]

/-- A name with a line end is not read, whatever stands behind it. -/
theorem quotedName_escapeName_eq_none {name : List Char} (broken : '\n' ∈ name) (rest : List Char) :
    quotedName (escapeName name ++ rest) = none := by
  -- Everything up to the line end is read, with or without a backslash in front of it.
  induction name with
  | nil => cases broken
  | cons c name ih =>
    by_cases lineEnd : c = '\n'
    · simp [escapeName, lineEnd, quotedName]
    · have unread := ih (List.mem_of_ne_of_mem (Ne.symm lineEnd) broken)
      by_cases special : c = '"' ∨ c = '\\'
      · simp [escapeName, special, quotedName, lineEnd, unread]
      · rw [not_or] at special
        simp [escapeName, special, quotedName, lineEnd, unread]

/-- A bare name lies on one line. -/
theorem oneLine_of_isBareName {name : List Char} (bare : isBareName name = true) : '\n' ∉ name := by
  -- Line breaks neither open nor continue a name.
  cases name with
  | nil => cases bare
  | cons c name =>
    rw [isBareName, Bool.and_eq_true, List.all_eq_true] at bare
    intro member
    rcases List.mem_cons.mp member with rfl | member
    · exact absurd bare.1 (by decide)
    · exact absurd (bare.2 _ member) (by decide)

/-- A written name in front of a blank is the one lexeme that the terminals of names take, whatever
stands behind it, and the lexeme stands for the name, which is what the reader gives. The only
exception are names with a line end, which are written in quotes and not taken. Names in quotes have
their backslashes protected, and then their quotes. -/
theorem nameLexeme?_nameText (name : String) (behind : List Char) :
    nameLexeme? ((nameText name).toList ++ ' ' :: behind) =
        (if '\n' ∈ name.toList then none
          else some (.ofName name, (nameText name).toList, ' ' :: behind)) ∧
      (NameTerminal.ofName name).value (nameText name).toList = name.toList ∧
      nameToken ((nameText name).toList ++ ' ' :: behind) =
        (if '\n' ∈ name.toList then none else some (name.toList, ' ' :: behind)) ∧
      (nameText name).toList = if NameTerminal.ofName name = .bare then name.toList
        else '"' :: protect '"' (protect '\\' name.toList) ++ ['"'] := by
  -- The name is written as it is, or escaped and in quotes.
  by_cases plain : (isBareName name.toList && !reservedWords.contains name) = true
  · have terminal : NameTerminal.ofName name = .bare := if_pos plain
    have written : nameText name = name := if_pos plain
    have bare : isBareName name.toList = true := (Bool.and_eq_true_iff.mp plain).1
    have ends : ∀ c ∈ (' ' :: behind).head?, continuesName c = false := by
      rintro c ⟨⟩
      decide
    rw [nameToken_eq_nameLexeme?, written, terminal, nameLexeme?_bare bare ends,
      if_neg (oneLine_of_isBareName bare), if_neg (oneLine_of_isBareName bare), if_pos rfl]
    exact ⟨rfl, rfl, rfl, rfl⟩
  · have terminal : NameTerminal.ofName name = .quoted := if_neg plain
    have written : (nameText name).toList = '"' :: escapeName name.toList ++ ['"'] := by
      rw [nameText, if_neg plain, String.toList_ofList]
    have value : NameTerminal.quoted.value ('"' :: escapeName name.toList ++ ['"']) =
        name.toList := by
      simp [NameTerminal.value, unescape_escapeName]
    rw [nameToken_eq_nameLexeme?, written, terminal, ← escapeName_eq_protect]
    by_cases broken : '\n' ∈ name.toList
    · -- The reader does not come past the line end, and so no terminal does.
      have unread : nameToken ('"' :: escapeName name.toList ++ ['"'] ++ ' ' :: behind) = none := by
        rw [List.append_assoc]
        exact quotedName_escapeName_eq_none broken _
      rw [nameToken_eq_nameLexeme?, Option.map_eq_none_iff] at unread
      simp only [unread, broken, if_true]
      exact ⟨trivial, value, rfl, rfl⟩
    · rw [nameLexeme?_quoted (quotable_escapeName broken)]
      simp only [broken, if_false]
      exact ⟨trivial, value, congrArg some (Prod.ext value rfl), rfl⟩

/-- Protected quotes and backslashes do not end a lexeme early. -/
example : nameLexeme? ['"', '\\', '"', '\\', '\\', '"', ' ', '"'] =
    some (.quoted, ['"', '\\', '"', '\\', '\\', '"'], [' ', '"']) := by
  decide +kernel

end Written

end Overlap
