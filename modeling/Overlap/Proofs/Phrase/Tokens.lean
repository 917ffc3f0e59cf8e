import Mathlib.Data.List.TakeWhile
import Overlap.Phrase.Reader
import Overlap.Proofs.Phrase.Grammar

/-! Single tokens are read exactly where the grammar has them. -/

namespace Overlap

/-- A text is split where a test fails first. -/
theorem takeWhile_dropWhile_iff {p : Char → Bool} {text front rest : List Char} :
    text.takeWhile p = front ∧ text.dropWhile p = rest ↔
      text = front ++ rest ∧ (∀ c ∈ front, p c = true) ∧ ∀ c ∈ rest.head?, p c = false := by
  -- The front ends where the text does or where the test fails, so it cannot be longer or shorter.
  constructor
  · intro split
    -- The two parts make up the text, and the test fails behind the front.
    obtain ⟨rfl, rfl⟩ := split
    refine ⟨List.takeWhile_append_dropWhile.symm, fun c member => ?_, fun c head => ?_⟩
    · exact List.mem_takeWhile_imp member
    · have stops := List.head?_dropWhile_not p text
      rw [Option.mem_def.mp head] at stops
      exact stops
  · intro split
    obtain ⟨rfl, passes, stops⟩ := split
    -- The front passes the test as a whole, and the rest fails at once.
    rw [List.takeWhile_append_of_pos passes, List.dropWhile_append_of_pos passes]
    cases rest with
    | nil => simp
    | cons c rest =>
      have fails : p c = false := stops c rfl
      simp [fails]

section Blanks

/-- The text in front of the first token is blank. -/
theorem exists_blank_append_skipBlanks (text : List Char) :
    ∃ blanks, Blank blanks ∧ text = blanks ++ skipBlanks text :=
  -- The blanks are what skipping takes away.
  ⟨text.takeWhile isBlank, fun _ member => List.mem_takeWhile_imp member,
    List.takeWhile_append_dropWhile.symm⟩

/-- Blanks in front make no difference for the first token. -/
theorem skipBlanks_append {blanks : List Char} (blank : Blank blanks) (text : List Char) :
    skipBlanks (blanks ++ text) = skipBlanks text :=
  -- Blanks in front are skipped one after the other.
  List.dropWhile_append_of_pos blank

/-- A text that starts with another character than a blank starts with its first token. -/
theorem skipBlanks_cons {c : Char} (solid : isBlank c = false) (text : List Char) :
    skipBlanks (c :: text) = c :: text := by
  -- Skipping stops at once.
  simp [skipBlanks, solid]

/-- No token is found exactly in a text of blanks. -/
theorem skipBlanks_eq_nil_iff {text : List Char} : skipBlanks text = [] ↔ Blank text := by
  -- Everything is skipped exactly if there is nothing else.
  simp [skipBlanks, Blank, List.dropWhile_eq_nil_iff]

end Blanks

/-- A lexeme that does not start with a blank. -/
def Solid (lexeme : List Char) : Prop :=
  -- Only the first character has to be solid, so a quoted name may hold blanks.
  ∃ c more, lexeme = c :: more ∧ isBlank c = false

/-- Whether a lexeme starts with a blank is settled by its first character. -/
instance (lexeme : List Char) : Decidable (Solid lexeme) :=
  -- The first character is looked at.
  decidable_of_iff (lexeme.head?.any (fun c => !isBlank c) = true)
    (by cases lexeme <;> simp [Solid])

namespace Passes

/-- A single lexeme stands behind some blanks. -/
theorem single_iff {lexeme text rest : List Char} :
    Passes [lexeme] text rest ↔ ∃ blanks, Blank blanks ∧ text = blanks ++ lexeme ++ rest := by
  -- One lexeme has one run of blanks in front, which may be empty.
  constructor
  · intro passes
    cases passes with
    | cons blank more =>
      cases more
      exact ⟨_, blank, rfl⟩
  · intro split
    obtain ⟨blanks, blank, rfl⟩ := split
    exact .cons blank .nil

/-- Several lexemes are one in front of the others. -/
theorem cons_iff {lexeme text rest : List Char} {lexemes : List (List Char)} :
    Passes (lexeme :: lexemes) text rest ↔
      ∃ behind, Passes [lexeme] text behind ∧ Passes lexemes behind rest := by
  -- The blanks in front belong to the first lexeme.
  constructor
  · intro passes
    cases passes with
    | cons blank more => exact ⟨_, .cons blank .nil, more⟩
  · intro split
    obtain ⟨behind, first, more⟩ := split
    obtain ⟨blanks, blank, rfl⟩ := single_iff.mp first
    exact .cons blank more

/-- Lexemes follow each other when those in front do and those behind them do. -/
theorem append_iff {lexemes others : List (List Char)} {text rest : List Char} :
    Passes (lexemes ++ others) text rest ↔
      ∃ behind, Passes lexemes text behind ∧ Passes others behind rest := by
  -- The lexemes in front are taken off one at a time.
  induction lexemes generalizing text with
  | nil =>
    constructor
    · intro passes
      exact ⟨text, .nil, passes⟩
    · intro split
      obtain ⟨behind, none, passes⟩ := split
      cases none
      exact passes
  | cons lexeme lexemes ih =>
    rw [List.cons_append, cons_iff]
    constructor
    · -- The first lexeme stays in front of the others.
      intro split
      obtain ⟨first, head, more⟩ := split
      obtain ⟨behind, front, back⟩ := ih.mp more
      exact ⟨behind, cons_iff.mpr ⟨first, head, front⟩, back⟩
    · intro split
      obtain ⟨behind, passes, back⟩ := split
      obtain ⟨first, head, front⟩ := cons_iff.mp passes
      exact ⟨first, head, ih.mpr ⟨behind, front, back⟩⟩

/-- What stands behind the blanks is the next lexeme. -/
theorem single_of_skipBlanks {lexeme text rest : List Char}
    (found : skipBlanks text = lexeme ++ rest) :
    Passes [lexeme] text rest := by
  -- What was skipped are the blanks in front of the lexeme.
  obtain ⟨blanks, blank, split⟩ := exists_blank_append_skipBlanks text
  refine single_iff.mpr ⟨blanks, blank, ?_⟩
  rw [List.append_assoc, ← found]
  exact split

/-- A lexeme that starts with a token is the first token. -/
theorem single_iff_skipBlanks {lexeme text rest : List Char} (solid : Solid lexeme) :
    Passes [lexeme] text rest ↔ skipBlanks text = lexeme ++ rest := by
  -- The blanks in front are all that is skipped, as the lexeme starts with no blank.
  obtain ⟨c, more, rfl, nonblank⟩ := solid
  refine ⟨fun passes => ?_, single_of_skipBlanks⟩
  obtain ⟨blanks, blank, rfl⟩ := single_iff.mp passes
  rw [List.append_assoc, skipBlanks_append blank]
  exact skipBlanks_cons nonblank _

/-- What is left behind lexemes ends the text. -/
theorem suffix {lexemes : List (List Char)} {text rest : List Char}
    (passes : Passes lexemes text rest) :
    rest <:+ text := by
  -- Each lexeme leaves an end of the text, and so do all of them.
  induction passes with
  | nil => exact List.suffix_refl _
  | cons _ _ ih => exact ih.trans (List.suffix_append _ _)

/-- Lexemes do not depend on what is left behind them. -/
theorem extend {lexemes : List (List Char)} {text rest : List Char}
    (passes : Passes lexemes text rest) (more : List Char) :
    Passes lexemes (text ++ more) (rest ++ more) := by
  -- What follows the text is not looked at.
  induction passes with
  | nil => exact .nil
  | cons blank _ ih =>
    rw [List.append_assoc]
    exact .cons blank ih

/-- The text of lexemes can be told apart from what is left behind them. -/
theorem exists_own {lexemes : List (List Char)} {text rest : List Char}
    (passes : Passes lexemes text rest) :
    ∃ own, text = own ++ rest ∧ Passes lexemes own [] := by
  -- The part of each lexeme is put in front of what the others take.
  induction passes with
  | nil => exact ⟨[], rfl, .nil⟩
  | @cons blanks lexeme _ _ _ blank _ ih =>
    obtain ⟨own, rfl, passes⟩ := ih
    exact ⟨blanks ++ lexeme ++ own, by simp, .cons blank passes⟩

end Passes

/-- What is behind a beginning is what the text has beyond it. -/
theorem behind?_eq_some_iff {word text rest : List Char} :
    behind? word text = some rest ↔ text = word ++ rest := by
  -- The beginning is compared character by character.
  induction word generalizing text with
  | nil => simp [behind?, eq_comm]
  | cons c word ih =>
    cases text with
    | nil => simp [behind?]
    | cons d text =>
      by_cases same : c = d
      · subst same
        simp [behind?, ih]
      · simp [behind?, same, Ne.symm same]

/-- No digit stands at the front of a text. -/
def NoDigit (text : List Char) : Prop :=
  -- A text that is over has no digit either.
  ∀ c ∈ text.head?, isDigit c = false

/-- A digit is no blank. -/
theorem isBlank_of_isDigit {c : Char} (digit : isDigit c = true) : isBlank c = false := by
  -- All blanks come before the digits among the characters.
  unfold isDigit at digit
  unfold isBlank
  simp only [Bool.and_eq_true, decide_eq_true_eq, Bool.or_eq_false_iff, decide_eq_false_iff_not]
    at digit ⊢
  refine ⟨⟨⟨⟨?_, ?_⟩, ?_⟩, ?_⟩, ?_⟩ <;> rintro rfl <;> exact absurd digit.1 (by decide)

/-- A number starts with a digit. -/
theorem Numeral.Proper.solid {digits : Numeral} (proper : digits.Proper) : Solid digits := by
  -- The first digit is the first character.
  obtain ⟨nonempty, all⟩ := proper
  obtain ⟨c, more, rfl⟩ := List.exists_cons_of_ne_nil nonempty
  exact ⟨c, more, rfl, isBlank_of_isDigit (all c List.mem_cons_self)⟩

namespace Phrase

/-- A word is read where it stands behind the blanks. -/
theorem readWord_eq_ok_iff {keyword : String} {text rest : List Char} :
    readWord keyword text = .ok rest ↔ skipBlanks text = keyword.toList ++ rest := by
  -- The keyword stands right behind the blanks.
  rw [← behind?_eq_some_iff, readWord]
  cases behind? keyword.toList (skipBlanks text) <;> simp

/-- A word that was read is the next lexeme. -/
theorem passes_of_readWord {keyword : String} {text rest : List Char}
    (read : readWord keyword text = .ok rest) :
    Passes [keyword.toList] text rest :=
  -- The keyword takes what it is made of.
  Passes.single_of_skipBlanks (readWord_eq_ok_iff.mp read)

/-- A word that is the next lexeme is read. -/
theorem readWord_of_passes {keyword : String} {text rest : List Char}
    (passes : Passes [keyword.toList] text rest) (solid : Solid keyword.toList) :
    readWord keyword text = .ok rest :=
  -- A keyword that begins with a solid character is found behind the blanks.
  readWord_eq_ok_iff.mpr ((Passes.single_iff_skipBlanks solid).mp passes)

/-- Where the text does not start with the first character of a word, the word is not read. -/
theorem readWord_eq_error {keyword : String} {first : Char} {text : List Char}
    (starts : keyword.toList.head? = some first) (other : (skipBlanks text).head? ≠ some first) :
    readWord keyword text = .error (skipBlanks text) := by
  -- The first characters differ, and the rest is not looked at.
  obtain ⟨more, word⟩ := List.head?_eq_some_iff.mp starts
  rw [readWord, word]
  cases found : skipBlanks text with
  | nil => simp [behind?]
  | cons c rest =>
    have different : first ≠ c := fun same => other (by simp [found, same])
    simp [behind?, different]

/-- A number is read where it is the next lexeme, up to its last digit. -/
theorem readNumeral_eq_ok_iff {text rest : List Char} {digits : Numeral} :
    readNumeral text = .ok (digits, rest) ↔
      digits.Proper ∧ Passes [digits] text rest ∧ NoDigit rest := by
  -- The digits of the number are those up to the first character that is none.
  have split := @takeWhile_dropWhile_iff isDigit (skipBlanks text) digits rest
  unfold readNumeral
  dsimp only
  constructor
  · intro read
    split at read
    · cases read
    · -- At least one digit was taken.
      rename_i nonempty
      cases read
      obtain ⟨whole, all, stops⟩ := split.mp ⟨rfl, rfl⟩
      have proper : Numeral.Proper ((skipBlanks text).takeWhile isDigit) := ⟨nonempty, all⟩
      exact ⟨proper, (Passes.single_iff_skipBlanks proper.solid).mpr whole, stops⟩
  · intro spelled
    obtain ⟨proper, passes, stops⟩ := spelled
    -- The digits are taken as far as they go, and there is at least one.
    obtain ⟨taken, dropped⟩ :=
      split.mpr ⟨(Passes.single_iff_skipBlanks proper.solid).mp passes, proper.2, stops⟩
    rw [taken, dropped]
    cases digits with
    | nil => exact absurd rfl proper.1
    | cons c more => rfl

end Phrase

section Quoted

/-- A text ends with at most as many backslashes as it has characters. -/
theorem backslashesAtEnd_le (text : List Char) : backslashesAtEnd text ≤ text.length := by
  -- They are among the characters of the text.
  calc backslashesAtEnd text
    _ ≤ text.reverse.length := (List.takeWhile_sublist _).length_le
    _ = text.length := List.length_reverse

/-- A character in front counts only if there are nothing but backslashes behind it. -/
theorem backslashesAtEnd_cons (c : Char) (text : List Char) :
    backslashesAtEnd (c :: text) =
      if backslashesAtEnd text = text.length then text.length + backslashesAtEnd [c]
        else backslashesAtEnd text := by
  -- A character in front only counts if backslashes are all that follows it.
  unfold backslashesAtEnd
  rw [List.reverse_cons, List.takeWhile_append, List.length_reverse]
  split <;> simp

/-- Another character than a backslash changes nothing at the end of the text behind it. -/
theorem backslashesAtEnd_cons_of_ne {c : Char} (other : c ≠ '\\') (text : List Char) :
    backslashesAtEnd (c :: text) = backslashesAtEnd text := by
  -- Any other character in front ends the count.
  have none : backslashesAtEnd [c] = 0 := by simp [backslashesAtEnd, other]
  rw [backslashesAtEnd_cons, none]
  split <;> omega

/-- A backslash and the character behind it keep the parity at the end of the text behind them. -/
theorem backslashesAtEnd_pair (c : Char) (text : List Char) :
    backslashesAtEnd ('\\' :: c :: text) % 2 = backslashesAtEnd text % 2 := by
  have one : backslashesAtEnd ['\\'] = 1 := by decide
  have few := backslashesAtEnd_le text
  by_cases same : c = '\\'
  · -- Either both backslashes count or none of them.
    subst same
    rw [backslashesAtEnd_cons, backslashesAtEnd_cons '\\' text, one, List.length_cons]
    split <;> split <;> omega
  · -- The character behind the backslash keeps it from the end.
    rw [backslashesAtEnd_cons, backslashesAtEnd_cons_of_ne same, List.length_cons,
      if_neg (by omega)]

/-- Nothing may stand between quotes. -/
theorem quotable_nil : Quotable [] where
  -- A name without characters has nothing to protect.
  oneLine := List.not_mem_nil
  closed := rfl
  first front behind split := by simp at split

/-- A backslash at the end would protect the quote behind it. -/
theorem not_quotable_backslash : ¬ Quotable ['\\'] :=
  -- The backslash would protect the quote that closes the name.
  fun quotable => absurd quotable.closed (by decide)

/-- A backslash protects any character of its line. -/
theorem quotable_pair {c : Char} {text : List Char} :
    Quotable ('\\' :: c :: text) ↔ c ≠ '\n' ∧ Quotable text := by
  -- Both characters together leave every count of backslashes even or odd, as it was.
  constructor
  · intro quotable
    have oneLine := quotable.oneLine
    simp only [List.mem_cons, not_or] at oneLine
    refine ⟨Ne.symm oneLine.2.1, oneLine.2.2, ?_, fun front behind split => ?_⟩
    · rw [← backslashesAtEnd_pair c]
      exact quotable.closed
    · rw [← backslashesAtEnd_pair c]
      exact quotable.first ('\\' :: c :: front) behind (by rw [split]; rfl)
  · intro both
    obtain ⟨sameLine, quotable⟩ := both
    refine ⟨?_, ?_, fun front behind split => ?_⟩
    · simp only [List.mem_cons, not_or]
      exact ⟨by decide, Ne.symm sameLine, quotable.oneLine⟩
    · rw [backslashesAtEnd_pair]
      exact quotable.closed
    · -- The quote is the protected character or lies behind it.
      cases front with
      | nil => simp at split
      | cons d front =>
        cases front with
        | nil =>
          simp only [List.cons_append, List.nil_append, List.cons.injEq] at split
          rw [← split.1]
          decide
        | cons e front =>
          simp only [List.cons_append, List.cons.injEq] at split
          obtain ⟨rfl, rfl, split⟩ := split
          rw [backslashesAtEnd_pair]
          exact quotable.first front behind split

/-- Any other character is plain unless it is a quote. -/
theorem quotable_cons {c : Char} {text : List Char} (plain : c ≠ '\\') :
    Quotable (c :: text) ↔ c ≠ '"' ∧ c ≠ '\n' ∧ Quotable text := by
  -- A quote in front would follow no backslash, and any other character changes no count.
  constructor
  · intro quotable
    have oneLine := quotable.oneLine
    simp only [List.mem_cons, not_or] at oneLine
    refine ⟨?_, Ne.symm oneLine.1, oneLine.2, ?_, fun front behind split => ?_⟩
    · -- A quote in front would be the first unprotected one.
      rintro rfl
      exact absurd (quotable.first [] text rfl) (by decide)
    · rw [← backslashesAtEnd_cons_of_ne plain]
      exact quotable.closed
    · rw [← backslashesAtEnd_cons_of_ne plain]
      exact quotable.first (c :: front) behind (by rw [split]; rfl)
  · intro all
    obtain ⟨noQuote, sameLine, quotable⟩ := all
    refine ⟨?_, ?_, fun front behind split => ?_⟩
    · simp only [List.mem_cons, not_or]
      exact ⟨Ne.symm sameLine, quotable.oneLine⟩
    · rw [backslashesAtEnd_cons_of_ne plain]
      exact quotable.closed
    · -- A quote is not in front, so it is one of the text behind.
      cases front with
      | nil =>
        simp only [List.nil_append, List.cons.injEq] at split
        exact absurd split.1 noQuote
      | cons d front =>
        simp only [List.cons_append, List.cons.injEq] at split
        obtain ⟨rfl, split⟩ := split
        rw [backslashesAtEnd_cons_of_ne plain]
        exact quotable.first front behind split

/-- A quotable text is read up to the quote behind it. -/
theorem quotedName_of_quotable {text : List Char} (quotable : Quotable text) (rest : List Char) :
    quotedName (text ++ '"' :: rest) = some (unescape text, rest) := by
  -- Pairs are taken together, as the reader does.
  fun_induction unescape text with
  | case1 c text ih =>
    obtain ⟨sameLine, quotable⟩ := quotable_pair.mp quotable
    simp [quotedName, sameLine, ih quotable]
  | case2 c text noPair ih =>
    by_cases plain : c = '\\'
    · -- A backslash that protects nothing would be the last character.
      subst plain
      cases text with
      | nil => exact absurd quotable not_quotable_backslash
      | cons d text => exact absurd rfl (noPair d text rfl)
    · obtain ⟨noQuote, sameLine, quotable⟩ := (quotable_cons plain).mp quotable
      simp [quotedName, plain, sameLine, ih quotable]
  | case3 => rfl

/-- What is read as a quoted name is quotable. -/
theorem exists_quotable_of_quotedName {text name rest : List Char}
    (read : quotedName text = some (name, rest)) :
    ∃ own, text = own ++ '"' :: rest ∧ Quotable own ∧ name = unescape own := by
  -- The induction follows the reader: a quote, a pair, or a plain character comes first.
  fun_induction quotedName text generalizing name with
  | case1 => cases read
  | case2 =>
    cases read
    exact ⟨[], rfl, quotable_nil, rfl⟩
  | case3 => cases read
  | case4 c text sameLine ih =>
    simp only [Option.map_eq_some_iff, Prod.mk.injEq, Prod.exists] at read
    obtain ⟨_, _, read, rfl, rfl⟩ := read
    obtain ⟨own, rfl, quotable, rfl⟩ := ih read
    exact ⟨'\\' :: c :: own, rfl, quotable_pair.mpr ⟨sameLine, quotable⟩, rfl⟩
  | case5 => cases read
  | case6 c text noQuote noPair sameLine ih =>
    simp only [Option.map_eq_some_iff, Prod.mk.injEq, Prod.exists] at read
    obtain ⟨_, _, read, rfl, rfl⟩ := read
    obtain ⟨own, rfl, quotable, rfl⟩ := ih read
    -- A backslash here would have been taken with the character behind it.
    have plain : c ≠ '\\' := by
      rintro rfl
      cases own with
      | nil => exact noPair '"' _ rfl rfl
      | cons d own => exact noPair d _ rfl rfl
    refine ⟨c :: own, rfl, (quotable_cons plain).mpr ⟨noQuote, sameLine, quotable⟩, ?_⟩
    simp [unescape, plain]

end Quoted

/-- A text starts with a name where the grammar has one. -/
theorem nameToken_eq_some_iff {text name rest : List Char} :
    nameToken text = some (name, rest) ↔
      ∃ lexeme, text = lexeme ++ rest ∧ SpellsName name lexeme rest := by
  -- The first character tells a quoted name from a bare one.
  constructor
  · intro read
    unfold nameToken at read
    split at read
    · cases read
    · -- The name is taken up to the closing quote.
      obtain ⟨own, rfl, quotable, rfl⟩ := exists_quotable_of_quotedName read
      exact ⟨'"' :: own ++ ['"'], by simp, .quoted quotable⟩
    · rename_i c more _
      split at read
      · -- A bare name goes on as long as its characters do.
        rename_i opens
        cases read
        obtain ⟨split, all, stops⟩ :=
          takeWhile_dropWhile_iff.mp ⟨@rfl _ (more.takeWhile continuesName), rfl⟩
        refine ⟨c :: more.takeWhile continuesName, by simp, .bare ?_ stops⟩
        rw [isBareName, opens, Bool.true_and]
        exact List.all_eq_true.mpr all
      · cases read
  · intro spelled
    obtain ⟨lexeme, rfl, spelled⟩ := spelled
    cases spelled with
    | bare bare longest =>
      cases name with
      | nil => cases bare
      | cons c more =>
        rw [isBareName, Bool.and_eq_true, List.all_eq_true] at bare
        obtain ⟨opens, all⟩ := bare
        -- A quote does not begin a bare name.
        have noQuote : c ≠ '"' := by
          rintro rfl
          exact absurd opens (by decide)
        obtain ⟨taken, dropped⟩ := takeWhile_dropWhile_iff.mpr ⟨@rfl _ (more ++ rest), all, longest⟩
        simp [nameToken, opens, taken, dropped]
    | quoted quotable =>
      rw [List.append_assoc]
      exact quotedName_of_quotable quotable rest

/-- A character that opens a name is no blank. -/
theorem isBlank_of_opensName {c : Char} (opens : opensName c = true) : isBlank c = false := by
  -- All blanks are tried, and none of them opens a name.
  by_contra blank
  simp only [isBlank, Bool.not_eq_false, Bool.or_eq_true, decide_eq_true_eq] at blank
  rcases blank with (((rfl | rfl) | rfl) | rfl) | rfl <;> exact absurd opens (by decide)

/-- A name does not start with a blank. -/
theorem SpellsName.solid {name lexeme rest : List Char} (spelled : SpellsName name lexeme rest) :
    Solid lexeme := by
  -- A bare name begins with a character of its own, and a quoted one with a quote.
  cases spelled with
  | bare bare _ =>
    cases name with
    | nil => cases bare
    | cons c more =>
      rw [isBareName, Bool.and_eq_true] at bare
      exact ⟨c, more, rfl, isBlank_of_opensName bare.1⟩
  | @quoted text => exact ⟨'"', text ++ ['"'], rfl, by decide⟩

/-- A name is read where it is the next lexeme. -/
theorem Phrase.readName_eq_ok_iff {text name rest : List Char} :
    readName text = .ok (name, rest) ↔
      ∃ lexeme, Passes [lexeme] text rest ∧ SpellsName name lexeme rest := by
  -- Only the blanks in front are taken away before the name is looked for.
  have next : readName text = .ok (name, rest) ↔
      nameToken (skipBlanks text) = some (name, rest) := by
    unfold readName
    cases nameToken (skipBlanks text) <;> simp
  rw [next, nameToken_eq_some_iff]
  constructor
  · intro read
    obtain ⟨lexeme, found, spelled⟩ := read
    exact ⟨lexeme, (Passes.single_iff_skipBlanks spelled.solid).mpr found, spelled⟩
  · intro spelled
    obtain ⟨lexeme, passes, spelled⟩ := spelled
    exact ⟨lexeme, (Passes.single_iff_skipBlanks spelled.solid).mp passes, spelled⟩

end Overlap
