import Mathlib.Data.List.TakeDrop
import Overlap.Proofs.Phrase.Writing
import Overlap.Proofs.Sexp.Reading
import Overlap.Sexp.Pretty

/-! Structured S-expressions are read back from every layout of their
text, on one line or on several. -/

namespace Overlap.Sexp

/-- Reading may open more lists than needed. -/
theorem Reads.mono {limit height more : Nat} {text : List Char} {value : Sexp}
    (reads : Reads limit height text value) (higher : height ≤ more) :
    Reads limit more text value :=
  -- More levels only ask for more room.
  fun state place rest between room ends => reads state place rest between (by omega) ends

mutual

/-- The value that is read back for an S-expression. Texts stay what they
are, and atoms are read anew. -/
def reread : Sexp → Sexp
  -- Texts are read as they are, numbers and symbols as what their characters mean.
  | .int value => atomValue (toString value).toList
  | .symbol name => atomValue name.toList
  | .list items => .list (rereadAll items)
  | other => other

/-- The values that are read back for the items of a list. -/
def rereadAll : List Sexp → List Sexp
  | [] => []
  | item :: rest => reread item :: rereadAll rest

end

mutual

/-- A text for an S-expression: atoms are written plainly, texts in any way that reading undoes, and
the items of lists with any blanks between them. -/
inductive Writes : Sexp → List Char → Prop where
  -- A written expression is settled up to the escapes in its texts and the gaps in its lists.
  | int (value : Int) : Writes (.int value) (toString value).toList
  | symbol {name : String} (isAtom : IsAtom name.toList) : Writes (.symbol name) name.toList
  | text {write : Char → List Char} (escapes : Escapes write) (text : String) :
      Writes (.text text) ('"' :: text.toList.flatMap write ++ ['"'])
  | list {items : List Sexp} {parts : List (List Char)} {body : List Char}
      (each : WritesAll items parts)
      (spaced : Spaced parts body) : Writes (.list items) ('(' :: body ++ [')'])

/-- Texts for the items of a list. -/
inductive WritesAll : List Sexp → List (List Char) → Prop where
  | nil : WritesAll [] []
  | cons {item : Sexp} {items : List Sexp} {text : List Char} {texts : List (List Char)}
      (first : Writes item text)
      (others : WritesAll items texts) : WritesAll (item :: items) (text :: texts)

end

section Integers

/-- A digit has no meaning of its own. -/
theorem plain_of_isDigit {c : Char} (digit : isDigit c = true) :
    endsAtom c = false ∧ c ≠ '\\' ∧ c ≠ '\'' := by
  -- The characters that end an atom are gone through, and no digit is among them.
  simp only [isDigit, Bool.and_eq_true, decide_eq_true_eq] at digit
  refine ⟨?_, ?_, ?_⟩
  · by_contra ends
    simp only [endsAtom, isSpace, Bool.not_eq_false, Bool.or_eq_true, Bool.and_eq_true,
      decide_eq_true_eq] at ends
    rcases ends with (((((rfl | rfl) | rfl) | rfl) | rfl) | rfl) | (rfl | range)
    all_goals try exact absurd digit (by decide)
    exact absurd (Char.le_trans digit.1 range.2) (by decide)
  · rintro rfl
    exact absurd digit (by decide)
  · rintro rfl
    exact absurd digit (by decide)

/-- An integer is written as digits, behind a sign if it is negative. -/
theorem toList_toString (value : Int) :
    (toString value).toList = if 0 ≤ value then digitsOf value.natAbs
      else '-' :: digitsOf value.natAbs := by
  -- Negative numbers are written as the sign in front of their amount.
  cases value with
  | ofNat value => rfl
  | negSucc value =>
    have signed : toString (Int.negSucc value) = "-" ++ (value + 1).repr := rfl
    rw [signed, String.toList_append]
    rfl

/-- The digits of an integer have no meaning of their own. -/
theorem proper_natAbs (value : Int) : (digitsOf value.natAbs).Proper :=
  -- Amounts are not negative.
  proper_digitsOf (Int.natCast_nonneg _)

/-- An integer is written as an atom. -/
theorem isAtom_toString (value : Int) : IsAtom (toString value).toList := by
  -- A number is made of digits, perhaps behind a sign, and none of these ends an atom.
  obtain ⟨nonempty, digits⟩ := proper_natAbs value
  rw [toList_toString]
  split
  · exact ⟨nonempty, fun c member => plain_of_isDigit (digits c member)⟩
  · refine ⟨List.cons_ne_nil _ _, fun c member => ?_⟩
    rcases List.mem_cons.mp member with rfl | member
    · decide
    · exact plain_of_isDigit (digits c member)

/-- Nothing is changed in a number without blanks and without digits of other scripts. -/
theorem plainNumeral?_eq {text : List Char}
    (plain : ∀ c ∈ text, c.toNat < 127 ∧ isAsciiSpace c = false) :
    plainNumeral? text = some text := by
  -- Characters below the limit stand for themselves, and there are no blanks at either end.
  have ascii : text.mapM asciiCharacter? = some text := by
    induction text with
    | nil => rfl
    | cons c text ih =>
      have first := (plain c List.mem_cons_self).1
      have others := ih fun d member => plain d (List.mem_cons_of_mem c member)
      simp [List.mapM_cons, others, asciiCharacter?, first]
  -- Nothing is dropped where nothing is a blank.
  have kept : ∀ others : List Char, (∀ c ∈ others, isAsciiSpace c = false) →
      others.dropWhile isAsciiSpace = others := by
    intro others none
    cases others with
    | nil => rfl
    | cons c others => simp [none c List.mem_cons_self]
  have front := kept text fun c member => (plain c member).2
  have back := kept text.reverse fun c member => (plain c (List.mem_reverse.mp member)).2
  simp [plainNumeral?, ascii, front, back]

/-- Digits without separators stay as they are. -/
theorem dropSeparators?_eq {digits : List Char} (all : ∀ c ∈ digits, isDigit c = true) :
    dropSeparators? digits = some digits := by
  -- A separator would have to be a digit.
  have noSeparator : ∀ c ∈ digits, c ≠ '_' := by
    rintro c member rfl
    exact absurd (all _ member) (by decide)
  fun_induction dropSeparators? digits with
  | case1 => rfl
  | case2 c d rest _ ih => exact absurd rfl (noSeparator '_' (by simp))
  | case3 c d rest => exact absurd rfl (noSeparator '_' (by simp))
  | case4 rest => exact absurd rfl (noSeparator '_' List.mem_cons_self)
  | case5 c rest _ _ ih =>
    rw [ih (fun d member => all d (List.mem_cons_of_mem c member))
      fun d member => noSeparator d (List.mem_cons_of_mem c member)]
    rfl

/-- Digits are plain characters of a number. -/
theorem ascii_of_isDigit {c : Char} (digit : isDigit c = true) :
    c.toNat < 127 ∧ isAsciiSpace c = false := by
  -- Digits lie below the last ASCII character, and blanks are no digits.
  have plain := (plain_of_isDigit digit).1
  simp only [endsAtom, Bool.or_eq_false_iff] at plain
  simp only [isDigit, Bool.and_eq_true, decide_eq_true_eq] at digit
  have high : c.toNat ≤ '9'.toNat := digit.2
  exact ⟨Nat.lt_of_le_of_lt high (by decide), plain.2⟩

/-- The digits of an integer that can be written stand for it. -/
theorem boundedValue?_natAbs {value : Int} (writable : Writable value) :
    boundedValue? (digitsOf value.natAbs) = some value.natAbs := by
  -- The digits of a short number are few enough to be read.
  have short : (digitsOf value.natAbs).Short := by
    unfold Writable at writable
    rw [short_digitsOf_iff (Int.natCast_nonneg _), Writable, Int.natAbs_natCast]
    exact writable
  have found : (digitsOf value.natAbs).number = value.natAbs :=
    number_digitsOf (Int.natCast_nonneg _)
  unfold Numeral.Short at short
  rw [boundedValue?, if_pos short]
  exact congrArg some (Int.natCast_inj.mp found)

/-- Digits have no sign in front. -/
theorem takeSign_eq {digits : Numeral} (proper : digits.Proper) :
    takeSign digits = (false, digits) := by
  -- The first character is a digit, and so it is no sign.
  obtain ⟨nonempty, all⟩ := proper
  obtain ⟨c, more, rfl⟩ := List.exists_cons_of_ne_nil nonempty
  have digit := all c List.mem_cons_self
  unfold takeSign
  split
  · rename_i same
    cases same
    exact absurd digit (by decide)
  · rename_i same
    cases same
    exact absurd digit (by decide)
  · rfl

/-- A sign and the digits of an absolute value stand for the integer. -/
theorem integer?_of_takeSign {value : Int} (writable : Writable value) {negative : Bool}
    {text : List Char} (plain : plainNumeral? text = some text)
    (signed : takeSign text = (negative, digitsOf value.natAbs)) :
    integer? text = some (if negative then -(value.natAbs : Int) else value.natAbs) := by
  -- Behind the sign there are digits only, and not too many of them.
  obtain ⟨nonempty, digits⟩ := proper_natAbs value
  have isNumber : ((digitsOf value.natAbs).isEmpty || !(digitsOf value.natAbs).all isDigit) =
      false := by
    rw [List.isEmpty_eq_false_iff.mpr nonempty, List.all_eq_true.mpr digits]
    rfl
  rw [integer?, plain]
  simp only [Option.bind_eq_bind, Option.bind_some, signed, dropSeparators?_eq digits, isNumber,
    boundedValue?_natAbs writable]
  rfl

/-- An integer that can be written is read back. -/
theorem integer?_toString {value : Int} (writable : Writable value) :
    integer? (toString value).toList = some value := by
  -- The sign is taken off first, and the digits are those of the absolute value.
  have digits := (proper_natAbs value).2
  by_cases nonneg : 0 ≤ value
  · -- Without a sign, all characters are digits.
    have written : (toString value).toList = digitsOf value.natAbs := by
      rw [toList_toString, if_pos nonneg]
    have plain := plainNumeral?_eq fun c member => ascii_of_isDigit (digits c member)
    rw [written, integer?_of_takeSign writable plain (takeSign_eq (proper_natAbs value))]
    exact congrArg some (Int.natAbs_of_nonneg nonneg)
  · -- The sign is no digit, but it is plain as well.
    have written : (toString value).toList = '-' :: digitsOf value.natAbs := by
      rw [toList_toString, if_neg nonneg]
    have plain : plainNumeral? ('-' :: digitsOf value.natAbs) =
        some ('-' :: digitsOf value.natAbs) := by
      refine plainNumeral?_eq fun c member => ?_
      rcases List.mem_cons.mp member with rfl | member
      · decide
      · exact ascii_of_isDigit (digits c member)
    rw [written, integer?_of_takeSign writable plain rfl, if_pos rfl]
    exact congrArg some (by omega)

/-- The atom for an integer that can be written is the integer. -/
theorem atomValue_toString {value : Int} (writable : Writable value) :
    atomValue (toString value).toList = .int value := by
  -- The words with a meaning of their own are no numbers.
  have found := integer?_toString writable
  have number : ∀ word : String, integer? word.toList = none →
      String.ofList (toString value).toList ≠ word := by
    rintro word none rfl
    rw [String.ofList_toList, found] at none
    cases none
  unfold atomValue
  split
  · rename_i word
    exact absurd word (number "nil" (by decide))
  · rename_i word
    exact absurd word (number "t" (by decide))
  · rw [found]

end Integers

/-- Every text for an S-expression is read as the value that is read back for it. -/
theorem Writes.reads {limit : Nat} {sexp : Sexp} {text : List Char} (writes : Writes sexp text) :
    Reads limit sexp.height text sexp.reread := by
  -- The items of a list are read one by one, each with room for the highest of them.
  refine @Writes.rec (fun sexp text _ => Reads limit sexp.height text sexp.reread)
    (fun items texts _ => List.Forall₂ (Reads limit (heightAll items)) texts (rereadAll items))
    ?int ?symbol ?text ?list ?nil ?cons sexp text writes
  case int => exact fun value => (isAtom_toString value).reads
  case symbol => exact fun isAtom => isAtom.reads
  case text => exact fun escapes text => escapes.reads text
  case list => exact fun _ spaced reads => spaced.reads reads
  case nil => exact .nil
  case cons =>
    intro item items text texts _ _ first others
    exact .cons (first.mono (Nat.le_max_left _ _)) (others.imp fun _ _ reads =>
      reads.mono (Nat.le_max_right _ _))

section Layouts

mutual

/-- Structured S-expressions: integers, texts, symbols without special
characters, and lists of those. -/
def Structured : Sexp → Prop
  -- Other expressions have a meaning of their own for the reader, and are left out.
  | .int _ => True
  | .text _ => True
  | .symbol name => IsAtom name.toList ∧ ∀ c ∈ name.toList, symbolSpecials.contains c = false
  | .list items => StructuredAll items
  | _ => False

/-- The items of a list are structured. -/
def StructuredAll : List Sexp → Prop
  | [] => True
  | item :: rest => Structured item ∧ StructuredAll rest

end

/-- The letter for a special character stands for it. -/
theorem textUnescape?_of_textEscape? {c letter : Char} (escaped : textEscape? c = some letter) :
    textUnescape? letter = some c := by
  -- Each special character has a letter of its own.
  unfold textEscape? at escaped
  repeat' split at escaped
  all_goals cases escaped
  all_goals simp_all [textUnescape?]

/-- A text on one line is written in a way that reading undoes. -/
theorem writes_compactText (text : String) : Writes (.text text) (compactText text).toList := by
  rw [compactText, String.toList_ofList]
  -- A character is escaped in the way that the reader knows, or it needs no escape.
  refine .text (fun c => ?_) text
  cases escaped : textEscape? c with
  | none => refine .inl ⟨rfl, ?_, ?_⟩ <;> rintro rfl <;> cases escaped
  | some letter => exact .inr ⟨letter, rfl, textUnescape?_of_textEscape? escaped⟩

/-- A text on several lines is written in a way that reading undoes. -/
theorem writes_prettyText (text : String) : Writes (.text text) (prettyText text).toList := by
  rw [prettyText, String.toList_ofList]
  refine .text (fun c => ?_) text
  -- Only the backslash and the quote are escaped here, by themselves.
  by_cases special : (c = '\\' || c = '"') = true
  · exact .inr ⟨c, if_pos special, if_pos special⟩
  · simp only [Bool.or_eq_true, decide_eq_true_eq, not_or] at special
    exact .inl ⟨by simp [special], special.2, special.1⟩

/-- Parts are spaced when there is a blank between any two of them. -/
theorem spaced_intercalate (parts : List String) :
    Spaced (parts.map String.toList) (" ".intercalate parts).toList := by
  -- The gap between two parts is a single blank.
  have blank : ∀ c ∈ [' '], isSpace c = true := by simp [isSpace]
  rw [String.toList_intercalate]
  induction parts with
  | nil => exact .nil
  | cons part parts ih =>
    cases parts with
    | nil => simpa [List.intercalate] using Spaced.single part.toList
    | cons next parts =>
      have more := Spaced.cons part.toList (List.cons_ne_nil ' ' []) blank (List.cons_ne_nil _ _) ih
      simpa [List.intercalate] using more

/-- Further parts may follow on lines of their own. -/
theorem Spaced.lines {parts : List (List Char)} {body : List Char} (spaced : Spaced parts body)
    (nonempty : parts ≠ []) {gap : List Char} (gapNonempty : gap ≠ [])
    (blank : ∀ c ∈ gap, isSpace c = true) (others : List (List Char)) :
    Spaced (parts ++ others) (body ++ others.flatMap (gap ++ ·)) := by
  -- The parts in front keep their blanks, and the last of them gets the first new line.
  induction spaced with
  | nil => exact (nonempty rfl).elim
  | single part =>
    induction others generalizing part with
    | nil => simpa using Spaced.single part
    | cons next others ih =>
      have more :=
        Spaced.cons part gapNonempty blank (List.cons_ne_nil _ _) (ih next (List.cons_ne_nil _ _))
      simpa using more
  | @cons part inner body parts innerNonempty innerBlank further more ih =>
    have extended := Spaced.cons part innerNonempty innerBlank
      (List.append_ne_nil_of_left_ne_nil further others) (ih further)
    simpa using extended

/-- The beginning of a line is blank when the indent is. -/
theorem isSpace_lineStart {layout : Layout} (blank : ∀ c ∈ layout.indent.toList, isSpace c = true)
    (depth : Int) :
    ∀ c ∈ (lineStart layout depth).toList, isSpace c = true := by
  -- Every character of the indentation comes from the layout.
  intro c member
  rw [lineStart, String.toList_join, List.mem_flatMap] at member
  obtain ⟨piece, repeated, member⟩ := member
  rw [List.eq_of_mem_replicate repeated] at member
  exact blank c member

/-- However it is broken into lines, a list has blanks between its parts. -/
theorem exists_spaced_arrange {layout : Layout}
    (blank : ∀ c ∈ layout.indent.toList, isSpace c = true) (depth : Int) (parts : List String) :
    ∃ body, (arrange layout depth parts).toList = '(' :: body ++ [')'] ∧
      Spaced (parts.map String.toList) body := by
  cases parts with
  | nil => exact ⟨[], by simp [arrange], .nil⟩
  | cons first others =>
    by_cases short : fits layout depth (oneLine (first :: others)) = true
    · -- The list fits on one line.
      refine ⟨(" ".intercalate (first :: others)).toList, ?_, spaced_intercalate _⟩
      simp only [arrange, short, if_true]
      simp [oneLine]
    · -- The parts behind the opening line follow with a line break and an indent in front.
      have gapBlank : ∀ c ∈ '\n' :: (lineStart layout (depth + 1)).toList, isSpace c = true := by
        intro c member
        rcases List.mem_cons.mp member with rfl | member
        · decide
        · exact isSpace_lineStart blank _ c member
      have opening := spaced_intercalate (first :: others.takeWhile fun part => !looksNested part)
      have lines := opening.lines (List.cons_ne_nil _ _) (List.cons_ne_nil _ _) gapBlank
        ((others.dropWhile fun part => !looksNested part).map String.toList)
      rw [← List.map_append, List.cons_append, List.takeWhile_append_dropWhile] at lines
      refine ⟨_, ?_, lines⟩
      simp [arrange, short, List.span_eq_takeWhile_dropWhile, List.flatMap_map]

/-- A symbol without special characters is written as it is. -/
theorem compactSymbol_eq {name : String}
    (plain : ∀ c ∈ name.toList, symbolSpecials.contains c = false) :
    compactSymbol name = name := by
  -- Without special characters no backslash is put in.
  have kept : name.toList.flatMap (fun c => if symbolSpecials.contains c then ['\\', c] else [c]) =
      name.toList := by
    generalize name.toList = characters at plain
    induction characters with
    | nil => rfl
    | cons c characters ih =>
      rw [List.flatMap_cons, ih fun d member => plain d (List.mem_cons_of_mem c member),
        plain c List.mem_cons_self]
      rfl
  rw [compactSymbol, kept, String.ofList_toList]

/-- A layout writes atoms plainly and lists with blanks between their items,
which are one level deeper. -/
structure Lays (write : Int → Sexp → String) : Prop where
  -- Atoms are written alike by both layouts, up to escapes, and lists up to gaps.
  int : ∀ depth value, write depth (.int value) = toString value
  text : ∀ depth value, Writes (.text value) (write depth (.text value)).toList
  symbol : ∀ depth name, (.symbol name : Sexp).Structured → write depth (.symbol name) = name
  list : ∀ depth items, ∃ body, (write depth (.list items)).toList = '(' :: body ++ [')'] ∧
    Spaced (items.map fun item => (write (depth + 1) item).toList) body

/-- Structured S-expressions are written by every layout. -/
theorem Lays.writes {write : Int → Sexp → String} (lays : Lays write) {sexp : Sexp}
    (structured : sexp.Structured) (depth : Int) : Writes sexp (write depth sexp).toList := by
  -- The items of a list are written one level deeper, at any depth of the list.
  revert structured depth
  refine @Sexp.rec (fun sexp => sexp.Structured → ∀ depth, Writes sexp (write depth sexp).toList)
    (fun items => StructuredAll items →
      ∀ depth, WritesAll items (items.map fun item => (write depth item).toList))
    ?nothing ?flag ?int ?real ?text ?symbol ?list ?bracket ?quoted ?nil ?cons sexp
  case int =>
    intro value _ depth
    rw [lays.int]
    exact .int value
  case text => exact fun value _ depth => lays.text depth value
  case symbol =>
    intro name structured depth
    rw [lays.symbol depth name structured]
    exact .symbol structured.1
  case list =>
    intro items each structured depth
    obtain ⟨body, written, spaced⟩ := lays.list depth items
    rw [written]
    exact .list (each structured (depth + 1)) spaced
  case nil => exact fun _ _ => .nil
  case cons =>
    intro item items first others structured depth
    exact .cons (first structured.1 depth) (others structured.2 depth)
  -- Nothing else is structured.
  case nothing => exact fun structured => structured.elim
  case flag => exact fun _ structured => structured.elim
  case real => exact fun _ structured => structured.elim
  case bracket => exact fun _ _ structured => structured.elim
  case quoted => exact fun _ _ structured => structured.elim

/-- The items of a list on one line are written one by one. -/
theorem compactAll_eq (items : List Sexp) : compactAll items = items.map compact := by
  -- The recursion over the items is a map.
  induction items with
  | nil => rfl
  | cons item items ih => rw [compactAll, ih, List.map_cons]

/-- The items of a list on several lines are written one by one. -/
theorem prettyAll_eq (layout : Layout) (depth : Int) (items : List Sexp) :
    -- The recursion over the items is a map.
    prettyAll layout depth items = items.map (pretty layout depth) := by
  induction items with
  | nil => rfl
  | cons item items ih => rw [prettyAll, ih, List.map_cons]

/-- One line is a layout. -/
theorem lays_compact : Lays fun _ => compact where
  -- All items stand on one line, separated by blanks.
  int _ _ := rfl
  text _ := writes_compactText
  symbol _ _ structured := compactSymbol_eq structured.2
  list _ items := by
    refine ⟨(" ".intercalate (compactAll items)).toList, by simp [compact], ?_⟩
    have spaced := spaced_intercalate (items.map compact)
    rw [List.map_map] at spaced
    rw [compactAll_eq]
    exact spaced

/-- Lines with a blank indent are a layout, whatever their width. -/
theorem lays_pretty {layout : Layout} (blank : ∀ c ∈ layout.indent.toList, isSpace c = true) :
    Lays (pretty layout) where
  -- Items may be separated by line ends, with blanks behind them.
  int _ _ := rfl
  text _ := writes_prettyText
  symbol _ _ _ := rfl
  list depth items := by
    have arranged := exists_spaced_arrange blank depth (items.map (pretty layout (depth + 1)))
    rw [List.map_map] at arranged
    rw [pretty, prettyAll_eq]
    exact arranged

end Layouts

end Overlap.Sexp
