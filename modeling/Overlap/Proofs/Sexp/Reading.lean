import Mathlib.Data.List.Forall2
import Overlap.Sexp.Reader

/-! The text of an atom or of a list is read as its value, wherever it stands. -/

namespace Overlap.Sexp

section Points

/-- Where reading stands: the state, the number of characters that were
taken, and the text that is left. -/
structure Point where
  -- The reader keeps a state and a place, and the text is what it has not seen.
  state : State
  place : Nat
  text : List Char

/-- Reading ends from two points in the same way, and from both or from neither it
opens more lists than a limit. -/
structure Joins (limit : Nat) (point other : Point) : Prop where
  -- Neither the value that is read nor the lists that are open depend on the way.
  ends : run point.state point.place point.text = run other.state other.place other.text
  nests : nestsBeyond limit point.state point.place point.text =
    nestsBeyond limit other.state other.place other.text

namespace Joins

variable {limit place : Nat} {point other third : Point} {state next : State} {rest : List Char}

/-- Every point joins itself. -/
theorem refl : Joins limit point point :=
  -- Nothing is read on the way.
  ⟨rfl, rfl⟩

/-- Points that join a common one join each other. -/
theorem trans (first : Joins limit point other) (second : Joins limit other third) :
    Joins limit point third :=
  -- Both parts are equations, which are chained.
  ⟨first.ends.trans second.ends, first.nests.trans second.nests⟩

/-- A point joins the one behind its next character, as long as there is room for the open lists. -/
theorem step {c : Char} (room : state.frames.length ≤ limit)
    (taken : step state c (c :: rest) place = .ok next) :
    Joins limit ⟨state, place, c :: rest⟩ ⟨next, place + 1, rest⟩ where
  -- One step is unfolded on each side, and the lists that are open are within the limit.
  ends := by
    rw [run, taken]
    rfl
  nests := by
    rw [nestsBeyond, if_neg (Nat.not_lt.mpr room), taken]

end Joins

end Points

/-- An atom ends before a text: at its end, or at a character that ends atoms. -/
def Ends (rest : List Char) : Prop :=
  -- An atom goes on until such a character, so the end of the text is one as well.
  ∀ c ∈ rest.head?, endsAtom c = true

/-- A text is read as a value wherever it stands between expressions, if there is room for as
many further lists as it opens. -/
def Reads (limit height : Nat) (text : List Char) (value : Sexp) : Prop :=
  -- What is read is the value alone, whatever was read before and whatever follows.
  ∀ state place rest, state.mode = .between → state.frames.length + height ≤ limit → Ends rest →
    Joins limit ⟨state, place, text ++ rest⟩ ⟨state.push value, place + text.length, rest⟩

/-- A text that is read as a value is read on its own, within the limit. -/
theorem Reads.alone {limit height : Nat} {text : List Char} {value : Sexp}
    (reads : Reads limit height text value) (room : height ≤ limit) :
    read text = .ok value ∧ nestsBeyond limit {} 0 text = false := by
  -- The reader starts with nothing open, and nothing follows.
  have joins := reads {} 0 [] rfl (by simpa using room) (fun c head => by cases head)
  rw [List.append_nil] at joins
  exact ⟨joins.ends, joins.nests.trans (by simp [nestsBeyond, State.push])⟩

section Atoms

/-- A text without characters of a meaning of their own. -/
structure IsAtom (text : List Char) : Prop where
  -- Backslashes and primes mean something else in front of other characters.
  nonempty : text ≠ []
  plain : ∀ c ∈ text, endsAtom c = false ∧ c ≠ '\\' ∧ c ≠ '\''

variable {limit place : Nat} {state : State} {rest characters : List Char}

/-- At the end of an atom its value is an item. -/
theorem joins_atomValue (ends : Ends rest) :
    Joins limit ⟨{ state with mode := .atom characters }, place, rest⟩
      ⟨state.push (atomValue characters.reverse), place, rest⟩ := by
  -- The character that ends the atom is taken as it is between expressions.
  cases rest with
  | nil => exact ⟨rfl, rfl⟩
  | cons c rest =>
    have closes : endsAtom c = true := ends c rfl
    have same : step { state with mode := .atom characters } c (c :: rest) place =
        step (state.push (atomValue characters.reverse)) c (c :: rest) place := by
      simp [step, closes, State.push]
    constructor
    · rw [run, run, same]
    · rw [nestsBeyond, nestsBeyond, same]
      rfl

/-- Plain characters are added to an atom. -/
theorem joins_atom {text : List Char} (plain : ∀ c ∈ text, endsAtom c = false ∧ c ≠ '\\' ∧ c ≠ '\'')
    (room : state.frames.length ≤ limit) :
    Joins limit ⟨{ state with mode := .atom characters }, place, text ++ rest⟩
      ⟨{ state with mode := .atom (text.reverse ++ characters) }, place + text.length, rest⟩ := by
  -- Each character is added to the atom, and none of them ends it.
  induction text generalizing characters place with
  | nil => exact .refl
  | cons c text ih =>
    obtain ⟨goesOn, noEscape, _⟩ := plain c List.mem_cons_self
    have first : Joins limit ⟨{ state with mode := .atom characters }, place, c :: (text ++ rest)⟩
        ⟨{ state with mode := .atom (c :: characters) }, place + 1, text ++ rest⟩ :=
      .step room (by simp [step, goesOn, noEscape])
    have others :=
      @ih (place + 1) (c :: characters) fun d member => plain d (List.mem_cons_of_mem c member)
    refine first.trans ?_
    simpa [Nat.add_assoc, Nat.add_comm 1] using others

/-- An atom is read as its value. -/
theorem IsAtom.reads {text : List Char} (isAtom : IsAtom text) :
    Reads limit 0 text (atomValue text) := by
  intro state place rest between room ends
  obtain ⟨nonempty, plain⟩ := isAtom
  obtain ⟨c, more, rfl⟩ := List.exists_cons_of_ne_nil nonempty
  obtain ⟨opens, noEscape, noQuote⟩ := plain c List.mem_cons_self
  -- The first character opens the atom, the others are added to it, and then its value is known.
  have first : Joins limit ⟨state, place, c :: (more ++ rest)⟩
      ⟨{ state with mode := .atom [c] }, place + 1, more ++ rest⟩ := by
    refine .step room ?_
    simp only [endsAtom, Bool.or_eq_false_iff, decide_eq_false_iff_not] at opens
    simp [step, startAt, between, opens, noEscape, noQuote]
  have others := @joins_atom limit (place + 1) state rest [c] more
    (fun d member => plain d (List.mem_cons_of_mem c member)) room
  have value :=
    @joins_atomValue limit (place + 1 + more.length) state rest (more.reverse ++ [c]) ends
  have whole := (first.trans others).trans value
  rw [List.reverse_append, List.reverse_reverse] at whole
  simpa [Nat.add_assoc, Nat.add_comm 1] using whole

end Atoms

section Texts

/-- A way to write the characters of a text between quotes: as they are, or as
a letter behind a backslash. -/
def Escapes (write : Char → List Char) : Prop :=
  -- A character stands for itself, or for what its letter is read as behind a backslash.
  ∀ c, write c = [c] ∧ c ≠ '"' ∧ c ≠ '\\' ∨
    ∃ letter, write c = ['\\', letter] ∧ textUnescape? letter = some c

variable {limit place : Nat} {state : State} {rest characters : List Char}

/-- Written characters are added to a text. -/
theorem joins_text {write : Char → List Char} (escapes : Escapes write) {text : List Char}
    (room : state.frames.length ≤ limit) :
    Joins limit ⟨{ state with mode := .text characters }, place, text.flatMap write ++ rest⟩
      ⟨{ state with mode := .text (text.reverse ++ characters) },
        place + (text.flatMap write).length, rest⟩ := by
  -- A character takes one step, or two when it was written behind a backslash.
  induction text generalizing characters place with
  | nil => exact .refl
  | cons c text ih =>
    rw [List.flatMap_cons]
    rcases escapes c with ⟨plain, noQuote, noEscape⟩ | ⟨letter, escaped, meant⟩
    · -- The character is taken as it is.
      rw [plain]
      have first : Joins limit ⟨{ state with mode := .text characters }, place,
        c :: (text.flatMap write ++ rest)⟩
          ⟨{ state with mode := .text (c :: characters) }, place + 1, text.flatMap write ++ rest⟩ :=
        .step room (by simp [step, noQuote, noEscape])
      have others := @ih (place + 1) (c :: characters)
      refine first.trans ?_
      simpa [Nat.add_assoc, Nat.add_comm 1] using others
    · -- The backslash is remembered, and the letter behind it tells the character.
      rw [escaped]
      have first : Joins limit
          ⟨{ state with mode := .text characters }, place,
            '\\' :: letter :: (text.flatMap write ++ rest)⟩
          ⟨{ state with mode := .textEscape characters }, place + 1,
            letter :: (text.flatMap write ++ rest)⟩ :=
        .step room (by simp [step])
      have second : Joins limit
          ⟨{ state with mode := .textEscape characters }, place + 1,
            letter :: (text.flatMap write ++ rest)⟩
          ⟨{ state with mode := .text (c :: characters) }, place + 1 + 1,
            text.flatMap write ++ rest⟩ :=
        .step room (by simp [step, meant])
      have others := @ih (place + 1 + 1) (c :: characters)
      have places : place + (['\\', letter] ++ text.flatMap write).length =
          place + 1 + 1 + (text.flatMap write).length := by
        rw [List.length_append]
        exact (Nat.add_assoc place 2 _).symm
      have turned : (c :: text).reverse ++ characters = text.reverse ++ c :: characters := by simp
      rw [places, turned]
      exact (first.trans second).trans others

/-- A written text is read as the text. -/
theorem Escapes.reads {write : Char → List Char} (escapes : Escapes write) (text : String) :
    Reads limit 0 ('"' :: text.toList.flatMap write ++ ['"']) (.text text) := by
  -- The quotes open and close the text, whatever is left behind it.
  intro state place rest between room _
  have first : Joins limit ⟨state, place, '"' :: (text.toList.flatMap write ++ '"' :: rest)⟩
      ⟨{ state with mode := .text [] }, place + 1, text.toList.flatMap write ++ '"' :: rest⟩ :=
    .step room (by simp [step, startAt, between])
  have others := @joins_text limit (place + 1) state ('"' :: rest) [] write escapes text.toList room
  have last : Joins limit
      ⟨{ state with mode := .text (text.toList.reverse ++ []) },
        place + 1 + (text.toList.flatMap write).length, '"' :: rest⟩
      ⟨state.push (.text text), place + 1 + (text.toList.flatMap write).length + 1, rest⟩ :=
    .step room (by simp [step, State.push])
  have whole := (first.trans others).trans last
  simpa [Nat.add_assoc, Nat.add_comm, Nat.add_left_comm] using whole

end Texts

section Lists

/-- Parts that follow each other with blanks between them. -/
inductive Spaced : List (List Char) → List Char → Prop where
  -- Only between two parts there is a gap, and none at the ends.
  | nil : Spaced [] []
  | single (part : List Char) : Spaced [part] part
  | cons (part : List Char) {gap body : List Char} {parts : List (List Char)} (nonempty : gap ≠ [])
      (blank : ∀ c ∈ gap, isSpace c = true) (further : parts ≠ []) (more : Spaced parts body) :
      Spaced (part :: parts) (part ++ gap ++ body)

variable {limit place height : Nat} {state : State} {rest : List Char}

/-- A blank ends an atom. -/
theorem endsAtom_of_isSpace {c : Char} (space : isSpace c = true) : endsAtom c = true := by
  -- Blanks are among the characters that end an atom.
  simp [endsAtom, space]

/-- Blanks between expressions are skipped. -/
theorem joins_blanks {gap : List Char} (blank : ∀ c ∈ gap, isSpace c = true)
    (between : state.mode = .between) (room : state.frames.length ≤ limit) :
    Joins limit ⟨state, place, gap ++ rest⟩ ⟨state, place + gap.length, rest⟩ := by
  -- Each blank leaves the state as it is, since nothing has begun.
  induction gap generalizing place with
  | nil => exact .refl
  | cons c gap ih =>
    -- No blank is a quote, so it begins nothing.
    have space := blank c List.mem_cons_self
    have noQuote : c ≠ '"' := by
      rintro rfl
      exact absurd space (by decide)
    have first : Joins limit ⟨state, place, c :: (gap ++ rest)⟩ ⟨state, place + 1,
        gap ++ rest⟩ := by
      refine .step room ?_
      obtain ⟨mode, items, frames⟩ := state
      cases between
      simp [step, startAt, noQuote, space]
    have others := @ih (place + 1) fun d member => blank d (List.mem_cons_of_mem c member)
    rw [Nat.add_assoc, Nat.add_comm 1] at others
    exact first.trans others

/-- Items are read one after the other, up to the end of their list. -/
theorem joins_items {parts : List (List Char)} {body : List Char} (spaced : Spaced parts body)
    {values : List Sexp} (reads : List.Forall₂ (Reads limit height) parts values)
    (between : state.mode = .between) (room : state.frames.length + height ≤ limit)
    (ends : Ends rest) :
    Joins limit ⟨state, place, body ++ rest⟩
      ⟨{ state with items := values.reverse ++ state.items }, place + body.length, rest⟩ := by
  -- An item ends at the blanks behind it, and the last one at the end of the list.
  induction spaced generalizing state place values with
  | nil =>
    -- Without parts, there is nothing to read.
    cases reads
    exact .refl
  | single part =>
    cases reads with
    | cons first none =>
      cases none
      have here := first state place rest between room ends
      simpa [State.push, between] using here
  | @cons part gap body parts nonempty blank _ more ih =>
    cases reads with
    | @cons _ value _ values first others =>
      -- The gap begins with a blank, which ends the item in front of it.
      have stop : Ends (gap ++ (body ++ rest)) := by
        obtain ⟨c, more, rfl⟩ := List.exists_cons_of_ne_nil nonempty
        intro d head
        cases head
        exact endsAtom_of_isSpace (blank c List.mem_cons_self)
      have here := first state place (gap ++ (body ++ rest)) between room stop
      have skipped :=
        @joins_blanks limit (place + part.length) (state.push value) (body ++ rest) gap blank rfl
        (Nat.le_of_add_right_le room)
      have later := @ih (place + part.length + gap.length) (state.push value) values others rfl room
      have whole := (here.trans skipped).trans later
      simpa [State.push, between, Nat.add_assoc] using whole

/-- A list is read as the list of its items. -/
theorem Spaced.reads {parts : List (List Char)} {body : List Char} (spaced : Spaced parts body)
    {values : List Sexp} (reads : List.Forall₂ (Reads limit height) parts values) :
    Reads limit (height + 1) ('(' :: body ++ [')']) (.list values) := by
  -- The items are read one level deeper, and the closing mark takes them off again.
  intro state place rest between room _
  have deep : (state.opened .round).frames.length + height ≤ limit := by
    simp only [State.opened, List.length_cons]
    omega
  have first : Joins limit ⟨state, place, '(' :: (body ++ ')' :: rest)⟩
      ⟨state.opened .round, place + 1, body ++ ')' :: rest⟩ :=
    .step (Nat.le_of_add_right_le room) (by simp [step, startAt, between, isSpace])
  -- The closing mark ends the last item.
  have closes : Ends (')' :: rest) := by
    intro c head
    cases head
    rfl
  have items := @joins_items limit (place + 1) height (state.opened .round) (')' :: rest) parts body
    spaced values reads
    rfl deep closes
  have last : Joins limit
      ⟨{ state.opened .round with items := values.reverse ++ (state.opened .round).items },
        place + 1 + body.length, ')' :: rest⟩
      ⟨state.push (.list values), place + 1 + body.length + 1, rest⟩ := by
    refine .step (Nat.le_of_add_right_le deep) ?_
    simp [step, startAt, State.opened, State.push, close, closeQuotes, isSpace, Bind.bind,
      Except.bind, Pure.pure, Except.pure]
  have whole := (first.trans items).trans last
  simpa [Nat.add_assoc, Nat.add_comm, Nat.add_left_comm] using whole

end Lists

end Overlap.Sexp
