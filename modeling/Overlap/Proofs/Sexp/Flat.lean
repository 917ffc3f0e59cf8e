import Overlap.Proofs.Diagnostic.Excerpt
import Overlap.Proofs.Sexp.Layouts

/-! S-expressions whose atoms hold no line ends and no parentheses, and the line that
such a one takes when it fits. -/

namespace Overlap

section Characters

/-- Characters that neither end a line nor open or close a list. -/
def isInline (c : Char) : Bool :=
  -- Only these three characters matter for the shape of a text.
  c != '\n' && c != '(' && c != ')'

/-- A text without line ends and parentheses. -/
def Inline (text : List Char) : Prop :=
  -- Such a text lies on one line, and opens and closes nothing.
  ∀ c ∈ text, isInline c = true

/-- A text that is checked character by character. -/
theorem inline_of_all {text : List Char} (all : text.all isInline = true) : Inline text :=
  -- The characters are tested one by one.
  List.all_eq_true.mp all

/-- Two texts in a row hold what each of them holds. -/
theorem inline_append {text other : List Char} :
    Inline (text ++ other) ↔ Inline text ∧ Inline other :=
  -- Each character belongs to one of the parts.
  List.forall_mem_append

/-- Line ends and parentheses do not occur in an inline text. -/
theorem Inline.not_mem {text : List Char} (inline : Inline text) {c : Char}
    (special : isInline c = false) :
    c ∉ text := by
  -- A character that is not inline would have to be one of the text.
  intro member
  rw [inline c member] at special
  cases special

/-- Digits are inline. -/
theorem inline_of_isDigit {digits : List Char} (all : ∀ c ∈ digits, isDigit c = true) :
    Inline digits := by
  intro c member
  have digit := all c member
  -- The three characters that are not inline are no digits either.
  by_contra special
  simp only [isInline, Bool.and_eq_true, bne_iff_ne, ne_eq, not_and_or, not_not] at special
  rcases special with (rfl | rfl) | rfl <;> exact absurd digit (by decide)

/-- Integers are written inline. -/
theorem inline_toString (value : Int) : Inline (toString value).toList := by
  -- Besides its digits, an integer has at most a sign.
  have digits := inline_of_isDigit (Sexp.proper_natAbs value).2
  rw [Sexp.toList_toString]
  split
  · exact digits
  · exact List.forall_mem_cons.mpr ⟨by decide, digits⟩

end Characters

namespace Double

/-- Zeros are inline, however many there are. -/
theorem inline_zeros (count : Nat) : Inline (List.replicate count '0') :=
  -- Zero is a digit, and digits are inline.
  inline_of_isDigit fun _ member => List.eq_of_mem_replicate member ▸ by decide

/-- Exponents are written inline. -/
theorem inline_exponentText (exponent : Int) : Inline (exponentText exponent).toList := by
  -- The exponent is a sign and digits, with a zero in front of a single one.
  have digits : Inline (toString exponent.natAbs).toList := inline_toString exponent.natAbs
  have sign : Inline (if exponent < 0 then "-" else "+").toList := by
    split <;> exact inline_of_all (by decide)
  unfold exponentText
  dsimp only
  rw [String.toList_append, inline_append]
  refine ⟨sign, ?_⟩
  split
  · rw [String.toList_append, inline_append]
    exact ⟨inline_of_all (by decide), digits⟩
  · exact digits

/-- A decimal point or an exponent keeps digits inline. -/
theorem inline_decimalText {digits : List Char} (inline : Inline digits) (place : Int) :
    Inline (decimalText digits place).toList := by
  have point : isInline '.' = true := by decide
  unfold decimalText
  dsimp only
  split
  · rw [String.toList_ofList]
    -- The digits stand behind the point, in front of it, or on both sides.
    split
    · exact inline_append.mpr ⟨List.forall_mem_cons.mpr ⟨by decide,
        List.forall_mem_cons.mpr ⟨point, inline_zeros _⟩⟩, inline⟩
    · split
      · exact inline_append.mpr ⟨inline_append.mpr ⟨inline, inline_zeros _⟩,
          inline_of_all (by decide)⟩
      · exact inline_append.mpr ⟨fun c member => inline c (List.mem_of_mem_take member),
          List.forall_mem_cons.mpr ⟨point, fun c member => inline c (List.mem_of_mem_drop member)⟩⟩
  · rw [String.toList_append, String.toList_append, String.toList_ofList, inline_append,
      inline_append]
    refine ⟨⟨?_, inline_of_all (by decide)⟩, inline_exponentText _⟩
    -- The point stands behind the first digit if there are more.
    split
    · obtain ⟨here, others⟩ := List.forall_mem_cons.mp inline
      exact List.forall_mem_cons.mpr ⟨here, List.forall_mem_cons.mpr ⟨point, others⟩⟩
    · exact inline

/-- Double precision numbers are written inline. -/
theorem inline_text (value : Double) : Inline value.text.toList := by
  -- Words and digits are inline, and so are the sign and the point between them.
  cases value with
  | nan => exact inline_of_all (by decide)
  | infinite negative => cases negative <;> exact inline_of_all (by decide)
  | finite negative mantissa exponent =>
    have sign : Inline (if negative then "-" else "").toList := by
      cases negative <;> exact inline_of_all (by decide)
    unfold text
    dsimp only
    split
    · rw [String.toList_append, inline_append]
      exact ⟨sign, inline_of_all (by decide)⟩
    · rw [String.toList_append, inline_append]
      exact ⟨sign, inline_decimalText (inline_toString (shortest mantissa exponent).digits) _⟩

end Double

namespace Sexp

section Shape

/-- Lists, as opposed to atoms. -/
def isList : Sexp → Bool
  -- Brackets are no lists here, as they are never broken into lines.
  | .list _ => true
  | _ => false

mutual

/-- Neither a text nor a symbol in an S-expression holds line ends or parentheses. Brackets and
quotes are written with parentheses. -/
def InlineAtoms : Sexp → Prop
  -- Brackets and quotes are excluded, because they show what is inside of them in another form.
  | .list items => InlineAtomsAll items
  | .text value => Inline value.toList
  | .symbol name => Inline name.toList
  | .bracket _ => False
  | .quoted _ => False
  | _ => True

/-- The same for the items of a list. -/
def InlineAtomsAll : List Sexp → Prop
  -- Lists are nested, so their items need a recursion of their own.
  | [] => True
  | item :: rest => InlineAtoms item ∧ InlineAtomsAll rest

end

mutual

/-- No list in an S-expression begins with a list. -/
def AtomHeaded : Sexp → Prop
  -- The head matters at every level.
  | .list items => (∀ head ∈ items.head?, head.isList = false) ∧ AtomHeadedAll items
  | _ => True

/-- The same for the items of a list. -/
def AtomHeadedAll : List Sexp → Prop
  | [] => True
  | item :: rest => AtomHeaded item ∧ AtomHeadedAll rest

end

/-- An S-expression is nested in another one, or is the other one itself. -/
inductive Contains (whole : Sexp) : Sexp → Prop where
  -- Every list hands on its items, at any depth.
  | itself : Contains whole whole
  | item {items : List Sexp} {item : Sexp} (list : Contains whole (.list items))
      (member : item ∈ items) :
      Contains whole item

/-- What holds of atoms, and of lists when it holds of their items, holds of every S-expression. -/
theorem forall_of_items {holds : Sexp → Prop} (atom : ∀ sexp, sexp.isList = false → holds sexp)
    (list : ∀ items, (∀ item ∈ items, holds item) → holds (.list items)) (sexp : Sexp) :
    holds sexp := by
  -- The recursor treats the items of a list one by one; here they are taken together.
  refine @Sexp.rec holds (fun items => ∀ item ∈ items, holds item)
    ?nothing ?flag ?int ?real ?text ?symbol ?list ?bracket ?quoted ?nil ?cons sexp
  case list => exact list
  case nil => exact fun item member => (List.not_mem_nil member).elim
  case cons => exact fun _ _ first others => List.forall_mem_cons.mpr ⟨first, others⟩
  all_goals
    intros
    exact atom _ rfl

/-- The atoms of a list are those of its items. -/
theorem inlineAtoms_list {items : List Sexp} :
    (Sexp.list items).InlineAtoms ↔ ∀ item ∈ items, item.InlineAtoms := by
  -- The condition on all items is defined by recursion, and stated for each member here.
  have all : InlineAtomsAll items ↔ ∀ item ∈ items, item.InlineAtoms := by
    induction items with
    | nil => simp [InlineAtomsAll]
    | cons item items ih => rw [InlineAtomsAll, ih, List.forall_mem_cons]
  exact all

/-- A word without line ends and parentheses is an inline atom. -/
theorem inlineAtoms_symbol {name : String} (all : name.toList.all isInline = true) :
    (Sexp.symbol name).InlineAtoms :=
  -- The characters of a symbol are written as they are.
  inline_of_all all

/-- A list is headed by atoms when it does not begin with a list, and
its items are headed by atoms. -/
theorem atomHeaded_list {items : List Sexp} : (Sexp.list items).AtomHeaded ↔
    (∀ head ∈ items.head?, head.isList = false) ∧ ∀ item ∈ items, item.AtomHeaded := by
  -- The condition on all items is stated for each member.
  have all : AtomHeadedAll items ↔ ∀ item ∈ items, item.AtomHeaded := by
    induction items with
    | nil => simp [AtomHeadedAll]
    | cons item items ih => rw [AtomHeadedAll, ih, List.forall_mem_cons]
  rw [AtomHeaded, all]

/-- A list that begins with a symbol is headed by atoms when its items are. -/
theorem atomHeaded_titled {name : String} {items : List Sexp}
    (each : ∀ item ∈ items, item.AtomHeaded) :
    (Sexp.list (.symbol name :: items)).AtomHeaded := by
  -- A title is a symbol, and symbols are no lists.
  refine atomHeaded_list.mpr ⟨fun head found => ?_, List.forall_mem_cons.mpr ⟨trivial, each⟩⟩
  cases found
  rfl

/-- What is nested in an S-expression has inline atoms as well. -/
theorem Contains.inlineAtoms {whole sexp : Sexp} (contained : whole.Contains sexp)
    (inline : whole.InlineAtoms) :
    sexp.InlineAtoms := by
  -- The property is inherited from a list by its items.
  induction contained with
  | itself => exact inline
  | item _ member ih => exact inlineAtoms_list.mp ih _ member

/-- What is nested in an S-expression is headed by atoms as well. -/
theorem Contains.atomHeaded {whole sexp : Sexp} (contained : whole.Contains sexp)
    (headed : whole.AtomHeaded) :
    sexp.AtomHeaded := by
  -- The property is inherited from a list by its items.
  induction contained with
  | itself => exact headed
  | item _ member ih => exact (atomHeaded_list.mp ih).2 _ member

end Shape

section Parts

/-- Parts on one line follow each other with a blank in front of each further one. -/
theorem toList_parts (part : String) (parts : List String) :
    (" ".intercalate (part :: parts)).toList = part.toList ++ parts.flatMap (' ' :: ·.toList) :=
  -- A blank is a separator of one character.
  toList_intercalate_cons " " part parts

/-- One line is made of its parts between parentheses. -/
theorem toList_oneLine (parts : List String) :
    (oneLine parts).toList = '(' :: ((" ".intercalate parts).toList ++ [')']) := by
  -- The parentheses enclose the parts.
  simp [oneLine]

/-- A part is found on the line. -/
theorem infix_parts {part : String} {parts : List String} (member : part ∈ parts) :
    part.toList <:+: (" ".intercalate parts).toList := by
  cases parts with
  | nil => exact (List.not_mem_nil member).elim
  | cons first others =>
    rw [toList_parts]
    rcases List.mem_cons.mp member with rfl | member
    · exact (List.prefix_append _ _).isInfix
    · -- A further part stands behind its blank.
      obtain ⟨before, behind, rfl⟩ := List.append_of_mem member
      refine ⟨first.toList ++ before.flatMap (' ' :: ·.toList) ++ [' '],
        behind.flatMap (' ' :: ·.toList), ?_⟩
      simp

/-- What holds of all parts and of blanks, and of two texts in a row when it holds
of each, holds of the line. -/
theorem forall_parts {holds : List Char → Prop} (empty : holds []) (blank : holds [' '])
    (append : ∀ text other, holds text → holds other → holds (text ++ other)) {parts : List String}
    (each : ∀ part ∈ parts, holds part.toList) : holds (" ".intercalate parts).toList := by
  cases parts with
  | nil => exact empty
  | cons first others =>
    obtain ⟨here, later⟩ := List.forall_mem_cons.mp each
    rw [toList_parts]
    refine append _ _ here ?_
    -- Each further part is added with the blank in front of it.
    clear each
    induction others with
    | nil => exact empty
    | cons part others ih =>
      obtain ⟨next, later⟩ := List.forall_mem_cons.mp later
      exact append _ _ (append [' '] _ blank next) (ih later)

/-- A list without a line end stands on one line, whether it fits there or not. -/
theorem arrange_eq_oneLine {layout : Layout} {depth : Int} {parts : List String}
    (noBreak : '\n' ∉ (arrange layout depth parts).toList) :
    arrange layout depth parts = oneLine parts := by
  cases parts with
  | nil => rfl
  | cons first others =>
    by_cases short : fits layout depth (oneLine (first :: others)) = true
    · simp only [arrange, short, if_true]
    · cases rest : others.dropWhile fun part => !looksNested part with
      | nil =>
        -- Without such a part, all others are on the opening line.
        have atoms : (others.takeWhile fun part => !looksNested part) = others := by
          have whole := @List.takeWhile_append_dropWhile _ (fun part => !looksNested part) others
          rwa [rest, List.append_nil] at whole
        simp [arrange, List.span_eq_takeWhile_dropWhile, rest, atoms, oneLine]
      | cons next further =>
        -- Every part behind the opening line would bring a line end.
        refine absurd ?_ noBreak
        simp [arrange, short, List.span_eq_takeWhile_dropWhile, rest]

end Parts

section Flat

mutual

/-- An S-expression on one line. -/
def flat : Sexp → String
  -- Lists are put on one line at every level.
  | .list items => oneLine (flatAll items)
  | atom => atom.pretty {} 0

/-- Every item of a list on one line. -/
def flatAll : List Sexp → List String
  | [] => []
  | item :: rest => flat item :: flatAll rest

end

/-- The line of a list is made of those of its items. -/
theorem flat_list (items : List Sexp) : (Sexp.list items).flat = oneLine (items.map flat) := by
  -- The recursion over the items is a map.
  have all : flatAll items = items.map flat := by
    induction items with
    | nil => rfl
    | cons item items ih => rw [flatAll, ih, List.map_cons]
  rw [flat, all]

/-- A list is laid out by the layouts of its items, one level deeper. -/
theorem pretty_list (layout : Layout) (depth : Int) (items : List Sexp) :
    (Sexp.list items).pretty layout depth =
      arrange layout depth (items.map (pretty layout (depth + 1))) := by
  -- The items stand one level deeper.
  rw [pretty, prettyAll_eq]

/-- An atom looks the same in every layout. -/
theorem pretty_atom {sexp : Sexp} (atom : sexp.isList = false) (layout : Layout) (depth : Int) :
    sexp.pretty layout depth = sexp.flat := by
  -- Nothing but a list looks at the layout or the depth.
  cases sexp with
  | list => cases atom
  | flag value => cases value <;> rfl
  | _ => rfl

/-- Inline atoms are written inline. -/
theorem inline_flat {sexp : Sexp} (inline : sexp.InlineAtoms) (atom : sexp.isList = false) :
    Inline sexp.flat.toList := by
  cases sexp with
  | list => cases atom
  | nothing => exact inline_of_all (by decide)
  | flag value => cases value <;> exact inline_of_all (by decide)
  | int value => exact inline_toString value
  | real value => exact value.inline_text
  | symbol => exact inline
  | bracket => exact inline.elim
  | quoted => exact inline.elim
  | text value =>
    -- Only backslashes are added, and quotes at both ends.
    have written : (Sexp.text value).flat = prettyText value := rfl
    rw [written, prettyText, String.toList_ofList, List.cons_append]
    refine List.forall_mem_cons.mpr ⟨by decide,
      inline_append.mpr ⟨fun c member => ?_, inline_of_all (by decide)⟩⟩
    obtain ⟨d, found, member⟩ := List.mem_flatMap.mp member
    -- A character is written as it is, or behind a backslash.
    split at member
    · rcases List.mem_pair.mp member with rfl | rfl
      · decide
      · exact inline c found
    · rw [List.mem_singleton.mp member]
      exact inline d found

/-- On its line, an S-expression closes as many lists as it opens, and there is no line end. -/
theorem balanced_flat {sexp : Sexp} (inline : sexp.InlineAtoms) :
    sexp.flat.toList.count '(' = sexp.flat.toList.count ')' ∧ '\n' ∉ sexp.flat.toList := by
  induction sexp using forall_of_items with
  | atom sexp atom =>
    -- An atom has no parentheses at all.
    have plain := inline_flat inline atom
    rw [List.count_eq_zero_of_not_mem (plain.not_mem (by decide)),
      List.count_eq_zero_of_not_mem (plain.not_mem (by decide))]
    exact ⟨rfl, plain.not_mem (by decide)⟩
  | list items each =>
    -- Both counts add up over the items, and none of them brings a line end.
    have body : (" ".intercalate (items.map flat)).toList.count '(' =
      (" ".intercalate (items.map flat)).toList.count ')' ∧
        '\n' ∉ (" ".intercalate (items.map flat)).toList := by
      refine @forall_parts (fun text => text.count '(' = text.count ')' ∧ '\n' ∉ text) (by simp)
        (by simp) ?_ _ ?_
      · rintro text other ⟨same, noBreak⟩ ⟨otherSame, otherNoBreak⟩
        rw [List.count_append, List.count_append, same, otherSame, List.mem_append, not_or]
        exact ⟨rfl, noBreak, otherNoBreak⟩
      · intro part member
        obtain ⟨item, inside, rfl⟩ := List.mem_map.mp member
        exact each item inside (inlineAtoms_list.mp inline item inside)
    -- The list itself adds one parenthesis of each kind.
    rw [flat_list, toList_oneLine]
    generalize (" ".intercalate (items.map flat)).toList = text at body
    refine ⟨?_, by simpa using body.2⟩
    simp [List.count_append, body.1]

/-- A layout without a line end is the line of the S-expression. -/
theorem pretty_eq_flat {layout : Layout} {sexp : Sexp} {depth : Int}
    (noBreak : '\n' ∉ (sexp.pretty layout depth).toList) :
    sexp.pretty layout depth = sexp.flat := by
  induction sexp using forall_of_items generalizing depth with
  | atom sexp atom => exact pretty_atom atom layout depth
  | list items each =>
    rw [pretty_list] at noBreak ⊢
    have line := arrange_eq_oneLine noBreak
    rw [line, toList_oneLine] at noBreak
    -- No item has a line end either, so each of them is its own line.
    have same : items.map (pretty layout (depth + 1)) = items.map flat := by
      refine List.map_congr_left fun item member => each item member fun lineEnd => noBreak ?_
      have inside := (infix_parts (List.mem_map_of_mem member)).subset lineEnd
      exact List.mem_cons_of_mem _ (List.mem_append_left _ inside)
    rw [line, same, flat_list]

/-- A line fits by default when it is not too wide behind two columns for each level. -/
theorem fits_iff {width depth : Int} {line : String} :
    fits { width } depth line = true ↔ line.length + 2 * depth ≤ width ∧ '\n' ∉ line.toList := by
  -- Two blanks are counted for each level.
  have indent : "  ".length = 2 := by decide
  simp [fits, indent]

/-- An S-expression that fits on one line, with two columns for each level, stands on that line. -/
theorem pretty_eq_flat_of_fits {width : Int} {sexp : Sexp} (inline : sexp.InlineAtoms) {depth : Int}
    (short : sexp.flat.length + 2 * depth ≤ width) : sexp.pretty { width } depth = sexp.flat := by
  induction sexp using forall_of_items generalizing depth with
  | atom sexp atom => exact pretty_atom atom _ depth
  | list items each =>
    have noBreak := (balanced_flat inline).2
    rw [flat_list] at short noBreak
    -- The parentheses of the list make up for the two columns of the next level.
    have same : items.map (pretty { width } (depth + 1)) = items.map flat := by
      refine List.map_congr_left fun item member =>
        each item member (inlineAtoms_list.mp inline item member) ?_
      have shorter := (infix_parts (List.mem_map_of_mem (f := flat) member)).length_le
      have around : (oneLine (items.map flat)).length =
          (" ".intercalate (items.map flat)).toList.length + 2 := by
        rw [← String.length_toList, toList_oneLine]
        simp
      rw [String.length_toList] at shorter
      omega
    -- The line of the list fits, so it is not broken.
    have fitting := fits_iff.mpr ⟨short, noBreak⟩
    rw [pretty_list, same, flat_list]
    cases items with
    | nil => rfl
    | cons item items =>
      rw [List.map_cons] at fitting ⊢
      simp only [arrange, fitting, if_true]

end Flat

end Sexp

end Overlap
