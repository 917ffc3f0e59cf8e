import Overlap.Proofs.Diagnostic.Excerpt
import Overlap.Proofs.Sexp.Flat

/-! The lines of a layout: a list that is kept on a line ends within the width, and what reaches
beyond the width are atoms and closing parentheses. -/

namespace Overlap

section Lines

/-- Characters in front of the lines of a text go to its first line. -/
theorem foldr_consLine {line : List Char} (oneLine : '\n' ∉ line) (first : List Char)
    (others : List (List Char)) :
    line.foldr consLine (first :: others) = (line ++ first) :: others := by
  -- Only a line end would begin a new line.
  induction line with
  | nil => rfl
  | cons c line ih =>
    rw [List.mem_cons, not_or] at oneLine
    rw [List.foldr_cons, ih oneLine.2, consLine, if_neg (Ne.symm oneLine.1), List.cons_append]

/-- A text without a line end is one line. -/
theorem splitLines_eq_singleton {line : List Char} (oneLine : '\n' ∉ line) :
    splitLines line = [line] := by
  -- Without a line end, everything goes into the first line.
  rw [splitLines, foldr_consLine oneLine, List.append_nil]

/-- The first line of a text ends at its first line end. -/
theorem splitLines_append {line : List Char} (oneLine : '\n' ∉ line) (text : List Char) :
    splitLines (line ++ '\n' :: text) = line :: splitLines text := by
  -- What is behind has at least one line, and the line end puts an empty one in front of it.
  obtain ⟨first, others, lines⟩ := List.exists_cons_of_ne_nil (splitLines_oneLine text).1
  have behind : ('\n' :: text).foldr consLine [[]] = [] :: splitLines text := by
    rw [List.foldr_cons, ← splitLines, lines]
    rfl
  rw [splitLines, List.foldr_append, behind, foldr_consLine oneLine, List.append_nil]

/-- A text whose first line is of one kind, and whose further lines are of another. -/
inductive Lined (further : List Char → Prop) : (List Char → Prop) → List Char → Prop where
  -- The first line has a property of its own, as it may start in the middle of a line.
  | last {first : List Char → Prop} {line : List Char} (oneLine : '\n' ∉ line)
      (holds : first line) :
      Lined further first line
  | cons {first : List Char → Prop} {line text : List Char} (oneLine : '\n' ∉ line)
      (holds : first line)
      (rest : Lined further further text) : Lined further first (line ++ '\n' :: text)

namespace Lined

variable {first further other : List Char → Prop} {text : List Char}

/-- The lines of such a text are of these kinds. -/
theorem exists_splitLines (lined : Lined further first text) :
    ∃ line lines, splitLines text = line :: lines ∧ first line ∧
      ∀ later ∈ lines, further later := by
  -- Each line end begins a new line of the list.
  induction lined with
  | last oneLine holds => exact ⟨_, [], splitLines_eq_singleton oneLine, holds, by simp⟩
  | cons oneLine holds _ ih =>
    obtain ⟨line, lines, found, next, later⟩ := ih
    exact ⟨_, line :: lines, by rw [splitLines_append oneLine, found], holds,
      List.forall_mem_cons.mpr ⟨next, later⟩⟩

/-- What is put in front of a text stands on its first line. -/
theorem prepend (lined : Lined further first text) {lead : List Char} (oneLine : '\n' ∉ lead)
    (starts : ∀ line, first line → other (lead ++ line)) : Lined further other (lead ++ text) := by
  -- The text in front only changes the first line.
  have joined {line : List Char} (lineOnly : '\n' ∉ line) : '\n' ∉ lead ++ line := by
    rw [List.mem_append, not_or]
    exact ⟨oneLine, lineOnly⟩
  cases lined with
  | last lineOnly holds => exact .last (joined lineOnly) (starts _ holds)
  | cons lineOnly holds rest =>
    rw [← List.append_assoc]
    exact .cons (joined lineOnly) (starts _ holds) rest

/-- What is put behind a text stands on its last line, which may be its first one. -/
theorem append (lined : Lined further first text) {more : List Char} (oneLine : '\n' ∉ more)
    (grows : ∀ line, first line → first (line ++ more))
    (furtherGrows : ∀ line, further line → further (line ++ more)) :
    Lined further first (text ++ more) := by
  -- The text behind only changes the last line, which may be the first one or a later one.
  induction lined with
  | last lineOnly holds =>
    refine .last ?_ (grows _ holds)
    rw [List.mem_append, not_or]
    exact ⟨lineOnly, oneLine⟩
  | cons lineOnly holds _ ih =>
    rw [List.append_assoc, List.cons_append]
    exact .cons lineOnly holds (ih furtherGrows)

/-- A text behind a line end brings further lines only. -/
theorem follow (lined : Lined further first text) {part : List Char}
    (next : Lined further further part) :
    Lined further first (text ++ '\n' :: part) := by
  -- The part begins behind the last line.
  induction lined with
  | last lineOnly holds => exact .cons lineOnly holds next
  | cons lineOnly holds _ ih =>
    rw [List.append_assoc, List.cons_append]
    exact .cons lineOnly holds ih

/-- So do several texts, each of them behind a line end. -/
theorem join (lined : Lined further first text) {parts : List (List Char)}
    (each : ∀ part ∈ parts, Lined further further part) :
    Lined further first (text ++ parts.flatMap ('\n' :: ·)) := by
  -- The parts are added one by one, each behind a line end.
  induction parts generalizing text with
  | nil => rwa [List.flatMap_nil, List.append_nil]
  | cons part parts ih =>
    obtain ⟨next, later⟩ := List.forall_mem_cons.mp each
    rw [List.flatMap_cons, ← List.append_assoc]
    exact ih (lined.follow next) later

end Lined

end Lines

namespace Sexp

section Placement

/-- What stands on a line behind the blanks of its level, in a layout of the whole S-expression. -/
inductive LineFrom (whole : Sexp) (width : Int) (depth : Nat) : List Char → Prop where
  /-- Lists are opened, and none follows. More than one list is opened only where
  a list begins with a list. -/
  | opening {opened : Nat} {behind : List Char} (noList : '(' ∉ behind) (single : whole.AtomHeaded →
      opened ≤ 1) :
      LineFrom whole width depth (List.replicate opened '(' ++ behind)
  /-- A nested list is kept within the width, even if every list that is opened in front of it
  took a level. Such lists, and anything but closing parentheses behind it, are found only where
  a list begins with a list. -/
  | keeping {opened : Nat} {items : List Sexp} {behind : List Char}
      (nested : whole.Contains (.list items))
      (within : 2 * (depth + opened) + (Sexp.list items).flat.length ≤ width)
      (noList : '(' ∉ behind)
      (alone : whole.AtomHeaded → opened = 0 ∧ ∀ c ∈ behind, c = ')') :
      LineFrom whole width depth (List.replicate opened '(' ++
        ((Sexp.list items).flat.toList ++ behind))

/-- A line in a layout of the whole S-expression: two blanks for each level,
and what stands behind them. -/
def LineOf (whole : Sexp) (width : Int) (line : List Char) : Prop :=
  -- The level of a line is known from the blanks in front of it.
  ∃ depth rest, line = List.replicate (2 * depth) ' ' ++ rest ∧ LineFrom whole width depth rest

/-- Closing parentheses on a line beyond those of the lists that are opened there: they
close lists of earlier lines. -/
def strayClosers (line : List Char) : Nat :=
  -- Lists that begin on an earlier line may end on this one.
  line.count ')' - line.count '('

variable {whole : Sexp} {width : Int} {depth : Nat} {line more : List Char}

/-- Closing parentheses may follow on a line, and also atoms where a list begins with a list. -/
theorem LineFrom.grow (placed : LineFrom whole width depth line) (noList : '(' ∉ more)
    (closing : whole.AtomHeaded → ∀ c ∈ more, c = ')') :
    LineFrom whole width depth (line ++ more) := by
  have joined {behind : List Char} (before : '(' ∉ behind) : '(' ∉ behind ++ more := by
    rw [List.mem_append, not_or]
    exact ⟨before, noList⟩
  -- Whatever follows is part of what stands behind the opened lists or the kept one.
  cases placed with
  | opening before single =>
    rw [List.append_assoc]
    exact .opening (joined before) single
  | keeping nested within before alone =>
    rw [List.append_assoc, List.append_assoc]
    refine .keeping nested within (joined before) fun headed => ⟨(alone headed).1, ?_⟩
    exact List.forall_mem_append.mpr ⟨(alone headed).2, closing headed⟩

/-- The same for a line with its blanks. -/
theorem LineOf.grow (placed : LineOf whole width line) (noList : '(' ∉ more)
    (closing : whole.AtomHeaded → ∀ c ∈ more, c = ')') : LineOf whole width (line ++ more) := by
  -- The blanks in front of the line are not affected.
  obtain ⟨depth, rest, rfl, placed⟩ := placed
  exact ⟨depth, rest ++ more, List.append_assoc _ _ _, placed.grow noList closing⟩

/-- Where a list begins with a list, the outer one is opened in front of the inner one. -/
theorem LineFrom.nest (placed : LineFrom whole width (depth + 1) line)
    (nestedHead : ¬ whole.AtomHeaded) :
    LineFrom whole width depth ('(' :: line) := by
  cases placed with
  | @opening opened _ noList =>
    rw [← List.cons_append, ← List.replicate_succ]
    exact .opening noList fun headed => (nestedHead headed).elim
  | @keeping opened _ _ nested within noList =>
    rw [← List.cons_append, ← List.replicate_succ]
    refine .keeping nested ?_ noList fun headed => (nestedHead headed).elim
    -- One level less and one opened list more leave the end of the kept list
    -- where it was allowed to be.
    push_cast at within ⊢
    omega

/-- Where no list begins with a list, a line that opens several lists is too wide by its
stray closing parentheses only. -/
theorem LineOf.count_le_one (placed : LineOf whole width line) (inline : whole.InlineAtoms)
    (headed : whole.AtomHeaded) (wide : width < line.length - strayClosers line) :
    line.count '(' ≤ 1 := by
  obtain ⟨depth, rest, rfl, placed⟩ := placed
  cases placed with
  | opening noList single =>
    -- All lists on the line are those that are opened at its beginning.
    simp [List.count_append, List.count_replicate, List.count_eq_zero_of_not_mem noList,
      single headed]
  | @keeping opened items behind nested within noList alone =>
    -- Behind the kept list there are stray closing parentheses only, and without them
    -- the line is not too wide.
    obtain ⟨rfl, closers⟩ := alone headed
    have balanced := (balanced_flat (nested.inlineAtoms inline)).1
    have closed : behind.count ')' = behind.length :=
      List.count_eq_length.mpr fun c member => (closers c member).symm
    have stray : strayClosers (List.replicate (2 * depth) ' ' ++ (List.replicate 0 '(' ++
        ((Sexp.list items).flat.toList ++ behind))) = behind.length := by
      simp [strayClosers, List.count_append, List.count_replicate, balanced, closed,
        List.count_eq_zero_of_not_mem noList]
    rw [stray, List.replicate_zero, List.nil_append, List.length_append, List.length_append,
      List.length_replicate, String.length_toList] at wide
    push_cast at wide within
    omega

end Placement

section Layouts

/-- Lists look like lists in every layout. -/
theorem looksNested_list (layout : Layout) (depth : Int) (items : List Sexp) :
    looksNested ((Sexp.list items).pretty layout depth) = true := by
  -- Fitting or not, a list begins with its opening parenthesis.
  rw [pretty_list]
  cases items.map (pretty layout (depth + 1)) with
  | nil =>
    rw [arrange]
    decide
  | cons first others =>
    rw [arrange]
    split <;> simp [looksNested, oneLine]

/-- What does not look like a list is an atom, and written inline. -/
theorem inline_of_not_looksNested {sexp : Sexp} (inline : sexp.InlineAtoms) {layout : Layout}
    {depth : Int} (atom : looksNested (sexp.pretty layout depth) = false) :
    Inline (sexp.pretty layout depth).toList := by
  -- An atom is its own line, and every list looks nested.
  cases shape : sexp.isList with
  | false =>
    rw [pretty_atom shape]
    exact inline_flat inline shape
  | true =>
    cases sexp with
    | list items =>
      rw [looksNested_list] at atom
      cases atom
    | _ => cases shape

/-- The items in front of the first list are atoms, and written inline. -/
theorem inline_takeWhile {items : List Sexp} (inlines : ∀ item ∈ items, item.InlineAtoms)
    (layout : Layout) (depth : Int) :
    Inline (((items.map (pretty layout depth)).takeWhile fun part => !looksNested part).flatMap
      (' ' :: ·.toList)) := by
  -- Blanks stand between the parts, each of which is an atom.
  intro c member
  obtain ⟨part, found, member⟩ := List.mem_flatMap.mp member
  obtain ⟨item, inside, rfl⟩ := List.mem_map.mp (List.takeWhile_subset _ found)
  have atom : looksNested (item.pretty layout depth) = false := by
    simpa using List.mem_takeWhile_imp found
  rcases List.mem_cons.mp member with rfl | member
  · decide
  · exact inline_of_not_looksNested (inlines item inside) atom c member

/-- A line begins with two blanks for each level. -/
theorem toList_lineStart (width : Int) (depth : Nat) :
    (lineStart { width } depth).toList = List.replicate (2 * depth) ' ' := by
  -- Each level adds two blanks.
  have indent : "  ".toList = List.replicate 2 ' ' := by decide
  rw [lineStart, String.toList_join, Int.toNat_natCast]
  dsimp only
  induction depth with
  | zero => rfl
  | succ depth ih =>
    rw [List.replicate_succ, List.flatMap_cons, ih, indent, ← List.replicate_add, Nat.mul_succ,
      Nat.add_comm]

/-- A list that does not fit has its head and the atoms behind it on the opening line. -/
theorem toList_arrange {layout : Layout} {depth : Int} {first : String} {others : List String}
    (wide : fits layout depth (oneLine (first :: others)) = false) :
    (arrange layout depth (first :: others)).toList =
      '(' :: (first.toList ++
        (others.takeWhile fun part => !looksNested part).flatMap (' ' :: ·.toList)) ++
        ((others.dropWhile fun part => !looksNested part).map fun part =>
          (lineStart layout (depth + 1)).toList ++ part.toList).flatMap ('\n' :: ·) ++ [')'] := by
  -- The parts of the opening line are joined by blanks, and every other part
  -- has a line start in front.
  have opening := toList_parts first (others.takeWhile fun part => !looksNested part)
  rw [arrange]
  simp only [wide, Bool.false_eq_true, if_false, List.span_eq_takeWhile_dropWhile,
    String.toList_append, opening, String.toList_join, List.flatMap_map]
  simp

/-- A list that fits is kept on its line. -/
theorem lined_kept {whole : Sexp} {width : Int} {depth : Nat} {items : List Sexp}
    (contained : whole.Contains (.list items))
    (short : fits { width } depth ((Sexp.list items).pretty { width } depth) = true) :
    Lined (LineOf whole width) (LineFrom whole width depth)
      ((Sexp.list items).pretty { width } depth).toList := by
  obtain ⟨narrow, noBreak⟩ := fits_iff.mp short
  have same := pretty_eq_flat noBreak
  rw [same] at narrow noBreak ⊢
  -- Nothing is opened in front of it, and nothing follows yet.
  have kept :=
    @LineFrom.keeping whole width depth 0 _ [] contained (by push_cast; omega) (by simp) (by simp)
  rw [List.replicate_zero, List.nil_append, List.append_nil] at kept
  exact .last noBreak kept

/-- An item behind the opening line begins a line with the blanks of its level. -/
theorem lined_further {whole : Sexp} {width : Int} {depth : Nat} {text : List Char}
    (item : Lined (LineOf whole width) (LineFrom whole width (depth + 1)) text) :
    Lined (LineOf whole width) (LineOf whole width)
      ((lineStart { width } (depth + 1)).toList ++ text) := by
  -- The blanks in front of the text are those of its level.
  have start := toList_lineStart width (depth + 1)
  rw [Int.natCast_succ] at start
  rw [start]
  refine item.prepend ?_ fun line placed => ⟨depth + 1, line, rfl, placed⟩
  intro member
  exact absurd (List.eq_of_mem_replicate member) (by decide)

/-- The head of a list and the atoms behind it stand on its opening line, where the
head may bring further lines. -/
theorem lined_opening {whole : Sexp} {width : Int} {depth : Nat} {first : Sexp} {others : List Sexp}
    (contained : whole.Contains (.list (first :: others))) (inline : first.InlineAtoms)
    (head : Lined (LineOf whole width) (LineFrom whole width (depth + 1))
      (first.pretty { width } (depth + 1)).toList)
    {atoms : List Char} (plain : Inline atoms) :
    Lined (LineOf whole width) (LineFrom whole width depth)
      ('(' :: ((first.pretty { width } (depth + 1)).toList ++ atoms)) := by
  have noList : '(' ∉ atoms := plain.not_mem (by decide)
  -- An atom as the head leaves a single line, on which one list is opened.
  cases shape : first.isList with
  | false =>
    have together := inline_append.mpr ⟨inline_flat inline shape, plain⟩
    rw [pretty_atom shape]
    refine .last ?_ (@LineFrom.opening _ _ _ 1 _ (together.not_mem (by decide)) fun _ =>
      Nat.le_refl 1)
    exact List.not_mem_cons_of_ne_of_not_mem (by decide) (together.not_mem (by decide))
  | true =>
    -- A list as the head may be followed by anything, since the whole is not headed by atoms.
    have nestedHead : ¬ whole.AtomHeaded := by
      intro headed
      have atom := (atomHeaded_list.mp (contained.atomHeaded headed)).1 first rfl
      rw [shape] at atom
      cases atom
    have opened : Lined (LineOf whole width) (LineFrom whole width depth)
        ('(' :: (first.pretty { width } (depth + 1)).toList) :=
      head.prepend (show '\n' ∉ ['('] by decide) fun line placed => placed.nest nestedHead
    have anything : whole.AtomHeaded → ∀ c ∈ atoms, c = ')' :=
      fun headed => (nestedHead headed).elim
    exact opened.append (plain.not_mem (by decide)) (fun line placed => placed.grow noList anything)
      fun line placed => placed.grow noList anything

/-- Every line in the layout of a nested S-expression is a line of the whole. -/
theorem lined_pretty {whole : Sexp} {width : Int} {sexp : Sexp} (contained : whole.Contains sexp)
    (inline : sexp.InlineAtoms) (depth : Nat) :
    Lined (LineOf whole width) (LineFrom whole width depth)
      (sexp.pretty { width } depth).toList := by
  -- Items are one level deeper, so the level is not fixed in the induction.
  induction sexp using forall_of_items generalizing depth with
  | atom sexp atom =>
    have plain := inline_flat inline atom
    rw [pretty_atom atom]
    exact .last (plain.not_mem (by decide))
      (@LineFrom.opening _ _ _ 0 _ (plain.not_mem (by decide)) fun _ => Nat.zero_le 1)
  | list items each =>
    cases items with
    | nil =>
      rw [pretty_list, List.map_nil, arrange]
      exact .last (by decide) (@LineFrom.opening _ _ _ 1 [')'] (by decide) fun _ => Nat.le_refl 1)
    | cons first others =>
      have inlines := inlineAtoms_list.mp inline
      have next (item : Sexp) (member : item ∈ first :: others) :=
        each item member (.item contained member) (inlines item member) (depth + 1)
      cases short : fits { width } depth (oneLine (first.pretty { width } (depth + 1) ::
          others.map (pretty { width } (depth + 1)))) with
      | true =>
        have line : (Sexp.list (first :: others)).pretty { width } depth =
            oneLine (first.pretty { width } (depth + 1) ::
              others.map (pretty { width } (depth + 1))) := by
          simp only [pretty_list, List.map_cons, arrange, short, if_true]
        rw [← line] at short
        exact lined_kept contained short
      | false =>
        -- Otherwise the atoms behind its head follow on the opening line, and every other
        -- item begins a line.
        have lines : ∀ part ∈ ((others.map (pretty { width } (depth + 1))).dropWhile fun part =>
          !looksNested part).map
            (fun part => (lineStart { width } (depth + 1)).toList ++ part.toList),
            Lined (LineOf whole width) (LineOf whole width) part := by
          intro text member
          obtain ⟨part, found, rfl⟩ := List.mem_map.mp member
          obtain ⟨item, inside, rfl⟩ := List.mem_map.mp (List.dropWhile_subset _ found)
          exact lined_further (next item (List.mem_cons_of_mem _ inside))
        -- The closing parenthesis goes to the last line, whichever that is.
        have closing : whole.AtomHeaded → ∀ c ∈ [')'], c = ')' := by simp
        rw [pretty_list, List.map_cons, toList_arrange short]
        have opening :=
          lined_opening contained (inlines first List.mem_cons_self) (next first List.mem_cons_self)
          (inline_takeWhile (List.forall_mem_cons.mp inlines).2 { width } (depth + 1))
        exact (opening.join lines).append (by decide)
          (fun line placed => placed.grow (by decide) closing)
          fun line placed => placed.grow (by decide) closing

end Layouts

end Sexp

open Sexp

/-- A region has no list that begins with a list. -/
theorem Region.atomHeaded_toSexp (region : Region) : region.toSexp.AtomHeaded := by
  -- Objects and bounds are atoms.
  have object : (orNil (region.object.map Identity.toSexp)).AtomHeaded := by
    rcases region.object with _ | name | number | flag <;> trivial
  have bound (given : Option Int) : (orNil (given.map .int)).AtomHeaded := by
    cases given <;> trivial
  have axes : ∀ item ∈ axisItems (region.axes.map fun axis => axis.fields.map .int),
      item.AtomHeaded := by
    intro item member
    unfold axisItems at member
    split at member
    · cases member
    · rw [List.mem_singleton.mp member]
      refine atomHeaded_titled fun item member => ?_
      obtain ⟨fields, found, rfl⟩ := List.mem_map.mp member
      obtain ⟨axis, -, rfl⟩ := List.mem_map.mp found
      refine atomHeaded_titled fun field member => ?_
      obtain ⟨value, -, rfl⟩ := List.mem_map.mp member
      trivial
  -- All three kinds of lists begin with a symbol.
  rw [toSexp, region_eq, List.cons_append]
  refine atomHeaded_titled (List.forall_mem_append.mpr ⟨?_, axes⟩)
  simp only [List.forall_mem_cons]
  exact ⟨object, trivial, trivial, trivial, bound _, trivial, bound _, by simp⟩

/-- An outcome has no list that begins with a list. -/
theorem Outcome.atomHeaded_toSexp (outcome : Outcome) (left right : Option (List Region)) :
    (outcome.toSexp left right).AtomHeaded := by
  -- The parts that are left over begin with a title.
  have parts (title : String) (given : Option (List Region)) :
      ∀ item ∈ (given.map fun regions =>
        Sexp.list (.symbol title :: regions.map Region.toSexp)).toList,
        item.AtomHeaded := by
    intro item member
    obtain ⟨regions, -, rfl⟩ := Option.map_eq_some_iff.mp (Option.mem_toList.mp member)
    refine atomHeaded_titled fun item member => ?_
    obtain ⟨region, -, rfl⟩ := List.mem_map.mp member
    exact region.atomHeaded_toSexp
  -- The shared region begins with a title as well.
  have shared : ∀ item ∈ (outcome.shared?.map Region.toSexp).toList, item.AtomHeaded := by
    intro item member
    obtain ⟨region, -, rfl⟩ := Option.map_eq_some_iff.mp (Option.mem_toList.mp member)
    exact region.atomHeaded_toSexp
  rw [toSexp, List.append_assoc, List.append_assoc, List.cons_append]
  refine atomHeaded_titled (List.forall_mem_append.mpr ⟨?_, List.forall_mem_append.mpr ⟨shared,
    List.forall_mem_append.mpr ⟨parts "left" left, parts "right" right⟩⟩⟩)
  exact List.forall_mem_singleton.mpr trivial

/-- By default, every line of an S-expression with inline atoms consists of blanks, lists that
are opened, and then no list or one nested list that is kept within the width, with no list
behind it. So unless a list begins with a list, a line that is too wide even without closing
parentheses of earlier lists opens one list at most; regions and outcomes have no list that
begins with a list. What fits on one line is left there, and only a number that is too long or
too many levels keep a text from being told. -/
theorem Sexp.prettyTold_width [Limits] {sexp : Sexp} (inline : sexp.InlineAtoms) (width : Int) :
    (∀ text, sexp.prettyTold { width } 0 = .ok text →
      (∀ line ∈ splitLines text.toList, LineOf sexp width line ∧
        (sexp.AtomHeaded → width < line.length - strayClosers line → line.count '(' ≤ 1)) ∧
      (sexp.flat.length ≤ width → text = sexp.flat)) ∧
    (∀ fault, sexp.prettyTold { width } 0 = .error fault →
      fault = .longNumber ∧ ¬ sexp.NumbersWritable ∨
      fault = .tooNested ∧ maxPrettyHeight < sexp.height) ∧
    (∀ region : Region, region.toSexp.AtomHeaded) ∧
    ∀ (outcome : Outcome) (left right : Option (List Region)),
      (outcome.toSexp left right).AtomHeaded := by
  refine ⟨fun text told => ?_, fun fault failed => prettyTold_default_error failed,
    Region.atomHeaded_toSexp, Outcome.atomHeaded_toSexp⟩
  obtain ⟨rfl, -, -⟩ := prettyTold_ok told
  refine ⟨fun line member => ?_, fun short => pretty_eq_flat_of_fits inline (by omega)⟩
  -- The first line has no blanks in front, as all lines of the level zero.
  have placed : LineOf sexp width line := by
    obtain ⟨first, others, lines, start, later⟩ :=
      (@lined_pretty sexp width sexp .itself inline 0).exists_splitLines
    rw [Int.natCast_zero] at lines
    rw [lines] at member
    rcases List.mem_cons.mp member with rfl | member
    · exact ⟨0, line, rfl, start⟩
    · exact later line member
  exact ⟨placed, fun headed wide => placed.count_le_one inline headed wide⟩

open scoped Limits

/-- The leftover part of an outcome is kept on one line of a hundred characters, and the
closing parenthesis of the whole outcome makes it one too wide, with four lists on it. With
little room, a line that is too wide without such parentheses opens one list, and with
enough room there is one line. -/
theorem Sexp.prettyTold_width_kept :
    let part : Region :=
      ⟨some (.name "AAAAAAAAAAAAAAAAAAAA"), .perAxis, none, some 4, [⟨0, 2, 5, 10⟩]⟩
    let outcome := Outcome.disjoint.toSexp (some [part]) none
    let line := "  (left (location \"AAAAAAAAAAAAAAAAAAAA\" :kind collapsed :lower nil" ++
      " :upper 4 (dims (dim 0 2 5 10)))))"
    let sexp : Sexp := .list [.symbol "a", .list [.symbol "b", .list [.symbol "c"]]]
    (outcome.InlineAtoms ∧ outcome.AtomHeaded ∧
      outcome.prettyTold ⟨"  ", 100⟩ 0 = .ok ("(relation disjoint\n" ++ line) ∧
        LineOf outcome 100 line.toList ∧
      line.length = 101 ∧ strayClosers line.toList = 1 ∧ line.toList.count '(' = 4) ∧
    sexp.InlineAtoms ∧ sexp.AtomHeaded ∧
      (sexp.prettyTold ⟨"  ", 3⟩ 0 = .ok "(a\n  (b\n    (c)))" ∧
        3 < ("    (c)))".toList.length : Int) - strayClosers "    (c)))".toList ∧
          "    (c)))".toList.count '(' ≤ 1) ∧
      sexp.prettyTold ⟨"  ", 11⟩ 0 = .ok sexp.flat := by
  intro part outcome line sexp
  have word {name : String} (plain : name.toList.all isInline = true) :
      (Sexp.symbol name).InlineAtoms :=
    inlineAtoms_symbol plain
  -- All symbols and texts of the two expressions are without line ends and parentheses.
  have inline : sexp.InlineAtoms :=
    ⟨word (by decide), ⟨word (by decide), ⟨word (by decide), trivial⟩, trivial⟩, trivial⟩
  have headed : sexp.AtomHeaded :=
    atomHeaded_titled (List.forall_mem_singleton.mpr
      (atomHeaded_titled (List.forall_mem_singleton.mpr
        (atomHeaded_titled fun item member => (List.not_mem_nil member).elim))))
  have axes : InlineAtoms
      (.list [.symbol "dims", .list [.symbol "dim", .int 0, .int 2, .int 5, .int 10]]) :=
    ⟨word (by decide), ⟨word (by decide), trivial, trivial, trivial, trivial, trivial⟩, trivial⟩
  have partInline : part.toSexp.InlineAtoms :=
    ⟨word (by decide), inline_of_all (by decide), word (by decide), word (by decide),
      word (by decide), word (by decide), word (by decide), trivial, axes, trivial⟩
  have outcomeInline : outcome.InlineAtoms :=
    ⟨word (by decide), word (by decide), ⟨word (by decide), partInline, trivial⟩, trivial⟩
  -- Nothing in these is refused, so their lines are told as they are laid out.
  have told {sexp : Sexp} {width : Int} {text : String} (low : sexp.height ≤ maxPrettyHeight)
      (writable : sexp.NumbersWritable) (lines : sexp.pretty { width } 0 = text) :
      sexp.prettyTold { width } 0 = .ok text := by
    rw [prettyTold_eq low, if_pos writable, lines]
  have wrapped : outcome.prettyTold ⟨"  ", 100⟩ 0 = .ok ("(relation disjoint\n" ++ line) :=
    told (by decide) (by decide +kernel) (by decide +kernel)
  have broken : sexp.prettyTold ⟨"  ", 3⟩ 0 = .ok "(a\n  (b\n    (c)))" :=
    told (by decide) (by decide +kernel) (by decide +kernel)
  have whole : sexp.prettyTold ⟨"  ", 11⟩ 0 = .ok "(a (b (c)))" :=
    told (by decide) (by decide +kernel) (by decide +kernel)
  -- The last line is wider than three columns even without its closing parentheses.
  have wide : 3 < ("    (c)))".toList.length : Int) - strayClosers "    (c)))".toList := by decide
  obtain ⟨laid, -, -, headedOutcome⟩ := prettyTold_width outcomeInline 100
  refine ⟨⟨outcomeInline, headedOutcome _ _ _, wrapped,
    ((laid _ wrapped).1 _ (by decide +kernel)).1, by decide +kernel, by decide +kernel,
    by decide +kernel⟩, inline, headed,
    ⟨broken, wide, (((prettyTold_width inline 3).1 _ broken).1 _ (by decide)).2 headed wide⟩, ?_⟩
  rw [whole, ((prettyTold_width inline 11).1 _ whole).2 (by decide +kernel)]

end Overlap
