import Overlap.Proofs.Sexp.Regions

/-! One line and several lines are read as the same value, except for flags, which each
layout spells in its own way. -/

namespace Overlap

namespace Sexp

section Flags

mutual

/-- Regular S-expressions: integers, flags, texts, symbols without special
characters, and lists of those. -/
def Regular : Sexp → Prop
  -- Flags are let in, as their spelling is settled separately.
  | .flag _ => True
  | .list items => RegularAll items
  | other => other.Structured

/-- The items of a list are regular. -/
def RegularAll : List Sexp → Prop
  -- Lists are nested, so their items need a recursion of their own.
  | [] => True
  | item :: rest => Regular item ∧ RegularAll rest

end

mutual

/-- No flag occurs in an S-expression, nor in its lists. -/
def Flagless : Sexp → Prop
  -- A flag at any level counts.
  | .flag _ => False
  | .list items => FlaglessAll items
  | _ => True

/-- No flag occurs in the items of a list. -/
def FlaglessAll : List Sexp → Prop
  | [] => True
  | item :: rest => Flagless item ∧ FlaglessAll rest

end

mutual

/-- An S-expression in which every flag has given way to another expression. -/
def spell (flag : Bool → Sexp) : Sexp → Sexp
  -- Only flags are replaced, at every level of lists.
  | .flag value => flag value
  | .list items => .list (spellAll flag items)
  | other => other

/-- The items of a list, in which every flag has given way. -/
def spellAll (flag : Bool → Sexp) : List Sexp → List Sexp
  | [] => []
  | item :: rest => spell flag item :: spellAll flag rest

end

/-- How a flag is spelled on one line. -/
def compactFlag : Bool → Sexp
  -- The false flag is written like the empty list.
  | true => .symbol "t"
  | false => .list []

/-- How a flag is spelled on several lines. -/
def prettyFlag : Bool → Sexp
  -- Both flags are written as words.
  | true => .symbol "true"
  | false => .symbol "false"

/-- How a flag is spelled on several lines or on one. -/
def flagSpelling : Bool → Bool → Sexp
  -- The layout decides which spelling is used.
  | true => prettyFlag
  | false => compactFlag

/-- Flags are spelled one by one. -/
theorem spellAll_eq (flag : Bool → Sexp) (items : List Sexp) :
    spellAll flag items = items.map (spell flag) := by
  -- The recursion over the items is a map.
  induction items with
  | nil => rfl
  | cons item items ih => rw [spellAll, ih, List.map_cons]

/-- A list is spelled by its items. -/
theorem spell_list (flag : Bool → Sexp) (items : List Sexp) :
    (Sexp.list items).spell flag = .list (items.map (spell flag)) :=
  -- The items are spelled one by one.
  congrArg Sexp.list (spellAll_eq flag items)

/-- A list is flagless when its items are. -/
theorem flagless_list {items : List Sexp} :
    (Sexp.list items).Flagless ↔ ∀ item ∈ items, item.Flagless := by
  -- The condition on all items is stated for each member.
  have all : FlaglessAll items ↔ ∀ item ∈ items, item.Flagless := by
    induction items with
    | nil => simp [FlaglessAll]
    | cons item items ih => rw [FlaglessAll, ih, List.forall_mem_cons]
  exact all

/-- Both spellings of a flag are structured, and at most one level high. -/
theorem structuredWithin_flagSpelling (pretty value : Bool) :
    StructuredWithin 1 (flagSpelling pretty value) := by
  -- All spellings are atoms, but for the empty list.
  cases pretty <;> cases value
  case false.false => exact structuredWithin_list fun item member => (List.not_mem_nil member).elim
  all_goals exact structuredWithin_symbol (by decide)

/-- On one line, flags look like their spelling. -/
theorem compact_spell (sexp : Sexp) : (sexp.spell compactFlag).compact = sexp.compact := by
  -- The spelling is what the layout writes for a flag, so only the flags have to be looked at.
  refine @Sexp.rec (fun sexp => (sexp.spell compactFlag).compact = sexp.compact)
    (fun items => compactAll (spellAll compactFlag items) = compactAll items)
    ?nothing ?flag ?int ?real ?text ?symbol ?list ?bracket ?quoted ?nil ?cons sexp
  case flag =>
    -- These are the words and the list that the layout writes.
    intro value
    cases value <;> rfl
  case list =>
    intro items each
    rw [spell, compact, compact, each]
  case cons =>
    intro item items first others
    rw [spellAll, compactAll, compactAll, first, others]
  all_goals
    intros
    rfl

/-- On several lines, flags look like their spelling. -/
theorem pretty_spell (layout : Layout) (sexp : Sexp) (depth : Int) :
    (sexp.spell prettyFlag).pretty layout depth = sexp.pretty layout depth := by
  -- The depth changes from list to item, so it is not fixed.
  revert depth
  refine @Sexp.rec (fun sexp => ∀ depth, (sexp.spell prettyFlag).pretty layout depth =
    sexp.pretty layout depth)
    (fun items => ∀ depth, prettyAll layout depth (spellAll prettyFlag items) =
      prettyAll layout depth items)
    ?nothing ?flag ?int ?real ?text ?symbol ?list ?bracket ?quoted ?nil ?cons sexp
  case flag =>
    -- Both flags are written as symbols.
    intro value depth
    cases value <;> rfl
  case list =>
    -- The items stand one level deeper in both.
    intro items each depth
    rw [spell, pretty, pretty, each]
  case cons =>
    intro item items first others depth
    rw [spellAll, prettyAll, prettyAll, first, others]
  all_goals
    intros
    rfl

/-- With its flags spelled, a regular S-expression is structured, and at most one level higher. -/
theorem structured_spell {flag : Bool → Sexp} (shape : ∀ value, StructuredWithin 1 (flag value))
    {sexp : Sexp} (regular : sexp.Regular) :
    StructuredWithin (sexp.height + 1) (sexp.spell flag) := by
  revert regular
  refine @Sexp.rec (fun sexp => sexp.Regular → StructuredWithin (sexp.height + 1) (sexp.spell flag))
    (fun items => RegularAll items →
      ∀ item ∈ items, StructuredWithin (heightAll items + 1) (item.spell flag))
    ?nothing ?flag ?int ?real ?text ?symbol ?list ?bracket ?quoted ?nil ?cons sexp
  case flag => exact fun value _ => shape value
  case list =>
    intro items each regular
    rw [spell_list]
    refine structuredWithin_list fun item member => ?_
    obtain ⟨found, inside, rfl⟩ := List.mem_map.mp member
    exact each regular found inside
  case nil => exact fun _ item member => (List.not_mem_nil member).elim
  case cons =>
    intro item items first others regular found member
    -- The highest item gives the height of them all.
    rcases List.mem_cons.mp member with rfl | member
    · have here := first regular.1
      exact ⟨here.1, here.2.trans (Nat.succ_le_succ (Nat.le_max_left _ _))⟩
    · have later := others regular.2 found member
      exact ⟨later.1, later.2.trans (Nat.succ_le_succ (Nat.le_max_right _ _))⟩
  -- Other atoms are not changed.
  case int | text => exact fun _ _ => ⟨trivial, Nat.zero_le _⟩
  case symbol => exact fun name regular => ⟨regular, Nat.zero_le _⟩
  case nothing => exact fun regular => regular.elim
  case real => exact fun _ regular => regular.elim
  case bracket => exact fun _ _ regular => regular.elim
  case quoted => exact fun _ _ regular => regular.elim

/-- Spelling flags takes no level away. -/
theorem height_le_spell (flag : Bool → Sexp) (sexp : Sexp) :
    sexp.height ≤ (sexp.spell flag).height := by
  -- Only flags are changed, and a flag has no levels.
  refine @Sexp.rec (fun sexp => sexp.height ≤ (sexp.spell flag).height)
    (fun items => heightAll items ≤ heightAll (spellAll flag items))
    ?nothing ?flag ?int ?real ?text ?symbol ?list ?bracket ?quoted ?nil ?cons sexp
  case flag => exact fun value => Nat.zero_le _
  case list => exact fun items each => Nat.succ_le_succ each
  case cons =>
    exact fun item items first others => Nat.max_le.mpr
      ⟨first.trans (Nat.le_max_left _ _), others.trans (Nat.le_max_right _ _)⟩
  all_goals
    intros
    exact Nat.le_refl _

/-- Both spellings are read as the same value exactly when there is no flag. -/
theorem reread_spell_eq_iff (sexp : Sexp) :
    (sexp.spell prettyFlag).reread = (sexp.spell compactFlag).reread ↔ sexp.Flagless := by
  refine @Sexp.rec (fun sexp => (sexp.spell prettyFlag).reread = (sexp.spell compactFlag).reread ↔
    sexp.Flagless)
    (fun items => rereadAll (spellAll prettyFlag items) = rereadAll (spellAll compactFlag items) ↔
      FlaglessAll items)
    ?nothing ?flag ?int ?real ?text ?symbol ?list ?bracket ?quoted ?nil ?cons sexp
  case flag =>
    -- A symbol is neither the flag nor the empty list.
    intro value
    refine ⟨fun same => ?_, fun flagless => flagless.elim⟩
    cases value <;> cases same
  case list =>
    -- The items are compared one by one.
    intro items each
    rw [spell, spell, reread, reread, Sexp.list.injEq]
    exact each
  case cons =>
    intro item items first others
    rw [spellAll, spellAll, rereadAll, rereadAll, List.cons.injEq, first, others]
    rfl
  all_goals
    intros
    exact ⟨fun _ => trivial, fun _ => rfl⟩

end Flags

section Texts

/-- Every text in a layout is read back with its flags as they are spelled there. -/
theorem read_layout {sexp : Sexp} (regular : sexp.Regular) {layout : Layout}
    (blank : ∀ c ∈ layout.indent.toList, isSpace c = true) (depth : Int) {limit : Nat}
    (room : sexp.height < limit) :
    (read (sexp.pretty layout depth).toList = .ok (sexp.spell prettyFlag).reread ∧
      nestsBeyond limit {} 0 (sexp.pretty layout depth).toList = false) ∧
    (read sexp.compact.toList = .ok (sexp.spell compactFlag).reread ∧
      nestsBeyond limit {} 0 sexp.compact.toList = false) := by
  -- The text of a layout is the text of the spelled expression, and that one has no flags.
  have prettyShape : StructuredWithin _ (sexp.spell prettyFlag) :=
    structured_spell (structuredWithin_flagSpelling true) regular
  have compactShape : StructuredWithin _ (sexp.spell compactFlag) :=
    structured_spell (structuredWithin_flagSpelling false) regular
  have lines := (lays_pretty blank).writes prettyShape.1 depth
  have line := lays_compact.writes compactShape.1 0
  rw [pretty_spell] at lines
  rw [compact_spell] at line
  exact ⟨(@Writes.reads limit _ _ lines).alone (prettyShape.2.trans room),
    (@Writes.reads limit _ _ line).alone (compactShape.2.trans room)⟩

/-- Two texts are both read, and as the same value exactly under a condition. -/
def ReadAlike [Limits] (text other : String) (condition : Prop) : Prop :=
  -- Both texts can be read, and the condition tells when they mean the same.
  ∃ value again, readNested text.toList = .ok value ∧ readNested other.toList = .ok again ∧
    (value = again ↔ condition)

/-- A text that is told is the text in its layout, and is read without too many open lists. -/
theorem readNested_told [Limits] {sexp : Sexp} (regular : sexp.Regular) {layout : Layout}
    (blank : ∀ c ∈ layout.indent.toList, isSpace c = true) {depth : Int} {lines line : String}
    (linesTold : sexp.prettyTold layout depth = .ok lines)
    (lineTold : sexp.compactTold = .ok line) :
    ReadAlike lines line sexp.Flagless := by
  obtain ⟨rfl, -, low⟩ := compactTold_ok lineTold
  obtain ⟨rfl, -, -⟩ := prettyTold_ok linesTold
  -- What fits on one line is far from opening too many lists.
  have room : sexp.height < maxOpenLists := Nat.lt_of_le_of_lt low Limits.compact_lt_open
  obtain ⟨⟨linesRead, linesNest⟩, lineRead, lineNest⟩ := read_layout regular blank depth room
  refine ⟨_, _, ?_, ?_, reread_spell_eq_iff sexp⟩
  · rw [readNested, linesNest]
    exact linesRead
  · rw [readNested, lineNest]
    exact lineRead

/-- Flags are spelled as the layout has them. -/
theorem write_spell (pretty : Bool) (sexp : Sexp) :
    (sexp.spell (flagSpelling pretty)).write pretty = sexp.write pretty := by
  -- Each layout has its own spelling.
  cases pretty with
  | true => exact pretty_spell {} sexp 0
  | false => exact compact_spell sexp

/-- What is at most as high as an outcome, with its flags spelled, is not
nested too deeply to be written. -/
theorem StructuredWithin.low [Limits] {sexp : Sexp} {pretty : Bool}
    (shape : StructuredWithin 5 (sexp.spell (flagSpelling pretty))) :
    sexp.height ≤ maxCompactHeight :=
  -- Spelling flags out adds no levels to what is spelled.
  (height_le_spell _ sexp).trans (shape.2.trans Limits.outcome_le_compact)

/-- Short numbers in few levels are written, and read back with flags as they are spelled. -/
theorem StructuredWithin.readNested_writeTold [Limits] {sexp : Sexp} {pretty : Bool}
    (shape : StructuredWithin 5 (sexp.spell (flagSpelling pretty)))
    (writable : sexp.NumbersWritable) :
    ∃ text, sexp.writeTold pretty = .ok text ∧
      readNested text.toList = .ok (sexp.spell (flagSpelling pretty)).reread := by
  -- The text is that of the spelled expression, which opens no more lists than can be read.
  have room := Nat.le_of_lt (Nat.lt_of_le_of_lt Limits.outcome_le_compact Limits.compact_lt_open)
  have found := StructuredWithin.readNested_write ⟨shape.1, shape.2.trans room⟩ pretty
  rw [write_spell] at found
  exact ⟨_, by rw [writeTold_eq shape.low, if_pos writable], found⟩

end Texts

/-- Fewer levels are enough for fewer levels. -/
theorem StructuredWithin.mono {levels more : Nat} {sexp : Sexp}
    (shape : StructuredWithin levels sexp) (higher : levels ≤ more) : StructuredWithin more sexp :=
  -- Fewer levels are also within more.
  ⟨shape.1, shape.2.trans higher⟩

/-- The flags of a region are those of its fields. -/
theorem spell_region (flag : Bool → Sexp) (object : Sexp) (kind : Kind) (lower upper : Option Sexp)
    (axes : List (List Sexp)) :
    (Sexp.region object kind lower upper axes).spell flag =
      Sexp.region (object.spell flag) kind (lower.map (spell flag)) (upper.map (spell flag))
        (axes.map (List.map (spell flag))) := by
  -- A bound that is missing is a symbol, with nothing to spell.
  have bound : ∀ given : Option Sexp, (orNil given).spell flag =
      orNil (given.map (spell flag)) := by
    intro given
    cases given <;> rfl
  -- The axes are lists of their fields, which are spelled one by one.
  have last : (axisItems axes).map (spell flag) = axisItems (axes.map (List.map (spell flag))) := by
    unfold axisItems
    rw [List.isEmpty_map]
    split
    · rfl
    · rw [List.map_singleton, spell_list, List.map_cons, List.map_map, List.map_map]
      simp [axisItem, spell_list, Function.comp_def, spell]
  rw [region_eq, region_eq, spell_list, List.map_append, last]
  simp [spell, bound]

end Sexp

open Sexp

/-- An amount with its flag spelled is an atom. -/
theorem Amount.structuredWithin_spell (amount : Amount) (pretty : Bool) :
    StructuredWithin 0 (amount.toSexp.spell (flagSpelling pretty)) := by
  -- A flag in place of a number is an atom in either spelling.
  cases amount with
  | number value => exact ⟨trivial, Nat.le_refl 0⟩
  | truth => cases pretty <;> exact structuredWithin_symbol (by decide)

namespace Reading

/-- No flag was read: neither for the object nor in place of a number. -/
structure Flagless (reading : Reading) : Prop where
  -- These are all places in which a flag may stand.
  subject : ∀ value, reading.subject ≠ .object (.flag value)
  lower : reading.lower ≠ some .truth
  upper : reading.upper ≠ some .truth
  axes : ∀ axis ∈ reading.axes, .truth ∉ [axis.start, axis.step, axis.count, axis.size]

/-- What was read is written as a structured list of at most three levels,
with flags as they are spelled. -/
theorem structuredWithin_spell (reading : Reading) (pretty : Bool) :
    StructuredWithin 3 (reading.toSexp.spell (flagSpelling pretty)) := by
  -- Bounds are atoms in either spelling.
  have bound : ∀ given : Option Amount,
    ∀ value ∈ (given.map Amount.toSexp).map (spell (flagSpelling pretty)),
      StructuredWithin 2 value := by
    intro given value member
    rw [Option.map_map] at member
    obtain ⟨amount, -, rfl⟩ := Option.map_eq_some_iff.mp member
    exact (amount.structuredWithin_spell pretty).mono (Nat.zero_le 2)
  rw [toSexp, spell_region]
  refine structuredWithin_region ?_ (bound _) (bound _) fun fields member field found => ?_
  · -- The object is an atom, or the empty list for the false flag.
    cases reading.subject with
    | missing => exact structuredWithin_symbol (by decide)
    | object identity =>
      cases identity with
      | name | number => exact ⟨trivial, Nat.zero_le 2⟩
      | flag value => exact (structuredWithin_flagSpelling pretty value).mono (by decide)
    | other value => exact ⟨trivial, Nat.zero_le 2⟩
  · -- The fields of an axis are amounts.
    rw [List.map_map] at member
    obtain ⟨axis, -, rfl⟩ := List.mem_map.mp member
    simp only [Function.comp_apply, AxisReading.fields, List.map_cons, List.map_nil, List.mem_cons,
      List.not_mem_nil, or_false] at found
    rcases found with rfl | rfl | rfl | rfl <;> exact Amount.structuredWithin_spell _ pretty

/-- An amount is a flag when it is the true one. -/
theorem flagless_amount {amount : Amount} : amount.toSexp.Flagless ↔ amount ≠ .truth := by
  -- Only the true flag is no number.
  cases amount <;> simp [Amount.toSexp, Sexp.Flagless]

/-- The flags in the written form are those that were read. -/
theorem flagless_toSexp {reading : Reading} : reading.toSexp.Flagless ↔ reading.Flagless := by
  -- Each part is looked at on its own, and then they are put together.
  have object : reading.subject.toSexp.Flagless ↔
      ∀ value, reading.subject ≠ .object (.flag value) := by
    cases reading.subject with
    | missing => simp [Subject.toSexp, Sexp.Flagless]
    | other value => simp [Subject.toSexp, Sexp.Flagless]
    | object identity => cases identity <;> simp [Subject.toSexp, Identity.toSexp, Sexp.Flagless]
  -- A bound is a flag if it is the true one.
  have bound : ∀ given : Option Amount, (∀ value ∈ given.map Amount.toSexp, value.Flagless) ↔
      given ≠ some .truth := by
    intro given
    cases given with
    | none => simp
    | some amount => simp [flagless_amount]
  have axes : (∀ fields ∈ reading.axes.map AxisReading.fields, ∀ field ∈ fields, field.Flagless) ↔
      ∀ axis ∈ reading.axes, .truth ∉ [axis.start, axis.step, axis.count, axis.size] := by
    simp [AxisReading.fields, flagless_amount, @eq_comm _ Amount.truth]
  rw [toSexp, forall_region (fun _ => flagless_list) fun _ => trivial, object, bound, bound, axes]
  constructor
  · rintro ⟨subject, lower, upper, axes⟩
    exact ⟨subject, lower, upper, axes⟩
  · intro flagless
    exact ⟨flagless.subject, flagless.lower, flagless.upper, flagless.axes⟩

end Reading

namespace Region

/-- A region is written as what is read for it. -/
theorem toSexp_eq_asRead (region : Region) : region.toSexp = region.asRead.toSexp := by
  -- A region is a reading in which every number is one, and an object may be missing.
  obtain ⟨object, kind, lower, upper, axes⟩ := region
  -- A missing object is written as the symbol of a missing bound.
  have subject : orNil (object.map Identity.toSexp) =
      (object.elim Subject.missing .object).toSexp := by
    cases object <;> rfl
  simp only [toSexp, Reading.toSexp, asRead, subject, Option.map_map, List.map_map]
  rfl

/-- The only flag of a region is its object. -/
theorem flagless_toSexp {region : Region} :
    region.toSexp.Flagless ↔ ∀ value, region.object ≠ some (.flag value) := by
  -- As all amounts are numbers, the object is the only place for a flag.
  rw [toSexp_eq_asRead, Reading.flagless_toSexp]
  constructor
  · -- A flag of the object would be one of the reading.
    intro flagless value found
    apply flagless.subject value
    simp [asRead, found]
  · intro noFlag
    -- The object is the only part that could be a flag.
    refine ⟨fun value found => ?_, by simp [asRead], by simp [asRead], ?_⟩
    · cases object : region.object with
      | none => simp [asRead, object] at found
      | some identity =>
        simp only [asRead, object, Option.elim_some, Subject.object.injEq] at found
        exact noFlag value (by rw [object, found])
    · intro axis member
      obtain ⟨found, -, rfl⟩ := List.mem_map.mp member
      simp [Axis.asRead]

end Region

namespace Outcome

variable {outcome : Outcome} {left right : Option (List Region)}

/-- The regions in the written form of an outcome: the shared one and the
leftover parts that were kept. -/
def regions (outcome : Outcome) (left right : Option (List Region)) : List Region :=
  -- The shared region stands first, then what is left over on either side.
  outcome.shared?.toList ++ (left.getD [] ++ right.getD [])

/-- What holds of a list when it holds of its items, and of symbols, holds of an outcome
when it holds of its regions. -/
theorem forall_toSexp {holds : Sexp → Prop}
    (list : ∀ items, holds (.list items) ↔ ∀ item ∈ items, holds item)
    (symbol : ∀ name, holds (.symbol name)) :
    holds (outcome.toSexp left right) ↔
      ∀ region ∈ outcome.regions left right, holds region.toSexp := by
  -- Leftover parts are titled lists of regions, or missing.
  have parts : ∀ (title : String) (given : Option (List Region)),
      (∀ item ∈ (given.map fun regions =>
        Sexp.list (.symbol title :: regions.map Region.toSexp)).toList, holds item) ↔
        ∀ region ∈ given.getD [], holds region.toSexp := by
    intro title given
    cases given with
    | none => simp
    | some regions => simp [list, symbol]
  have shared : (∀ item ∈ (outcome.shared?.map Region.toSexp).toList, holds item) ↔
      ∀ region ∈ outcome.shared?.toList, holds region.toSexp := by
    cases outcome.shared? <;> simp
  rw [toSexp, list, regions]
  simp only [List.forall_mem_append, List.forall_mem_cons, symbol, parts, shared, true_and]
  simp [and_assoc]

/-- An outcome is written as a structured list of at most five levels,
with flags as they are spelled. -/
theorem structuredWithin_spell (pretty : Bool) :
    StructuredWithin 5 ((outcome.toSexp left right).spell (flagSpelling pretty)) := by
  -- Leftover parts are lists of regions, which makes them one level higher than a region.
  have region : ∀ region : Region,
      StructuredWithin 3 (region.toSexp.spell (flagSpelling pretty)) := by
    intro region
    rw [region.toSexp_eq_asRead]
    exact region.asRead.structuredWithin_spell pretty
  have parts : ∀ (title : String) (given : Option (List Region)),
    (∀ levels, StructuredWithin levels (.symbol title)) →
      ∀ item ∈ (given.map fun regions =>
        Sexp.list (.symbol title :: regions.map Region.toSexp)).toList,
        StructuredWithin 4 (item.spell (flagSpelling pretty)) := by
    intro title given word item member
    obtain ⟨regions, -, rfl⟩ := Option.map_eq_some_iff.mp (Option.mem_toList.mp member)
    rw [spell_list]
    refine structuredWithin_list fun item member => ?_
    simp only [List.map_cons, List.mem_cons, List.map_map, List.mem_map, Function.comp_apply]
      at member
    rcases member with rfl | ⟨found, -, rfl⟩
    · exact word 3
    · exact region found
  rw [toSexp, spell_list]
  -- The outcome is a titled list: the relation, the shared region and what is left over.
  refine structuredWithin_list fun item member => ?_
  obtain ⟨found, inside, rfl⟩ := List.mem_map.mp member
  simp only [List.mem_append, List.mem_cons, List.not_mem_nil, or_false] at inside
  rcases inside with (((rfl | rfl) | shared) | inside) | inside
  · exact structuredWithin_symbol (by decide)
  · cases outcome.relation <;> exact structuredWithin_symbol (by decide)
  · obtain ⟨kept, -, rfl⟩ := Option.map_eq_some_iff.mp (Option.mem_toList.mp shared)
    exact (region kept).mono (by decide)
  · exact parts "left" _ (fun _ => structuredWithin_symbol (by decide)) found inside
  · exact parts "right" _ (fun _ => structuredWithin_symbol (by decide)) found inside

end Outcome

/-- Breaking a regular S-expression into lines never changes what is read, unless there is a flag in
it: this holds for every blank indent, every width and every depth, wherever both texts can be
built. Only a number that is too long, too many levels and lines that begin too far to the right
keep them from being built. The texts of an outcome, on several lines and on one, are read as the
same value exactly when none of its regions belongs to a flag. -/
theorem prettyTold_keeps_content [Limits] {sexp : Sexp} (regular : sexp.Regular) {layout : Layout}
    (blank : ∀ c ∈ layout.indent.toList, isSpace c = true) (depth : Int) :
    (∀ lines line, sexp.prettyTold layout depth = .ok lines → sexp.compactTold = .ok line →
      ReadAlike lines line sexp.Flagless) ∧
    (∀ lines, sexp.prettyTold layout depth = .ok lines →
      sexp.NumbersWritable ∧ sexp.height ≤ maxPrettyHeight) ∧
    (∀ fault, sexp.prettyTold layout depth = .error fault →
      fault = .longNumber ∧ ¬ sexp.NumbersWritable ∨
      fault = .tooNested ∧ maxPrettyHeight < sexp.height ∨
      ∃ level, depth < level ∧ level ≤ depth + sexp.height ∧
        checkRepeat layout.indent.length level = .error fault) ∧
    (∀ line, sexp.compactTold = .ok line →
      sexp.NumbersWritable ∧ sexp.height ≤ maxCompactHeight) ∧
    (∀ fault, sexp.compactTold = .error fault →
      fault = .longNumber ∧ ¬ sexp.NumbersWritable ∨
      fault = .tooNested ∧ maxCompactHeight < sexp.height) ∧
    ∀ (outcome : Outcome) (left right : Option (List Region)),
      ((outcome.toSexp left right).NumbersWritable →
        ∃ lines line, (outcome.toSexp left right).writeTold true = .ok lines ∧
          (outcome.toSexp left right).writeTold false = .ok line ∧
          ReadAlike lines line
            (∀ region ∈ outcome.regions left right, ∀ value, region.object ≠ some (.flag value))) ∧
      (¬ (outcome.toSexp left right).NumbersWritable →
        ∀ pretty, (outcome.toSexp left right).writeTold pretty = .error .longNumber) := by
  refine ⟨fun lines line linesTold lineTold => readNested_told regular blank linesTold lineTold,
    fun lines told => (prettyTold_ok told).2, fun fault failed => ?_,
    fun line told => (compactTold_ok told).2, fun fault failed => compactTold_error failed,
    fun outcome left right => ⟨fun writable => ?_, fun long pretty => ?_⟩⟩
  · rcases prettyTold_error failed with long | deep | ⟨level, above, -, below, unbuilt⟩
    · exact .inl long
    · exact .inr (.inl deep)
    · exact .inr (.inr ⟨level, above, below, unbuilt⟩)
  · -- An outcome is a regular expression of few levels, whose only flags are the
    -- objects of its regions.
    have flagless : (outcome.toSexp left right).Flagless ↔
        ∀ region ∈ outcome.regions left right, ∀ value, region.object ≠ some (.flag value) := by
      rw [Outcome.forall_toSexp (fun _ => flagless_list) fun _ => trivial]
      simp only [Region.flagless_toSexp]
    obtain ⟨lines, linesTold, linesRead⟩ :=
      (Outcome.structuredWithin_spell true).readNested_writeTold writable
    obtain ⟨line, lineTold, lineRead⟩ :=
      (Outcome.structuredWithin_spell false).readNested_writeTold writable
    exact ⟨lines, line, linesTold, lineTold, _, _, linesRead, lineRead,
      (reread_spell_eq_iff _).trans flagless⟩
  · have low := (Outcome.structuredWithin_spell pretty : StructuredWithin 5
      ((outcome.toSexp left right).spell (flagSpelling pretty))).low
    rw [writeTold_eq low, if_neg long]

open scoped Limits

/-- A text with a line break keeps a list from fitting on one line. The region of a flag is written
as two different values, and the beginning of a line cannot be that long. -/
theorem prettyTold_keeps_content_broken :
    let sexp : Sexp :=
      .list [.symbol "left", .text "a\n(b", .list [.int (-3), .symbol "nil"], .list []]
    let marked : Outcome := ⟨.exact, some ⟨some (.flag true), .flat, none, none, []⟩⟩
    (sexp.prettyTold ⟨"\t", 5⟩ 2 = .ok "(left \"a\n(b\"\n\t\t\t(-3 nil)\n\t\t\t())" ∧
      sexp.compactTold = .ok "(left \"a\\n(b\" (-3 nil) ())" ∧
      ReadAlike "(left \"a\n(b\"\n\t\t\t(-3 nil)\n\t\t\t())" "(left \"a\\n(b\" (-3 nil) ())"
        sexp.Flagless ∧
      sexp.Flagless) ∧
    (∃ lines line, (marked.toSexp none none).writeTold true = .ok lines ∧
      (marked.toSexp none none).writeTold false = .ok line ∧ ReadAlike lines line False) ∧
    (Sexp.list [.int 1]).prettyTold ⟨"  ", 1⟩ 100000000000000000000 = .error .wordOverflow := by
  intro sexp marked
  -- The expression has no flags, so its two texts are read as the same value.
  have left : StructuredWithin 0 (.symbol "left") := structuredWithin_symbol (by decide)
  have nil : StructuredWithin 0 (.symbol "nil") := structuredWithin_symbol (by decide)
  have regular : sexp.Regular := ⟨left.1, trivial, ⟨trivial, nil.1, trivial⟩, trivial, trivial⟩
  have flagless : sexp.Flagless := ⟨trivial, trivial, ⟨trivial, trivial, trivial⟩, trivial, trivial⟩
  have blank : ∀ c ∈ (⟨"\t", 5⟩ : Layout).indent.toList, isSpace c = true :=
    List.all_eq_true.mp (by decide)
  obtain ⟨alike, -, -, -, -, outcomes⟩ := prettyTold_keeps_content regular blank 2
  have linesTold : sexp.prettyTold ⟨"\t", 5⟩ 2 =
      .ok "(left \"a\n(b\"\n\t\t\t(-3 nil)\n\t\t\t())" := by decide +kernel
  have lineTold : sexp.compactTold = .ok "(left \"a\\n(b\" (-3 nil) ())" := by decide +kernel
  refine ⟨⟨linesTold, lineTold, alike _ _ linesTold lineTold, flagless⟩, ?_, by decide +kernel⟩
  -- The flag of the outcome is spelled in two ways, and the two texts are read as two values.
  obtain ⟨lines, line, linesWritten, lineWritten, value, again, linesRead, lineRead, same⟩ :=
    (outcomes marked none none).1 (by decide +kernel)
  refine ⟨lines, line, linesWritten, lineWritten, value, again, linesRead, lineRead,
    fun alike => ?_, False.elim⟩
  exact same.mp alike ⟨some (.flag true), .flat, none, none, []⟩ (by decide) true rfl

end Overlap
