import Overlap.Proofs.Sexp.Told
import Overlap.Proofs.Sexp.Writing
import Overlap.Sexp.Decode

/-! Regions written as S-expressions are read back as they were, from one line and from several. -/

namespace Overlap

namespace Sexp

section Shape

/-- A structured S-expression whose lists are nested in at most so many levels. -/
def StructuredWithin (levels : Nat) (sexp : Sexp) : Prop :=
  -- A structured expression is read as it was written, if its levels are not too many.
  sexp.Structured ∧ sexp.height ≤ levels

/-- A word whose characters have no meaning of their own is structured. -/
theorem structuredWithin_symbol {levels : Nat} {name : String}
    (plain : name.toList ≠ [] ∧
      name.toList.all (fun c => !endsAtom c && !symbolSpecials.contains c) = true) :
    StructuredWithin levels (.symbol name) := by
  -- No character of the symbol ends it, and none of them has another meaning.
  have each : ∀ c ∈ name.toList, endsAtom c = false ∧ symbolSpecials.contains c = false := by
    simpa using plain.2
  refine ⟨⟨⟨plain.1, fun c member => ⟨(each c member).1, ?_, ?_⟩⟩,
    fun c member => (each c member).2⟩, Nat.zero_le _⟩
  all_goals
    rintro rfl
    exact absurd (each _ member).2 (by decide)

/-- A list is structured when its items are, with one level more. -/
theorem structuredWithin_list {levels : Nat} {items : List Sexp}
    (each : ∀ item ∈ items, StructuredWithin levels item) :
    StructuredWithin (levels + 1) (.list items) := by
  -- The highest item decides how many levels there are.
  have all : StructuredAll items ∧ heightAll items ≤ levels := by
    induction items with
    | nil => exact ⟨trivial, Nat.zero_le levels⟩
    | cons item items ih =>
      obtain ⟨first, others⟩ := List.forall_mem_cons.mp each
      exact ⟨⟨first.1, (ih others).1⟩, Nat.max_le.mpr ⟨first.2, (ih others).2⟩⟩
  exact ⟨all.1, Nat.succ_le_succ all.2⟩

/-- A structured S-expression that is not nested too deeply is read back from its text. -/
theorem StructuredWithin.readNested_write [Limits] {sexp : Sexp}
    (structured : StructuredWithin maxOpenLists sexp) (pretty : Bool) :
    readNested (sexp.write pretty).toList = .ok sexp.reread := by
  -- Both ways of writing are layouts with nothing but blanks between items.
  have blank : ({} : Layout).indent.toList.all isSpace = true := by decide
  have writes : Writes sexp (sexp.write pretty).toList := by
    cases pretty with
    | false => exact lays_compact.writes structured.1 0
    | true => exact (lays_pretty (List.all_eq_true.mp blank)).writes structured.1 0
  obtain ⟨found, nests⟩ := (@Writes.reads maxOpenLists _ _ writes).alone structured.2
  rw [readNested, nests]
  exact found

end Shape

section Values

/-- The value that is read back for a list holds those of its items. -/
theorem reread_list (items : List Sexp) : (Sexp.list items).reread = .list (items.map reread) := by
  -- The items are read one by one.
  have all : rereadAll items = items.map reread := by
    induction items with
    | nil => rfl
    | cons item items ih => rw [rereadAll, ih, List.map_cons]
  exact congrArg Sexp.list all

/-- An integer that can be written is read back. -/
theorem NumbersWritable.reread_int {value : Int} (writable : (Sexp.int value).NumbersWritable) :
    (Sexp.int value).reread = .int value :=
  -- The number is short enough to be read as one.
  atomValue_toString (writable value (List.mem_singleton.mpr rfl))

/-- A bound that can be written is read back. -/
theorem NumbersWritable.bound {given : Option Int}
    (writable : ∀ value ∈ given, (Sexp.int value).NumbersWritable) :
    bound (some (orNil (given.map .int)).reread) = .ok (given.map .number) := by
  -- A missing bound is read as the symbol that stands for it.
  cases given with
  | none => rfl
  | some value =>
    have found : (orNil (some (Sexp.int value))).reread = .int value :=
      (writable value rfl).reread_int
    rw [Option.map_some, found]
    rfl

/-- Steps that all succeed give the list of their results. -/
theorem mapM_eq_ok_iff_forall₂ {ε α β : Type} {step : α → Except ε β} {list : List α}
    {results : List β} :
    list.mapM step = .ok results ↔
      List.Forall₂ (fun item result => step item = .ok result) list results := by
  -- The steps succeed one after the other, each with its own result.
  induction list generalizing results with
  | nil => simp [Pure.pure, Except.pure, eq_comm]
  | cons item list ih =>
    rw [List.mapM_cons]
    constructor
    · intro collected
      obtain ⟨result, here, collected⟩ := bind_eq_ok_iff.mp collected
      obtain ⟨others, later, collected⟩ := bind_eq_ok_iff.mp collected
      cases collected
      exact .cons here (ih.mp later)
    · intro each
      cases each with
      | cons here later =>
        exact bind_eq_ok_iff.mpr ⟨_, here, bind_eq_ok_iff.mpr ⟨_, ih.mpr later, rfl⟩⟩

end Values

section Fields

variable {object : Sexp} {kind : Kind} {lower upper : Option Sexp} {axes : List (List Sexp)}

/-- An axis as a list of its fields. -/
def axisItem (fields : List Sexp) : Sexp :=
  -- An axis is written as a titled list of its four fields.
  .list (.symbol "dim" :: fields)

/-- All axes as the last items of the list of a region. -/
def axisItems (axes : List (List Sexp)) : List Sexp :=
  -- Without axes, the list of axes is left out altogether.
  if axes.isEmpty then [] else [.list (.symbol "dims" :: axes.map axisItem)]

/-- A region is a list of its fields, with its axes at the end. -/
theorem region_eq :
    Sexp.region object kind lower upper axes =
      .list ([.symbol "location", object, .symbol ":kind", .symbol kind.word, .symbol ":lower",
        orNil lower, .symbol ":upper", orNil upper] ++ axisItems axes) :=
  -- The definition lists the same items.
  rfl

/-- What holds of a list when it holds of its items, and of symbols, holds of a region
when it holds of its fields. -/
theorem forall_region {holds : Sexp → Prop}
    (list : ∀ items, holds (.list items) ↔ ∀ item ∈ items, holds item)
    (symbol : ∀ name, holds (.symbol name)) :
    holds (Sexp.region object kind lower upper axes) ↔
      holds object ∧ (∀ value ∈ lower, holds value) ∧ (∀ value ∈ upper, holds value) ∧
        ∀ fields ∈ axes, ∀ field ∈ fields, holds field := by
  -- A bound that is missing is a symbol, of which the property holds.
  have bound : ∀ given : Option Sexp, holds (orNil given) ↔ ∀ value ∈ given, holds value := by
    intro given
    cases given with
    | none => simp [orNil, symbol]
    | some value => simp [orNil]
  -- So it is with the axes, whose titles are symbols.
  have last : (∀ item ∈ axisItems axes, holds item) ↔
      ∀ fields ∈ axes, ∀ field ∈ fields, holds field := by
    unfold axisItems
    split
    · rename_i empty
      simp [List.isEmpty_iff.mp empty]
    · simp [axisItem, list, symbol]
  simp only [region_eq, list, List.forall_mem_append, List.forall_mem_cons, symbol, bound,
    last, true_and]
  simp [and_assoc]

/-- The integers of a region can be written when those of its fields can. -/
theorem numbersWritable_region :
    (Sexp.region object kind lower upper axes).NumbersWritable ↔
      object.NumbersWritable ∧ (∀ value ∈ lower, value.NumbersWritable) ∧
        (∀ value ∈ upper, value.NumbersWritable) ∧
        ∀ fields ∈ axes, ∀ field ∈ fields, field.NumbersWritable :=
  -- Lists and symbols have no numbers of their own.
  forall_region (fun _ => numbersWritable_list) fun _ _ member => (List.not_mem_nil member).elim

/-- A region is written as a structured list of at most three levels when its fields are structured,
and those of its axes are atoms. -/
theorem structuredWithin_region (objectShape : StructuredWithin 2 object)
    (lowerShape : ∀ value ∈ lower, StructuredWithin 2 value)
    (upperShape : ∀ value ∈ upper, StructuredWithin 2 value)
    (axesShape : ∀ fields ∈ axes, ∀ field ∈ fields, StructuredWithin 0 field) :
    StructuredWithin 3 (Sexp.region object kind lower upper axes) := by
  -- The words and the bounds are atoms.
  have word : StructuredWithin 2 (.symbol kind.word) := by
    cases kind <;> exact structuredWithin_symbol (by decide)
  have bound : ∀ given : Option Sexp, (∀ value ∈ given, StructuredWithin 2 value) →
      StructuredWithin 2 (orNil given) := by
    intro given each
    cases given with
    | none => exact structuredWithin_symbol (by decide)
    | some value => exact each value rfl
  -- Each axis is a list of its own, in the one list of all axes.
  have last : ∀ item ∈ axisItems axes, StructuredWithin 2 item := by
    intro item member
    unfold axisItems at member
    split at member
    · cases member
    · rw [List.mem_singleton.mp member]
      refine structuredWithin_list
        (List.forall_mem_cons.mpr ⟨structuredWithin_symbol (by decide), ?_⟩)
      intro item member
      obtain ⟨fields, found, rfl⟩ := List.mem_map.mp member
      exact structuredWithin_list
        (List.forall_mem_cons.mpr ⟨structuredWithin_symbol (by decide), axesShape fields found⟩)
  rw [region_eq]
  refine structuredWithin_list (List.forall_mem_append.mpr ⟨?_, last⟩)
  simp only [List.forall_mem_cons]
  exact ⟨structuredWithin_symbol (by decide), objectShape,
    structuredWithin_symbol (by decide), word, structuredWithin_symbol (by decide),
    bound _ lowerShape, structuredWithin_symbol (by decide), bound _ upperShape,
    by simp⟩

/-- The axes of a region are read back behind its other fields. -/
theorem collect_axisItems (kind lower upper : Option Sexp) :
    collect ⟨kind, lower, upper, []⟩ ((axisItems axes).map reread) =
      (axes.map fun fields => (axisItem fields).reread).mapM axisReading >>= fun axes =>
        .ok ⟨kind, lower, upper, axes⟩ := by
  -- Without axes nothing follows; otherwise one list follows, whose items are the axes.
  unfold axisItems
  split
  · rename_i empty
    rw [List.isEmpty_iff.mp empty]
    rfl
  · have word : (Sexp.symbol "dims").reread = .symbol "dims" := rfl
    rw [List.map_singleton, reread_list, List.map_cons, List.map_map, word]
    rfl

/-- A region is read back to what its fields are read back to. -/
theorem reading_reread_region {found : Reading} :
    (Sexp.region object kind lower upper axes).reread.reading = .ok found ↔
      object.reread.subject = found.subject ∧ kind = found.kind ∧
        bound (some (orNil lower).reread) = .ok found.lower ∧
        bound (some (orNil upper).reread) = .ok found.upper ∧
        List.Forall₂ (fun fields axis => (axisItem fields).reread.axisReading = .ok axis) axes
          found.axes := by
  have word : kindOf (some (Sexp.symbol kind.word).reread) = .ok kind := by
    cases kind <;> rfl
  -- The options are noted one after the other, in front of the axes.
  have collected : ∀ kind lower upper : Sexp,
      collect {} ([.symbol ":kind", kind, .symbol ":lower", lower, .symbol ":upper", upper] ++
        (axisItems axes).map reread) =
        (axes.map fun fields => (axisItem fields).reread).mapM axisReading >>= fun axes =>
          .ok ⟨some kind, some lower, some upper, axes⟩ :=
    fun kind lower upper => collect_axisItems (some kind) (some lower) (some upper)
  -- The fields are taken from what was collected.
  have read : (Sexp.region object kind lower upper axes).reread.reading =
      (do
        let fields ← collect {}
          ([.symbol ":kind", (Sexp.symbol kind.word).reread, .symbol ":lower", (orNil lower).reread,
            .symbol ":upper", (orNil upper).reread] ++ (axisItems axes).map reread)
        let kind ← kindOf fields.kind
        let lower ← bound fields.lower
        let upper ← bound fields.upper
        return ⟨object.reread.subject, kind, lower, upper, fields.axes⟩) := by
    rw [region_eq, reread_list, List.map_append]
    rfl
  have each :=
    @mapM_eq_ok_iff_forall₂ _ _ _ axisReading (axes.map fun fields => (axisItem fields).reread)
  simp only [List.forall₂_map_left_iff] at each
  rw [read, collected]
  constructor
  · -- Each step has succeeded, so each field has its value.
    intro succeeded
    obtain ⟨fields, noted, succeeded⟩ := bind_eq_ok_iff.mp succeeded
    obtain ⟨axesFound, listed, same⟩ := bind_eq_ok_iff.mp noted
    cases same
    obtain ⟨kindFound, named, succeeded⟩ := bind_eq_ok_iff.mp succeeded
    obtain ⟨lowerFound, low, succeeded⟩ := bind_eq_ok_iff.mp succeeded
    obtain ⟨upperFound, high, succeeded⟩ := bind_eq_ok_iff.mp succeeded
    cases succeeded
    cases word.symm.trans named
    exact ⟨rfl, rfl, low, high, each.mp listed⟩
  · rintro ⟨subject, rfl, low, high, listed⟩
    refine bind_eq_ok_iff.mpr ⟨_, bind_eq_ok_iff.mpr ⟨_, each.mpr listed, rfl⟩, ?_⟩
    refine bind_eq_ok_iff.mpr ⟨_, word,
      bind_eq_ok_iff.mpr ⟨_, low, bind_eq_ok_iff.mpr ⟨_, high, ?_⟩⟩⟩
    rw [subject]
    rfl

end Fields

end Sexp

open Sexp

/-- What is read for an axis: its numbers as they are. -/
def Axis.asRead (axis : Axis) : AxisReading :=
  -- All four fields are numbers, and none of them is a flag.
  ⟨.number axis.start, .number axis.step, .number axis.count, .number axis.size⟩

/-- An axis whose numbers can be written is read back. -/
theorem Axis.axisReading_reread {axis : Axis}
    (writable : ∀ field ∈ axis.fields.map Sexp.int, field.NumbersWritable) :
    (axisItem (axis.fields.map .int)).reread.axisReading = .ok axis.asRead := by
  -- Each of the four numbers is read as itself, since it can be written.
  simp only [fields, List.map_cons, List.map_nil, List.forall_mem_cons] at writable
  obtain ⟨start, step, count, size, _⟩ := writable
  have word : (Sexp.symbol "dim").reread = .symbol "dim" := rfl
  rw [axisItem, reread_list]
  simp only [fields, List.map_cons, List.map_nil, word, start.reread_int, step.reread_int,
    count.reread_int, size.reread_int]
  rfl

namespace Region

/-- What is read for a region: its object, and numbers as they are. -/
def asRead (region : Region) : Reading where
  -- A missing object is read as such, and everything else as it is.
  subject := region.object.elim .missing .object
  kind := region.kind
  lower := region.lower.map .number
  upper := region.upper.map .number
  axes := region.axes.map Axis.asRead

/-- What is read for a region counts as the region, in every field. -/
theorem region?_asRead (region : Region) : region.asRead.region? = some region := by
  -- The object of a region is an identity or missing, and a reading with either is a region.
  obtain ⟨object, kind, lower, upper, axes⟩ := region
  have found : (⟨object, kind, lower, upper, axes⟩ : Region).asRead.object? = some object := by
    cases object <;> rfl
  simp only [Reading.region?, found]
  simp [asRead, Axis.asRead, Function.comp_def, Amount.value, AxisReading.axis]

/-- A region whose object is not a flag is written as a structured list of at most three levels. -/
theorem structuredWithin_toSexp (region : Region)
    (noFlag : ∀ value, region.object ≠ some (.flag value)) :
    StructuredWithin 3 region.toSexp := by
  -- Objects and bounds are atoms; only the axes are lists.
  have bound : ∀ given : Option Int, ∀ value ∈ given.map Sexp.int, StructuredWithin 2 value := by
    intro given value member
    obtain ⟨number, -, rfl⟩ := Option.map_eq_some_iff.mp member
    exact ⟨trivial, Nat.zero_le 2⟩
  refine structuredWithin_region ?_ (bound _) (bound _) fun fields member field found => ?_
  · cases found : region.object with
    | none => exact structuredWithin_symbol (by decide)
    | some identity =>
      cases identity with
      | name | number => exact ⟨trivial, Nat.zero_le 2⟩
      | flag value => exact absurd found (noFlag value)
  · obtain ⟨axis, -, rfl⟩ := List.mem_map.mp member
    obtain ⟨number, -, rfl⟩ := List.mem_map.mp found
    exact ⟨trivial, Nat.le_refl 0⟩

/-- The S-expression of a region, read back, describes the region. -/
theorem reading_reread_toSexp (region : Region)
    (noFlag : ∀ value, region.object ≠ some (.flag value))
    (writable : region.toSexp.NumbersWritable) :
    region.toSexp.reread.reading = .ok region.asRead := by
  -- Each item is read back to what its field was written from.
  obtain ⟨objectWritable, lowerWritable, upperWritable, axesWritable⟩ :=
    numbersWritable_region.mp writable
  refine reading_reread_region.mpr ⟨?_, rfl, ?_, ?_, ?_⟩
  · -- The object is no flag, so it is read as it was written.
    unfold asRead
    cases found : region.object with
    | none => rfl
    | some identity =>
      rw [found] at objectWritable
      cases identity with
      | name => rfl
      | number value => exact congrArg Sexp.subject (NumbersWritable.reread_int objectWritable)
      | flag value => exact absurd found (noFlag value)
  · exact NumbersWritable.bound fun value given => lowerWritable _ (Option.mem_map_of_mem _ given)
  · exact NumbersWritable.bound fun value given => upperWritable _ (Option.mem_map_of_mem _ given)
  · -- The axes are read one by one.
    unfold asRead
    rw [List.forall₂_map_left_iff, List.forall₂_map_right_iff, List.forall₂_same]
    intro axis member
    exact Axis.axisReading_reread (axesWritable _ (List.mem_map_of_mem member))

end Region

/-- A region whose object is missing, a number or a name is read back from its S-expression in every
field: on one line and on several, for every kind, all bounds and all axes, and for every name. -/
theorem readSexpRegion_writeTold [Limits] {region : Region}
    (noFlag : ∀ value, region.object ≠ some (.flag value))
    (writable : region.toSexp.NumbersWritable) (pretty : Bool) :
    ∃ text, region.toSexp.writeTold pretty = .ok text ∧ readSexpRegion text = .ok region.asRead ∧
      region.asRead.region? = some region := by
  -- Layout and reader meet in the value that is read back, and the region
  -- is decoded from that value.
  have structured := region.structuredWithin_toSexp noFlag
  have low : region.toSexp.height ≤ maxCompactHeight :=
    structured.2.trans (Nat.le_of_lt (Nat.lt_of_lt_of_le (by decide) Limits.outcome_le_compact))
  have found := Sexp.StructuredWithin.readNested_write
    ⟨structured.1, low.trans (Nat.le_of_lt Limits.compact_lt_open)⟩ pretty
  refine ⟨region.toSexp.write pretty, ?_, ?_, region.region?_asRead⟩
  · rw [Sexp.writeTold_eq low, if_pos writable]
  rw [readSexpRegion, found]
  exact region.reading_reread_toSexp noFlag writable

open scoped Limits

/-- A name with a quote, a backslash and a line break comes back, with a negative bound
and an axis that is not valid. -/
theorem readSexpRegion_writeTold_escaped :
    let region : Region :=
      ⟨some (.name "nil \"\\\n"), .perAxis, some (-3), none, [⟨-1, 0, 5, -2⟩, ⟨0, 1, 2, 3⟩]⟩
    ∃ text, region.toSexp.writeTold true = .ok text ∧ readSexpRegion text = .ok region.asRead ∧
      region.asRead.region? = some region :=
  -- Quotes, backslashes and line ends are all written with a backslash.
  readSexpRegion_writeTold (by decide) (by decide +kernel) true

end Overlap
