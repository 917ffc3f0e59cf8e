import Overlap.Proofs.Sexp.Layouts

/-! What was read as a region is written as a text that is read again,
on one line and on several. -/

namespace Overlap

section Integers

/-- An integer that was read can be written. -/
theorem writable_of_integer? {text : List Char} {value : Int} (found : integer? text = some value) :
    Writable value := by
  obtain ⟨plain, -, found⟩ := Option.bind_eq_some_iff.mp found
  obtain ⟨digits, -, found⟩ := Option.bind_eq_some_iff.mp found
  split at found
  · cases found
  rename_i isNumber
  simp only [Bool.or_eq_true, Bool.not_eq_true', not_or, Bool.not_eq_true, Bool.not_eq_false]
    at isNumber
  obtain ⟨number, bounded, found⟩ := Option.bind_eq_some_iff.mp found
  unfold boundedValue? at bounded
  split at bounded
  case isFalse => cases bounded
  rename_i short
  -- Longer runs of digits are no integers, so the value of these stays below the bound.
  have proper : Numeral.Proper digits :=
    ⟨List.isEmpty_eq_false_iff.mp isNumber.1, List.all_eq_true.mp isNumber.2⟩
  have writable : Writable (digitsValue digits) := proper.writable short
  -- The sign does not matter.
  have signed : ∀ negative : Bool, Writable (if negative then -(digitsValue digits : Int)
      else digitsValue digits) := by
    unfold Writable at writable ⊢
    intro negative
    cases negative with
    | false => exact writable
    | true => rwa [if_pos rfl, Int.natAbs_neg]
  cases bounded
  cases found
  exact signed _

end Integers

namespace Sexp

/-- The S-expressions that reading can give: integers that can be written, the true flag, and every
other atom, in lists, brackets and quotes. -/
inductive Legible : Sexp → Prop where
  -- What the reader gives: no false flag, which is read as the empty list, and no long number.
  | truth : Legible (.flag true)
  | int {value : Int} (writable : Writable value) : Legible (.int value)
  | real (value : Double) : Legible (.real value)
  | text (value : String) : Legible (.text value)
  | symbol (name : String) : Legible (.symbol name)
  | list {items : List Sexp} (each : ∀ item ∈ items, Legible item) : Legible (.list items)
  | bracket {items : List Sexp} (each : ∀ item ∈ items, Legible item) : Legible (.bracket items)
  | quoted {item : Sexp} (inner : Legible item) : Legible (.quoted item)

/-- A list is legible when its items are. -/
theorem legible_list {items : List Sexp} :
    (Sexp.list items).Legible ↔ ∀ item ∈ items, item.Legible := by
  -- Only one of the cases is about a list.
  constructor
  · rintro (_ | _ | _ | _ | _ | each)
    exact each
  · exact .list

/-- The integers in a legible S-expression can be written. -/
theorem Legible.numbersWritable {sexp : Sexp} (legible : sexp.Legible) : sexp.NumbersWritable := by
  -- The numbers of an expression are those of its atoms.
  induction legible with
  | truth | real | text | symbol => exact fun number member => (List.not_mem_nil member).elim
  | int writable =>
    intro number member
    rw [List.mem_singleton.mp member]
    exact writable
  | list each ih => exact numbersWritable_list.mpr ih
  | bracket each ih => exact numbersWritable_list.mpr ih
  | quoted inner ih => exact ih

section Reader

/-- Every atom is legible. -/
theorem legible_atomValue (characters : List Char) : (atomValue characters).Legible := by
  -- The words for the flags come first, then numbers, and any other atom is a symbol.
  unfold atomValue
  split
  · exact .list fun item member => (List.not_mem_nil member).elim
  · exact .truth
  · split
    · rename_i found
      exact .int (writable_of_integer? found)
    · split
      · exact .real _
      · exact .symbol _

/-- What a state has read so far is legible: the items of the innermost list, and
those of the lists around it. -/
structure State.Legible (state : State) : Prop where
  -- Both what is finished and what is still open was read.
  items : ∀ item ∈ state.items, item.Legible
  frames : ∀ frame ∈ state.frames, ∀ item ∈ frame.outer, item.Legible

variable {state next : State}

/-- Where the reader stands does not matter. -/
theorem State.Legible.withMode (legible : state.Legible) (mode : Mode) :
    ({ state with mode } : State).Legible :=
  -- The mode has no items of its own.
  ⟨legible.items, legible.frames⟩

/-- A legible item may be added. -/
theorem State.Legible.push (legible : state.Legible) {item : Sexp} (added : item.Legible) :
    (state.push item).Legible :=
  -- The new item joins those of the innermost list.
  ⟨List.forall_mem_cons.mpr ⟨added, legible.items⟩, legible.frames⟩

/-- Opening a list keeps the items around it. -/
theorem State.Legible.opened (legible : state.Legible) (opener : Opener) :
    (state.opened opener).Legible :=
  -- The items so far belong to the enclosing list, and the new one has none yet.
  ⟨fun _ member => (List.not_mem_nil member).elim,
    List.forall_mem_cons.mpr ⟨legible.items, legible.frames⟩⟩

/-- Ending the lists of quote marks keeps everything legible. -/
theorem closeQuotes_legible {items : List Sexp} {frames : List Frame}
    {left : List Sexp × List Frame} (itemsLegible : ∀ item ∈ items, item.Legible)
    (framesLegible : ∀ frame ∈ frames, ∀ item ∈ frame.outer, item.Legible)
    (closed : closeQuotes items frames = .ok left) :
    (∀ item ∈ left.1, item.Legible) ∧ ∀ frame ∈ left.2, ∀ item ∈ frame.outer, item.Legible := by
  -- One frame after the other gives its items back, behind the quoted one.
  fun_induction closeQuotes items frames with
  | case1 => cases closed
  | case2 items place outer frames first last ih =>
    obtain ⟨outerLegible, framesLegible⟩ := List.forall_mem_cons.mp framesLegible
    have quoted : (Sexp.quoted first).Legible :=
      .quoted (itemsLegible first (List.mem_of_getLast? last))
    refine ih (List.forall_mem_append.mpr ⟨fun item member => ?_,
      List.forall_mem_cons.mpr ⟨quoted, outerLegible⟩⟩) framesLegible closed
    exact itemsLegible item (List.dropLast_subset items member)
  | case3 =>
    cases closed
    exact ⟨itemsLegible, framesLegible⟩

/-- Closing a list keeps everything legible. -/
theorem close_legible {closer : Char} {rest : List Char} (legible : state.Legible)
    (closed : close state closer rest = .ok next) : next.Legible := by
  obtain ⟨⟨items, frames⟩, ended, closed⟩ := bind_eq_ok_iff.mp closed
  obtain ⟨itemsLegible, framesLegible⟩ := closeQuotes_legible legible.items legible.frames ended
  -- The items of the closed list become a single item of the list around it.
  have reversed : ∀ item ∈ items.reverse, item.Legible :=
    fun item member => itemsLegible item (List.mem_reverse.mp member)
  split at closed
  case h_3 => cases closed
  all_goals
    rename_i outer frames same
    cases same
    obtain ⟨outerLegible, framesLegible⟩ := List.forall_mem_cons.mp framesLegible
    split at closed <;> cases closed
  · exact ⟨List.forall_mem_cons.mpr ⟨.list reversed, outerLegible⟩, framesLegible⟩
  · exact ⟨List.forall_mem_cons.mpr ⟨.bracket reversed, outerLegible⟩, framesLegible⟩

/-- What a choice gives is given by one of the two sides. -/
theorem either_of_ite_eq {α : Type} {choice : Prop} [Decidable choice] {first second result : α}
    (chosen : (if choice then first else second) = result) : first = result ∨ second = result := by
  -- Either the condition holds or it does not.
  by_cases holds : choice
  · exact .inl ((if_pos holds).symm.trans chosen)
  · exact .inr ((if_neg holds).symm.trans chosen)

/-- A character between expressions keeps everything legible. -/
theorem startAt_legible {c : Char} {rest : List Char} {place : Nat} (legible : state.Legible)
    (started : startAt state c rest place = .ok next) : next.Legible := by
  -- A change of mode keeps all items, and so does a list that is opened.
  have moved : ∀ mode, (.ok { state with mode } : Except ReadError State) = .ok next →
      next.Legible := by
    rintro mode ⟨⟩
    exact legible.withMode mode
  have opened : ∀ opener, (.ok (state.opened opener) : Except ReadError State) = .ok next →
      next.Legible := by
    rintro opener ⟨⟩
    exact legible.opened opener
  -- Only a bracket or a quote mark does more than change where the reader stands.
  unfold startAt at started
  rcases either_of_ite_eq started with started | started
  · exact moved _ started
  rcases either_of_ite_eq started with started | started
  · exact moved _ started
  rcases either_of_ite_eq started with started | started
  · exact opened _ started
  rcases either_of_ite_eq started with started | started
  · exact opened _ started
  rcases either_of_ite_eq started with started | started
  · exact close_legible legible started
  rcases either_of_ite_eq started with started | started
  · exact opened _ started
  rcases either_of_ite_eq started with started | started
  · exact moved _ started
  rcases either_of_ite_eq started with started | started
  · exact moved _ started
  · exact moved _ started

/-- One character keeps everything legible. -/
theorem step_legible {c : Char} {rest : List Char} {place : Nat} (legible : state.Legible)
    (stepped : step state c rest place = .ok next) : next.Legible := by
  -- Items are added where a text or an atom ends, and the character behind an atom counts as well.
  unfold step at stepped
  split at stepped
  case h_1 =>
    -- Between items, a new one may start.
    exact startAt_legible legible stepped
  case h_2 =>
    cases stepped
    split
    · exact legible.withMode _
    · exact legible
  case h_3 =>
    -- A closing quote ends a text, and any other character goes on with it.
    split at stepped
    · cases stepped
      exact legible.push (.text _)
    · split at stepped <;> cases stepped <;> exact legible.withMode _
  case h_4 => split at stepped <;> cases stepped <;> exact legible.withMode _
  case h_5 characters =>
    -- The atom is ended by the character, which is then looked at anew.
    split at stepped
    · exact startAt_legible (legible.push (legible_atomValue _)) stepped
    · split at stepped <;> cases stepped <;> exact legible.withMode _
  case h_6 => split at stepped <;> cases stepped <;> exact legible.withMode _

/-- At the end of the text, the one expression is legible. -/
theorem finish_legible {sexp : Sexp} (legible : state.Legible)
    (finished : finish state = .ok sexp) : sexp.Legible := by
  unfold finish at finished
  extract_lets ending at finished
  -- Whatever the text ended in, the open quote marks are ended next.
  have ended : ∀ {last : State}, last.Legible → ending last = .ok sexp → sexp.Legible := by
    intro last lastLegible finished
    obtain ⟨⟨items, frames⟩, closed, finished⟩ := bind_eq_ok_iff.mp finished
    have itemsLegible := (closeQuotes_legible lastLegible.items lastLegible.frames closed).1
    split at finished
    case h_3 same =>
      cases same
      cases finished
      exact itemsLegible _ List.mem_cons_self
    all_goals cases finished
  -- A text may end between items, in an atom, or in a comment.
  split at finished
  case h_4 => exact ended (legible.push (legible_atomValue _)) finished
  case h_5 | h_6 => exact ended legible finished
  all_goals cases finished

/-- From a legible state, a whole text is read as a legible expression. -/
theorem run_legible {text : List Char} {place : Nat} {sexp : Sexp} (legible : state.Legible)
    (ran : run state place text = .ok sexp) : sexp.Legible := by
  -- One step at a time keeps the state legible, until it is finished.
  induction text generalizing state place with
  | nil => exact finish_legible legible ran
  | cons c rest ih =>
    obtain ⟨next, stepped, ran⟩ := bind_eq_ok_iff.mp ran
    exact ih (step_legible legible stepped) ran

/-- What is read is legible. -/
theorem readNested_legible [Limits] {text : List Char} {sexp : Sexp}
    (found : readNested text = .ok sexp) : sexp.Legible := by
  -- Too many open lists are refused before anything is read.
  unfold readNested at found
  split at found
  · cases found
  · have start : ({} : State).Legible := ⟨by simp, by simp⟩
    exact run_legible start found

end Reader

section Readings

variable {item : Sexp}

/-- The value of a legible item is legible. -/
theorem Legible.plain (legible : item.Legible) {value : Sexp} (found : item.plain = some value) :
    value.Legible := by
  -- Symbols become texts, and everything else stays.
  unfold Sexp.plain at found
  split at found <;> cases found
  · exact .text _
  · exact legible

/-- The object that a legible item stands for is written as a legible item. -/
theorem Legible.subject (legible : item.Legible) : item.subject.toSexp.Legible := by
  -- An object is a symbol, a text, or a plain value.
  unfold Sexp.subject
  split
  · exact .symbol _
  · exact .text _
  · rename_i found
    exact legible.plain found
  · rename_i found
    exact legible.plain found
  · exact .text _

/-- The amount that a legible item stands for is written as a legible item. -/
theorem Legible.amount (legible : item.Legible) {amount : Amount}
    (found : Amount.ofSexp? item = some amount) :
    amount.toSexp.Legible := by
  -- The false flag, which would count as zero, is never read.
  cases legible with
  | truth =>
    cases found
    exact .truth
  | int writable =>
    cases found
    exact .int writable
  | real | text | symbol | list | bracket | quoted => cases found

/-- A bound is written as a legible item. -/
theorem Legible.bound {given : Option Sexp} (legible : ∀ item ∈ given, item.Legible)
    {amount? : Option Amount} (found : bound given = .ok amount?) :
    ∀ item ∈ amount?.map Amount.toSexp, item.Legible := by
  -- A bound that was found was plain, and could be counted.
  intro item member
  obtain ⟨amount, rfl, rfl⟩ := Option.map_eq_some_iff.mp member
  unfold Sexp.bound at found
  split at found
  · cases found
  · rename_i given
    split at found
    · cases found
    · rename_i plain
      split at found
      · rename_i counted
        cases found
        exact ((legible given rfl).plain plain).amount counted
      · cases found

/-- An axis is written as legible items. -/
theorem Legible.axisReading (legible : item.Legible) {axis : AxisReading}
    (found : item.axisReading = .ok axis) :
    ∀ field ∈ axis.fields, field.Legible := by
  -- An axis has exactly four fields behind its title.
  unfold Sexp.axisReading at found
  split at found
  · split at found
    · rename_i start step count size
      have each := legible_list.mp legible
      cases found
      simp only [List.forall_mem_cons] at each
      obtain ⟨-, startLegible, stepLegible, countLegible, sizeLegible, -⟩ := each
      simp only [AxisReading.fields, List.forall_mem_cons]
      exact ⟨startLegible.amount start, stepLegible.amount step, countLegible.amount count,
        sizeLegible.amount size,
        by simp⟩
    · cases found
  · cases found

/-- Every result of steps that all succeed is the result of one of them. -/
theorem exists_of_mapM_eq_ok {ε α β : Type} {step : α → Except ε β} {list : List α}
    {results : List β} (all : list.mapM step = .ok results) {result : β}
    (member : result ∈ results) :
    ∃ item ∈ list, step item = .ok result := by
  -- The results stand in the order of the items.
  have each := mapM_eq_ok_iff_forall₂.mp all
  clear all
  induction each with
  | nil => cases member
  | cons here _ ih =>
    rcases List.mem_cons.mp member with rfl | member
    · exact ⟨_, List.mem_cons_self, here⟩
    · obtain ⟨item, inside, found⟩ := ih member
      exact ⟨item, List.mem_cons_of_mem _ inside, found⟩

/-- The parts of a region are legible. -/
structure Fields.Legible (fields : Fields) : Prop where
  -- The parts from which a region is built, before they are made into numbers.
  lower : ∀ item ∈ fields.lower, item.Legible
  upper : ∀ item ∈ fields.upper, item.Legible
  axes : ∀ axis ∈ fields.axes, ∀ field ∈ axis.fields, field.Legible

/-- Noting the value of an option keeps the parts legible. -/
theorem Fields.Legible.note {fields : Fields} (legible : fields.Legible) (tag : String)
    (noted : item.Legible) :
    (fields.note tag item).Legible := by
  -- The tag tells which part is set, and an unknown one sets none.
  have given : ∀ value ∈ some item, value.Legible := by
    rintro value ⟨⟩
    exact noted
  unfold Fields.note
  split
  · exact ⟨legible.lower, legible.upper, legible.axes⟩
  · exact ⟨given, legible.upper, legible.axes⟩
  · exact ⟨legible.lower, given, legible.axes⟩
  · exact legible

/-- The parts that are collected from legible items are legible. -/
theorem collect_legible {fields found : Fields} {items : List Sexp} (legible : fields.Legible)
    (each : ∀ item ∈ items, item.Legible) (collected : collect fields items = .ok found) :
    found.Legible := by
  fun_induction collect fields items with
  | case1 =>
    cases collected
    exact legible
  | case2 => cases collected
  | case3 fields item tag tagged value rest ih =>
    -- An option takes the item behind it, whatever its name is.
    obtain ⟨noted, others⟩ := List.forall_mem_cons.mp (List.forall_mem_cons.mp each).2
    exact ih (legible.note tag noted) others collected
  | case4 fields rest axes untagged ih =>
    -- The axes take the place of those that came before.
    obtain ⟨dims, others⟩ := List.forall_mem_cons.mp each
    obtain ⟨readings, read, collected⟩ := bind_eq_ok_iff.mp collected
    have axesLegible : ∀ axis ∈ readings, ∀ field ∈ axis.fields, field.Legible := by
      intro axis member
      obtain ⟨item, inside, here⟩ := exists_of_mapM_eq_ok read member
      exact (legible_list.mp dims item (List.mem_cons_of_mem _ inside)).axisReading here
    exact ih readings ⟨legible.lower, legible.upper, axesLegible⟩ others collected
  | case5 => cases collected

/-- What a legible S-expression describes is written as a legible one. -/
theorem Legible.reading {sexp : Sexp} (legible : sexp.Legible) {reading : Reading}
    (found : sexp.reading = .ok reading) :
    reading.toSexp.Legible := by
  -- The parts are collected first, and each of them is legible as an item of the list.
  unfold Sexp.reading at found
  split at found
  · obtain ⟨object, items⟩ :=
      List.forall_mem_cons.mp (List.forall_mem_cons.mp (legible_list.mp legible)).2
    obtain ⟨fields, collected, found⟩ := bind_eq_ok_iff.mp found
    obtain ⟨kind, -, found⟩ := bind_eq_ok_iff.mp found
    obtain ⟨lower, low, found⟩ := bind_eq_ok_iff.mp found
    obtain ⟨upper, high, found⟩ := bind_eq_ok_iff.mp found
    have parts := collect_legible ⟨by simp, by simp, by simp⟩ items collected
    cases found
    refine (forall_region (fun _ => legible_list) .symbol).mpr
      ⟨object.subject, .bound parts.lower low, .bound parts.upper high, ?_⟩
    simpa using parts.axes
  · cases found

end Readings

end Sexp

open Sexp

/-- The object that is read back: any other value comes back as the text that shows it. -/
def Subject.asWritten : Subject → Subject
  -- What is no object is written as its description, and then read as a name.
  | .other value => .object (.name value.describe)
  | kept => kept

namespace Reading

/-- What is read back: everything as it was, except for an object that is some other value. -/
def asWritten (reading : Reading) : Reading :=
  -- Everything but the object is written as it is.
  { reading with subject := reading.subject.asWritten }

/-- Everything comes back as it was unless the object is some other value. -/
theorem asWritten_eq_self_iff {reading : Reading} :
    reading.asWritten = reading ↔ ∀ value, reading.subject ≠ .other value := by
  -- Only an object that is no object changes.
  obtain ⟨subject, kind, lower, upper, axes⟩ := reading
  cases subject <;> simp [asWritten, Subject.asWritten]

end Reading

/-- On one line, an amount is read back as it was. -/
theorem Amount.reread_spell {amount : Amount} (legible : amount.toSexp.Legible) :
    (amount.toSexp.spell compactFlag).reread = amount.toSexp := by
  -- A number is short enough to be read again, and the true flag is spelled as the reader expects.
  cases amount with
  | number value => exact legible.numbersWritable.reread_int
  | truth => rfl

/-- Every amount is counted as itself. -/
theorem Amount.ofSexp?_toSexp (amount : Amount) : ofSexp? amount.toSexp = some amount := by
  -- The two forms of an amount are told apart.
  cases amount <;> rfl

/-- On several lines, an amount counts when it is a number. -/
theorem Amount.ne_truth_of_reread {amount found : Amount}
    (counted : ofSexp? (amount.toSexp.spell prettyFlag).reread = some found) : amount ≠ .truth := by
  -- The word for the true flag is read as a symbol, and a symbol is no amount.
  rintro rfl
  cases counted

/-- On one line, an object is read back. -/
theorem Subject.reread_spell {subject : Subject} (legible : subject.toSexp.Legible) :
    (subject.toSexp.spell compactFlag).reread.subject = subject.asWritten := by
  -- Each form of an object is read as it was written.
  cases subject with
  | missing | other => rfl
  | object identity =>
    cases identity with
    | name => rfl
    | number value => exact congrArg Sexp.subject legible.numbersWritable.reread_int
    | flag value =>
      cases legible
      rfl

/-- On one line, a bound is read back. -/
theorem bound_reread_spell {given : Option Amount}
    (legible : ∀ item ∈ given.map Amount.toSexp, item.Legible) :
    bound (some (orNil ((given.map Amount.toSexp).map (spell compactFlag))).reread) =
      .ok given := by
  -- A missing bound is read as missing.
  cases given with
  | none => rfl
  | some amount =>
    have same : (orNil (some (amount.toSexp.spell compactFlag))).reread = amount.toSexp :=
      Amount.reread_spell (legible _ rfl)
    rw [Option.map_some, Option.map_some, same]
    cases amount <;> rfl

/-- An axis is read from the amounts of its fields. -/
theorem axisReading_eq_ok_iff {start step count size : Sexp} {axis : AxisReading} :
    (Sexp.list [.symbol "dim", start, step, count, size]).axisReading = .ok axis ↔
      Amount.ofSexp? start = some axis.start ∧ Amount.ofSexp? step = some axis.step ∧
        Amount.ofSexp? count = some axis.count ∧ Amount.ofSexp? size = some axis.size := by
  -- The four fields are looked at one by one.
  obtain ⟨startRead, stepRead, countRead, sizeRead⟩ := axis
  rw [axisReading]
  constructor
  · intro found
    split at found
    · rename_i startFound stepFound countFound sizeFound
      cases found
      exact ⟨startFound, stepFound, countFound, sizeFound⟩
    · cases found
  · rintro ⟨startFound, stepFound, countFound, sizeFound⟩
    simp only [startFound, stepFound, countFound, sizeFound]

/-- The fields of an axis, with flags spelled, are read as the amounts that they count as. -/
theorem AxisReading.axisReading_spell {flag : Bool → Sexp} {axis found : AxisReading} :
    (axisItem (axis.fields.map (spell flag))).reread.axisReading = .ok found ↔
      Amount.ofSexp? (axis.start.toSexp.spell flag).reread = some found.start ∧
        Amount.ofSexp? (axis.step.toSexp.spell flag).reread = some found.step ∧
        Amount.ofSexp? (axis.count.toSexp.spell flag).reread = some found.count ∧
        Amount.ofSexp? (axis.size.toSexp.spell flag).reread = some found.size := by
  -- The spelled fields are those of the list.
  rw [← axisReading_eq_ok_iff, axisItem, reread_list]
  rfl

namespace Reading

variable {reading : Reading}

/-- What was read describes the same on one line. -/
theorem reading_compact (legible : reading.toSexp.Legible) :
    (reading.toSexp.spell compactFlag).reread.reading = .ok reading.asWritten := by
  -- Every field is spelled, read and decoded on its own.
  obtain ⟨object, lower, upper, axes⟩ := (forall_region (fun _ => legible_list) .symbol).mp legible
  rw [toSexp, spell_region, reading_reread_region]
  refine ⟨Subject.reread_spell object, rfl, bound_reread_spell lower, bound_reread_spell upper, ?_⟩
  rw [List.map_map, List.forall₂_map_left_iff]
  refine List.forall₂_same.mpr fun axis member => ?_
  have each := axes axis.fields (List.mem_map_of_mem member)
  simp only [AxisReading.fields, List.forall_mem_cons] at each
  obtain ⟨start, step, count, size, -⟩ := each
  rw [Function.comp_apply, AxisReading.axisReading_spell]
  simp only [Amount.reread_spell, start, step, count, size, Amount.ofSexp?_toSexp, and_self]

/-- What is read back from several lines as it was has no flag. -/
theorem flagless_of_reading_pretty
    (found : (reading.toSexp.spell prettyFlag).reread.reading = .ok reading.asWritten) :
    reading.Flagless := by
  -- The symbol that stands for the true flag is no number, so a bound of that kind is refused.
  have bound : ∀ {given : Option Amount},
      Sexp.bound (some (orNil ((given.map Amount.toSexp).map (spell prettyFlag))).reread) =
        .ok given →
        given ≠ some .truth := by
    rintro given found rfl
    cases found
  rw [toSexp, spell_region, reading_reread_region, List.map_map, List.forall₂_map_left_iff] at found
  obtain ⟨object, -, lower, upper, axes⟩ := found
  refine ⟨fun value flag => ?_, bound lower, bound upper, fun axis member => ?_⟩
  · -- The flag comes back as the name of its symbol.
    simp only [asWritten, flag] at object
    cases value <;> cases object
  · have here := List.forall₂_same.mp axes axis member
    rw [Function.comp_apply, AxisReading.axisReading_spell] at here
    obtain ⟨start, step, count, size⟩ := here
    simp only [List.mem_cons, List.not_mem_nil, or_false, not_or]
    exact ⟨(Amount.ne_truth_of_reread start).symm, (Amount.ne_truth_of_reread step).symm,
      (Amount.ne_truth_of_reread count).symm, (Amount.ne_truth_of_reread size).symm⟩

/-- What was read describes the same on several lines exactly when it has no flag. -/
theorem reading_pretty_iff (legible : reading.toSexp.Legible) :
    (reading.toSexp.spell prettyFlag).reread.reading = .ok reading.asWritten ↔
      reading.Flagless := by
  -- Without a flag, both spellings are the same.
  refine ⟨flagless_of_reading_pretty, fun flagless => ?_⟩
  rw [(reread_spell_eq_iff _).mpr (flagless_toSexp.mpr flagless)]
  exact reading_compact legible

/-- What was read is written, and what its text is read as is what its spelling describes. -/
theorem readSexpRegion_written [Limits] (legible : reading.toSexp.Legible) (pretty : Bool) :
    ∃ text, reading.toSexp.writeTold pretty = .ok text ∧
      readSexpRegion text = (reading.toSexp.spell (flagSpelling pretty)).reread.reading := by
  -- Three levels are fewer than those of an outcome, which are written and read.
  obtain ⟨text, told, read⟩ :=
    ((reading.structuredWithin_spell pretty).mono (by decide)).readNested_writeTold
    legible.numbersWritable
  exact ⟨text, told, by rw [readSexpRegion, read]⟩

end Reading

/-- Everything that is read as a region is written as texts that are read again. The text on one
line is read as the same region, in every field, with an object that is some other value shown as a
text; the text on several lines is read so exactly when there is no flag. -/
theorem readSexpRegion_stable [Limits] {text : String} {reading : Reading}
    (read : readSexpRegion text = .ok reading) :
    (∃ line, reading.toSexp.writeTold false = .ok line ∧
      readSexpRegion line = .ok reading.asWritten) ∧
    (∃ lines, reading.toSexp.writeTold true = .ok lines ∧
      (readSexpRegion lines = .ok reading.asWritten ↔ reading.Flagless)) ∧
    (reading.asWritten = reading ↔ ∀ value, reading.subject ≠ .other value) := by
  -- Only what the reader gives matters: its numbers can be written, and its flags are true.
  have legible : reading.toSexp.Legible := by
    unfold readSexpRegion at read
    split at read
    · rename_i found
      exact (readNested_legible found).reading read
    · cases read
  -- Both texts are read as their spelling, and the two spellings are told apart by flags alone.
  obtain ⟨line, lineWritten, lineRead⟩ := Reading.readSexpRegion_written legible false
  obtain ⟨lines, linesWritten, linesRead⟩ := Reading.readSexpRegion_written legible true
  refine ⟨⟨line, lineWritten, ?_⟩, ⟨lines, linesWritten, ?_⟩, Reading.asWritten_eq_self_iff⟩
  · rw [lineRead]
    exact Reading.reading_compact legible
  · rw [linesRead]
    exact Reading.reading_pretty_iff legible

open scoped Limits

/-- A true flag that stands for a bound comes back from one line. On several lines it is spelled as
a word that stands for no bound. -/
theorem readSexpRegion_stable_truth :
    let reading : Reading := ⟨.object (.name "A"), .flat, some .truth, none, []⟩
    let lines := "(location \"A\" :kind default :lower true :upper nil)"
    readSexpRegion "(location A :lower t)" = .ok reading ∧
      (∃ line, reading.toSexp.writeTold false = .ok line ∧ readSexpRegion line = .ok reading) ∧
      reading.toSexp.writeTold true = .ok lines ∧ readSexpRegion lines ≠ .ok reading ∧
      readSexpRegion lines = .error (.notInteger (.text "true")) := by
  intro reading lines
  -- The true flag stands in place of a number.
  have read : readSexpRegion "(location A :lower t)" = .ok reading := rfl
  have kept : reading.asWritten = reading := rfl
  have told : reading.toSexp.writeTold true = .ok lines := by decide +kernel
  have refused : readSexpRegion "(location \"A\" :kind default :lower true :upper nil)" =
      .error (.notInteger (.text "true")) := by rfl
  -- One line keeps the reading, and several lines do not, since the flag
  -- is spelled as a word there.
  obtain ⟨line, ⟨text, written, same⟩, -⟩ := readSexpRegion_stable read
  rw [kept] at line same
  rw [told] at written
  cases written
  refine ⟨read, line, told, fun again => ?_, refused⟩
  exact (same.mp again).lower rfl

end Overlap
