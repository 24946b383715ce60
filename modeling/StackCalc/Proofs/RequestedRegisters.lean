import StackCalc.Proofs.Characters
import StackCalc.Proofs.DistinctKeys
import StackCalc.Proofs.RegisterUnion
import StackCalc.Proofs.SettingsErrors

/-! The registers in which the command line evaluates an expression. They come from the settings
file and from items of the form `NAME=VALUE`. The last item for a name decides on its value, and the
file does where there is no item. The names of the file come first. -/
namespace StackCalc

/-- What stands before the first equals sign of an item, without the blanks at its ends. -/
def itemName (item : String) : String :=
  Text.stripped (String.ofList (item.toList.takeWhile (· ≠ '=')))

/-- What stands behind the first equals sign of an item. -/
def itemText (item : String) : List Char :=
  (item.toList.dropWhile (· ≠ '=')).tail

/-- An item that cannot be used: it has no equals sign, a blank name, or a text that is no number.
-/
def Flawed (item : String) : Prop :=
  '=' ∉ item.toList ∨ itemName item = "" ∨ Number.readChars? (itemText item) = none

instance : DecidablePred Flawed := fun item =>
  inferInstanceAs (Decidable ('=' ∉ item.toList ∨ itemName item = "" ∨
    Number.readChars? (itemText item) = none))

/-- What is said about an item that cannot be used. -/
def complaint (item : String) : String :=
  if '=' ∉ item.toList ∨ itemName item = "" then "Expected NAME=VALUE, got " ++ Text.quoted item
  else "Not a number: " ++ Text.quoted (String.ofList (itemText item))

/-- A number of a document as a double. -/
def Toml.Value.toFloat? : Toml.Value → Option Float
  | .real x => some x
  | .integer n => Number.ofInt? n
  | _ => none

/-- The value that is asked for under a name: that of the last item for the name, else that of the
section of the file. -/
def requested? (file : Toml.Table) (items : List String) (name : String) : Option Float :=
  match items.reverse.find? (itemName · = name) with
  | some item => Number.readChars? (itemText item)
  | none => (file.lookup name).bind Toml.Value.toFloat?

/-- The names that are asked for: those of the file in its order, then the new ones of the items in
the order of their first appearance. -/
def requestedNames (file : Toml.Table) (items : List String) : List Name :=
  let names : List Name := file.map fun entry => .text entry.1
  names ++ (items.map fun item => .text (itemName item)).eraseDups.filter (· ∉ names)

section
variable {item : String} {items : List String}

/-- The name of an item is what stands before its first `=`, with the blanks around it removed. -/
theorem itemName_eq (item : String) :
    itemName item = String.ofList (Text.trim Text.isBlank (item.toList.takeWhile (· ≠ '='))) := by
  rw [itemName, Text.stripped, String.toList_ofList]

/-- How an item is read, in one formula. -/
theorem readAssignment_eq (item : String) :
    readAssignment item =
      if '=' ∉ item.toList ∨ itemName item = "" then .error (.malformed item)
      else (Number.readChars? (itemText item)).elim
        (.error (.notNumeric (String.ofList (itemText item)))) fun x => .ok (itemName item, x) := by
  simp only [readAssignment, itemName_eq, Text.ofList_eq_empty_iff, itemText]
  generalize Text.trim Text.isBlank (item.toList.takeWhile (· ≠ '=')) = name
  by_cases hSign : '=' ∈ item.toList
  · rw [Text.dropWhile_of_mem hSign, List.tail_cons]
    generalize (item.toList.dropWhile (· ≠ '=')).tail = text
    cases name with
    | nil => rw [if_pos (.inr rfl)]
    | cons c name =>
        rw [if_neg (by simp [hSign])]
        cases hText : Number.readChars? text <;> simp only [hText] <;> rfl
  · rw [Text.dropWhile_of_not_mem hSign, if_pos (.inl hSign)]
    cases name <;> rfl

/-- A flawed item is refused with the complaint about it. -/
theorem readAssignment_of_flawed (h : Flawed item) :
    ∃ e, readAssignment item = .error e ∧ e.message = complaint item := by
  rw [readAssignment_eq, complaint]
  by_cases hName : '=' ∉ item.toList ∨ itemName item = ""
  · rw [if_pos hName, if_pos hName]
    exact ⟨_, rfl, rfl⟩
  · have hNone : Number.readChars? (itemText item) = none :=
      (or_assoc.mpr h).resolve_left hName
    rw [if_neg hName, if_neg hName, hNone]
    exact ⟨_, rfl, rfl⟩

def itemEntry (item : String) : String × Float :=
  (itemName item, (Number.readChars? (itemText item)).getD 0)

theorem readChars?_of_not_flawed (h : ¬ Flawed item) :
    Number.readChars? (itemText item) = some (itemEntry item).2 := by
  have hSome : Number.readChars? (itemText item) ≠ none := fun hNone => h (.inr (.inr hNone))
  obtain ⟨x, hx⟩ := Option.ne_none_iff_exists'.mp hSome
  rw [itemEntry, hx, Option.getD_some]

/-- A sound item is read as its entry. -/
theorem readAssignment_of_not_flawed (h : ¬ Flawed item) :
    readAssignment item = .ok (itemEntry item) := by
  have hName : ¬ ('=' ∉ item.toList ∨ itemName item = "") := by
    intro hName
    exact h (or_assoc.mp (.inl hName))
  rw [readAssignment_eq, if_neg hName, readChars?_of_not_flawed h]
  rfl

/-- Sound items are all read, in their order. -/
theorem readEntries_of_sound (h : ∀ item ∈ items, ¬ Flawed item) :
    readEntries items = .ok (items.map itemEntry) := by
  induction items with
  | nil => rfl
  | cons item rest ih =>
      obtain ⟨hFirst, hRest⟩ := List.forall_mem_cons.mp h
      simp only [readEntries, readAssignment_of_not_flawed hFirst, ih hRest]
      rfl

/-- Items are read up to the first that cannot be used. -/
theorem readEntries_of_flawed {before : List String} (hSound : ∀ earlier ∈ before, ¬ Flawed earlier)
    (hFlawed : Flawed item) (after : List String) :
    ∃ e, readEntries (before ++ item :: after) = .error e ∧ e.message = complaint item := by
  induction before with
  | nil =>
      obtain ⟨e, hRead, hMessage⟩ := readAssignment_of_flawed hFlawed
      exact ⟨e, by simp only [List.nil_append, readEntries, hRead], hMessage⟩
  | cons first before ih =>
      obtain ⟨hFirst, hBefore⟩ := List.forall_mem_cons.mp hSound
      obtain ⟨e, hRest, hMessage⟩ := ih hBefore
      refine ⟨e, ?_, hMessage⟩
      simp only [List.cons_append, readEntries, readAssignment_of_not_flawed hFirst, hRest]
      rfl

def itemRegisters (items : List String) : Registers :=
  .ofList (items.map fun item => (.text (itemName item), (itemEntry item).2))

/-- Sound items are read into the registers they name. -/
theorem readAssignments_of_sound (h : ∀ item ∈ items, ¬ Flawed item) :
    readAssignments items = .ok (itemRegisters items) := by
  rw [readAssignments, readEntries_of_sound h, itemRegisters]
  simp only [Except.map, List.map_map]
  rfl

/-- The first flawed item decides the complaint, whatever stands behind it. -/
theorem readAssignments_of_flawed {before : List String}
    (hSound : ∀ earlier ∈ before, ¬ Flawed earlier) (hFlawed : Flawed item) (after : List String) :
    ∃ e, readAssignments (before ++ item :: after) = .error e ∧ e.message = complaint item := by
  obtain ⟨e, hRead, hMessage⟩ := readEntries_of_flawed hSound hFlawed after
  exact ⟨e, by rw [readAssignments, hRead]; rfl, hMessage⟩

/-- If there is something wrong with an item, the complaint about the first such item is made. -/
theorem exists_first_flawed (h : ∃ item ∈ items, Flawed item) :
    ∃ before item after e, items = before ++ item :: after ∧
      (∀ earlier ∈ before, ¬ Flawed earlier) ∧ Flawed item ∧
      readAssignments items = .error e ∧ e.message = complaint item := by
  obtain ⟨found, hMem, hFound⟩ := h
  have hSome : (items.find? (Flawed ·)).isSome := by
    rw [List.find?_isSome]
    exact ⟨found, hMem, decide_eq_true hFound⟩
  obtain ⟨item, hFirst⟩ := Option.isSome_iff_exists.mp hSome
  obtain ⟨hItem, before, after, rfl, hBefore⟩ := List.find?_eq_some_iff_append.mp hFirst
  have hSound : ∀ earlier ∈ before, ¬ Flawed earlier := by simpa using hBefore
  have hFlawed : Flawed item := of_decide_eq_true hItem
  obtain ⟨e, hError, hMessage⟩ := readAssignments_of_flawed hSound hFlawed after
  exact ⟨before, item, after, e, rfl, hSound, hFlawed, hError, hMessage⟩

/-- Items that were read are sound. -/
theorem not_flawed_of_readAssignments {given : Registers} (h : readAssignments items = .ok given) :
    ∀ item ∈ items, ¬ Flawed item := by
  intro item hMem hFlawed
  obtain ⟨_, _, _, e, -, -, -, hError, -⟩ := exists_first_flawed ⟨item, hMem, hFlawed⟩
  rw [h] at hError
  cases hError

/-- A refusal is the fault of some item. -/
theorem exists_flawed_of_readAssignments {e : AssignmentError}
    (h : readAssignments items = .error e) : ∃ item ∈ items, Flawed item := by
  apply Classical.byContradiction
  intro hNone
  have hSound : ∀ item ∈ items, ¬ Flawed item := fun item hMem hFlawed =>
    hNone ⟨item, hMem, hFlawed⟩
  rw [readAssignments_of_sound hSound] at h
  cases h

end

section
variable {items : List String}

/-- A register has the value of the last item that names it. -/
theorem get?_itemRegisters (h : ∀ item ∈ items, ¬ Flawed item) (name : String) :
    (itemRegisters items).get? (.text name) =
      (items.reverse.find? (itemName · = name)).bind fun item =>
        Number.readChars? (itemText item) := by
  rw [itemRegisters, Registers.ofList, Registers.get?_setAll, Registers.get?_empty, Option.or_none,
    ← List.map_reverse, List.find?_map, Option.map_map]
  simp only [Function.comp_def, Payload.key_text, Payload.text.injEq]
  cases hFind : items.reverse.find? (itemName · = name) with
  | none => rfl
  | some item =>
      have hMem := List.mem_reverse.mp (List.mem_of_find?_eq_some hFind)
      exact (readChars?_of_not_flawed (h item hMem)).symm

/-- The registers stand in the order in which the items first name them. -/
theorem names_itemRegisters (items : List String) :
    (itemRegisters items).names = (items.map fun item => .text (itemName item)).eraseDups := by
  have hNew : ∀ names : List Name, names.filter (·.key ∉ Registers.empty.keys) = names := by
    intro names
    exact List.filter_eq_self.mpr (by simp [Registers.keys, Registers.names])
  rw [itemRegisters, Registers.ofList, Registers.names_setAll, hNew, List.map_map, List.eraseDups]
  refine (List.nil_append _).trans (eraseDupsBy_congr ?_)
  intro a ha b hb
  obtain ⟨item, -, rfl⟩ := List.mem_map.mp ha
  obtain ⟨item', -, rfl⟩ := List.mem_map.mp hb
  rw [Bool.eq_iff_iff]
  simp

end

namespace Settings
variable {file document : Toml.Table} {settings : Settings} {path text : String}

/-- A register of the file is any value that is a number within the range of doubles. -/
theorem registerOf_eq_ok_iff {name : String} {value : Toml.Value} {x : Float} :
    registerOf name value = .ok x ↔ value.toFloat? = some x := by
  unfold registerOf Toml.Value.toFloat?
  cases value with
  | integer n => cases hFloat : Number.ofInt? n <;> simp [hFloat]
  | _ => simp

def fileEntry (entry : String × Toml.Value) : Name × Float :=
  (.text entry.1, entry.2.toFloat?.getD 0)

/-- When the section of registers is read to its end, every entry was a number and all of them were
set in order. -/
theorem registersOf_eq_ok {r r' : Registers} (h : (registersOf file r).1 = .ok r') :
    r' = r.setAll (file.map fileEntry) ∧
      ∀ entry ∈ file, entry.2.toFloat? = some (fileEntry entry).2 := by
  induction file generalizing r with
  | nil =>
      cases h
      exact ⟨rfl, by simp⟩
  | cons entry rest ih =>
      obtain ⟨name, value⟩ := entry
      cases hFirst : registerOf name value with
      | error e =>
          simp only [registersOf, hFirst] at h
          cases h
      | ok x =>
          simp only [registersOf, hFirst] at h
          obtain ⟨hRest, hNumbers⟩ := ih h
          have hNumber := registerOf_eq_ok_iff.mp hFirst
          have hEntry : fileEntry (name, value) = (.text name, x) := by
            rw [fileEntry, hNumber, Option.getD_some]
          refine ⟨?_, List.forall_mem_cons.mpr ⟨by rw [hNumber, hEntry], hNumbers⟩⟩
          rw [hRest, List.map_cons, hEntry]
          rfl

/-- The registers of a section are its entries, in their order. -/
theorem entries_of_registersOf {r : Registers} (hDistinct : (file.map Prod.fst).Nodup)
    (h : (registersOf file .empty).1 = .ok r) : r.entries = file.map fileEntry := by
  obtain ⟨rfl, -⟩ := registersOf_eq_ok h
  apply Registers.entries_setAll
  have hKeys : ((file.map fileEntry).map Prod.fst).map Payload.key =
      (file.map Prod.fst).map Payload.text := by
    simp only [List.map_map]
    rfl
  rw [Registers.entries_empty, List.nil_append, hKeys]
  exact List.pairwise_map.mpr (hDistinct.imp fun hNe hSame => hNe (Payload.text.inj hSame))

/-- The keys of the section are distinct, so each register has the value of its one entry. -/
theorem get?_of_registersOf {r : Registers} (hDistinct : (file.map Prod.fst).Nodup)
    (h : (registersOf file .empty).1 = .ok r) (name : String) :
    r.get? (.text name) = (file.lookup name).bind Toml.Value.toFloat? := by
  have hNumbers := (registersOf_eq_ok h).2
  rw [Registers.get?, entries_of_registersOf hDistinct h, lookup_eq_map_find? file, List.find?_map]
  simp only [Function.comp_def, fileEntry, Payload.key_text, Payload.text.injEq]
  cases hFind : file.find? (·.1 = name) with
  | none => rfl
  | some entry => exact (hNumbers entry (List.mem_of_find?_eq_some hFind)).symm

/-- The registers of the file stand in the order of its entries. -/
theorem names_of_registersOf {r : Registers} (hDistinct : (file.map Prod.fst).Nodup)
    (h : (registersOf file .empty).1 = .ok r) : r.names = file.map fun entry => .text entry.1 := by
  rw [Registers.names, entries_of_registersOf hDistinct h, List.map_map]
  rfl

/-- A section of a well-keyed document has distinct keys. -/
theorem nodup_section {name : String} (h : document.WellKeyed)
    (hSection : sectionOf document name = .table file) : (file.map Prod.fst).Nodup := by
  unfold sectionOf at hSection
  cases hFound : document.lookup name with
  | none =>
      rw [hFound] at hSection
      cases hSection
      exact List.nodup_nil
  | some value =>
      rw [hFound] at hSection
      cases hSection
      exact (Toml.Value.wellKeyed_table_iff.mp (h.lookup hFound)).distinct

/-- Settings that were loaded hold the registers of the section `registers`. -/
theorem registersOf_of_ofDocument (h : (ofDocument path document).1 = .ok settings) :
    ∃ file, sectionOf document "registers" = .table file ∧
      (registersOf file .empty).1 = .ok settings.registers := by
  simp only [ofDocument] at h
  split at h
  · cases h
  · rename_i optimize lastRegister file hChoices
    obtain ⟨calculator, -, hChoices⟩ := exists_ok_of_bind hChoices
    obtain ⟨_, -, hChoices⟩ := exists_ok_of_bind hChoices
    obtain ⟨_, -, hChoices⟩ := exists_ok_of_bind hChoices
    obtain ⟨file', hSection, hSame⟩ := exists_ok_of_bind hChoices
    cases hSame
    refine ⟨file, entriesOf_eq_ok_iff.mp hSection, ?_⟩
    split at h
    · cases h
    · rename_i r log hRegisters
      cases h
      rw [hRegisters]

/-- Settings that are loaded from a file have the registers of its section. -/
theorem registersOf_of_load (h : (load path (.file text)).1 = .ok settings) :
    ∃ document file, Toml.read (Text.unifyLineEnds text.toList) = .ok document ∧
      sectionOf document "registers" = .table file ∧ (file.map Prod.fst).Nodup ∧
      (registersOf file .empty).1 = .ok settings.registers := by
  simp only [load] at h
  split at h
  · rename_i document hRead
    obtain ⟨file, hSection, hRegisters⟩ := registersOf_of_ofDocument h
    exact ⟨document, file, hRead, hSection,
      nodup_section (Toml.wellKeyed_of_read hRead) hSection, hRegisters⟩
  · cases h
  · cases h
  · cases h

end Settings

/-- A machine with an empty stack and the registers that are asked for, no others. -/
structure Seeded (file : Toml.Table) (items : List String) (m : Machine) : Prop where
  stack : m.stack = []
  values : ∀ name, m.store.get? (.text name) = requested? file items name
  names : m.store.names = requestedNames file items

namespace Seeded
variable {file : Toml.Table} {items : List String}

/-- Only texts name registers of a seeded machine. -/
theorem get?_eq_none {m : Machine} (h : Seeded file items m) {name : Name}
    (hName : ∀ s, name ≠ .text s) : m.store.get? name = none := by
  rw [Registers.get?_eq_none_iff, Registers.keys, h.names, requestedNames]
  intro hMem
  obtain ⟨other, hOther, hKey⟩ := List.mem_map.mp hMem
  obtain ⟨s, rfl⟩ : ∃ s, other = .text s := by
    rcases List.mem_append.mp hOther with hFile | hItem
    · obtain ⟨entry, -, rfl⟩ := List.mem_map.mp hFile
      exact ⟨entry.1, rfl⟩
    · have hItem := List.mem_eraseDups.mp (List.mem_filter.mp hItem).1
      obtain ⟨item, -, rfl⟩ := List.mem_map.mp hItem
      exact ⟨itemName item, rfl⟩
  exact hName s (Payload.key_eq_text_iff.mp hKey.symm)

/-- What is asked for leaves no choice. -/
theorem unique {m m' : Machine} (h : Seeded file items m) (h' : Seeded file items m') : m = m' := by
  have hStore : m.store = m'.store := by
    apply Registers.ext_of_names (h.names.trans h'.names.symm)
    intro name
    cases name with
    | text s => rw [h.values, h'.values]
    | _ => rw [h.get?_eq_none (by simp), h'.get?_eq_none (by simp)]
  rcases m with ⟨stack, r⟩
  rcases m' with ⟨stack', r'⟩
  cases h.stack.trans h'.stack.symm
  cases hStore
  rfl

/-- The machine made of the registers of the file and of the items is seeded with both. -/
theorem of_loaded {r : Registers} (hDistinct : (file.map Prod.fst).Nodup)
    (hFile : (Settings.registersOf file .empty).1 = .ok r)
    (hItems : ∀ item ∈ items, ¬ Flawed item) :
    Seeded file items (.fresh ((itemRegisters items).mergeInto r)) where
  stack := rfl
  values name := by
    have hUnion := Registers.isUnion_mergeInto (itemRegisters items) r
    refine (hUnion.values _).trans ?_
    rw [get?_itemRegisters hItems, Settings.get?_of_registersOf hDistinct hFile, requested?]
    cases hFind : items.reverse.find? (itemName · = name) with
    | none => rfl
    | some item =>
        have hMem := List.mem_reverse.mp (List.mem_of_find?_eq_some hFind)
        have hText := readChars?_of_not_flawed (hItems item hMem)
        simp only [Option.bind_some, hText, Option.some_or]
  names := by
    have hUnion := Registers.isUnion_mergeInto (itemRegisters items) r
    have hKeys : r.keys = file.map fun entry => .text entry.1 := by
      rw [Registers.keys, Settings.names_of_registersOf hDistinct hFile, List.map_map]
      rfl
    rw [Context.fresh, hUnion.names, names_itemRegisters,
      Settings.names_of_registersOf hDistinct hFile, hKeys, requestedNames]
    refine congrArg (_ ++ ·) (List.filter_congr ?_)
    intro name hName
    obtain ⟨item, -, rfl⟩ := List.mem_map.mp (List.mem_eraseDups.mp hName)
    rw [Payload.key_text]

end Seeded

/-- What is reported for an expression that is evaluated in a machine: the value of the expression
that it is read as, the fault of that expression, or why it cannot be read. -/
inductive Command.Reports (m : Machine) (expression : String) : Outcome → Prop where
  | value (t : Expression) (x : Float) (r : Registers)
      (accepts : Program.ofSource expression = .ok ⟨t.postorder⟩)
      (reads : Derives 0 (scan expression).lexemes t) (result : t.result m.store = (.ok x, r)) :
      Reports m expression (.finished 0 (Number.brief x ++ "\n") "")
  | fault (t : Expression) (f : Fault) (r : Registers)
      (accepts : Program.ofSource expression = .ok ⟨t.postorder⟩)
      (reads : Derives 0 (scan expression).lexemes t) (result : t.result m.store = (.error f, r)) :
      Reports m expression (.finished 1 "" (errorLine f.message))
  | refused (e : CompileError) (refuses : Program.ofSource expression = .error e) :
      Reports m expression (.finished 1 "" (errorLine e.report.text))

/-- `eval` reports what evaluating the expression on its machine yields. -/
theorem Command.run_eval {settings : Settings} {items : List String} {given : Registers}
    (h : readAssignments items = .ok given) (expression : String) (choice : Option Bool)
    (config : Option String) (distribution : Version.Distribution) (input : String) :
    Reports (evalMachine settings given) expression
      ((Command.eval expression items choice config).run distribution (.ok settings) input) := by
  simp only [run, runEval, h]
  generalize evalMachine settings given = m
  cases hSource : Program.ofSource expression with
  | error e =>
      simp only [evaluate, prepare, hSource]
      exact .refused e hSource
  | ok p =>
      obtain ⟨t, hDerives, rfl⟩ := Program.exists_derives_of_ofSource hSource
      have hFirst := evaluate_fst_of_ofSource hSource (choice.getD settings.optimize) m
      rcases hEvaluate : evaluate expression (choice.getD settings.optimize) m with ⟨outcome, m'⟩
      rcases hResult : t.result m.store with ⟨f | x, r⟩ <;> rw [hEvaluate, hResult] at hFirst
      · obtain rfl : outcome = .error (.fault f) := hFirst
        exact .fault t f r hSource hDerives hResult
      · obtain rfl : outcome = .ok x := hFirst
        exact .value t x r hSource hDerives hResult

/-- The report leaves no choice where the expression has a value. -/
theorem Command.Reports.eq_value {m : Machine} {expression : String} {outcome : Outcome}
    {t : Expression} {x : Float} (h : Reports m expression outcome)
    (hAccepts : Program.ofSource expression = .ok ⟨t.postorder⟩)
    (hReads : Derives 0 (scan expression).lexemes t) (hValue : (t.result m.store).1 = .ok x) :
    outcome = .finished 0 (Number.brief x ++ "\n") "" := by
  cases h with
  | value t' x' r' _ reads result =>
      obtain rfl := reads.unique hReads
      rw [result] at hValue
      cases hValue
      rfl
  | fault t' f r' _ reads result =>
      obtain rfl := reads.unique hReads
      rw [result] at hValue
      cases hValue
  | refused e refuses =>
      rw [hAccepts] at refuses
      cases refuses

/-- `eval` with a flawed item is a mistake in the usage, and nothing is evaluated. -/
theorem Command.run_eval_of_error {items : List String} {e : AssignmentError}
    (h : readAssignments items = .error e) (settings : Settings) (expression : String)
    (choice : Option Bool) (config : Option String) (distribution : Version.Distribution)
    (input : String) :
    (Command.eval expression items choice config).run distribution (.ok settings) input =
      .usage := by
  simp only [run, runEval, h]

/-- The command line evaluates in exactly the registers that the user asks for. If the settings come
from a file and the items can be used, the machine of the command has these registers and no other
machine has, and what is reported is what the expression comes to in it. No key of the section
occurs twice, so the file asks for one value of a name. Items are refused if and only if there is
something wrong with one of them, the complaint is about the first such item, and nothing is
evaluated then. -/
theorem eval_runs_in_requested_registers :
    (∀ (path text : String) (settings : Settings) (items : List String) (given : Registers),
      (Settings.load path (.file text)).1 = .ok settings → readAssignments items = .ok given →
      ∃ document file, Toml.read (Text.unifyLineEnds text.toList) = .ok document ∧
        Settings.sectionOf document "registers" = .table file ∧ (file.map Prod.fst).Nodup ∧
        Seeded file items (Command.evalMachine settings given) ∧
        (∀ m, Seeded file items m → m = Command.evalMachine settings given) ∧
        ∀ (expression : String) (choice : Option Bool) (config : Option String)
          (distribution : Version.Distribution) (input : String),
          Command.Reports (Command.evalMachine settings given) expression
            ((Command.eval expression items choice config).run distribution
              (Settings.load path (.file text)).1 input)) ∧
    ∀ items : List String,
      ((∃ e, readAssignments items = .error e) ↔ ∃ item ∈ items, Flawed item) ∧
      ∀ e, readAssignments items = .error e →
        (∃ before item after, items = before ++ item :: after ∧
          (∀ earlier ∈ before, ¬ Flawed earlier) ∧ Flawed item ∧ e.message = complaint item) ∧
        ∀ (settings : Settings) (expression : String) (choice : Option Bool)
          (config : Option String) (distribution : Version.Distribution) (input : String),
          (Command.eval expression items choice config).run distribution (.ok settings) input =
            .usage := by
  refine ⟨?_, ?_⟩
  · intro path text settings items given hLoad hGiven
    obtain ⟨document, file, hRead, hSection, hDistinct, hFile⟩ := Settings.registersOf_of_load hLoad
    have hItems := not_flawed_of_readAssignments hGiven
    have hMachine : Command.evalMachine settings given =
        .fresh ((itemRegisters items).mergeInto settings.registers) := by
      cases hGiven.symm.trans (readAssignments_of_sound hItems)
      simp only [Command.evalMachine, Settings.machine, Registers.mergeInto_empty, Context.fresh]
    have hSeeded : Seeded file items (Command.evalMachine settings given) :=
      hMachine ▸ Seeded.of_loaded hDistinct hFile hItems
    refine ⟨document, file, hRead, hSection, hDistinct, hSeeded,
      fun m hSeeded' => hSeeded'.unique hSeeded, ?_⟩
    intro expression choice config distribution input
    rw [hLoad]
    exact Command.run_eval hGiven expression choice config distribution input
  · intro items
    refine ⟨⟨fun ⟨e, hError⟩ => exists_flawed_of_readAssignments hError, ?_⟩, ?_⟩
    · intro hFlawed
      obtain ⟨_, _, _, e, -, -, -, hError, -⟩ := exists_first_flawed hFlawed
      exact ⟨e, hError⟩
    · intro e hError
      refine ⟨?_, Command.run_eval_of_error hError⟩
      obtain ⟨before, item, after, e', hSplit, hSound, hFlawed, hFirst, hMessage⟩ :=
        exists_first_flawed (exists_flawed_of_readAssignments hError)
      rw [hError] at hFirst
      cases hFirst
      exact ⟨before, item, after, hSplit, hSound, hFlawed, hMessage⟩

/-- An item overrides a register of the file in its place, and a later item overrides an earlier
one. Of three items that cannot be used the first is complained about. -/
theorem eval_runs_in_overridden_registers :
    let text := "[registers]\nb = 2\na = 1.5\n"
    let items := ["c=4", " a =3", "c=5"]
    (∃ m : Machine, m.store.names = [.text "b", .text "a", .text "c"] ∧
      m.store.get? (.text "b") = some 2 ∧ m.store.get? (.text "a") = some 3 ∧
      m.store.get? (.text "c") = some 5 ∧
      ∀ choice config distribution input,
        Command.Reports m "a + b * c" ((Command.eval "a + b * c" items choice config).run
          distribution (Settings.load "opcalc.toml" (.file text)).1 input) ∧
        (Command.eval "a + b * c" items choice config).run distribution
          (Settings.load "opcalc.toml" (.file text)).1 input = .finished 0 "13\n" "") ∧
    ∃ e, readAssignments ["a=1", "b=2=3", " =1", "c"] = .error e ∧
      e.message = "Not a number: '2=3'" ∧
      ∀ settings expression choice config distribution input,
        (Command.eval expression ["a=1", "b=2=3", " =1", "c"] choice config).run distribution
          (.ok settings) input = .usage := by
  intro text items
  obtain ⟨hAccepts, hRefuses⟩ := eval_runs_in_requested_registers
  constructor
  · let settings : Settings := { registers := .ofList [(.text "b", 2), (.text "a", 1.5)] }
    let given : Registers := .ofList [(.text "c", 5), (.text "a", 3)]
    let t : Expression := .binary (.arithmetic .add) (.identifier "a")
      (.binary (.arithmetic .multiply) (.identifier "b") (.identifier "c"))
    have hLoad : (Settings.load "opcalc.toml" (.file text)).1 = .ok settings :=
      eq_ok_of_toOption (by decide +kernel)
    have hGiven : readAssignments items = .ok given := eq_ok_of_toOption (by decide +kernel)
    obtain ⟨-, -, -, -, -, -, -, hRun⟩ :=
      hAccepts "opcalc.toml" text settings items given hLoad hGiven
    have hReads : Derives 0 (scan "a + b * c").lexemes t := by decide +kernel
    have hSource := Program.ofSource_of_derives (by decide +kernel) hReads (by decide)
    refine ⟨Command.evalMachine settings given, by decide +kernel, by decide +kernel,
      by decide +kernel, by decide +kernel, ?_⟩
    intro choice config distribution input
    have hReports := hRun "a + b * c" choice config distribution input
    have hValue : (t.result (Command.evalMachine settings given).store).1 = .ok 13 :=
      eq_ok_of_toOption (by decide +kernel)
    have hText : Number.brief 13 ++ "\n" = "13\n" := by decide +kernel
    exact ⟨hReports, hText ▸ hReports.eq_value hSource hReads hValue⟩
  · have hSound : ∀ earlier ∈ ["a=1"], ¬ Flawed earlier := by decide +kernel
    have hFlawed : Flawed "b=2=3" := by decide +kernel
    have hComplaint : complaint "b=2=3" = "Not a number: '2=3'" := by decide +kernel
    obtain ⟨e, hError, hMessage⟩ := readAssignments_of_flawed hSound hFlawed [" =1", "c"]
    exact ⟨e, hError, hMessage.trans hComplaint, ((hRefuses _).2 e hError).2⟩

end StackCalc
