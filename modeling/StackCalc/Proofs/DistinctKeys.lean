import StackCalc.Toml.Document
import StackCalc.Proofs.Basics

/-! The tables of a document. However a table is built up, by headers, dotted keys, lists of tables
or inline, none of its keys occurs twice. So a key has one value, and the keys of a table stand in
one order. -/
namespace StackCalc.Toml

/-- No table in the value has a key twice. -/
inductive Value.WellKeyed : Value → Prop where
  | plain {value : Value} (simple : value.isCompound = false) : WellKeyed value
  | array {items : List Value} (keyed : ∀ item ∈ items, item.WellKeyed) : WellKeyed (.array items)
  | table {entries : Table} (distinct : (entries.map Prod.fst).Nodup)
      (keyed : ∀ entry ∈ entries, entry.2.WellKeyed) : WellKeyed (.table entries)

/-- Neither the table nor a table in it has a key twice. -/
structure Table.WellKeyed (t : Table) : Prop where
  distinct : (t.map Prod.fst).Nodup
  keyed : ∀ entry ∈ t, entry.2.WellKeyed

/-- An array has distinct keys throughout when its items do. -/
theorem Value.wellKeyed_array_iff {items : List Value} :
    (Value.array items).WellKeyed ↔ ∀ item ∈ items, item.WellKeyed := by
  constructor
  · intro h
    cases h with
    | plain simple => cases simple
    | array keyed => exact keyed
  · exact .array

theorem Value.wellKeyed_table_iff {t : Table} : (Value.table t).WellKeyed ↔ t.WellKeyed := by
  constructor
  · intro h
    cases h with
    | plain simple => cases simple
    | table distinct keyed => exact ⟨distinct, keyed⟩
  · intro h
    exact .table h.distinct h.keyed

namespace Table
variable {t t' : Table} {key : String} {value : Value}

theorem wellKeyed_nil : WellKeyed [] := ⟨List.nodup_nil, by simp⟩

/-- Putting a value brings in one entry and no other. -/
theorem mem_put {entry : String × Value} (h : entry ∈ t.put key value) :
    entry = (key, value) ∨ entry ∈ t := by
  induction t with
  | nil => exact .inl (List.mem_singleton.mp h)
  | cons first rest ih =>
      by_cases hKey : first.1 = key
      · simp only [put, if_pos hKey, List.mem_cons] at h
        exact h.imp_right (List.mem_cons_of_mem _)
      · simp only [put, if_neg hKey, List.mem_cons] at h
        rcases h with rfl | hRest
        · exact .inr List.mem_cons_self
        · exact (ih hRest).imp_right (List.mem_cons_of_mem _)

/-- Putting replaces the value of a key that is there, so keys stay distinct. -/
theorem nodup_put (h : (t.map Prod.fst).Nodup) : ((t.put key value).map Prod.fst).Nodup := by
  induction t with
  | nil => simp [put]
  | cons first rest ih =>
      obtain ⟨hNew, hRest⟩ := List.nodup_cons.mp h
      by_cases hKey : first.1 = key
      · rw [put, if_pos hKey, List.map_cons, ← hKey]
        exact List.nodup_cons.mpr ⟨hNew, hRest⟩
      · rw [put, if_neg hKey, List.map_cons]
        refine List.nodup_cons.mpr ⟨?_, ih hRest⟩
        intro hMem
        obtain ⟨entry, hEntry, hSame⟩ := List.mem_map.mp hMem
        rcases mem_put hEntry with rfl | hOld
        · exact hKey hSame.symm
        · exact hNew (List.mem_map.mpr ⟨entry, hOld, hSame⟩)

namespace WellKeyed

/-- Values found in a well-keyed table are well keyed. -/
theorem lookup (h : t.WellKeyed) (hFound : List.lookup key t = some value) : value.WellKeyed := by
  obtain ⟨before, after, rfl, -⟩ := List.lookup_eq_some_iff.mp hFound
  exact h.keyed (key, value) (by simp)

/-- Putting a well-keyed value preserves well-keyedness. -/
theorem put (h : t.WellKeyed) (hValue : value.WellKeyed) : (t.put key value).WellKeyed where
  distinct := nodup_put h.distinct
  keyed entry hEntry := by
    rcases mem_put hEntry with rfl | hOld
    · exact hValue
    · exact h.keyed entry hOld

/-- Adding at a dotted key preserves well-keyedness. The induction is on the key: each part but the
last opens the table it names. -/
theorem add? (h : t.WellKeyed) (hValue : value.WellKeyed) (hAdd : t.add? key value = some t') :
    t'.WellKeyed := by
  simp only [Table.add?] at hAdd
  split at hAdd
  · cases hAdd
  · rename_i hUnused
    cases hAdd
    have hNone := Option.not_isSome_iff_eq_none.mp hUnused
    have hNew : ∀ entry ∈ t, entry.1 ≠ key := by
      intro entry hEntry hSame
      have hOther := List.lookup_eq_none_iff.mp hNone entry hEntry
      simp [hSame] at hOther
    constructor
    · rw [List.map_append, List.nodup_append]
      refine ⟨h.distinct, by simp, ?_⟩
      intro k hk k' hk' hSame
      obtain ⟨entry, hEntry, rfl⟩ := List.mem_map.mp hk
      exact hNew entry hEntry (hSame.trans (List.mem_singleton.mp hk'))
    · intro entry hEntry
      rcases List.mem_append.mp hEntry with hOld | hLast
      · exact h.keyed entry hOld
      · obtain rfl := List.mem_singleton.mp hLast
        exact hValue

/-- Appending an item to an array of tables preserves well-keyedness, by induction on the path. -/
theorem append? (h : t.WellKeyed) (hAppend : Table.append? key t = some t') : t'.WellKeyed := by
  have hEmpty : (Value.table []).WellKeyed := Value.wellKeyed_table_iff.mpr wellKeyed_nil
  simp only [Table.append?] at hAppend
  split at hAppend
  · cases hAppend
    exact h.put (.array (by simpa using hEmpty))
  · rename_i items hFound
    cases hAppend
    have hItems := Value.wellKeyed_array_iff.mp (h.lookup hFound)
    refine h.put (.array ?_)
    intro item hItem
    rcases List.mem_append.mp hItem with hOld | hLast
    · exact hItems item hOld
    · obtain rfl := List.mem_singleton.mp hLast
      exact hEmpty
  · cases hAppend

/-- A change somewhere in a table keeps keys apart if it keeps them apart where it is made. -/
theorem alter? {through : Bool} {path : Path} {change : Table → Option Table}
    (hChange : ∀ nest nest' : Table, nest.WellKeyed → change nest = some nest' → nest'.WellKeyed)
    (h : t.WellKeyed) (hAlter : t.alter? through path change = some t') : t'.WellKeyed := by
  induction path generalizing t t' with
  | nil => exact hChange t t' h hAlter
  | cons key path ih =>
      simp only [Table.alter?] at hAlter
      split at hAlter
      · obtain ⟨sub, hSub, rfl⟩ := Option.map_eq_some_iff.mp hAlter
        exact h.put (Value.wellKeyed_table_iff.mpr (ih wellKeyed_nil hSub))
      · rename_i nest hFound
        obtain ⟨sub, hSub, rfl⟩ := Option.map_eq_some_iff.mp hAlter
        have hNest := Value.wellKeyed_table_iff.mp (h.lookup hFound)
        exact h.put (Value.wellKeyed_table_iff.mpr (ih hNest hSub))
      · rename_i items hFound
        have hItems := Value.wellKeyed_array_iff.mp (h.lookup hFound)
        split at hAlter
        · rename_i nest hLast
          obtain ⟨sub, hSub, rfl⟩ := Option.map_eq_some_iff.mp hAlter
          have hNest := Value.wellKeyed_table_iff.mp (hItems _ (List.mem_of_getLast? hLast))
          refine h.put (.array ?_)
          intro item hItem
          rcases List.mem_append.mp hItem with hOld | hNew
          · exact hItems item (List.dropLast_subset _ hOld)
          · obtain rfl := List.mem_singleton.mp hNew
            exact Value.wellKeyed_table_iff.mpr (ih hNest hSub)
        · cases hAlter
      · cases hAlter

end WellKeyed

end Table

theorem required_eq_ok_iff {α : Type} {found : Option α} {a : α} :
    required found = .ok a ↔ found = some a := by
  cases found <;> simp [required]

section
variable {cs after : List Char} {value : Value}

/-- A decimal numeral is read as an integer or a real. -/
theorem isCompound_of_takeDecimal (h : takeDecimal cs = .ok (value, after)) :
    value.isCompound = false := by
  simp only [takeDecimal] at h
  split at h
  · cases h
  · split at h
    · split at h
      · cases h
      · cases h
        rfl
    · obtain ⟨x, -, hReal⟩ := Option.map_eq_some_iff.mp (required_eq_ok_iff.mp h)
      cases hReal
      rfl

theorem isCompound_of_takeDateTime? (h : takeDateTime? cs = some (value, after)) :
    value.isCompound = false := by
  simp only [takeDateTime?] at h
  split at h
  · split at h
    · split at h <;> cases h <;> rfl
    · cases h
  · obtain ⟨t, -, hTime⟩ := Option.map_eq_some_iff.mp h
    cases hTime
    rfl

theorem isCompound_of_takeSimple? (h : takeSimple? cs = some (value, after)) :
    value.isCompound = false := by
  simp only [takeSimple?, Option.orElse_eq_orElse, Option.orElse_eq_or, Option.or_eq_some_iff] at h
  rcases h with hText | ⟨-, hBoolean | ⟨-, hDate | ⟨-, hBased | ⟨-, hNamed⟩⟩⟩⟩
  · obtain ⟨s, -, hText⟩ := Option.map_eq_some_iff.mp hText
    cases hText
    rfl
  · unfold takeBoolean? at hBoolean
    split at hBoolean <;> cases hBoolean <;> rfl
  · exact isCompound_of_takeDateTime? hDate
  · obtain ⟨n, -, hBased⟩ := Option.map_eq_some_iff.mp hBased
    cases hBased
    rfl
  · simp only [takeNamed?] at hNamed
    split at hNamed <;> cases hNamed <;> rfl

/-- No scalar is a table or an array, so scalars are well keyed for free. -/
theorem isCompound_of_takeScalar (h : takeScalar cs = .ok (value, after)) :
    value.isCompound = false := by
  simp only [takeScalar] at h
  split at h
  · cases h
    rename_i hSimple
    exact isCompound_of_takeSimple? hSimple
  · exact isCompound_of_takeDecimal h

end

/-- An inline table refuses a second value for a key, and is otherwise a table. -/
theorem InlineTable.wellKeyed_add? {t t' : InlineTable} {key : Path} {value : Value}
    (h : t.entries.WellKeyed) (hValue : value.WellKeyed) (hAdd : t.add? key value = some t') :
    t'.entries.WellKeyed := by
  simp only [add?] at hAdd
  split at hAdd
  · cases hAdd
  · obtain ⟨entries, hEntries, rfl⟩ := Option.map_eq_some_iff.mp hAdd
    exact h.alter? (fun nest nest' hNest hChange => hNest.add? hValue hChange) hEntries

/-- What can be read within some fuel has no key twice. -/
structure ReadsWellKeyed (fuel : Nat) : Prop where
  value : ∀ room cs value after, takeValueWithin fuel room cs = .ok (value, after) →
    value.WellKeyed
  items : ∀ room cs items after, takeItems fuel room cs = .ok (items, after) →
    ∀ item ∈ items, item.WellKeyed
  entries : ∀ room (t : InlineTable) cs (entries : Table) after, t.entries.WellKeyed →
    takeEntries fuel room t cs = .ok (entries, after) → entries.WellKeyed

namespace ReadsWellKeyed
variable {fuel room : Nat} {cs after : List Char}

/-- One step of reading a value, from what the recursive calls read. -/
theorem value_succ (h : ReadsWellKeyed fuel) {value : Value}
    (hRead : takeValueWithin (fuel + 1) room cs = .ok (value, after)) : value.WellKeyed := by
  simp only [takeValueWithin] at hRead
  split at hRead
  · split at hRead
    · cases hRead
    · obtain ⟨start, -, hRead⟩ := exists_ok_of_bind hRead
      obtain ⟨⟨items, rest⟩, hItems, hArray⟩ := exists_ok_of_bind hRead
      cases hArray
      exact .array (h.items _ _ _ _ hItems)
  · split at hRead
    · cases hRead
    · split at hRead
      · cases hRead
        exact Value.wellKeyed_table_iff.mpr Table.wellKeyed_nil
      · obtain ⟨⟨entries, rest⟩, hEntries, hTable⟩ := exists_ok_of_bind hRead
        cases hTable
        exact Value.wellKeyed_table_iff.mpr
          (h.entries _ _ _ _ _ Table.wellKeyed_nil hEntries)
  · exact .plain (isCompound_of_takeScalar hRead)

/-- One step of reading the items of an array. -/
theorem items_succ (h : ReadsWellKeyed fuel) {items : List Value}
    (hRead : takeItems (fuel + 1) room cs = .ok (items, after)) :
    ∀ item ∈ items, item.WellKeyed := by
  simp only [takeItems] at hRead
  split at hRead
  · cases hRead
    simp
  · obtain ⟨⟨value, afterValue⟩, hFirst, hRead⟩ := exists_ok_of_bind hRead
    have hValue := h.value _ _ _ _ hFirst
    dsimp only at hRead
    split at hRead
    · cases hRead
      exact List.forall_mem_singleton.mpr hValue
    · obtain ⟨start, -, hRead⟩ := exists_ok_of_bind hRead
      obtain ⟨⟨others, rest⟩, hOthers, hItems⟩ := exists_ok_of_bind hRead
      cases hItems
      exact List.forall_mem_cons.mpr ⟨hValue, h.items _ _ _ _ hOthers⟩
    · cases hRead

/-- One step of reading the entries of an inline table. -/
theorem entries_succ (h : ReadsWellKeyed fuel) {t : InlineTable} {entries : Table}
    (ht : t.entries.WellKeyed)
    (hRead : takeEntries (fuel + 1) room t cs = .ok (entries, after)) : entries.WellKeyed := by
  simp only [takeEntries] at hRead
  split at hRead
  · obtain ⟨⟨value, afterValue⟩, hFirst, hRead⟩ := exists_ok_of_bind hRead
    have hValue := h.value _ _ _ _ hFirst
    dsimp only at hRead
    split at hRead
    · rename_i hAdd _
      cases hRead
      exact InlineTable.wellKeyed_add? ht hValue hAdd
    · rename_i hAdd _
      exact h.entries _ _ _ _ _ (InlineTable.wellKeyed_add? ht hValue hAdd) hRead
    · cases hRead
  · cases hRead

end ReadsWellKeyed

/-- Whatever is read has distinct keys, by induction on the fuel of the three readers. -/
theorem readsWellKeyed (fuel : Nat) : ReadsWellKeyed fuel := by
  induction fuel with
  | zero =>
      constructor
      · intro room cs value after hRead
        cases hRead
      · intro room cs items after hRead
        cases hRead
      · intro room t cs entries after _ hRead
        cases hRead
  | succ fuel ih =>
      exact ⟨fun _ _ _ _ => ih.value_succ, fun _ _ _ _ => ih.items_succ,
        fun _ _ _ _ _ => ih.entries_succ⟩

/-- The value of an entry of a document is well keyed. -/
theorem wellKeyed_of_takeEntry {cs after : List Char} {key : Path} {value : Value}
    (h : takeEntry cs = .ok (key, value, after)) : value.WellKeyed := by
  simp only [takeEntry] at h
  split at h
  · rename_i rest _
    cases hValue : takeValue (rest.dropWhile isBlank) with
    | error problem =>
        rw [hValue] at h
        cases h
    | ok found =>
        rw [hValue] at h
        cases h
        exact (readsWellKeyed _).value _ _ _ _ hValue
  · cases h

namespace Document
variable {d d' : Document}

/-- An entry read into a document keeps its keys distinct. -/
theorem wellKeyed_add? {key : Path} {value : Value} (h : d.root.WellKeyed)
    (hValue : value.WellKeyed) (hAdd : d.add? key value = some d') : d'.root.WellKeyed := by
  simp only [add?] at hAdd
  split at hAdd
  · cases hAdd
  · obtain ⟨root, hRoot, rfl⟩ := Option.map_eq_some_iff.mp hAdd
    exact h.alter? (fun nest nest' hNest hChange => hNest.add? hValue hChange) hRoot

/-- A header `[path]` keeps the keys of a document distinct. -/
theorem wellKeyed_openTable? {path : Path} (h : d.root.WellKeyed)
    (hOpen : d.openTable? path = some d') : d'.root.WellKeyed := by
  simp only [openTable?] at hOpen
  split at hOpen
  · cases hOpen
  · obtain ⟨root, hRoot, rfl⟩ := Option.map_eq_some_iff.mp hOpen
    refine Table.WellKeyed.alter? ?_ h hRoot
    intro nest nest' hNest hSame
    cases hSame
    exact hNest

/-- A header `[[path]]` keeps the keys of a document distinct. -/
theorem wellKeyed_openItem? {path : Path} (h : d.root.WellKeyed)
    (hOpen : d.openItem? path = some d') : d'.root.WellKeyed := by
  simp only [openItem?] at hOpen
  split at hOpen
  · cases hOpen
  · obtain ⟨root, hRoot, rfl⟩ := Option.map_eq_some_iff.mp hOpen
    exact h.alter? (fun nest nest' hNest hChange => hNest.append? hChange) hRoot

/-- A statement of any form keeps keys apart. -/
theorem wellKeyed_statement {cs after : List Char} (h : d.root.WellKeyed)
    (hStatement : d.statement cs = .ok (d', after)) : d'.root.WellKeyed := by
  simp only [statement] at hStatement
  split at hStatement
  · split at hStatement
    · obtain ⟨opened, hOpen, hSame⟩ :=
        Option.map_eq_some_iff.mp (required_eq_ok_iff.mp hStatement)
      cases hSame
      exact wellKeyed_openItem? h hOpen
    · cases hStatement
  · split at hStatement
    · obtain ⟨opened, hOpen, hSame⟩ :=
        Option.map_eq_some_iff.mp (required_eq_ok_iff.mp hStatement)
      cases hSame
      exact wellKeyed_openTable? h hOpen
    · cases hStatement
  · cases hStatement
    exact h
  · obtain ⟨⟨key, value, rest⟩, hEntry, hStatement⟩ := exists_ok_of_bind hStatement
    obtain ⟨added, hAdd, hSame⟩ :=
      Option.map_eq_some_iff.mp (required_eq_ok_iff.mp hStatement)
    cases hSame
    exact wellKeyed_add? h (wellKeyed_of_takeEntry hEntry) hAdd

/-- Reading line after line keeps the keys distinct, whatever the lines are. -/
theorem wellKeyed_readWithin {fuel : Nat} {cs : List Char} (h : d.root.WellKeyed)
    (hRead : d.readWithin fuel cs = .ok d') : d'.root.WellKeyed := by
  induction fuel generalizing d cs with
  | zero => cases hRead
  | succ fuel ih =>
      simp only [readWithin] at hRead
      split at hRead
      · cases hRead
        exact h
      · exact ih h hRead
      · obtain ⟨⟨d₁, rest⟩, hStatement, hRead⟩ := exists_ok_of_bind hRead
        have hNext := wellKeyed_statement h hStatement
        dsimp only at hRead
        split at hRead
        · cases hRead
          exact hNext
        · exact ih hNext hRead
        · cases hRead

end Document

/-- No table of a document has a key twice. -/
theorem wellKeyed_of_read {text : List Char} {document : Table} (h : read text = .ok document) :
    document.WellKeyed := by
  cases hRead : Document.empty.readWithin (text.length + 1) text with
  | error problem =>
      rw [read, hRead] at h
      cases h
  | ok d =>
      rw [read, hRead] at h
      cases h
      exact Document.wellKeyed_readWithin Table.wellKeyed_nil hRead

end StackCalc.Toml
