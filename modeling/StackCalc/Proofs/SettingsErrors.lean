import StackCalc.CommandLine.Command
import StackCalc.Proofs.Basics
import StackCalc.Proofs.WholeNumbers

/-! Which faults of a settings file are reported. Values of the wrong kind are, and the report shows
them. The checks have gaps: a section that is no table, a whole number beyond the range of doubles,
and a value that is refused but cannot be shown break a command off. These are all. -/
namespace StackCalc

/-- The error ends a command with a report. -/
def SettingsError.Reported (e : SettingsError) : Prop :=
  ∃ errors, Command.settingsFailure e = .finished 1 "" errors

namespace Settings

/-- Folding is chosen by a truth value, if at all. -/
def OptimizeUsable (entries : Toml.Table) : Prop :=
  ∀ value, entries.lookup "optimize" = some value → ∃ b, value = .boolean b

/-- The register for results is chosen by a name, if at all. -/
def LastRegisterUsable (entries : Toml.Table) : Prop :=
  ∀ value, entries.lookup "last_register" = some value → ∃ name, value = .text name ∧ name ≠ ""

/-- A register is set to a number in the range of doubles. -/
def RegisterUsable (value : Toml.Value) : Prop :=
  (∃ x, value = .real x) ∨ ∃ n : Int, value = .integer n ∧ n.natAbs < Number.rangeEnd

/-- The options are a table of usable values. -/
def OptionsUsable (document : Toml.Table) : Prop :=
  ∃ entries, sectionOf document "calculator" = .table entries ∧ OptimizeUsable entries ∧
    LastRegisterUsable entries

/-- The gaps in the checks of a document, each with the error that it leads to. -/
inductive Unguarded (document : Toml.Table) : SettingsError → Prop where
  | calculator (plain : ∀ entries, sectionOf document "calculator" ≠ .table entries) :
      Unguarded document (.noMember (sectionOf document "calculator") "get")
  | optimize (entries : Toml.Table) (value : Toml.Value) (obstacle : Toml.Obstacle)
      (calculator : sectionOf document "calculator" = .table entries)
      (found : entries.lookup "optimize" = some value) (refused : ∀ b, value ≠ .boolean b)
      (hidden : value.obstacle? Toml.shownRoom = some obstacle) :
      Unguarded document (.notShown obstacle)
  | lastRegister (entries : Toml.Table) (value : Toml.Value) (obstacle : Toml.Obstacle)
      (calculator : sectionOf document "calculator" = .table entries)
      (usable : OptimizeUsable entries) (found : entries.lookup "last_register" = some value)
      (refused : ∀ name, value = .text name → name = "")
      (hidden : value.obstacle? Toml.shownRoom = some obstacle) :
      Unguarded document (.notShown obstacle)
  | registers (options : OptionsUsable document)
      (plain : ∀ entries, sectionOf document "registers" ≠ .table entries) :
      Unguarded document (.noMember (sectionOf document "registers") "items")
  | tooLarge (options : OptionsUsable document) (before after : Toml.Table) (name : String)
      (n : Int)
      (registers : sectionOf document "registers" = .table (before ++ (name, .integer n) :: after))
      (usable : ∀ entry ∈ before, RegisterUsable entry.2) (large : Number.rangeEnd ≤ n.natAbs) :
      Unguarded document .tooLarge
  | register (options : OptionsUsable document) (before after : Toml.Table) (name : String)
      (value : Toml.Value) (obstacle : Toml.Obstacle)
      (registers : sectionOf document "registers" = .table (before ++ (name, value) :: after))
      (usable : ∀ entry ∈ before, RegisterUsable entry.2)
      (refused : (∀ x, value ≠ .real x) ∧ ∀ n, value ≠ .integer n)
      (hidden : value.obstacle? Toml.shownRoom = some obstacle) :
      Unguarded document (.notShown obstacle)

/-- A value that cannot be shown hides the complaint about it. -/
theorem refusal_of_obstacle {value : Toml.Value} {obstacle : Toml.Obstacle}
    (h : value.obstacle? Toml.shownRoom = some obstacle) (e : SettingsError) :
    refusal value e = .notShown obstacle := by
  simp only [refusal, h]

/-- A refusal that would be reported is not, if the value cannot be shown. -/
theorem exists_obstacle_of_refusal {value : Toml.Value} {e : SettingsError} (hReported : e.Reported)
    (h : ¬ (refusal value e).Reported) :
    ∃ obstacle, value.obstacle? Toml.shownRoom = some obstacle ∧
      refusal value e = .notShown obstacle := by
  cases hObstacle : value.obstacle? Toml.shownRoom with
  | none =>
      simp only [refusal, hObstacle] at h
      exact absurd hReported h
  | some obstacle => exact ⟨obstacle, rfl, refusal_of_obstacle hObstacle e⟩

section
variable {value : Toml.Value} {entries : Toml.Table} {e : SettingsError}

/-- Only tables have entries. -/
theorem entriesOf_eq_ok_iff {member : String} :
    entriesOf value member = .ok entries ↔ value = .table entries := by
  cases value <;> simp [entriesOf]

/-- A value that is no table is refused for the member it lacks. -/
theorem entriesOf_eq_error_iff {member : String} :
    entriesOf value member = .error e ↔
      (∀ entries, value ≠ .table entries) ∧ e = .noMember value member := by
  cases value <;> simp [entriesOf, eq_comm]

/-- The switch is accepted exactly when it is absent or a boolean. -/
theorem optimizeOf_ok_iff : (∃ b, optimizeOf entries = .ok b) ↔ OptimizeUsable entries := by
  unfold optimizeOf OptimizeUsable
  generalize entries.lookup "optimize" = found
  cases found with
  | none => simp
  | some value => cases value <;> simp

/-- The only way in which the switch is refused, with the value as it was found. -/
theorem optimizeOf_eq_error_iff :
    optimizeOf entries = .error e ↔ ∃ value, entries.lookup "optimize" = some value ∧
      (∀ b, value ≠ .boolean b) ∧ e = refusal value (.badOptimize value) := by
  unfold optimizeOf
  generalize entries.lookup "optimize" = found
  cases found with
  | none => simp
  | some value => cases value <;> simp [eq_comm]

/-- The name of the last register is accepted exactly when it is absent or a text with a character
in it. -/
theorem lastRegisterOf_ok_iff :
    (∃ name, lastRegisterOf entries = .ok name) ↔ LastRegisterUsable entries := by
  unfold lastRegisterOf LastRegisterUsable
  generalize entries.lookup "last_register" = found
  rcases found with _ | value
  · simp
  · cases value with
    | text name => by_cases hName : name = "" <;> simp [hName]
    | _ => simp

/-- The only way in which the name of the last register is refused. -/
theorem lastRegisterOf_eq_error_iff :
    lastRegisterOf entries = .error e ↔ ∃ value, entries.lookup "last_register" = some value ∧
      (∀ name, value = .text name → name = "") ∧ e = refusal value (.badLastRegister value) := by
  have hEmpty : refusal (.text "") (.badLastRegister (.text "")) =
      .badLastRegister (.text "") := rfl
  unfold lastRegisterOf
  generalize entries.lookup "last_register" = found
  rcases found with _ | value
  · simp
  · cases value with
    | text name => by_cases hName : name = "" <;> simp [hName, hEmpty, eq_comm]
    | _ => simp [eq_comm]

/-- A register is accepted exactly when it is a real or an integer that a double can hold. -/
theorem registerOf_ok_iff {name : String} :
    (∃ x, registerOf name value = .ok x) ↔ RegisterUsable value := by
  unfold registerOf RegisterUsable
  cases value with
  | integer n =>
      have hRange := Number.ofInt?_eq_none_iff (n := n)
      cases hFloat : Number.ofInt? n with
      | none => simpa [hFloat] using hRange
      | some x => simpa [hFloat] using hRange
  | _ => simp

/-- The two ways in which a register is refused. An integer out of range is no `badRegister`. -/
theorem registerOf_eq_error_iff {name : String} :
    registerOf name value = .error e ↔
      (∃ n : Int, value = .integer n ∧ Number.rangeEnd ≤ n.natAbs ∧ e = .tooLarge) ∨
        ((∀ x, value ≠ .real x) ∧ ∀ n, value ≠ .integer n) ∧
          e = refusal value (.badRegister name value) := by
  unfold registerOf
  cases value with
  | integer n =>
      have hRange := Number.ofInt?_eq_none_iff (n := n)
      cases hFloat : Number.ofInt? n with
      | none =>
          have hLarge := hRange.mp hFloat
          simp only [hFloat]
          simp [hLarge, eq_comm]
      | some x =>
          have hSmall : ¬ Number.rangeEnd ≤ n.natAbs := by
            rw [← hRange, hFloat]
            simp
          simp [hFloat, hSmall]
  | _ => simp [eq_comm]

/-- The registers of a section fail at the first that cannot be used. -/
theorem registersOf_eq_error_iff {r : Registers} :
    (registersOf entries r).1 = .error e ↔ ∃ before name value after,
      entries = before ++ (name, value) :: after ∧ (∀ entry ∈ before, RegisterUsable entry.2) ∧
        registerOf name value = .error e := by
  induction entries generalizing r with
  | nil => simp [registersOf]
  | cons entry rest ih =>
      obtain ⟨name, value⟩ := entry
      cases hFirst : registerOf name value with
      | error e' =>
          simp only [registersOf, hFirst]
          constructor
          · intro hSame
            cases hSame
            exact ⟨[], name, value, rest, rfl, by simp, hFirst⟩
          · rintro ⟨before, name', value', after, hSplit, hUsable, hError⟩
            cases before with
            | nil =>
                cases hSplit
                rw [hFirst] at hError
                cases hError
                rfl
            | cons entry before =>
                cases hSplit
                obtain ⟨x, hOk⟩ := registerOf_ok_iff.mpr (hUsable _ List.mem_cons_self)
                rw [hFirst] at hOk
                cases hOk
      | ok x =>
          have hFirstUsable : RegisterUsable value := registerOf_ok_iff.mp ⟨x, hFirst⟩
          simp only [registersOf, hFirst, ih]
          constructor
          · rintro ⟨before, name', value', after, rfl, hUsable, hError⟩
            exact ⟨(name, value) :: before, name', value', after, rfl,
              List.forall_mem_cons.mpr ⟨hFirstUsable, hUsable⟩, hError⟩
          · rintro ⟨before, name', value', after, hSplit, hUsable, hError⟩
            cases before with
            | nil =>
                cases hSplit
                rw [hFirst] at hError
                cases hError
            | cons entry before =>
                cases hSplit
                exact ⟨before, name', value', after, rfl, (List.forall_mem_cons.mp hUsable).2,
                  hError⟩

/-- The sections of a document are looked at one after the other. -/
theorem ofDocument_eq_error_iff {path : String} {document : Toml.Table} :
    (ofDocument path document).1 = .error e ↔
      entriesOf (sectionOf document "calculator") "get" = .error e ∨
      ∃ calculator, entriesOf (sectionOf document "calculator") "get" = .ok calculator ∧
        (optimizeOf calculator = .error e ∨
        (∃ b, optimizeOf calculator = .ok b) ∧
          (lastRegisterOf calculator = .error e ∨
          (∃ name, lastRegisterOf calculator = .ok name) ∧
            (entriesOf (sectionOf document "registers") "items" = .error e ∨
            ∃ registers, entriesOf (sectionOf document "registers") "items" = .ok registers ∧
              (registersOf registers .empty).1 = .error e))) := by
  simp only [ofDocument]
  cases entriesOf (sectionOf document "calculator") "get" with
  | error e' => simp [error_bind]
  | ok calculator =>
      simp only [ok_bind]
      cases hOptimize : optimizeOf calculator with
      | error e' => simp [error_bind, hOptimize]
      | ok b =>
          simp only [ok_bind]
          cases hLast : lastRegisterOf calculator with
          | error e' => simp [error_bind, hOptimize, hLast]
          | ok name =>
              simp only [ok_bind]
              cases entriesOf (sectionOf document "registers") "items" with
              | error e' =>
                  simp only [error_bind]
                  simp [hOptimize, hLast]
              | ok registers =>
                  simp only [ok_bind, pure, Except.pure]
                  rcases hRegisters : registersOf registers .empty with ⟨e' | r, log⟩ <;>
                    simp [hOptimize, hLast, hRegisters]

/-- The only errors of a document that are not reported are the unguarded ones. -/
theorem unguarded_of_ofDocument {path : String} {document : Toml.Table}
    (h : (ofDocument path document).1 = .error e) (hUnreported : ¬ e.Reported) :
    Unguarded document e := by
  simp only [ofDocument_eq_error_iff, entriesOf_eq_error_iff, entriesOf_eq_ok_iff,
    optimizeOf_eq_error_iff, optimizeOf_ok_iff, lastRegisterOf_eq_error_iff, lastRegisterOf_ok_iff,
    registersOf_eq_error_iff, registerOf_eq_error_iff] at h
  rcases h with ⟨hPlain, rfl⟩ | ⟨calculator, hCalculator, hRest⟩
  · exact .calculator hPlain
  rcases hRest with ⟨value, hFound, hRefused, rfl⟩ | ⟨hOptimize, hRest⟩
  · obtain ⟨obstacle, hHidden, hRefusal⟩ := exists_obstacle_of_refusal ⟨_, rfl⟩ hUnreported
    rw [hRefusal]
    exact .optimize calculator value obstacle hCalculator hFound hRefused hHidden
  rcases hRest with ⟨value, hFound, hRefused, rfl⟩ | ⟨hLast, hRest⟩
  · obtain ⟨obstacle, hHidden, hRefusal⟩ := exists_obstacle_of_refusal ⟨_, rfl⟩ hUnreported
    rw [hRefusal]
    exact .lastRegister calculator value obstacle hCalculator hOptimize hFound hRefused hHidden
  have hOptions : OptionsUsable document := ⟨calculator, hCalculator, hOptimize, hLast⟩
  rcases hRest with ⟨hPlain, rfl⟩ |
    ⟨_, hRegisters, before, name, value, after, rfl, hUsable, hCause⟩
  · exact .registers hOptions hPlain
  rcases hCause with ⟨n, rfl, hLarge, rfl⟩ | ⟨hRefused, rfl⟩
  · exact .tooLarge hOptions before after name n hRegisters hUsable hLarge
  · obtain ⟨obstacle, hHidden, hRefusal⟩ := exists_obstacle_of_refusal ⟨_, rfl⟩ hUnreported
    rw [hRefusal]
    exact .register hOptions before after name value obstacle hRegisters hUsable hRefused hHidden

/-- No unguarded error is reported as a mistake in the settings. -/
theorem Unguarded.not_reported {document : Toml.Table} (h : Unguarded document e) :
    ¬ e.Reported := by
  intro ⟨errors, hErrors⟩
  cases h <;> cases hErrors

/-- An unguarded value makes loading fail with its error. With `unguarded_of_ofDocument`, the
unguarded errors are exactly the unreported ones. -/
theorem Unguarded.ofDocument {document : Toml.Table} (h : Unguarded document e) (path : String) :
    (ofDocument path document).1 = .error e := by
  simp only [ofDocument_eq_error_iff, entriesOf_eq_error_iff, entriesOf_eq_ok_iff,
    optimizeOf_eq_error_iff, optimizeOf_ok_iff, lastRegisterOf_eq_error_iff, lastRegisterOf_ok_iff,
    registersOf_eq_error_iff, registerOf_eq_error_iff]
  cases h with
  | calculator plain => exact .inl ⟨plain, rfl⟩
  | optimize entries value obstacle calculator found refused hidden =>
      refine .inr ⟨entries, calculator, .inl ⟨value, found, refused, ?_⟩⟩
      rw [refusal_of_obstacle hidden]
  | lastRegister entries value obstacle calculator usable found refused hidden =>
      refine .inr ⟨entries, calculator, .inr ⟨usable, .inl ⟨value, found, refused, ?_⟩⟩⟩
      rw [refusal_of_obstacle hidden]
  | registers options plain =>
      obtain ⟨entries, calculator, hOptimize, hLast⟩ := options
      exact .inr ⟨entries, calculator, .inr ⟨hOptimize, .inr ⟨hLast, .inl ⟨plain, rfl⟩⟩⟩⟩
  | tooLarge options before after name n registers usable large =>
      obtain ⟨entries, calculator, hOptimize, hLast⟩ := options
      exact .inr ⟨entries, calculator, .inr ⟨hOptimize, .inr ⟨hLast, .inr ⟨_, registers,
        before, name, _, after, rfl, usable, .inl ⟨n, rfl, large, rfl⟩⟩⟩⟩⟩
  | register options before after name value obstacle registers usable refused hidden =>
      obtain ⟨entries, calculator, hOptimize, hLast⟩ := options
      refine .inr ⟨entries, calculator, .inr ⟨hOptimize, .inr ⟨hLast, .inr ⟨_, registers,
        before, name, value, after, rfl, usable, .inr ⟨refused, ?_⟩⟩⟩⟩⟩
      rw [refusal_of_obstacle hidden]

end

/-- Loading a file that is a document gives settings or an error that is reported, unless there is a
gap in the checks. If there is one, it decides the error, and the error is not reported. -/
theorem load_reports_iff_guarded {text : String} {document : Toml.Table}
    (h : Toml.read (Text.unifyLineEnds text.toList) = .ok document) (path : String) :
    (((∃ settings, (load path (.file text)).1 = .ok settings) ∨
        ∃ e, (load path (.file text)).1 = .error e ∧ e.Reported) ↔
      ∀ e, ¬ Unguarded document e) ∧
    ∀ e, Unguarded document e → (load path (.file text)).1 = .error e ∧ ¬ e.Reported := by
  have hLoad : (load path (.file text)).1 = (ofDocument path document).1 := by
    simp only [load, h]
  rw [hLoad]
  refine ⟨⟨?_, ?_⟩, fun e hGap => ⟨hGap.ofDocument path, hGap.not_reported⟩⟩
  · intro hGood e hGap
    rw [hGap.ofDocument path] at hGood
    rcases hGood with ⟨settings, hOk⟩ | ⟨e', hError, hReported⟩
    · cases hOk
    · cases hError
      exact hGap.not_reported hReported
  · intro hGuarded
    cases hOutcome : (ofDocument path document).1 with
    | ok settings => exact .inl ⟨settings, rfl⟩
    | error e =>
        refine .inr ⟨e, rfl, ?_⟩
        apply Classical.byContradiction
        intro hUnreported
        exact hGuarded e (unguarded_of_ofDocument hOutcome hUnreported)

/-- A text is read as a document with a property that can be computed. -/
theorem exists_document (text : String) (P : Toml.Table → Bool)
    (h : (Toml.read (Text.unifyLineEnds text.toList)).toOption.any P = true) :
    ∃ document, Toml.read (Text.unifyLineEnds text.toList) = .ok document ∧ P document = true :=
  exists_ok_of_any h

/-- Tables are told by the name of their type. -/
theorem ne_table_of_typeName {value : Toml.Value} (h : value.typeName ≠ "dict") :
    ∀ entries, value ≠ .table entries := by
  intro entries hTable
  subst hTable
  exact h rfl

theorem message_noMember (value : Toml.Value) (member : String) :
    (SettingsError.noMember value member).message =
      "'" ++ value.typeName ++ "' object has no attribute '" ++ member ++ "'" := rfl

/-- There are no options, and the registers are a list of tables. -/
theorem load_breaks_off_at_listed_registers :
    ∃ document, Toml.read (Text.unifyLineEnds "[[registers]]\na = 1\n".toList) = .ok document ∧
      Unguarded document (.noMember (sectionOf document "registers") "items") ∧
      ∀ path, (load path (.file "[[registers]]\na = 1\n")).1 =
        .error (.noMember (sectionOf document "registers") "items") := by
  obtain ⟨document, hRead, hShape⟩ := exists_document "[[registers]]\na = 1\n"
    (fun document => (document.lookup "calculator").isNone &&
      (sectionOf document "registers").typeName == "list") (by decide +kernel)
  simp only [Bool.and_eq_true, Option.isNone_iff_eq_none, beq_iff_eq] at hShape
  obtain ⟨hCalculator, hRegisters⟩ := hShape
  have hOptions : OptionsUsable document := by
    refine ⟨[], ?_, ?_, ?_⟩
    · rw [sectionOf, hCalculator]
      rfl
    · intro value hFound
      cases hFound
    · intro value hFound
      cases hFound
  have hPlain : ∀ entries, sectionOf document "registers" ≠ .table entries :=
    ne_table_of_typeName (by simp [hRegisters])
  have hGap := Unguarded.registers hOptions hPlain
  exact ⟨document, hRead, hGap, fun path => ((load_reports_iff_guarded hRead path).2 _ hGap).1⟩

/-- The options are a number. -/
theorem load_breaks_off_at_plain_options :
    ∃ document, Toml.read (Text.unifyLineEnds "calculator = 1\n".toList) = .ok document ∧
      ∀ path, ∃ e, (load path (.file "calculator = 1\n")).1 = .error e ∧ ¬ e.Reported ∧
        e.message = "'int' object has no attribute 'get'" := by
  obtain ⟨document, hRead, hShape⟩ := exists_document "calculator = 1\n"
    (fun document => (sectionOf document "calculator").typeName == "int") (by decide +kernel)
  have hType := eq_of_beq hShape
  have hPlain : ∀ entries, sectionOf document "calculator" ≠ .table entries :=
    ne_table_of_typeName (by simp [hType])
  have hGap := Unguarded.calculator hPlain
  refine ⟨document, hRead, fun path => ⟨_, ?_, hGap.not_reported, ?_⟩⟩
  · simp only [load, hRead]
    exact hGap.ofDocument path
  · rw [message_noMember, hType]
    decide +kernel

end Settings

end StackCalc
