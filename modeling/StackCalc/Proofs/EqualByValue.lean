import StackCalc.Proofs.Footprint
import StackCalc.Proofs.SignedZeros

/-! Programs that are equal by value. Their numbers are the same except that a zero may have another
sign, and a run shows the difference only where a calculation tells the two zeros apart. Up to the
first such calculation the two runs go side by side. Whether and why they fail does not depend on
numbers at all. -/
namespace StackCalc
open Number

/-- Programs are equal by value when their opcodes are, one by one. -/
theorem Program.sameAs_iff {p q : Program} :
    p.sameAs q = true ↔ List.Forall₂ (fun a b => a.sameAs b = true) p.opcodes q.opcodes := by
  rw [List.forall₂_iff_zip, sameAs, Bool.and_eq_true, beq_iff_eq, List.all_eq_true]
  simp only [size, Prod.forall]

/-- Opcodes are equal by value when their kinds agree and their payloads have equal values. -/
theorem Opcode.sameAs_iff {a b : Opcode} :
    a.sameAs b = true ↔ a.kind = b.kind ∧ a.payload.sameAs b.payload = true := by
  rw [sameAs, Bool.and_eq_true, beq_iff_eq]

/-- Payloads that are equal by value are the same, unless they are numbers. -/
theorem Payload.sameAs_cases {a b : Payload} (h : a.sameAs b = true) :
    a = b ∨ ∃ x y, a = .number x ∧ b = .number y ∧ (x == y) = true := by
  cases a <;> cases b <;> simp_all [sameAs]

/-- Both zeros have the key of positive zero. -/
theorem Payload.key_of_isZero {x : Float} (h : IsZero x) : key (.number x) = .number 0 := by
  rw [key, if_pos (beq_zero_iff.mpr h)]

theorem Payload.key_of_not_isZero {x : Float} (h : ¬ IsZero x) : key (.number x) = .number x := by
  rw [key, if_neg (mt beq_zero_iff.mp h)]

/-- Two numbers name one register exactly when they have one value. -/
theorem Payload.key_number_eq_iff {x y : Float} :
    key (.number x) = key (.number y) ↔ SameValue x y := by
  have hZero : IsZero 0 := beq_zero_iff.mp (by decide +kernel)
  rw [sameValue_iff]
  by_cases hx : IsZero x <;> by_cases hy : IsZero y
  · simp [key_of_isZero, hx, hy]
  · have hNe : 0 ≠ y := fun h => hy (h ▸ hZero)
    have hxy : x ≠ y := fun h => hy (h ▸ hx)
    simp [key_of_isZero, key_of_not_isZero, hx, hy, hNe, hxy]
  · have hNe : x ≠ 0 := fun h => hx (h ▸ hZero)
    have hxy : x ≠ y := fun h => hx (h ▸ hy)
    simp [key_of_isZero, key_of_not_isZero, hx, hy, hNe, hxy]
  · simp [key_of_not_isZero, hx, hy]

/-- Names refer to one register if they are the same or equal by value. -/
theorem Payload.key_eq_iff {a b : Payload} : a.key = b.key ↔ a = b ∨ a.sameAs b = true := by
  cases a <;> cases b
  case number.number x y =>
    rw [key_number_eq_iff, sameValue_iff, sameAs, beq_iff, number.injEq]
    constructor
    · rintro (rfl | ⟨hx, hy⟩)
      · exact .inl rfl
      · exact .inr ⟨hx.ne_undefined, .inr ⟨hx, hy⟩⟩
    · rintro (rfl | ⟨-, hSame⟩)
      · exact .inl rfl
      · exact hSame
  all_goals simp [key, sameAs]

/-- Equal payloads are both numbers of one value, or both fail in the same way. -/
theorem Payload.toNumber_of_sameAs {a b : Payload} (h : a.sameAs b = true) :
    (∃ fault, a.toNumber = .error fault ∧ b.toNumber = .error fault) ∨
      ∃ x y, a.toNumber = .ok x ∧ b.toNumber = .ok y ∧ SameValue x y := by
  rcases sameAs_cases h with rfl | ⟨x, y, rfl, rfl, hEq⟩
  · cases a.toNumber with
    | error fault => exact .inl ⟨fault, rfl, rfl⟩
    | ok x => exact .inr ⟨x, x, rfl, rfl, .refl x⟩
  · exact .inr ⟨x, y, rfl, rfl, .inl hEq⟩

/-- Which elements of the stack are numbers. -/
def Context.shape {σ : Type} (c : Context σ) : List Bool :=
  c.stack.map Element.isLiteral

/-- Whether an operator fails depends on whether its left operand is a number. -/
theorem Operator.run_shape (op : Operator) {left left' : Element}
    (h : left.isLiteral = left'.isLiteral) (right right' : Element) (r r' : Registers) :
    (∃ x y, (op.run left right r).1 = .ok (.literal x) ∧
      (op.run left' right' r').1 = .ok (.literal y)) ∨
    ∃ fault, (op.run left right r).1 = .error fault ∧
      (op.run left' right' r').1 = .error fault := by
  cases op with
  | arithmetic a => exact .inl ⟨_, _, rfl, rfl⟩
  | assign =>
    cases left with
    | literal x =>
      cases left' with
      | literal y => exact .inr ⟨_, rfl, rfl⟩
      | reference name => cases h
    | reference name =>
      cases left' with
      | literal y => cases h
      | reference name' => exact .inl ⟨_, _, rfl, rfl⟩

namespace Machine
variable {a b : Opcode} {m m' : Machine}

/-- What two opcodes do that are equal by value: they fail in the same way whatever the machine is,
they push numbers that are equal by value, they push references to one register, or they are the
same operator. -/
theorem perform_cases_of_sameAs (h : a.sameAs b = true) :
    (∃ fault, ∀ m : Machine, m.perform a = (.error fault, m) ∧ m.perform b = (.error fault, m)) ∨
    (∃ x y, SameValue x y ∧ ∀ m : Machine, m.perform a = (.ok (), m.push (.literal x)) ∧
      m.perform b = (.ok (), m.push (.literal y))) ∨
    (∃ name name' : Name, name.key = name'.key ∧
      ∀ m : Machine, m.perform a = (.ok (), m.push (.reference name)) ∧
        m.perform b = (.ok (), m.push (.reference name'))) ∨
    ∃ op payload payload', a = ⟨.symbol (.operator op), payload⟩ ∧
      b = ⟨.symbol (.operator op), payload'⟩ := by
  obtain ⟨hKind, hPayload⟩ := Opcode.sameAs_iff.mp h
  rcases a with ⟨kind, payload⟩
  rcases b with ⟨kind', payload'⟩
  obtain rfl : kind = kind' := hKind
  rcases kind with _ | _ | (op | _ | _)
  · simp only [Context.perform]
    rcases Payload.toNumber_of_sameAs hPayload with ⟨fault, ha, hb⟩ | ⟨x, y, ha, hb, hValue⟩
    · rw [ha, hb]
      exact .inl ⟨fault, fun m => ⟨rfl, rfl⟩⟩
    · rw [ha, hb]
      exact .inr (.inl ⟨x, y, hValue, fun m => ⟨rfl, rfl⟩⟩)
  · have hKey : payload.key = payload'.key := Payload.key_eq_iff.mpr (.inr hPayload)
    exact .inr (.inr (.inl ⟨payload, payload', hKey, fun m => ⟨rfl, rfl⟩⟩))
  · exact .inr (.inr (.inr ⟨op, payload, payload', rfl, rfl⟩))
  · exact .inl ⟨_, fun m => ⟨rfl, rfl⟩⟩
  · exact .inl ⟨_, fun m => ⟨rfl, rfl⟩⟩

/-- Whether an operator succeeds depends on the shape of the stack only. -/
theorem shape_operator {stack stack' : List Element}
    (h : stack.map Element.isLiteral = stack'.map Element.isLiteral) (r r' : Registers)
    (op : Operator) (payload payload' : Payload) :
    (Context.perform ⟨stack, r⟩ ⟨.symbol (.operator op), payload⟩).1 =
      (Context.perform ⟨stack', r'⟩ ⟨.symbol (.operator op), payload'⟩).1 ∧
    (Context.perform ⟨stack, r⟩ ⟨.symbol (.operator op), payload⟩).2.shape =
      (Context.perform ⟨stack', r'⟩ ⟨.symbol (.operator op), payload'⟩).2.shape := by
  have hLength : stack.length = stack'.length := by
    simpa using congrArg List.length h
  rcases short_or_operands stack with hShort | ⟨right, left, rest, rfl⟩
  · rw [perform_operator_short hShort, perform_operator_short (hLength ▸ hShort)]
    exact ⟨rfl, rfl⟩
  · obtain ⟨right', left', rest', rfl⟩ := (short_or_operands stack').resolve_left (by
      rw [← hLength]
      simp)
    simp only [List.map_cons, List.cons.injEq] at h
    obtain ⟨-, hLeft, hRest⟩ := h
    rw [Context.perform_operator_eq, Context.perform_operator_eq, perform_operator,
      perform_operator]
    rcases hRun : op.run left right r with ⟨outcome, r₁⟩
    rcases hRun' : op.run left' right' r' with ⟨outcome', r₁'⟩
    have hOutcome := op.run_shape hLeft right right' r r'
    rw [hRun, hRun'] at hOutcome
    rcases hOutcome with ⟨x, y, hx, hy⟩ | ⟨fault, hx, hy⟩
    · cases hx
      cases hy
      exact ⟨rfl, congrArg (List.cons true) hRest⟩
    · cases hx
      cases hy
      exact ⟨rfl, hRest⟩

/-- Whether an opcode fails, and why, depends on the shape of the stack alone. -/
theorem shape_perform (h : a.sameAs b = true) (hShape : m.shape = m'.shape) :
    (m.perform a).1 = (m'.perform b).1 ∧ (m.perform a).2.shape = (m'.perform b).2.shape := by
  rcases perform_cases_of_sameAs h with ⟨fault, hRun⟩ | ⟨x, y, -, hRun⟩ |
    ⟨name, name', -, hRun⟩ | ⟨op, payload, payload', rfl, rfl⟩
  · rw [(hRun m).1, (hRun m').2]
    exact ⟨rfl, hShape⟩
  · rw [(hRun m).1, (hRun m').2]
    exact ⟨rfl, congrArg (List.cons true) hShape⟩
  · rw [(hRun m).1, (hRun m').2]
    exact ⟨rfl, congrArg (List.cons false) hShape⟩
  · exact shape_operator hShape m.store m'.store op payload payload'

/-- Opcodes that are equal by value keep machines of one shape in step. -/
theorem shape_performAll {ops ops' : List Opcode}
    (h : List.Forall₂ (fun a b => a.sameAs b = true) ops ops') (hShape : m.shape = m'.shape) :
    (m.performAll ops).1 = (m'.performAll ops').1 ∧
      (m.performAll ops).2.shape = (m'.performAll ops').2.shape := by
  induction h generalizing m m' with
  | nil => exact ⟨rfl, hShape⟩
  | @cons a b rest rest' hSame hRest ih =>
    obtain ⟨hOutcome, hAfter⟩ := shape_perform hSame hShape
    rw [Context.performAll_cons, Context.performAll_cons]
    rcases hRun : m.perform a with ⟨outcome, m₁⟩
    rcases hRun' : m'.perform b with ⟨outcome', m₁'⟩
    rw [hRun, hRun'] at hOutcome hAfter
    obtain rfl : outcome = outcome' := hOutcome
    cases outcome with
    | error fault => exact ⟨rfl, hAfter⟩
    | ok _ => exact ih hAfter

end Machine

/-- Registers in the same order, with names and values that are equal by value. -/
def Registers.SameValues (r r' : Registers) : Prop :=
  List.Forall₂ (fun e e' => e.1.key = e'.1.key ∧ SameValue e.2 e'.2) r.entries r'.entries

/-- Numbers that are equal by value, or references to one register. -/
inductive Element.Matches : Element → Element → Prop where
  | literal {x y : Float} (same : SameValue x y) : Matches (.literal x) (.literal y)
  | reference {name name' : Name} (same : name.key = name'.key) :
      Matches (.reference name) (.reference name')

namespace Registers.SameValues
variable {r r' : Registers} {x y : Float}

theorem refl (r : Registers) : r.SameValues r :=
  List.forall₂_same.mpr fun e _ => ⟨rfl, .refl e.2⟩

/-- Matching elements have one value in stores of the same values. -/
theorem value (h : r.SameValues r') {e e' : Element} (hElement : e.Matches e') :
    SameValue (r.value e) (r'.value e') := by
  cases hElement with
  | literal same => exact same
  | @reference name name' same =>
    unfold SameValues at h
    simp only [Registers.value, get?, ← same]
    generalize r.entries = entries at h
    generalize r'.entries = entries' at h
    induction h with
    | nil => exact .refl 0
    | cons hEntry _ ih =>
      obtain ⟨hName, hValue⟩ := hEntry
      rw [List.find?_cons, List.find?_cons, ← hName]
      split
      · exact hValue
      · exact ih

/-- Setting one register to one value keeps stores of the same values so. -/
theorem set (h : r.SameValues r') {name name' : Name} (hName : name.key = name'.key)
    (hValue : SameValue x y) : (r.set name x).SameValues (r'.set name' y) := by
  unfold SameValues at h ⊢
  rw [entries_set, entries_set]
  generalize r.entries = entries at h
  generalize r'.entries = entries' at h
  induction h with
  | nil => exact .cons ⟨hName, hValue⟩ .nil
  | cons hEntry hRest ih =>
    rw [setEntry, setEntry, ← hEntry.1, ← hName]
    split
    · exact .cons ⟨hEntry.1, hValue⟩ hRest
    · exact .cons hEntry ih

end Registers.SameValues

namespace Machine

/-- Machines that differ in the signs of zeros alone. -/
structure SameValues (m m' : Machine) : Prop where
  stack : List.Forall₂ Element.Matches m.stack m'.stack
  registers : m.store.SameValues m'.store

/-- The calculations that are made while opcodes run, with the values of their operands. -/
inductive Computes : Machine → List Opcode → Arithmetic → Float → Float → Prop where
  | here {right left : Element} {below : List Element} {r : Registers} {op : Arithmetic}
      {payload : Payload} {rest : List Opcode} :
      Computes ⟨right :: left :: below, r⟩ (⟨.arithmetic op, payload⟩ :: rest) op (r.value left)
        (r.value right)
  | later {m m' : Machine} {a : Opcode} {rest : List Opcode} {op : Arithmetic} {x y : Float}
      (done : m.perform a = (.ok (), m')) (next : Computes m' rest op x y) :
      Computes m (a :: rest) op x y

namespace SameValues
variable {m m' : Machine} {a b : Opcode} {ops ops' : List Opcode}

theorem refl (m : Machine) : m.SameValues m := by
  refine ⟨List.forall₂_same.mpr fun e _ => ?_, .refl m.store⟩
  cases e with
  | literal x => exact .literal (.refl x)
  | reference name => exact .reference rfl

/-- Machines of the same values have one shape. -/
theorem shape (h : m.SameValues m') : m.shape = m'.shape := by
  have hShape : ∀ {s s' : List Element}, List.Forall₂ Element.Matches s s' →
      s.map Element.isLiteral = s'.map Element.isLiteral := by
    intro s s' hStacks
    induction hStacks with
    | nil => rfl
    | cons hElement _ ih =>
      rw [List.map_cons, List.map_cons, ih]
      cases hElement <;> rfl
  exact hShape h.stack

/-- Machines agree after an operator that does not tell the zeros apart. -/
theorem operator {right left right' left' : Element} {rest rest' : List Element}
    {r r' : Registers} (hRight : right.Matches right') (hLeft : left.Matches left')
    (hRest : List.Forall₂ Element.Matches rest rest') (hRegisters : r.SameValues r')
    (op : Operator)
    (hBlind : ∀ a, op = .arithmetic a → ¬ a.TellsZerosApart (r.value left) (r.value right)) :
    SameValues (Context.perform ⟨right :: left :: rest, r⟩ (.operator op)).2
      (Context.perform ⟨right' :: left' :: rest', r'⟩ (.operator op)).2 := by
  have hRightValue := hRegisters.value hRight
  cases op with
  | arithmetic a =>
    have hResult : SameValue (a.apply (r.value left) (r.value right))
        (a.apply (r'.value left') (r'.value right')) := by
      by_contra hNot
      exact hBlind a rfl ⟨_, _, hRegisters.value hLeft, hRightValue, hNot⟩
    rw [a.apply_eq_value, a.apply_eq_value] at hResult
    rw [perform_operator, perform_operator]
    exact ⟨.cons (.literal hResult) hRest, hRegisters⟩
  | assign =>
    rw [perform_operator, perform_operator]
    cases hLeft with
    | literal => exact ⟨hRest, hRegisters⟩
    | reference same =>
      exact ⟨.cons (.literal hRightValue) hRest, hRegisters.set same hRightValue⟩

/-- One opcode preserves `SameValues` when it does not compute an operator that tells the zeros
apart. -/
theorem perform (h : m.SameValues m') (hSame : a.sameAs b = true)
    (hBlind : ∀ op x y, Computes m [a] op x y → ¬ op.TellsZerosApart x y) :
    SameValues (m.perform a).2 (m'.perform b).2 := by
  rcases perform_cases_of_sameAs hSame with ⟨fault, hRun⟩ | ⟨x, y, hValue, hRun⟩ |
    ⟨name, name', hName, hRun⟩ | ⟨op, payload, payload', rfl, rfl⟩
  · rw [(hRun m).1, (hRun m').2]
    exact h
  · rw [(hRun m).1, (hRun m').2]
    exact ⟨.cons (.literal hValue) h.stack, h.registers⟩
  · rw [(hRun m).1, (hRun m').2]
    exact ⟨.cons (.reference hName) h.stack, h.registers⟩
  · rcases m with ⟨stack, r⟩
    rcases m' with ⟨stack', r'⟩
    obtain ⟨hStack, hRegisters⟩ := h
    rcases short_or_operands stack with hShort | ⟨right, left, rest, rfl⟩
    · rw [perform_operator_short hShort, perform_operator_short (hStack.length_eq ▸ hShort)]
      exact ⟨.nil, hRegisters⟩
    · cases hStack with
      | cons hRight hBelow =>
        cases hBelow with
        | cons hLeft hRest =>
          rw [Context.perform_operator_eq, Context.perform_operator_eq]
          apply operator hRight hLeft hRest hRegisters op
          rintro a rfl
          exact hBlind a _ _ .here

/-- Up to the first calculation that tells the zeros apart, runs of programs that are equal by value
go side by side. -/
theorem performAll (h : m.SameValues m')
    (hSame : List.Forall₂ (fun a b => a.sameAs b = true) ops ops')
    (hBlind : ∀ op x y, Computes m ops op x y → ¬ op.TellsZerosApart x y) :
    SameValues (m.performAll ops).2 (m'.performAll ops').2 := by
  induction hSame generalizing m m' with
  | nil => exact h
  | @cons a b rest rest' hFirst hRest ih =>
    -- What the first opcode computes is among what the whole run computes.
    have hOne : ∀ op x y, Computes m [a] op x y → ¬ op.TellsZerosApart x y := by
      intro op x y hComputes
      apply hBlind
      cases hComputes with
      | here => exact .here
      | later _ next => cases next
    have hAfter := h.perform hFirst hOne
    obtain ⟨hOutcome, -⟩ := shape_perform hFirst h.shape
    rw [Context.performAll_cons, Context.performAll_cons]
    rcases hRun : m.perform a with ⟨outcome, m₁⟩
    rcases hRun' : m'.perform b with ⟨outcome', m₁'⟩
    rw [hRun, hRun'] at hOutcome hAfter
    obtain rfl : outcome = outcome' := hOutcome
    cases outcome with
    | error fault => exact hAfter
    | ok _ => exact ih hAfter fun op x y hNext => hBlind op x y (.later hRun hNext)

/-- The run lemma: a program that never tells the zeros apart yields one value on both machines. -/
theorem execute (h : m.SameValues m')
    (hSame : List.Forall₂ (fun a b => a.sameAs b = true) ops ops')
    (hBlind : ∀ op x y, Computes m ops op x y → ¬ op.TellsZerosApart x y) {x : Float}
    (hResult : (m.execute ops).1 = .ok x) :
    ∃ y, (m'.execute ops').1 = .ok y ∧ SameValue x y := by
  have hAfter := h.performAll hSame hBlind
  obtain ⟨hOutcome, -⟩ := shape_performAll hSame h.shape
  unfold Context.execute at hResult ⊢
  rcases hRun : m.performAll ops with ⟨outcome, ⟨stack, r⟩⟩
  rcases hRun' : m'.performAll ops' with ⟨outcome', ⟨stack', r'⟩⟩
  rw [hRun, hRun'] at hOutcome hAfter
  rw [hRun] at hResult
  obtain rfl : outcome = outcome' := hOutcome
  obtain ⟨hStack, hRegisters⟩ := hAfter
  cases outcome with
  | error fault => cases hResult
  | ok _ =>
    cases hStack with
    | nil => cases hResult
    | cons hTop _ =>
      simp only [popValue_cons] at hResult ⊢
      cases hResult
      exact ⟨_, rfl, hRegisters.value hTop⟩

end SameValues

/-- Programs that are equal by value fail alike, with no condition on what they compute. -/
theorem fault_execute {m m' : Machine} {ops ops' : List Opcode}
    (h : List.Forall₂ (fun a b => a.sameAs b = true) ops ops') (hShape : m.shape = m'.shape)
    (fault : Fault) :
    (m.execute ops).1 = .error fault ↔ (m'.execute ops').1 = .error fault := by
  obtain ⟨hOutcome, hAfter⟩ := shape_performAll h hShape
  unfold Context.execute
  rcases hRun : m.performAll ops with ⟨outcome, ⟨stack, r⟩⟩
  rcases hRun' : m'.performAll ops' with ⟨outcome', ⟨stack', r'⟩⟩
  rw [hRun, hRun'] at hOutcome hAfter
  obtain rfl : outcome = outcome' := hOutcome
  cases outcome with
  | error fault' => exact Iff.rfl
  | ok _ =>
    cases stack with
    | nil =>
      obtain rfl : stack' = [] := List.map_eq_nil_iff.mp hAfter.symm
      exact Iff.rfl
    | cons e rest =>
      cases stack' with
      | nil => cases hAfter
      | cons e' rest' => simp only [popValue_cons, reduceCtorEq]

end Machine

/-- Programs that are equal by value fail alike on every machine. When no calculation of the run
tells the two zeros apart, their results and the registers they leave are equal by value too. A
division tells them apart when a number other than zero is divided by a zero, a power at most when
an operand is a zero, and no other calculation ever does. -/
theorem execute_equal_by_value {p q : Program} (h : p.sameAs q = true) (m : Machine) :
    (∀ fault, (p.execute m).1 = .error fault ↔ (q.execute m).1 = .error fault) ∧
    ((∀ op x y, m.Computes p.opcodes op x y → ¬ op.TellsZerosApart x y) →
      (∀ x, (p.execute m).1 = .ok x → ∃ y, (q.execute m).1 = .ok y ∧ SameValue x y) ∧
        (p.execute m).2.store.SameValues (q.execute m).2.store) ∧
    (∀ x y, Arithmetic.divide.TellsZerosApart x y ↔
      IsZero y ∧ ¬ IsZero x ∧ parts x ≠ .undefined) ∧
    ∀ (op : Arithmetic) (x y : Float), op.TellsZerosApart x y →
      op = .divide ∨ op = .power ∧ (IsZero x ∨ IsZero y) := by
  have hSame := Program.sameAs_iff.mp h
  have hStart := Machine.SameValues.refl m
  refine ⟨Machine.fault_execute hSame rfl, fun hBlind => ?_,
    fun x y => Arithmetic.tellsZerosApart_divide_iff, fun op x y hApart => hApart.cases⟩
  constructor
  · intro x hResult
    exact hStart.execute hSame hBlind hResult
  · rw [Program.execute, Program.execute, Machine.store_execute, Machine.store_execute]
    exact (hStart.performAll hSame hBlind).registers

/-- The quotients of the two zeros by two are equal by value again, but they are not the same. -/
theorem execute_equal_by_value_of_quotient :
    ∃ p q, Program.ofSource "-0 / 2" = .ok p ∧ Program.ofSource "0 / 2" = .ok q ∧
      p.sameAs q = true ∧ ∃ x y, (p.execute (.fresh Registers.empty)).1 = .ok x ∧
        (q.execute (.fresh Registers.empty)).1 = .ok y ∧ SameValue x y ∧ x ≠ y := by
  let p : Program := ⟨[.number (-0), .number 2, .operator (.arithmetic .divide)]⟩
  let q : Program := ⟨[.number 0, .number 2, .operator (.arithmetic .divide)]⟩
  have hSame : p.sameAs q = true := by decide +kernel
  have hTwo : ¬ IsZero 2 := by
    rintro ⟨negative, hParts⟩
    revert hParts
    cases negative <;> decide +kernel
  have hBlind : ∀ op x y, Machine.Computes (.fresh .empty) p.opcodes op x y →
      ¬ op.TellsZerosApart x y := by
    intro op x y hComputes
    cases hComputes with
    | later done next =>
      cases done
      cases next with
      | later done next =>
        cases done
        cases next with
        | here =>
          rw [Arithmetic.tellsZerosApart_divide_iff]
          exact fun hApart => hTwo hApart.1
        | later _ next => cases next
  have hRun : (p.execute (.fresh Registers.empty)).1 = .ok (-0) := by decide +kernel
  have hRun' : (q.execute (.fresh Registers.empty)).1 = .ok 0 := by decide +kernel
  obtain ⟨-, hAgree, -⟩ := execute_equal_by_value hSame (.fresh .empty)
  obtain ⟨y, hResult, hValue⟩ := (hAgree hBlind).1 _ hRun
  refine ⟨p, q, by decide +kernel, by decide +kernel, hSame, _, y, hRun, hResult, hValue, ?_⟩
  rw [hRun'] at hResult
  cases hResult
  decide +kernel

/-- But the quotients of one by the two zeros are infinities of opposite signs. -/
theorem execute_differs_by_zero :
    ∃ p q, Program.ofSource "1 / 0" = .ok p ∧ Program.ofSource "1 / -0" = .ok q ∧
      p.sameAs q = true ∧ (p.execute (.fresh Registers.empty)).1 = .ok (Number.infinity false) ∧
      (q.execute (.fresh Registers.empty)).1 = .ok (Number.infinity true) ∧
      ¬ SameValue (Number.infinity false) (Number.infinity true) := by
  refine ⟨⟨[.number 1, .number 0, .operator (.arithmetic .divide)]⟩,
    ⟨[.number 1, .number (-0), .operator (.arithmetic .divide)]⟩, ?_, ?_, ?_, ?_, ?_, ?_⟩
  · decide +kernel
  · decide +kernel
  · decide +kernel
  · decide +kernel
  · decide +kernel
  · exact not_sameValue_infinity (by decide)

end StackCalc
