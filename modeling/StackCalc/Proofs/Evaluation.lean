import StackCalc.Proofs.Calculation
import StackCalc.Proofs.Compilation
import StackCalc.Proofs.Machine

/-! Evaluating expressions directly, without opcodes and without a stack. Running a compiled source
agrees with evaluating the expression it is read as, in its result or fault and in the registers,
whatever lies on the stack before. -/
namespace StackCalc

/-- Applies an operator to two operands. Only now are their values looked up, so both see all that
was assigned before; the target of an assignment has to be a register that was not looked up. -/
def Operator.run (op : Operator) (left right : Element) (r : Registers) :
    Except Fault Element × Registers :=
  match op, left with
  | .arithmetic a, _ => (.ok (.literal (a.value (r.value left) (r.value right))), r)
  | .assign, .reference name => (.ok (.literal (r.value right)), r.set name (r.value right))
  | .assign, .literal _ => (.error .notAssignable, r)

namespace Expression

/-- Evaluates an expression: a number to a literal, a name to a reference that is not looked up yet,
an operation to the outcome of its operator on its operands. The left operand is evaluated first,
and the right one in the registers that it leaves. -/
def evaluate : Expression → Registers → Except Fault Element × Registers
  | .number text, r => (.ok (.literal (numeralValue text.toList)), r)
  | .negative text, r => (.ok (.literal (numeralValue ('-' :: text.toList))), r)
  | .identifier name, r => (.ok (.reference (.text name)), r)
  | .group t, r => t.evaluate r
  | .binary op left right, r =>
    match left.evaluate r with
    | (.error fault, r₁) => (.error fault, r₁)
    | (.ok a, r₁) =>
      match right.evaluate r₁ with
      | (.error fault, r₂) => (.error fault, r₂)
      | (.ok b, r₂) => op.run a b r₂

/-- Evaluates an expression and looks its value up. -/
def result (t : Expression) (r : Registers) : Except Fault Float × Registers :=
  match t.evaluate r with
  | (.error fault, r') => (.error fault, r')
  | (.ok e, r') => (.ok (r'.value e), r')

/-- The name that an expression consists of, brackets aside. -/
def name? : Expression → Option String
  | .identifier name => some name
  | .group t => t.name?
  | _ => none

theorem evaluate_of_name? {t : Expression} {name : String} (h : t.name? = some name)
    (r : Registers) : t.evaluate r = (.ok (.reference (.text name)), r) := by
  induction t with
  | identifier n =>
      cases h
      rfl
  | group t ih => exact ih h
  | number | negative | binary => cases h

end Expression

/-- Over every store the opcodes of an expression add one element to the stack, or they stop at an
assignment to something that is no register. No other fault comes from them. -/
theorem Context.performAll_postorder {σ : Type} [Store σ] (t : Expression) (c : Context σ) :
    (∃ e c', c.performAll t.postorder = (.ok (), c') ∧ c'.stack = e :: c.stack) ∨
      ∃ c', c.performAll t.postorder = (.error .notAssignable, c') := by
  induction t generalizing c with
  | number text => exact .inl ⟨_, _, rfl, rfl⟩
  | negative text => exact .inl ⟨_, _, rfl, rfl⟩
  | identifier name => exact .inl ⟨_, _, rfl, rfl⟩
  | group t ih => exact ih c
  | binary op left right ihLeft ihRight =>
      simp only [Expression.postorder, List.append_assoc]
      rcases ihLeft c with ⟨a, c₁, hLeft, hStack₁⟩ | ⟨c₁, hLeft⟩
      · rw [performAll_append_of_ok hLeft]
        rcases ihRight c₁ with ⟨b, c₂, hRight, hStack₂⟩ | ⟨c₂, hRight⟩
        · rw [performAll_append_of_ok hRight, performAll_singleton]
          rw [hStack₁] at hStack₂
          rcases perform_operator_of_stack hStack₂ op with hDone | ⟨c₃, hFault, -⟩
          · exact .inl hDone
          · exact .inr ⟨c₃, hFault⟩
        · exact .inr ⟨c₂, performAll_append_of_error hRight _⟩
      · exact .inr ⟨c₁, performAll_append_of_error hLeft _⟩

theorem Context.stack_of_postorder {σ : Type} [Store σ] {t : Expression} {c c' : Context σ}
    (h : c.performAll t.postorder = (.ok (), c')) : ∃ e, c'.stack = e :: c.stack := by
  rcases performAll_postorder t c with ⟨e, c'', hRun, hStack⟩ | ⟨c'', hRun⟩
  · rw [h] at hRun
    cases hRun
    exact ⟨e, hStack⟩
  · rw [h] at hRun
    cases hRun

theorem Context.fault_of_postorder {σ : Type} [Store σ] {t : Expression} {c : Context σ}
    {fault : Fault} (h : (c.performAll t.postorder).1 = .error fault) : fault = .notAssignable := by
  rcases performAll_postorder t c with ⟨e, c', hRun, -⟩ | ⟨c', hRun⟩
  · rw [hRun] at h
    cases h
  · rw [hRun] at h
    cases h
    rfl

/-- The effect of an operator on a machine. Both operands leave the stack, after a fault too. -/
theorem Machine.perform_operator (op : Operator) (left right : Element) (stack : List Element)
    (r : Registers) :
    Context.perform ⟨right :: left :: stack, r⟩ (.operator op) =
      match op.run left right r with
      | (.ok e, r') => (.ok (), ⟨e :: stack, r'⟩)
      | (.error fault, r') => (.error fault, ⟨stack, r'⟩) := by
  cases op with
  | arithmetic a =>
      rw [Operator.run, ← a.apply_eq_value]
      exact Machine.calculate_cons right left stack r a
  | assign =>
      cases left with
      | literal x => exact Machine.assign_literal right x stack r
      | reference name => exact Machine.assign_reference right name stack r

/-- A run over a stack agrees with an evaluation: its element is put on the stack, or its fault
stops the run, with everything that was on the stack still there. -/
def Machine.Agrees (stack : List Element) (run : Result Registers Unit) :
    Except Fault Element × Registers → Prop
  | (.ok e, r) => run = (.ok (), ⟨e :: stack, r⟩)
  | (.error fault, r) => ∃ left, run = (.error fault, ⟨left ++ stack, r⟩)

/-- The opcodes of an expression do what its evaluation says, on top of any stack. -/
theorem Machine.agrees_postorder (t : Expression) (stack : List Element) (r : Registers) :
    Machine.Agrees stack (Context.performAll ⟨stack, r⟩ t.postorder) (t.evaluate r) := by
  induction t generalizing stack r with
  | number text => rfl
  | negative text => rfl
  | identifier name => rfl
  | group t ih => exact ih stack r
  | binary op left right ihLeft ihRight =>
      have hLeft := ihLeft stack r
      simp only [Expression.evaluate, Expression.postorder, List.append_assoc]
      generalize left.evaluate r = outcome at hLeft ⊢
      rcases outcome with ⟨fault | a, r₁⟩
      · -- The left operand fails, and nothing else is done.
        obtain ⟨rest, hRun⟩ := hLeft
        exact ⟨rest, Context.performAll_append_of_error hRun _⟩
      · rw [Context.performAll_append_of_ok hLeft]
        have hRight := ihRight (a :: stack) r₁
        dsimp only
        generalize right.evaluate r₁ = outcome at hRight ⊢
        rcases outcome with ⟨fault | b, r₂⟩
        · -- The right operand fails, and the left one stays on the stack.
          obtain ⟨rest, hRun⟩ := hRight
          refine ⟨rest ++ [a], ?_⟩
          rw [Context.performAll_append_of_error hRun, List.append_assoc, List.singleton_append]
        · rw [Context.performAll_append_of_ok hRight, Context.performAll_singleton,
            Machine.perform_operator]
          dsimp only
          rcases op.run a b r₂ with ⟨fault | e, r₃⟩
          · exact ⟨[], rfl⟩
          · rfl

/-- Executing the opcodes of an expression gives its result, from every machine. -/
theorem Machine.execute_postorder (t : Expression) (m : Machine) :
    ((m.execute t.postorder).1, (m.execute t.postorder).2.store) = t.result m.store := by
  have hRun := Machine.agrees_postorder t m.stack m.store
  simp only [Context.execute, Expression.result]
  generalize t.evaluate m.store = outcome at hRun ⊢
  rcases outcome with ⟨fault | e, r⟩
  · obtain ⟨left, hRun⟩ := hRun
    rw [hRun]
  · rw [show m.performAll t.postorder = (.ok (), ⟨e :: m.stack, r⟩) from hRun]
    simp only [Machine.popValue_cons]

/-- The only fault of executing the opcodes of an expression. -/
theorem Machine.fault_of_execute {t : Expression} {m : Machine} {fault : Fault}
    (h : (m.execute t.postorder).1 = .error fault) : fault = .notAssignable := by
  rcases Context.performAll_postorder t m with ⟨e, m', hRun, hStack⟩ | ⟨m', hRun⟩
  · obtain ⟨x, m'', hPop, -⟩ := Context.popValue_of_stack hStack
    simp only [Context.execute, hRun, hPop] at h
    cases h
  · simp only [Context.execute, hRun] at h
    cases h
    rfl

/-- Running a source that compiles gives the result of the one expression it is read as: the same
value or fault, and the same registers, from every machine. The fault can only be that of an
assignment. In every operation a bare name on the left counts with the value it has after the right
operand. -/
theorem execute_eq_result {source : String} {p : Program} (h : Program.ofSource source = .ok p) :
    ∃ t, (∀ s, Derives 0 (scan source).lexemes s ↔ s = t) ∧
      (∀ m : Machine, ((p.execute m).1, (p.execute m).2.store) = t.result m.store) ∧
      (∀ (m : Machine) (fault : Fault), (p.execute m).1 = .error fault →
        fault.message = "Can only assign to a variable") ∧
      ∀ (op : Arithmetic) (left right : Expression) (name : String) (r r' : Registers)
        (b : Element),
        left.name? = some name → right.evaluate r = (.ok b, r') →
        (Expression.binary (.arithmetic op) left right).result r =
          (.ok (op.value ((r'.get? (.text name)).getD 0) (r'.value b)), r') := by
  obtain ⟨t, hUnique, rfl⟩ := Program.exists_expression_of_ofSource h
  refine ⟨t, hUnique, Machine.execute_postorder t, ?_, ?_⟩
  · intro m fault hFault
    obtain rfl := Machine.fault_of_execute hFault
    rfl
  · intro op left right name r r' b hName hRight
    simp only [Expression.result, Expression.evaluate, Expression.evaluate_of_name? hName, hRight,
      Operator.run, Registers.value]

/-- The left operand is looked up after the right one has assigned to it. -/
theorem execute_late_read :
    ∃ p, Program.ofSource "a + (a = 5)" = .ok p ∧ ∀ m : Machine,
      ((p.execute m).1, (p.execute m).2.store) = (.ok 10, m.store.set (.text "a") 5) := by
  let t : Expression := .binary (.arithmetic .add) (.identifier "a")
    (.group (.binary .assign (.identifier "a") (.number "5")))
  have hDerives : Derives 0 (scan "a + (a = 5)").lexemes t := by decide +kernel
  have hSource := Program.ofSource_of_derives (by decide +kernel) hDerives (by decide)
  have hFive : Expression.numeralValue "5".toList = 5 := by decide +kernel
  have hTen : Arithmetic.add.value 5 5 = 10 := by decide +kernel
  refine ⟨_, hSource, ?_⟩
  intro m
  obtain ⟨s, hUnique, hRun, -, -⟩ := execute_eq_result hSource
  rw [hRun m, ← (hUnique t).mp hDerives]
  simp only [t, Expression.result, Expression.evaluate, Operator.run, Registers.value, hFive,
    Registers.get?_set, if_true, Option.getD_some, hTen]

end StackCalc
