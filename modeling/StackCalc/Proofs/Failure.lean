import StackCalc.Proofs.Optimization

/-! How runs fail. Whether the program of a source fails, and what it then leaves on the stack, is
decided by its text: by the left operands of its assignments, and by the operators that still wait
when the first assignment cannot be made. Folding fails for fewer sources, since it takes every
value that depends on a register for one that can be assigned to. -/
namespace StackCalc

/-- The register that an element refers to. -/
def Element.register? : Element → Option Name
  | .literal _ => none
  | .reference name => some name

namespace Expression

def targets : Expression → List Expression
  | .number _ | .negative _ | .identifier _ => []
  | .group t => t.targets
  | .binary .assign left right => left :: (left.targets ++ right.targets)
  | .binary (.arithmetic _) left right => left.targets ++ right.targets

def names : Expression → List String
  | .number _ | .negative _ => []
  | .identifier name => [name]
  | .group t => t.names
  | .binary _ left right => left.names ++ right.names

/-- The register that a bare name refers to. -/
def register? (t : Expression) : Option Name := t.name?.map Payload.text

/-- The left operands whose operators wait when the first assignment is reached that has no bare
name on its left, the innermost first. -/
def stranded? : Expression → Option (List Expression)
  | .number _ | .negative _ | .identifier _ => none
  | .group t => t.stranded?
  | .binary op left right =>
    match left.stranded?, right.stranded? with
    | some waiting, _ => some waiting
    | none, some waiting => some (waiting ++ [left])
    | none, none => if op = .assign ∧ left.name? = none then some [] else none

theorem mem_targets_binary {op : Operator} {left right target : Expression} :
    target ∈ (binary op left right).targets ↔
      (op = .assign ∧ target = left) ∨ target ∈ left.targets ∨ target ∈ right.targets := by
  cases op <;> simp [targets]

theorem register?_eq_none_iff {t : Expression} : t.register? = none ↔ t.name? = none :=
  Option.map_eq_none_iff

theorem stranded?_eq_none_iff {t : Expression} :
    t.stranded? = none ↔ ∀ target ∈ t.targets, target.name? ≠ none := by
  induction t with
  | number | negative | identifier => simp [stranded?, targets]
  | group t ih => exact ih
  | binary op left right ihLeft ihRight =>
      cases op <;> cases hLeft : left.stranded? <;> cases hRight : right.stranded? <;>
        simp_all [stranded?, targets, or_imp, forall_and]

end Expression

namespace Machine

/-- The opcodes of an expression leave one element above the stack, a reference for a bare name and
a number for anything else. Or they stop at the first assignment that has no bare name on its left,
and then every left operand that waits has left its element. -/
theorem performAll_postorder_cases (t : Expression) (stack : List Element) (r : Registers) :
    (t.stranded? = none ∧ ∃ e r',
      Context.performAll ⟨stack, r⟩ t.postorder = (.ok (), ⟨e :: stack, r'⟩) ∧
      e.register? = t.register?) ∨
    ∃ waiting left r', t.stranded? = some waiting ∧
      Context.performAll ⟨stack, r⟩ t.postorder = (.error .notAssignable, ⟨left ++ stack, r'⟩) ∧
      left.map Element.register? = waiting.map Expression.register? := by
  induction t generalizing stack r with
  | number text => exact .inl ⟨rfl, _, _, rfl, rfl⟩
  | negative text => exact .inl ⟨rfl, _, _, rfl, rfl⟩
  | identifier name => exact .inl ⟨rfl, _, _, rfl, rfl⟩
  | group t ih => exact ih stack r
  | binary op left right ihLeft ihRight =>
      simp only [Expression.postorder, List.append_assoc, Expression.stranded?]
      rcases ihLeft stack r with
        ⟨hLeft, a, r₁, hRunLeft, hShape⟩ | ⟨waiting, rest, r₁, hLeft, hRunLeft, hRest⟩
      · rw [Context.performAll_append_of_ok hRunLeft, hLeft]
        rcases ihRight (a :: stack) r₁ with
          ⟨hRight, b, r₂, hRunRight, -⟩ | ⟨waiting, rest, r₂, hRight, hRunRight, hRest⟩
        · rw [Context.performAll_append_of_ok hRunRight, Context.performAll_singleton,
            perform_operator, hRight]
          -- Both operands are there, and the target decides.
          cases op with
          | arithmetic a => exact .inl ⟨by simp, _, _, rfl, rfl⟩
          | assign =>
              cases a with
              | literal x =>
                  have hName := Expression.register?_eq_none_iff.mp hShape.symm
                  exact .inr ⟨[], [], r₂, by simp [hName], rfl, rfl⟩
              | reference name =>
                  have hName : left.name? ≠ none := by
                    intro hNone
                    rw [Expression.register?_eq_none_iff.mpr hNone] at hShape
                    cases hShape
                  exact .inl ⟨by simp [hName], _, _, rfl, rfl⟩
        · -- The right operand fails, and the left one stays on the stack.
          refine .inr ⟨waiting ++ [left], rest ++ [a], r₂, by rw [hRight], ?_, ?_⟩
          · rw [Context.performAll_append_of_error hRunRight, List.append_assoc,
              List.singleton_append]
          · rw [List.map_append, List.map_append, hRest, List.map_singleton, List.map_singleton,
              hShape]
      · exact .inr ⟨waiting, rest, r₁, by rw [hLeft],
          Context.performAll_append_of_error hRunLeft _, hRest⟩

/-- Executing takes the one element away again. What a failing run has left stays. -/
theorem execute_postorder_cases (t : Expression) (m : Machine) :
    (t.stranded? = none ∧ ∃ x r', m.execute t.postorder = (.ok x, ⟨m.stack, r'⟩)) ∨
    ∃ waiting left r', t.stranded? = some waiting ∧
      m.execute t.postorder = (.error .notAssignable, ⟨left ++ m.stack, r'⟩) ∧
      left.map Element.register? = waiting.map Expression.register? := by
  rcases performAll_postorder_cases t m.stack m.store with
    ⟨hNone, e, r', hRun, -⟩ | ⟨waiting, left, r', hSome, hRun, hLeft⟩
  · refine .inl ⟨hNone, r'.value e, r', ?_⟩
    change m.performAll t.postorder = _ at hRun
    simp only [Context.execute, hRun, popValue_cons]
  · refine .inr ⟨waiting, left, r', hSome, ?_, hLeft⟩
    change m.performAll t.postorder = _ at hRun
    simp only [Context.execute, hRun]

end Machine

namespace Replay

/-- In a replay an expression without names leaves a number, and any other one a reference. So only
a target without names is refused. -/
theorem performAll_postorder_cases (standIn : Float) (t : Expression) (stack : List Element) :
    (∃ e, (settled standIn stack).performAll t.postorder =
        (.ok (), settled standIn (e :: stack)) ∧
      e.isLiteral = t.names.isEmpty ∧ ∀ target ∈ t.targets, target.names ≠ []) ∨
    ((settled standIn stack).performAll t.postorder).1 = .error .notAssignable ∧
      ∃ target ∈ t.targets, target.names = [] := by
  induction t generalizing stack with
  | number text => exact .inl ⟨_, rfl, rfl, by simp [Expression.targets]⟩
  | negative text => exact .inl ⟨_, rfl, rfl, by simp [Expression.targets]⟩
  | identifier name => exact .inl ⟨_, rfl, rfl, by simp [Expression.targets]⟩
  | group t ih => exact ih stack
  | binary op left right ihLeft ihRight =>
      simp only [Expression.postorder, List.append_assoc]
      rcases ihLeft stack with
        ⟨a, hRunLeft, hLeft, hLeftTargets⟩ | ⟨hFault, target, hTarget, hNone⟩
      · rw [Context.performAll_append_of_ok hRunLeft]
        rcases ihRight (a :: stack) with
          ⟨b, hRunRight, hRight, hRightTargets⟩ | ⟨hFault, target, hTarget, hNone⟩
        · rw [Context.performAll_append_of_ok hRunRight, Context.performAll_singleton]
          have hTargets : ∀ target ∈ left.targets ++ right.targets, target.names ≠ [] :=
            List.forall_mem_append.mpr ⟨hLeftTargets, hRightTargets⟩
          have hNames : (Expression.binary op left right).names.isEmpty =
              (a.isLiteral && b.isLiteral) := by
            rw [hLeft, hRight, Expression.names]
            cases left.names <;> rfl
          rw [hNames]
          cases op with
          | arithmetic op =>
              refine .inl ?_
              have hRun := calculate_settled standIn a b stack op
              cases a <;> cases b <;> exact ⟨_, hRun, rfl, hTargets⟩
          | assign =>
              cases a with
              | literal x =>
                  refine .inr ⟨assign_settled_literal standIn b x stack, left, ?_, ?_⟩
                  · exact List.mem_cons_self
                  · exact List.isEmpty_iff.mp hLeft.symm
              | reference name =>
                  refine .inl ⟨_, assign_settled standIn b name stack, rfl, ?_⟩
                  refine List.forall_mem_cons.mpr ⟨?_, hTargets⟩
                  exact List.isEmpty_eq_false_iff.mp hLeft.symm
        · exact .inr ⟨Context.performAll_append_fault hFault _, target,
            Expression.mem_targets_binary.mpr (.inr (.inr hTarget)), hNone⟩
      · exact .inr ⟨Context.performAll_append_fault hFault _, target,
          Expression.mem_targets_binary.mpr (.inr (.inl hTarget)), hNone⟩

end Replay

theorem foldWith_postorder_cases (standIn : Float) (t : Expression) :
    (∃ folded, foldWith standIn t.postorder = .ok folded ∧
      ∀ target ∈ t.targets, target.names ≠ []) ∨
    foldWith standIn t.postorder = .error .notAssignable ∧
      ∃ target ∈ t.targets, target.names = [] := by
  have hReplay := Replay.performAll_postorder_cases standIn t []
  cases hSteps : (Folder.start standIn).steps t.postorder with
  | error fault =>
      have hFault := Folder.performAll_of_steps_error hSteps
      change ((Replay.settled standIn []).performAll t.postorder).1 = _ at hFault
      rcases hReplay with ⟨e, hRun, -⟩ | ⟨hRefused, hTarget⟩
      · rw [hRun] at hFault
        cases hFault
      · rw [hRefused] at hFault
        cases hFault
        exact .inr ⟨by simp only [foldWith, hSteps], hTarget⟩
  | ok f =>
      have hRun := Folder.performAll_of_steps hSteps
      change (Replay.settled standIn []).performAll t.postorder = _ at hRun
      rcases hReplay with ⟨e, -, -, hTargets⟩ | ⟨hRefused, -⟩
      · refine .inl ?_
        simp only [foldWith, hSteps]
        split <;> exact ⟨_, rfl, hTargets⟩
      · rw [hRun] at hRefused
        cases hRefused

theorem Program.execute_error_iff {t : Expression} {m : Machine} {fault : Fault} :
    ((Program.mk t.postorder).execute m).1 = .error fault ↔
      fault = .notAssignable ∧ ∃ target ∈ t.targets, target.name? = none := by
  have hTargets := Expression.stranded?_eq_none_iff (t := t)
  rw [execute]
  rcases Machine.execute_postorder_cases t m with
    ⟨hNone, x, r, hRun⟩ | ⟨waiting, left, r, hSome, hRun, -⟩
  · rw [hRun]
    simpa using fun _ => hTargets.mp hNone
  · have hFound : ∃ target ∈ t.targets, target.name? = none := by
      simpa [hSome] using hTargets
    rw [hRun, and_iff_left hFound]
    exact ⟨fun hFault => (Except.error.inj hFault).symm, fun hFault => hFault ▸ rfl⟩

theorem Program.optimize_error_iff {t : Expression} {fault : Fault} :
    (Program.mk t.postorder).optimize = .error fault ↔
      fault = .notAssignable ∧ ∃ target ∈ t.targets, target.names = [] := by
  rw [optimize_eq, fold]
  rcases foldWith_postorder_cases registerStandIn t with
    ⟨folded, hFold, hTargets⟩ | ⟨hFold, hTarget⟩
  · rw [hFold]
    constructor
    · intro hFault
      cases hFault
    · intro ⟨_, target, hMem, hNone⟩
      exact absurd hNone (hTargets target hMem)
  · rw [hFold, and_iff_left hTarget]
    exact ⟨fun hFault => (Except.error.inj hFault).symm, fun hFault => hFault ▸ rfl⟩

/-- Whether a source that compiles fails when it is run is decided by its text. It fails on some
machine exactly if it fails on every machine, and exactly if some assignment has anything but a bare
name on its left; brackets do not count. Folding fails exactly if the left side of some assignment
has no name in it at all. There is no other fault, in running and in folding. -/
theorem execute_error_iff_target {source : String} {p : Program}
    (h : Program.ofSource source = .ok p) :
    ∃ t, (∀ s, Derives 0 (scan source).lexemes s ↔ s = t) ∧
      ((∃ (m : Machine) (fault : Fault), (p.execute m).1 = .error fault) ↔
        ∀ m : Machine, ∃ fault, (p.execute m).1 = .error fault) ∧
      ((∀ m : Machine, ∃ fault, (p.execute m).1 = .error fault) ↔
        ∃ target ∈ t.targets, target.name? = none) ∧
      (∀ (m : Machine) (fault : Fault), (p.execute m).1 = .error fault → fault = .notAssignable) ∧
      ((∃ fault, p.optimize = .error fault) ↔ ∃ target ∈ t.targets, target.names = []) ∧
      (∀ fault, p.optimize = .error fault → fault = .notAssignable) ∧
      Fault.notAssignable.message = "Can only assign to a variable" := by
  obtain ⟨t, hUnique, rfl⟩ := Program.exists_expression_of_ofSource h
  have hFails : ∀ m : Machine, (∃ fault, ((Program.mk t.postorder).execute m).1 = .error fault) ↔
      ∃ target ∈ t.targets, target.name? = none := by
    intro m
    simp only [Program.execute_error_iff, exists_eq_left]
  refine ⟨t, hUnique, ⟨?_, ?_⟩, ⟨?_, ?_⟩, ?_, ?_, ?_, rfl⟩
  · rintro ⟨m, hFault⟩ m'
    exact (hFails m').mpr ((hFails m).mp hFault)
  · intro hAll
    exact ⟨.fresh .empty, hAll _⟩
  · intro hAll
    exact (hFails (.fresh .empty)).mp (hAll _)
  · intro hTarget m
    exact (hFails m).mpr hTarget
  · intro m fault hFault
    exact (Program.execute_error_iff.mp hFault).1
  · simp only [Program.optimize_error_iff, exists_eq_left]
  · intro fault hFault
    exact (Program.optimize_error_iff.mp hFault).1

/-- The target of the last assignment is a value, so the source fails on every machine. But there is
a name in it, so folding goes through. -/
theorem execute_error_of_assigned_target :
    ∃ p, Program.ofSource "((a)) = 2 + ((b = 3) = 4)" = .ok p ∧
      (∀ m : Machine, ∃ fault, (p.execute m).1 = .error fault) ∧
      ¬ ∃ fault, p.optimize = .error fault := by
  let t : Expression := .binary .assign (.group (.group (.identifier "a")))
    (.binary (.arithmetic .add) (.number "2")
      (.group (.binary .assign (.group (.binary .assign (.identifier "b") (.number "3")))
        (.number "4"))))
  have hDerives : Derives 0 (scan "((a)) = 2 + ((b = 3) = 4)").lexemes t := by decide +kernel
  have hSource := Program.ofSource_of_derives (by decide +kernel) hDerives (by decide)
  obtain ⟨s, hUnique, -, hFails, -, hFolds, -⟩ := execute_error_iff_target hSource
  obtain rfl := (hUnique t).mp hDerives
  exact ⟨_, hSource, hFails.mpr (by decide), fun hFault => absurd (hFolds.mp hFault) (by decide)⟩

/-- Elements refer to registers as the operands do that left them. -/
theorem exists_reference_iff {left : List Element} {operands : List Expression}
    (h : left.map Element.register? = operands.map Expression.register?) :
    (∃ name, .reference name ∈ left) ↔ ∃ operand ∈ operands, operand.name? ≠ none := by
  have hLeft : (∃ name, .reference name ∈ left) ↔
      ∃ name, some name ∈ left.map Element.register? := by
    simp only [List.mem_map]
    constructor
    · rintro ⟨name, hMem⟩
      exact ⟨name, _, hMem, rfl⟩
    · rintro ⟨name, e, hMem, hName⟩
      cases e with
      | literal x => cases hName
      | reference other => exact ⟨other, hMem⟩
  rw [hLeft, h]
  simp only [List.mem_map, Expression.register?, Option.map_eq_some_iff, ne_eq,
    Option.ne_none_iff_exists']
  constructor
  · rintro ⟨_, operand, hMem, name, hName, -⟩
    exact ⟨operand, hMem, name, hName⟩
  · rintro ⟨operand, hMem, name, hName⟩
    exact ⟨_, operand, hMem, name, hName, rfl⟩

/-- What a run leaves on the stack. If it has a result, the stack is what it was. If it fails, every
left operand that waits at the failing assignment has left one element above it, a reference if it
is a bare name and a number otherwise. So the stack is what it was exactly if nothing waits, and a
reference outlives the run exactly if a bare name waits. -/
theorem stack_after_execute {source : String} {p : Program} (h : Program.ofSource source = .ok p)
    (m : Machine) :
    ∃ t left, (∀ s, Derives 0 (scan source).lexemes s ↔ s = t) ∧
      (p.execute m).2.stack = left ++ m.stack ∧
      left.map Element.register? = (t.stranded?.getD []).map Expression.register? ∧
      ((∃ x, (p.execute m).1 = .ok x) ↔ t.stranded? = none) ∧
      ((p.execute m).2.stack = m.stack ↔ t.stranded?.getD [] = []) ∧
      ((∃ name, .reference name ∈ left) ↔
        ∃ operand ∈ t.stranded?.getD [], operand.name? ≠ none) := by
  obtain ⟨t, hUnique, rfl⟩ := Program.exists_expression_of_ofSource h
  rcases Machine.execute_postorder_cases t m with
    ⟨hNone, x, r, hRun⟩ | ⟨waiting, left, r, hSome, hRun, hLeft⟩
  · refine ⟨t, [], hUnique, ?_⟩
    simp [Program.execute, hRun, hNone]
  · refine ⟨t, left, hUnique, ?_⟩
    simp only [Program.execute, hRun, hSome, Option.getD_some]
    have hNil : left = [] ↔ waiting = [] := by
      rw [← List.map_eq_nil_iff (f := Element.register?), hLeft, List.map_eq_nil_iff]
    refine ⟨trivial, hLeft, by simp, ?_, exists_reference_iff hLeft⟩
    rw [List.append_left_eq_self, hNil]

/-- Two operators wait when the assignment fails. -/
theorem stack_after_nested_fault :
    ∃ p, Program.ofSource "x * (2 + ((b = 1) = 3))" = .ok p ∧
      ∀ m : Machine, ∃ left, (p.execute m).2.stack = left ++ m.stack ∧
        left.map Element.register? = [none, some (.text "x")] := by
  let t : Expression := .binary (.arithmetic .multiply) (.identifier "x")
    (.group (.binary (.arithmetic .add) (.number "2")
      (.group (.binary .assign (.group (.binary .assign (.identifier "b") (.number "1")))
        (.number "3")))))
  have hDerives : Derives 0 (scan "x * (2 + ((b = 1) = 3))").lexemes t := by decide +kernel
  have hSource := Program.ofSource_of_derives (by decide +kernel) hDerives (by decide)
  refine ⟨_, hSource, ?_⟩
  intro m
  obtain ⟨s, left, hUnique, hStack, hLeft, -⟩ := stack_after_execute hSource m
  obtain rfl := (hUnique t).mp hDerives
  exact ⟨left, hStack, hLeft⟩

/-- A run on an empty stack that fails leaves a reference there. -/
theorem stack_keeps_reference :
    ∃ p, Program.ofSource "a + (1 = 2)" = .ok p ∧
      (p.execute (Context.fresh Registers.empty)).1 = .error .notAssignable ∧
      (p.execute (Context.fresh Registers.empty)).2.stack = [.reference (.text "a")] := by
  let t : Expression := .binary (.arithmetic .add) (.identifier "a")
    (.group (.binary .assign (.number "1") (.number "2")))
  have hSource : Program.ofSource "a + (1 = 2)" = .ok ⟨t.postorder⟩ :=
    Program.ofSource_of_derives (by decide +kernel) (by decide +kernel) (by decide)
  exact ⟨_, hSource, rfl, rfl⟩

end StackCalc
