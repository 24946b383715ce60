import StackCalc.Proofs.Footprint

/-! Folding in the interactive loop. The loop keeps one machine, and a line that fails leaves its
traces on it. With and without folding the stacks of that machine may come apart, but this never
shows. Its registers come apart only at a line where folding stops and a run without folding would
have set registers before it fails. -/
namespace StackCalc

namespace Expression
variable {t : Expression}

/-- Whether an evaluation fails does not depend on the registers. -/
theorem evaluate_cases (t : Expression) (r : Registers) :
    (t.stranded? = none ∧ ∃ e r', t.evaluate r = (.ok e, r')) ∨
      t.stranded? ≠ none ∧ ∃ fault r', t.evaluate r = (.error fault, r') := by
  have hAgrees := Machine.agrees_postorder t [] r
  rcases hEvaluate : t.evaluate r with ⟨fault | e, r'⟩ <;> rw [hEvaluate] at hAgrees
  · obtain ⟨left, hRun⟩ := hAgrees
    rcases Machine.performAll_postorder_cases t [] r with ⟨-, e, r₁, hOk, -⟩ | ⟨_, _, _, hSome, -⟩
    · rw [hOk] at hRun
      cases hRun
    · exact .inr ⟨by simp [hSome], fault, r', rfl⟩
  · have hRun : Context.performAll ⟨[], r⟩ t.postorder = (.ok (), ⟨[e], r'⟩) := hAgrees
    rcases Machine.performAll_postorder_cases t [] r with ⟨hNone, -⟩ | ⟨_, _, _, -, hError, -⟩
    · exact .inl ⟨hNone, e, r', rfl⟩
    · rw [hError] at hRun
      cases hRun

/-- Without a stranded assignment, an expression has a value in every store. -/
theorem exists_ok_evaluate (h : t.stranded? = none) (r : Registers) :
    ∃ e r', t.evaluate r = (.ok e, r') := by
  rcases t.evaluate_cases r with ⟨-, hOk⟩ | ⟨hNot, -⟩
  · exact hOk
  · exact absurd h hNot

/-- With a stranded assignment, an expression fails in every store. -/
theorem exists_error_evaluate (h : t.stranded? ≠ none) (r : Registers) :
    ∃ fault r', t.evaluate r = (.error fault, r') := by
  rcases t.evaluate_cases r with ⟨hNone, -⟩ | ⟨-, hError⟩
  · exact absurd hNone h
  · exact hError

/-- When no assignment is stranded in its operands, an operation applies its operator to them. -/
theorem evaluate_binary {left right : Expression} (hLeft : left.stranded? = none)
    (hRight : right.stranded? = none) (op : Operator) (r : Registers) :
    ∃ a b, a.register? = left.register? ∧
      (binary op left right).evaluate r = op.run a b (right.evaluate (left.evaluate r).2).2 := by
  obtain ⟨a, r₁, hRun⟩ := exists_ok_evaluate hLeft r
  obtain ⟨b, r₂, hRun'⟩ := exists_ok_evaluate hRight r₁
  exact ⟨a, b, register?_of_evaluate hRun, by simp only [evaluate, hRun, hRun']⟩

/-- What an operation does to the registers, whatever they are: the left operand alone, or both
operands one after the other, and then perhaps one assignment. -/
theorem store_evaluate_binary (op : Operator) (left right : Expression) :
    (∀ r, ((binary op left right).evaluate r).2 = (left.evaluate r).2) ∨
    (∀ r, ((binary op left right).evaluate r).2 = (right.evaluate (left.evaluate r).2).2) ∨
    ∃ name, ∀ r, ∃ x, ((binary op left right).evaluate r).2 =
      (right.evaluate (left.evaluate r).2).2.set name x := by
  by_cases hLeft : left.stranded? = none
  · by_cases hRight : right.stranded? = none
    · have hRun := evaluate_binary hLeft hRight op
      -- What the operator sets is the same for all registers.
      cases hSets : op.sets? left.register? with
      | none =>
          refine .inr (.inl fun r => ?_)
          obtain ⟨a, b, hRegister, hRun⟩ := hRun r
          rw [hRun, Operator.store_run, hRegister, hSets]
          rfl
      | some name =>
          refine .inr (.inr ⟨name, fun r => ?_⟩)
          obtain ⟨a, b, hRegister, hRun⟩ := hRun r
          rw [hRun, Operator.store_run, hRegister, hSets]
          exact ⟨_, rfl⟩
    · refine .inr (.inl fun r => ?_)
      obtain ⟨e, r₁, hRun⟩ := exists_ok_evaluate hLeft r
      obtain ⟨fault, r₂, hRun'⟩ := exists_error_evaluate hRight r₁
      simp only [evaluate, hRun, hRun']
  · refine .inl fun r => ?_
    obtain ⟨fault, r₁, hRun⟩ := exists_error_evaluate hLeft r
    simp only [evaluate, hRun]

/-- What is set stays set. -/
theorem eq_empty_of_evaluate {r : Registers} (h : (t.evaluate r).2 = .empty) : r = .empty := by
  have hNames := Machine.names_prefix_performAll ⟨[], r⟩ t.postorder
  rw [← Machine.store_execute, Machine.store_execute_postorder, h] at hNames
  have hNone : r.names = [] := List.prefix_nil.mp hNames
  exact Registers.ext (List.map_eq_nil_iff.mp hNone)

/-- An expression that sets nothing where no register is set sets nothing at all. -/
theorem evaluate_of_empty (h : (t.evaluate .empty).2 = .empty) (r : Registers) :
    (t.evaluate r).2 = r := by
  induction t generalizing r with
  | number | negative | identifier => rfl
  | group t ih => exact ih h r
  | binary op left right ihLeft ihRight =>
      rcases store_evaluate_binary op left right with hStore | hStore | ⟨name, hStore⟩
      · rw [hStore] at h ⊢
        exact ihLeft h r
      · rw [hStore] at h ⊢
        have hLeft := eq_empty_of_evaluate h
        rw [hLeft] at h
        rw [ihLeft hLeft, ihRight h]
      · obtain ⟨x, hSet⟩ := hStore .empty
        rw [hSet] at h
        exact absurd (congrArg Registers.entries h) (setEntry_ne_nil _ _ _)

end Expression

section
variable {source : String}

theorem prepare_of_ofSource {p : Program} (h : Program.ofSource source = .ok p) (optimize : Bool) :
    prepare source optimize = if optimize then p.optimize.mapError .fault else .ok p := by
  simp only [prepare, h]

/-- What is prepared for evaluation is balanced, optimized or not. -/
theorem balanced_of_prepare {optimize : Bool} {p : Program}
    (h : prepare source optimize = .ok p) : p.Balanced := by
  cases hSource : Program.ofSource source with
  | error e =>
      simp only [prepare, hSource] at h
      cases h
  | ok q =>
      have hBalanced := Program.balanced_of_ofSource hSource
      rw [prepare_of_ofSource hSource] at h
      cases optimize with
      | false =>
          cases h
          exact hBalanced
      | true =>
          cases hOptimize : q.optimize with
          | error fault =>
              rw [hOptimize] at h
              cases h
          | ok q' =>
              rw [hOptimize] at h
              cases h
              exact hBalanced.optimize hOptimize

/-- What lies on the stack shows neither in an evaluation nor in the registers after it. -/
theorem evaluate_of_store (source : String) (optimize : Bool) {m m' : Machine}
    (h : m.store = m'.store) :
    (evaluate source optimize m).1 = (evaluate source optimize m').1 ∧
      (evaluate source optimize m).2.store = (evaluate source optimize m').2.store := by
  simp only [evaluate]
  cases hPrepare : prepare source optimize with
  | error e => exact ⟨rfl, h⟩
  | ok p =>
      obtain ⟨hOutcome, hStore⟩ := (balanced_of_prepare hPrepare).execute_of_store h
      exact ⟨congrArg (Except.mapError EvaluationError.fault) hOutcome, hStore⟩

/-- Where folding stops, a run of the expression would not have set a register. -/
def FoldsSafely (source : String) : Prop :=
  ∀ fault, prepare source true = .error (.fault fault) →
    ∀ m : Machine, (evaluate source false m).2.store = m.store

theorem foldsSafely_of_isOk (h : (prepare source true).isOk = true) : FoldsSafely source := by
  intro fault hFault
  rw [hFault] at h
  cases h

theorem store_evaluate_of_fault {fault : Fault}
    (h : prepare source true = .error (.fault fault)) (m : Machine) :
    (evaluate source true m).2.store = m.store := by
  simp only [evaluate, h]

/-- A line that folds safely leaves the same registers with and without optimization. -/
theorem store_evaluate (h : FoldsSafely source) (m : Machine) :
    (evaluate source true m).2.store = (evaluate source false m).2.store := by
  cases hSource : Program.ofSource source with
  | error e => simp only [evaluate, prepare, hSource]
  | ok p =>
      obtain ⟨t, -, rfl⟩ := Program.exists_derives_of_ofSource hSource
      have hFolded := prepare_of_ofSource hSource true
      have hPlain := prepare_of_ofSource hSource false
      cases hOptimize : (Program.mk t.postorder).optimize with
      | error fault =>
          rw [hOptimize] at hFolded
          rw [store_evaluate_of_fault hFolded, h fault hFolded]
      | ok q =>
          rw [hOptimize] at hFolded
          simp only [evaluate, hFolded, hPlain]
          exact congrArg (fun run => run.2.store) (Program.execute_optimize hOptimize m)

end

namespace Repl

/-- A line shows the same with and without folding, and it leaves the same registers. -/
theorem react_of_store (settings : Settings) {m m' : Machine} (hStore : m.store = m'.store)
    {input : Input} (hSafe : ∀ source, input = .expression source → FoldsSafely source) :
    (react { settings with optimize := true } m input).1 =
        (react { settings with optimize := false } m' input).1 ∧
      (react { settings with optimize := true } m input).2.map Context.store =
        (react { settings with optimize := false } m' input).2.map Context.store := by
  cases input with
  | blank => exact ⟨rfl, congrArg some hStore⟩
  | quit => exact ⟨rfl, rfl⟩
  | list =>
      simp only [react, hStore]
      cases listing m'.store with
      | error e => exact ⟨rfl, rfl⟩
      | ok text => exact ⟨rfl, congrArg some hStore⟩
  | clear => exact ⟨rfl, rfl⟩
  | expression source =>
      obtain ⟨hOutcome, hAfter⟩ := evaluate_of_store source false hStore
      rw [← evaluate_fst source m] at hOutcome
      rw [← store_evaluate (hSafe source rfl) m] at hAfter
      simp only [react]
      generalize evaluate source true m = left at hOutcome hAfter ⊢
      generalize evaluate source false m' = right at hOutcome hAfter ⊢
      rcases left with ⟨e | x, left⟩ <;> rcases right with ⟨e' | x', right⟩ <;> cases hOutcome
      · exact ⟨rfl, congrArg some hAfter⟩
      · exact ⟨rfl, congrArg (fun r : Registers => some (r.set _ x)) hAfter⟩

/-- The run lemma: sessions from machines with one store print the same when every line folds
safely. -/
theorem run_of_store (settings : Settings) {m m' : Machine} (hStore : m.store = m'.store)
    {lines : List String}
    (hSafe : ∀ line ∈ lines, ∀ source, Input.ofLine line = .expression source →
      FoldsSafely source) :
    (run { settings with optimize := true } m lines).1 =
        (run { settings with optimize := false } m' lines).1 ∧
      (run { settings with optimize := true } m lines).2.store =
        (run { settings with optimize := false } m' lines).2.store := by
  induction lines generalizing m m' with
  | nil => exact ⟨rfl, hStore⟩
  | cons line rest ih =>
      obtain ⟨hLine, hRest⟩ := List.forall_mem_cons.mp hSafe
      obtain ⟨hEvents, hNext⟩ := react_of_store settings hStore hLine
      simp only [run]
      generalize react { settings with optimize := true } m (.ofLine line) = left at hEvents hNext ⊢
      generalize react { settings with optimize := false } m' (.ofLine line) = right
        at hEvents hNext ⊢
      rcases left with ⟨events, _ | left⟩ <;> rcases right with ⟨events', _ | right⟩ <;>
        cases hEvents
      · exact ⟨rfl, hStore⟩
      · cases hNext
      · cases hNext
      · obtain ⟨hMore, hLast⟩ := ih (Option.some.inj hNext) hRest
        exact ⟨congrArg (fun more => .prompt :: events ++ more) hMore, hLast⟩

/-- What is left after a single line that fails. -/
theorem store_run_of_error (settings : Settings) {m : Machine} {line source : String}
    (hLine : Input.ofLine line = .expression source) {e : EvaluationError}
    (hError : (evaluate source settings.optimize m).1 = .error e) :
    (run settings m [line]).2.store = (evaluate source settings.optimize m).2.store := by
  simp only [run, hLine, react]
  generalize evaluate source settings.optimize m = outcome at hError ⊢
  rcases outcome with ⟨_ | x, m'⟩
  · rfl
  · cases hError

/-- A line that does not fold safely leaves different registers with and without folding, even if no
register was set before. -/
theorem store_run_ne {line source : String} (hLine : Input.ofLine line = .expression source)
    (hUnsafe : ¬ FoldsSafely source) {settings : Settings} (hEmpty : settings.registers = .empty) :
    (run { settings with optimize := true } settings.machine.1 [line]).2.store ≠
      (run { settings with optimize := false } settings.machine.1 [line]).2.store := by
  simp only [FoldsSafely, Classical.not_forall] at hUnsafe
  obtain ⟨fault, hFault, m, hLost⟩ := hUnsafe
  have hStart : settings.machine.1.store = .empty :=
    settings.registers.mergeInto_empty.trans hEmpty
  generalize settings.machine.1 = start at hStart
  have hFolded : (evaluate source true start).1 = .error (.fault fault) := by
    simp only [evaluate, hFault]
  have hPlain : (evaluate source false start).1 = .error (.fault fault) := by
    rw [← evaluate_fst, hFolded]
  rw [store_run_of_error { settings with optimize := true } hLine hFolded,
    store_run_of_error { settings with optimize := false } hLine hPlain,
    store_evaluate_of_fault hFault, hStart]
  intro hSame
  apply hLost
  -- Both runs are those of one expression, from different registers.
  cases hSource : Program.ofSource source with
  | error e => simp only [evaluate, prepare, hSource]
  | ok p =>
      obtain ⟨t, -, rfl⟩ := Program.exists_derives_of_ofSource hSource
      have hStore : ∀ m : Machine, (evaluate source false m).2.store = (t.evaluate m.store).2 := by
        intro m
        simp only [evaluate, prepare_of_ofSource hSource]
        exact Machine.store_execute_postorder t m
      rw [hStore, hStart] at hSame
      rw [hStore]
      exact Expression.evaluate_of_empty hSame.symm m.store

/-- The loop shows the same with and without folding, and it leaves the same registers, if every
line folds safely: where folding stops, nothing would have been assigned. The condition cannot be
weakened for any line: one that does not fold safely leaves different registers, even if the
settings bring in none. -/
theorem run_of_foldsSafely (settings : Settings) (lines : List String) :
    ((∀ line ∈ lines, ∀ source, Input.ofLine line = .expression source → FoldsSafely source) →
      (run { settings with optimize := true } settings.machine.1 lines).1 =
          (run { settings with optimize := false } settings.machine.1 lines).1 ∧
        (run { settings with optimize := true } settings.machine.1 lines).2.store =
          (run { settings with optimize := false } settings.machine.1 lines).2.store) ∧
    ∀ line ∈ lines, ∀ source, Input.ofLine line = .expression source → ¬ FoldsSafely source →
      ∀ other : Settings, other.registers = .empty →
        (run { other with optimize := true } other.machine.1 [line]).2.store ≠
          (run { other with optimize := false } other.machine.1 [line]).2.store := by
  constructor
  · intro hSafe
    exact run_of_store settings rfl hSafe
  · intro line _ source hLine hUnsafe other hEmpty
    exact store_run_ne hLine hUnsafe hEmpty

/-- The first line fails only when it is run, after it has set two registers. Folding stops at the
second one, but nothing is assigned there. The third line finds what the first has left. -/
theorem run_keeps_assigned :
    let lines := ["(b = 2) + ((a = 3) = 4)", "1 = 2", "b"]
    let start := (Settings.machine {}).1
    (run { optimize := true } start lines).1 = (run { optimize := false } start lines).1 ∧
      .output "2\n" ∈ (run { optimize := true } start lines).1 := by
  intro lines start
  have hHarmless : FoldsSafely "1 = 2" := by
    intro fault _ m
    let t : Expression := .binary .assign (.number "1") (.number "2")
    have hSource : Program.ofSource "1 = 2" = .ok ⟨t.postorder⟩ :=
      Program.ofSource_of_derives (by decide +kernel) (by decide +kernel) (by decide)
    simp only [evaluate, prepare_of_ofSource hSource]
    exact congrArg Prod.snd (Machine.execute_postorder t m)
  have hSafe : ∀ line ∈ lines, ∀ source, Input.ofLine line = .expression source →
      FoldsSafely source := by
    intro line hLine source hSource
    have hInputs : lines.map Input.ofLine =
        [.expression "(b = 2) + ((a = 3) = 4)", .expression "1 = 2", .expression "b"] := by
      decide +kernel
    have hMem := List.mem_map_of_mem (f := Input.ofLine) hLine
    rw [hInputs, hSource] at hMem
    simp only [List.mem_cons, Input.expression.injEq, List.not_mem_nil, or_false] at hMem
    rcases hMem with rfl | rfl | rfl
    · exact foldsSafely_of_isOk (by decide +kernel)
    · exact hHarmless
    · exact foldsSafely_of_isOk (by decide +kernel)
  exact ⟨((run_of_foldsSafely {} lines).1 hSafe).1, by decide +kernel⟩

/-- At such a line folding stops before anything is run, so the register is not set. -/
theorem run_loses_assigned :
    let lines := ["(a = 5) + (1 = 2)", ":regs"]
    let start := (Settings.machine {}).1
    .output "No registers set\n" ∈ (run { optimize := true } start lines).1 ∧
      .output "No registers set\n" ∉ (run { optimize := false } start lines).1 := by
  decide +kernel

end Repl

end StackCalc
