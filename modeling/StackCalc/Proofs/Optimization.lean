import StackCalc.CommandLine.Command
import StackCalc.Proofs.Evaluation
import StackCalc.Proofs.Folding

/-! Folding compiled programs. The opcodes of an expression and what they are folded to do the same
on every machine, whatever its registers and its stack are. If folding stops at a fault, the program
stops at that fault on every machine. So nobody can tell from an answer whether it was computed by a
folded program. -/
namespace StackCalc

/-- Folding the opcodes of an expression keeps what they do on a machine. The constant that is left
of them may replace them all, since they leave a single element. -/
theorem performAll_of_foldWith {standIn : Float} {t : Expression} {folded : Folded}
    (h : foldWith standIn t.postorder = .ok folded) (m : Machine) :
    m.performAll (folded.opcodes?.getD t.postorder) = m.performAll t.postorder := by
  obtain ⟨f, hSteps, hCases⟩ := foldWith_cases h
  obtain ⟨waiting, covered, hTracks⟩ := (Folder.Tracks.start standIn m).steps hSteps
  rw [List.nil_append] at hTracks
  rcases hCases with ⟨x, rest, hTop, rfl⟩ | ⟨hTop, rfl⟩
  · have hStack : f.replay.stack = [.literal x] := by
      obtain ⟨e, hStack⟩ := Context.stack_of_postorder (Folder.performAll_of_steps hSteps)
      rw [hTop] at hStack ⊢
      cases hStack
      rfl
    obtain ⟨rfl, rfl⟩ := hTracks.splits.of_stack_singleton hStack
    exact hTracks.performAll_constant
  · obtain rfl := hTracks.splits.waiting_eq_nil hTop
    split
    · exact hTracks.performAll_emitted
    · rfl

/-- A fault of folding the opcodes of an expression is their fault on every machine. -/
theorem performAll_of_foldWith_error {standIn : Float} {t : Expression} {fault : Fault}
    (h : foldWith standIn t.postorder = .error fault) (m : Machine) :
    (m.performAll t.postorder).1 = .error fault := by
  have hSteps : (Folder.start standIn).steps t.postorder = .error fault := by
    simp only [foldWith] at h
    split at h
    · cases h
      assumption
    · split at h <;> cases h
  obtain rfl := Context.fault_of_postorder (Folder.performAll_of_steps_error hSteps)
  have hFault := (Folder.Tracks.start standIn m).steps_error hSteps (by simp)
  rwa [or_self, List.nil_append] at hFault

namespace Program

theorem optimize_eq (p : Program) :
    p.optimize = (fold p.opcodes).map fun folded => ⟨folded.opcodes?.getD p.opcodes⟩ := by
  simp only [optimize, folded?]
  rcases fold p.opcodes with fault | _ | _ | _ <;> rfl

theorem exists_fold_of_optimize {p q : Program} (h : p.optimize = .ok q) :
    ∃ folded, fold p.opcodes = .ok folded ∧ q = ⟨folded.opcodes?.getD p.opcodes⟩ := by
  rw [optimize_eq] at h
  cases hFold : fold p.opcodes with
  | error fault =>
      rw [hFold] at h
      cases h
  | ok folded =>
      rw [hFold] at h
      cases h
      exact ⟨folded, rfl, rfl⟩

/-- What folding returns does on a machine what the opcodes of the expression do. -/
theorem execute_optimize {t : Expression} {q : Program}
    (h : (Program.mk t.postorder).optimize = .ok q) (m : Machine) :
    q.execute m = m.execute t.postorder := by
  obtain ⟨folded, hFold, rfl⟩ := exists_fold_of_optimize h
  simp only [execute, Context.execute, performAll_of_foldWith hFold m]

/-- The fault at which folding stops is the fault of the opcodes of the expression. -/
theorem execute_optimize_error {t : Expression} {fault : Fault}
    (h : (Program.mk t.postorder).optimize = .error fault) (m : Machine) :
    (m.execute t.postorder).1 = .error fault := by
  rw [optimize_eq] at h
  cases hFold : fold t.postorder with
  | error fault' =>
      rw [hFold] at h
      cases h
      exact Context.execute_fault (performAll_of_foldWith_error hFold m)
  | ok folded =>
      rw [hFold] at h
      cases h

end Program

/-- A folded program does exactly what the program does that a source compiles to, from every
machine: it has the same result or fault and leaves the same registers and the same stack, after a
fault too. Whether folding returns is another matter. -/
theorem optimize_preserves_execution {source : String} {p q : Program}
    (hp : Program.ofSource source = .ok p) (hq : p.optimize = .ok q) (m : Machine) :
    q.execute m = p.execute m := by
  obtain ⟨t, -, rfl⟩ := Program.exists_derives_of_ofSource hp
  exact Program.execute_optimize hq m

/-- Folding goes on where the program fails: its second assignment has a target that is no register,
but folding cannot know that. -/
theorem optimize_assigned_target :
    ∃ p q, Program.ofSource "(a = 2 * 3) = 4" = .ok p ∧ p.optimize = .ok q ∧ q.size < p.size ∧
      ∀ m : Machine, q.execute m = p.execute m := by
  let t : Expression := .binary .assign
    (.group (.binary .assign (.identifier "a")
      (.binary (.arithmetic .multiply) (.number "2") (.number "3"))))
    (.number "4")
  have hSource : Program.ofSource "(a = 2 * 3) = 4" = .ok ⟨t.postorder⟩ :=
    Program.ofSource_of_derives (by decide +kernel) (by decide +kernel) (by decide)
  refine ⟨_, ⟨[_, _, _, _, _]⟩, hSource, rfl, by decide, ?_⟩
  intro m
  exact optimize_preserves_execution hSource rfl m

/-- What an evaluation comes to does not depend on folding. The machine after it may: a fault of
folding comes before anything is assigned. -/
theorem evaluate_fst (source : String) (m : Machine) :
    (evaluate source true m).1 = (evaluate source false m).1 := by
  cases hSource : Program.ofSource source with
  | error e => simp only [evaluate, prepare, hSource]
  | ok p =>
      obtain ⟨t, -, rfl⟩ := Program.exists_derives_of_ofSource hSource
      simp only [evaluate, prepare, hSource, if_true, Bool.false_eq_true, if_false, Program.execute]
      cases hOptimize : (Program.mk t.postorder).optimize with
      | error fault =>
          rw [Program.execute_optimize_error hOptimize m]
          rfl
      | ok q =>
          rw [← Program.execute_optimize hOptimize m]
          rfl

theorem evaluate_fst_eq (source : String) (folding folding' : Bool) (m : Machine) :
    (evaluate source folding m).1 = (evaluate source folding' m).1 := by
  cases folding <;> cases folding' <;> simp only [evaluate_fst]

/-- An evaluation comes to what the expression comes to that the source is read as. -/
theorem evaluate_fst_of_ofSource {source : String} {t : Expression}
    (h : Program.ofSource source = .ok ⟨t.postorder⟩) (folding : Bool) (m : Machine) :
    (evaluate source folding m).1 = (t.result m.store).1.mapError .fault := by
  have hResult : (m.execute t.postorder).1 = (t.result m.store).1 :=
    congrArg Prod.fst (Machine.execute_postorder t m)
  rw [evaluate_fst_eq source folding false, ← hResult]
  simp only [evaluate, prepare, h, Bool.false_eq_true, if_false, Program.execute]

/-- What the command line prints for an expression does not depend on who decides on folding. -/
theorem Command.runEval_eq (settings : Settings) (folding : Bool) (expression : String)
    (assignments : List String) (choice choice' : Option Bool) :
    runEval { settings with optimize := folding } expression assignments choice =
      runEval settings expression assignments choice' := by
  simp only [runEval]
  cases readAssignments assignments with
  | error e => rfl
  | ok given =>
      have hMachine : evalMachine { settings with optimize := folding } given =
          evalMachine settings given := rfl
      have hReport := evaluate_fst_eq expression (choice.getD folding)
        (choice'.getD settings.optimize) (evalMachine settings given)
      simp only [hMachine]
      generalize evaluate expression (choice.getD folding) _ = left at hReport ⊢
      generalize evaluate expression (choice'.getD settings.optimize) _ = right at hReport ⊢
      rcases left with ⟨e | x, _⟩ <;> rcases right with ⟨e' | x', _⟩ <;> cases hReport <;> rfl

/-- Folding never shows in what is reported for an expression: neither when it is evaluated in some
machine, nor when the command line asks for it with registers from settings and assignments, whoever
decides there on folding. If folding itself stops at a fault, so does the program on every machine.
-/
theorem report_eq_of_folding :
    (∀ (source : String) (m : Machine),
      (evaluate source true m).1 = (evaluate source false m).1) ∧
    (∀ (settings : Settings) (folding : Bool) (expression : String) (assignments : List String)
      (choice choice' : Option Bool),
      Command.runEval { settings with optimize := folding } expression assignments choice =
        Command.runEval settings expression assignments choice') ∧
    ∀ (source : String) (p : Program) (fault : Fault), Program.ofSource source = .ok p →
      p.optimize = .error fault → ∀ m : Machine, (p.execute m).1 = .error fault := by
  refine ⟨evaluate_fst, Command.runEval_eq, ?_⟩
  intro source p fault hSource hOptimize m
  obtain ⟨t, -, rfl⟩ := Program.exists_derives_of_ofSource hSource
  exact Program.execute_optimize_error hOptimize m

/-- Folding stops at an assignment whose target is a number however it is computed. -/
theorem folding_stops_at_number :
    ∃ p, Program.ofSource "b + (1 + 2 = (a = 3))" = .ok p ∧
      p.optimize = .error .notAssignable ∧
      ∀ m : Machine, (p.execute m).1 = .error .notAssignable := by
  let t : Expression := .binary (.arithmetic .add) (.identifier "b")
    (.group (.binary .assign
      (.binary (.arithmetic .add) (.number "1") (.number "2"))
      (.group (.binary .assign (.identifier "a") (.number "3")))))
  have hSource : Program.ofSource "b + (1 + 2 = (a = 3))" = .ok ⟨t.postorder⟩ :=
    Program.ofSource_of_derives (by decide +kernel) (by decide +kernel) (by decide)
  exact ⟨_, hSource, rfl, report_eq_of_folding.2.2 _ _ _ hSource rfl⟩

end StackCalc
