import StackCalc.Proofs.Failure
import StackCalc.Proofs.Scanning

/-! Which registers a run can set. Evaluating an expression sets at most the registers whose bare
names stand on the left of its assignments, and these names have the pattern of the scanner. All
other registers keep their values, also when the evaluation fails. -/
namespace StackCalc

/-- The names that are set, in the order of their first appearance. -/
def Registers.names (r : Registers) : List Name := r.entries.map Prod.fst

def Registers.keys (r : Registers) : List Name := r.names.map Payload.key

/-- A text is equal to no other name. -/
theorem Payload.key_eq_text_iff {name : Name} {s : String} :
    name.key = .text s ↔ name = .text s := by
  cases name <;> simp [key]

namespace Registers

theorem get?_eq_none_iff {r : Registers} {name : Name} :
    r.get? name = none ↔ name.key ∉ r.keys := by
  rw [get?, Option.map_eq_none_iff, find?_key_eq_none_iff, keys, names, List.map_map]
  rfl

/-- A name that is set keeps its place, and a new one comes behind the others. -/
theorem names_set (r : Registers) (name : Name) (x : Float) :
    (r.set name x).names = if name.key ∈ r.keys then r.names else r.names ++ [name] :=
  map_fst_setEntry name x r.entries

end Registers

/-- The register that an operator sets, by what its left operand refers to. -/
def Operator.sets? : Operator → Option Name → Option Name
  | .arithmetic _, _ => none
  | .assign, target => target

theorem Operator.sets?_eq_some_iff {op : Operator} {target : Option Name} {name : Name} :
    op.sets? target = some name ↔ op = .assign ∧ target = some name := by
  cases op <;> simp [sets?]

/-- An operator sets its target and no other register. -/
theorem Operator.store_run (op : Operator) (left right : Element) (r : Registers) :
    (op.run left right r).2 =
      (op.sets? left.register?).elim r fun name => r.set name (r.value right) := by
  cases op with
  | arithmetic a => rfl
  | assign => cases left <;> rfl

theorem Operator.register?_of_run {op : Operator} {left right e : Element} {r r' : Registers}
    (h : op.run left right r = (.ok e, r')) : e.register? = none := by
  cases op with
  | arithmetic a =>
      cases h
      rfl
  | assign =>
      cases left with
      | literal x => cases h
      | reference name =>
          cases h
          rfl

namespace Expression

/-- What an expression is evaluated to is a reference for a bare name only. -/
theorem register?_of_evaluate {t : Expression} {r r' : Registers} {e : Element}
    (h : t.evaluate r = (.ok e, r')) : e.register? = t.register? := by
  induction t generalizing r r' e with
  | number | negative | identifier =>
      cases h
      rfl
  | group t ih => exact ih h
  | binary op left right =>
      simp only [evaluate] at h
      split at h
      · cases h
      · split at h
        · cases h
        · exact Operator.register?_of_run h

/-- An evaluation sets targets and does nothing else to the registers: what setting a target
preserves, the evaluation preserves. -/
theorem evaluate_invariant {t : Expression} {P : Registers → Prop} {r : Registers}
    (hSet : ∀ target ∈ t.targets, ∀ name, target.register? = some name →
      ∀ r x, P r → P (r.set name x))
    (h : P r) : P (t.evaluate r).2 := by
  induction t generalizing r with
  | number | negative | identifier => exact h
  | group t ih => exact ih hSet h
  | binary op left right ihLeft ihRight =>
      simp only [mem_targets_binary] at hSet
      have hLeft : P (left.evaluate r).2 :=
        ihLeft (fun target hTarget => hSet target (.inr (.inl hTarget))) h
      simp only [evaluate]
      rcases hRunLeft : left.evaluate r with ⟨fault | a, r₁⟩ <;> rw [hRunLeft] at hLeft
      · exact hLeft
      · have hRight : P (right.evaluate r₁).2 :=
          ihRight (fun target hTarget => hSet target (.inr (.inr hTarget))) hLeft
        dsimp only
        generalize right.evaluate r₁ = outcome at hRight ⊢
        rcases outcome with ⟨fault | b, r₂⟩
        · exact hRight
        · rw [Operator.store_run, register?_of_evaluate hRunLeft]
          cases hName : op.sets? left.register? with
          | none => exact hRight
          | some name =>
              obtain ⟨hAssign, hTarget⟩ := Operator.sets?_eq_some_iff.mp hName
              exact hSet left (.inl ⟨hAssign, rfl⟩) name hTarget r₂ _ hRight

/-- A register whose bare name is no target keeps its value. -/
theorem get?_evaluate {t : Expression} {name : Name}
    (h : ∀ target ∈ t.targets, target.register? ≠ some name) (r : Registers) :
    (t.evaluate r).2.get? name = r.get? name := by
  apply evaluate_invariant (P := fun r' => r'.get? name = r.get? name)
  · intro target hTarget other hOther r' x hKept
    have hNe : name.key ≠ other.key := by
      intro hKey
      obtain ⟨s, -, rfl⟩ := Option.map_eq_some_iff.mp hOther
      obtain rfl := Payload.key_eq_text_iff.mp hKey
      exact h target hTarget hOther
    rw [Registers.get?_set, if_neg hNe, hKept]
  · rfl

end Expression

/-- Executing the opcodes of an expression leaves the registers that its evaluation leaves. -/
theorem Machine.store_execute_postorder (t : Expression) (m : Machine) :
    (m.execute t.postorder).2.store = (t.evaluate m.store).2 := by
  have hStore : (m.execute t.postorder).2.store = (t.result m.store).2 :=
    congrArg Prod.snd (Machine.execute_postorder t m)
  rw [hStore, Expression.result]
  rcases t.evaluate m.store with ⟨fault | e, r⟩ <;> rfl

/-- The source of an expression is evaluated by running its opcodes, folded or not. Only where
folding stops nothing is run. -/
theorem evaluate_of_ofSource {source : String} {t : Expression}
    (h : Program.ofSource source = .ok ⟨t.postorder⟩) (optimize : Bool) (m : Machine) :
    evaluate source optimize m = (.error (.fault .notAssignable), m) ∨
      evaluate source optimize m =
        ((m.execute t.postorder).1.mapError .fault, (m.execute t.postorder).2) := by
  simp only [evaluate, prepare, h]
  cases optimize with
  | false => exact .inr rfl
  | true =>
      cases hOptimize : (Program.mk t.postorder).optimize with
      | error fault =>
          obtain ⟨rfl, -⟩ := Program.optimize_error_iff.mp hOptimize
          exact .inl rfl
      | ok q =>
          refine .inr ?_
          have hSame : q.execute m = m.execute t.postorder := Program.execute_optimize hOptimize m
          rw [← hSame]
          rfl

/-- An evaluation changes the registers as the expression does that the source is read as, or not at
all. -/
theorem store_evaluate_cases (source : String) (optimize : Bool) (m : Machine) :
    (evaluate source optimize m).2.store = m.store ∨
      ∃ t, Derives 0 (scan source).lexemes t ∧
        (evaluate source optimize m).2.store = (t.evaluate m.store).2 := by
  cases hSource : Program.ofSource source with
  | error e => exact .inl (by simp only [evaluate, prepare, hSource])
  | ok p =>
      obtain ⟨t, hDerives, rfl⟩ := Program.exists_derives_of_ofSource hSource
      rcases evaluate_of_ofSource hSource optimize m with hStops | hRuns
      · exact .inl (by rw [hStops])
      · refine .inr ⟨t, hDerives, ?_⟩
        rw [hRuns, Machine.store_execute_postorder]

end StackCalc
