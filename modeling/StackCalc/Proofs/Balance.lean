import StackCalc.Proofs.Optimization

/-! Stack heights. The kinds of opcodes tell how high the stack is behind them. Opcodes that find
all their operands above some elements never touch those elements, so they do the same whatever the
elements are. Compiled programs are of that kind, and folding keeps them so. -/
namespace StackCalc

/-- The height of the stack behind an opcode, if the opcode finds its operands on it. -/
def Opcode.height? (n : Nat) (op : Opcode) : Option Nat :=
  match op.kind, n with
  | .number, n | .identifier, n => some (n + 1)
  | .symbol (.operator _), n + 2 => some (n + 1)
  | _, _ => none

/-- The height of the stack behind opcodes, if all of them find their operands. -/
def height? (n : Nat) (ops : List Opcode) : Option Nat :=
  ops.foldlM Opcode.height? n

theorem height?_cons (n : Nat) (op : Opcode) (rest : List Opcode) :
    height? n (op :: rest) = (op.height? n).bind (height? · rest) := by
  rw [height?, List.foldlM_cons]
  rfl

/-- Heights compose: a program of two parts is measured by one part after the other. -/
theorem height?_append (n : Nat) (first second : List Opcode) :
    height? n (first ++ second) = (height? n first).bind (height? · second) := by
  rw [height?, List.foldlM_append]
  rfl

@[simp] theorem height?_singleton (n : Nat) (op : Opcode) : height? n [op] = op.height? n := by
  rw [height?_cons]
  cases op.height? n <;> rfl

@[simp] theorem height?_numbers (n : Nat) (xs : List Float) :
    height? n (xs.map Opcode.number) = some (n + xs.length) := by
  induction xs generalizing n with
  | nil => rfl
  | cons x rest ih =>
      rw [List.map_cons, height?_cons]
      have hRest := ih (n + 1)
      rw [List.length_cons, ← Nat.add_assoc, Nat.add_right_comm]
      exact hRest

/-- The opcodes of an expression raise the stack by one, and need nothing below. -/
theorem Expression.height?_postorder (t : Expression) (n : Nat) :
    height? n t.postorder = some (n + 1) := by
  induction t generalizing n with
  | number | negative | identifier => rfl
  | group t ih => exact ih n
  | binary op left right ihLeft ihRight =>
      rw [postorder, height?_append, height?_append, ihLeft]
      simp only [Option.bind_some, ihRight, height?_singleton]
      rfl

namespace Context
variable {σ : Type} [Store σ]

/-- Operators do not look at their payload. -/
theorem perform_operator_eq (c : Context σ) (op : Operator) (payload : Payload) :
    c.perform ⟨.symbol (.operator op), payload⟩ = c.perform (.operator op) := by
  cases op <;> rfl

/-- An opcode that succeeds has found its operands. -/
theorem height?_of_perform {c c' : Context σ} {op : Opcode} (h : c.perform op = (.ok (), c')) :
    op.height? c.depth = some c'.depth := by
  rcases op with ⟨kind, payload⟩
  rcases kind with _ | _ | (op | _ | _)
  · simp only [perform] at h
    split at h <;> cases h
    rfl
  · cases h
    rfl
  · rcases short_or_operands c.stack with hShort | ⟨right, left, rest, hStack⟩
    · have hFault := perform_operator_of_short hShort op payload
      rw [h] at hFault
      cases hFault
    · have hDepth : c.depth = rest.length + 2 := congrArg List.length hStack
      rw [perform_operator_eq] at h
      rcases perform_operator_of_stack hStack op with ⟨e, c₁, hOp, hAfter⟩ | ⟨c₁, hOp, -⟩
      · rw [h] at hOp
        cases hOp
        rw [hDepth, depth, hAfter]
        rfl
      · rw [h] at hOp
        cases hOp
  · cases h
  · cases h

/-- A run that succeeds ends at the height that was computed without running it. -/
theorem height?_of_performAll {c c' : Context σ} {ops : List Opcode}
    (h : c.performAll ops = (.ok (), c')) : height? c.depth ops = some c'.depth := by
  induction ops generalizing c with
  | nil =>
      cases h
      rfl
  | cons op rest ih =>
      rw [performAll_cons] at h
      rcases hOp : c.perform op with ⟨fault | _, c₁⟩
      · rw [hOp] at h
        cases h
      · rw [hOp] at h
        rw [height?_cons, height?_of_perform hOp]
        exact ih h

/-- The same context with more elements at the bottom of its stack. -/
def onTopOf (c : Context σ) (base : List Element) : Context σ := ⟨c.stack ++ base, c.store⟩

/-- Popping from a stack with an element of its own does not reach the stack below. -/
theorem popValue_onTopOf {c : Context σ} (h : c.stack ≠ []) (base : List Element) :
    (c.onTopOf base).popValue = (c.popValue.1, c.popValue.2.onTopOf base) := by
  rcases c with ⟨_ | ⟨e, rest⟩, store⟩
  · exact absurd rfl h
  · cases e <;> rfl

/-- An opcode that finds its operands neither changes what is below them nor depends on it. -/
theorem perform_onTopOf {c : Context σ} {op : Opcode} {n : Nat} (h : op.height? c.depth = some n)
    (base : List Element) :
    (c.onTopOf base).perform op = ((c.perform op).1, (c.perform op).2.onTopOf base) := by
  rcases op with ⟨kind, payload⟩
  rcases kind with _ | _ | (op | _ | _)
  · simp only [perform]
    cases payload.toNumber <;> rfl
  · rfl
  · rcases c with ⟨_ | ⟨right, _ | ⟨left, rest⟩⟩, store⟩
    · cases h
    · cases h
    · cases op <;> cases right <;> cases left <;> rfl
  · cases h
  · cases h

/-- Opcodes that never underflow behave alike on top of any stack, which they leave as it is. -/
theorem performAll_onTopOf {c : Context σ} {ops : List Opcode} {n : Nat}
    (h : height? c.depth ops = some n) (base : List Element) :
    (c.onTopOf base).performAll ops =
      ((c.performAll ops).1, (c.performAll ops).2.onTopOf base) := by
  induction ops generalizing c with
  | nil => rfl
  | cons op rest ih =>
      rw [height?_cons] at h
      obtain ⟨k, hOp, hRest⟩ := Option.bind_eq_some_iff.mp h
      rw [performAll_cons, performAll_cons, perform_onTopOf hOp]
      rcases hRun : c.perform op with ⟨fault | _, c'⟩
      · rfl
      · rw [height?_of_perform hRun] at hOp
        cases hOp
        exact ih hRest

end Context

namespace Program

/-- A program that leaves one element on the stack and never takes one that it has not put there. -/
def Balanced (p : Program) : Prop := height? 0 p.opcodes = some 1

instance (p : Program) : Decidable p.Balanced :=
  inferInstanceAs (Decidable (height? 0 p.opcodes = some 1))

/-- Compiled programs leave one element and never underflow. -/
theorem balanced_of_ofSource {source : String} {p : Program} (h : Program.ofSource source = .ok p) :
    p.Balanced := by
  obtain ⟨t, -, rfl⟩ := exists_derives_of_ofSource h
  exact t.height?_postorder 0

/-- A balanced program does on top of any stack what it does on an empty one. -/
theorem execute_of_balanced {σ : Type} [Store σ] {p : Program} (h : p.Balanced)
    (stack : List Element) (store : σ) :
    p.execute ⟨stack, store⟩ =
      ((p.execute (Context.fresh store)).1, (p.execute (Context.fresh store)).2.onTopOf stack) := by
  have hOnTop := Context.performAll_onTopOf (c := Context.fresh store) h stack
  change Context.performAll ⟨stack, store⟩ p.opcodes = _ at hOnTop
  simp only [execute, Context.execute, hOnTop]
  rcases hRun : (Context.fresh store).performAll p.opcodes with ⟨fault | _, c⟩
  · rfl
  · have hHeight := Context.height?_of_performAll hRun
    have hDepth : 1 = c.depth := Option.some.inj (h.symm.trans hHeight)
    apply Context.popValue_onTopOf
    rintro hEmpty
    rw [Context.depth, hEmpty] at hDepth
    cases hDepth

/-- So nothing but the registers tells its runs apart. -/
theorem Balanced.execute_of_store {σ : Type} [Store σ] {p : Program} (h : p.Balanced)
    {c c' : Context σ} (hStore : c.store = c'.store) :
    (p.execute c).1 = (p.execute c').1 ∧ (p.execute c).2.store = (p.execute c').2.store := by
  rcases c with ⟨stack, store⟩
  rcases c' with ⟨stack', store'⟩
  cases hStore
  rw [execute_of_balanced h stack store, execute_of_balanced h stack' store]
  exact ⟨rfl, rfl⟩

end Program

namespace Folder
variable {f f' : Folder} {op : Opcode} {ops : List Opcode}

/-- The depth of the replayed stack counts the covered elements and the waiting numbers. -/
theorem Splits.depth_eq {waiting : List Float} {covered : List Element}
    (h : f.Splits waiting covered) : f.replay.depth = f.bound + waiting.length := by
  rw [Context.depth, h.stack, h.bound, List.length_append, List.length_map, Nat.add_comm]

/-- The emitted opcodes find their operands, and they build as many elements as they cover. -/
theorem Splits.height?_step {waiting : List Float} {covered : List Element}
    (h : f.Splits waiting covered) (hEmitted : height? 0 f.emitted = some f.bound)
    (hStep : f.step op = .ok f') :
    (∃ waiting' covered', f'.Splits waiting' covered') ∧ height? 0 f'.emitted = some f'.bound := by
  rcases h.step_cases hStep with ⟨waiting', -, hSplits, hKept⟩ | ⟨covered', -, hSplits, hKept⟩
  · exact ⟨⟨_, _, hSplits⟩, by rw [hKept, hEmitted, h.bound, hSplits.bound]⟩
  · refine ⟨⟨_, _, hSplits⟩, ?_⟩
    have hOp := Context.height?_of_perform (perform_of_step hStep)
    rw [h.depth_eq, hSplits.depth_eq, List.length_nil, Nat.add_zero] at hOp
    rw [hKept, height?_append, height?_append, hEmitted, Option.bind_some, height?_numbers,
      Option.bind_some, List.length_reverse, height?_singleton, hOp]

/-- What the folder has emitted is always as high as the part of the stack it covers. This is the
invariant of folding, carried over a whole program. -/
theorem Splits.height?_steps {waiting : List Float} {covered : List Element}
    (h : f.Splits waiting covered) (hEmitted : height? 0 f.emitted = some f.bound)
    (hSteps : f.steps ops = .ok f') :
    (∃ waiting' covered', f'.Splits waiting' covered') ∧ height? 0 f'.emitted = some f'.bound := by
  refine steps_invariant (I := fun _ f =>
    (∃ waiting covered, f.Splits waiting covered) ∧ height? 0 f.emitted = some f.bound) ?_
    [] ⟨⟨waiting, covered, h⟩, hEmitted⟩ hSteps
  rintro _ f op f' ⟨⟨waiting, covered, hSplits⟩, hEmitted⟩ hStep
  exact hSplits.height?_step hEmitted hStep

end Folder

/-- Folding opcodes that leave one element gives opcodes that do. A constant is one element; without
one, everything on the stack of the replay is covered, and that is one element too. -/
theorem height?_of_foldWith {standIn : Float} {ops : List Opcode} {folded : Folded}
    (h : height? 0 ops = some 1) (hFold : foldWith standIn ops = .ok folded) :
    height? 0 (folded.opcodes?.getD ops) = some 1 := by
  obtain ⟨f, hSteps, ⟨x, rest, -, rfl⟩ | ⟨hTop, rfl⟩⟩ := foldWith_cases hFold
  · rfl
  · obtain ⟨⟨waiting, covered, hSplits⟩, hEmitted⟩ :=
      (Folder.splits_start standIn).height?_steps rfl hSteps
    have hHeight := Context.height?_of_performAll (Folder.performAll_of_steps hSteps)
    have hDepth : 1 = f.replay.depth := Option.some.inj (h.symm.trans hHeight)
    obtain rfl := hSplits.waiting_eq_nil hTop
    rw [hSplits.depth_eq, List.length_nil, Nat.add_zero] at hDepth
    rw [← hDepth] at hEmitted
    split
    · exact hEmitted
    · exact h

/-- Optimization preserves balance. -/
theorem Program.Balanced.optimize {p q : Program} (h : p.Balanced)
    (hOptimize : p.optimize = .ok q) : q.Balanced := by
  obtain ⟨folded, hFold, rfl⟩ := Program.exists_fold_of_optimize hOptimize
  exact height?_of_foldWith h hFold

end StackCalc
