import StackCalc.Proofs.Replay

/-! What folding keeps. While opcodes are folded, the numbers on top of the replay's stack wait, and
the emitted opcodes rebuild what lies below them. So on a machine the emitted opcodes and the
original ones reach stacks that differ in the waiting numbers only, or they meet the same fault in
the same state. -/
namespace StackCalc

/-- An opcode that works on waiting numbers alone and leaves numbers, so it need not be kept. -/
inductive Absorbs : List Float → Opcode → List Float → Prop where
  | number {waiting : List Float} {payload : Payload} {x : Float}
      (value : payload.toNumber = .ok x) : Absorbs waiting ⟨.number, payload⟩ (x :: waiting)
  | calculate (a : Arithmetic) (x y : Float) (waiting : List Float) (payload : Payload) :
      Absorbs (y :: x :: waiting) ⟨.arithmetic a, payload⟩ (a.apply x y :: waiting)

/-- On a machine such an opcode does the same, above any stack and without touching a register. -/
theorem Machine.perform_of_absorbs {waiting waiting' : List Float} {op : Opcode}
    (h : Absorbs waiting op waiting') (base : List Element) (r : Registers) :
    Context.perform ⟨waiting.map .literal ++ base, r⟩ op =
      (.ok (), ⟨waiting'.map .literal ++ base, r⟩) := by
  cases h with
  | number value =>
      simp only [Context.perform, value]
      rfl
  | calculate a x y rest payload =>
      exact Machine.calculate_cons (.literal y) (.literal x) (rest.map .literal ++ base) r a

namespace Folder

variable {f f' : Folder} {op : Opcode} {ops : List Opcode} {fault : Fault}

theorem perform_of_step (h : f.step op = .ok f') : f.replay.perform op = (.ok (), f'.replay) := by
  simp only [step] at h
  split at h
  · cases h
  · rename_i hPerform
    split at h <;> cases h <;> exact hPerform

theorem perform_of_step_error (h : f.step op = .error fault) :
    (f.replay.perform op).1 = .error fault := by
  simp only [step] at h
  split at h
  · rename_i hPerform
    cases h
    rw [hPerform]
  · split at h <;> cases h

theorem steps_cons_ok {rest : List Opcode} (h : f.steps (op :: rest) = .ok f') :
    ∃ middle, f.step op = .ok middle ∧ middle.steps rest = .ok f' := by
  simp only [steps] at h
  split at h
  · exact ⟨_, ‹_›, h⟩
  · cases h

theorem steps_cons_error {rest : List Opcode} (h : f.steps (op :: rest) = .error fault) :
    f.step op = .error fault ∨
      ∃ middle, f.step op = .ok middle ∧ middle.steps rest = .error fault := by
  simp only [steps] at h
  split at h
  · exact .inr ⟨_, ‹_›, h⟩
  · cases h
    exact .inl ‹_›

/-- What every step keeps, a run keeps. -/
theorem steps_invariant {I : List Opcode → Folder → Prop}
    (hStep : ∀ done f op f', I done f → f.step op = .ok f' → I (done ++ [op]) f')
    (done : List Opcode) (h : I done f) (hSteps : f.steps ops = .ok f') : I (done ++ ops) f' := by
  induction ops generalizing f done with
  | nil =>
      cases hSteps
      rwa [List.append_nil]
  | cons op rest ih =>
      obtain ⟨middle, hFirst, hRest⟩ := steps_cons_ok hSteps
      rw [← List.singleton_append, ← List.append_assoc]
      exact ih (done ++ [op]) (hStep done f op middle h hFirst) hRest

/-- Folding to the end has replayed all opcodes. -/
theorem performAll_of_steps (h : f.steps ops = .ok f') :
    f.replay.performAll ops = (.ok (), f'.replay) := by
  induction ops generalizing f with
  | nil =>
      cases h
      rfl
  | cons op rest ih =>
      obtain ⟨middle, hStep, hRest⟩ := steps_cons_ok h
      rw [Context.performAll_cons, perform_of_step hStep]
      exact ih hRest

/-- Folding that stops has met the fault of the replay. -/
theorem performAll_of_steps_error (h : f.steps ops = .error fault) :
    (f.replay.performAll ops).1 = .error fault := by
  induction ops generalizing f with
  | nil => cases h
  | cons op rest ih =>
      rcases steps_cons_error h with hStep | ⟨middle, hStep, hRest⟩
      · rw [← List.singleton_append]
        apply Context.performAll_append_fault
        rw [Context.performAll_singleton, perform_of_step_error hStep]
      · rw [Context.performAll_cons, perform_of_step hStep]
        exact ih hRest

/-- The stack of the replay consists of numbers that wait, the topmost first, and of elements that
the emitted opcodes cover. The topmost covered element is no number: a number is emitted only
together with an opcode behind it that leaves none. -/
structure Splits (f : Folder) (waiting : List Float) (covered : List Element) : Prop where
  stack : f.replay.stack = waiting.map Element.literal ++ covered
  bound : f.bound = covered.length
  untouched : f.replay.store.touched = false
  top : ∀ e ∈ covered.head?, e.isLiteral = false
  emitted : covered = [] → f.emitted = []

theorem splits_start (standIn : Float) : (start standIn).Splits [] [] where
  stack := rfl
  bound := rfl
  untouched := rfl
  top := by simp
  emitted := fun _ => rfl

namespace Splits
variable {waiting : List Float} {covered : List Element}

theorem replay_eq (h : f.Splits waiting covered) :
    f.replay = Replay.settled f.replay.store.standIn (waiting.map .literal ++ covered) := by
  rcases f with ⟨⟨stack, standIn, touched⟩, emitted, bound⟩
  cases h.stack
  cases h.untouched
  rfl

/-- The numbers that a kept opcode brings along are those that wait. -/
theorem waiting_eq (h : f.Splits waiting covered) :
    (if f.replay.topIsLiteral then f.replay.above f.bound else []) =
      (waiting.map Element.literal).reverse := by
  have hAbove : f.replay.above f.bound = (waiting.map Element.literal).reverse := by
    rw [Context.above, h.stack, h.bound, List.reverse_append]
    simp
  rw [hAbove]
  cases waiting with
  | nil => simp
  | cons x rest =>
      have hTop : f.replay.topIsLiteral = true := by
        simp [Context.topIsLiteral, h.stack]
      rw [if_pos hTop]

/-- The opcodes that push the waiting numbers, in the order in which they came. -/
theorem map_toOpcode_reverse (waiting : List Float) :
    (waiting.map Element.literal).reverse.map Element.toOpcode =
      waiting.reverse.map Opcode.number := by
  rw [← List.map_reverse, List.map_map]
  rfl

/-- An opcode that leaves no number on top is kept, behind the numbers that wait. -/
private theorem step_kept (h : f.Splits waiting covered) {name : Name} {rest : List Element}
    (hPerform : f.replay.perform op =
      (.ok (), Replay.settled f.replay.store.standIn (.reference name :: rest)))
    (hStep : f.step op = .ok f') :
    f'.Splits [] (.reference name :: rest) ∧
      f'.emitted = f.emitted ++ waiting.reverse.map Opcode.number ++ [op] := by
  simp only [step, hPerform, h.waiting_eq, map_toOpcode_reverse] at hStep
  cases hStep
  exact ⟨⟨rfl, rfl, rfl, by simp [Element.isLiteral], by simp⟩, rfl⟩

/-- An opcode that leaves a number on top is not kept. -/
private theorem step_absorbed (h : f.Splits waiting covered) {x : Float} {waiting' : List Float}
    (hPerform : f.replay.perform op = (.ok (), Replay.settled f.replay.store.standIn
      (.literal x :: (waiting'.map .literal ++ covered))))
    (hStep : f.step op = .ok f') :
    f'.Splits (x :: waiting') covered ∧ f'.emitted = f.emitted := by
  simp only [step, hPerform] at hStep
  cases hStep
  exact ⟨⟨rfl, h.bound, rfl, h.top, h.emitted⟩, rfl⟩

/-- Two numbers on top of the stack are two waiting numbers. -/
private theorem waiting_of_literals (h : f.Splits waiting covered) {x y : Float}
    {rest : List Element}
    (hStack : waiting.map .literal ++ covered = .literal y :: .literal x :: rest) :
    ∃ waiting', waiting = y :: x :: waiting' ∧ rest = waiting'.map .literal ++ covered := by
  rcases waiting with _ | ⟨y', _ | ⟨x', waiting'⟩⟩
  · have hTop := h.top (.literal y) (by simp_all)
    cases hTop
  · have hTop := h.top (.literal x) (by simp_all)
    cases hTop
  · simp only [List.map_cons, List.cons_append, List.cons.injEq, Element.literal.injEq] at hStack
    obtain ⟨rfl, rfl, rfl⟩ := hStack
    exact ⟨waiting', rfl, rfl⟩

/-- All that a step of folding can do without a fault. -/
theorem step_cases (h : f.Splits waiting covered) (hStep : f.step op = .ok f') :
    (∃ waiting', Absorbs waiting op waiting' ∧ f'.Splits waiting' covered ∧
      f'.emitted = f.emitted) ∨
    ∃ covered', Replay.Performs (waiting.map .literal ++ covered) op covered' ∧
      f'.Splits [] covered' ∧
      f'.emitted = f.emitted ++ waiting.reverse.map Opcode.number ++ [op] := by
  rcases hPerform : f.replay.perform op with ⟨fault | _, c⟩
  · simp only [step, hPerform] at hStep
    cases hStep
  have hSettled : (Replay.settled f.replay.store.standIn
      (waiting.map .literal ++ covered)).perform op = (.ok (), c) := by
    rw [← h.replay_eq]
    exact hPerform
  obtain ⟨stack', hPerforms, rfl⟩ := Replay.performs_of_perform hSettled
  generalize hStack : waiting.map Element.literal ++ covered = stack at hPerforms
  cases hPerforms with
  | number value =>
      subst hStack
      exact .inl ⟨_, .number value, h.step_absorbed hPerform hStep⟩
  | calculate a x y rest payload =>
      obtain ⟨waiting', rfl, rfl⟩ := h.waiting_of_literals hStack
      exact .inl ⟨_, .calculate a x y waiting' payload, h.step_absorbed hPerform hStep⟩
  | identifier _ payload =>
      exact .inr ⟨_, .identifier stack payload, h.step_kept hPerform hStep⟩
  | assign value name rest payload =>
      exact .inr ⟨_, .assign value name rest payload, h.step_kept hPerform hStep⟩
  | depend a rest payload hDepend =>
      exact .inr ⟨_, .depend a rest payload hDepend, h.step_kept hPerform hStep⟩

/-- Without a number on top nothing waits. -/
theorem waiting_eq_nil (h : f.Splits waiting covered)
    (hTop : ∀ x rest, f.replay.stack ≠ .literal x :: rest) : waiting = [] := by
  cases waiting with
  | nil => rfl
  | cons x rest => exact absurd h.stack (hTop x _)

/-- A single number on the stack waits, and nothing is covered. -/
theorem of_stack_singleton {x : Float} (h : f.Splits waiting covered)
    (hStack : f.replay.stack = [.literal x]) : waiting = [x] ∧ covered = [] := by
  have hSplit := h.stack.symm.trans hStack
  cases waiting with
  | nil =>
      have hTop := h.top (.literal x) (by simp_all)
      cases hTop
  | cons y rest => simpa [and_assoc] using hSplit

end Splits

/-- The emitted opcodes rebuild on a machine what the original ones build, as far as it is covered,
and leave the same registers; what they lack are the numbers that wait. Or both have stopped, in the
same state, because the machine refuses an assignment. -/
structure Tracks (f : Folder) (m : Machine) (ops : List Opcode) (waiting : List Float)
    (covered : List Element) : Prop where
  splits : f.Splits waiting covered
  runs :
    (∃ real r, Describes covered real ∧ m.performAll f.emitted = (.ok (), ⟨real ++ m.stack, r⟩) ∧
      m.performAll ops = (.ok (), ⟨waiting.map .literal ++ (real ++ m.stack), r⟩)) ∨
    ∃ m', m.performAll f.emitted = (.error .notAssignable, m') ∧
      m.performAll ops = (.error .notAssignable, m')

namespace Tracks
variable {m : Machine} {done : List Opcode} {waiting : List Float} {covered : List Element}

theorem start (standIn : Float) (m : Machine) : (Folder.start standIn).Tracks m [] [] [] :=
  ⟨splits_start standIn, .inl ⟨[], m.store, .nil, rfl, rfl⟩⟩

/-- Pushing the waiting numbers brings the machine of the emitted opcodes level. -/
theorem performAll_waiting {real : List Element} {r : Registers}
    (h : m.performAll f.emitted = (.ok (), ⟨real ++ m.stack, r⟩)) :
    m.performAll (f.emitted ++ waiting.reverse.map Opcode.number) =
      (.ok (), ⟨waiting.map .literal ++ (real ++ m.stack), r⟩) := by
  rw [Context.performAll_append_of_ok h, Machine.performAll_numbers, ← List.map_reverse,
    List.reverse_reverse]

/-- One step keeps the emitted opcodes on the track of the original ones. -/
theorem step (h : f.Tracks m done waiting covered) (hStep : f.step op = .ok f') :
    ∃ waiting' covered', f'.Tracks m (done ++ [op]) waiting' covered' := by
  rcases h.splits.step_cases hStep with
    ⟨waiting', hAbsorbs, hSplits, hEmitted⟩ | ⟨covered', hPerforms, hSplits, hEmitted⟩
  · refine ⟨waiting', covered, hSplits, ?_⟩
    rw [hEmitted]
    rcases h.runs with ⟨real, r, hDescribes, hRun, hDone⟩ | ⟨m', hRun, hDone⟩
    · refine .inl ⟨real, r, hDescribes, hRun, ?_⟩
      rw [Context.performAll_append_of_ok hDone, Context.performAll_singleton,
        Machine.perform_of_absorbs hAbsorbs]
    · exact .inr ⟨m', hRun, Context.performAll_append_of_error hDone _⟩
  · refine ⟨[], covered', hSplits, ?_⟩
    rw [hEmitted]
    rcases h.runs with ⟨real, r, hDescribes, hRun, hDone⟩ | ⟨m', hRun, hDone⟩
    · -- Both runs stand before `op` with the same stack and the same registers.
      rw [Context.performAll_append_of_ok (performAll_waiting hRun),
        Context.performAll_append_of_ok hDone, Context.performAll_singleton, ← List.append_assoc]
      rcases Machine.perform_of_performs hPerforms (hDescribes.append_literals waiting) m.stack r
        with ⟨real', r', hOp, hDescribes'⟩ | ⟨m', hOp⟩
      · exact .inl ⟨real', r', hDescribes', hOp, hOp⟩
      · exact .inr ⟨m', hOp, hOp⟩
    · rw [List.append_assoc]
      exact .inr ⟨m', Context.performAll_append_of_error hRun _,
        Context.performAll_append_of_error hDone _⟩

/-- So do all steps of a run. -/
theorem steps (h : f.Tracks m done waiting covered) (hSteps : f.steps ops = .ok f') :
    ∃ waiting' covered', f'.Tracks m (done ++ ops) waiting' covered' := by
  refine steps_invariant (I := fun done f => ∃ waiting covered, f.Tracks m done waiting covered) ?_
    done ⟨waiting, covered, h⟩ hSteps
  rintro done f op f' ⟨waiting, covered, hTracks⟩ hStep
  exact hTracks.step hStep

/-- A fault of folding is also a fault of the original opcodes: the same one, or an assignment that
the machine has refused before. A machine that is not empty may have the operands that folding
lacks, so underflow is left out there. -/
theorem steps_error (h : f.Tracks m done waiting covered) (hSteps : f.steps ops = .error fault)
    (hBase : fault = .underflow → m.stack = []) :
    (m.performAll (done ++ ops)).1 = .error fault ∨
      (m.performAll (done ++ ops)).1 = .error .notAssignable := by
  induction ops generalizing f done waiting covered with
  | nil => cases hSteps
  | cons op rest ih =>
      rw [← List.singleton_append, ← List.append_assoc]
      rcases steps_cons_error hSteps with hStep | ⟨middle, hStep, hRest⟩
      · have hFault := perform_of_step_error hStep
        rw [h.splits.replay_eq] at hFault
        rcases h.runs with ⟨real, r, hDescribes, -, hDone⟩ | ⟨m', -, hDone⟩
        · left
          apply Context.performAll_append_fault
          rw [Context.performAll_append_of_ok hDone, Context.performAll_singleton,
            ← List.append_assoc]
          exact Machine.perform_error_of_replay hFault (hDescribes.append_literals waiting) hBase r
        · right
          rw [List.append_assoc, Context.performAll_append_of_error hDone]
      · obtain ⟨waiting', covered', hMiddle⟩ := h.step hStep
        exact ih hMiddle hRest

/-- When nothing waits the emitted opcodes do all that the original ones do. -/
theorem performAll_emitted (h : f.Tracks m ops [] covered) :
    m.performAll f.emitted = m.performAll ops := by
  rcases h.runs with ⟨real, r, -, hRun, hOps⟩ | ⟨m', hRun, hOps⟩
  · rw [hRun, hOps]
    rfl
  · rw [hRun, hOps]

/-- When nothing is covered the original opcodes only push a number. -/
theorem performAll_constant {x : Float} (h : f.Tracks m ops [x] []) :
    m.performAll [.number x] = m.performAll ops := by
  have hEmitted := h.splits.emitted rfl
  rcases h.runs with ⟨real, r, hDescribes, hRun, hOps⟩ | ⟨m', hRun, -⟩
  · cases hDescribes
    rw [hEmitted] at hRun
    have hStore : m.store = r := congrArg (fun run => run.2.store) hRun
    rw [hOps, ← hStore]
    rfl
  · rw [hEmitted] at hRun
    cases hRun

end Tracks

end Folder

/-- Folding that succeeds has replayed all opcodes. It gives the number that they leave on top, or
else what was emitted, if that is shorter. -/
theorem foldWith_cases {standIn : Float} {ops : List Opcode} {folded : Folded}
    (h : foldWith standIn ops = .ok folded) :
    ∃ f, (Folder.start standIn).steps ops = .ok f ∧
      ((∃ x rest, f.replay.stack = .literal x :: rest ∧ folded = .constant x) ∨
        (∀ x rest, f.replay.stack ≠ .literal x :: rest) ∧
          folded = if f.emitted.length < ops.length then .shorter f.emitted else .unchanged) := by
  simp only [foldWith] at h
  split at h
  · cases h
  · rename_i f hSteps
    refine ⟨f, hSteps, ?_⟩
    split at h
    · rename_i x rest hStack
      cases h
      exact .inl ⟨x, rest, hStack, rfl⟩
    · rename_i hTop
      cases h
      exact .inr ⟨hTop, rfl⟩

end StackCalc
