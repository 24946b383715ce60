import StackCalc.Proofs.Optimization

/-! Folding opcodes that a host hands over. They need not come from a source, so they may leave any
number of elements on the stack. If they run to their end on an empty stack, folding them succeeds
and keeps their result. It keeps the registers too, unless it keeps the result only: then every
assignment below the topmost element is lost. -/
namespace StackCalc

namespace Machine

theorem store_perform_of_not_assign (m : Machine) {op : Opcode} (h : op.kind ≠ .assign) :
    (m.perform op).2.store = m.store := by
  rcases op with ⟨kind, payload⟩
  rcases kind with _ | _ | ((a | _) | _ | _)
  · simp only [Context.perform]
    cases payload.toNumber <;> rfl
  · rfl
  · change (m.calculate a).2.store = m.store
    rcases m with ⟨_ | ⟨right, _ | ⟨left, rest⟩⟩, r⟩
    · rfl
    · simp only [Context.calculate, popValue_cons]
      rfl
    · rw [calculate_cons]
  · exact absurd rfl h
  · rfl
  · rfl

theorem store_performAll_of_not_assign (m : Machine) {ops : List Opcode}
    (h : ∀ op ∈ ops, op.kind ≠ .assign) : (m.performAll ops).2.store = m.store := by
  induction ops generalizing m with
  | nil => rfl
  | cons op rest ih =>
      obtain ⟨hOp, hRest⟩ := List.forall_mem_cons.mp h
      have hStore := store_perform_of_not_assign m hOp
      rw [Context.performAll_cons]
      rcases hRun : m.perform op with ⟨fault | _, m'⟩
      · rw [hRun] at hStore
        exact hStore
      · rw [hRun] at hStore
        exact (ih m' hRest).trans hStore

theorem store_ne_empty_of_perform {m m' : Machine} {op : Opcode} (h : m.perform op = (.ok (), m'))
    (hSet : op.kind = .assign ∨ m.store ≠ .empty) : m'.store ≠ .empty := by
  by_cases hAssign : op.kind = .assign
  · have hRun : m.assign = (.ok (), m') := by
      simpa only [Context.perform, hAssign] using h
    rcases m with ⟨_ | ⟨value, _ | ⟨target, rest⟩⟩, r⟩
    · cases hRun
    · cases value <;> cases hRun
    · cases target with
      | literal x =>
          rw [assign_literal] at hRun
          cases hRun
      | reference name =>
          rw [assign_reference] at hRun
          cases hRun
          intro hEmpty
          exact setEntry_ne_nil _ _ _ (congrArg Registers.entries hEmpty)
  · have hStore := store_perform_of_not_assign m hAssign
    rw [h] at hStore
    rw [hStore]
    exact hSet.resolve_left hAssign

/-- A register that was set stays set. -/
theorem store_ne_empty_of_performAll {m m' : Machine} {ops : List Opcode}
    (h : m.performAll ops = (.ok (), m'))
    (hSet : (∃ op ∈ ops, op.kind = .assign) ∨ m.store ≠ .empty) : m'.store ≠ .empty := by
  induction ops generalizing m with
  | nil =>
      cases h
      simpa using hSet
  | cons op rest ih =>
      rw [Context.performAll_cons] at h
      rcases hOp : m.perform op with ⟨fault | _, m₁⟩
      · rw [hOp] at h
        cases h
      · rw [hOp] at h
        apply ih h
        rcases hSet with ⟨found, hMem, hAssign⟩ | hStore
        · rcases List.mem_cons.mp hMem with rfl | hRest
          · exact .inr (store_ne_empty_of_perform hOp (.inl hAssign))
          · exact .inl ⟨found, hRest, hAssign⟩
        · exact .inr (store_ne_empty_of_perform hOp (.inr hStore))

/-- A run with a result has come to its end, and its result is the value of the topmost element. -/
theorem performAll_of_execute_ok {m : Machine} {ops : List Opcode} {x : Float}
    (h : (m.execute ops).1 = .ok x) :
    ∃ e rest r, m.performAll ops = (.ok (), ⟨e :: rest, r⟩) ∧ r.value e = x ∧
      (m.execute ops).2 = ⟨rest, r⟩ := by
  simp only [Context.execute] at h ⊢
  rcases hRun : m.performAll ops with ⟨fault | _, ⟨_ | ⟨e, rest⟩, r⟩⟩
  · rw [hRun] at h
    cases h
  · rw [hRun] at h
    cases h
  · rw [hRun] at h
    cases h
  · rw [hRun] at h
    simp only [popValue_cons] at h ⊢
    cases h
    exact ⟨e, rest, r, rfl, rfl, rfl⟩

end Machine

/-- A number on top of the stack waits. -/
theorem Folder.Splits.waiting_of_literal {f : Folder} {waiting : List Float}
    {covered : List Element} (h : f.Splits waiting covered) {x : Float} {rest : List Element}
    (hStack : f.replay.stack = .literal x :: rest) : ∃ waiting', waiting = x :: waiting' := by
  have hSplit := h.stack.symm.trans hStack
  cases waiting with
  | nil =>
      have hTop := h.top (.literal x) (by simp_all)
      cases hTop
  | cons y waiting' =>
      cases hSplit
      exact ⟨waiting', rfl⟩

/-- Folding opcodes that run to their end on an empty stack succeeds. It gives the number that they
leave on top, or opcodes that do all they do. -/
theorem foldWith_of_performAll (standIn : Float) {ops : List Opcode} {r : Registers} {m : Machine}
    (h : (Context.fresh r).performAll ops = (.ok (), m)) :
    ∃ folded, foldWith standIn ops = .ok folded ∧
      ((∃ x rest, folded = .constant x ∧ m.stack = .literal x :: rest) ∨
        (Context.fresh r).performAll (folded.opcodes?.getD ops) = (.ok (), m)) := by
  have hStart := Folder.Tracks.start standIn (Context.fresh r)
  cases hSteps : (Folder.start standIn).steps ops with
  | error fault =>
      have hFault := hStart.steps_error hSteps fun _ => rfl
      rw [List.nil_append, h] at hFault
      rcases hFault with hFault | hFault <;> cases hFault
  | ok f =>
      obtain ⟨waiting, covered, hTracks⟩ := hStart.steps hSteps
      rw [List.nil_append] at hTracks
      simp only [foldWith, hSteps]
      split
      · rename_i x rest hTop
        refine ⟨_, rfl, .inl ⟨x, ?_⟩⟩
        obtain ⟨waiting', rfl⟩ := hTracks.splits.waiting_of_literal hTop
        rcases hTracks.runs with ⟨real, r', -, -, hOps⟩ | ⟨m', -, hOps⟩
        · rw [h] at hOps
          cases hOps
          exact ⟨_, rfl, rfl⟩
        · rw [h] at hOps
          cases hOps
      · rename_i hTop
        obtain rfl := hTracks.splits.waiting_eq_nil hTop
        refine ⟨_, rfl, .inr ?_⟩
        split
        · exact hTracks.performAll_emitted.trans h
        · exact h

def Program.Assigns (p : Program) : Prop := ∃ op ∈ p.opcodes, op.kind = .assign

instance (p : Program) : Decidable p.Assigns :=
  inferInstanceAs (Decidable (∃ op ∈ p.opcodes, op.kind = .assign))

/-- A program that succeeds in a fresh context, whatever its opcodes are, can be folded, and the
folded program has the same result there. It leaves the same registers, unless the program assigns
and only its result was kept; then no register is set any more, although the program sets at least
one. -/
theorem optimize_of_execute_ok {p : Program} {r : Registers} {x : Float}
    (h : (p.execute (Context.fresh r)).1 = .ok x) :
    ∃ q, p.optimize = .ok q ∧ (q.execute (Context.fresh r)).1 = .ok x ∧
      ((q = ⟨[.number x]⟩ → ¬ p.Assigns) →
        (q.execute (Context.fresh r)).2.store = (p.execute (Context.fresh r)).2.store) ∧
      (q = ⟨[.number x]⟩ → p.Assigns →
        (q.execute (Context.fresh r)).2.store = r ∧
          (p.execute (Context.fresh r)).2.store ≠ .empty) := by
  obtain ⟨e, rest, r', hRun, hValue, hLeft⟩ := Machine.performAll_of_execute_ok h
  obtain ⟨folded, hFold, hKept⟩ := foldWith_of_performAll registerStandIn hRun
  have hLost : p.Assigns → (p.execute (Context.fresh r)).2.store ≠ .empty := by
    intro hAssigns
    have hStore := Machine.store_ne_empty_of_performAll hRun (.inl hAssigns)
    rwa [Program.execute, hLeft]
  refine ⟨⟨folded.opcodes?.getD p.opcodes⟩, ?_, ?_⟩
  · rw [Program.optimize_eq, fold, hFold]
    rfl
  rcases hKept with ⟨y, below, rfl, hTop⟩ | hSame
  · -- Only the topmost element is kept.
    cases hTop
    cases hValue
    refine ⟨rfl, ?_, fun _ hAssigns => ⟨rfl, hLost hAssigns⟩⟩
    intro hKeeps
    have hNone : ∀ op ∈ p.opcodes, op.kind ≠ .assign := by
      intro op hMem hAssign
      exact hKeeps rfl ⟨op, hMem, hAssign⟩
    have hStore := Machine.store_performAll_of_not_assign (Context.fresh r) hNone
    rw [hRun] at hStore
    rw [Program.execute, Program.execute, hLeft]
    exact hStore.symm
  · -- Everything is kept.
    have hExecute : Program.execute ⟨folded.opcodes?.getD p.opcodes⟩ (Context.fresh r) =
        p.execute (Context.fresh r) := by
      simp only [Program.execute, Context.execute, hSame, hRun]
    refine ⟨hExecute ▸ h, fun _ => by rw [hExecute], ?_⟩
    intro hConstant hAssigns
    rw [hConstant]
    exact ⟨rfl, hLost hAssigns⟩

/-- A number below an assignment is kept, although the result does not depend on it. -/
theorem optimize_above_number :
    let p : Program := ⟨[.number 7, .identifier "a", .number 1, .number 2,
      .operator (.arithmetic .add), .operator .assign]⟩
    p.optimize = .ok ⟨[.number 7, .identifier "a", .number 3, .operator .assign]⟩ ∧
      ∃ q, p.optimize = .ok q ∧ (q.execute (Context.fresh Registers.empty)).1 = .ok 3 ∧
        (q.execute (Context.fresh Registers.empty)).2.store =
          (p.execute (Context.fresh Registers.empty)).2.store := by
  intro p
  have hFolded : p.optimize = .ok ⟨[.number 7, .identifier "a", .number 3, .operator .assign]⟩ :=
    eq_ok_of_toOption (by decide +kernel)
  have hRun : (p.execute (Context.fresh Registers.empty)).1 = .ok 3 :=
    eq_ok_of_toOption (by decide +kernel)
  refine ⟨hFolded, ?_⟩
  obtain ⟨q, hOptimize, hResult, hStore, -⟩ := optimize_of_execute_ok hRun
  refine ⟨q, hOptimize, hResult, hStore ?_⟩
  rw [hFolded] at hOptimize
  cases hOptimize
  intro hConstant
  exact absurd (congrArg Program.size hConstant) (by decide)

/-- A number above an assignment is all that is kept: the program sets a register, and what it is
folded to does not. -/
theorem optimize_drops_assignment :
    let p : Program := ⟨[.identifier "a", .number 1, .operator .assign, .number 2]⟩
    (p.execute (Context.fresh Registers.empty)).1 = .ok 2 ∧
      (p.execute (Context.fresh Registers.empty)).2.store.get? "a" = some 1 ∧
      ∃ q, p.optimize = .ok q ∧
        (q.execute (Context.fresh Registers.empty)).2.store.get? "a" = none :=
  ⟨rfl, rfl, ⟨[.number 2]⟩, rfl, rfl⟩

end StackCalc
