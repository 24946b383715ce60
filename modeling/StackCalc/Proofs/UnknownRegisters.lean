import StackCalc.Proofs.Savings

/-! What folding makes of registers. It knows none of their values: whichever value they seem to
have in the replay, it comes to the same. An opcode that refers to a register or assigns to one is
always kept, in its place and as it is. All else that is kept is arithmetic, in its order, and
numbers. -/
namespace StackCalc

namespace Replay

/-- The replay with another value for registers to have. -/
def seeing (standIn : Float) (c : Replay) : Replay :=
  { c with store := { c.store with standIn } }

theorem push_seeing (standIn : Float) (c : Replay) (e : Element) :
    (seeing standIn c).push e = seeing standIn (c.push e) := by
  rcases c with ⟨stack, seen, touched⟩
  cases touched <;> rfl

/-- The value of a register never reaches the stack: a calculation with one leaves a placeholder. -/
theorem calculate_seeing (standIn : Float) (c : Replay) (a : Arithmetic) :
    (seeing standIn c).calculate a = ((c.calculate a).1, seeing standIn (c.calculate a).2) := by
  rcases c with ⟨_ | ⟨right, _ | ⟨left, rest⟩⟩, seen, touched⟩
  · rfl
  · cases right <;> rfl
  · -- No register has a part in the result of two numbers. Where a register is read, the results
    -- differ, but the store is touched by then and a placeholder is pushed in their place.
    cases right <;> cases left <;> cases touched <;> rfl

/-- An assignment does not read the register it names. -/
theorem assign_seeing (standIn : Float) (c : Replay) :
    (seeing standIn c).assign = (c.assign.1, seeing standIn c.assign.2) := by
  rcases c with ⟨_ | ⟨value, _ | ⟨target, rest⟩⟩, seen, touched⟩
  · rfl
  · cases value <;> rfl
  · -- Writing touches the store, so the value that was written is not pushed.
    cases value <;> cases target <;> rfl

/-- An opcode does the same whichever value registers seem to have. -/
theorem perform_seeing (standIn : Float) (c : Replay) (op : Opcode) :
    (seeing standIn c).perform op = ((c.perform op).1, seeing standIn (c.perform op).2) := by
  rcases op with ⟨kind, payload⟩
  rcases kind with _ | _ | ((a | _) | _ | _)
  · simp only [Context.perform]
    cases payload.toNumber with
    | error fault => rfl
    | ok x => simp only [push_seeing]
  · simp only [Context.perform, push_seeing]
  · exact calculate_seeing standIn c a
  · exact assign_seeing standIn c
  · rfl
  · rfl

end Replay

namespace Folder

def seeing (standIn : Float) (f : Folder) : Folder :=
  { f with replay := .seeing standIn f.replay }

/-- The step lemma: the folder decides alike whatever it takes the registers to hold. -/
theorem step_seeing (standIn : Float) (f : Folder) (op : Opcode) :
    (f.seeing standIn).step op = (f.step op).map (seeing standIn) := by
  have hTop : ∀ c : Replay, (Replay.seeing standIn c).topIsLiteral = c.topIsLiteral :=
    fun c => rfl
  have hAbove : (Replay.seeing standIn f.replay).above f.bound = f.replay.above f.bound := rfl
  simp only [step, seeing, Replay.perform_seeing, hTop, hAbove]
  rcases f.replay.perform op with ⟨fault | _, c⟩
  · rfl
  · simp only [hTop]
    split <;> rfl

/-- The run lemma for `step_seeing`. -/
theorem steps_seeing (standIn : Float) (f : Folder) (ops : List Opcode) :
    (f.seeing standIn).steps ops = (f.steps ops).map (seeing standIn) := by
  induction ops generalizing f with
  | nil => rfl
  | cons op rest ih =>
      simp only [steps, step_seeing]
      cases f.step op with
      | error fault => rfl
      | ok f' => exact ih f'

end Folder

/-- Folding comes to the same whichever value registers seem to have: to the same constant, to the
same opcodes, to no change or to the same fault. -/
theorem folding_ignores_standIn (standIn standIn' : Float) (ops : List Opcode) :
    foldWith standIn ops = foldWith standIn' ops := by
  have hSteps : (Folder.start standIn').steps ops =
      ((Folder.start standIn).steps ops).map (Folder.seeing standIn') :=
    Folder.steps_seeing standIn' (.start standIn) ops
  simp only [foldWith, hSteps]
  cases (Folder.start standIn).steps ops with
  | error fault => rfl
  | ok f => rfl

/-- Whether the opcode refers to a register or assigns to one. -/
def Opcode.usesRegister (op : Opcode) : Bool :=
  match op.kind with
  | .identifier | .symbol (.operator .assign) => true
  | _ => false

theorem Opcode.filter_numbers {p : Opcode → Bool} (h : ∀ x, p (.number x) = false)
    (xs : List Float) : (xs.map Opcode.number).filter p = [] := by
  rw [List.filter_map, List.filter_eq_nil_iff.mpr (by simp [h]), List.map_nil]

/-- Only opcodes on known numbers are absorbed. -/
theorem Absorbs.usesRegister_eq_false {waiting waiting' : List Float} {op : Opcode}
    (h : Absorbs waiting op waiting') : op.usesRegister = false := by
  cases h <;> rfl

/-- An opcode that leaves no number on top uses a register or is arithmetic. -/
theorem Replay.Performs.usesRegister_or_arithmetic {stack stack' : List Element} {op : Opcode}
    (h : Performs stack op stack') (hTop : ∀ e ∈ stack'.head?, e.isLiteral = false) :
    op.kind ≠ .number ∧ (op.usesRegister = true ∨ ∃ a, op.kind = .arithmetic a) := by
  cases h with
  | number => cases hTop _ rfl
  | identifier | assign => exact ⟨nofun, .inl rfl⟩
  | calculate a | depend a => exact ⟨nofun, .inr ⟨a, rfl⟩⟩

namespace Folder
variable {f f' : Folder} {op : Opcode} {ops done : List Opcode}

/-- What a folder that has replayed `done` has kept of it. -/
structure Keeps (f : Folder) (done : List Opcode) : Prop where
  splits : ∃ waiting covered, f.Splits waiting covered
  registers : f.emitted.filter Opcode.usesRegister = done.filter Opcode.usesRegister
  ordered : (f.emitted.filter (·.kind ≠ .number)).Sublist done
  kinds : ∀ op ∈ f.emitted,
    op.usesRegister = true ∨ (∃ a, op.kind = .arithmetic a) ∨ ∃ x, op = .number x

namespace Keeps

theorem start (standIn : Float) : (Folder.start standIn).Keeps [] :=
  ⟨⟨[], [], splits_start standIn⟩, rfl, .slnil, nofun⟩

/-- One step of the folder emits every use of a register it meets. -/
theorem step (h : f.Keeps done) (hStep : f.step op = .ok f') : f'.Keeps (done ++ [op]) := by
  obtain ⟨waiting, covered, hBefore⟩ := h.splits
  rcases hBefore.step_cases hStep with
    ⟨waiting', hAbsorbs, hSplits, hEmitted⟩ | ⟨covered', hPerforms, hSplits, hEmitted⟩
  · -- The opcode is not kept, and it uses no register.
    refine ⟨⟨waiting', covered, hSplits⟩, ?_, ?_, ?_⟩
    · have hNone : [op].filter Opcode.usesRegister = [] := by
        simp [hAbsorbs.usesRegister_eq_false]
      rw [hEmitted, List.filter_append, hNone, List.append_nil, h.registers]
    · rw [hEmitted]
      exact h.ordered.trans (List.sublist_append_left done [op])
    · rw [hEmitted]
      exact h.kinds
  · -- The opcode is kept, and it brings nothing along but numbers.
    obtain ⟨hNumber, hKind⟩ := hPerforms.usesRegister_or_arithmetic hSplits.top
    refine ⟨⟨[], covered', hSplits⟩, ?_, ?_, ?_⟩
    · rw [hEmitted, List.filter_append, List.filter_append, List.filter_append, h.registers,
        Opcode.filter_numbers (fun x => rfl), List.append_nil]
    · have hSelf : [op].filter (·.kind ≠ .number) = [op] := by
        simp [hNumber]
      rw [hEmitted, List.filter_append, List.filter_append, hSelf,
        Opcode.filter_numbers (fun x => rfl), List.append_nil]
      exact h.ordered.append (List.Sublist.refl [op])
    · rw [hEmitted]
      refine List.forall_mem_append.mpr ⟨List.forall_mem_append.mpr ⟨h.kinds, ?_⟩, ?_⟩
      · intro number hNumber
        obtain ⟨x, -, rfl⟩ := List.mem_map.mp hNumber
        exact .inr (.inr ⟨x, rfl⟩)
      · intro last hLast
        obtain rfl := List.mem_singleton.mp hLast
        exact hKind.imp_right .inl

/-- The uses of registers are all emitted, in their order. -/
theorem of_steps {standIn : Float} (hSteps : (Folder.start standIn).steps ops = .ok f) :
    f.Keeps ops := by
  refine steps_invariant (I := fun done f => f.Keeps done) ?_ [] (start standIn) hSteps
  intro done f op f' hKeeps hStep
  exact hKeeps.step hStep

/-- An emitted opcode that uses a register stands at its place in the original: as many such opcodes
come before it there, and they are the same. -/
theorem exists_place (h : f.Keeps ops) {before after : List Opcode}
    (hEmitted : f.emitted = before ++ op :: after) (hUses : op.usesRegister = true) :
    ∃ before' after', ops = before' ++ op :: after' ∧
      before'.filter Opcode.usesRegister = before.filter Opcode.usesRegister := by
  have hRegisters := h.registers.symm
  rw [hEmitted, List.filter_append, List.filter_cons_of_pos hUses] at hRegisters
  obtain ⟨first, second, rfl, hFirst, hSecond⟩ := List.filter_eq_append_iff.mp hRegisters
  obtain ⟨between, after', rfl, hBetween, -, -⟩ := List.filter_eq_cons_iff.mp hSecond
  refine ⟨first ++ between, after', by rw [List.append_assoc], ?_⟩
  rw [List.filter_append, hFirst, List.filter_eq_nil_iff.mpr hBetween, List.append_nil]

end Keeps

end Folder

/-- Folding keeps every opcode that refers to a register or assigns to one, in its order and with
its payload. All else that is emitted is arithmetic of the original, in its order, and numbers. So a
placeholder is never emitted as a name, except in a place where the original has it as a name. -/
theorem folding_keeps_register_opcodes {ops : List Opcode} {f : Folder}
    (h : (Folder.start registerStandIn).steps ops = .ok f) :
    (f.replay.topIsLiteral = false → fold ops =
        .ok (if f.emitted.length < ops.length then .shorter f.emitted else .unchanged)) ∧
      f.emitted.filter Opcode.usesRegister = ops.filter Opcode.usesRegister ∧
      (f.emitted.filter (·.kind ≠ .number)).Sublist ops ∧
      (∀ op ∈ f.emitted,
        op.usesRegister = true ∨ (∃ a, op.kind = .arithmetic a) ∨ ∃ x, op = .number x) ∧
      ∀ before after, f.emitted = before ++ placeholder.toOpcode :: after →
        ∃ before' after', ops = before' ++ placeholder.toOpcode :: after' ∧
          before'.filter Opcode.usesRegister = before.filter Opcode.usesRegister := by
  have hKeeps := Folder.Keeps.of_steps h
  refine ⟨foldWith_of_not_literal h, hKeeps.registers, hKeeps.ordered, hKeeps.kinds, ?_⟩
  intro before after hEmitted
  exact hKeeps.exists_place hEmitted rfl

/-- The right operand of the sum is a register that is called like the placeholder, and it is
emitted. For the left operand there is a placeholder on the stack, which is not. -/
theorem folding_keeps_named_placeholder :
    let ops : List Opcode := [.identifier "a", .number 2, .number 3,
      .operator (.arithmetic .multiply), .operator .assign, placeholder.toOpcode,
      .operator (.arithmetic .add)]
    fold ops = .ok (.shorter [.identifier "a", .number 6, .operator .assign, placeholder.toOpcode,
        .operator (.arithmetic .add)]) ∧
      ∃ before' after', ops = before' ++ placeholder.toOpcode :: after' ∧
        before'.filter Opcode.usesRegister = [.identifier "a", .operator .assign] := by
  intro ops
  obtain ⟨f, hSteps, hChecked⟩ := @exists_ok_of_any _ _ ((Folder.start registerStandIn).steps ops)
    (fun f => decide (f.replay.topIsLiteral = false ∧
      f.emitted = [.identifier "a", .number 6, .operator .assign] ++ placeholder.toOpcode ::
        [.operator (.arithmetic .add)])) (by decide +kernel)
  obtain ⟨hTop, hEmitted⟩ := of_decide_eq_true hChecked
  obtain ⟨hFold, -, -, -, hPlace⟩ := folding_keeps_register_opcodes hSteps
  refine ⟨?_, hPlace _ _ hEmitted⟩
  rw [hFold hTop, hEmitted]
  rfl

end StackCalc
