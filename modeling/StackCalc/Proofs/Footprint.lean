import StackCalc.Proofs.Balance
import StackCalc.Proofs.HostPrograms
import StackCalc.Proofs.RegisterNames

/-! The registers that opcodes depend on and change. Every reference on the stack of a run was
pushed by an identifier opcode, so the run looks up and sets no other registers than those its
opcodes name. Two runs of the same opcodes that start with the same values in these registers go on
with the same stack, and if one of them stops at a fault, so does the other. -/
namespace StackCalc

/-- The register that an opcode pushes a reference to. -/
def Opcode.register? (op : Opcode) : Option Name :=
  match op.kind with
  | .identifier => some op.payload
  | .number | .symbol _ => none

/-- The keys of the registers that the opcodes of a program name. -/
def Program.footprint (p : Program) : List Name :=
  p.opcodes.filterMap fun op => op.register?.map Payload.key

theorem Program.mem_footprint {p : Program} {op : Opcode} {name : Name} (h : op ∈ p.opcodes)
    (hName : op.register? = some name) : name.key ∈ p.footprint :=
  List.mem_filterMap.mpr ⟨op, h, by rw [hName, Option.map_some]⟩

/-- Setting a register never removes or reorders names. -/
theorem Registers.names_prefix_set (r : Registers) (name : Name) (x : Float) :
    r.names <+: (r.set name x).names := by
  rw [names_set]
  split
  · exact List.prefix_rfl
  · exact List.prefix_append _ _

namespace Machine

/-- A machine that lacks an operand loses its stack and keeps its registers. -/
theorem perform_operator_short {stack : List Element} (h : stack.length < 2) (r : Registers)
    (op : Operator) (payload : Payload) :
    Context.perform ⟨stack, r⟩ ⟨.symbol (.operator op), payload⟩ =
      (.error .underflow, ⟨[], r⟩) := by
  rw [Context.perform_operator_of_short h]
  rcases stack with _ | ⟨e, _ | ⟨e', rest⟩⟩
  · rfl
  · rw [popValue_cons]
  · simp only [List.length_cons] at h
    omega

/-- An opcode leaves the registers as they are, or it sets the one that the second element of the
stack refers to. -/
theorem store_perform_cases (m : Machine) (op : Opcode) :
    (m.perform op).2.store = m.store ∨
      ∃ value name rest, m.stack = value :: .reference name :: rest ∧
        (m.perform op).2.store = m.store.set name (m.store.value value) := by
  by_cases hAssign : op.kind = .assign
  · have hRun : m.perform op = m.assign := by
      simp only [Context.perform, hAssign]
    rw [hRun]
    rcases m with ⟨_ | ⟨value, _ | ⟨target, rest⟩⟩, r⟩
    · exact .inl rfl
    · left
      cases value <;> rfl
    · cases target with
      | literal x => exact .inl (by rw [assign_literal])
      | reference name => exact .inr ⟨value, name, rest, rfl, by rw [assign_reference]⟩
  · exact .inl (store_perform_of_not_assign m hAssign)

/-- A reference on the stack was there before, or the opcode has pushed it. -/
theorem reference_of_perform {m : Machine} {op : Opcode} {name : Name}
    (h : .reference name ∈ (m.perform op).2.stack) :
    .reference name ∈ m.stack ∨ op.register? = some name := by
  rcases m with ⟨stack, r⟩
  rcases op with ⟨kind, payload⟩
  rcases kind with _ | _ | (op | _ | _)
  · left
    simp only [Context.perform] at h
    cases hNumber : payload.toNumber with
    | error fault =>
        rw [hNumber] at h
        exact h
    | ok x =>
        rw [hNumber] at h
        simpa using h
  · rcases List.mem_cons.mp h with hTop | hBelow
    · cases hTop
      exact .inr rfl
    · exact .inl hBelow
  · left
    rcases short_or_operands stack with hShort | ⟨right, left, rest, rfl⟩
    · rw [perform_operator_short hShort] at h
      cases h
    · -- What an operator leaves is a number.
      have hRest : .reference name ∈ rest := by
        rw [Context.perform_operator_eq, perform_operator] at h
        rcases hRun : op.run left right r with ⟨fault | e, r'⟩
        · rw [hRun] at h
          exact h
        · rw [hRun] at h
          have hNumber := Operator.register?_of_run hRun
          rcases List.mem_cons.mp h with rfl | hBelow
          · cases hNumber
          · exact hBelow
      exact List.mem_cons_of_mem _ (List.mem_cons_of_mem _ hRest)
  · exact .inl h
  · exact .inl h

/-- A register that nothing on the stack refers to keeps its value. -/
theorem get?_perform {m : Machine} {name : Name}
    (h : ∀ other, .reference other ∈ m.stack → name.key ≠ other.key) (op : Opcode) :
    (m.perform op).2.store.get? name = m.store.get? name := by
  rcases store_perform_cases m op with hSame | ⟨value, target, rest, hStack, hSet⟩
  · rw [hSame]
  · have hTarget : name.key ≠ target.key := h target (by simp [hStack])
    rw [hSet, Registers.get?_set, if_neg hTarget]

/-- A register that neither the stack nor the opcodes name keeps its value. -/
theorem get?_performAll {m : Machine} {name : Name} {ops : List Opcode}
    (h : ∀ other, .reference other ∈ m.stack → name.key ≠ other.key)
    (hOps : ∀ op ∈ ops, ∀ other ∈ op.register?, name.key ≠ other.key) :
    (m.performAll ops).2.store.get? name = m.store.get? name := by
  induction ops generalizing m with
  | nil => rfl
  | cons op rest ih =>
      obtain ⟨hOp, hRest⟩ := List.forall_mem_cons.mp hOps
      have hFirst := get?_perform h op
      have hStack : ∀ other, .reference other ∈ (m.perform op).2.stack → name.key ≠ other.key := by
        intro other hMem
        rcases reference_of_perform hMem with hBefore | hPushed
        · exact h other hBefore
        · exact hOp other hPushed
      rw [Context.performAll_cons]
      rcases hRun : m.perform op with ⟨fault | _, m'⟩
      · rw [hRun] at hFirst
        exact hFirst
      · rw [hRun] at hFirst hStack
        exact (ih hStack hRest).trans hFirst

theorem names_prefix_perform (m : Machine) (op : Opcode) :
    m.store.names <+: (m.perform op).2.store.names := by
  rcases store_perform_cases m op with hSame | ⟨value, target, rest, -, hSet⟩
  · simp only [hSame, List.prefix_rfl]
  · rw [hSet]
    exact Registers.names_prefix_set _ _ _

/-- No register is removed by a run, and those that it adds come behind the others. -/
theorem names_prefix_performAll (m : Machine) (ops : List Opcode) :
    m.store.names <+: (m.performAll ops).2.store.names := by
  induction ops generalizing m with
  | nil => exact List.prefix_rfl
  | cons op rest ih =>
      have hFirst := names_prefix_perform m op
      rw [Context.performAll_cons]
      rcases hRun : m.perform op with ⟨fault | _, m'⟩
      · rw [hRun] at hFirst
        exact hFirst
      · rw [hRun] at hFirst
        exact hFirst.trans (ih m')

/-- Taking the result leaves the registers alone. -/
theorem store_execute (m : Machine) (ops : List Opcode) :
    (m.execute ops).2.store = (m.performAll ops).2.store := by
  rw [Context.execute]
  rcases m.performAll ops with ⟨fault | _, ⟨_ | ⟨e, rest⟩, r⟩⟩
  · rfl
  · rfl
  · rfl
  · simp only [popValue_cons]

/-- Two machines that cannot be told apart by the registers with these keys, and whose stacks refer
to no other registers. -/
structure AgreeOn (keys : List Name) (m m' : Machine) : Prop where
  stack : m.stack = m'.stack
  refers : ∀ name, .reference name ∈ m.stack → name.key ∈ keys
  registers : ∀ name, name.key ∈ keys → m.store.get? name = m'.store.get? name

end Machine

/-- An element has one value in stores that agree on the register it refers to. -/
theorem Registers.value_eq {keys : List Name} {r r' : Registers}
    (h : ∀ name, name.key ∈ keys → r.get? name = r'.get? name) {e : Element}
    (hRefers : ∀ name, e = .reference name → name.key ∈ keys) : r.value e = r'.value e := by
  cases e with
  | literal x => rfl
  | reference name =>
      rw [value, value, h name (hRefers name rfl)]

/-- An operator has the same outcome over registers that agree on its operands, and they agree
after it. -/
theorem Operator.run_agree {keys : List Name} {r r' : Registers}
    (h : ∀ name, name.key ∈ keys → r.get? name = r'.get? name) {left right : Element}
    (hLeft : ∀ name, left = .reference name → name.key ∈ keys)
    (hRight : ∀ name, right = .reference name → name.key ∈ keys) (op : Operator) :
    (op.run left right r).1 = (op.run left right r').1 ∧
      ∀ name, name.key ∈ keys →
        (op.run left right r).2.get? name = (op.run left right r').2.get? name := by
  have hRightValue := Registers.value_eq h hRight
  cases op with
  | arithmetic a =>
      have hLeftValue := Registers.value_eq h hLeft
      simp only [run, hLeftValue, hRightValue, true_and]
      exact h
  | assign =>
      cases left with
      | literal x => exact ⟨rfl, h⟩
      | reference target =>
          simp only [run, hRightValue, true_and]
          intro name hName
          rw [Registers.get?_set, Registers.get?_set, h name hName]

namespace Machine.AgreeOn
variable {keys : List Name} {m m' : Machine} {op : Opcode} {ops : List Opcode}

/-- One opcode has the same outcome in both machines, and they agree after it. -/
theorem perform (h : AgreeOn keys m m') (hOp : ∀ name ∈ op.register?, name.key ∈ keys) :
    (m.perform op).1 = (m'.perform op).1 ∧ AgreeOn keys (m.perform op).2 (m'.perform op).2 := by
  -- References are accounted for by the step lemma, so only outcome, stack and registers are left.
  suffices hSame : (m.perform op).1 = (m'.perform op).1 ∧
      (m.perform op).2.stack = (m'.perform op).2.stack ∧
      ∀ name, name.key ∈ keys →
        (m.perform op).2.store.get? name = (m'.perform op).2.store.get? name by
    obtain ⟨hOutcome, hStack, hRegisters⟩ := hSame
    refine ⟨hOutcome, hStack, ?_, hRegisters⟩
    intro name hMem
    rcases reference_of_perform hMem with hBefore | hPushed
    · exact h.refers name hBefore
    · exact hOp name hPushed
  obtain ⟨hStack, hRefers, hRegisters⟩ := h
  rcases m with ⟨stack, r⟩
  rcases m' with ⟨stack', r'⟩
  obtain rfl : stack = stack' := hStack
  rcases op with ⟨kind, payload⟩
  rcases kind with _ | _ | (op | _ | _)
  · simp only [Context.perform]
    cases payload.toNumber <;> exact ⟨rfl, rfl, hRegisters⟩
  · exact ⟨rfl, rfl, hRegisters⟩
  · rcases short_or_operands stack with hShort | ⟨right, left, rest, rfl⟩
    · simp only [perform_operator_short hShort, true_and]
      exact hRegisters
    · have hLeft : ∀ name, left = .reference name → name.key ∈ keys := by
        rintro name rfl
        exact hRefers name (by simp)
      have hRight : ∀ name, right = .reference name → name.key ∈ keys := by
        rintro name rfl
        exact hRefers name (by simp)
      obtain ⟨hOutcome, hAfter⟩ := op.run_agree hRegisters hLeft hRight
      simp only [Context.perform_operator_eq, perform_operator]
      rcases hRun : op.run left right r with ⟨outcome, r₁⟩
      rcases hRun' : op.run left right r' with ⟨outcome', r₁'⟩
      rw [hRun, hRun'] at hOutcome hAfter
      cases hOutcome
      cases outcome <;> exact ⟨rfl, rfl, hAfter⟩
  · exact ⟨rfl, rfl, hRegisters⟩
  · exact ⟨rfl, rfl, hRegisters⟩

/-- Opcodes within the keys keep machines that agree on them in agreement. -/
theorem performAll (h : AgreeOn keys m m')
    (hOps : ∀ op ∈ ops, ∀ name ∈ op.register?, name.key ∈ keys) :
    (m.performAll ops).1 = (m'.performAll ops).1 ∧
      AgreeOn keys (m.performAll ops).2 (m'.performAll ops).2 := by
  induction ops generalizing m m' with
  | nil => exact ⟨rfl, h⟩
  | cons op rest ih =>
      obtain ⟨hOp, hRest⟩ := List.forall_mem_cons.mp hOps
      obtain ⟨hOutcome, hAfter⟩ := h.perform hOp
      rw [Context.performAll_cons, Context.performAll_cons]
      rcases hRun : m.perform op with ⟨outcome, m₁⟩
      rcases hRun' : m'.perform op with ⟨outcome', m₁'⟩
      rw [hRun, hRun'] at hOutcome hAfter
      cases hOutcome
      cases outcome with
      | error fault => exact ⟨rfl, hAfter⟩
      | ok _ => exact ih hAfter hRest

/-- Programs within the keys have one result on machines that agree on them. -/
theorem execute (h : AgreeOn keys m m')
    (hOps : ∀ op ∈ ops, ∀ name ∈ op.register?, name.key ∈ keys) :
    (m.execute ops).1 = (m'.execute ops).1 ∧
      ∀ name, name.key ∈ keys →
        (m.execute ops).2.store.get? name = (m'.execute ops).2.store.get? name := by
  obtain ⟨hOutcome, hAfter⟩ := h.performAll hOps
  simp only [store_execute]
  refine ⟨?_, hAfter.registers⟩
  simp only [Context.execute]
  rcases hRun : m.performAll ops with ⟨outcome, ⟨stack, r⟩⟩
  rcases hRun' : m'.performAll ops with ⟨outcome', ⟨stack', r'⟩⟩
  rw [hRun, hRun'] at hOutcome hAfter
  obtain rfl : outcome = outcome' := hOutcome
  obtain rfl : stack = stack' := hAfter.stack
  rcases outcome with fault | _
  · rfl
  · cases stack with
    | nil => rfl
    | cons e rest =>
        have hValue : r.value e = r'.value e :=
          Registers.value_eq hAfter.registers fun name hName =>
            hAfter.refers name (hName ▸ List.mem_cons_self)
        simp only [popValue_cons, hValue]

end Machine.AgreeOn

/-- A program depends on and changes only the registers that it names. From two sets of registers
with the same values there it has the same result or fault, and it leaves the same values there. All
other registers stay as they are, and no register is removed, after a fault neither. A program that
was compiled moreover keeps every register whose bare name is on the left of no assignment. -/
theorem execute_within_footprint (p : Program) :
    (∀ r r' : Registers, (∀ name, name.key ∈ p.footprint → r.get? name = r'.get? name) →
      (p.execute (Context.fresh r)).1 = (p.execute (Context.fresh r')).1 ∧
        ∀ name, name.key ∈ p.footprint → (p.execute (Context.fresh r)).2.store.get? name =
          (p.execute (Context.fresh r')).2.store.get? name) ∧
    (∀ r : Registers,
      (∀ name, name.key ∉ p.footprint →
        (p.execute (Context.fresh r)).2.store.get? name = r.get? name) ∧
      r.names <+: (p.execute (Context.fresh r)).2.store.names) ∧
    ∀ source, Program.ofSource source = .ok p →
      ∃ t, (∀ s, Derives 0 (scan source).lexemes s ↔ s = t) ∧
        ∀ (r : Registers) (name : Name), (∀ target ∈ t.targets, target.register? ≠ some name) →
          (p.execute (Context.fresh r)).2.store.get? name = r.get? name := by
  refine ⟨?_, ?_, ?_⟩
  · intro r r' hAgree
    have hFresh : Machine.AgreeOn p.footprint (Context.fresh r) (Context.fresh r') :=
      ⟨rfl, by simp [Context.fresh], hAgree⟩
    exact hFresh.execute fun op hOp name hName => Program.mem_footprint hOp hName
  · intro r
    simp only [Program.execute, Machine.store_execute]
    refine ⟨?_, Machine.names_prefix_performAll (Context.fresh r) p.opcodes⟩
    intro name hName
    apply Machine.get?_performAll
    · simp [Context.fresh]
    · intro op hOp other hPushed hKey
      exact hName (hKey ▸ Program.mem_footprint hOp hPushed)
  · intro source hSource
    obtain ⟨t, hUnique, rfl⟩ := Program.exists_expression_of_ofSource hSource
    refine ⟨t, hUnique, ?_⟩
    intro r name hTargets
    rw [Program.execute, Machine.store_execute_postorder]
    exact Expression.get?_evaluate hTargets r

/-- A run that fails after its first assignment. The register `d`, which it does not name, is set in
one context only; `b` is named but never assigned to. -/
theorem execute_within_footprint_of_fault :
    ∃ p, Program.ofSource "(a = b) + (1 = c)" = .ok p ∧
      let left := p.execute (Context.fresh (Registers.ofList [("b", 4), ("d", 7)]))
      let right := p.execute (Context.fresh (Registers.ofList [("b", 4)]))
      left.1 = .error .notAssignable ∧ left.1 = right.1 ∧
        left.2.store.get? "a" = some 4 ∧ left.2.store.get? "a" = right.2.store.get? "a" ∧
        left.2.store.get? "d" = some 7 ∧ right.2.store.get? "d" = none ∧
        right.2.store.get? "b" = some 4 ∧ .text "d" ∈ left.2.store.names := by
  let t : Expression := .binary (.arithmetic .add)
    (.group (.binary .assign (.identifier "a") (.identifier "b")))
    (.group (.binary .assign (.number "1") (.identifier "c")))
  have hDerives : Derives 0 (scan "(a = b) + (1 = c)").lexemes t := by decide +kernel
  have hSource := Program.ofSource_of_derives (by decide +kernel) hDerives (by decide)
  obtain ⟨hAgree, hFrame, hCompiled⟩ := execute_within_footprint ⟨t.postorder⟩
  have hSame : ∀ name : Name, name.key ∈ (Program.mk t.postorder).footprint →
      (Registers.ofList [("b", 4), ("d", 7)]).get? name =
        (Registers.ofList [("b", 4)]).get? name := by
    have hFootprint : (Program.mk t.postorder).footprint = [.text "a", .text "b", .text "c"] := rfl
    simp only [hFootprint, List.mem_cons, List.not_mem_nil, or_false, Payload.key_eq_text_iff]
    rintro name (rfl | rfl | rfl) <;> rfl
  obtain ⟨hOutcome, hAfter⟩ := hAgree _ _ hSame
  obtain ⟨s, hUnique, hKept⟩ := hCompiled _ hSource
  obtain rfl := (hUnique t).mp hDerives
  refine ⟨_, hSource, rfl, hOutcome, rfl, hAfter "a" (by decide), ?_, ?_, ?_, ?_⟩
  · exact (hFrame _).1 "d" (by decide)
  · exact (hFrame _).1 "d" (by decide)
  · exact hKept _ "b" (by decide)
  · exact (hFrame _).2.subset (by decide)

-- The two zeros name one register.
example :
    let p : Program := ⟨[⟨.identifier, .number 0⟩, .number 1, .operator .assign]⟩
    Payload.key (.number (-0)) ∈ p.footprint ∧
      (p.execute (Context.fresh Registers.empty)).2.store.get? (.number (-0)) = some 1 := by
  decide +kernel

end StackCalc
